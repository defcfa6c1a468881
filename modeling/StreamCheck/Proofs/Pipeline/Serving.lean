import StreamCheck.Proofs.Network.Sealing
import StreamCheck.Proofs.Pipeline.Feasibility

/-! Serving: a graph that the catalog assembled can be handed out once it is frozen. It is sealed, it has a
model, and nothing that is built afterwards takes that away. -/

namespace StreamCheck.Network.Workspace
open Smv
variable {w w' : Workspace} {z : Sizes} {types : List PortType} {g : GraphId}

/-- A graph that can be handed out: frozen with all its groups, wired as it is bound, with outputs of some types,
and with a model. -/
structure Serves (w : Workspace) (z : Sizes) (types : List PortType) (g : GraphId) : Prop where
  sealed : w.Sealed g
  nests : ∃ height ≤ w.depth, w.NestsWithin height g
  wired : w.WiredThroughout g []
  pipes : ∀ side, (((w.graph g).externals side).map External.pipe).Nodup
  outputs : (w.graph g).outputs.map (fun e => w.typeOf .output e.port) = types
  compiles : ∃ m, w.compile z g = .ok m

theorem Serves.mono (h : w.Serves z types g) (hkeep : w.KeepsFrozen w') : w'.Serves z types g := by
  obtain ⟨height, hheight, hnests⟩ := h.nests
  have hdepth : height ≤ w'.depth := Nat.le_trans hheight (Nat.succ_le_succ hkeep.length_le)
  have hgraph (place : List Node) (inner : GraphId) (hplace : w.Within g place inner) :
      w'.graph inner = w.graph inner := h.sealed.graph_eq hkeep hplace
  have halike : w.Alike w' w.depth w'.depth g := hnests.alike hheight hdepth hgraph
  refine ⟨h.sealed.mono hkeep, ⟨height, hdepth, hnests.congr fun place inner hplace => ?_⟩,
    h.wired.congr fun place inner hplace => ⟨_, hgraph place inner hplace⟩, ?_, ?_, ?_⟩
  · rw [hgraph place inner hplace]
  · rw [hgraph [] g .top]
    exact h.pipes
  · rw [hgraph [] g .top, ← h.outputs]
    exact List.map_congr_left fun e he => halike.typeOf_eq h.wired .output he
  · rw [halike.exists_compile]
    exact h.compiles

end StreamCheck.Network.Workspace

namespace StreamCheck.Pipeline
open Network Workspace

def frozenIn (w : Workspace) : Option Assembly → Workspace
  | some a => w.freeze a.graph
  | none => w

namespace Catalog

section
variable {w : Workspace} {domain queue : Nat} {hd : 0 < domain} {hq : 0 < queue} {P Q : Plan} {s : Sizes}

theorem keepsFrozen_built (wiring? : Option Wiring) : w.KeepsFrozen (built w hd hq P Q wiring?) := by
  cases wiring? <;> exact keepsFrozen_append w _ _ _

theorem within_built_lt (hP : P.Behaves s) (hQ : Q.Behaves s) (wiring? : Option Wiring) {place : List Node}
    {inner : GraphId} (hplace : (built w hd hq P Q wiring?).Within w.graphs.length place inner) :
    inner < (built w hd hq P Q wiring?).graphs.length := by
  have hlevels := (complete_built hP hQ wiring?).nestsWithin.length_lt hplace
  cases hplace with
  | top => cases wiring? <;> exact Workspace.lt_length_grow
  | @inside place around _ group hplace hmem hinner =>
    -- a group is nested on the first level, and stands in the outer graph
    cases hplace with
    | inside _ _ _ =>
      simp only [List.length_cons] at hlevels
      omega
    | top =>
      cases wiring? with
      | none =>
        rw [graph_built, (Plan.shows_exposed w.nextPipe).nodes] at hmem
        rw [Plan.inner?_of_mem_shift hmem] at hinner
        nomatch hinner
      | some wiring =>
        rw [(stands_built wiring).outer] at hmem
        rw [built, Workspace.length_grow, List.length_cons]
        rcases Junction.inner?_cases hmem hinner with ⟨-, rfl⟩ | ⟨-, rfl⟩
        · simp [junction, branches]
        · simp [junction, branches]

theorem serves_built (hP : P.Behaves s) (hQ : Q.Behaves s) (wiring? : Option Wiring) :
    ((built w hd hq P Q wiring?).freeze w.graphs.length).Serves s (outputTypes wiring?) w.graphs.length := by
  have hcomplete : (built w hd hq P Q wiring?).Complete s 2 w.graphs.length := complete_built hP hQ wiring?
  have hdepth : 2 ≤ (built w hd hq P Q wiring?).depth := two_le_depth_built wiring?
  have hsame := SameButFrozen.freeze (built w hd hq P Q wiring?) w.graphs.length
  have hgraph := hsame.graph_eq w.graphs.length
  refine ⟨fun place inner hplace => ?_, ⟨2, ?_, ?_⟩,
    (orderly_built wiring?).wiredThroughout.congr fun _ inner _ => hsame.graph_eq inner, fun side => ?_, ?_, ?_⟩
  · rw [hsame.within_iff] at hplace
    exact frozen_freezeWithin hcomplete.nestsWithin hdepth (fun _ _ => within_built_lt hP hQ wiring?)
      (.refl _) hplace
  · rw [hsame.depth_eq]
    exact hdepth
  · exact hcomplete.nestsWithin.congr fun _ inner _ => hsame.nodes_eq inner
  · obtain ⟨frozen, hgraph⟩ := hgraph
    rw [hgraph]
    cases side with
    | input => exact nodup_pipes_built w hd hq P Q wiring? .input
    | output => exact nodup_pipes_built w hd hq P Q wiring? .output
  · obtain ⟨frozen, hgraph⟩ := hgraph
    rw [hgraph, ← outputTypes_built w hd hq P Q wiring?]
    exact List.map_congr_left fun e _ => hsame.typeOf_eq .output e.port
  · rw [hsame.compile_eq]
    exact hcomplete.exists_compile hdepth (orderly_built wiring?)

end

variable {c : Configuration}

theorem exists_assemble (c : Configuration) (w : Workspace) : ∃ answer w', (assemble c).run w = .ok answer w' ∧
    (answer.isSome = true ↔ Feasible c) ∧ w.KeepsFrozen (frozenIn w' answer) ∧
      ∀ a, answer = some a → (frozenIn w' answer).Serves ⟨c.domain, c.queue⟩ (outputTypes c.wiring?) a.graph := by
  obtain ⟨q, P, Q, hquery, hP, hQ⟩ | hnone := exists_plans_or_none c
  · have hrun := assemble_run (w := w) hquery hP hQ
    refine ⟨_, _, hrun, iff_of_true rfl ⟨w, _, _, hrun⟩, ?_, ?_⟩
    · exact (keepsFrozen_built c.wiring?).trans (keepsFrozen_freezeWithin _ _ _)
    · intro a ha
      obtain rfl := Option.some.inj ha
      obtain ⟨hbehaves, hbehaves'⟩ := plans_behave hP hQ
      exact serves_built hbehaves hbehaves' c.wiring?
  · obtain ⟨taken, new, hrun⟩ := assemble_run_none hnone
    exact ⟨none, _, hrun w, iff_of_false Bool.false_ne_true (not_feasible hnone), keepsFrozen_append w _ _ new,
      fun a ha => nomatch ha⟩

end Catalog
end StreamCheck.Pipeline
