import StreamCheck.Proofs.Circuit.Parts
import StreamCheck.Proofs.Network.Instances
import StreamCheck.Proofs.Network.Stream
import StreamCheck.Proofs.Network.Wiring
import StreamCheck.Proofs.Smv.Together

/-! Courses: what the nodes of a graph do along a run of the compiled model. Every leaf runs its own
module, and every input gets the events of the output that is connected to it, through the ports of
groups as well. -/

namespace StreamCheck.Network
open Smv

namespace Graph
variable {g : Graph} {around : List Node}

theorem Wired.binding?_eq_some {side : Side} {u : Port × Binding} (h : g.Wired around side)
    (hu : u ∈ g.uses around side) : g.binding? side u.1.slot = some u.2 :=
  lookup_eq_some_of_mem h.nodup (h.perm.mem_iff.2 (List.mem_map.2 ⟨u, hu, rfl⟩))

theorem incoming?_eq (g : Graph) (n : Node) (j : Nat) : g.incoming? n j =
    match g.binding? .input (n.id, j) with
    | some (.connection c) => some c
    | _ => none :=
  if_neg (by omega)

theorem Fed.feed_connection (h : g.Fed around) {c : Connection} (hc : c ∈ g.connections)
    (supply : Supply) : Workspace.feed g supply c.destination.node c.destination.index =
      .ok (Workspace.outputWire c.source) := by
  have hbinding := (h.wired .input).binding?_eq_some (connection_mem_uses around .input hc)
  have hincoming : g.incoming? c.destination.node c.destination.index = some c := by
    rw [incoming?_eq]
    exact congrArg (fun b => match b with | some (.connection c) => some c | _ => none) hbinding
  rw [Workspace.feed, hincoming]

theorem feed_eq_supply {p : Port} {supply : Supply} {wire : Wire} {b : Binding}
    (hb : g.binding? .input p.slot = some b) (hnone : ∀ c, b ≠ .connection c)
    (hwire : supply.lookup p.slot = some wire) :
    Workspace.feed g supply p.node p.index = .ok wire := by
  have hincoming : g.incoming? p.node p.index = none := by
    rw [incoming?_eq]
    rw [Port.slot] at hb
    rw [hb]
    cases b with
    | connection c => exact absurd rfl (hnone c)
    | external e => rfl
    | association group => rfl
  rw [Workspace.feed, hincoming]
  rw [Port.slot] at hwire
  simp only [hwire]

theorem Fed.slots_nodup (h : g.Fed around) (side : Side) :
    ((g.externals side).map fun e => e.port.slot).Nodup ∧
      (around.flatMap fun _ => (g.associations side).map fun a => a.2.slot).Nodup := by
  have huses := (h.wired side).uses_nodup
  rw [uses, List.map_append, List.map_append, List.map_flatMap, List.map_map, List.map_map] at huses
  obtain ⟨hfront, hassociations, -⟩ := List.nodup_append.1 huses
  obtain ⟨-, hexternals, -⟩ := List.nodup_append.1 hfront
  simp only [List.map_map] at hassociations
  exact ⟨hexternals, hassociations⟩

theorem Fed.feed_external (h : g.Fed around) {e : External} (he : e ∈ g.inputs) :
    Workspace.feed g (Workspace.pipeSupply g) e.port.node e.port.index =
      .ok (.own (.pipeInValue e.pipe), .own (.pipeInFire e.pipe)) := by
  have hbinding := (h.wired .input).binding?_eq_some (external_mem_uses around .input he)
  refine feed_eq_supply hbinding (fun c => Binding.noConfusion) ?_
  have hnodup : ((Workspace.pipeSupply g).map Prod.fst).Nodup := by
    rw [Workspace.pipeSupply, List.map_map]
    exact (h.slots_nodup .input).1
  exact lookup_eq_some_of_mem hnodup (List.mem_map.2 ⟨e, he, rfl⟩)

theorem Fed.feed_entry {group : Node} (h : g.Fed [group]) {a : Nat × Port} (ha : a ∈ g.entries) :
    Workspace.feed g (Workspace.groupSupply g) a.2.node a.2.index =
      .ok (.own (.inValue a.1), .own (.inFire a.1)) := by
  have hmem := association_mem_uses (g := g) .input (List.mem_singleton_self group) ha
  have hbinding := (h.wired .input).binding?_eq_some hmem
  refine feed_eq_supply hbinding (fun c => Binding.noConfusion) ?_
  have hnodup : ((Workspace.groupSupply g).map Prod.fst).Nodup := by
    have hslots := (h.slots_nodup .input).2
    rw [List.flatMap_singleton] at hslots
    rw [Workspace.groupSupply, List.map_map]
    exact hslots
  exact lookup_eq_some_of_mem hnodup (List.mem_map.2 ⟨a, ha, rfl⟩)

end Graph

namespace Workspace
variable {w : Workspace} {s : Sizes} {fuel : Nat} {g : GraphId} {supply : Supply} {around : List Node}

/-- A graph in which every port is used once and no connection leads back, and so are the graphs of its
groups. -/
inductive Orderly (w : Workspace) : GraphId → List Node → Prop
  | intro {g : GraphId} {around : List Node} (fed : (w.graph g).Fed around) (rank : NodeId → Nat)
    (forward : ∀ c ∈ (w.graph g).connections, rank c.source.node.id < rank c.destination.node.id)
    (inside : ∀ n ∈ (w.graph g).nodes, ∀ inner, n.inner? = some inner → Orderly w inner [n]) :
    Orderly w g around

theorem Orderly.fed (h : w.Orderly g around) : (w.graph g).Fed around := by
  cases h with
  | intro fed => exact fed

/-- What the nodes of a graph do along a trace of the module around them. -/
inductive Courses (w : Workspace) (s : Sizes) : GraphId → Trace → Prop
  | intro {g : GraphId} {τ : Trace}
    (leaf : ∀ n ∈ (w.graph g).nodes, n.inner? = none →
      ∃ m, n.leafModule s = .ok m ∧ m.Obeyed (τ.inside n.id))
    (connection : ∀ c ∈ (w.graph g).connections,
      (inputWire c.destination).stream τ = (outputWire c.source).stream τ)
    (group : ∀ n ∈ (w.graph g).nodes, ∀ inner, n.inner? = some inner → Courses w s inner (τ.inside n.id))
    (entry : ∀ n ∈ (w.graph g).nodes, ∀ inner, n.inner? = some inner → ∀ a ∈ (w.graph inner).entries,
      (inputWire a.2).stream (τ.inside n.id) = (τ.inside n.id).input a.1)
    (exit : ∀ n ∈ (w.graph g).nodes, ∀ inner, n.inner? = some inner → ∀ a ∈ (w.graph inner).exits,
      (τ.inside n.id).output a.1 = (outputWire a.2).stream (τ.inside n.id)) : Courses w s g τ

theorem argument_eq {i : Instance} {σ : Trace} (h : i.Obeyed σ) {x : Name} {a : Ref}
    (ha : i.argument? x = some a) (t : Nat) : σ t ⟨.within i.id x, none⟩ = σ t ⟨a, none⟩ :=
  (Instance.obeyed_iff.1 h).1 _ (mem_of_lookup_eq_some ha) t

theorem stream_input {n : Node} {i : Instance} {graph : Graph} {σ : Trace} {j : Nat} {wire : Wire}
    (hi : instanceOf w s fuel graph supply n = .ok i) (hσ : i.Obeyed σ) (hj : j < n.inputArity)
    (hwire : feed graph supply n j = .ok wire) : (inputWire ⟨n, j⟩).stream σ = wire.stream σ := by
  obtain ⟨wire', hwire', hvalue, hfire⟩ := argument?_input hi hj
  obtain rfl : wire = wire' := Except.ok.inj (hwire.symm.trans hwire')
  have hid := (instanceOf_eq_ok hi).1
  funext t
  have hv := argument_eq hσ hvalue t
  have hf := argument_eq hσ hfire t
  rw [hid] at hv hf
  exact Prod.ext hv hf

theorem exists_instance {parts : List Instance} (hparts : instances w s (fuel + 1) g supply = .ok parts)
    (hnodup : ((w.graph g).nodes.map Node.id).Nodup) {n : Node} (hn : n ∈ (w.graph g).nodes) :
    ∃ i ∈ parts, instanceOf w s fuel (w.graph g) supply n = .ok i := by
  obtain ⟨i, hfind, hi⟩ := exists_find?_of_forall₂ (mapM_eq_ok hparts)
    (fun n i hi => (instanceOf_eq_ok hi).1) hnodup hn
  exact ⟨i, List.mem_of_find?_eq_some hfind, hi⟩

theorem stream_of_feed {parts : List Instance} {τ : Trace} {p : Port} {wire : Wire}
    (hparts : instances w s fuel g supply = .ok parts) (hτ : Instance.AllObeyed parts τ)
    (hnodup : ((w.graph g).nodes.map Node.id).Nodup) (hp : p.node ∈ (w.graph g).nodes)
    (hlt : p.index < p.node.inputArity) (hwire : feed (w.graph g) supply p.node p.index = .ok wire) :
    (inputWire p).stream τ = wire.stream τ := by
  cases fuel with
  | zero => nomatch hparts
  | succ fuel =>
    obtain ⟨i, hi, hcompiled⟩ := exists_instance hparts hnodup hp
    exact stream_input hcompiled (Instance.allObeyed_iff.1 hτ i hi) hlt hwire

theorem leafModule_instanceOf {n : Node} {i : Instance} {graph : Graph}
    (hi : instanceOf w s fuel graph supply n = .ok i) (hinner : n.inner? = none) :
    n.leafModule s = .ok i.module := by
  simp only [instanceOf, hinner] at hi
  obtain ⟨c, hc, hi⟩ := bind_eq_ok_iff.1 hi
  obtain ⟨args, -, hi⟩ := bind_eq_ok_iff.1 hi
  obtain rfl := Except.ok.inj hi
  rw [Node.leafModule, hc]
  rfl

theorem leaf_obeyed {n : Node} {i : Instance} {graph : Graph} {σ : Trace}
    (hi : instanceOf w s fuel graph supply n = .ok i) (hσ : i.Obeyed σ) (hinner : n.inner? = none) :
    ∃ m, n.leafModule s = .ok m ∧ m.Obeyed (σ.inside n.id) := by
  have hmodule := (Instance.obeyed_iff.1 hσ).2.1
  rw [(instanceOf_eq_ok hi).1] at hmodule
  exact ⟨i.module, leafModule_instanceOf hi hinner, hmodule⟩

theorem group_output {n : Node} {i : Instance} {graph : Graph} {σ : Trace} {inner : GraphId}
    (hi : instanceOf w s fuel graph supply n = .ok i) (hσ : i.Obeyed σ) (hinner : n.inner? = some inner)
    {a : Nat × Port} (ha : (w.graph inner).exits.lookup a.1 = some a.2) (hlt : a.1 < n.outputArity) :
    (σ.inside n.id).output a.1 = (outputWire a.2).stream (σ.inside n.id) := by
  obtain ⟨hid, -, -, -, hgroup⟩ := instanceOf_eq_ok hi
  have hmodule := (Instance.obeyed_iff.1 hσ).2.1
  rw [hid, (hgroup inner hinner).2] at hmodule
  obtain ⟨hvalue, hfire⟩ := lookup_groupOutputs (w.graph inner).exits (List.mem_range.2 hlt) ha
  funext t
  exact Prod.ext (hmodule.defines _ (mem_of_lookup_eq_some hvalue) t)
    (hmodule.defines _ (mem_of_lookup_eq_some hfire) t)

theorem courses_of_obeyed {parts : List Instance} {τ : Trace} (hw : w.Orderly g around)
    (hparts : instances w s fuel g supply = .ok parts) (hτ : Instance.AllObeyed parts τ) :
    Courses w s g τ := by
  -- by the depth of nesting; a graph inside a group has other instances and another trace
  induction fuel generalizing g around supply parts τ with
  | zero => nomatch hparts
  | succ fuel ih =>
    cases hw with
    | intro fed rank forward inside =>
      have hinstance : ∀ n ∈ (w.graph g).nodes, ∃ i, i.Obeyed τ ∧
          instanceOf w s fuel (w.graph g) supply n = .ok i := by
        intro n hn
        obtain ⟨i, hi, hcompiled⟩ := exists_instance hparts fed.distinct hn
        exact ⟨i, Instance.allObeyed_iff.1 hτ i hi, hcompiled⟩
      have hinside : ∀ n ∈ (w.graph g).nodes, ∀ inner, n.inner? = some inner → ∃ parts',
          instances w s fuel inner (groupSupply (w.graph inner)) = .ok parts' ∧
            Instance.AllObeyed parts' (τ.inside n.id) := by
        intro n hn inner hinner
        obtain ⟨i, hi, hcompiled⟩ := hinstance n hn
        obtain ⟨hid, -, -, -, hgroup⟩ := instanceOf_eq_ok hcompiled
        refine ⟨i.parts, (hgroup inner hinner).1, ?_⟩
        rw [← hid]
        exact (Instance.obeyed_iff.1 hi).2.2
      refine .intro ?_ ?_ ?_ ?_ ?_
      · intro n hn hinner
        obtain ⟨i, hi, hcompiled⟩ := hinstance n hn
        exact leaf_obeyed hcompiled hi hinner
      · intro c hc
        obtain ⟨hmem, hlt⟩ := (fed.wired .input).member _ (Graph.connection_mem_uses around .input hc)
        exact stream_of_feed hparts hτ fed.distinct hmem hlt (fed.feed_connection hc supply)
      · intro n hn inner hinner
        obtain ⟨parts', hparts', hobeyed⟩ := hinside n hn inner hinner
        exact ih (inside n hn inner hinner) hparts' hobeyed
      · intro n hn inner hinner a ha
        obtain ⟨parts', hparts', hobeyed⟩ := hinside n hn inner hinner
        have hfed := (inside n hn inner hinner).fed
        obtain ⟨hmem, hlt⟩ := (hfed.wired .input).member _
          (Graph.association_mem_uses .input (List.mem_singleton_self n) ha)
        exact stream_of_feed hparts' hobeyed hfed.distinct hmem hlt (hfed.feed_entry ha)
      · intro n hn inner hinner a ha
        obtain ⟨i, hi, hcompiled⟩ := hinstance n hn
        have hfed := (inside n hn inner hinner).fed
        have hlookup := lookup_eq_some_of_mem (hfed.associated .output) ha
        have hlt := hfed.declared n (List.mem_singleton_self n) .output a ha
        exact group_output hcompiled hi hinner hlookup hlt

/-- Along every run of a compiled model the nodes of its graph take their courses, the inputs that are
exposed get what comes in on their pipes, and what the exposed outputs put out leaves on theirs. -/
theorem courses_of_isRun {m : Model} {σ : Trace} (hw : w.Orderly g [])
    (hm : w.compile s g = .ok m) (hσ : m.IsRun σ) : Courses w s g σ ∧
      (∀ e ∈ (w.graph g).inputs, (inputWire e.port).stream σ =
        Wire.stream (.own (.pipeInValue e.pipe), .own (.pipeInFire e.pipe)) σ) ∧
      ∀ e ∈ (w.graph g).outputs,
        Wire.stream (.own (.pipeOutValue e.pipe), .own (.pipeOutFire e.pipe)) σ =
          (outputWire e.port).stream σ := by
  obtain ⟨-, hparts, hmain⟩ := compile_eq_ok hm
  have hfed := hw.fed
  refine ⟨courses_of_obeyed hw hparts hσ.2, fun e he => ?_, fun e he => ?_⟩
  · obtain ⟨hmem, hlt⟩ := (hfed.wired .input).member _ (Graph.external_mem_uses [] .input he)
    exact stream_of_feed hparts hσ.2 hfed.distinct hmem hlt (hfed.feed_external he)
  · have hobeyed := hσ.1
    rw [hmain] at hobeyed
    funext t
    have hvalue := hobeyed.assigns _ (List.mem_flatMap.2 ⟨e, he, List.mem_cons_self⟩)
    have hfire := hobeyed.assigns _
      (List.mem_flatMap.2 ⟨e, he, List.mem_cons_of_mem _ List.mem_cons_self⟩)
    exact Prod.ext (hvalue t) (hfire t)

end Workspace
end StreamCheck.Network
