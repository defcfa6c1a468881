import StreamCheck.Pipeline.Archive
import StreamCheck.Proofs.Network.Freezing
import StreamCheck.Proofs.Network.Pipes
import StreamCheck.Proofs.Pipeline.Assembly
import StreamCheck.Proofs.Pipeline.Branches
import StreamCheck.Proofs.Pipeline.Requests
import StreamCheck.Subject.Applicable

/-! The models of configurations: what a new library makes of a configuration, and what all runs of it have
in common. -/

namespace StreamCheck.Pipeline
open Network Smv

def modelOf (c : Configuration) : Keep (Option Subject) := do (← Library.fresh).get c

theorem modelOf_run {c : Configuration} {archive : Archive} {a : Assembly} {w : Workspace} {compiled : CompiledGraph}
    (hquery : c.query ≠ Query.dummy.name) (ha : (Catalog.assemble c).run archive.workspace = .ok (some a) w)
    (hcompiled : CompiledGraph.compile w c.query ⟨c.domain, c.queue⟩ a.graph a.shape = .ok compiled) :
    ∃ archive', (modelOf c).run archive = .ok (some (.network compiled)) archive' := by
  have hfresh : Library.fresh.run archive = .ok ⟨archive.caches.length⟩ archive.addCache := rfl
  have hnone : (archive.addCache.cache archive.caches.length).find? (Key.ofConfiguration c) = none := by
    rw [archive.cache_addCache]
    rfl
  have hget := get_run_of_some (l := ⟨archive.caches.length⟩) hquery (getOrBuild_run_of_none hnone ha)
    ((CompiledGraph.compile_freeze ..).trans hcompiled)
  exact ⟨_, (run_bind_ok hfresh).trans hget⟩

/-! ### Runs -/

def IsModel (c : Configuration) (P Q : Plan) (w : Workspace) (compiled : CompiledGraph) : Prop :=
  (Catalog.built w (Catalog.domain_toNat_pos c) (Catalog.queue_toNat_pos c) P Q c.wiring?).compile
    ⟨c.domain, c.queue⟩ w.graphs.length = .ok compiled.model

def RunsOver (d : Int) (compiled : CompiledGraph) : Prop :=
  ∀ x : Stream, x.Over d → ∃ σ, compiled.model.IsRun σ ∧ ∀ p ∈ compiled.inputs, (incoming p).stream σ = x

section
variable {c : Configuration} {q : Query} {P Q : Plan} {w : Workspace} {compiled : CompiledGraph}

theorem IsModel.inputs_eq (h : IsModel c P Q w compiled) : compiled.inputs = [(w.nextPipe : Int)] := by
  obtain ⟨port, hinputs, -⟩ := Catalog.inputs_built w (Catalog.domain_toNat_pos c) (Catalog.queue_toNat_pos c) P Q c.wiring?
  rw [Workspace.inputs_compile h, hinputs]
  rfl

theorem IsModel.outputs_eq (h : IsModel c P Q w compiled) : compiled.outputs =
    match c.wiring? with
    | some .stepwise => [(w.nextPipe + 1 : Nat), (w.nextPipe + 2 : Nat)]
    | _ => [((w.nextPipe + 1 : Nat) : Int)] := by
  have houtputs := Catalog.outputs_built w (Catalog.domain_toNat_pos c) (Catalog.queue_toNat_pos c) P Q c.wiring?
  have hpipes := congrArg (List.map fun p : PipeId => (p : Int)) houtputs
  rw [List.map_map] at hpipes
  rw [Workspace.outputs_compile h]
  refine (congrArg List.eraseDups hpipes).trans ?_
  rcases c.wiring? with _ | _ | _ <;> simp [List.eraseDups_cons]

theorem IsModel.runsOver (h : IsModel c P Q w compiled) : RunsOver c.domain compiled := by
  intro x hx
  let built := Catalog.built w (Catalog.domain_toNat_pos c) (Catalog.queue_toNat_pos c) P Q c.wiring?
  obtain ⟨port, hinputs, htype⟩ :=
    Catalog.inputs_built w (Catalog.domain_toNat_pos c) (Catalog.queue_toNat_pos c) P Q c.wiring?
  have hpipes : ((built.graph w.graphs.length).outputs.map External.pipe).Nodup :=
    Catalog.nodup_pipes_built w _ _ P Q c.wiring? .output
  have hadmits : built.Admits ⟨c.domain, c.queue⟩ w.graphs.length fun _ => x := by
    intro e he t
    rw [hinputs] at he
    obtain rfl := List.mem_singleton.1 he
    rw [htype]
    exact hx t
  obtain ⟨σ, hσ, hstreams⟩ := Workspace.exists_isRun (Catalog.orderly_built c.wiring?) hpipes h hadmits
  refine ⟨σ, hσ, fun p hp => ?_⟩
  rw [h.inputs_eq] at hp
  obtain rfl := List.mem_singleton.1 hp
  rw [hinputs] at hstreams
  exact hstreams _ List.mem_cons_self

theorem exists_isModel (hquery : Query.ofName? c.query = some q)
    (hP : q.blueprint c.domain.toNat c.shape = some P) (hQ : q.counterpart c.domain.toNat c.shape = some Q)
    (archive : Archive) : ∃ archive' compiled, (modelOf c).run archive = .ok (some (.network compiled)) archive' ∧
      IsModel c P Q archive.workspace compiled := by
  have hdummy : c.query ≠ Query.dummy.name := by
    intro hname
    rw [hname, show Query.ofName? Query.dummy.name = some .dummy from rfl] at hquery
    obtain rfl := Option.some.inj hquery
    nomatch hP
  let built := Catalog.built archive.workspace (Catalog.domain_toNat_pos c) (Catalog.queue_toNat_pos c) P Q c.wiring?
  obtain ⟨hbehaves, hbehaves'⟩ := Catalog.plans_behave hP hQ
  have hcomplete : built.Complete ⟨c.domain, c.queue⟩ 2 archive.workspace.graphs.length :=
    Catalog.complete_built hbehaves hbehaves' c.wiring?
  obtain ⟨m, hm⟩ := hcomplete.exists_compile (Catalog.two_le_depth_built c.wiring?) (Catalog.orderly_built c.wiring?)
  obtain ⟨compiled, hcompiled, -, rfl⟩ := CompiledGraph.exists_compile hm c.query (Catalog.shapeOf P Q c.wiring?)
  obtain ⟨archive', hrun⟩ := modelOf_run hdummy (Catalog.assemble_run hquery hP hQ) hcompiled
  exact ⟨archive', compiled, hrun, hm⟩

end
end StreamCheck.Pipeline
