import StreamCheck.Proofs.Network.Runs
import StreamCheck.Subject.Basic

/-! The pipes of a compiled model: those of the exposed ports of its graph, and what comes in on them. -/

namespace StreamCheck.Network
open Smv

namespace Workspace
variable {w : Workspace} {s : Sizes} {g : GraphId} {c : CompiledGraph}

theorem filterMap_mainModule {α : Type} {graph : Graph} {parts : List Instance} {f : Declaration → Option α}
    (hf : ∀ i : Instance, f i.declaration = none) :
    (w.mainModule s graph parts).declarations.filterMap f =
      (graph.inputs.flatMap fun e => [⟨.pipeInValue e.pipe, w.pipeType s .input e⟩,
        ⟨.pipeInFire e.pipe, .scalar .boolean⟩].filterMap f) ++
      graph.outputs.flatMap fun e => [⟨.pipeOutValue e.pipe, w.pipeType s .output e⟩,
        ⟨.pipeOutFire e.pipe, .scalar .boolean⟩].filterMap f := by
  have hparts : (parts.map Instance.declaration).filterMap f = [] := by
    rw [List.filterMap_map, List.filterMap_eq_nil_iff]
    exact fun i _ => hf i
  rw [mainModule, List.filterMap_append, List.filterMap_append, hparts, List.append_nil, List.filterMap_flatMap,
    List.filterMap_flatMap]

theorem inputs_compile (hc : w.compile s g = .ok c.model) :
    c.inputs = ((w.graph g).inputs.map fun e => (e.pipe : Int)).eraseDups := by
  rw [CompiledGraph.inputs, (compile_eq_ok hc).2.2, filterMap_mainModule fun i => by cases i; rfl]
  refine congrArg List.eraseDups ((congrArg₂ (· ++ ·) ?_ ?_).trans (List.append_nil _))
  · exact List.map_eq_flatMap.symm
  · exact List.flatMap_eq_nil_iff.2 fun e _ => rfl

theorem outputs_compile (hc : w.compile s g = .ok c.model) :
    c.outputs = ((w.graph g).outputs.map fun e => (e.pipe : Int)).eraseDups := by
  rw [CompiledGraph.outputs, (compile_eq_ok hc).2.2, filterMap_mainModule fun i => by cases i; rfl]
  refine congrArg List.eraseDups ((congrArg₂ (· ++ ·) ?_ ?_).trans (List.nil_append _))
  · exact List.flatMap_eq_nil_iff.2 fun e _ => rfl
  · exact List.map_eq_flatMap.symm

theorem mem_inputs_compile (hc : w.compile s g = .ok c.model) {p : Int} :
    p ∈ c.inputs ↔ ∃ e ∈ (w.graph g).inputs, p = e.pipe := by
  rw [inputs_compile hc, List.mem_eraseDups, List.mem_map]
  exact exists_congr fun e => and_congr_right fun _ => eq_comm

theorem mem_outputs_compile (hc : w.compile s g = .ok c.model) {p : Int} :
    p ∈ c.outputs ↔ ∃ e ∈ (w.graph g).outputs, p = e.pipe := by
  rw [outputs_compile hc, List.mem_eraseDups, List.mem_map]
  exact exists_congr fun e => and_congr_right fun _ => eq_comm

theorem booleanOutputs_compile (hc : w.compile s g = .ok c.model)
    (htype : ∀ e ∈ (w.graph g).outputs, w.typeOf .output e.port = .boolean) : c.booleanOutputs = c.outputs := by
  rw [CompiledGraph.booleanOutputs, CompiledGraph.outputs]
  refine congrArg List.eraseDups (List.filterMap_congr fun d hd => ?_)
  rw [(compile_eq_ok hc).2.2] at hd
  rcases mem_declarations_mainModule hd with ⟨e, -, rfl | rfl⟩ | ⟨i, -, rfl⟩ | ⟨e, he, rfl | rfl⟩
  · rfl
  · rfl
  · cases i
    rfl
  · have hboolean : w.pipeType s .output e = .scalar .boolean := by
      rw [pipeType, htype e he]
      rfl
    exact if_pos hboolean
  · rfl

theorem fits_of_isRun {m : Model} {σ : Trace} (hm : w.compile s g = .ok m) (hσ : m.IsRun σ) {e : External}
    (he : e ∈ (w.graph g).inputs) (t : Nat) :
    (σ t ⟨.own (.pipeInValue e.pipe), none⟩).Fits (s.scalar (w.typeOf .input e.port)) ∧
      (σ t ⟨.own (.pipeInFire e.pipe), none⟩).Fits .boolean := by
  have hmain := (compile_eq_ok hm).2.2
  have hfree (x : Name) (hx : ∀ p, x ≠ .pipeOutValue p ∧ x ≠ .pipeOutFire p) : ¬ m.main.Fixes ⟨x, none⟩ t := by
    rintro ⟨a, ha, hcell, -⟩
    rw [hmain] at ha
    obtain ⟨e', -, rfl | rfl⟩ := mem_assigns_mainModule ha
    · exact (hx e'.pipe).1 (congrArg Cell.name hcell).symm
    · exact (hx e'.pipe).2 (congrArg Cell.name hcell).symm
  have hmem {d : Declaration} (hd : d ∈ [⟨.pipeInValue e.pipe, w.pipeType s .input e⟩,
      ⟨.pipeInFire e.pipe, .scalar .boolean⟩]) : d ∈ m.main.declarations := by
    rw [hmain]
    exact List.mem_append_left _ (List.mem_append_left _ (List.mem_flatMap.2 ⟨e, he, hd⟩))
  exact ⟨hσ.1.free _ (hmem List.mem_cons_self) _ List.mem_cons_self t
      (hfree _ fun _ => ⟨Name.noConfusion, Name.noConfusion⟩),
    hσ.1.free _ (hmem (List.mem_cons_of_mem _ List.mem_cons_self)) _ List.mem_cons_self t
      (hfree _ fun _ => ⟨Name.noConfusion, Name.noConfusion⟩)⟩

end Workspace
end StreamCheck.Network
