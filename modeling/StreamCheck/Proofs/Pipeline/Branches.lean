import StreamCheck.Proofs.Formula.Verdicts
import StreamCheck.Proofs.Pipeline.Junction

/-! What passes through a junction: both branches get the stream that comes in on the pipe, and what they put
out leaves, or is compared. -/

namespace StreamCheck.Pipeline.Junction
open Network Smv
variable {w : Workspace} {s : Sizes} {g : GraphId} {J : Junction} {domain queue : Nat} {hd : 0 < domain}
  {hq : 0 < queue} {pipe : PipeId} {wiring : Wiring} {P Q : Plan} {b b' : Nat} {m : Model} {σ : Trace}

def part (group : NodeId) (b : Nat) (σ : Trace) : NodeId → Trace := fun i => (σ.inside group).inside (b + i)

section
variable (h : Stands w g J hd hq pipe wiring P Q b b') (hqueue : 0 < s.queue) (hm : w.compile s g = .ok m)
  (hσ : m.IsRun σ)
include h hm hσ

theorem Stands.courses : w.Courses s g σ := (Workspace.courses_of_isRun h.orderly hm hσ).1

theorem Stands.fork_runs : J.forkNode.kind.Runs s (σ.inside J.fork) := by
  have hmem : J.forkNode ∈ (w.graph g).nodes := by
    rw [h.outer, nodes_joined]
    exact List.mem_cons_self
  cases h.courses hm hσ with
  | intro leaf connection group entry exit =>
    obtain ⟨module, hmodule, hobeyed⟩ := leaf J.forkNode hmem rfl
    exact Node.runs_of_obeyed hmodule hobeyed

include hqueue in
theorem Stands.fork_output {p : Nat} (hp : p < 2) :
    (σ.inside J.fork).output p = ((incoming pipe).stream σ).clean := by
  have hinputs := (Workspace.courses_of_isRun h.orderly hm hσ).2.1
  rw [h.outer, inputs_joined] at hinputs
  have hinput : (σ.inside J.fork).input 0 = (incoming pipe).stream σ := hinputs _ List.mem_cons_self
  rw [← hinput]
  exact (h.fork_runs hm hσ).fork_output hqueue hp

theorem Stands.branch_input {c : Connection} (hc : c ∈ J.branches) :
    (σ.inside c.destination.node.id).input c.destination.index =
      (σ.inside c.source.node.id).output c.source.index := by
  have hmem : c ∈ (w.graph g).connections := by
    rw [h.outer, connections_joined]
    exact List.mem_append_left _ hc
  cases h.courses hm hσ with
  | intro leaf connection group entry exit => exact connection c hmem

theorem Stands.branch {node : Node} (hnode : node ∈ [J.leftNode, J.rightNode]) {inner : GraphId}
    (hinner : node.inner? = some inner) {R : Plan} {k : Nat} (hgraph : w.graph inner = R.enclosed hd hq k node) :
    R.Course s ((σ.inside node.id).input 0) (part node.id k σ) ∧
      (σ.inside node.id).output 0 = R.out (part node.id k σ) := by
  have hmem : node ∈ (w.graph g).nodes := by
    rw [h.outer, nodes_joined]
    exact List.mem_append_left _ (List.mem_cons_of_mem _ hnode)
  have hends (side : Side) : (0, (R.port side).shift k) ∈ (w.graph inner).associations side := by
    rw [hgraph, Plan.entries_enclosed]
    exact List.mem_cons_self
  have hshows : Plan.Shows (w.graph inner) R k := by
    rw [hgraph]
    exact Plan.shows_enclosed _
  cases h.courses hm hσ with
  | intro leaf connection group entry exit =>
    have hentry := entry node hmem inner hinner _ (hends .input)
    have hexit := exit node hmem inner hinner _ (hends .output)
    exact ⟨Plan.course_of_courses hshows (group node hmem inner hinner) hentry, hexit⟩

include hqueue in
theorem Stands.left_course : P.Course s ((incoming pipe).stream σ).clean (part J.left b σ) ∧
    (σ.inside J.left).output 0 = P.out (part J.left b σ) := by
  have hinput : (σ.inside J.left).input 0 = ((incoming pipe).stream σ).clean :=
    (h.branch_input hm hσ List.mem_cons_self).trans (h.fork_output hqueue hm hσ Nat.zero_lt_two)
  rw [← hinput]
  exact h.branch hm hσ List.mem_cons_self rfl h.left

include hqueue in
theorem Stands.right_course : Q.Course s ((incoming pipe).stream σ).clean (part J.right b' σ) ∧
    (σ.inside J.right).output 0 = Q.out (part J.right b' σ) := by
  have hinput : (σ.inside J.right).input 0 = ((incoming pipe).stream σ).clean :=
    (h.branch_input hm hσ (List.mem_cons_of_mem _ List.mem_cons_self)).trans
      (h.fork_output hqueue hm hσ Nat.one_lt_two)
  rw [← hinput]
  exact h.branch hm hσ (List.mem_cons_of_mem _ List.mem_cons_self) rfl h.right

end

section
variable (hqueue : 0 < s.queue) (hm : w.compile s g = .ok m) (hσ : m.IsRun σ)
include hqueue hm hσ

theorem Stands.stepwise_outgoing (h : Stands w g J hd hq pipe .stepwise P Q b b') :
    (outgoing (pipe + 1 : Nat)).stream σ = P.out (part J.left b σ) ∧
      (outgoing (pipe + 2 : Nat)).stream σ = Q.out (part J.right b' σ) := by
  have houtputs := (Workspace.courses_of_isRun h.orderly hm hσ).2.2
  rw [h.outer, outputs_joined] at houtputs
  exact ⟨(houtputs _ List.mem_cons_self).trans (h.left_course hqueue hm hσ).2,
    (houtputs _ (List.mem_cons_of_mem _ List.mem_cons_self)).trans (h.right_course hqueue hm hσ).2⟩

theorem Stands.sequence_outgoing (h : Stands w g J hd hq pipe .sequence P Q b b') :
    ∃ τ, (Kind.apply .equals .integer).Runs s τ ∧ τ.input 0 = P.out (part J.left b σ) ∧
      τ.input 1 = Q.out (part J.right b' σ) ∧ (outgoing (pipe + 1 : Nat)).stream σ = τ.output 0 := by
  have houtputs := (Workspace.courses_of_isRun h.orderly hm hσ).2.2
  rw [h.outer, outputs_joined] at houtputs
  have hmem : J.equalsNode ∈ (w.graph g).nodes := by
    rw [h.outer, nodes_joined]
    exact List.mem_append_right _ List.mem_cons_self
  have hmerge : ∀ c ∈ J.merges, c ∈ (w.graph g).connections := by
    intro c hc
    rw [h.outer, connections_joined]
    exact List.mem_append_right _ hc
  refine ⟨σ.inside (J.fork + 1), ?_, ?_, ?_, houtputs _ List.mem_cons_self⟩ <;>
    cases h.courses hm hσ with
    | intro leaf connection group entry exit => ?_
  · obtain ⟨module, hmodule, hobeyed⟩ := leaf J.equalsNode hmem rfl
    exact Node.runs_of_obeyed hmodule hobeyed
  · exact (connection _ (hmerge _ List.mem_cons_self)).trans (h.left_course hqueue hm hσ).2
  · exact (connection _ (hmerge _ (List.mem_cons_of_mem _ List.mem_cons_self))).trans
      (h.right_course hqueue hm hσ).2

end
end StreamCheck.Pipeline.Junction
