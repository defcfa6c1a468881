import StreamCheck.Proofs.Network.Wires

/-! Steps in new graphs: a workspace grows by some graphs, and each step changes the first of them. -/

namespace StreamCheck

namespace Network

namespace Workspace
variable {w : Workspace} {node : NodeId} {pipe : PipeId} {g : Graph} {new : List Graph}

def grow (w : Workspace) (node : NodeId) (pipe : PipeId) (new : List Graph) : Workspace :=
  ⟨node, pipe, w.graphs ++ new⟩

theorem graph_grow (i : Nat) : (w.grow node pipe new).graph (w.graphs.length + i) = new.getD i default := by
  rw [graph, grow, List.getD_append_right _ _ _ _ (Nat.le_add_right _ _), Nat.add_sub_cancel_left]

theorem graph_grow_head : (w.grow node pipe (g :: new)).graph w.graphs.length = g := graph_grow 0

theorem modify_grow_head (f : Graph → Graph) :
    (w.grow node pipe (g :: new)).modify w.graphs.length f = w.grow node pipe (f g :: new) := by
  rw [modify, grow, grow]
  congr 1
  induction w.graphs with
  | nil => rfl
  | cons h hs ih => exact congrArg (h :: ·) ih

theorem length_grow : (w.grow node pipe new).graphs.length = w.graphs.length + new.length := List.length_append

theorem lt_length_grow : w.graphs.length < (w.grow node pipe (g :: new)).graphs.length := by
  rw [length_grow, List.length_cons]
  omega

theorem grow_grow {node' : NodeId} {pipe' : PipeId} {new' : List Graph} :
    (w.grow node pipe new).grow node' pipe' new' = w.grow node' pipe' (new ++ new') := by
  rw [grow, grow, grow, List.append_assoc]

theorem bindable_grow {side : Side} {p : Port} (hfrozen : g.frozen = false)
    (hp : p.node ∈ g.nodes ∧ p.index < p.node.arity side) (hfree : g.isBound side p.slot = false) :
    Bindable (w.grow node pipe (g :: new)) w.graphs.length side p := by
  refine ⟨?_, ?_, hp.2, ?_⟩ <;> rw [graph_grow_head]
  · exact hfrozen
  · exact Graph.contains_iff.2 (List.mem_map_of_mem hp.1)
  · exact hfree

end Workspace

namespace Build
variable {w w' : Workspace} {node : NodeId} {pipe : PipeId} {g : Graph} {new : List Graph}

theorem discard_run_ok {α : Type} {x : Build α} {a : α} (h : x.run w = .ok a w') :
    (discard x).run w = .ok ⟨⟩ w' := by
  rw [discard_run, h]

theorem newGraph_run_ok (domain queue : Int) (hd : 0 < domain.toNat) (hq : 0 < queue.toNat) :
    (newGraph domain queue).run w =
      .ok w.graphs.length (w.grow w.nextNode w.nextPipe [.blank hd hq]) := by
  have hdomain : 0 < domain := by omega
  have hqueue : 0 < queue := by omega
  simp [newGraph, hdomain, hqueue, Graph.blank, Workspace.grow]

theorem group_run {domain queue : Nat} (hd : 0 < domain) (hq : 0 < queue) :
    (group domain queue 1 1).run w = .ok ⟨w.nextNode, .group w.graphs.length 1 1⟩
      (w.grow (w.nextNode + 1) w.nextPipe [.blank hd hq]) := by
  have hgraph := newGraph_run_ok (w := { w with nextNode := w.nextNode + 1 }) (domain : Int) queue hd hq
  rw [group, EStateM.run_bind, node_run]
  exact run_bind_ok hgraph

theorem validate_run {g : GraphId} (h : w.validate g = .ok ()) : (validate g).run w = .ok ⟨⟩ w := by
  rw [validate, ask_run, h]

section
variable (hfrozen : g.frozen = false)
include hfrozen

theorem add_run_grow {ns : List Node} (hns : g.Extensible ns) :
    (add w.graphs.length ns).run (w.grow node pipe (g :: new)) = .ok ⟨⟩ (w.grow node pipe (g.extend ns :: new)) := by
  have hgraph : (w.grow node pipe (g :: new)).graph w.graphs.length = g := Workspace.graph_grow_head
  rw [← hgraph] at hfrozen hns
  exact (add_run_ok Workspace.lt_length_grow hfrozen hns).trans (congrArg _ (Workspace.modify_grow_head _))

theorem connectAll_run_grow {cs : List Connection} (hcs : g.Wireable cs) (htypes : ∀ c ∈ cs,
    (w.grow node pipe (g :: new)).typeOf .output c.source = (w.grow node pipe (g :: new)).typeOf .input c.destination) :
    (connectAll w.graphs.length cs).run (w.grow node pipe (g :: new)) =
      .ok ⟨⟩ (w.grow node pipe (g.wires cs :: new)) := by
  have hgraph : (w.grow node pipe (g :: new)).graph w.graphs.length = g := Workspace.graph_grow_head
  rw [← hgraph] at hfrozen hcs
  exact (connectAll_run Workspace.lt_length_grow hfrozen hcs htypes).trans
    (congrArg _ (Workspace.modify_grow_head _))

variable {side : Side} {p : Port} (hp : p.node ∈ g.nodes ∧ p.index < p.node.arity side)
  (hfree : g.isBound side p.slot = false)
include hp hfree

theorem expose_run_grow : (expose w.graphs.length side p.node p.index).run (w.grow node pipe (g :: new)) =
    .ok pipe (w.grow node (pipe + 1) (g.publish side ⟨pipe, p⟩ :: new)) :=
  (expose_run (Workspace.bindable_grow hfrozen hp hfree)).trans (congrArg _ (Workspace.modify_grow_head (w := w) _))

theorem associate_run_grow {group : Node} {index : Nat} (hinner : group.inner? = some w.graphs.length)
    (hlt : index < group.arity side) (hnone : (g.associations side).lookup index = none) :
    (associate group side index p.node p.index).run (w.grow node pipe (g :: new)) =
      .ok ⟨⟩ (w.grow node pipe (g.attach group side index p :: new)) := by
  have hattachable : Attachable (w.grow node pipe (g :: new)) group w.graphs.length side index p := by
    refine ⟨hinner, hlt, ?_, Workspace.bindable_grow hfrozen hp hfree⟩
    rw [Workspace.graph_grow_head]
    exact hnone
  exact (associate_run hattachable).trans (congrArg _ (Workspace.modify_grow_head _))

end

end Build
end Network
end StreamCheck
