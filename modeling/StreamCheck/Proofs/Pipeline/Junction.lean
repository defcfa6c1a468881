import StreamCheck.Pipeline.Configuration
import StreamCheck.Proofs.Pipeline.Drawing

/-! Junctions: the graph around two groups that are fed by one fork, and whose outputs leave side by side or
go into a comparison. -/

namespace StreamCheck.Pipeline
open Network

structure Junction where
  left : NodeId
  right : NodeId
  fork : NodeId
  leftInner : GraphId
  rightInner : GraphId
  left_lt : left < right
  right_lt : right < fork

namespace Junction
variable (J : Junction)

def leftNode : Node := ⟨J.left, .group J.leftInner 1 1⟩

def rightNode : Node := ⟨J.right, .group J.rightInner 1 1⟩

def forkNode : Node := ⟨J.fork, .fork 2 Nat.zero_lt_two .integer⟩

def equalsNode : Node := ⟨J.fork + 1, .apply .equals .integer⟩

def branches : List Connection :=
  [⟨⟨J.forkNode, 0⟩, ⟨J.leftNode, 0⟩⟩, ⟨⟨J.forkNode, 1⟩, ⟨J.rightNode, 0⟩⟩]

def merges : List Connection :=
  [⟨⟨J.leftNode, 0⟩, ⟨J.equalsNode, 0⟩⟩, ⟨⟨J.rightNode, 0⟩, ⟨J.equalsNode, 1⟩⟩]

variable {domain queue : Nat} (hd : 0 < domain) (hq : 0 < queue) (pipe : PipeId)

def forked : Graph :=
  (((Graph.blank hd hq).extend [J.forkNode, J.leftNode, J.rightNode]).wires J.branches).publish .input
    ⟨pipe, ⟨J.forkNode, 0⟩⟩

def joined : Wiring → Graph
  | .stepwise => ((J.forked hd hq pipe).publish .output ⟨pipe + 1, ⟨J.leftNode, 0⟩⟩).publish .output
    ⟨pipe + 2, ⟨J.rightNode, 0⟩⟩
  | .sequence => (((J.forked hd hq pipe).extend [J.equalsNode]).wires J.merges).publish .output
    ⟨pipe + 1, ⟨J.equalsNode, 0⟩⟩

theorem left_ne_right : J.left ≠ J.right := Nat.ne_of_lt J.left_lt

theorem fork_ne_left : J.fork ≠ J.left := Nat.ne_of_gt (Nat.lt_trans J.left_lt J.right_lt)

theorem fork_ne_right : J.fork ≠ J.right := Nat.ne_of_gt J.right_lt

theorem equals_ne_left : J.fork + 1 ≠ J.left := Nat.ne_of_gt (Nat.lt_succ_of_lt (Nat.lt_trans J.left_lt J.right_lt))

theorem equals_ne_right : J.fork + 1 ≠ J.right := Nat.ne_of_gt (Nat.lt_succ_of_lt J.right_lt)

theorem extensible_fork : (Graph.blank hd hq).Extensible [J.forkNode, J.leftNode, J.rightNode] := by
  refine ⟨?_, fun n _ => rfl⟩
  simp [forkNode, leftNode, rightNode, J.fork_ne_left, J.fork_ne_right, J.left_ne_right]

theorem wireable_fork : ((Graph.blank hd hq).extend [J.forkNode, J.leftNode, J.rightNode]).Wireable J.branches := by
  refine ⟨fun c hc side => ?_, fun c _ side => ?_, fun side => ?_⟩
  · rcases List.mem_pair.1 hc with rfl | rfl <;> cases side <;>
      simp [Graph.extend, Connection.endpoint, Graph.blank, Node.arity, Node.inputArity, Node.outputArity,
        leftNode, rightNode, forkNode, Kind.inputs, Kind.outputs]
  · cases side <;> rfl
  · cases side <;> simp [branches, Connection.endpoint, Port.slot, leftNode, rightNode, J.left_ne_right]

theorem slots_forked (side : Side) : ((J.forked hd hq pipe).bindings side).map Prod.fst =
    match side with
    | .input => [(J.left, 0), (J.right, 0), (J.fork, 0)]
    | .output => [(J.fork, 0), (J.fork, 1)] := by
  cases side <;> rfl

theorem nodes_forked : (J.forked hd hq pipe).nodes = [J.forkNode, J.leftNode, J.rightNode] := rfl

theorem entry_free : (((Graph.blank hd hq).extend [J.forkNode, J.leftNode, J.rightNode]).wires
    J.branches).isBound .input (J.fork, 0) = false := by
  refine Graph.isBound_eq_false ?_
  change (J.fork, 0) ∉ [(J.left, 0), (J.right, 0)]
  simp [J.fork_ne_left, J.fork_ne_right]

theorem fed_forked : (J.forked hd hq pipe).Fed [] :=
  (((Graph.Fed.blank hd hq []).extend (J.extensible_fork hd hq)).wires (J.wireable_fork hd hq)).publish
    (J.entry_free hd hq) ⟨List.mem_cons_self, Nat.one_pos⟩

/-! ### Both outputs leave -/

theorem left_free : (J.forked hd hq pipe).isBound .output (J.left, 0) = false := by
  refine Graph.isBound_eq_false ?_
  rw [slots_forked]
  simp [J.fork_ne_left.symm]

theorem right_free : ((J.forked hd hq pipe).publish .output ⟨pipe + 1, ⟨J.leftNode, 0⟩⟩).isBound .output
    (J.right, 0) = false := by
  refine Graph.isBound_eq_false ?_
  rw [Graph.bindings_publish, List.map_append, slots_forked]
  simp [Port.slot, leftNode, J.fork_ne_right.symm, J.left_ne_right.symm]

theorem fed_stepwise : (J.joined hd hq pipe .stepwise).Fed [] := by
  have hleft : ((J.forked hd hq pipe).publish .output ⟨pipe + 1, ⟨J.leftNode, 0⟩⟩).Fed [] :=
    (J.fed_forked hd hq pipe).publish (J.left_free hd hq pipe)
      ⟨List.mem_cons_of_mem _ List.mem_cons_self, Nat.one_pos⟩
  exact hleft.publish (e := ⟨pipe + 2, ⟨J.rightNode, 0⟩⟩) (J.right_free hd hq pipe)
    ⟨List.mem_cons_of_mem _ (List.mem_cons_of_mem _ List.mem_cons_self), Nat.one_pos⟩

/-! ### The outputs are compared -/

theorem extensible_equals : (J.forked hd hq pipe).Extensible [J.equalsNode] := by
  refine ⟨List.nodup_singleton _, fun n hn => ?_⟩
  obtain rfl := List.mem_singleton.1 hn
  rw [← Bool.not_eq_true, Graph.contains_iff, nodes_forked]
  change J.fork + 1 ∉ [J.fork, J.left, J.right]
  simp [J.equals_ne_left, J.equals_ne_right]

theorem wireable_merge : ((J.forked hd hq pipe).extend [J.equalsNode]).Wireable J.merges := by
  refine ⟨fun c hc side => ?_, fun c hc side => Graph.isBound_eq_false ?_, fun side => ?_⟩
  · rcases List.mem_pair.1 hc with rfl | rfl <;> cases side <;>
      simp [Graph.extend, nodes_forked, Connection.endpoint, Node.arity, Node.inputArity, Node.outputArity,
        leftNode, rightNode, equalsNode, Kind.inputs, Kind.outputs, Operator.arity]
  · have hslots : (((J.forked hd hq pipe).extend [J.equalsNode]).bindings side).map Prod.fst = _ :=
      J.slots_forked hd hq pipe side
    rw [hslots]
    rcases List.mem_pair.1 hc with rfl | rfl <;> cases side <;>
      simp [Connection.endpoint, Port.slot, leftNode, rightNode, equalsNode, J.equals_ne_left, J.equals_ne_right,
        J.fork_ne_left.symm, J.fork_ne_right.symm]
  · cases side <;> simp [merges, Connection.endpoint, Port.slot, leftNode, rightNode, J.left_ne_right]

theorem equals_free : (((J.forked hd hq pipe).extend [J.equalsNode]).wires J.merges).isBound .output
    (J.fork + 1, 0) = false := by
  refine Graph.isBound_eq_false ?_
  have hslots : (((J.forked hd hq pipe).extend [J.equalsNode]).bindings .output).map Prod.fst = _ :=
    J.slots_forked hd hq pipe .output
  rw [Graph.bindings_wires, List.map_append, hslots]
  simp [merges, Connection.endpoint, Port.slot, leftNode, rightNode, J.equals_ne_left, J.equals_ne_right]

theorem fed_sequence : (J.joined hd hq pipe .sequence).Fed [] :=
  (((J.fed_forked hd hq pipe).extend (J.extensible_equals hd hq pipe)).wires (J.wireable_merge hd hq pipe)).publish
    (e := ⟨pipe + 1, ⟨J.equalsNode, 0⟩⟩) (J.equals_free hd hq pipe)
    ⟨List.mem_append_right _ List.mem_cons_self, Nat.one_pos⟩

theorem fed_joined (wiring : Wiring) : (J.joined hd hq pipe wiring).Fed [] := by
  cases wiring
  · exact J.fed_stepwise hd hq pipe
  · exact J.fed_sequence hd hq pipe

/-! ### What a junction consists of -/

theorem nodes_joined (wiring : Wiring) : (J.joined hd hq pipe wiring).nodes =
    [J.forkNode, J.leftNode, J.rightNode] ++
      match wiring with
      | .stepwise => []
      | .sequence => [J.equalsNode] := by
  cases wiring <;> rfl

theorem connections_joined (wiring : Wiring) : (J.joined hd hq pipe wiring).connections =
    J.branches ++
      match wiring with
      | .stepwise => []
      | .sequence => J.merges := by
  cases wiring <;> rfl

theorem inputs_joined (wiring : Wiring) : (J.joined hd hq pipe wiring).inputs = [⟨pipe, ⟨J.forkNode, 0⟩⟩] := by
  cases wiring <;> rfl

theorem outputs_joined (wiring : Wiring) : (J.joined hd hq pipe wiring).outputs =
    match wiring with
    | .stepwise => [⟨pipe + 1, ⟨J.leftNode, 0⟩⟩, ⟨pipe + 2, ⟨J.rightNode, 0⟩⟩]
    | .sequence => [⟨pipe + 1, ⟨J.equalsNode, 0⟩⟩] := by
  cases wiring <;> rfl

/-- The fork comes before the groups, and these before the comparison. -/
def rank (n : NodeId) : Nat := if n = J.fork then 0 else if n = J.fork + 1 then 2 else 1

theorem rank_lt (wiring : Wiring) : ∀ c ∈ (J.joined hd hq pipe wiring).connections,
    J.rank c.source.node.id < J.rank c.destination.node.id := by
  intro c hc
  have hmem : c ∈ J.branches ++ J.merges := by
    rw [connections_joined] at hc
    cases wiring
    · rw [List.append_nil] at hc
      exact List.mem_append_left _ hc
    · exact hc
  simp only [branches, merges, List.cons_append, List.nil_append, List.mem_cons, List.not_mem_nil, or_false] at hmem
  rcases hmem with rfl | rfl | rfl | rfl <;>
    simp [rank, forkNode, leftNode, rightNode, equalsNode, J.fork_ne_left.symm, J.fork_ne_right.symm,
      J.equals_ne_left.symm, J.equals_ne_right.symm]

theorem isBound_joined (wiring : Wiring) : ∀ n ∈ (J.joined hd hq pipe wiring).nodes, ∀ j < n.inputArity,
    (J.joined hd hq pipe wiring).isBound .input (n.id, j) = true := by
  intro n hn j hj
  refine Graph.isBound_of_mem ?_
  have hslots : ((J.joined hd hq pipe wiring).bindings .input).map Prod.fst =
      [(J.left, 0), (J.right, 0), (J.fork, 0)] ++
        match wiring with
        | .stepwise => []
        | .sequence => [(J.fork + 1, 0), (J.fork + 1, 1)] := by
    cases wiring <;> rfl
  rw [hslots]
  rw [nodes_joined] at hn
  rcases List.mem_append.1 hn with hn | hn
  · simp only [List.mem_cons, List.not_mem_nil, or_false] at hn
    rcases hn with rfl | rfl | rfl <;> obtain rfl := Nat.lt_one_iff.1 hj <;>
      simp [forkNode, leftNode, rightNode]
  · cases wiring with
    | stepwise => exact absurd hn List.not_mem_nil
    | sequence =>
      obtain rfl := List.mem_singleton.1 hn
      have hj : j < 2 := hj
      obtain rfl | rfl : j = 0 ∨ j = 1 := by omega
      · simp [equalsNode]
      · simp [equalsNode]

/-! ### Junctions of plans -/

section
variable {J} {w : Workspace} {s : Sizes} {g : GraphId} {hd hq} {pipe} {wiring : Wiring} {P Q : Plan} {b b' : Nat}

/-- The three graphs of a junction stand in a workspace, a plan in each of the inner ones. -/
structure Stands (w : Workspace) (g : GraphId) (J : Junction) (hd : 0 < domain) (hq : 0 < queue) (pipe : PipeId)
    (wiring : Wiring) (P Q : Plan) (b b' : Nat) : Prop where
  outer : w.graph g = J.joined hd hq pipe wiring
  left : w.graph J.leftInner = P.enclosed hd hq b J.leftNode
  right : w.graph J.rightInner = Q.enclosed hd hq b' J.rightNode

theorem inner?_cases {n : Node} (hn : n ∈ (J.joined hd hq pipe wiring).nodes) {inner : GraphId}
    (hinner : n.inner? = some inner) :
    (n = J.leftNode ∧ inner = J.leftInner) ∨ (n = J.rightNode ∧ inner = J.rightInner) := by
  rw [nodes_joined] at hn
  rcases List.mem_append.1 hn with hn | hn
  · simp only [List.mem_cons, List.not_mem_nil, or_false] at hn
    rcases hn with rfl | rfl | rfl
    · nomatch hinner
    · exact .inl ⟨rfl, (Option.some.inj hinner).symm⟩
    · exact .inr ⟨rfl, (Option.some.inj hinner).symm⟩
  · cases wiring with
    | stepwise => nomatch hn
    | sequence =>
      obtain rfl := List.mem_singleton.1 hn
      nomatch hinner

theorem Stands.orderly (h : Stands w g J hd hq pipe wiring P Q b b') : w.Orderly g [] := by
  have hleft : w.Orderly J.leftInner [J.leftNode] := by
    refine Plan.Shows.orderly (P := P) (b := b) ?_ ?_ <;> rw [h.left]
    · exact Plan.shows_enclosed _
    · exact Plan.fed_enclosed fun side => by cases side <;> exact Nat.one_pos
  have hright : w.Orderly J.rightInner [J.rightNode] := by
    refine Plan.Shows.orderly (P := Q) (b := b') ?_ ?_ <;> rw [h.right]
    · exact Plan.shows_enclosed _
    · exact Plan.fed_enclosed fun side => by cases side <;> exact Nat.one_pos
  refine .intro ?_ J.rank ?_ fun n hn inner hinner => ?_
  · rw [h.outer]
    exact J.fed_joined hd hq pipe wiring
  · rw [h.outer]
    exact J.rank_lt hd hq pipe wiring
  · rw [h.outer] at hn
    rcases inner?_cases hn hinner with ⟨rfl, rfl⟩ | ⟨rfl, rfl⟩
    · exact hleft
    · exact hright

theorem Stands.complete (h : Stands w g J hd hq pipe wiring P Q b b') (hP : P.Behaves s) (hQ : Q.Behaves s) :
    w.Complete s 2 g := by
  have hleft : w.Complete s 1 J.leftInner := by
    refine Plan.Shows.complete (P := P) (b := b) ?_ hP ?_ 0 <;> rw [h.left]
    · exact Plan.shows_enclosed _
    · exact Plan.isBound_enclosed _
  have hright : w.Complete s 1 J.rightInner := by
    refine Plan.Shows.complete (P := Q) (b := b') ?_ hQ ?_ 0 <;> rw [h.right]
    · exact Plan.shows_enclosed _
    · exact Plan.isBound_enclosed _
  refine .intro ?_ ?_ ?_ ?_ ?_ <;> rw [h.outer]
  · exact J.isBound_joined hd hq pipe wiring
  · -- of the leaves, a fork and a comparison behave over every domain
    intro n hn hinner
    rw [nodes_joined] at hn
    rcases List.mem_append.1 hn with hn | hn
    · simp only [List.mem_cons, List.not_mem_nil, or_false] at hn
      rcases hn with rfl | rfl | rfl
      · exact ⟨_, rfl⟩
      · nomatch hinner
      · nomatch hinner
    · cases wiring with
      | stepwise => nomatch hn
      | sequence =>
        obtain rfl := List.mem_singleton.1 hn
        exact ⟨_, rfl⟩
  · intro n hn inner hinner side i hi
    have hzero : i = 0 := by
      rcases inner?_cases hn hinner with ⟨rfl, -⟩ | ⟨rfl, -⟩ <;> cases side <;> exact Nat.lt_one_iff.1 hi
    subst hzero
    rcases inner?_cases hn hinner with ⟨-, rfl⟩ | ⟨-, rfl⟩
    · rw [h.left, Plan.entries_enclosed]
      rfl
    · rw [h.right, Plan.entries_enclosed]
      rfl
  · intro n hn inner hinner
    rcases inner?_cases hn hinner with ⟨-, rfl⟩ | ⟨-, rfl⟩
    · rw [h.left]
      exact Plan.inputs_enclosed _
    · rw [h.right]
      exact Plan.inputs_enclosed _
  · intro n hn inner hinner
    rcases inner?_cases hn hinner with ⟨-, rfl⟩ | ⟨-, rfl⟩
    · exact hleft
    · exact hright

end

end Junction
end StreamCheck.Pipeline
