import StreamCheck.Pipeline.Answer
import StreamCheck.Proofs.Pipeline.Growth
import StreamCheck.Proofs.Pipeline.Junction
import StreamCheck.Proofs.Pipeline.Queries

/-! What the catalog builds: which graphs are there afterwards. Those that were there before stay as they
are, and what is new depends only on the numbers that come next. -/

namespace StreamCheck.Pipeline.Catalog
open Network Build

section
variable {w : Workspace} {node : NodeId} {pipe : PipeId} {create : Creator} {blueprint : Blueprint}
  {domain queue : Nat} {hd : 0 < domain} {hq : 0 < queue} {shape : Option Int} {P : Plan}

theorem create_run (h : create.Draws blueprint) (hP : blueprint domain shape = some P) :
    (create w.graphs.length shape).run (w.grow node pipe [.blank hd hq]) =
      .ok (some ⟨P.entry.shift node, P.exit.shift node, P.shape⟩)
        (w.grow (node + P.size) pipe [(Graph.blank hd hq).draw P node]) := by
  have hrun := h (w.grow node pipe [.blank hd hq]) w.graphs.length hd hq shape Workspace.lt_length_grow
    Workspace.graph_grow_head
  have hdraw : (w.grow (node + P.size) pipe [.blank hd hq]).modify w.graphs.length (·.draw P node) =
      w.grow (node + P.size) pipe [(Graph.blank hd hq).draw P node] := Workspace.modify_grow_head _
  rw [hP] at hrun
  exact hrun.trans (congrArg _ hdraw)

theorem create_run_none (h : create.Draws blueprint) (hP : blueprint domain shape = none) :
    (create w.graphs.length shape).run (w.grow node pipe [.blank hd hq]) =
      .ok none (w.grow node pipe [.blank hd hq]) := by
  have hrun := h (w.grow node pipe [.blank hd hq]) w.graphs.length hd hq shape Workspace.lt_length_grow
    Workspace.graph_grow_head
  rw [hP] at hrun
  exact hrun

theorem frozen_draw (b : Nat) : ((Graph.blank hd hq).draw P b).frozen = false :=
  (Graph.sameBesides_wires _ _).frozen

theorem assemblePlain_run (h : create.Draws blueprint) (hP : blueprint domain shape = some P) :
    (assemblePlain w.graphs.length create shape).run (w.grow node pipe [.blank hd hq]) =
      .ok (some P.shape) (w.grow (node + P.size) (pipe + 2) [P.exposed hd hq node pipe]) := by
  let drawn := (Graph.blank hd hq).draw P node
  let entered := drawn.publish .input ⟨pipe, (P.port .input).shift node⟩
  have hentry : (expose w.graphs.length .input (P.entry.shift node) 0).run (w.grow (node + P.size) pipe [drawn]) =
      .ok pipe (w.grow (node + P.size) (pipe + 1) [entered]) :=
    expose_run_grow (p := (P.port .input).shift node) (frozen_draw node) (P.port_draw node hd hq .input)
      (P.isBound_draw node hd hq .input)
  have hfrozen : entered.frozen = false := frozen_draw node
  have hexit : (expose w.graphs.length .output (P.exit.shift node) 0).run
      (w.grow (node + P.size) (pipe + 1) [entered]) =
        .ok (pipe + 1) (w.grow (node + P.size) (pipe + 2) [P.exposed hd hq node pipe]) :=
    expose_run_grow (p := (P.port .output).shift node) hfrozen (P.port_draw node hd hq .output)
      (P.isBound_draw node hd hq .output)
  rw [assemblePlain, run_bind_ok (create_run h hP)]
  refine (run_bind_ok (discard_run_ok hentry)).trans ?_
  exact run_bind_ok (discard_run_ok hexit)

theorem assemblePlain_run_none (h : create.Draws blueprint) (hP : blueprint domain shape = none) :
    (assemblePlain w.graphs.length create shape).run (w.grow node pipe [.blank hd hq]) =
      .ok none (w.grow node pipe [.blank hd hq]) :=
  run_bind_ok (create_run_none h hP)

def groupNode (id : NodeId) (inner : GraphId) : Node := ⟨id, .group inner 1 1⟩

theorem group_run_of_blank {g : GraphId} (hg : w.graph g = .blank hd hq) :
    (group (w.graph g).domain (w.graph g).queue 1 1).run w =
      .ok (groupNode w.nextNode w.graphs.length) (w.grow (w.nextNode + 1) w.nextPipe [.blank hd hq]) := by
  rw [hg]
  exact group_run hd hq

theorem branch_run {g : GraphId} (hg : w.graph g = .blank hd hq) (h : create.Draws blueprint)
    (hP : blueprint domain shape = some P) : (branch g create shape).run w =
      .ok (some (groupNode w.nextNode w.graphs.length,
          ⟨P.entry.shift (w.nextNode + 1), P.exit.shift (w.nextNode + 1), P.shape⟩))
        (w.grow (w.nextNode + 1 + P.size) w.nextPipe
          [P.enclosed hd hq (w.nextNode + 1) (groupNode w.nextNode w.graphs.length)]) := by
  let group := groupNode w.nextNode w.graphs.length
  let b := w.nextNode + 1
  let drawn := (Graph.blank hd hq).draw P b
  let entered := drawn.attach group .input 0 ((P.port .input).shift b)
  have hinner : group.inner? = some w.graphs.length := rfl
  have hfree (side : Side) : (drawn.associations side).lookup 0 = none :=
    congrArg (List.lookup 0) (Plan.associations_draw side)
  have hentry : (associate group .input 0 (P.entry.shift b) 0).run (w.grow (b + P.size) w.nextPipe [drawn]) =
      .ok ⟨⟩ (w.grow (b + P.size) w.nextPipe [entered]) :=
    associate_run_grow (p := (P.port .input).shift b) (frozen_draw b) (P.port_draw b hd hq .input)
      (P.isBound_draw b hd hq .input) hinner Nat.one_pos (hfree .input)
  have hfrozen : entered.frozen = false := frozen_draw b
  have hexit : (associate group .output 0 (P.exit.shift b) 0).run (w.grow (b + P.size) w.nextPipe [entered]) =
      .ok ⟨⟩ (w.grow (b + P.size) w.nextPipe [P.enclosed hd hq b group]) :=
    associate_run_grow (p := (P.port .output).shift b) hfrozen (P.port_draw b hd hq .output)
      (P.isBound_draw b hd hq .output) hinner Nat.one_pos (hfree .output)
  rw [branch, EStateM.run_bind, graph_run]
  refine (run_bind_ok (group_run_of_blank hg)).trans ?_
  refine (run_bind_ok (create_run h hP)).trans ?_
  refine (run_bind_ok hentry).trans ?_
  exact run_bind_ok hexit

theorem branch_run_none {g : GraphId} (hg : w.graph g = .blank hd hq) (h : create.Draws blueprint)
    (hP : blueprint domain shape = none) : (branch g create shape).run w =
      .ok none (w.grow (w.nextNode + 1) w.nextPipe [.blank hd hq]) := by
  rw [branch, EStateM.run_bind, graph_run]
  refine (run_bind_ok (group_run_of_blank hg)).trans ?_
  exact run_bind_ok (create_run_none h hP)

end

section
variable {w : Workspace} {J : Junction} {pipe : PipeId} {domain queue : Nat} {hd : 0 < domain} {hq : 0 < queue}
  {inner : List Graph}

def Typed (w : Workspace) (J : Junction) : Prop :=
  ∀ side, w.typeOf side ⟨J.leftNode, 0⟩ = .integer ∧ w.typeOf side ⟨J.rightNode, 0⟩ = .integer

theorem wire_wire_run {α : Type} {w w' : Workspace} {g : GraphId} {c c' : Connection} {rest : Build α}
    (h : (Build.connectAll g [c, c']).run w = .ok ⟨⟩ w') :
    (do
      Creator.wire g c.source.node c.source.index c.destination.node c.destination.index
      Creator.wire g c'.source.node c'.source.index c'.destination.node c'.destination.index
      rest).run w = rest.run w' := by
  have hboth : (Build.connectAll g [c, c'] >>= fun _ => rest).run w = rest.run w' := run_bind_ok h
  simpa only [Build.connectAll, Creator.wire, bind_assoc, pure_bind] using hboth

theorem join_run_fork {α : Type} {rest : Build α} (htyped : ∀ node pipe outer, Typed (w.grow node pipe (outer :: inner)) J) :
    (do
      let fork ← Build.fork 2 .integer
      Build.add w.graphs.length [fork, J.leftNode, J.rightNode]
      Creator.wire w.graphs.length fork 0 J.leftNode 0
      Creator.wire w.graphs.length fork 1 J.rightNode 0
      discard (Build.expose w.graphs.length .input fork 0)
      rest).run (w.grow J.fork pipe (.blank hd hq :: inner)) =
    rest.run (w.grow (J.fork + 1) (pipe + 1) (J.forked hd hq pipe :: inner)) := by
  let nodes := [J.forkNode, J.leftNode, J.rightNode]
  let start := (Graph.blank hd hq).extend nodes
  let wired := start.wires J.branches
  have hfork : (Build.fork 2 .integer).run (w.grow J.fork pipe (.blank hd hq :: inner)) =
      .ok J.forkNode (w.grow (J.fork + 1) pipe (.blank hd hq :: inner)) := Creator.fork_run _ _ Creator.pos_two
  have hadd : (Build.add w.graphs.length nodes).run (w.grow (J.fork + 1) pipe (.blank hd hq :: inner)) =
      .ok ⟨⟩ (w.grow (J.fork + 1) pipe (start :: inner)) := add_run_grow rfl (J.extensible_fork hd hq)
  have hconnect : (Build.connectAll w.graphs.length J.branches).run (w.grow (J.fork + 1) pipe (start :: inner)) =
      .ok ⟨⟩ (w.grow (J.fork + 1) pipe (wired :: inner)) := by
    refine connectAll_run_grow rfl (J.wireable_fork hd hq) fun c hc => ?_
    have hinput := htyped (J.fork + 1) pipe start .input
    rcases List.mem_pair.1 hc with rfl | rfl
    · exact (Workspace.typeOf_leaf _ .output rfl).trans hinput.1.symm
    · exact (Workspace.typeOf_leaf _ .output rfl).trans hinput.2.symm
  have hexpose : (Build.expose w.graphs.length .input J.forkNode 0).run (w.grow (J.fork + 1) pipe (wired :: inner)) =
      .ok pipe (w.grow (J.fork + 1) (pipe + 1) (J.forked hd hq pipe :: inner)) :=
    expose_run_grow (p := ⟨J.forkNode, 0⟩) rfl ⟨List.mem_cons_self, Nat.one_pos⟩ (J.entry_free hd hq)
  refine (run_bind_ok hfork).trans ?_
  refine (run_bind_ok hadd).trans ?_
  refine (wire_wire_run hconnect).trans ?_
  exact run_bind_ok (discard_run_ok hexpose)

theorem join_run_stepwise
    (htyped : ∀ node pipe outer, Typed (w.grow node pipe (outer :: inner)) J) :
    (join w.graphs.length J.leftNode J.rightNode .stepwise).run (w.grow J.fork pipe (.blank hd hq :: inner)) =
      .ok ⟨⟩ (w.grow (J.fork + 1) (pipe + 3) (J.joined hd hq pipe .stepwise :: inner)) := by
  let exposed := (J.forked hd hq pipe).publish .output ⟨pipe + 1, ⟨J.leftNode, 0⟩⟩
  have hleft : (Build.expose w.graphs.length .output J.leftNode 0).run
      (w.grow (J.fork + 1) (pipe + 1) (J.forked hd hq pipe :: inner)) =
        .ok (pipe + 1) (w.grow (J.fork + 1) (pipe + 2) (exposed :: inner)) :=
    expose_run_grow (p := ⟨J.leftNode, 0⟩) rfl ⟨List.mem_cons_of_mem _ List.mem_cons_self, Nat.one_pos⟩
      (J.left_free hd hq pipe)
  have hright : (Build.expose w.graphs.length .output J.rightNode 0).run
      (w.grow (J.fork + 1) (pipe + 2) (exposed :: inner)) =
        .ok (pipe + 2) (w.grow (J.fork + 1) (pipe + 3) (J.joined hd hq pipe .stepwise :: inner)) :=
    expose_run_grow (p := ⟨J.rightNode, 0⟩) rfl
      ⟨List.mem_cons_of_mem _ (List.mem_cons_of_mem _ List.mem_cons_self), Nat.one_pos⟩ (J.right_free hd hq pipe)
  rw [join]
  refine (join_run_fork htyped).trans ?_
  refine (run_bind_ok (discard_run_ok hleft)).trans ?_
  exact discard_run_ok hright

theorem join_run_sequence
    (htyped : ∀ node pipe outer, Typed (w.grow node pipe (outer :: inner)) J) :
    (join w.graphs.length J.leftNode J.rightNode .sequence).run (w.grow J.fork pipe (.blank hd hq :: inner)) =
      .ok ⟨⟩ (w.grow (J.fork + 2) (pipe + 2) (J.joined hd hq pipe .sequence :: inner)) := by
  let extended := (J.forked hd hq pipe).extend [J.equalsNode]
  let merged := extended.wires J.merges
  have hport : (Build.portType J.leftNode .output 0).run
      (w.grow (J.fork + 1) (pipe + 1) (J.forked hd hq pipe :: inner)) =
        .ok .integer (w.grow (J.fork + 1) (pipe + 1) (J.forked hd hq pipe :: inner)) := by
    have hport : Workspace.port? J.leftNode .output 0 = .ok ⟨J.leftNode, 0⟩ := rfl
    rw [Build.portType_run, hport]
    exact congrArg (EStateM.Result.ok · _) (htyped _ _ _ .output).1
  have hequals : (Build.apply .equals .integer).run
      (w.grow (J.fork + 1) (pipe + 1) (J.forked hd hq pipe :: inner)) =
        .ok J.equalsNode (w.grow (J.fork + 2) (pipe + 1) (J.forked hd hq pipe :: inner)) := rfl
  have hadd : (Build.add w.graphs.length [J.equalsNode]).run
      (w.grow (J.fork + 2) (pipe + 1) (J.forked hd hq pipe :: inner)) =
        .ok ⟨⟩ (w.grow (J.fork + 2) (pipe + 1) (extended :: inner)) :=
    add_run_grow rfl (J.extensible_equals hd hq pipe)
  have hconnect : (Build.connectAll w.graphs.length J.merges).run
      (w.grow (J.fork + 2) (pipe + 1) (extended :: inner)) =
        .ok ⟨⟩ (w.grow (J.fork + 2) (pipe + 1) (merged :: inner)) := by
    refine connectAll_run_grow rfl (J.wireable_merge hd hq pipe) fun c hc => ?_
    have houtput := htyped (J.fork + 2) (pipe + 1) extended .output
    have hleaf (j : Nat) := Workspace.typeOf_leaf (w.grow (J.fork + 2) (pipe + 1) (extended :: inner)) .input
      (p := ⟨J.equalsNode, j⟩) rfl
    rcases List.mem_pair.1 hc with rfl | rfl
    · exact houtput.1.trans (hleaf 0).symm
    · exact houtput.2.trans (hleaf 1).symm
  have hexpose : (Build.expose w.graphs.length .output J.equalsNode 0).run
      (w.grow (J.fork + 2) (pipe + 1) (merged :: inner)) =
        .ok (pipe + 1) (w.grow (J.fork + 2) (pipe + 2) (J.joined hd hq pipe .sequence :: inner)) :=
    expose_run_grow (p := ⟨J.equalsNode, 0⟩) rfl ⟨List.mem_append_right _ List.mem_cons_self, Nat.one_pos⟩
      (J.equals_free hd hq pipe)
  rw [join]
  refine (join_run_fork htyped).trans ?_
  refine (run_bind_ok hport).trans ?_
  refine (run_bind_ok hequals).trans ?_
  refine (run_bind_ok hadd).trans ?_
  refine (wire_wire_run hconnect).trans ?_
  exact discard_run_ok hexpose

end

section
variable {w : Workspace} {domain queue : Nat} {hd : 0 < domain} {hq : 0 < queue} {shape : Option Int}
  {P Q : Plan}

def junction (w : Workspace) (P Q : Plan) : Junction where
  left := w.nextNode
  right := w.nextNode + 1 + P.size
  fork := w.nextNode + 1 + P.size + 1 + Q.size
  leftInner := w.graphs.length + 1
  rightInner := w.graphs.length + 2
  left_lt := Nat.lt_of_lt_of_le (Nat.lt_succ_self _) (Nat.le_add_right _ _)
  right_lt := Nat.lt_of_lt_of_le (Nat.lt_succ_self _) (Nat.le_add_right _ _)

def branches (w : Workspace) (hd : 0 < domain) (hq : 0 < queue) (P Q : Plan) : List Graph :=
  [P.enclosed hd hq (w.nextNode + 1) (junction w P Q).leftNode,
    Q.enclosed hd hq (w.nextNode + 1 + P.size + 1) (junction w P Q).rightNode]

def nodesOf : Wiring → Nat
  | .stepwise => 1
  | .sequence => 2

def pipesOf : Wiring → Nat
  | .stepwise => 3
  | .sequence => 2

theorem typed_branches (node : NodeId) (pipe : PipeId) (outer : Graph) :
    Typed (w.grow node pipe (outer :: branches w hd hq P Q)) (junction w P Q) := by
  intro side
  have hleft : (w.grow node pipe (outer :: branches w hd hq P Q)).graph (w.graphs.length + 1) =
      P.enclosed hd hq (w.nextNode + 1) (junction w P Q).leftNode := Workspace.graph_grow 1
  have hright : (w.grow node pipe (outer :: branches w hd hq P Q)).graph (w.graphs.length + 2) =
      Q.enclosed hd hq (w.nextNode + 1 + P.size + 1) (junction w P Q).rightNode := Workspace.graph_grow 2
  exact ⟨Plan.typeOf_enclosed hleft rfl side, Plan.typeOf_enclosed hright rfl side⟩

theorem branch_run_grow {create : Creator} {blueprint : Blueprint} {node : NodeId} {pipe : PipeId}
    {rest : List Graph} (h : create.Draws blueprint) (hP : blueprint domain shape = some P) :
    (branch w.graphs.length create shape).run (w.grow node pipe (.blank hd hq :: rest)) =
      .ok (some (groupNode node (w.graphs.length + (rest.length + 1)),
          ⟨P.entry.shift (node + 1), P.exit.shift (node + 1), P.shape⟩))
        (w.grow (node + 1 + P.size) pipe (.blank hd hq :: rest ++
          [P.enclosed hd hq (node + 1) (groupNode node (w.graphs.length + (rest.length + 1)))])) := by
  have hgraph : (w.grow node pipe (.blank hd hq :: rest)).graph w.graphs.length = .blank hd hq :=
    Workspace.graph_grow_head
  have hlength : (w.grow node pipe (.blank hd hq :: rest)).graphs.length = w.graphs.length + (rest.length + 1) :=
    Workspace.length_grow
  have hrun := branch_run hgraph h hP
  rw [hlength] at hrun
  exact hrun.trans (congrArg _ Workspace.grow_grow)

theorem assembleBranches_run {first second : Creator} {blueprint blueprint' : Blueprint}
    (h : first.Draws blueprint) (h' : second.Draws blueprint') (hP : blueprint domain shape = some P)
    (hQ : blueprint' domain shape = some Q) (wiring : Wiring) :
    (assembleBranches w.graphs.length first second shape wiring).run
        (w.grow w.nextNode w.nextPipe [.blank hd hq]) =
      .ok (some (P.shape <|> Q.shape))
        (w.grow ((junction w P Q).fork + nodesOf wiring) (w.nextPipe + pipesOf wiring)
          ((junction w P Q).joined hd hq w.nextPipe wiring :: branches w hd hq P Q)) := by
  let J := junction w P Q
  -- each group takes a number of its own before the nodes inside
  let b := w.nextNode + 1
  let b' := w.nextNode + 1 + P.size + 1
  have hleft : (branch w.graphs.length first shape).run (w.grow w.nextNode w.nextPipe [.blank hd hq]) =
      .ok (some (J.leftNode, ⟨P.entry.shift b, P.exit.shift b, P.shape⟩))
        (w.grow (w.nextNode + 1 + P.size) w.nextPipe [.blank hd hq, P.enclosed hd hq b J.leftNode]) :=
    branch_run_grow h hP
  have hright : (branch w.graphs.length second shape).run (w.grow (w.nextNode + 1 + P.size) w.nextPipe
        [.blank hd hq, P.enclosed hd hq b J.leftNode]) =
      .ok (some (J.rightNode, ⟨Q.entry.shift b', Q.exit.shift b', Q.shape⟩))
        (w.grow J.fork w.nextPipe (.blank hd hq :: branches w hd hq P Q)) :=
    branch_run_grow h' hQ
  have hjoin : (join w.graphs.length (junction w P Q).leftNode (junction w P Q).rightNode wiring).run
      (w.grow (junction w P Q).fork w.nextPipe (.blank hd hq :: branches w hd hq P Q)) =
        .ok ⟨⟩ (w.grow ((junction w P Q).fork + nodesOf wiring) (w.nextPipe + pipesOf wiring)
          ((junction w P Q).joined hd hq w.nextPipe wiring :: branches w hd hq P Q)) := by
    cases wiring
    · exact join_run_stepwise typed_branches
    · exact join_run_sequence typed_branches
  rw [assembleBranches]
  refine (run_bind_ok hleft).trans ?_
  refine (run_bind_ok hright).trans ?_
  exact run_bind_ok hjoin

theorem assembleBranches_run_none {first second : Creator} {blueprint : Blueprint} (h : first.Draws blueprint)
    (hP : blueprint domain shape = none) (wiring : Wiring) :
    (assembleBranches w.graphs.length first second shape wiring).run
        (w.grow w.nextNode w.nextPipe [.blank hd hq]) =
      .ok none (w.grow (w.nextNode + 1) w.nextPipe [.blank hd hq, .blank hd hq]) := by
  have hleft : (branch w.graphs.length first shape).run (w.grow w.nextNode w.nextPipe [.blank hd hq]) =
      .ok none (w.grow (w.nextNode + 1) w.nextPipe [.blank hd hq, .blank hd hq]) :=
    (branch_run_none Workspace.graph_grow_head h hP).trans (congrArg _ Workspace.grow_grow)
  exact run_bind_ok hleft

/-! ### The whole assembly -/

def built (w : Workspace) (hd : 0 < domain) (hq : 0 < queue) (P Q : Plan) : Option Wiring → Workspace
  | none => w.grow (w.nextNode + P.size) (w.nextPipe + 2) [P.exposed hd hq w.nextNode w.nextPipe]
  | some wiring => w.grow ((junction w P Q).fork + nodesOf wiring) (w.nextPipe + pipesOf wiring)
      ((junction w P Q).joined hd hq w.nextPipe wiring :: branches w hd hq P Q)

def shapeOf (P Q : Plan) : Option Wiring → Option Int
  | none => P.shape
  | some _ => P.shape <|> Q.shape

theorem built_congr (node : NodeId) (pipe : PipeId) (count : Nat) (hd : 0 < domain) (hq : 0 < queue) (P Q : Plan)
    (wiring? : Option Wiring) : ∃ (node' : NodeId) (pipe' : PipeId) (new : List Graph),
      ∀ graphs : List Graph, graphs.length = count →
        built ⟨node, pipe, graphs⟩ hd hq P Q wiring? = ⟨node', pipe', graphs ++ new⟩ := by
  let J : Junction := junction ⟨node, pipe, List.replicate count default⟩ P Q
  have hjunction {graphs : List Graph} (hcount : graphs.length = count) : junction ⟨node, pipe, graphs⟩ P Q = J := by
    simp only [J, junction, List.length_replicate, hcount]
  cases wiring? with
  | none => exact ⟨node + P.size, pipe + 2, [P.exposed hd hq node pipe], fun graphs _ => rfl⟩
  | some wiring =>
    refine ⟨J.fork + nodesOf wiring, pipe + pipesOf wiring, J.joined hd hq pipe wiring ::
      [P.enclosed hd hq (node + 1) J.leftNode, Q.enclosed hd hq (node + 1 + P.size + 1) J.rightNode],
      fun graphs hcount => ?_⟩
    rw [built, branches, hjunction hcount, Workspace.grow]

theorem graph_built : (built w hd hq P Q none).graph w.graphs.length = P.exposed hd hq w.nextNode w.nextPipe :=
  Workspace.graph_grow_head

theorem stands_built (wiring : Wiring) : Junction.Stands (built w hd hq P Q (some wiring)) w.graphs.length
    (junction w P Q) hd hq w.nextPipe wiring P Q (w.nextNode + 1) (w.nextNode + 1 + P.size + 1) :=
  ⟨Workspace.graph_grow_head, Workspace.graph_grow 1, Workspace.graph_grow 2⟩

theorem orderly_built (wiring? : Option Wiring) : (built w hd hq P Q wiring?).Orderly w.graphs.length [] := by
  cases wiring? with
  | none =>
    refine Plan.Shows.orderly (P := P) (b := w.nextNode) ?_ ?_ <;> rw [graph_built]
    · exact Plan.shows_exposed _
    · exact Plan.fed_exposed _
  | some wiring => exact (stands_built wiring).orderly

theorem complete_built {s : Sizes} (hP : P.Behaves s) (hQ : Q.Behaves s) (wiring? : Option Wiring) :
    (built w hd hq P Q wiring?).Complete s 2 w.graphs.length := by
  cases wiring? with
  | none =>
    refine Plan.Shows.complete (P := P) (b := w.nextNode) ?_ hP ?_ 1 <;> rw [graph_built]
    · exact Plan.shows_exposed _
    · exact Plan.isBound_exposed _
  | some wiring => exact (stands_built wiring).complete hP hQ

theorem two_le_depth_built (wiring? : Option Wiring) : 2 ≤ (built w hd hq P Q wiring?).depth := by
  cases wiring? with
  | none =>
    rw [Workspace.depth, built, Workspace.length_grow, List.length_singleton]
    omega
  | some wiring =>
    rw [Workspace.depth, built, Workspace.length_grow, List.length_cons]
    omega

end

section
variable (w : Workspace) {domain queue : Nat} (hd : 0 < domain) (hq : 0 < queue) (P Q : Plan)

theorem inputs_built (wiring? : Option Wiring) : ∃ port,
    ((built w hd hq P Q wiring?).graph w.graphs.length).inputs = [⟨w.nextPipe, port⟩] ∧
      (built w hd hq P Q wiring?).typeOf .input port = .integer := by
  cases wiring? with
  | none =>
    refine ⟨(P.port .input).shift w.nextNode, ?_, ?_⟩
    · rw [graph_built]
      exact Plan.inputs_exposed _
    · have hleaf := P.leaf _ (P.port_member .input).1
      exact (Plan.typeOf_shift hleaf .input).trans (P.declared_port .input)
  | some wiring =>
    refine ⟨⟨(junction w P Q).forkNode, 0⟩, ?_, ?_⟩
    · rw [(stands_built wiring).outer, Junction.inputs_joined]
    · exact Workspace.typeOf_leaf _ .input rfl

theorem outputs_built (wiring? : Option Wiring) :
    ((built w hd hq P Q wiring?).graph w.graphs.length).outputs.map External.pipe =
      match wiring? with
      | some .stepwise => [w.nextPipe + 1, w.nextPipe + 2]
      | _ => [w.nextPipe + 1] := by
  cases wiring? with
  | none =>
    rw [graph_built, Plan.outputs_exposed]
    rfl
  | some wiring =>
    rw [(stands_built wiring).outer, Junction.outputs_joined]
    cases wiring <;> rfl

theorem nodup_pipes_built (wiring? : Option Wiring) (side : Side) :
    ((((built w hd hq P Q wiring?).graph w.graphs.length).externals side).map External.pipe).Nodup := by
  cases side with
  | input =>
    obtain ⟨port, hinputs, -⟩ := inputs_built w hd hq P Q wiring?
    rw [Graph.externals, hinputs]
    exact List.nodup_singleton _
  | output =>
    rw [Graph.externals, outputs_built]
    split
    · simp
    · exact List.nodup_singleton _

theorem outputTypes_built (wiring? : Option Wiring) :
    ((built w hd hq P Q wiring?).graph w.graphs.length).outputs.map
      (fun e => (built w hd hq P Q wiring?).typeOf .output e.port) = outputTypes wiring? := by
  cases wiring? with
  | none =>
    have hleaf := P.leaf _ (P.port_member .output).1
    rw [graph_built, Plan.outputs_exposed]
    exact congrArg (fun type => [type]) ((Plan.typeOf_shift hleaf .output).trans (P.declared_port .output))
  | some wiring =>
    rw [(stands_built wiring).outer, Junction.outputs_joined]
    cases wiring with
    | stepwise =>
      have htypes : (built w hd hq P Q (some .stepwise)).typeOf .output ⟨(junction w P Q).leftNode, 0⟩ = .integer ∧
          (built w hd hq P Q (some .stepwise)).typeOf .output ⟨(junction w P Q).rightNode, 0⟩ = .integer :=
        typed_branches _ _ _ .output
      simp only [List.map_cons, List.map_nil, htypes, outputTypes]
    | sequence => exact congrArg (fun type => [type]) (Workspace.typeOf_leaf _ .output rfl)

end

section
variable {w : Workspace} {c : Configuration} {q : Query} {P Q : Plan}

theorem domain_toNat_pos (c : Configuration) : 0 < c.domain.toNat := by
  have := c.domain_pos
  omega

theorem queue_toNat_pos (c : Configuration) : 0 < c.queue.toNat := by
  have := c.queue_pos
  omega

theorem toNat_domain (c : Configuration) : (c.domain.toNat : Int) = c.domain :=
  Int.toNat_of_nonneg (Int.le_of_lt c.domain_pos)

theorem plans_behave (hP : q.blueprint c.domain.toNat c.shape = some P)
    (hQ : q.counterpart c.domain.toNat c.shape = some Q) :
    P.Behaves ⟨c.domain, c.queue⟩ ∧ Q.Behaves ⟨c.domain, c.queue⟩ :=
  ⟨(Query.draft_of_blueprint hP).behaves (toNat_domain c).symm,
    (Query.draft_of_counterpart hQ).behaves (toNat_domain c).symm⟩

theorem assemble_run (hquery : Query.ofName? c.query = some q)
    (hP : q.blueprint c.domain.toNat c.shape = some P) (hQ : q.counterpart c.domain.toNat c.shape = some Q) :
    (assemble c).run w = .ok (some ⟨c.query, w.graphs.length, shapeOf P Q c.wiring?, c.wiring?⟩)
      (built w (domain_toNat_pos c) (queue_toNat_pos c) P Q c.wiring?) := by
  have hrecipe : ∃ r, recipe? c.query = some r ∧ q.recipe? = some r := by
    rw [recipe?, hquery]
    cases q with
    | dummy => nomatch hP
    | _ => exact ⟨_, rfl, rfl⟩
  obtain ⟨r, hr, hqr⟩ := hrecipe
  obtain ⟨hfirst, hsecond⟩ := Query.draws hqr
  have hnew := Build.newGraph_run_ok (w := w) c.domain c.queue (domain_toNat_pos c) (queue_toNat_pos c)
  obtain ⟨hbehaves, hbehaves'⟩ := plans_behave hP hQ
  have hvalid (wiring? : Option Wiring) : (built w (domain_toNat_pos c) (queue_toNat_pos c) P Q wiring?).validate
      w.graphs.length = .ok () :=
    (complete_built hbehaves hbehaves' wiring?).validate_eq_ok (two_le_depth_built wiring?)
  have hvalidate (wiring? : Option Wiring) := Build.validate_run (hvalid wiring?)
  -- from here on step by step as the graph is assembled
  rw [assemble]
  simp only [hr]
  refine (run_bind_ok hnew).trans ?_
  cases hwiring : c.wiring? with
  | none =>
    have hplain : (assemblePlain w.graphs.length r.first c.shape).run
        (w.grow w.nextNode w.nextPipe [.blank (domain_toNat_pos c) (queue_toNat_pos c)]) =
          .ok (some P.shape) (built w (domain_toNat_pos c) (queue_toNat_pos c) P Q none) :=
      assemblePlain_run hfirst hP
    refine (run_bind_ok hplain).trans ?_
    exact run_bind_ok (hvalidate none)
  | some wiring =>
    have hbranches : (assembleBranches w.graphs.length r.first (r.second.getD r.first) c.shape wiring).run
        (w.grow w.nextNode w.nextPipe [.blank (domain_toNat_pos c) (queue_toNat_pos c)]) =
          .ok (some (P.shape <|> Q.shape))
            (built w (domain_toNat_pos c) (queue_toNat_pos c) P Q (some wiring)) :=
      assembleBranches_run hfirst hsecond hP hQ wiring
    refine (run_bind_ok hbranches).trans ?_
    exact run_bind_ok (hvalidate (some wiring))

theorem assemble_run_none (h : ∀ q, Query.ofName? c.query = some q → q.blueprint c.domain.toNat c.shape = none) :
    ∃ (taken : Nat) (new : List Graph), ∀ w : Workspace,
      (assemble c).run w = .ok none (w.grow (w.nextNode + taken) w.nextPipe new) := by
  let blank := Graph.blank (domain_toNat_pos c) (queue_toNat_pos c)
  cases hr : recipe? c.query with
  | none =>
    refine ⟨0, [], fun w => ?_⟩
    rw [assemble]
    simp only [hr]
    rw [Workspace.grow, List.append_nil]
    rfl
  | some r =>
    obtain ⟨q, hquery, hqr⟩ := Option.bind_eq_some_iff.1 hr
    obtain ⟨hfirst, -⟩ := Query.draws hqr
    have hP := h q hquery
    have hnew (w : Workspace) := Build.newGraph_run_ok (w := w) c.domain c.queue (domain_toNat_pos c)
      (queue_toNat_pos c)
    cases hwiring : c.wiring? with
    | none =>
      refine ⟨0, [blank], fun w => ?_⟩
      rw [assemble]
      simp only [hr, hwiring]
      refine (run_bind_ok (hnew w)).trans ?_
      exact run_bind_ok (assemblePlain_run_none hfirst hP)
    | some wiring =>
      -- the group of the first branch has its number and its empty graph by then
      refine ⟨1, [blank, blank], fun w => ?_⟩
      rw [assemble]
      simp only [hr, hwiring]
      refine (run_bind_ok (hnew w)).trans ?_
      exact run_bind_ok (assembleBranches_run_none hfirst hP wiring)

end
end StreamCheck.Pipeline.Catalog
