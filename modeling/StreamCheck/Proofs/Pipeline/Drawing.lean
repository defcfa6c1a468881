import StreamCheck.Proofs.Network.Compiling
import StreamCheck.Proofs.Network.Wires
import StreamCheck.Proofs.Pipeline.Plan

/-! Drawing: a plan put into an empty graph, its numbers moved up to the next free ones. -/

namespace StreamCheck.Network
open Smv

def Graph.draw (g : Graph) (P : Plan) (b : Nat) : Graph :=
  (g.extend (P.nodes.map (Node.shift b))).wires (P.connections.map (Connection.shift b))

namespace Plan
variable {P : Plan} {b domain queue : Nat} {hd : 0 < domain} {hq : 0 < queue}

theorem extensible (P : Plan) (b : Nat) : (Graph.blank hd hq).Extensible (P.nodes.map (Node.shift b)) := by
  refine ⟨?_, fun n _ => rfl⟩
  have hids : (P.nodes.map (Node.shift b)).map Node.id = (P.nodes.map Node.id).map (b + ·) := by
    rw [List.map_map, List.map_map]
    rfl
  rw [hids]
  exact P.distinct.map fun _ _ h => Nat.add_left_cancel h

theorem slots_nodup (P : Plan) (side : Side) : (P.connections.map fun c => (c.endpoint side).slot).Nodup := by
  cases side with
  | input =>
    have hnodup := P.entered
    rw [List.map_cons, List.map_map] at hnodup
    exact (List.nodup_cons.1 hnodup).2
  | output =>
    have hnodup := P.left
    rw [List.map_cons, List.map_map] at hnodup
    exact (List.nodup_cons.1 hnodup).2

theorem map_slot_shift (P : Plan) (b : Nat) (side : Side) :
    ((P.connections.map (Connection.shift b)).map fun c => (c.endpoint side).slot) =
      (P.connections.map fun c => (c.endpoint side).slot).map fun s => (b + s.1, s.2) := by
  rw [List.map_map, List.map_map]
  refine List.map_congr_left fun c _ => ?_
  simp only [Function.comp, Connection.endpoint_shift]
  rfl

theorem wireable (P : Plan) (b : Nat) : ((Graph.blank hd hq).extend (P.nodes.map (Node.shift b))).Wireable
    (P.connections.map (Connection.shift b)) := by
  refine ⟨fun c' hc' side => ?_, fun c' hc' side => ?_, fun side => ?_⟩
  · obtain ⟨c, hc, rfl⟩ := List.mem_map.1 hc'
    obtain ⟨hmem, hlt⟩ := P.member c hc side
    rw [Connection.endpoint_shift]
    refine ⟨List.mem_map_of_mem hmem, ?_⟩
    rw [Port.shift, Node.arity_shift]
    exact hlt
  · cases side <;> rfl
  · rw [map_slot_shift]
    exact (P.slots_nodup side).map (slot_shift_injective b)

theorem typeOf_shift {w : Workspace} {p : Port} (hp : p.node.inner? = none) (side : Side) :
    w.typeOf side (p.shift b) = p.declaredType side := by
  have hleaf : (p.shift b).node.inner? = none := by
    rw [Port.shift, Node.inner?_shift]
    exact hp
  rw [Workspace.typeOf_leaf w side hleaf, Port.shift, Workspace.declared_shift]
  rfl

theorem draw_run {α : Type} {w : Workspace} {g : GraphId} (P : Plan) (b : Nat) (hg : g < w.graphs.length)
    (hblank : w.graph g = .blank hd hq) (r : α) :
    (do
      Build.add g (P.nodes.map (Node.shift b))
      Build.connectAll g (P.connections.map (Connection.shift b))
      return r : Build α).run w = .ok r (w.modify g (·.draw P b)) := by
  have hadd := Build.add_run_ok hg (by rw [hblank]; rfl) (hblank ▸ P.extensible b)
  have hgraph := Workspace.graph_modify hg (·.extend (P.nodes.map (Node.shift b)))
  have hconnect := Build.connectAll_run (w := w.modify g (·.extend (P.nodes.map (Node.shift b))))
    (by rwa [Workspace.length_modify]) (by rw [hgraph, hblank]; rfl)
    (by rw [hgraph, hblank]; exact P.wireable b) fun c' hc' => by
      obtain ⟨c, hc, rfl⟩ := List.mem_map.1 hc'
      have hsource := P.leaf _ (P.member c hc .output).1
      have hdestination := P.leaf _ (P.member c hc .input).1
      exact ((typeOf_shift hsource .output).trans (P.type_eq c hc)).trans
        (typeOf_shift hdestination .input).symm
  rw [Workspace.modify_modify] at hconnect
  rw [EStateM.run_bind, hadd]
  simp only
  rw [EStateM.run_bind, hconnect]
  rfl

/-! ### What has been drawn -/

def port (P : Plan) : Side → Port
  | .input => ⟨P.entry, 0⟩
  | .output => ⟨P.exit, 0⟩

theorem port_member (P : Plan) (side : Side) :
    (P.port side).node ∈ P.nodes ∧ (P.port side).index < (P.port side).node.arity side := by
  cases side
  · exact P.entry_member
  · exact P.exit_member

theorem port_not_mem (P : Plan) (side : Side) :
    (P.port side).slot ∉ P.connections.map fun c => (c.endpoint side).slot := by
  cases side with
  | input =>
    have hnodup := P.entered
    rw [List.map_cons, List.map_map] at hnodup
    exact (List.nodup_cons.1 hnodup).1
  | output =>
    have hnodup := P.left
    rw [List.map_cons, List.map_map] at hnodup
    exact (List.nodup_cons.1 hnodup).1

section
variable (P b) (hd hq)

theorem nodes_draw : ((Graph.blank hd hq).draw P b).nodes = P.nodes.map (Node.shift b) :=
  (Graph.sameBesides_wires _ _).nodes

theorem connections_draw : ((Graph.blank hd hq).draw P b).connections = P.connections.map (Connection.shift b) :=
  Graph.connections_wires _ _

theorem fed_draw (around : List Node) : ((Graph.blank hd hq).draw P b).Fed around :=
  ((Graph.Fed.blank hd hq around).extend (P.extensible b)).wires (P.wireable b)

theorem slots_draw (side : Side) : (((Graph.blank hd hq).draw P b).bindings side).map Prod.fst =
    (P.connections.map fun c => (c.endpoint side).slot).map fun s => (b + s.1, s.2) := by
  have hnone : ((Graph.blank hd hq).extend (P.nodes.map (Node.shift b))).bindings side = [] := by
    cases side <;> rfl
  rw [Graph.draw, Graph.bindings_wires, hnone, List.nil_append, List.map_map, ← map_slot_shift]
  rfl

theorem isBound_draw (side : Side) :
    ((Graph.blank hd hq).draw P b).isBound side ((P.port side).shift b).slot = false := by
  refine Graph.isBound_eq_false ?_
  rw [slots_draw]
  intro hmem
  obtain ⟨slot, hslot, heq⟩ := List.mem_map.1 hmem
  obtain rfl : slot = (P.port side).slot := slot_shift_injective b heq
  exact P.port_not_mem side hslot

theorem port_draw (side : Side) : ((P.port side).shift b).node ∈ ((Graph.blank hd hq).draw P b).nodes ∧
    ((P.port side).shift b).index < ((P.port side).shift b).node.arity side := by
  obtain ⟨hmem, hlt⟩ := P.port_member side
  rw [nodes_draw, Port.shift, Node.arity_shift]
  exact ⟨List.mem_map_of_mem hmem, hlt⟩

theorem isBound_of_entered {g : Graph} (hslots : (g.bindings .input).map Prod.fst =
    (((Graph.blank hd hq).draw P b).bindings .input).map Prod.fst ++ [((P.port .input).shift b).slot]) :
    ∀ n ∈ P.nodes.map (Node.shift b), ∀ j < n.inputArity, g.isBound .input (n.id, j) = true := by
  intro n' hn' j hj
  obtain ⟨n, hn, rfl⟩ := List.mem_map.1 hn'
  have harity : (n.shift b).inputArity = n.inputArity := Node.arity_shift b n .input
  have hfed := P.fed n hn j (harity ▸ hj)
  refine Graph.isBound_of_mem ?_
  rw [hslots, slots_draw, List.mem_append, List.mem_singleton]
  rw [List.map_cons, List.mem_cons, List.map_map] at hfed
  rcases hfed with heq | hmem
  · exact .inr (congrArg (fun s : Slot => (b + s.1, s.2)) heq)
  · exact .inl (List.mem_map.2 ⟨_, hmem, rfl⟩)

end

/-! ### Plans with their ends bound -/

def exposed (P : Plan) {domain queue : Nat} (hd : 0 < domain) (hq : 0 < queue) (b : Nat) (pipe : PipeId) : Graph :=
  (((Graph.blank hd hq).draw P b).publish .input ⟨pipe, (P.port .input).shift b⟩).publish .output
    ⟨pipe + 1, (P.port .output).shift b⟩

def enclosed (P : Plan) {domain queue : Nat} (hd : 0 < domain) (hq : 0 < queue) (b : Nat) (group : Node) : Graph :=
  (((Graph.blank hd hq).draw P b).attach group .input 0 ((P.port .input).shift b)).attach group .output 0
    ((P.port .output).shift b)

theorem shows_exposed (pipe : PipeId) : Shows (P.exposed hd hq b pipe) P b :=
  ⟨nodes_draw P b hd hq, connections_draw P b hd hq⟩

theorem shows_enclosed (group : Node) : Shows (P.enclosed hd hq b group) P b :=
  ⟨nodes_draw P b hd hq, connections_draw P b hd hq⟩

theorem fed_exposed (pipe : PipeId) : (P.exposed hd hq b pipe).Fed [] := by
  have hentry := (P.fed_draw b hd hq []).publish (e := ⟨pipe, (P.port .input).shift b⟩)
    (P.isBound_draw b hd hq .input) (P.port_draw b hd hq .input)
  exact hentry.publish (e := ⟨pipe + 1, (P.port .output).shift b⟩) (P.isBound_draw b hd hq .output)
    (P.port_draw b hd hq .output)

theorem associations_draw (side : Side) : ((Graph.blank hd hq).draw P b).associations side = [] := by
  rw [Graph.draw, (Graph.sameBesides_wires _ _).associations]
  cases side <;> rfl

theorem fed_enclosed {group : Node} (hgroup : ∀ side, 0 < group.arity side) :
    (P.enclosed hd hq b group).Fed [group] := by
  have hnone (side : Side) : (((Graph.blank hd hq).draw P b).associations side).lookup 0 = none := by
    rw [associations_draw]
    rfl
  have hentry := (P.fed_draw b hd hq [group]).attach (hgroup .input) (hnone .input)
    (P.isBound_draw b hd hq .input) (P.port_draw b hd hq .input)
  exact hentry.attach (hgroup .output) (hnone .output) (P.isBound_draw b hd hq .output)
    (P.port_draw b hd hq .output)

theorem isBound_exposed (pipe : PipeId) : ∀ n ∈ P.nodes.map (Node.shift b), ∀ j < n.inputArity,
    (P.exposed hd hq b pipe).isBound .input (n.id, j) = true := by
  refine isBound_of_entered P b hd hq ?_
  have hentry := Graph.bindings_publish ((Graph.blank hd hq).draw P b) .input ⟨pipe, (P.port .input).shift b⟩
  exact (congrArg (List.map Prod.fst) hentry).trans List.map_append

theorem isBound_enclosed (group : Node) : ∀ n ∈ P.nodes.map (Node.shift b), ∀ j < n.inputArity,
    (P.enclosed hd hq b group).isBound .input (n.id, j) = true := by
  refine isBound_of_entered P b hd hq ?_
  have hentry := Graph.bindings_attach ((Graph.blank hd hq).draw P b) group .input 0 ((P.port .input).shift b)
  exact (congrArg (List.map Prod.fst) hentry).trans List.map_append

theorem inputs_exposed (pipe : PipeId) :
    (P.exposed hd hq b pipe).inputs = [⟨pipe, (P.port .input).shift b⟩] :=
  congrArg (· ++ [_]) (Graph.sameBesides_wires _ _).inputs

theorem outputs_exposed (pipe : PipeId) :
    (P.exposed hd hq b pipe).outputs = [⟨pipe + 1, (P.port .output).shift b⟩] :=
  congrArg (· ++ [_]) (Graph.sameBesides_wires _ _).outputs

theorem inputs_enclosed (group : Node) : (P.enclosed hd hq b group).inputs = [] :=
  (Graph.sameBesides_wires _ _).inputs

theorem entries_enclosed (group : Node) (side : Side) :
    (P.enclosed hd hq b group).associations side = [(0, (P.port side).shift b)] := by
  have hnone (side : Side) : ((Graph.blank hd hq).draw P b).associations side = [] := associations_draw side
  cases side with
  | input => exact congrArg (· ++ [(0, (P.port .input).shift b)]) (hnone .input)
  | output => exact congrArg (· ++ [(0, (P.port .output).shift b)]) (hnone .output)

theorem declared_port (P : Plan) (side : Side) : (P.port side).declaredType side = .integer := by
  cases side
  · exact P.entry_type
  · exact P.exit_type

theorem typeOf_enclosed {w : Workspace} {inner : GraphId} {group n : Node}
    (hgraph : w.graph inner = P.enclosed hd hq b group) (hinner : n.inner? = some inner) (side : Side) :
    w.typeOf side ⟨n, 0⟩ = .integer := by
  have hport : ((w.graph inner).associations side).lookup 0 = some ((P.port side).shift b) := by
    rw [hgraph, entries_enclosed]
    rfl
  have hleaf : ((P.port side).shift b).node.inner? = none := by
    rw [Port.shift, Node.inner?_shift]
    exact P.leaf _ (P.port_member side).1
  rw [Workspace.typeOf_group hinner hport hleaf, Port.shift, Workspace.declared_shift]
  exact P.declared_port side

/-! ### Graphs that show a plan -/

def Behaves (P : Plan) (s : Sizes) : Prop := ∀ n ∈ P.nodes, ∃ b, Circuit.behaviour s n.kind = .ok b

section
variable {w : Workspace} {s : Sizes} {g : GraphId} {around : List Node}

theorem inner?_of_mem_shift {n : Node} (hn : n ∈ P.nodes.map (Node.shift b)) : n.inner? = none := by
  obtain ⟨m, hm, rfl⟩ := List.mem_map.1 hn
  rw [Node.inner?_shift]
  exact P.leaf m hm

theorem Shows.orderly (hg : Shows (w.graph g) P b) (hfed : (w.graph g).Fed around) : w.Orderly g around := by
  refine .intro hfed (fun i => P.rank (i - b)) (fun c' hc' => ?_) fun n hn inner hinner => ?_
  · rw [hg.connections] at hc'
    obtain ⟨c, hc, rfl⟩ := List.mem_map.1 hc'
    have hforward := P.forward c hc
    change P.rank (b + c.source.node.id - b) < P.rank (b + c.destination.node.id - b)
    rwa [Nat.add_sub_cancel_left, Nat.add_sub_cancel_left]
  · rw [hg.nodes] at hn
    rw [inner?_of_mem_shift hn] at hinner
    nomatch hinner

theorem Shows.complete (hg : Shows (w.graph g) P b) (hP : P.Behaves s)
    (hbound : ∀ n ∈ P.nodes.map (Node.shift b), ∀ j < n.inputArity,
      (w.graph g).isBound .input (n.id, j) = true) (depth : Nat) : w.Complete s (depth + 1) g := by
  have hleaf {n : Node} (hn : n ∈ (w.graph g).nodes) : n.inner? = none := inner?_of_mem_shift (hg.nodes ▸ hn)
  refine .intro (fun n hn => hbound n (hg.nodes ▸ hn)) (fun n' hn' _ => ?_) (fun n hn inner hinner => ?_)
    (fun n hn inner hinner => ?_) fun n hn inner hinner => ?_
  · rw [hg.nodes] at hn'
    obtain ⟨n, hn, rfl⟩ := List.mem_map.1 hn'
    obtain ⟨b', hb'⟩ := hP n hn
    exact ⟨b', (Circuit.behaviour_shift s b n.kind).trans hb'⟩
  all_goals
    rw [hleaf hn] at hinner
    nomatch hinner

end

end Plan
end StreamCheck.Network
