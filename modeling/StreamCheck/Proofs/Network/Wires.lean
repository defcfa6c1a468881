import StreamCheck.Proofs.Network.Wiring

/-! Several connections made one after the other. They all succeed if the ports that they join are there,
free, each named once, and of one type; making a connection changes the type of no port. -/

namespace StreamCheck.Network
open Workspace

namespace Graph
variable {g : Graph} {around : List Node} {c : Connection} {cs : List Connection} {side : Side}

def wires (g : Graph) (cs : List Connection) : Graph := cs.foldl wire g

structure Wireable (g : Graph) (cs : List Connection) : Prop where
  member : ∀ c ∈ cs, ∀ side,
    (c.endpoint side).node ∈ g.nodes ∧ (c.endpoint side).index < (c.endpoint side).node.arity side
  free : ∀ c ∈ cs, ∀ side, g.isBound side (c.endpoint side).slot = false
  nodup : ∀ side, (cs.map fun c => (c.endpoint side).slot).Nodup

theorem isBound_eq_false {slot : Slot} (h : slot ∉ (g.bindings side).map Prod.fst) :
    g.isBound side slot = false := by
  rw [isBound, binding?, Option.isSome_eq_false_iff, Option.isNone_iff_eq_none, List.lookup_eq_none_iff]
  intro e he
  rw [bne_iff_ne]
  rintro rfl
  exact h (List.mem_map_of_mem he)

theorem Wireable.tail (h : g.Wireable (c :: cs)) : (g.wire c).Wireable cs := by
  refine ⟨fun c' hc' => h.member c' (List.mem_cons_of_mem _ hc'), fun c' hc' side => ?_, fun side => ?_⟩
  · have hfree := not_mem_of_not_isBound (h.free c' (List.mem_cons_of_mem _ hc') side)
    have hnodup := h.nodup side
    rw [List.map_cons, List.nodup_cons] at hnodup
    refine isBound_eq_false fun hmem => ?_
    rw [bindings_wire, List.map_append, List.mem_append] at hmem
    rcases hmem with hmem | hmem
    · exact hfree hmem
    · -- the port that has just been bound is none of those to come
      exact hnodup.1 (List.mem_map.2 ⟨c', hc', List.mem_singleton.1 hmem⟩)
  · have hnodup := h.nodup side
    rw [List.map_cons, List.nodup_cons] at hnodup
    exact hnodup.2

theorem Fed.wires (h : g.Fed around) (hcs : g.Wireable cs) : (g.wires cs).Fed around := by
  induction cs generalizing g with
  | nil => exact h
  | cons c cs ih =>
    have hc := h.wire (hcs.free c List.mem_cons_self) (hcs.member c List.mem_cons_self)
    exact ih hc hcs.tail

structure SameBesides (g g' : Graph) : Prop where
  nodes : g'.nodes = g.nodes
  inputs : g'.inputs = g.inputs
  outputs : g'.outputs = g.outputs
  associations : ∀ side, g'.associations side = g.associations side
  frozen : g'.frozen = g.frozen

theorem sameBesides_wires (g : Graph) (cs : List Connection) : g.SameBesides (g.wires cs) := by
  induction cs generalizing g with
  | nil => exact ⟨rfl, rfl, rfl, fun _ => rfl, rfl⟩
  | cons c cs ih =>
    obtain ⟨hnodes, hinputs, houtputs, hassociations, hfrozen⟩ := ih (g.wire c)
    exact ⟨hnodes, hinputs, houtputs, fun side => (hassociations side).trans (by cases side <;> rfl),
      hfrozen⟩

theorem connections_wires (g : Graph) (cs : List Connection) :
    (g.wires cs).connections = g.connections ++ cs := by
  induction cs generalizing g with
  | nil => rw [List.append_nil]; rfl
  | cons c cs ih =>
    have hfirst : (g.wire c).connections = g.connections ++ [c] := rfl
    rw [List.append_cons, ← hfirst]
    exact ih (g.wire c)

theorem bindings_wires (g : Graph) (cs : List Connection) (side : Side) : (g.wires cs).bindings side =
    g.bindings side ++ cs.map fun c => ((c.endpoint side).slot, .connection c) := by
  induction cs generalizing g with
  | nil => rw [List.map_nil, List.append_nil]; rfl
  | cons c cs ih =>
    rw [List.map_cons, List.append_cons, ← bindings_wire]
    exact ih (g.wire c)

end Graph

namespace Workspace

theorem typeOf_congr {w w' : Workspace} (hlength : w'.graphs.length = w.graphs.length)
    (h : ∀ g side, (w'.graph g).associations side = (w.graph g).associations side) (side : Side) (p : Port) :
    w'.typeOf side p = w.typeOf side p := by
  rw [typeOf, typeOf, depth, depth, hlength]
  generalize w.graphs.length + 1 = fuel
  obtain ⟨n, i⟩ := p
  induction fuel generalizing n i with
  | zero => rfl
  | succ fuel ih =>
    rw [typeWithin, typeWithin]
    cases n.inner? with
    | none => rfl
    | some inner =>
      simp only [h]
      cases ((w.graph inner).associations side).lookup i with
      | none => rfl
      | some q => exact ih q.node q.index

theorem typeOf_leaf (w : Workspace) (side : Side) {p : Port} (h : p.node.inner? = none) :
    w.typeOf side p = (declared p.node side).getD p.index .integer := by
  rw [typeOf, depth, typeWithin, h]

theorem typeOf_group {w : Workspace} {n : Node} {inner : GraphId} {side : Side} {i : Nat} {p : Port}
    (hinner : n.inner? = some inner) (hp : ((w.graph inner).associations side).lookup i = some p)
    (hleaf : p.node.inner? = none) : w.typeOf side ⟨n, i⟩ = (declared p.node side).getD p.index .integer := by
  rw [typeOf, depth, typeWithin, hinner]
  simp only [hp]
  cases w.graphs.length with
  | zero => rfl
  | succ fuel => rw [typeWithin, hleaf]

theorem typeOf_modify {w : Workspace} {g : GraphId} {f : Graph → Graph}
    (hf : ∀ graph side, (f graph).associations side = graph.associations side) (side : Side) (p : Port) :
    (w.modify g f).typeOf side p = w.typeOf side p := by
  refine typeOf_congr (length_modify w g f) (fun g' side => ?_) side p
  exact forall_graph_modify (P := fun g' graph => graph.associations side = (w.graph g').associations side)
    (fun _ => rfl) (fun h => (hf _ side).trans h) g'

end Workspace

namespace Build
variable {w : Workspace} {g : GraphId} {cs : List Connection}

def connectAll (g : GraphId) : List Connection → Build Unit
  | [] => return ⟨⟩
  | c :: cs => do
    discard (connect g c.source.node c.source.index c.destination.node c.destination.index)
    connectAll g cs

theorem connectAll_run (hg : g < w.graphs.length) (hfrozen : (w.graph g).frozen = false)
    (hcs : (w.graph g).Wireable cs)
    (htypes : ∀ c ∈ cs, w.typeOf .output c.source = w.typeOf .input c.destination) :
    (connectAll g cs).run w = .ok ⟨⟩ (w.modify g (·.wires cs)) := by
  induction cs generalizing w with
  | nil =>
    have hid : (fun graph : Graph => graph.wires []) = id := rfl
    rw [hid, Workspace.modify, List.modify_id]
    rfl
  | cons c cs ih =>
    have hbindable (side : Side) : Bindable w g side (c.endpoint side) := by
      obtain ⟨hmem, hlt⟩ := hcs.member c List.mem_cons_self side
      exact ⟨hfrozen, Graph.contains_iff.2 (List.mem_map_of_mem hmem), hlt,
        hcs.free c List.mem_cons_self side⟩
    have hc : Connectable w g c :=
      ⟨hbindable .output, hbindable .input, htypes c List.mem_cons_self⟩
    have hassociations (graph : Graph) (side : Side) :
        (graph.wire c).associations side = graph.associations side := by cases side <;> rfl
    have hrest := ih (w := w.modify g (·.wire c)) (by rwa [length_modify])
      (by rwa [graph_modify hg]) (by rw [graph_modify hg]; exact hcs.tail) (fun c' hc' => by
        rw [typeOf_modify hassociations, typeOf_modify hassociations]
        exact htypes c' (List.mem_cons_of_mem _ hc'))
    rw [modify_modify] at hrest
    rw [connectAll, EStateM.run_bind, discard_run, connect_run hc]
    exact hrest

theorem add_run_ok (hg : g < w.graphs.length) (hfrozen : (w.graph g).frozen = false) {ns : List Node}
    (hns : (w.graph g).Extensible ns) : (add g ns).run w = .ok ⟨⟩ (w.modify g (·.extend ns)) := by
  obtain ⟨added, hadded, ⟨rfl, hrun⟩ | ⟨n, rest, rfl, hmem, -⟩⟩ := add_run hg hfrozen ns
  · exact hrun
  · -- the node that would stand twice
    exfalso
    rw [Graph.contains_iff, Graph.extend, List.map_append, List.mem_append] at hmem
    rcases hmem with hold | hnew
    · have hfresh := hns.fresh n (List.mem_append_right _ List.mem_cons_self)
      rw [Graph.contains_iff.2 hold] at hfresh
      exact Bool.noConfusion hfresh
    · have hnodup := hns.nodup
      rw [List.map_append, List.map_cons] at hnodup
      exact (List.nodup_append.1 hnodup).2.2 _ hnew _ List.mem_cons_self rfl

end Build
end StreamCheck.Network
