import Mathlib.Data.List.Perm.Basic
import StreamCheck.Proofs.Basic
import StreamCheck.Proofs.Network.Steps

/-! The wiring of one graph: its bindings list the connections, the exposed ports and the associations of
the group around it, each once and no port twice, and every change of the graph keeps it so. -/

namespace StreamCheck.Network
open Workspace
open scoped List

namespace Graph
variable {g g' : Graph} {around : List Node} {side : Side} {p : Port} {b : Binding}

/-- What feeds the inputs, or takes the outputs, with the port concerned. -/
def uses (g : Graph) (around : List Node) (side : Side) : List (Port × Binding) :=
  (g.connections.map fun c => (c.endpoint side, .connection c)) ++
    (g.externals side).map (fun e => (e.port, .external e)) ++
    around.flatMap fun group => (g.associations side).map fun a => (a.2, .association group)

/-- The ports in use on one side are bound, each to its one use, and no other port is. -/
structure Wired (g : Graph) (around : List Node) (side : Side) : Prop where
  perm : g.bindings side ~ (g.uses around side).map fun u => (u.1.slot, u.2)
  nodup : ((g.bindings side).map Prod.fst).Nodup
  member : ∀ u ∈ g.uses around side, u.1.node ∈ g.nodes ∧ u.1.index < u.1.node.arity side

theorem Wired.uses_nodup (h : g.Wired around side) :
    ((g.uses around side).map fun u => u.1.slot).Nodup := by
  have hslots := h.perm.map Prod.fst
  rw [List.map_map] at hslots
  exact hslots.nodup_iff.1 h.nodup

theorem not_mem_of_not_isBound (h : g.isBound side p.slot = false) :
    p.slot ∉ (g.bindings side).map Prod.fst := by
  rw [isBound, binding?, Option.isSome_eq_false_iff, Option.isNone_iff_eq_none,
    List.lookup_eq_none_iff] at h
  intro hmem
  obtain ⟨e, he, hslot⟩ := List.mem_map.1 hmem
  exact absurd (h e he) (by simp [hslot])

theorem Wired.bind (h : g.Wired around side) (hfree : g.isBound side p.slot = false)
    (hp : p.node ∈ g.nodes ∧ p.index < p.node.arity side)
    (hbindings : g'.bindings side = g.bindings side ++ [(p.slot, b)])
    (huses : g'.uses around side ~ (p, b) :: g.uses around side) (hnodes : g'.nodes = g.nodes) :
    g'.Wired around side := by
  constructor
  · rw [hbindings]
    calc g.bindings side ++ [(p.slot, b)]
      _ ~ (p.slot, b) :: g.bindings side := List.perm_append_singleton _ _
      _ ~ ((p, b) :: g.uses around side).map fun u => (u.1.slot, u.2) := h.perm.cons _
      _ ~ (g'.uses around side).map fun u => (u.1.slot, u.2) := (huses.map _).symm
  · rw [hbindings, ((List.perm_append_singleton _ _).map Prod.fst).nodup_iff]
    exact List.nodup_cons.2 ⟨not_mem_of_not_isBound hfree, h.nodup⟩
  · intro u hu
    rw [hnodes]
    obtain rfl | hu := List.mem_cons.1 (huses.mem_iff.1 hu)
    · exact hp
    · exact h.member u hu

theorem Wired.frame (h : g.Wired around side) (hbindings : g'.bindings side = g.bindings side)
    (huses : g'.uses around side = g.uses around side) (hnodes : ∀ n ∈ g.nodes, n ∈ g'.nodes) :
    g'.Wired around side := by
  constructor
  · rw [hbindings, huses]
    exact h.perm
  · rw [hbindings]
    exact h.nodup
  · rw [huses]
    exact fun u hu => ⟨hnodes _ (h.member u hu).1, (h.member u hu).2⟩

/-! ### What a use tells -/

theorem connection_mem_uses (around : List Node) (side : Side) {c : Connection} (h : c ∈ g.connections) :
    (c.endpoint side, .connection c) ∈ g.uses around side :=
  List.mem_append_left _ (List.mem_append_left _ (List.mem_map_of_mem h))

theorem external_mem_uses (around : List Node) (side : Side) {e : External} (h : e ∈ g.externals side) :
    (e.port, .external e) ∈ g.uses around side :=
  List.mem_append_left _ (List.mem_append_right _ (List.mem_map_of_mem h))

theorem association_mem_uses (side : Side) {group : Node} {a : Nat × Port} (hgroup : group ∈ around)
    (h : a ∈ g.associations side) : (a.2, .association group) ∈ g.uses around side :=
  List.mem_append_right _ (List.mem_flatMap.2 ⟨group, hgroup, List.mem_map_of_mem h⟩)

theorem mem_uses {p : Port} {b : Binding} : (p, b) ∈ g.uses around side ↔
    match b with
    | .connection c => c ∈ g.connections ∧ c.endpoint side = p
    | .external e => e ∈ g.externals side ∧ e.port = p
    | .association group => group ∈ around ∧ ∃ i, (i, p) ∈ g.associations side := by
  rw [uses]
  cases b <;> simp [and_comm]

theorem Wired.exists_use (h : g.Wired around side) {slot : Slot} (hb : g.binding? side slot = some b) :
    ∃ p : Port, p.slot = slot ∧ (p, b) ∈ g.uses around side := by
  obtain ⟨⟨p, b'⟩, hu, heq⟩ := List.mem_map.1 (h.perm.mem_iff.1 (mem_of_lookup_eq_some hb))
  obtain ⟨hslot, rfl⟩ := Prod.mk.inj heq
  exact ⟨p, hslot, hu⟩

theorem Wired.incoming?_eq_some {n : Node} {j : Nat} {c : Connection} (h : g.Wired around .input)
    (hc : g.incoming? n j = some c) : c ∈ g.connections ∧ c.destination.slot = (n.id, j) := by
  rw [incoming?, if_neg (by omega), Int.toNat_natCast] at hc
  have hbinding : g.binding? .input (n.id, j) = some (.connection c) := by
    split at hc
    · rename_i c' hc'
      rw [hc', Option.some.inj hc]
    · nomatch hc
  obtain ⟨p, hslot, hu⟩ := h.exists_use hbinding
  obtain ⟨hc, rfl⟩ := mem_uses.1 hu
  exact ⟨hc, hslot⟩

/-- What calls keep true of a graph, given the groups that it is inside of. -/
structure Fed (g : Graph) (around : List Node) : Prop where
  distinct : (g.nodes.map Node.id).Nodup
  wired : ∀ side, g.Wired around side
  inside : around = [] → ∀ side, g.associations side = []
  associated : ∀ side, ((g.associations side).map Prod.fst).Nodup
  declared : ∀ group ∈ around, ∀ side, ∀ a ∈ g.associations side, a.1 < group.arity side

/-! ### A graph as it is made -/

section
variable {domain queue : Nat} (hd : 0 < domain) (hq : 0 < queue)

theorem bindings_blank (side : Side) : (blank hd hq).bindings side = [] := by
  cases side <;> rfl

theorem associations_blank (side : Side) : (blank hd hq).associations side = [] := by
  cases side <;> rfl

theorem uses_blank (around : List Node) (side : Side) : (blank hd hq).uses around side = [] := by
  cases side <;> simp [uses, blank, externals, associations]

theorem Fed.blank (around : List Node) : (Graph.blank hd hq).Fed around := by
  constructor
  · exact List.nodup_nil
  · intro side
    refine ⟨?_, ?_, ?_⟩
    · rw [bindings_blank, uses_blank]
      exact .refl _
    · rw [bindings_blank]
      exact List.nodup_nil
    · rw [uses_blank]
      exact fun u hu => absurd hu List.not_mem_nil
  · exact fun _ side => associations_blank hd hq side
  · intro side
    rw [associations_blank]
    exact List.nodup_nil
  · intro group _ side
    rw [associations_blank]
    exact fun a ha => absurd ha List.not_mem_nil

end

/-! ### More nodes, and no more changes -/

theorem Fed.extend (h : g.Fed around) {ns : List Node} (hns : g.Extensible ns) :
    (g.extend ns).Fed around := by
  refine ⟨?_, fun side => ?_, h.inside, h.associated, h.declared⟩
  · rw [Graph.extend, List.map_append]
    refine List.nodup_append.2 ⟨h.distinct, hns.nodup, ?_⟩
    rintro _ hold _ hnew rfl
    obtain ⟨n, hn, hid⟩ := List.mem_map.1 hnew
    rw [← hid, ← contains_iff, hns.fresh n hn] at hold
    exact Bool.false_ne_true hold
  · refine (h.wired side).frame ?_ ?_ fun n hn => List.mem_append_left ns hn
    · cases side <;> rfl
    · cases side <;> rfl

theorem Fed.freeze (h : g.Fed around) (frozen : Bool) : Fed { g with frozen := frozen } around := by
  refine ⟨h.distinct, fun side => (h.wired side).frame ?_ ?_ fun n hn => hn, h.inside, h.associated,
    h.declared⟩
  · cases side <;> rfl
  · cases side <;> rfl

/-! ### A connection -/

theorem bindings_wire (g : Graph) (c : Connection) (side : Side) :
    (g.wire c).bindings side = g.bindings side ++ [((c.endpoint side).slot, .connection c)] := by
  cases side <;> rfl

theorem uses_wire (g : Graph) (c : Connection) (around : List Node) (side : Side) :
    (g.wire c).uses around side ~ (c.endpoint side, .connection c) :: g.uses around side := by
  have huses : (g.wire c).uses around side =
      (g.connections.map fun c => (c.endpoint side, .connection c)) ++
        (c.endpoint side, .connection c) :: ((g.externals side).map (fun e => (e.port, .external e)) ++
          around.flatMap fun group => (g.associations side).map fun a => (a.2, .association group)) := by
    cases side <;> simp [uses, wire, Graph.bind, externals, associations]
  rw [huses, uses, List.append_assoc]
  exact List.perm_middle

theorem nodes_wire (g : Graph) (c : Connection) : (g.wire c).nodes = g.nodes := rfl

/-! ### An exposed port -/

theorem bindings_publish (g : Graph) (side : Side) (e : External) :
    (g.publish side e).bindings side = g.bindings side ++ [(e.port.slot, .external e)] := by
  cases side <;> rfl

theorem uses_publish (g : Graph) (side : Side) (e : External) (around : List Node) :
    (g.publish side e).uses around side ~ (e.port, .external e) :: g.uses around side := by
  have huses : (g.publish side e).uses around side =
      ((g.connections.map fun c => (c.endpoint side, .connection c)) ++
        (g.externals side).map (fun e => (e.port, .external e))) ++
        (e.port, .external e) ::
          around.flatMap fun group => (g.associations side).map fun a => (a.2, .association group) := by
    cases side <;> simp [uses, publish, Graph.bind, Graph.expose, externals, associations]
  rw [huses, uses]
  exact List.perm_middle

theorem publish_frame (g : Graph) {side other : Side} (h : other ≠ side) (e : External)
    (around : List Node) :
    (g.publish side e).bindings other = g.bindings other ∧
      (g.publish side e).uses around other = g.uses around other := by
  cases side <;> cases other <;> first | exact absurd rfl h | exact ⟨rfl, rfl⟩

theorem nodes_publish (g : Graph) (side : Side) (e : External) : (g.publish side e).nodes = g.nodes := by
  cases side <;> rfl

theorem associations_publish (g : Graph) (side : Side) (e : External) (other : Side) :
    (g.publish side e).associations other = g.associations other := by
  cases side <;> cases other <;> rfl

/-! ### An association -/

theorem bindings_attach (g : Graph) (group : Node) (side : Side) (index : Nat) (p : Port) :
    (g.attach group side index p).bindings side = g.bindings side ++ [(p.slot, .association group)] := by
  cases side <;> rfl

theorem associations_attach (g : Graph) (group : Node) (side : Side) (index : Nat) (p : Port) :
    (g.attach group side index p).associations side = g.associations side ++ [(index, p)] := by
  cases side <;> rfl

theorem uses_attach (g : Graph) (group : Node) (side : Side) (index : Nat) (p : Port) :
    (g.attach group side index p).uses [group] side ~
      (p, .association group) :: g.uses [group] side := by
  have huses : (g.attach group side index p).uses [group] side =
      g.uses [group] side ++ [(p, .association group)] := by
    cases side <;>
      simp [uses, attach, Graph.bind, Graph.associate, externals, associations, Connection.endpoint]
  rw [huses]
  exact List.perm_append_singleton _ _

theorem attach_frame (g : Graph) (group : Node) {side other : Side} (h : other ≠ side) (index : Nat)
    (p : Port) (around : List Node) :
    (g.attach group side index p).bindings other = g.bindings other ∧
      (g.attach group side index p).associations other = g.associations other ∧
      (g.attach group side index p).uses around other = g.uses around other := by
  cases side <;> cases other <;> first | exact absurd rfl h | exact ⟨rfl, rfl, rfl⟩

theorem nodes_attach (g : Graph) (group : Node) (side : Side) (index : Nat) (p : Port) :
    (g.attach group side index p).nodes = g.nodes := by
  cases side <;> rfl

/-! ### The three ways of binding keep a graph fed -/

theorem Fed.wire (h : g.Fed around) {c : Connection}
    (hfree : ∀ side, g.isBound side (c.endpoint side).slot = false)
    (hc : ∀ side, (c.endpoint side).node ∈ g.nodes ∧
      (c.endpoint side).index < (c.endpoint side).node.arity side) : (g.wire c).Fed around :=
  ⟨h.distinct,
    fun side => (h.wired side).bind (hfree side) (hc side) (bindings_wire g c side)
      (uses_wire g c around side) (nodes_wire g c),
    h.inside, h.associated, h.declared⟩

theorem Fed.publish (h : g.Fed around) {e : External} (hfree : g.isBound side e.port.slot = false)
    (hp : e.port.node ∈ g.nodes ∧ e.port.index < e.port.node.arity side) :
    (g.publish side e).Fed around := by
  constructor
  · rw [nodes_publish]
    exact h.distinct
  · intro other
    by_cases hside : other = side
    · subst hside
      exact (h.wired other).bind hfree hp (bindings_publish g other e) (uses_publish g other e around)
        (nodes_publish g other e)
    · obtain ⟨hbindings, huses⟩ := publish_frame g hside e around
      refine (h.wired other).frame hbindings huses fun n hn => ?_
      rwa [nodes_publish]
  · intro hnone other
    rw [associations_publish]
    exact h.inside hnone other
  · intro other
    rw [associations_publish]
    exact h.associated other
  · intro group hgroup other
    rw [associations_publish]
    exact h.declared group hgroup other

theorem Fed.attach {group : Node} {index : Nat} (h : g.Fed [group])
    (hindex : index < group.arity side) (hnew : (g.associations side).lookup index = none)
    (hfree : g.isBound side p.slot = false)
    (hp : p.node ∈ g.nodes ∧ p.index < p.node.arity side) :
    (g.attach group side index p).Fed [group] := by
  constructor
  · rw [nodes_attach]
    exact h.distinct
  · intro other
    by_cases hside : other = side
    · subst hside
      exact (h.wired other).bind hfree hp (bindings_attach g group other index p)
        (uses_attach g group other index p) (nodes_attach g group other index p)
    · obtain ⟨hbindings, -, huses⟩ := attach_frame g group hside index p [group]
      refine (h.wired other).frame hbindings huses fun n hn => ?_
      rwa [nodes_attach]
  · exact fun hnone => nomatch hnone
  · intro other
    -- an index that is associated already would have been found
    by_cases hside : other = side
    · subst hside
      rw [associations_attach, ((List.perm_append_singleton _ _).map Prod.fst).nodup_iff]
      refine List.nodup_cons.2 ⟨fun hmem => ?_, h.associated other⟩
      obtain ⟨a, ha, hindex⟩ := List.mem_map.1 hmem
      exact absurd (List.lookup_eq_none_iff.1 hnew a ha) (by simp [hindex])
    · rw [(attach_frame g group hside index p [group]).2.1]
      exact h.associated other
  · intro owner howner other a ha
    by_cases hside : other = side
    · subst hside
      rw [associations_attach] at ha
      obtain ha | ha := List.mem_append.1 ha
      · exact h.declared owner howner other a ha
      · rw [List.mem_singleton.1 howner, List.mem_singleton.1 ha]
        exact hindex
    · rw [(attach_frame g group hside index p [group]).2.1] at ha
      exact h.declared owner howner other a ha

end Graph
end StreamCheck.Network
