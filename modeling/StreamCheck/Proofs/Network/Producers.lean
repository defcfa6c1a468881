import Mathlib.Data.List.Nodup
import StreamCheck.Network.Route
import StreamCheck.Proofs.Network.Feeding

/-! Producers are unique. As no port has two uses, the connections, pipes and associations that lead to an
input leave one way to follow them. -/

namespace StreamCheck.Network
open Workspace

/-! ### What is known of a graph's wiring -/

namespace Session
variable {s : Session} {g : GraphId} {side : Side}

theorem Sound.port_eq (h : s.Sound) {p q : Port} (hp : p.node ∈ (s.workspace.graph g).nodes)
    (hq : q.node ∈ (s.workspace.graph g).nodes) (hslot : p.slot = q.slot) : p = q := by
  obtain ⟨n, i⟩ := p
  obtain ⟨m, j⟩ := q
  obtain ⟨hid, rfl⟩ := Prod.mk.inj hslot
  obtain rfl : n = m :=
    h.numbered.eq_of_id_eq (h.numbered.member g n hp) (h.numbered.member g m hq) hid
  rfl

theorem Sound.use_unique (h : s.Sound) {p : Port} {b b' : Binding}
    (hb : (p, b) ∈ (s.workspace.graph g).uses (s.groupsAround g) side)
    (hb' : (p, b') ∈ (s.workspace.graph g).uses (s.groupsAround g) side) : b = b' :=
  (Prod.mk.inj (List.inj_on_of_nodup_map ((h.fed g).wired side).uses_nodup hb hb' rfl)).2

end Session

namespace Workspace
variable {w : Workspace} {g : GraphId}

theorem Within.inner_eq {group : Node} {place : List Node} {around inner : GraphId}
    (h : w.Within g (group :: place) around) (hinner : group.inner? = some inner) : around = inner := by
  cases h with
  | inside _ _ hinner' => exact Option.some.inj (hinner'.symm.trans hinner)

theorem Within.unique {place : List Node} {g₁ g₂ : GraphId}
    (h₁ : w.Within g place g₁) (h₂ : w.Within g place g₂) : g₁ = g₂ := by
  cases h₁ with
  | top =>
    cases h₂ with
    | top => rfl
  | inside _ _ hinner =>
    cases h₂ with
    | inside _ _ hinner' =>
      rw [hinner] at hinner'
      exact Option.some.inj hinner'

end Workspace

/-! ### Producers are unique -/

namespace Session
variable {s : Session} {g : GraphId}

theorem Sound.exists_group (h : s.Sound) {side : Side} {a : Nat × Port}
    (ha : a ∈ (s.workspace.graph g).associations side) :
    ∃ group ∈ s.nodes, group.inner? = some g ∧ s.groupsAround g = [group] := by
  match hgroups : s.groupsAround g, h.numbered.around g with
  | [], _ =>
    rw [(h.fed g).inside hgroups side] at ha
    nomatch ha
  | [group], _ =>
    have hmem : group ∈ s.groupsAround g := hgroups ▸ List.mem_singleton_self group
    obtain ⟨hnode, hinner⟩ := List.mem_filter.1 hmem
    exact ⟨group, hnode, beq_iff_eq.1 hinner, rfl⟩

theorem Sound.association_member (h : s.Sound) (side : Side) {a : Nat × Port}
    (ha : a ∈ (s.workspace.graph g).associations side) :
    a.2.node ∈ (s.workspace.graph g).nodes ∧ a.2.index < a.2.node.arity side := by
  obtain ⟨group, -, -, hgroups⟩ := h.exists_group ha
  have huse := Graph.association_mem_uses side (hgroups ▸ List.mem_singleton_self group) ha
  exact ((h.fed g).wired side).member _ huse

theorem Sound.association_unique (h : s.Sound) (side : Side) {i j : Nat} {p : Port}
    (hi : (i, p) ∈ (s.workspace.graph g).associations side)
    (hj : (j, p) ∈ (s.workspace.graph g).associations side) : i = j := by
  obtain ⟨group, -, -, hgroups⟩ := h.exists_group hi
  have hnodup := ((h.fed g).wired side).uses_nodup
  rw [hgroups, Graph.uses, List.map_append, List.nodup_append] at hnodup
  have hassoc := hnodup.2.1
  simp only [List.flatMap_cons, List.flatMap_nil, List.append_nil, List.map_map] at hassoc
  exact (Prod.mk.inj (List.inj_on_of_nodup_map hassoc hi hj rfl)).1

theorem Sound.drives_unique (h : s.Sound) {place place₁ place₂ : List Node} {p p₁ p₂ : Port}
    (h₁ : s.workspace.Drives place p place₁ p₁) (h₂ : s.workspace.Drives place p place₂ p₂) :
    place₁ = place₂ ∧ p₁ = p₂ := by
  induction h₁ with
  | leaf hleaf =>
    cases h₂ with
    | leaf _ => exact ⟨rfl, rfl⟩
    | group hinner _ _ =>
      rw [hleaf] at hinner
      nomatch hinner
  | group hinner hq _ ih =>
    cases h₂ with
    | leaf hleaf =>
      rw [hleaf] at hinner
      nomatch hinner
    | group hinner' hq' hdrives =>
      rw [hinner] at hinner'
      obtain rfl := Option.some.inj hinner'
      have heq := List.inj_on_of_nodup_map ((h.fed _).associated .output) hq hq' rfl
      rw [← (Prod.mk.inj heq).2] at hdrives
      exact ih hdrives

theorem Sound.groupsAround_eq (h : s.Sound) {group : Node} {place : List Node} {inner : GraphId}
    (hplace : s.workspace.Within g (group :: place) inner) : s.groupsAround inner = [group] := by
  cases hplace with
  | inside _ hmem hinner => exact h.numbered.groupsAround_eq (h.numbered.member _ group hmem) hinner

theorem Sound.entry_mem_uses (h : s.Sound) {group : Node} {place : List Node} {inner : GraphId}
    (hplace : s.workspace.Within g (group :: place) inner) {i : Nat} {p : Port}
    (hp : (i, p) ∈ (s.workspace.graph inner).entries) :
    (p, .association group) ∈ (s.workspace.graph inner).uses (s.groupsAround inner) .input :=
  Graph.association_mem_uses .input (h.groupsAround_eq hplace ▸ List.mem_singleton_self group) hp

theorem Sound.exists_use (h : s.Sound) {place : List Node} {around : GraphId} {p : Port} {pr : Producer}
    (hplace : s.workspace.Within g place around) (hpr : s.workspace.Feeds g place p pr) :
    ∃ b, (p, b) ∈ (s.workspace.graph around).uses (s.groupsAround around) .input ∧
      match b with
      | .connection c =>
        ∃ place' p', s.workspace.Drives place c.source place' p' ∧ pr = .output place' p'
      | .external e => pr = .pipe e.pipe
      | .association group =>
        ∃ outer i, place = group :: outer ∧ (i, p) ∈ (s.workspace.graph around).entries ∧
          s.workspace.Feeds g outer ⟨group, i⟩ pr := by
  cases hpr with
  | connection hplace' hc hp hdrives =>
    subst hp
    obtain rfl := hplace.unique hplace'
    exact ⟨_, Graph.connection_mem_uses _ .input hc, _, _, hdrives, rfl⟩
  | pipe he hp =>
    subst hp
    cases hplace with
    | top => exact ⟨_, Graph.external_mem_uses _ .input he, rfl⟩
  | group hinner hp hfeeds =>
    obtain rfl := hplace.inner_eq hinner
    exact ⟨_, h.entry_mem_uses hplace hp, _, _, rfl, hp, hfeeds⟩

theorem Sound.feeds_unique (h : s.Sound) {place : List Node} {around : GraphId} {p : Port}
    {pr₁ pr₂ : Producer} (hplace : s.workspace.Within g place around)
    (h₁ : s.workspace.Feeds g place p pr₁) (h₂ : s.workspace.Feeds g place p pr₂) : pr₁ = pr₂ := by
  obtain ⟨b, hb, hpr⟩ := h.exists_use hplace h₂
  -- the use by which the first producer feeds the input is the one by which the second does
  induction h₁ generalizing around b with
  | connection hplace' hc hp hdrives =>
    subst hp
    obtain rfl := hplace.unique hplace'
    obtain rfl := h.use_unique (Graph.connection_mem_uses _ .input hc) hb
    obtain ⟨place₂, p₂, hdrives₂, rfl⟩ := hpr
    obtain ⟨rfl, rfl⟩ := h.drives_unique hdrives hdrives₂
    rfl
  | pipe he hp =>
    subst hp
    cases hplace with
    | top =>
      obtain rfl := h.use_unique (Graph.external_mem_uses _ .input he) hb
      exact hpr.symm
  | group hinner hp _ ih =>
    obtain rfl := hplace.inner_eq hinner
    obtain rfl := h.use_unique (h.entry_mem_uses hplace hp) hb
    obtain ⟨outer, j, hcons, hj, hfeeds₂⟩ := hpr
    obtain ⟨-, rfl⟩ := List.cons.inj hcons
    obtain rfl := h.association_unique .input hp hj
    cases hplace with
    | inside hplace _ _ =>
      obtain ⟨b', hb', hpr'⟩ := h.exists_use hplace hfeeds₂
      exact ih hplace hfeeds₂ b' hb' hpr'

end Session

end StreamCheck.Network
