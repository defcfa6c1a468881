import StreamCheck.Network.Session
import StreamCheck.Proofs.Network.Nesting

/-! The type of a port is that of the last port that it stands for. Where nesting ends there is one, as no
port inside a group stands for a port of the group. -/

namespace StreamCheck.Network
open Workspace

namespace Workspace
variable {w w' : Workspace} {side : Side} {p q r : Port} {t t' : PortType}

theorem declared_getD_of_inner? {n : Node} {inner : GraphId} (h : n.inner? = some inner) (side : Side)
    (i : Nat) : (declared n side).getD i .integer = .integer := by
  obtain ⟨id, kind⟩ := n
  cases kind with
  | group inner ins outs => cases side <;> simp [declared, Kind.inputs, Kind.outputs]
  | _ => exact absurd h.symm (Option.some_ne_none inner)

theorem associated?_eq_some_iff : w.associated? side p = some q ↔
    ∃ inner, p.node.inner? = some inner ∧ ((w.graph inner).associations side).lookup p.index = some q := by
  rw [associated?, Option.bind_eq_some_iff]

/-! ### What ports stand for -/

theorem StandsFor.trans (h : w.StandsFor side p q) (h' : w.StandsFor side q r) : w.StandsFor side p r := by
  induction h with
  | self p => exact h'
  | inside hq _ ih => exact .inside hq (ih h')

theorem StandsFor.congr (h : w.StandsFor side p r) (hsame : ∀ q, w.StandsFor side p q → q ≠ r →
    w'.associated? side q = w.associated? side q) : w'.StandsFor side p r := by
  induction h with
  | self p => exact .self p
  | @inside p q r hq h ih =>
    by_cases hpr : p = r
    · rw [hpr]
      exact .self r
    · exact .inside ((hsame p (.self p) hpr).trans hq) (ih fun x hx => hsame x (.inside hq hx))

inductive Reports (w : Workspace) (side : Side) : Port → PortType → Prop
  | own {p : Port} (h : w.associated? side p = none) :
    Reports w side p ((declared p.node side).getD p.index .integer)
  | inside {p q : Port} {t : PortType} (hq : w.associated? side p = some q) (h : Reports w side q t) :
    Reports w side p t

theorem Reports.unique (h : w.Reports side p t) (h' : w.Reports side p t') : t = t' := by
  induction h with
  | own hnone =>
    cases h' with
    | own => rfl
    | inside hq _ => rw [hnone] at hq; nomatch hq
  | inside hq _ ih =>
    cases h' with
    | own hnone => rw [hnone] at hq; nomatch hq
    | inside hq' h' =>
      rw [hq] at hq'
      rw [← Option.some.inj hq'] at h'
      exact ih h'

theorem Reports.standsFor (h : w.Reports side p t) (hr : w.StandsFor side p r) : w.Reports side r t := by
  induction hr with
  | self p => exact h
  | inside hq _ ih =>
    cases h with
    | own hnone => rw [hnone] at hq; nomatch hq
    | inside hq' h' =>
      rw [hq] at hq'
      rw [← Option.some.inj hq'] at h'
      exact ih h'

theorem Reports.congr (h : w.Reports side p t)
    (hsame : ∀ r, w.StandsFor side p r → w'.associated? side r = w.associated? side r) :
    w'.Reports side p t := by
  induction h with
  | own hnone => exact .own ((hsame _ (.self _)).trans hnone)
  | inside hq _ ih =>
    exact .inside ((hsame _ (.self _)).trans hq) (ih fun r hr => hsame r (.inside hq hr))

end Workspace

namespace Session
variable {s s' : Session} {g inner : GraphId} {side : Side} {p q r : Port} {c : Connection} {call : Call}
  {height fuel : Nat}

/-! ### Types in a workspace -/

theorem Sound.associated_member (h : s.Sound) (hq : s.workspace.associated? side p = some q) :
    ∃ inner, p.node.inner? = some inner ∧ q.node ∈ (s.workspace.graph inner).nodes := by
  obtain ⟨inner, hinner, hlookup⟩ := associated?_eq_some_iff.1 hq
  exact ⟨inner, hinner, (h.association_member side (mem_of_lookup_eq_some hlookup)).1⟩

theorem Sound.reports_typeWithin (h : s.Sound) (hnests : s.workspace.NestsWithin height g)
    (hfuel : height ≤ fuel) (hp : p.node ∈ (s.workspace.graph g).nodes) :
    s.workspace.Reports side p (s.workspace.typeWithin side fuel p.node p.index) := by
  induction height generalizing g fuel p with
  | zero => exact absurd hnests id
  | succ height ih =>
    obtain ⟨fuel, rfl⟩ := Nat.exists_eq_succ_of_ne_zero (by omega : fuel ≠ 0)
    cases hq : s.workspace.associated? side p with
    | none =>
      have htype : s.workspace.typeWithin side (fuel + 1) p.node p.index =
          (declared p.node side).getD p.index .integer := by
        rw [typeWithin]
        cases hinner : p.node.inner? with
        | none => rfl
        | some inner =>
          rw [associated?, hinner, Option.bind_some] at hq
          simp only [hq]
      rw [htype]
      exact .own hq
    | some q =>
      obtain ⟨inner, hinner, hlookup⟩ := associated?_eq_some_iff.1 hq
      have htype : s.workspace.typeWithin side (fuel + 1) p.node p.index =
          s.workspace.typeWithin side fuel q.node q.index := by
        rw [typeWithin, hinner]
        simp only [hlookup]
      have hmember := (h.association_member side (mem_of_lookup_eq_some hlookup)).1
      rw [htype]
      exact .inside hq (ih (hnests p.node hp inner hinner) (Nat.le_of_succ_le_succ hfuel) hmember)

theorem Sound.reports_typeOf (h : s.Sound) (hg : s.workspace.Grounded g)
    (hp : p.node ∈ (s.workspace.graph g).nodes) (side : Side) :
    s.workspace.Reports side p (s.workspace.typeOf side p) :=
  h.reports_typeWithin (h.numbered.nestsWithin hg) (Nat.le_refl _) hp

theorem Sound.exists_within (h : s.Sound) (hr : s.workspace.StandsFor side p r)
    (hp : p.node ∈ (s.workspace.graph g).nodes) :
    ∃ place around, s.workspace.Within g place around ∧ r.node ∈ (s.workspace.graph around).nodes := by
  induction hr generalizing g with
  | self p => exact ⟨[], g, .top, hp⟩
  | inside hq _ ih =>
    obtain ⟨inner, hinner, hmember⟩ := h.associated_member hq
    obtain ⟨place, around, hplace, hr⟩ := ih hmember
    exact ⟨_, around, hplace.through hp hinner, hr⟩

theorem Sound.mem_of_standsFor (h : s.Sound) (hr : s.workspace.StandsFor side p r)
    (hp : p.node ∈ (s.workspace.graph g).nodes) : r.node ∈ s.nodes := by
  obtain ⟨place, around, -, hmember⟩ := h.exists_within hr hp
  exact h.numbered.member around _ hmember

theorem Sound.not_standsFor (h : s.Sound) (hg : s.workspace.Grounded inner)
    (hinner : r.node.inner? = some inner) (hq : q.node ∈ (s.workspace.graph inner).nodes) :
    ¬ s.workspace.StandsFor side q r := by
  intro hr
  obtain ⟨place, around, hplace, hmember⟩ := h.exists_within hr hq
  exact hg [] inner .top ⟨r.node, place, hplace.inside hmember hinner⟩

end Session
end StreamCheck.Network
