import Mathlib.Tactic.Choose
import StreamCheck.Proofs.Basic
import StreamCheck.Proofs.Smv.Resolution
import StreamCheck.Smv.Run

/-! Traces put together: a module's trace from what its own names hold and from the traces of the
instances inside. Instances that each go along with whatever they are given do so together, as long as
none of them waits for itself. -/

namespace StreamCheck.Smv

def Trace.around (own : Trace) (parts : Nat → Trace) : Trace := fun t p =>
  match p.ref.path with
  | [] => own t p
  | k :: path => parts k t ⟨⟨path, p.ref.name⟩, p.slot⟩

namespace Instance

theorem allObeyed_iff {is : List Instance} {σ : Trace} :
    AllObeyed is σ ↔ ∀ i ∈ is, i.Obeyed σ := by
  induction is with
  | nil => simp [AllObeyed]
  | cons i is ih => rw [AllObeyed, ih, List.forall_mem_cons]

theorem obeyed_iff {i : Instance} {σ : Trace} :
    i.Obeyed σ ↔ (∀ x ∈ i.module.parameters.zip i.arguments, ∀ t,
        σ t ⟨.within i.id x.1, none⟩ = σ t ⟨x.2, none⟩) ∧
      i.module.Obeyed (σ.inside i.id) ∧ AllObeyed i.parts (σ.inside i.id) := by
  cases i
  exact Iff.rfl

def given (i : Instance) (σ : Trace) (x : Name) (t : Nat) : Value :=
  match i.argument? x with
  | some a => σ t ⟨a, none⟩
  | none => default

structure Answers (i : Instance) (given : Name → Nat → Value) (τ : Trace) : Prop where
  parameters : ∀ x ∈ i.module.parameters, ∀ t, τ t ⟨.own x, none⟩ = given x t
  module : i.module.Obeyed τ
  parts : AllObeyed i.parts τ

def Receptive (i : Instance) : Prop := ∀ given : Name → Nat → Value, ∃ τ, i.Answers given τ

/-- An instance that reads only its module's own names and the outputs of instances of lower rank. -/
def Forward (rank : Nat → Nat) (i : Instance) : Prop :=
  i.module.parameters.Nodup ∧
    ∀ a ∈ i.arguments, a.path = [] ∨ ∃ k, a.path = [k] ∧ rank k < rank i.id

variable {rank : Nat → Nat}

theorem Forward.obeyed {i : Instance} (hi : i.Forward rank) {σ : Trace}
    (h : i.Answers (i.given σ) (σ.inside i.id)) : i.Obeyed σ := by
  refine obeyed_iff.2 ⟨fun x hx t => ?_, h.module, h.parts⟩
  have hgiven := h.parameters x.1 (List.of_mem_zip hx).1 t
  rwa [given, argument?, lookup_zip_of_mem hi.1 hx] at hgiven

theorem given_congr {i : Instance} {σ σ' : Trace}
    (h : ∀ a ∈ i.arguments, ∀ t, σ t ⟨a, none⟩ = σ' t ⟨a, none⟩) : i.given σ = i.given σ' := by
  funext x t
  unfold given
  cases ha : i.argument? x with
  | none => rfl
  | some a =>
    obtain ⟨l₁, l₂, hsplit, -⟩ := List.lookup_eq_some_iff.1 ha
    have hmem : (x, a) ∈ i.module.parameters.zip i.arguments := by
      rw [hsplit]
      exact List.mem_append_right _ List.mem_cons_self
    exact h a (List.of_mem_zip hmem).2 t

theorem Forward.given_around {i : Instance} (hi : i.Forward rank) {own own' : Trace} {f f' : Nat → Trace}
    (hown : ∀ a ∈ i.arguments, a.path = [] → ∀ t, own t ⟨a, none⟩ = own' t ⟨a, none⟩)
    (h : ∀ k, rank k < rank i.id → f k = f' k) :
    i.given (own.around f) = i.given (own'.around f') := by
  apply given_congr
  intro a ha t
  rcases hi.2 a ha with hpath | ⟨k, hpath, hlt⟩
  · have hvalue := hown a ha hpath t
    simpa only [Trace.around, hpath] using hvalue
  · simp only [Trace.around, hpath, h k hlt]

theorem exists_answers {is : List Instance} (hnodup : (is.map Instance.id).Nodup)
    (hreceptive : ∀ i ∈ is, i.Receptive) (hforward : ∀ i ∈ is, i.Forward rank) (own : Trace) (n : Nat) :
    ∃ f : Nat → Trace, ∀ i ∈ is, rank i.id < n →
      i.Answers (i.given (own.around f)) (f i.id) := by
  induction n with
  | zero => exact ⟨fun _ => own, fun i _ h => nomatch h⟩
  | succ n ih =>
    obtain ⟨f, hf⟩ := ih
    have hex : ∀ k, ∃ τ, ∀ i ∈ is, i.id = k → i.Answers (i.given (own.around f)) τ := by
      intro k
      by_cases hk : ∃ i ∈ is, i.id = k
      · obtain ⟨i, hi, hid⟩ := hk
        obtain ⟨τ, hτ⟩ := hreceptive i hi (i.given (own.around f))
        refine ⟨τ, fun i' hi' hid' => ?_⟩
        rw [List.inj_on_of_nodup_map hnodup hi' hi (hid'.trans hid.symm)]
        exact hτ
      · exact ⟨own, fun i hi hid => absurd ⟨i, hi, hid⟩ hk⟩
    choose g hg using hex
    -- the traces of lower ranks stay, so what the instances of rank `n` are given does not change
    let f' : Nat → Trace := fun k => if rank k < n then f k else g k
    refine ⟨f', fun i hi hlt => ?_⟩
    have hgiven : i.given (own.around f') = i.given (own.around f) :=
      (hforward i hi).given_around (fun _ _ _ _ => rfl) fun k hk => if_pos (by omega)
    rw [hgiven]
    by_cases hrank : rank i.id < n
    · rw [show f' i.id = f i.id from if_pos hrank]
      exact hf i hi hrank
    · rw [show f' i.id = g i.id from if_neg hrank]
      exact hg i.id i hi rfl

theorem exists_rank_lt (rank : Nat → Nat) (is : List Instance) : ∃ n, ∀ i ∈ is, rank i.id < n := by
  induction is with
  | nil => exact ⟨0, fun i hi => nomatch hi⟩
  | cons i is ih =>
    obtain ⟨n, hn⟩ := ih
    refine ⟨max n (rank i.id + 1), List.forall_mem_cons.2 ⟨by omega, fun i' hi' => ?_⟩⟩
    have := hn i' hi'
    omega

/-- Receptive instances of which none waits for itself run together, whatever the names around hold, as
long as those that are arguments hold what they are meant to. -/
theorem exists_allObeyed {is : List Instance} (hnodup : (is.map Instance.id).Nodup)
    (hreceptive : ∀ i ∈ is, i.Receptive) (hforward : ∀ i ∈ is, i.Forward rank) (own : Trace) :
    ∃ f : Nat → Trace, ∀ own' : Trace,
      (∀ i ∈ is, ∀ a ∈ i.arguments, a.path = [] → ∀ t, own' t ⟨a, none⟩ = own t ⟨a, none⟩) →
        AllObeyed is (own'.around f) := by
  obtain ⟨n, hn⟩ := exists_rank_lt rank is
  obtain ⟨f, hf⟩ := exists_answers hnodup hreceptive hforward own n
  refine ⟨f, fun own' hown => allObeyed_iff.2 fun i hi => ?_⟩
  have hgiven : i.given (own'.around f) = i.given (own.around f) :=
    (hforward i hi).given_around (hown i hi) fun _ _ => rfl
  apply (hforward i hi).obeyed
  rw [hgiven]
  exact hf i hi (hn i hi)

/-- A module around such instances can pass their names on under names of its own that it gives to none of
them, and all its other names may hold what they like. -/
theorem exists_passing {is : List Instance} (hnodup : (is.map Instance.id).Nodup)
    (hreceptive : ∀ i ∈ is, i.Receptive) (hforward : ∀ i ∈ is, i.Forward rank) (own : Trace)
    {passed : Name → Option Ref}
    (hargs : ∀ i ∈ is, ∀ a ∈ i.arguments, a.path = [] → passed a.name = none)
    (hinner : ∀ n r, passed n = some r → r.path ≠ []) :
    ∃ σ : Trace, AllObeyed is σ ∧ (∀ n r, passed n = some r → ∀ t, σ t ⟨.own n, none⟩ = σ t ⟨r, none⟩) ∧
      ∀ n, passed n = none → ∀ t, σ t ⟨.own n, none⟩ = own t ⟨.own n, none⟩ := by
  obtain ⟨f, hf⟩ := exists_allObeyed hnodup hreceptive hforward own
  let own' : Trace := fun t p =>
    match passed p.ref.name with
    | some r => own.around f t ⟨r, none⟩
    | none => own t p
  refine ⟨own'.around f, hf own' fun i hi a ha hpath t => ?_, fun n r hn t => ?_, fun n hn t => ?_⟩
  · have hnone := hargs i hi a ha hpath
    simp only [own', hnone]
  · have hpath := hinner n r hn
    have hown : own'.around f t ⟨.own n, none⟩ = own.around f t ⟨r, none⟩ := by
      simp only [Trace.around, Ref.own, own', hn]
    rw [hown]
    cases hr : r.path with
    | nil => exact absurd hr hpath
    | cons k path => simp only [Trace.around, hr]
  · simp only [Trace.around, Ref.own, own', hn]

end Instance
end StreamCheck.Smv
