import Mathlib.Logic.Function.Iterate
import StreamCheck.Proofs.Basic
import StreamCheck.Smv.Run

/-! Settling: where every spot depends only on spots of lower rank, all spots can be given values at once,
so a module without circular definitions has a run for all that its surroundings may do. -/

namespace StreamCheck.Smv

/-- In every state, what a spot is given depends on the spots of lower rank alone. -/
def Graded (rank : Spot → Nat) (F : State → State) : Prop :=
  ∀ p s s', (∀ r, rank r < rank p → s r = s' r) → F s p = F s' p

theorem Graded.iterate_eq {rank : Spot → Nat} {F : State → State} (h : Graded rank F) (s : State)
    {p : Spot} {k : Nat} (hk : rank p < k) : F^[k] s p = F^[rank p + 1] s p := by
  -- a spot has its value one step after all the spots below it have theirs
  induction hr : rank p using Nat.strongRecOn generalizing p k with
  | _ n ih =>
    obtain ⟨k, rfl⟩ := Nat.exists_eq_succ_of_ne_zero (Nat.ne_zero_of_lt hk)
    rw [Function.iterate_succ_apply', Function.iterate_succ_apply']
    refine h p _ _ fun r hlt => ?_
    rw [ih (rank r) (hr ▸ hlt) (k := k) (by omega) rfl, ih (rank r) (hr ▸ hlt) (k := n) (by omega) rfl]

theorem Graded.exists_settled {rank : Spot → Nat} {F : State → State} (h : Graded rank F) :
    ∃ s, F s = s := by
  let s : State := fun p => F^[rank p + 1] (fun _ => default) p
  refine ⟨s, funext fun p => ?_⟩
  change F s p = F^[rank p + 1] _ p
  rw [Function.iterate_succ_apply']
  exact h p _ _ fun r hlt => (h.iterate_eq _ hlt).symm

/-- A trace whose states are each settled, the first on its own and all others on the one before. -/
theorem exists_trace {rank : Spot → Nat} {first : State → State} {after : Nat → State → State → State}
    (hfirst : Graded rank first) (hafter : ∀ t s, Graded rank (after t s)) :
    ∃ σ : Trace, first (σ 0) = σ 0 ∧ ∀ t, after t (σ t) (σ (t + 1)) = σ (t + 1) := by
  let σ : Trace := fun t => Nat.rec hfirst.exists_settled.choose
    (fun t s => (hafter t s).exists_settled.choose) t
  exact ⟨σ, hfirst.exists_settled.choose_spec, fun t => (hafter t (σ t)).exists_settled.choose_spec⟩

namespace Expr

def reads : Expr → List Spot
  | bool _ | num _ => []
  | var r => [⟨r, none⟩]
  | slot r i => [⟨r, some i⟩]
  | paren e | not e => e.reads
  | binary _ a b => a.reads ++ b.reads
  | choose c a b => c.reads ++ a.reads ++ b.reads

theorem reads_foldl_binary (op : BinaryOp) (es : List Expr) (e : Expr) :
    (es.foldl (binary op) e).reads = e.reads ++ es.flatMap reads := by
  induction es generalizing e with
  | nil => simp
  | cons x xs ih => rw [List.foldl_cons, ih, List.flatMap_cons, reads, List.append_assoc]

theorem eval_congr {s s' : State} {e : Expr} (h : ∀ p ∈ e.reads, s p = s' p) :
    e.eval s = e.eval s' := by
  induction e with
  | bool _ | num _ => rfl
  | var r => exact h _ List.mem_cons_self
  | slot r i => exact h _ List.mem_cons_self
  | paren e ih => exact ih h
  | not e ih => exact congrArg (fun v : Value => Value.truth !v.isTrue) (ih h)
  | binary op a b iha ihb =>
    obtain ⟨ha, hb⟩ := List.forall_mem_append.mp h
    exact congrArg₂ op.apply (iha ha) (ihb hb)
  | choose c a b ihc iha ihb =>
    obtain ⟨hca, hb⟩ := List.forall_mem_append.mp h
    obtain ⟨hc, ha⟩ := List.forall_mem_append.mp hca
    simp only [eval, ihc hc, iha ha, ihb hb]

end Expr

theorem Cell.spot_injective : Function.Injective Cell.spot := by
  rintro ⟨n, i⟩ ⟨n', i'⟩ h
  simp only [Cell.spot, Ref.own, Spot.mk.injEq, Ref.mk.injEq, true_and] at h
  obtain ⟨rfl, hslot⟩ := h
  exact congrArg (Cell.mk n) (Option.map_injective (fun _ _ => Int.ofNat.inj) hslot)

namespace Module

/-- A module whose definitions are not circular and that says at most once what a spot holds. -/
structure Settled (m : Module) (rank : Spot → Nat) : Prop where
  define_unique : ∀ d ∈ m.defines, ∀ d' ∈ m.defines, d.1 = d'.1 → d = d'
  assign_unique : ∀ a ∈ m.assigns, ∀ b ∈ m.assigns, a.cell = b.cell → a.timing = b.timing → a = b
  timed : ∀ a ∈ m.assigns, a.timing = .first ∨ a.timing = .after
  apart : ∀ d ∈ m.defines, ∀ a ∈ m.assigns, a.cell ≠ ⟨d.1, none⟩
  graded : ∀ d ∈ m.defines, ∀ p ∈ d.2.reads, rank p < rank ⟨.own d.1, none⟩
  /-- What a cell holds first does not depend on the state. -/
  first_constant : ∀ a ∈ m.assigns, a.timing = .first → ∀ s s', a.update.eval s = a.update.eval s'

/-- What the spots are given at a moment, by the state before and the state itself; a spot that the
module says nothing of is given by the surroundings. -/
def given (m : Module) (timing : Timing) (outside before s : State) : State := fun p =>
  match m.defines.find? fun d => decide (p = ⟨.own d.1, none⟩) with
  | some d => d.2.eval s
  | none =>
    match m.assigns.find? fun a => decide (p = a.cell.spot ∧ a.timing = timing) with
    | some a => a.update.eval before
    | none => outside p

variable {m : Module} {rank : Spot → Nat}

theorem Settled.graded_given (h : m.Settled rank) (timing : Timing) (outside before : State) :
    Graded rank (m.given timing outside before) := by
  intro p s s' hs
  unfold given
  cases hd : m.defines.find? fun d => decide (p = ⟨.own d.1, none⟩) with
  | none => rfl
  | some d =>
    have hp := List.find?_some hd
    obtain rfl : p = ⟨.own d.1, none⟩ := of_decide_eq_true hp
    exact Expr.eval_congr fun r hr => hs r (h.graded d (List.mem_of_find?_eq_some hd) r hr)

theorem Settled.given_define (h : m.Settled rank) {d : Name × Expr} (hd : d ∈ m.defines)
    (timing : Timing) (outside before s : State) :
    m.given timing outside before s ⟨.own d.1, none⟩ = d.2.eval s := by
  have hfind : m.defines.find? (fun d' => decide ((⟨.own d.1, none⟩ : Spot) = ⟨.own d'.1, none⟩)) =
      some d := by
    refine find?_eq_some_of_unique hd (decide_eq_true rfl) fun d' hd' hspot => ?_
    have hname := of_decide_eq_true hspot
    simp only [Ref.own, Spot.mk.injEq, Ref.mk.injEq, true_and, and_true] at hname
    exact h.define_unique d' hd' d hd hname.symm
  simp only [given, hfind]

theorem Settled.given_assign (h : m.Settled rank) {a : Assign} (ha : a ∈ m.assigns)
    (outside before s : State) :
    m.given a.timing outside before s a.cell.spot = a.update.eval before := by
  have hdefine : m.defines.find? (fun d => decide (a.cell.spot = ⟨.own d.1, none⟩)) = none := by
    refine List.find?_eq_none.mpr fun d hd => ?_
    rw [decide_eq_true_eq]
    exact fun hspot => h.apart d hd a ha (Cell.spot_injective hspot)
  have hfind : m.assigns.find? (fun b => decide (a.cell.spot = b.cell.spot ∧ b.timing = a.timing)) =
      some a := by
    refine find?_eq_some_of_unique ha (decide_eq_true ⟨rfl, rfl⟩) fun b hb hspot => ?_
    obtain ⟨hcell, htiming⟩ := of_decide_eq_true hspot
    exact h.assign_unique b hb a ha (Cell.spot_injective hcell).symm htiming
  simp only [given, hdefine, hfind]

theorem given_outside {p : Spot} (hd : ∀ d ∈ m.defines, p ≠ ⟨.own d.1, none⟩)
    (ha : ∀ a ∈ m.assigns, p ≠ a.cell.spot) (timing : Timing) (outside before s : State) :
    m.given timing outside before s p = outside p := by
  have hdefine : m.defines.find? (fun d => decide (p = ⟨.own d.1, none⟩)) = none :=
    List.find?_eq_none.mpr fun d h => by simpa using hd d h
  have hassign : m.assigns.find? (fun a => decide (p = a.cell.spot ∧ a.timing = timing)) = none :=
    List.find?_eq_none.mpr fun a h => by simpa using fun hp => absurd hp (ha a h)
  simp only [given, hdefine, hassign]

theorem Settled.exists_trace (h : m.Settled rank) (outside : Nat → State) :
    ∃ σ : Trace, (∀ d ∈ m.defines, ∀ t, σ t ⟨.own d.1, none⟩ = d.2.eval (σ t)) ∧
      (∀ a ∈ m.assigns, a.Obeyed σ) ∧
      ∀ p, (∀ d ∈ m.defines, p ≠ ⟨.own d.1, none⟩) → (∀ a ∈ m.assigns, p ≠ a.cell.spot) →
        ∀ t, σ t p = outside t p := by
  obtain ⟨σ, hfirst, hafter⟩ := Smv.exists_trace
    (h.graded_given .first (outside 0) (outside 0))
    fun t before => h.graded_given .after (outside (t + 1)) before
  refine ⟨σ, fun d hd t => ?_, fun a ha => ?_, fun p hd ha t => ?_⟩
  · cases t with
    | zero => rw [← hfirst, h.given_define hd, hfirst]
    | succ t => rw [← hafter t, h.given_define hd, hafter t]
  · rcases h.timed a ha with htiming | htiming <;> simp only [Assign.Obeyed, htiming]
    · have hgiven := h.given_assign ha (outside 0) (outside 0) (σ 0)
      rw [htiming, hfirst] at hgiven
      exact hgiven.trans (h.first_constant a ha htiming _ _)
    · intro t
      rw [← hafter t, ← htiming, h.given_assign ha]
  · cases t with
    | zero => rw [← hfirst, given_outside hd ha]
    | succ t => rw [← hafter t, given_outside hd ha]

end Module

end StreamCheck.Smv
