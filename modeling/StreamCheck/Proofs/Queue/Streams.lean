import StreamCheck.Proofs.Circuit.Unique
import StreamCheck.Proofs.Network.Stream
import StreamCheck.Proofs.Queue.Firing

/-! How streams meet at a node. If all inputs get their events at the same moments nothing is ever stored;
if the second input misses the first event only, the first input stores one event. -/

namespace StreamCheck.Smv.Expr
variable {s : State}

theorem eval_conj_eq_truth {es : List Expr} (h : ∀ e ∈ es, e.eval s = .truth (e.eval s).isTrue) :
    (conj es).eval s = .truth ((conj es).eval s).isTrue := by
  cases es with
  | nil => rfl
  | cons e es =>
    obtain ⟨he, -⟩ := List.forall_mem_cons.1 h
    rw [conj]
    clear h
    induction es generalizing e with
    | nil => exact he
    | cons e' es ih => exact ih (binary .and e e') rfl

end StreamCheck.Smv.Expr

namespace StreamCheck.Network.Queue
open Smv

theorem isArriving_eq (τ : Trace) (j t : Nat) : isArriving τ j t = (τ.input j).fires t := rfl

theorem incoming_eq (τ : Trace) (j t : Nat) : incoming τ j t = (τ.input j).value t := rfl

/-- All inputs of a node get their events at the same moments. -/
def InStep (τ : Trace) (arity : Nat) (arrives : Nat → Bool) : Prop :=
  ∀ j < arity, (τ.input j).fires = arrives

theorem firings_eq_length_events {τ : Trace} {x : Stream} (h : ∀ t, fires τ t = x.fires t) (t : Nat) :
    firings τ t = (x.events t).length := by
  induction t with
  | zero => rfl
  | succ t ih => rw [firings, ih, h t, Stream.length_events_succ]

section Run
variable {s : Sizes} {types : List PortType} {τ : Trace} (h : (circuits s types).Obeyed τ)
  (hq : 0 < s.queue)
include h hq

omit hq in
theorem circuit_obeyed {j : Nat} (hj : j < types.length) : (circuit s j types[j]).Obeyed τ :=
  obeyed_of_circuits h (List.getElem?_eq_getElem hj)

theorem ready_eval (t : Nat) : ready.eval (τ t) = .truth (fires τ t) := by
  rw [fires, ready_of_circuits h t]
  refine Expr.eval_conj_eq_truth fun e he => ?_
  obtain ⟨j, hj, rfl⟩ := List.mem_map.1 he
  rw [available_eval (circuit_obeyed h (List.mem_range.1 hj)) hq t]
  rfl

theorem front_of_held_eq_nil {j t : Nat} (hj : j < types.length)
    (hheld : held τ s.queue.toNat j t = []) : (front j).eval (τ t) = (τ.input j).value t := by
  rw [front_eval (circuit_obeyed h hj) hq t, hheld]
  rfl

/-! ### What is offered -/

omit h hq in
theorem mem_accepted {q j t : Nat} {v : Value} (hv : v ∈ accepted τ q j t) :
    ∃ t', (τ.input j).fires t' = true ∧ (τ.input j).value t' = v := by
  induction t with
  | zero => exact absurd hv List.not_mem_nil
  | succ t ih =>
    rw [accepted] at hv
    rcases List.mem_append.1 hv with hv | hv
    · exact ih hv
    · split at hv
      case isTrue haccepts =>
        rw [accepts, Bool.and_eq_true, isArriving_eq] at haccepts
        exact ⟨t, haccepts.1, (List.mem_singleton.1 hv).symm⟩
      case isFalse => exact absurd hv List.not_mem_nil

omit h hq in
theorem length_accepted_le (q j t : Nat) : (accepted τ q j t).length ≤ ((τ.input j).events t).length := by
  induction t with
  | zero => exact Nat.le_refl 0
  | succ t ih =>
    rw [accepted, List.length_append, Stream.length_events_succ]
    refine Nat.add_le_add ih ?_
    cases ha : (τ.input j).fires t with
    | false =>
      have hnone : accepts τ q j t = false := by rw [accepts, isArriving_eq, ha, Bool.false_and]
      rw [hnone]
      exact Nat.le_refl 0
    | true => split <;> simp

theorem exists_front_eq {j t : Nat} (hj : j < types.length) (hfires : fires τ t = true) :
    ∃ t', (τ.input j).fires t' = true ∧ (τ.input j).value t' = (front j).eval (τ t) := by
  refine mem_accepted (q := s.queue.toNat) (t := t + 1) ?_
  rw [accepted_eq h hq hj, consumed, if_pos hfires]
  exact List.mem_append_left _ (List.mem_append_right _ List.mem_cons_self)

theorem head?_accepted {j : Nat} (hj : j < types.length) (t : Nat) :
    (accepted τ s.queue.toNat j t).head? = ((τ.input j).events t).head? := by
  induction t with
  | zero => rfl
  | succ t ih =>
    rw [accepted, Stream.events_succ]
    cases haccepted : accepted τ s.queue.toNat j t with
    | cons v vs =>
      rw [haccepted] at ih
      cases hevents : (τ.input j).events t with
      | nil =>
        rw [hevents] at ih
        cases ih
      | cons u us =>
        rw [hevents] at ih
        exact ih
    | nil =>
      -- nothing was accepted, so nothing is stored, and the next event finds room
      rw [haccepted] at ih
      have hevents : (τ.input j).events t = [] := List.head?_eq_none_iff.1 ih.symm
      have hheld : held τ s.queue.toNat j t = [] := by
        have hstored := accepted_eq h hq hj t
        rw [haccepted] at hstored
        exact (List.append_eq_nil_iff.1 hstored.symm).2
      have hroom : (([] : List Value).length == s.queue.toNat) = false := by
        rw [beq_eq_false_iff_ne, List.length_nil]
        omega
      rw [hevents, accepts, hheld, hroom, isArriving_eq, Bool.false_and, Bool.not_false, Bool.and_true]
      rfl

theorem head?_events_of_firings_eq_zero {j t : Nat} (hj : j < types.length) (hnone : firings τ t = 0)
    (hfires : fires τ t = true) : ((τ.input j).events (t + 1)).head? = some ((front j).eval (τ t)) := by
  have hconsumed : consumed τ j t = [] := by
    rw [← List.length_eq_zero_iff, length_consumed, hnone]
  rw [← head?_accepted h hq hj, accepted_eq h hq hj, consumed, hconsumed, if_pos hfires]
  rfl

/-! ### Inputs in step -/

theorem fires_of_held_eq_nil (hn : 0 < types.length) {arrives : Nat → Bool}
    (hstep : InStep τ types.length arrives) {t : Nat}
    (hheld : ∀ j < types.length, held τ s.queue.toNat j t = []) : fires τ t = arrives t := by
  rw [Bool.eq_iff_iff, fires_iff h hq t]
  constructor
  · intro hall
    have hfirst := hall 0 hn
    rwa [hheld 0 hn, List.isEmpty_nil, Bool.not_true, Bool.false_or, isArriving_eq, hstep 0 hn] at hfirst
  · intro ha j hj
    rw [isArriving_eq, hstep j hj, ha, Bool.or_true]

theorem held_eq_nil_of_inStep (hn : 0 < types.length) {arrives : Nat → Bool}
    (hstep : InStep τ types.length arrives) (t : Nat) :
    ∀ j < types.length, held τ s.queue.toNat j t = [] := by
  induction t with
  | zero => exact fun j hj => held_zero (circuit_obeyed h hj)
  | succ t ih =>
    intro j hj
    have hfires := fires_of_held_eq_nil h hq hn hstep ih
    rw [held_succ (circuit_obeyed h hj), ih j hj, hfires, isArriving_eq,
      hstep j hj]
    -- what arrives while nothing is stored goes straight through
    cases arrives t <;> rfl

theorem fires_of_inStep (hn : 0 < types.length) {arrives : Nat → Bool}
    (hstep : InStep τ types.length arrives) (t : Nat) : fires τ t = arrives t :=
  fires_of_held_eq_nil h hq hn hstep (held_eq_nil_of_inStep h hq hn hstep t)

/-! ### The second input one event behind -/

/-- The second of two inputs misses the first event of the other one, and no other. -/
def OneBehind (τ : Trace) : Prop :=
  ∀ t, (τ.input 1).fires t = ((τ.input 0).fires t && !((τ.input 0).events t).isEmpty)

theorem fires_eq_second (htypes : types.length = 2) {t : Nat} (hheld : held τ s.queue.toNat 1 t = [])
    (hfirst : (τ.input 1).fires t = true → (τ.input 0).fires t = true) :
    fires τ t = (τ.input 1).fires t := by
  rw [Bool.eq_iff_iff, fires_iff h hq t, htypes]
  constructor
  · intro hall
    have hsecond := hall 1 Nat.one_lt_two
    rwa [hheld, List.isEmpty_nil, Bool.not_true, Bool.false_or, isArriving_eq] at hsecond
  · intro ha j hj
    obtain rfl | rfl : j = 0 ∨ j = 1 := by omega
    · rw [isArriving_eq, hfirst ha, Bool.or_true]
    · rw [isArriving_eq, ha, Bool.or_true]

omit h hq in
theorem OneBehind.first (hbehind : OneBehind τ) {t : Nat} (ha : (τ.input 1).fires t = true) :
    (τ.input 0).fires t = true := by
  rw [hbehind t, Bool.and_eq_true] at ha
  exact ha.1

theorem held_of_oneBehind (htypes : types.length = 2) (hbehind : OneBehind τ) (t : Nat) :
    held τ s.queue.toNat 0 t = ((τ.input 0).events t).getLast?.toList ∧
      held τ s.queue.toNat 1 t = [] := by
  have h0 := circuit_obeyed h (j := 0) (by omega)
  have h1 := circuit_obeyed h (j := 1) (by omega)
  induction t with
  | zero => exact ⟨held_zero h0, held_zero h1⟩
  | succ t ih =>
    obtain ⟨ih0, ih1⟩ := ih
    rw [held_succ h0, held_succ h1, ih0, ih1, fires_eq_second h hq htypes ih1 hbehind.first,
      isArriving_eq, isArriving_eq, incoming_eq, hbehind t]
    cases hx : (τ.input 0).fires t with
    | false =>
      rw [Stream.events_succ_of_not_fires hx]
      exact ⟨rfl, rfl⟩
    | true =>
      rw [Stream.events_succ_of_fires hx, List.getLast?_concat]
      cases hevents : (τ.input 0).events t with
      | nil =>
        -- the first event of all is stored until the next one comes
        have hroom : 0 < s.queue.toNat := by omega
        simp [advance, hroom]
      | cons v vs =>
        rw [List.getLast?_eq_some_getLast (List.cons_ne_nil v vs)]
        exact ⟨rfl, rfl⟩

theorem fires_of_oneBehind (htypes : types.length = 2) (hbehind : OneBehind τ) (t : Nat) :
    fires τ t = (τ.input 1).fires t :=
  fires_eq_second h hq htypes (held_of_oneBehind h hq htypes hbehind t).2 hbehind.first

theorem load_le_one_of_oneBehind (htypes : types.length = 2) (hbehind : OneBehind τ) (t : Nat) :
    ∀ j < 2, load τ s.queue.toNat j t ≤ 1 := by
  obtain ⟨hfirst, hsecond⟩ := held_of_oneBehind h hq htypes hbehind t
  intro j hj
  rw [← length_held]
  obtain rfl | rfl : j = 0 ∨ j = 1 := by omega
  · rw [hfirst]
    exact Option.length_toList_le
  · rw [hsecond]
    exact Nat.zero_le 1

theorem load_one_of_oneBehind (htypes : types.length = 2) (hbehind : OneBehind τ)
    (hfires : (τ.input 0).fires 0 = true) : load τ s.queue.toNat 0 1 = 1 := by
  rw [← length_held, (held_of_oneBehind h hq htypes hbehind 1).1, Stream.events_succ_of_fires hfires]
  rfl

omit h hq in
theorem oneBehind_of_drop {x : Stream} {n : Nat} (hfirst : (τ.input 0).fires = (x.drop n).fires)
    (hsecond : (τ.input 1).fires = (x.drop (n + 1)).fires) : OneBehind τ := by
  intro t
  have hlength : ((τ.input 0).events t).length = (x.events t).length - n := by
    rw [Stream.length_events_congr hfirst, Stream.events_drop, List.length_drop]
  rw [hsecond, hfirst, Stream.fires_drop, Stream.fires_drop, Bool.and_assoc]
  congr 1
  rw [Bool.eq_iff_iff]
  simp only [decide_eq_true_eq, Bool.and_eq_true, Bool.not_eq_true', List.isEmpty_eq_false_iff_exists_mem,
    ← List.length_pos_iff_exists_mem, hlength]
  omega

end Run
end StreamCheck.Network.Queue
