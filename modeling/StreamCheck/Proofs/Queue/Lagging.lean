import Mathlib.Algebra.Order.Floor.Div
import StreamCheck.Proofs.Queue.Streams

/-! A node of two inputs whose second one gets the first of every `k` events of the first. The first input falls
behind: how far, is a matter of the number of its events alone. From this follow what its queue stores, which
event is the first that it loses, and which events it offers until then. -/

namespace StreamCheck.Network

/-! ### The backlog -/

/-- How many of `n` events are not among the first of every `k`. -/
def backlog (k n : Nat) : Nat := n - n ⌈/⌉ k

theorem backlog_zero (k : Nat) : backlog k 0 = 0 := Nat.zero_sub _

section
variable {k : Nat} (hk : 0 < k)
include hk

theorem ceilDiv_succ (n : Nat) : (n + 1) ⌈/⌉ k = n ⌈/⌉ k + if n % k = 0 then 1 else 0 := by
  have hdiv := Nat.div_add_mod n k
  have hlt := Nat.mod_lt n hk
  -- with `n = k * a + b` one more event makes one more first one exactly if `b` is zero
  generalize n / k = a at hdiv
  generalize n % k = b at hdiv hlt
  subst hdiv
  rw [Nat.ceilDiv_eq_add_pred_div, Nat.ceilDiv_eq_add_pred_div]
  have hnext : k * a + b + 1 + k - 1 = b + k * (a + 1) := by
    rw [Nat.mul_succ]
    omega
  rw [hnext, Nat.add_mul_div_left _ _ hk, Nat.div_eq_of_lt hlt, Nat.zero_add]
  split
  · subst b
    have hhere : k * a + 0 + k - 1 = (k - 1) + k * a := by omega
    rw [hhere, Nat.add_mul_div_left _ _ hk, Nat.div_eq_of_lt (by omega), Nat.zero_add]
  · have hhere : k * a + b + k - 1 = (b - 1) + k * (a + 1) := by
      rw [Nat.mul_succ]
      omega
    rw [hhere, Nat.add_mul_div_left _ _ hk, Nat.div_eq_of_lt (by omega), Nat.zero_add]

theorem ceilDiv_le_self (n : Nat) : n ⌈/⌉ k ≤ n :=
  (ceilDiv_le_iff_le_mul hk).2 (Nat.le_mul_of_pos_left n hk)

theorem backlog_succ (n : Nat) : backlog k (n + 1) = backlog k n + if n % k = 0 then 0 else 1 := by
  have hle := ceilDiv_le_self hk n
  rw [backlog, backlog, ceilDiv_succ hk]
  split <;> omega

theorem backlog_mono : Monotone (backlog k) := by
  refine monotone_nat_of_le_succ fun n => ?_
  rw [backlog_succ hk]
  exact Nat.le_add_right _ _

theorem isLeast_backlog_iff {q n : Nat} : IsLeast {n | backlog k n = q + 1} (n + 1) ↔
    n % k ≠ 0 ∧ backlog k n = q := by
  have hsucc := backlog_succ hk n
  constructor
  · rintro ⟨hreached, hleast⟩
    have hreached : backlog k (n + 1) = q + 1 := hreached
    have hbefore : backlog k n ≠ q + 1 := fun h => Nat.not_succ_le_self n (hleast h)
    rw [hsucc] at hreached
    split at hreached
    · exact absurd hreached hbefore
    · exact ⟨‹_›, Nat.succ.inj hreached⟩
  · rintro ⟨hmod, hbacklog⟩
    rw [if_neg hmod, hbacklog] at hsucc
    refine ⟨hsucc, fun m hm => ?_⟩
    have hm : backlog k m = q + 1 := hm
    by_contra hlt
    have hle := backlog_mono hk (Nat.lt_succ_iff.1 (Nat.lt_of_not_le hlt))
    omega

end

theorem le_backlog_mul_two {k : Nat} (hk : 2 ≤ k) (n : Nat) : n ≤ backlog k (n * 2) := by
  have hle : n * 2 ⌈/⌉ k ≤ n := by
    rw [ceilDiv_le_iff_le_mul (by omega), Nat.mul_comm]
    exact Nat.mul_le_mul_right n hk
  rw [backlog]
  omega

theorem exists_isLeast_backlog {k : Nat} (hk : 2 ≤ k) (q : Nat) : ∃ n, IsLeast {n | backlog k n = q + 1} n := by
  have hpos : 0 < k := by omega
  have hex : ∃ n, q + 1 ≤ backlog k n := ⟨_, le_backlog_mul_two hk (q + 1)⟩
  have hreached := Nat.find_spec hex
  have hleast (m : Nat) (hm : q + 1 ≤ backlog k m) : Nat.find hex ≤ m := Nat.find_min' hex hm
  generalize Nat.find hex = n at hreached hleast
  cases n with
  | zero =>
    rw [backlog_zero] at hreached
    nomatch hreached
  | succ n =>
    have hbefore : backlog k n ≤ q := by
      by_contra hmore
      exact Nat.not_succ_le_self n (hleast n (Nat.lt_of_not_le hmore))
    have hsucc := backlog_succ hpos n
    split at hsucc
    · omega
    · exact ⟨n + 1, (isLeast_backlog_iff hpos).2 ⟨‹_›, by omega⟩⟩

namespace Stream

theorem length_events_every {k : Nat} (hk : 0 < k) (x : Stream) (t : Nat) :
    ((x.every k).events t).length = (x.events t).length ⌈/⌉ k := by
  induction t with
  | zero => exact (zero_ceilDiv k).symm
  | succ t ih =>
    rw [length_events_succ, ih, length_events_succ, fires_every]
    cases x.fires t with
    | false => rfl
    | true =>
      rw [if_pos rfl, ceilDiv_succ hk, Bool.true_and]
      simp only [decide_eq_true_eq]

theorem events_extend (x : Stream) {t u : Nat} (htu : t ≤ u) : x.events t <+: x.events u := by
  induction u, htu using Nat.le_induction with
  | base => exact List.prefix_rfl
  | succ u _ ih => exact ih.trans (List.prefix_append _ _)

theorem exists_length_events_eq (x : Stream) {n t : Nat} (hn : n ≤ (x.events t).length) :
    ∃ u ≤ t, (x.events u).length = n := by
  induction t with
  | zero => exact ⟨0, Nat.le_refl 0, (Nat.le_zero.1 hn).symm⟩
  | succ t ih =>
    obtain heq | hlt := Nat.eq_or_lt_of_le hn
    · exact ⟨t + 1, Nat.le_refl _, heq.symm⟩
    · rw [length_events_succ] at hlt
      have hle : n ≤ (x.events t).length := by
        split at hlt <;> omega
      obtain ⟨u, hu, hlength⟩ := ih hle
      exact ⟨u, Nat.le_succ_of_le hu, hlength⟩

end Stream

namespace Queue
open Smv
variable {τ : Trace} {q j t : Nat}

/-- An event arrives and is lost, as it finds the queue full and the node does not fire. -/
def Loses (τ : Trace) (q j t : Nat) : Prop := isArriving τ j t = true ∧ accepts τ q j t = false

theorem loses_iff : Loses τ q j t ↔
    isArriving τ j t = true ∧ (held τ q j t).length = q ∧ fires τ t = false := by
  rw [Loses, accepts]
  refine and_congr_right fun harrives => ?_
  rw [harrives]
  simp

theorem accepted_extend {u : Nat} (htu : t ≤ u) : accepted τ q j t <+: accepted τ q j u := by
  induction u, htu using Nat.le_induction with
  | base => exact List.prefix_rfl
  | succ u _ ih => exact ih.trans (List.prefix_append _ _)

/-- The second of two inputs gets the first of every `k` events of the first one. -/
def Lags (τ : Trace) (k : Nat) : Prop := τ.input 1 = (τ.input 0).every k

theorem Lags.fires_first {k : Nat} (h : Lags τ k) (hsecond : (τ.input 1).fires t = true) :
    (τ.input 0).fires t = true := by
  rw [h, Stream.fires_every, Bool.and_eq_true] at hsecond
  exact hsecond.1

section Run
variable {s : Sizes} {types : List PortType} (h : (circuits s types).Obeyed τ) (hq : 0 < s.queue)
include h hq

omit h in
theorem not_loses_of_held_eq_nil (hheld : held τ s.queue.toNat j t = []) : ¬ Loses τ s.queue.toNat j t := by
  rw [loses_iff, hheld, List.length_nil]
  rintro ⟨-, hzero, -⟩
  omega

theorem getElem?_accepted (hj : j < types.length) (hfires : fires τ t = true) :
    (accepted τ s.queue.toNat j (t + 1))[firings τ t]? = some ((front j).eval (τ t)) := by
  rw [accepted_eq h hq hj, consumed, if_pos hfires, ← length_consumed τ j t, List.append_assoc,
    List.getElem?_append_right (Nat.le_refl _), Nat.sub_self]
  rfl

section
variable {k : Nat} (hlags : Lags τ k) (htypes : types.length = 2)
include hlags htypes

theorem held_second_of_lags (t : Nat) : held τ s.queue.toNat 1 t = [] := by
  have hcircuit := circuit_obeyed h (j := 1) (by omega)
  induction t with
  | zero => exact held_zero hcircuit
  | succ t ih =>
    rw [held_succ hcircuit, ih, fires_eq_second h hq htypes ih hlags.fires_first, isArriving_eq]
    cases (τ.input 1).fires t <;> rfl

theorem fires_of_lags (t : Nat) :
    fires τ t = ((τ.input 0).fires t && decide (((τ.input 0).events t).length % k = 0)) := by
  rw [fires_eq_second h hq htypes (held_second_of_lags h hq hlags htypes t) hlags.fires_first, hlags,
    Stream.fires_every]

theorem firings_of_lags (hk : 0 < k) (t : Nat) : firings τ t = ((τ.input 0).events t).length ⌈/⌉ k := by
  rw [← Stream.length_events_every hk]
  exact firings_eq_length_events (x := (τ.input 0).every k) (fun t => fires_of_lags h hq hlags htypes t) t

theorem length_held_of_lags (hk : 0 < k) (t : Nat) : (held τ s.queue.toNat 0 t).length =
    min s.queue.toNat (backlog k ((τ.input 0).events t).length) := by
  have hcircuit := circuit_obeyed h (j := 0) (by omega)
  rw [length_held]
  induction t with
  | zero =>
    rw [load_zero hcircuit, Stream.events, List.length_nil, backlog_zero, Nat.min_zero]
  | succ t ih =>
    rw [load_succ hcircuit, ih, fires_of_lags h hq hlags htypes, isArriving_eq, Stream.length_events_succ]
    cases (τ.input 0).fires t with
    | false => rfl
    | true =>
      rw [if_pos rfl, backlog_succ hk, Bool.true_and]
      by_cases hfirst : ((τ.input 0).events t).length % k = 0
      · rw [decide_eq_true hfirst, if_pos hfirst]
        rfl
      · rw [decide_eq_false hfirst, if_neg hfirst]
        change min (min _ _ + 1) _ = _
        omega

theorem loses_iff_of_lags (hk : 0 < k) (t : Nat) : Loses τ s.queue.toNat 0 t ↔ (τ.input 0).fires t = true ∧
    ((τ.input 0).events t).length % k ≠ 0 ∧ s.queue.toNat ≤ backlog k ((τ.input 0).events t).length := by
  rw [loses_iff, length_held_of_lags h hq hlags htypes hk, fires_of_lags h hq hlags htypes, isArriving_eq]
  refine and_congr_right fun hx => ?_
  rw [hx, Bool.true_and, decide_eq_false_iff_not, and_comm]
  exact and_congr_right fun _ => min_eq_left_iff

theorem backlog_le_of_not_loses (hk : 0 < k) (hnone : ∀ u < t, ¬ Loses τ s.queue.toNat 0 u) :
    backlog k ((τ.input 0).events t).length ≤ s.queue.toNat := by
  induction t with
  | zero =>
    rw [Stream.events, List.length_nil, backlog_zero]
    exact Nat.zero_le _
  | succ t ih =>
    have hle := ih fun u hu => hnone u (Nat.lt_succ_of_lt hu)
    have hlast := hnone t (Nat.lt_succ_self t)
    rw [loses_iff_of_lags h hq hlags htypes hk] at hlast
    rw [Stream.length_events_succ]
    cases hx : (τ.input 0).fires t with
    | false => exact hle
    | true =>
      rw [if_pos rfl, backlog_succ hk]
      split
      · exact hle
      · have hroom : ¬ s.queue.toNat ≤ backlog k ((τ.input 0).events t).length :=
          fun hfull => hlast ⟨hx, ‹_›, hfull⟩
        omega

theorem first_loss_iff (hk : 0 < k) : (Loses τ s.queue.toNat 0 t ∧ ∀ u < t, ¬ Loses τ s.queue.toNat 0 u) ↔
    (τ.input 0).fires t = true ∧
      IsLeast {n | backlog k n = s.queue.toNat + 1} (((τ.input 0).events t).length + 1) := by
  rw [isLeast_backlog_iff hk]
  constructor
  · rintro ⟨hloss, hnone⟩
    obtain ⟨hx, hmod, hfull⟩ := (loses_iff_of_lags h hq hlags htypes hk t).1 hloss
    exact ⟨hx, hmod, Nat.le_antisymm (backlog_le_of_not_loses h hq hlags htypes hk hnone) hfull⟩
  · rintro ⟨hx, hmod, hbacklog⟩
    refine ⟨(loses_iff_of_lags h hq hlags htypes hk t).2 ⟨hx, hmod, hbacklog.ge⟩, fun u hu hloss => ?_⟩
    -- an event that was lost before has left the backlog too large
    obtain ⟨hx', hmod', hfull⟩ := (loses_iff_of_lags h hq hlags htypes hk u).1 hloss
    have hsucc := backlog_succ hk ((τ.input 0).events u).length
    have hle := backlog_mono hk ((τ.input 0).events_extend (Nat.succ_le_of_lt hu)).length_le
    rw [Stream.length_events_succ, if_pos hx', hsucc, if_neg hmod', hbacklog] at hle
    omega

theorem accepted_of_lags (hk : 0 < k) (hroom : backlog k ((τ.input 0).events t).length ≤ s.queue.toNat) :
    accepted τ s.queue.toNat 0 t = (τ.input 0).events t := by
  induction t with
  | zero => rfl
  | succ t ih =>
    have hbefore := (backlog_mono hk ((τ.input 0).events_extend (Nat.le_succ t)).length_le).trans hroom
    have haccepts : accepts τ s.queue.toNat 0 t = (τ.input 0).fires t := by
      cases hx : (τ.input 0).fires t with
      | false => rw [accepts, isArriving_eq, hx, Bool.false_and]
      | true =>
        rw [← Bool.not_eq_false]
        intro hrefused
        obtain ⟨-, hmod, hfull⟩ := (loses_iff_of_lags h hq hlags htypes hk t).1 ⟨hx, hrefused⟩
        rw [Stream.length_events_succ, if_pos hx, backlog_succ hk, if_neg hmod] at hroom
        omega
    rw [accepted, ih hbefore, haccepts, incoming_eq, Stream.events_succ]

theorem getElem?_events_of_lags (hk : 0 < k) (hfires : fires τ t = true)
    (hroom : backlog k (firings τ t + 1) ≤ s.queue.toNat) :
    ((τ.input 0).events (t + 1))[firings τ t]? = some ((front 0).eval (τ t)) := by
  have hoffer := getElem?_accepted h hq (j := 0) (by omega) hfires
  have hfirings := firings_of_lags h hq hlags htypes hk t
  have hx : (τ.input 0).fires t = true := by
    rw [fires_of_lags h hq hlags htypes, Bool.and_eq_true] at hfires
    exact hfires.1
  have hcome : firings τ t + 1 ≤ ((τ.input 0).events (t + 1)).length := by
    rw [Stream.length_events_succ, if_pos hx, hfirings]
    exact Nat.succ_le_succ (ceilDiv_le_self hk _)
  -- look at the moment when the event had just come, before which none was lost
  obtain ⟨u, hu, hlength⟩ := (τ.input 0).exists_length_events_eq hcome
  have haccepted := accepted_of_lags h hq hlags htypes hk (hlength ▸ hroom)
  have hlt : firings τ t < ((τ.input 0).events u).length := hlength ▸ Nat.lt_succ_self _
  have hcame := List.prefix_iff_getElem?.1 ((τ.input 0).events_extend hu) _ hlt
  have hoffered : (accepted τ s.queue.toNat 0 (t + 1))[firings τ t]? = some _ :=
    List.prefix_iff_getElem?.1 (haccepted ▸ accepted_extend hu) _ hlt
  rw [hcame, ← hoffered, hoffer]

end
end Run
end Queue
end StreamCheck.Network
