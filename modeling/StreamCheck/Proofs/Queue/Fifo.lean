import Mathlib.Data.List.GetD
import StreamCheck.Proofs.Basic
import StreamCheck.Proofs.Circuit.Bracketing
import StreamCheck.Proofs.Circuit.Runs
import StreamCheck.Proofs.Smv.Evaluation

/-! Input queues: the flags of a queue mark a prefix of its slots, and what the marked slots hold moves
as in a bounded queue, first in and first out, that drops what arrives while it is full. -/

namespace StreamCheck.Network.Queue
open Smv

def fires (σ : Trace) (t : Nat) : Bool := (ready.eval (σ t)).isTrue

def isArriving (σ : Trace) (j t : Nat) : Bool := ((arrives j).eval (σ t)).isTrue

def incoming (σ : Trace) (j t : Nat) : Value := (arriving j).eval (σ t)

/-- How many of the `q` slots of input `j` are taken. -/
def load (σ : Trace) (q j t : Nat) : Nat :=
  (List.range q).countP fun i => ((flag j i).eval (σ t)).isTrue

/-- The events that the queue of input `j` stores, the oldest first. -/
def held (σ : Trace) (q j t : Nat) : List Value :=
  (List.range (load σ q j t)).map fun i => (value j i).eval (σ t)

/-- What a queue of `q` slots stores after a step, by whether its node fires and whether `x` arrives. -/
def advance (q : Nat) (fires arrives : Bool) (x : Value) (stored : List Value) : List Value :=
  match fires, arrives with
  | false, false => stored
  | true, true => (stored ++ [x]).tail
  | true, false => stored.tail
  | false, true => if stored.length < q then stored ++ [x] else stored

def Marks (st : State) (q j k : Nat) : Prop :=
  k ≤ q ∧ ∀ i, i < q → (flag j i).eval st = .truth (decide (i < k))

def nextLoad (q : Nat) (fires arrives : Bool) (k : Nat) : Nat :=
  match fires, arrives with
  | true, false => k - 1
  | false, true => min (k + 1) q
  | _, _ => k

@[simp] theorem length_held (σ : Trace) (q j t : Nat) : (held σ q j t).length = load σ q j t := by
  simp [held]

theorem getElem_held {σ : Trace} {q j t i : Nat} (hi : i < (held σ q j t).length) :
    (held σ q j t)[i] = (value j i).eval (σ t) := by
  simp [held]

theorem getD_held (σ : Trace) (q j t i : Nat) (x : Value) :
    (held σ q j t).getD i x = if i < load σ q j t then (value j i).eval (σ t) else x := by
  by_cases hi : i < load σ q j t
  · have hlen : i < (held σ q j t).length := by rwa [length_held]
    rw [if_pos hi, List.getD_eq_getElem _ _ hlen, getElem_held]
  · rw [if_neg hi, List.getD_eq_default]
    rwa [length_held, ← Nat.not_lt]

theorem length_advance {q : Nat} (fires arrives : Bool) (x : Value) {stored : List Value}
    (h : stored.length ≤ q) :
    (advance q fires arrives x stored).length = nextLoad q fires arrives stored.length := by
  cases fires <;> cases arrives
  case false.false => rfl
  case false.true =>
    simp only [advance, nextLoad]
    split
    · rw [List.length_append, List.length_singleton]
      omega
    · omega
  case true.false => exact List.length_tail
  case true.true => simp [advance, nextLoad]

theorem getElem_append_singleton {stored : List Value} {x : Value} {i : Nat}
    (hi : i < (stored ++ [x]).length) : (stored ++ [x])[i] = stored.getD i x := by
  by_cases hlt : i < stored.length
  · rw [List.getElem_append_left hlt, List.getD_eq_getElem _ _ hlt]
  · rw [List.getElem_append_right (Nat.not_lt.mp hlt), List.getElem_singleton,
      List.getD_eq_default _ _ (Nat.not_lt.mp hlt)]

theorem getElem_advance {q : Nat} (fires arrives : Bool) (x : Value) {stored : List Value} {i : Nat}
    (hi : i < (advance q fires arrives x stored).length) :
    (advance q fires arrives x stored)[i] = stored.getD (if fires then i + 1 else i) x := by
  cases fires <;> cases arrives <;> simp only [advance, if_true, Bool.false_eq_true, if_false] at hi ⊢
  case false.false => exact (List.getD_eq_getElem _ _ hi).symm
  case false.true =>
    by_cases hfull : stored.length < q
    · simp only [if_pos hfull] at hi ⊢
      exact getElem_append_singleton hi
    · simp only [if_neg hfull] at hi ⊢
      exact (List.getD_eq_getElem _ _ hi).symm
  case true.false =>
    rw [List.getElem_tail]
    exact (List.getD_eq_getElem _ _ _).symm
  case true.true =>
    rw [List.getElem_tail]
    exact getElem_append_singleton _

variable {st : State} {q j k : Nat}

theorem Marks.countP (h : Marks st q j k) :
    (List.range q).countP (fun i => ((flag j i).eval st).isTrue) = k := by
  rw [← countP_range_lt h.1]
  refine List.countP_congr fun i hi => ?_
  rw [h.2 i (List.mem_range.mp hi)]
  rfl

/-! ### One step -/

theorem nextLoad_le (h : k ≤ q) (fires arrives : Bool) : nextLoad q fires arrives k ≤ q := by
  cases fires <;> cases arrives <;> simp only [nextLoad] <;> omega

theorem eval_nextFlag (h : Marks st q j k) {i : Nat} (hi : i < q) :
    (nextFlag q j i).eval st = .truth (decide (i <
      nextLoad q (ready.eval st).isTrue ((arrives j).eval st).isTrue k)) := by
  have hhere := h.2 i hi
  simp only [nextFlag, both, Update.eval_cases_cons, Expr.isTrue_eval_and, Expr.isTrue_eval_not]
  cases (ready.eval st).isTrue <;> cases ((arrives j).eval st).isTrue <;>
    simp only [nextLoad, Bool.and_true, Bool.and_false, Bool.not_true, Bool.not_false, if_true,
      Bool.false_eq_true, if_false, Expr.isTrue_eval_bool]
  case false.false | true.true => exact hhere
  case false.true =>
    -- an arrival takes the slot behind the last one taken
    rw [Expr.eval_or, hhere]
    by_cases h0 : 0 < i
    · rw [if_pos h0, h.2 (i - 1) (by omega)]
      simp only [Value.isTrue, Value.truth.injEq, ← Bool.decide_or]
      exact decide_eq_decide.mpr (by omega)
    · rw [if_neg h0]
      simp only [Expr.isTrue_eval_bool, Bool.or_true, Value.truth.injEq]
      exact (decide_eq_true (by omega)).symm
  case true.false =>
    -- firing moves every flag up by one slot
    by_cases hb : i + 1 < q
    · rw [if_pos hb, h.2 (i + 1) hb]
      exact congrArg Value.truth (decide_eq_decide.mpr (by omega))
    · rw [if_neg hb]
      exact congrArg Value.truth (decide_eq_false (by have := h.1; omega)).symm

theorem isTrue_eval_free (h : Marks st q j k) {i : Nat} (hi : i < q) (hik : i ≤ k) :
    ((if 0 < i then both (both (arrives j) (.not (flag j i))) (flag j (i - 1))
        else both (arrives j) (.not (flag j i))).eval st).isTrue =
      (((arrives j).eval st).isTrue && decide (k ≤ i)) := by
  have hfree : ((Expr.not (flag j i)).eval st).isTrue = decide (k ≤ i) := by
    rw [Expr.isTrue_eval_not, h.2 i hi]
    change (!decide (i < k)) = _
    rw [← decide_not, decide_eq_decide]
    exact Nat.not_lt
  by_cases h0 : 0 < i
  · have hbefore : ((flag j (i - 1)).eval st).isTrue = true := by
      rw [h.2 (i - 1) (by omega)]
      exact decide_eq_true (by omega)
    rw [if_pos h0, both, Expr.isTrue_eval_and, hbefore, Bool.and_true, both, Expr.isTrue_eval_and,
      hfree]
  · rw [if_neg h0, both, Expr.isTrue_eval_and, hfree]

/-- What slot `i` holds after a step, as far as it is taken then: what the slot itself held or, after
firing, the slot behind it; the value that arrives where that slot was free. -/
theorem eval_nextValue (h : Marks st q j k) {i : Nat}
    (hi : i < nextLoad q (ready.eval st).isTrue ((arrives j).eval st).isTrue k) :
    (nextValue q j i).eval st =
      let source := if (ready.eval st).isTrue then i + 1 else i
      if source < k then (value j source).eval st else (arriving j).eval st := by
  have hk := h.1
  have hlt : i < q := Nat.lt_of_lt_of_le hi (nextLoad_le hk _ _)
  have hhere : ((flag j i).eval st).isTrue = decide (i < k) := by rw [h.2 i hlt]; rfl
  simp only [nextValue, Update.eval_cases_cons]
  rw [both, Expr.isTrue_eval_and, both, Expr.isTrue_eval_and, Expr.isTrue_eval_not]
  revert hi
  cases hf : (ready.eval st).isTrue <;> cases ha : ((arrives j).eval st).isTrue <;> intro hi <;>
    simp only [nextLoad, Bool.and_true, Bool.and_false, Bool.not_true, Bool.not_false, if_true,
      Bool.false_eq_true, if_false] at hi ⊢
  case false.false =>
    rw [isTrue_eval_free h hlt (by omega), ha, if_pos hi]
    simp
  case false.true =>
    rw [isTrue_eval_free h hlt (by omega), ha]
    by_cases hik : i < k
    · simp [hik, Nat.not_le.mpr hik]
    · simp [hik, Nat.not_lt.mp hik]
  case true.false =>
    have hnext : i + 1 < k := by omega
    rw [if_pos hnext, if_pos (show i + 1 < q by omega)]
  case true.true =>
    by_cases hnext : i + 1 < q
    · have hbehind : ((flag j (i + 1)).eval st).isTrue = decide (i + 1 < k) := by
        rw [h.2 (i + 1) hnext]; rfl
      rw [if_pos hnext, Expr.eval_choose, hbehind, Expr.eval_paren, Expr.eval_choose, hhere]
      simp only [decide_eq_true_eq, if_pos hi]
    · rw [if_neg hnext, Expr.eval_choose, hhere, if_neg (show ¬ i + 1 < k by omega)]
      simp only [decide_eq_true_eq, if_pos hi]

/-! ### Runs -/

section Run
variable {s : Sizes} {type : PortType} {σ : Trace} (h : (circuit s j type).Obeyed σ)
include h

theorem slotAssigns_obeyed {i : Nat} (hi : i < s.queue.toNat) {a : Assign}
    (ha : a ∈ slotAssigns s.queue.toNat j type i) : a.Obeyed σ :=
  h.assigns a (List.mem_flatMap.mpr ⟨i, List.mem_range.mpr hi, ha⟩)

theorem flag_zero {i : Nat} (hi : i < s.queue.toNat) : (flag j i).eval (σ 0) = .truth false := by
  have hfirst : (Circuit.starts ⟨.queueFlags j, some i⟩ (.bool false)).Obeyed σ :=
    slotAssigns_obeyed h hi (by simp [slotAssigns])
  exact hfirst

theorem flag_succ {i : Nat} (hi : i < s.queue.toNat) (t : Nat) :
    (flag j i).eval (σ (t + 1)) = (nextFlag s.queue.toNat j i).eval (σ t) := by
  have hafter : (Circuit.becomes ⟨.queueFlags j, some i⟩ (nextFlag s.queue.toNat j i)).Obeyed σ :=
    slotAssigns_obeyed h hi (by simp [slotAssigns])
  exact hafter t

theorem value_succ {i : Nat} (hi : i < s.queue.toNat) (t : Nat) :
    (value j i).eval (σ (t + 1)) = (nextValue s.queue.toNat j i).eval (σ t) := by
  have hafter : (Circuit.becomes ⟨.queueValues j, some i⟩ (nextValue s.queue.toNat j i)).Obeyed σ :=
    slotAssigns_obeyed h hi (by simp [slotAssigns])
  exact hafter t

theorem marks_zero : Marks (σ 0) s.queue.toNat j 0 :=
  ⟨Nat.zero_le _, fun _ hi => flag_zero h hi⟩

theorem marks_succ {t : Nat} (hm : Marks (σ t) s.queue.toNat j k) :
    Marks (σ (t + 1)) s.queue.toNat j
      (nextLoad s.queue.toNat (fires σ t) (isArriving σ j t) k) :=
  ⟨nextLoad_le hm.1 _ _, fun _ hi => (flag_succ h hi t).trans (eval_nextFlag hm hi)⟩

theorem marks_load (t : Nat) : Marks (σ t) s.queue.toNat j (load σ s.queue.toNat j t) := by
  have hex : ∃ k, Marks (σ t) s.queue.toNat j k := by
    induction t with
    | zero => exact ⟨0, marks_zero h⟩
    | succ t ih =>
      obtain ⟨k, hk⟩ := ih
      exact ⟨_, marks_succ h hk⟩
  obtain ⟨k, hk⟩ := hex
  rwa [load, hk.countP]

theorem load_zero : load σ s.queue.toNat j 0 = 0 := (marks_zero h).countP

theorem load_succ (t : Nat) : load σ s.queue.toNat j (t + 1) =
    nextLoad s.queue.toNat (fires σ t) (isArriving σ j t) (load σ s.queue.toNat j t) :=
  (marks_succ h (marks_load h t)).countP

theorem value_succ_of_taken {i t : Nat} (hi : i < load σ s.queue.toNat j (t + 1)) :
    (value j i).eval (σ (t + 1)) =
      (held σ s.queue.toNat j t).getD (if fires σ t then i + 1 else i) (incoming σ j t) := by
  have hm := marks_load h t
  rw [load_succ h t] at hi
  rw [value_succ h (Nat.lt_of_lt_of_le hi (nextLoad_le hm.1 _ _)) t, getD_held]
  exact eval_nextValue hm hi

theorem held_succ (t : Nat) : held σ s.queue.toNat j (t + 1) =
    advance s.queue.toNat (fires σ t) (isArriving σ j t) (incoming σ j t)
      (held σ s.queue.toNat j t) := by
  apply List.ext_getElem
  · have hle : (held σ s.queue.toNat j t).length ≤ s.queue.toNat := by
      rw [length_held]
      exact (marks_load h t).1
    rw [length_advance _ _ _ hle, length_held, length_held]
    exact load_succ h t
  · intro i hi hi'
    have htaken : i < load σ s.queue.toNat j (t + 1) := by rwa [length_held] at hi
    rw [getElem_held, value_succ_of_taken h htaken, getElem_advance]

theorem held_zero : held σ s.queue.toNat j 0 = [] := by
  rw [held, load_zero h, List.range_zero, List.map_nil]

theorem available_eval (hq : 0 < s.queue) (t : Nat) :
    (Expr.own (.available j)).eval (σ t) =
      .truth (!(held σ s.queue.toNat j t).isEmpty || isArriving σ j t) := by
  have hflag := (marks_load h t).2 0 (by omega)
  have hempty : (!(held σ s.queue.toNat j t).isEmpty) = decide (0 < load σ s.queue.toNat j t) := by
    rw [← length_held]
    cases held σ s.queue.toNat j t <;> simp
  refine (h.defines _ List.mem_cons_self t).trans ?_
  rw [Expr.eval_or, hflag, hempty]
  rfl

theorem front_eval (hq : 0 < s.queue) (t : Nat) :
    (front j).eval (σ t) = (held σ s.queue.toNat j t).headD (incoming σ j t) := by
  have hflag := (marks_load h t).2 0 (by omega)
  rw [List.headD_eq_head?_getD, List.head?_eq_getElem?, ← List.getD_eq_getElem?_getD, getD_held]
  refine (h.defines _ (List.mem_cons_of_mem _ List.mem_cons_self) t).trans ?_
  rw [Expr.eval_choose, hflag]
  simp [Value.isTrue, incoming]

theorem flags_eval (t : Nat) :
    (List.range s.queue.toNat).map (fun i => (flag j i).eval (σ t)) =
      List.replicate (held σ s.queue.toNat j t).length (.truth true) ++
        List.replicate (s.queue.toNat - (held σ s.queue.toNat j t).length) (.truth false) := by
  have hm := marks_load h t
  rw [length_held]
  apply List.ext_getElem
  · simp [Nat.add_sub_cancel' hm.1]
  · intro i hi hi'
    rw [List.getElem_map, List.getElem_range, hm.2 i (by simpa using hi), List.getElem_append]
    by_cases htaken : i < load σ s.queue.toNat j t <;> simp [htaken]

end Run

/-- What a queue of `q` slots shows at a moment, and how it goes on. -/
structure FifoAt (σ : Trace) (q j t : Nat) : Prop where
  /-- The taken slots come first. -/
  flags : (List.range q).map (fun i => (flag j i).eval (σ t)) =
    List.replicate (held σ q j t).length (.truth true) ++
      List.replicate (q - (held σ q j t).length) (.truth false)
  length_le : (held σ q j t).length ≤ q
  full_iff : (flag j (q - 1)).eval (σ t) = .truth true ↔ (held σ q j t).length = q
  next : held σ q j (t + 1) =
    advance q (fires σ t) (isArriving σ j t) (incoming σ j t) (held σ q j t)
  available : (Expr.own (.available j)).eval (σ t) =
    .truth (!(held σ q j t).isEmpty || isArriving σ j t)
  front : (held σ q j t ++ [incoming σ j t]).head? = some ((Queue.front j).eval (σ t))

/-- In every run of a node's module each input queue is empty at first and a bounded queue from then on. -/
theorem inputQueue_isFifo {n : Node} {s : Sizes} {m : Module} {σ : Trace} {j : Nat}
    (hm : n.leafModule s = .ok m) (hσ : m.Obeyed σ) (hq : 0 < s.queue) (hj : j < n.inputArity) :
    m.isBracketed ∧ held σ s.queue.toNat j 0 = [] ∧ ∀ t, FifoAt σ s.queue.toNat j t := by
  have h := obeyed_of_circuits (Node.leafModule_parts hm hσ).1 (List.getElem?_eq_getElem hj)
  refine ⟨Node.isBracketed_leafModule hm, held_zero h, fun t => ?_⟩
  have hmarks := marks_load h t
  refine ⟨flags_eval h t, ?_, ?_, held_succ h t, available_eval h hq t, ?_⟩
  · rw [length_held]
    exact hmarks.1
  · rw [length_held, hmarks.2 _ (by omega), Value.truth.injEq, decide_eq_true_eq]
    have := hmarks.1
    omega
  · rw [front_eval h hq t]
    cases held σ s.queue.toNat j t <;> rfl

/-- A node that adds up the events of two inputs. -/
def adder : Node := ⟨1, .apply .addition .integer⟩

/-- The queue of the first input fills up while nothing arrives on the second. -/
theorem inputQueue_isFifo_of_adder : ∃ m σ, adder.leafModule ⟨5, 2⟩ = .ok m ∧ m.Obeyed σ ∧
    (∀ t, isArriving σ 0 t = true ∧ isArriving σ 1 t = false) ∧
    m.isBracketed ∧ held σ 2 0 0 = [] ∧ ∀ t, FifoAt σ 2 0 t := by
  obtain ⟨σ, hσ, hinputs⟩ := Node.exists_run (n := adder) (s := ⟨5, 2⟩) rfl
    (fun _ t => .number ((t + 3) % 5)) (fun j _ => .truth (j == 0))
  refine ⟨_, σ, rfl, hσ, fun t => ⟨?_, ?_⟩,
    inputQueue_isFifo (n := adder) (s := ⟨5, 2⟩) (j := 0) rfl hσ (by decide) (by decide)⟩
  · exact congrArg Value.isTrue (hinputs 0 t).2
  · exact congrArg Value.isTrue (hinputs 1 t).2

end StreamCheck.Network.Queue
