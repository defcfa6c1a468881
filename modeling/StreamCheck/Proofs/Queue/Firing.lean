import Mathlib.Order.Bounds.Defs
import Mathlib.Tactic.Push
import StreamCheck.Proofs.Queue.Fifo

/-! Firing: a node with several inputs fires as soon as each of them has an event to offer, so some queue
is always empty, and the events of the inputs are taken rank by rank. -/

namespace StreamCheck.Network.Queue
open Smv

/-- An event arrives on input `j` and is not dropped. -/
def accepts (σ : Trace) (q j t : Nat) : Bool :=
  isArriving σ j t && !((held σ q j t).length == q && !fires σ t)

def accepted (σ : Trace) (q j : Nat) : Nat → List Value
  | 0 => []
  | t + 1 => accepted σ q j t ++ if accepts σ q j t then [incoming σ j t] else []

def firings (σ : Trace) : Nat → Nat
  | 0 => 0
  | t + 1 => firings σ t + if fires σ t then 1 else 0

def consumed (σ : Trace) (j : Nat) : Nat → List Value
  | 0 => []
  | t + 1 => consumed σ j t ++ if fires σ t then [(front j).eval (σ t)] else []

theorem length_consumed (σ : Trace) (j t : Nat) : (consumed σ j t).length = firings σ t := by
  induction t with
  | zero => rfl
  | succ t ih =>
    rw [consumed, firings, List.length_append, ih]
    cases fires σ t <;> rfl

/-- A step of the bounded queue loses no event but one that finds it full, and adds none. -/
theorem append_accepted_eq {q : Nat} {f a : Bool} {x : Value} {stored : List Value}
    (hf : f = true → (!stored.isEmpty || a) = true) (hle : stored.length ≤ q) :
    stored ++ (if a && !(stored.length == q && !f) then [x] else []) =
      (if f then [stored.headD x] else []) ++ advance q f a x stored := by
  cases f <;> cases a
  case false.false => simp [advance]
  case false.true =>
    by_cases hfull : stored.length = q
    · simp [advance, hfull]
    · simp [advance, hfull, Nat.lt_of_le_of_ne hle hfull]
  case true.false =>
    cases stored with
    | nil => simp at hf
    | cons y ys => simp [advance]
  case true.true =>
    cases stored with
    | nil => simp [advance]
    | cons y ys => simp [advance]

section Run
variable {s : Sizes} {types : List PortType} {σ : Trace} (h : (circuits s types).Obeyed σ)
  (hq : 0 < s.queue)
include h hq

theorem fires_iff (t : Nat) : fires σ t = true ↔ ∀ j < types.length,
    (!(held σ s.queue.toNat j t).isEmpty || isArriving σ j t) = true := by
  rw [fires, ready_of_circuits h t, Expr.isTrue_eval_conj, List.all_map, List.all_eq_true]
  refine forall_congr' fun j => ?_
  rw [List.mem_range]
  refine forall_congr' fun hj => ?_
  rw [Function.comp, available_eval (obeyed_of_circuits h (List.getElem?_eq_getElem hj)) hq t]
  rfl

/-- What an input has accepted is what the firings took from it and then what its queue stores. -/
theorem accepted_eq {j : Nat} (hj : j < types.length) (t : Nat) :
    accepted σ s.queue.toNat j t = consumed σ j t ++ held σ s.queue.toNat j t := by
  have hc := obeyed_of_circuits h (List.getElem?_eq_getElem hj)
  induction t with
  | zero => rw [accepted, consumed, held_zero hc, List.append_nil]
  | succ t ih =>
    have hle : (held σ s.queue.toNat j t).length ≤ s.queue.toNat := by
      rw [length_held]
      exact (marks_load hc t).1
    have hstep := append_accepted_eq (x := incoming σ j t)
      (fun hf => (fires_iff h hq t).mp hf j hj) hle
    rw [accepted, accepts, ih, List.append_assoc, hstep, consumed, held_succ hc,
      front_eval hc hq, List.append_assoc]

theorem firings_le_length_accepted {j : Nat} (hj : j < types.length) (t : Nat) :
    firings σ t ≤ (accepted σ s.queue.toNat j t).length := by
  rw [accepted_eq h hq hj, List.length_append, length_consumed]
  exact Nat.le_add_right _ _

/-- If the node fires, the input whose queue is empty gets an event that goes straight through; if it does
not, some input has nothing to offer. -/
theorem exists_held_eq_nil (hn : 0 < types.length) (t : Nat) :
    ∃ j < types.length, held σ s.queue.toNat j t = [] := by
  induction t with
  | zero => exact ⟨0, hn, held_zero (obeyed_of_circuits h (List.getElem?_eq_getElem hn))⟩
  | succ t ih =>
    cases hf : fires σ t with
    | true =>
      obtain ⟨j, hj, hempty⟩ := ih
      have ha := (fires_iff h hq t).mp hf j hj
      refine ⟨j, hj, ?_⟩
      rw [held_succ (obeyed_of_circuits h (List.getElem?_eq_getElem hj)), hempty, hf]
      rw [hempty] at ha
      simp only [List.isEmpty_nil, Bool.not_true, Bool.false_or] at ha
      simp [advance, ha]
    | false =>
      have hnot : ¬ ∀ j < types.length,
          (!(held σ s.queue.toNat j t).isEmpty || isArriving σ j t) = true := by
        rw [← fires_iff h hq t, hf]
        exact Bool.false_ne_true
      push Not at hnot
      obtain ⟨j, hj, hnone⟩ := hnot
      rw [ne_eq, Bool.not_eq_true, Bool.or_eq_false_iff, Bool.not_eq_false', List.isEmpty_iff] at hnone
      refine ⟨j, hj, ?_⟩
      rw [held_succ (obeyed_of_circuits h (List.getElem?_eq_getElem hj)), hf, hnone.1, hnone.2]
      rfl

end Run

/-- In every run of a node with inputs some queue is empty, the node has fired as often as the input with
the fewest accepted events allows, and each firing takes the event of its rank from every input. -/
theorem firings_pair_accepted {n : Node} {s : Sizes} {m : Module} {σ : Trace}
    (hm : n.leafModule s = .ok m) (hσ : m.Obeyed σ) (hq : 0 < s.queue) (hn : 0 < n.inputArity)
    (t : Nat) :
    (∃ j < n.inputArity, held σ s.queue.toNat j t = []) ∧
      (n.inputArity = 1 → held σ s.queue.toNat 0 t = []) ∧
      IsLeast {k | ∃ j < n.inputArity, k = (accepted σ s.queue.toNat j t).length} (firings σ t) ∧
      (fires σ t = true → ∀ j < n.inputArity,
        (accepted σ s.queue.toNat j (t + 1))[firings σ t]? = some ((front j).eval (σ t))) := by
  have h := (Node.leafModule_parts hm hσ).1
  obtain ⟨j, hj, hempty⟩ := exists_held_eq_nil h hq hn t
  refine ⟨⟨j, hj, hempty⟩, fun hone => ?_, ⟨⟨j, hj, ?_⟩, ?_⟩, fun hf i hi => ?_⟩
  · obtain rfl : j = 0 := Nat.lt_one_iff.mp (hone ▸ hj)
    exact hempty
  · rw [accepted_eq h hq hj, hempty, List.append_nil, length_consumed]
  · rintro k ⟨i, hi, rfl⟩
    exact firings_le_length_accepted h hq hi t
  · rw [accepted_eq h hq hi, consumed, hf, ← length_consumed σ i t, if_pos rfl, List.append_assoc,
      List.getElem?_append_right (Nat.le_refl _), Nat.sub_self]
    rfl

/-- An adder whose first input gets an event at every moment and whose second at every third. -/
theorem firings_pair_accepted_of_adder : ∃ m σ, adder.leafModule ⟨5, 2⟩ = .ok m ∧ m.Obeyed σ ∧
    (∀ t, isArriving σ 0 t = true ∧ isArriving σ 1 t = (t % 3 == 0)) ∧ ∀ t,
    (∃ j < 2, held σ 2 j t = []) ∧ (2 = 1 → held σ 2 0 t = []) ∧
      IsLeast {k | ∃ j < 2, k = (accepted σ 2 j t).length} (firings σ t) ∧
      (fires σ t = true → ∀ j < 2,
        (accepted σ 2 j (t + 1))[firings σ t]? = some ((front j).eval (σ t))) := by
  obtain ⟨σ, hσ, hinputs⟩ := Node.exists_run (n := adder) (s := ⟨5, 2⟩) rfl
    (fun _ t => .number ((t + 3) % 5)) (fun j t => .truth (j == 0 || t % 3 == 0))
  refine ⟨_, σ, rfl, hσ, fun t => ⟨?_, ?_⟩,
    fun t => firings_pair_accepted (n := adder) (s := ⟨5, 2⟩) rfl hσ (by decide) (by decide) t⟩
  · exact congrArg Value.isTrue (hinputs 0 t).2
  · exact congrArg Value.isTrue (hinputs 1 t).2

end StreamCheck.Network.Queue
