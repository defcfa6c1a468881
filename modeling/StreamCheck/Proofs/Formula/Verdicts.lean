import StreamCheck.Formula.Basic
import StreamCheck.Proofs.Network.Stream
import StreamCheck.Proofs.Smv.Evaluation
import StreamCheck.Smv.Run

/-! When a formula is true of a model, and what formulas say of its runs: that no queue is ever full, that two pipes
agree, or that a pipe carries nothing but the value true. -/

namespace StreamCheck
open Smv Network

/-- The formula is true of the model; where there is nothing to state it always is. -/
def Formula.TrueOf (f : Formula) (m : Model) : Prop := ∀ t ∈ f.statement?, m.Satisfies t

def outgoing (pipe : Int) : Wire := (.own (.pipeOutValue pipe), .own (.pipeOutFire pipe))

def incoming (pipe : Int) : Wire := (.own (.pipeInValue pipe), .own (.pipeInFire pipe))

namespace Formula
variable {m : Model}

theorem trueOf_iff {f : Formula} {t : Temporal} (h : f.statement? = some t) :
    f.TrueOf m ↔ ∀ σ, m.IsRun σ → t.Holds m.IsRun σ 0 := by
  rw [TrueOf, h]
  constructor
  · exact fun hall => hall t rfl
  · rintro hall t' ht'
    obtain rfl := Option.some.inj ht'
    exact hall

/-! ### Full queues -/

theorem isTrue_eval_foldl_or {s : State} (es : List Expr) (e : Expr) :
    ((es.foldl (.binary .or) e).eval s).isTrue = ((e :: es).any fun x => (x.eval s).isTrue) := by
  induction es generalizing e with
  | nil => rw [List.foldl_nil, List.any_cons, List.any_nil, Bool.or_false]
  | cons x xs ih =>
    rw [List.foldl_cons, ih, List.any_cons, List.any_cons, List.any_cons, ← Bool.or_assoc]
    rfl

theorem isTrue_eval_someFull {s : State} (q : QueueFlags) (qs : List QueueFlags) :
    ((someFull q qs).eval s).isTrue = true ↔ ∃ f ∈ q :: qs, (f.full.eval s).isTrue = true := by
  rw [someFull, isTrue_eval_foldl_or, ← List.map_cons, List.any_map, List.any_eq_true]
  rfl

theorem mem_byName {f : QueueFlags} {flags : List QueueFlags} : f ∈ byName flags ↔ f ∈ flags :=
  List.mem_mergeSort

theorem statement?_noFullQueues {flags qs : List QueueFlags} {q : QueueFlags} (h : byName flags = q :: qs) :
    (noFullQueues flags).statement? = some (.not (.paren (.possibly (.paren (.now (someFull q qs)))))) := by
  simp only [statement?, h]

theorem statement?_noFullQueues_of_nil {flags : List QueueFlags} (h : byName flags = []) :
    (noFullQueues flags).statement? = none := by
  simp only [statement?, h]

/-- No queue is ever full exactly when in no state of any run some last flag is set. -/
theorem noFullQueues_trueOf_iff {flags : List QueueFlags} : (noFullQueues flags).TrueOf m ↔
    ∀ σ, m.IsRun σ → ∀ t, ∀ f ∈ flags, ¬ (f.full.eval (σ t)).isTrue = true := by
  cases hflags : byName flags with
  | nil =>
    have hnone (f : QueueFlags) : f ∉ flags := by
      rw [← mem_byName, hflags]
      exact List.not_mem_nil
    rw [TrueOf, statement?_noFullQueues_of_nil hflags]
    exact ⟨fun _ σ _ t f hf => absurd hf (hnone f), fun _ t ht => nomatch ht⟩
  | cons q qs =>
    rw [trueOf_iff (statement?_noFullQueues hflags)]
    constructor
    · intro hall σ hσ t f hf hfull
      rw [← mem_byName, hflags] at hf
      exact hall σ hσ ⟨σ, hσ, fun _ _ => rfl, t, Nat.zero_le t, (isTrue_eval_someFull q qs).2 ⟨f, hf, hfull⟩⟩
    · rintro hall σ - ⟨τ, hτ, -, t, -, hfull⟩
      obtain ⟨f, hf, hfull⟩ := (isTrue_eval_someFull q qs).1 hfull
      rw [← hflags, mem_byName] at hf
      exact hall τ hτ t f hf hfull

/-! ### Two pipes -/

theorem ascending_pair {a b : Int} (h : a ≤ b) : ascending [a, b] = [a, b] := by
  refine List.mergeSort_of_pairwise ?_
  simpa using h

theorem stepEquivalence_trueOf_iff {a b : Int} (h : a ≤ b) : (stepEquivalence [a, b]).TrueOf m ↔
    ∀ σ, m.IsRun σ → ∀ t, ((outgoing a).stream σ t).2 = ((outgoing b).stream σ t).2 ∧
      (((outgoing a).stream σ).fires t = true →
        ((outgoing a).stream σ).value t = ((outgoing b).stream σ).value t) := by
  have hstatement : (stepEquivalence [a, b]).statement? = some (agree a b) := by
    simp only [statement?, ascending_pair h]
    rfl
  rw [trueOf_iff hstatement]
  refine forall_congr' fun σ => forall_congr' fun hσ => ?_
  have hnow (t : Nat) : Temporal.Holds m.IsRun (.paren (.now (.binary .and (.binary .eq (fires a) (fires b))
      (.paren (.binary .implies (fires a) (.binary .eq (value a) (value b))))))) σ t ↔
      ((outgoing a).stream σ t).2 = ((outgoing b).stream σ t).2 ∧
        (((outgoing a).stream σ).fires t = true →
          ((outgoing a).stream σ).value t = ((outgoing b).stream σ).value t) := by
    change (decide (((outgoing a).stream σ t).2 = ((outgoing b).stream σ t).2) &&
      (!((outgoing a).stream σ).fires t ||
        decide (((outgoing a).stream σ).value t = ((outgoing b).stream σ).value t))) = true ↔ _
    cases ((outgoing a).stream σ).fires t <;> simp
  exact ⟨fun hall t => (hnow t).1 (hall t (Nat.zero_le t)), fun hall t _ => (hnow t).2 (hall t)⟩

theorem stepEquivalence_trueOf_iff_agree {a b : Int} (h : a ≤ b)
    (hclean : ∀ σ, m.IsRun σ → ((outgoing a).stream σ).clean = (outgoing a).stream σ ∧
      ((outgoing b).stream σ).clean = (outgoing b).stream σ) :
    (stepEquivalence [a, b]).TrueOf m ↔
      ∀ σ, m.IsRun σ → ((outgoing a).stream σ).Agree ((outgoing b).stream σ) := by
  rw [stepEquivalence_trueOf_iff h]
  refine forall_congr' fun σ => forall_congr' fun hσ => forall_congr' fun t => and_congr_left' ?_
  obtain ⟨ha, hb⟩ := hclean σ hσ
  rw [← ha, ← hb]
  exact ⟨fun heq => congrArg Value.isTrue heq, fun heq => congrArg Value.truth heq⟩

/-! ### One pipe -/

theorem sequenceEquivalence_trueOf_iff {a : Int} : (sequenceEquivalence [a]).TrueOf m ↔
    ∀ σ, m.IsRun σ → ∀ t, ((outgoing a).stream σ).fires t = true →
      (((outgoing a).stream σ).value t).isTrue = true := by
  have hstatement : (sequenceEquivalence [a]).statement? = some (carriesTrue a) := by
    simp only [statement?, ascending, List.mergeSort_singleton]
    rfl
  rw [trueOf_iff hstatement]
  refine forall_congr' fun σ => forall_congr' fun hσ => ?_
  have hnow (t : Nat) : Temporal.Holds m.IsRun (.paren (.now (.binary .implies (fires a) (value a)))) σ t ↔
      (((outgoing a).stream σ).fires t = true → (((outgoing a).stream σ).value t).isTrue = true) := by
    change (!((outgoing a).stream σ).fires t || (((outgoing a).stream σ).value t).isTrue) = true ↔ _
    cases ((outgoing a).stream σ).fires t <;> simp
  exact ⟨fun hall t => (hnow t).1 (hall t (Nat.zero_le t)), fun hall t _ => (hnow t).2 (hall t)⟩

theorem outputAlwaysEven_trueOf_iff {a : Int} : (outputAlwaysEven [a]).TrueOf m ↔
    ∀ σ, m.IsRun σ → ∀ t, ((outgoing a).stream σ).fires t = true →
      (((outgoing a).stream σ).value t).toInt % 2 = 0 := by
  have hstatement : (outputAlwaysEven [a]).statement? = some (carriesEven a) := by
    simp only [statement?, ascending, List.mergeSort_singleton]
    rfl
  rw [trueOf_iff hstatement]
  have hnow (σ : Trace) (t : Nat) : Temporal.Holds m.IsRun (.paren (.now (.binary .implies (fires a)
      (.binary .eq (.binary .mod (value a) (.num 2)) (.num 0))))) σ t ↔
      (((outgoing a).stream σ).fires t = true → (((outgoing a).stream σ).value t).toInt % 2 = 0) := by
    change (!((outgoing a).stream σ).fires t ||
      decide (Value.number ((((outgoing a).stream σ).value t).toInt % 2) = .number 0)) = true ↔ _
    cases ((outgoing a).stream σ).fires t <;> simp
  constructor
  · intro hall σ hσ t
    exact (hnow σ t).1 (hall σ hσ σ hσ (fun _ _ => rfl) t (Nat.zero_le t))
  · intro hall _ _ σ hσ _ t _
    exact (hnow σ t).2 (hall σ hσ t)

end Formula
end StreamCheck
