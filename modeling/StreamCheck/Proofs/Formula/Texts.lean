import Mathlib.Data.List.Pairwise
import StreamCheck.Proofs.Circuit.Bracketing
import StreamCheck.Proofs.Formula.Typing
import StreamCheck.Proofs.Smv.Ltl

/-! What the texts of formulas say, for any number of pipes: they are read as statements of linear time, and of
these it is told when they hold. -/

namespace StreamCheck
open Smv

/-! ### Statements that are read back -/

namespace Smv

theorem Expr.isSome_ltl?_foldl_and {es : List Expr} (h : ∀ e ∈ es, e.ltl?.isSome = true) {e : Expr}
    (he : e.ltl?.isSome = true) : (es.foldl (binary .and) e).ltl?.isSome = true := by
  induction es generalizing e with
  | nil => exact he
  | cons x xs ih =>
    obtain ⟨hx, hxs⟩ := List.forall_mem_cons.1 h
    obtain ⟨α, hα⟩ := Option.isSome_iff_exists.1 he
    obtain ⟨β, hβ⟩ := Option.isSome_iff_exists.1 hx
    refine ih hxs ?_
    rw [ltl?, if_pos (by decide), hα, hβ]
    rfl

namespace Temporal

/-- A statement of linear time is read back from its text, and binds at least so tightly. -/
structure Readable (level : Nat) (t : Temporal) : Prop where
  level_le : level ≤ t.level
  isBracketed : t.isBracketed = true
  isSome_ltl? : t.ltl?.isSome = true

variable {ts : List Temporal} {t : Temporal} {runs : Trace → Prop} {σ : Trace} {n : Nat}

theorem Readable.foldl_and (h : ∀ x ∈ ts, Readable 5 x) (ht : Readable 4 t) : Readable 4 (ts.foldl and t) := by
  induction ts generalizing t with
  | nil => exact ht
  | cons x xs ih =>
    obtain ⟨hx, hxs⟩ := List.forall_mem_cons.1 h
    obtain ⟨α, hα⟩ := Option.isSome_iff_exists.1 ht.isSome_ltl?
    obtain ⟨β, hβ⟩ := Option.isSome_iff_exists.1 hx.isSome_ltl?
    refine ih hxs ⟨Nat.le_refl 4, ?_, ?_⟩
    · simp [Temporal.isBracketed, ht.level_le, ht.isBracketed, hx.level_le, hx.isBracketed]
    · rw [ltl?, hα, hβ]
      rfl

theorem holds_foldl_and : (ts.foldl and t).Holds runs σ n ↔ ∀ x ∈ t :: ts, x.Holds runs σ n := by
  induction ts generalizing t with
  | nil => rw [List.foldl_nil, List.forall_mem_singleton]
  | cons x xs ih =>
    rw [List.foldl_cons, ih, List.forall_mem_cons, List.forall_mem_cons, List.forall_mem_cons, Holds, and_assoc]

end Temporal
end Smv

/-! ### Records -/

namespace Smv.Record

def Arrives (σ : Record) (pipe : Int) (t : Nat) : Prop := (σ t (Name.pipeInFire pipe).text).isTrue = true

def Leaves (σ : Record) (pipe : Int) (t : Nat) : Prop := (σ t (Name.pipeOutFire pipe).text).isTrue = true

def carried (σ : Record) (pipe : Int) (t : Nat) : Value := σ t (Name.pipeOutValue pipe).text

def Fits (σ : Record) : Prop := ∀ (pipe : Int) (t : Nat), (σ t (Name.pipeOutFire pipe).text).Fits .boolean

/-- Two pipes fire together at all moments, and then carry the same. -/
def Agree (σ : Record) (m n : Int) : Prop :=
  ∀ t, (σ.Leaves m t ↔ σ.Leaves n t) ∧ (σ.Leaves m t → σ.carried m t = σ.carried n t)

theorem Agree.refl {σ : Record} (n : Int) : σ.Agree n n := fun _ => ⟨Iff.rfl, fun _ => rfl⟩

instance {σ : Record} : Std.Symm σ.Agree where
  symm _ _ h t := ⟨(h t).1.symm, fun hleaves => ((h t).2 ((h t).1.2 hleaves)).symm⟩

def trace (σ : Record) : Trace := fun t => State.ofTexts (σ t)

theorem trace_own (σ : Record) (t : Nat) (x : Name) : (Expr.own x).eval (σ.trace t) = σ t x.text := by
  have htext : (Ref.own x).text = x.text := String.toList_injective (Ref.toList_text_nil x)
  rw [Expr.own, Expr.eval, trace, State.ofTexts, htext]

end Smv.Record

namespace Formula
variable {f : Formula} {σ : Record} {inputs outputs : List Int} {response : Int → Temporal}

/-- The text of a formula says something of records. -/
def Says (f : Formula) (P : Record → Prop) : Prop :=
  ∃ φ, Ltl.read? f.text = some φ ∧ ∀ σ : Record, σ.Fits → (φ.Holds σ ↔ P σ)

theorem says_of_conj {ts : List Temporal} (hf : f.statement? = Temporal.conj? ts) (h : ∀ t ∈ ts, t.Readable 5)
    {P : Record → Prop}
    (hP : ∀ σ : Record, σ.Fits → ((∀ t ∈ ts, t.Holds (fun _ => True) σ.trace 0) ↔ P σ)) : f.Says P := by
  cases ts with
  | nil =>
    have htext : f.text = "TRUE" := by
      rw [text, hf]
      rfl
    have hread : Ltl.read? "TRUE" = some (.truth true) := by decide +kernel
    refine ⟨_, htext ▸ hread, fun σ hσ => ?_⟩
    rw [← hP σ hσ]
    exact ⟨fun _ _ ht => (List.not_mem_nil ht).elim, fun _ => rfl⟩
  | cons t ts =>
    obtain ⟨ht, hts⟩ := List.forall_mem_cons.1 h
    have hwhole : (ts.foldl Temporal.and t).Readable 4 :=
      Temporal.Readable.foldl_and hts ⟨Nat.le_trans (by decide) ht.level_le, ht.isBracketed, ht.isSome_ltl?⟩
    obtain ⟨φ, hφ⟩ := Option.isSome_iff_exists.1 hwhole.isSome_ltl?
    have htext : f.text = (ts.foldl Temporal.and t).text ++ ";" := by
      rw [text, hf]
      rfl
    refine ⟨φ, ?_, fun σ hσ => ?_⟩
    · rw [htext, (Temporal.written hwhole.isBracketed hφ).read?_eq.2]
    · rw [← hP σ hσ, ← Temporal.holds_foldl_and]
      exact Temporal.isTrue_value_of_ltl? hφ σ 0

/-! ### Arrivals and answers -/

theorem isTrue_eval_allArrive {pipes : List Int} {t : Nat} :
    ((allArrive pipes).eval (σ.trace t)).isTrue = true ↔ ∀ n ∈ pipes, σ.Arrives n t := by
  have harrives (n : Int) : ((arrives n).eval (σ.trace t)).isTrue = true ↔ σ.Arrives n t := by
    rw [arrives, Record.trace_own, Record.Arrives]
  match pipes with
  | [] => exact ⟨fun _ _ hn => (List.not_mem_nil hn).elim, fun _ => rfl⟩
  | [n] => rw [allArrive, harrives, List.forall_mem_singleton]
  | n :: n' :: ns =>
    change ((Expr.conj ((n :: n' :: ns).map arrives)).eval (σ.trace t)).isTrue = true ↔ _
    rw [Expr.isTrue_eval_conj, List.all_map, List.all_eq_true]
    exact forall₂_congr fun n _ => harrives n

theorem readable_allArrive (pipes : List Int) : 2 ≤ (allArrive pipes).level ∧ (allArrive pipes).isBracketed = true ∧
    (allArrive pipes).ltl?.isSome = true := by
  have hoperand : 2 ≤ 9 := by decide
  match pipes with
  | [] => exact ⟨hoperand, rfl, rfl⟩
  | [n] => exact ⟨hoperand, rfl, rfl⟩
  | n :: n' :: ns =>
    refine ⟨hoperand, Expr.isBracketed_conj ?_, Expr.isSome_ltl?_foldl_and ?_ rfl⟩
    · exact List.forall_mem_map.2 fun m _ => ⟨Nat.le_of_ble_eq_true rfl, rfl⟩
    · exact List.forall_mem_map.2 fun m _ => rfl

theorem readable_whenever (inputs : List Int) {response : Temporal} (h : response.Readable 1) :
    (whenever inputs response).Readable 5 := by
  obtain ⟨hlevel, hbracketed, hltl⟩ := readable_allArrive (ascending inputs)
  obtain ⟨α, hα⟩ := Option.isSome_iff_exists.1 hltl
  obtain ⟨β, hβ⟩ := Option.isSome_iff_exists.1 h.isSome_ltl?
  refine ⟨Nat.le_of_ble_eq_true rfl, ?_, ?_⟩
  · have hnow : 2 ≤ (Temporal.now (allArrive (ascending inputs))).level := hlevel
    have hparen : 8 ≤ (Temporal.paren (.implies (.now (allArrive (ascending inputs))) response)).level :=
      Nat.le_of_ble_eq_true rfl
    simp [whenever, Temporal.isBracketed, hnow, hparen, hbracketed, h.level_le, h.isBracketed]
  · rw [whenever, Temporal.ltl?, Temporal.ltl?, Temporal.ltl?, Temporal.ltl?, hα, hβ]
    rfl

theorem holds_whenever {response : Temporal} {runs : Trace → Prop} : (whenever inputs response).Holds runs σ.trace 0 ↔
    ∀ t, (∀ n ∈ inputs, σ.Arrives n t) → response.Holds runs σ.trace t := by
  have hnow (t : Nat) : ((allArrive (ascending inputs)).eval (σ.trace t)).isTrue = true ↔ ∀ n ∈ inputs, σ.Arrives n t := by
    rw [isTrue_eval_allArrive]
    exact forall_congr' fun n => imp_congr_left mem_ascending
  constructor
  · exact fun h t harrive => h t (Nat.zero_le t) ((hnow t).2 harrive)
  · exact fun h t _ harrive => h t ((hnow t).1 harrive)

theorem says_whenever (hf : f.statement? = Temporal.conj? ((ascending outputs).map fun n => whenever inputs (response n)))
    (hresponse : ∀ n, (response n).Readable 1) {P : Record → Int → Nat → Prop}
    (hP : ∀ (σ : Record) n t, (response n).Holds (fun _ => True) σ.trace t ↔ P σ n t) :
    f.Says fun σ => ∀ t, (∀ n ∈ inputs, σ.Arrives n t) → ∀ n ∈ outputs, P σ n t := by
  refine says_of_conj hf (List.forall_mem_map.2 fun n _ => readable_whenever inputs (hresponse n)) fun σ _ => ?_
  rw [List.forall_mem_map]
  constructor
  · intro h t harrive n hn
    exact (hP σ n t).1 (holds_whenever.1 (h n (mem_ascending.2 hn)) t harrive)
  · intro h n hn
    exact holds_whenever.2 fun t harrive => (hP σ n t).2 (h t harrive n (mem_ascending.1 hn))

theorem isTrue_eval_fires {n : Int} {t : Nat} : ((fires n).eval (σ.trace t)).isTrue = true ↔ σ.Leaves n t := by
  rw [fires, Record.trace_own, Record.Leaves]

theorem eval_value {n : Int} {t : Nat} : (value n).eval (σ.trace t) = σ.carried n t := by
  rw [value, Record.trace_own, Record.carried]

theorem says_liveness (inputs outputs : List Int) : (liveness inputs outputs).Says fun σ =>
    ∀ t, (∀ n ∈ inputs, σ.Arrives n t) → ∀ n ∈ outputs, ∃ u, t ≤ u ∧ σ.Leaves n u := by
  refine says_whenever rfl (fun n => ⟨Nat.le_of_ble_eq_true rfl, rfl, rfl⟩) fun σ n t => ?_
  exact exists_congr fun u => and_congr_right fun _ => isTrue_eval_fires

theorem says_boundedLiveness (inputs outputs : List Int) : (boundedLiveness inputs outputs).Says fun σ =>
    ∀ t, (∀ n ∈ inputs, σ.Arrives n t) → ∀ n ∈ outputs, ∃ u, t ≤ u ∧ u ≤ t + 2 ∧ σ.Leaves n u := by
  refine says_whenever rfl (fun n => ⟨Nat.le_of_ble_eq_true rfl, rfl, rfl⟩) fun σ n t => ?_
  change ((fires n).eval (σ.trace t)).isTrue = true ∨ ((fires n).eval (σ.trace (t + 1))).isTrue = true ∨
    ((fires n).eval (σ.trace (t + 1 + 1))).isTrue = true ↔ _
  rw [isTrue_eval_fires, isTrue_eval_fires, isTrue_eval_fires]
  constructor
  · rintro (h | h | h)
    · exact ⟨t, Nat.le_refl t, Nat.le_add_right t 2, h⟩
    · exact ⟨t + 1, Nat.le_succ t, Nat.le_succ _, h⟩
    · exact ⟨t + 2, Nat.le_add_right t 2, Nat.le_refl _, h⟩
  · rintro ⟨u, hle, hlast, h⟩
    obtain rfl | rfl | rfl : u = t ∨ u = t + 1 ∨ u = t + 2 := by omega
    · exact .inl h
    · exact .inr (.inl h)
    · exact .inr (.inr h)

/-! ### What is carried -/

theorem says_carriesTrue (hf : f.statement? = Temporal.conj? ((ascending outputs).map carriesTrue)) :
    f.Says fun σ => ∀ t, ∀ n ∈ outputs, σ.Leaves n t → (σ.carried n t).isTrue = true := by
  refine says_of_conj hf (List.forall_mem_map.2 fun n _ => ⟨Nat.le_of_ble_eq_true rfl, rfl, rfl⟩) fun σ _ => ?_
  have hnow (n : Int) (t : Nat) : ((Expr.binary .implies (fires n) (value n)).eval (σ.trace t)).isTrue = true ↔
      (σ.Leaves n t → (σ.carried n t).isTrue = true) := by
    rw [← isTrue_eval_fires, ← eval_value]
    change (!((fires n).eval (σ.trace t)).isTrue || ((value n).eval (σ.trace t)).isTrue) = true ↔ _
    cases ((fires n).eval (σ.trace t)).isTrue <;> simp
  rw [List.forall_mem_map]
  constructor
  · exact fun h t n hn => (hnow n t).1 (h n (mem_ascending.2 hn) t (Nat.zero_le t))
  · exact fun h n hn t _ => (hnow n t).2 (h t n (mem_ascending.1 hn))

/-! ### Agreement -/

theorem holds_agree (h : σ.Fits) {runs : Trace → Prop} {m n : Int} :
    (agree m n).Holds runs σ.trace 0 ↔ σ.Agree m n := by
  have hfires (k : Int) (t : Nat) : ∃ b, (fires k).eval (σ.trace t) = .truth b ∧ (b = true ↔ σ.Leaves k t) := by
    have hfits := h k t
    rw [fires, Record.trace_own, Record.Leaves]
    cases hvalue : σ t (Name.pipeOutFire k).text with
    | truth b => exact ⟨b, rfl, Iff.rfl⟩
    | number i => exact (hvalue ▸ hfits).elim
  have hnow (t : Nat) : ((Expr.binary .and (.binary .eq (fires m) (fires n))
      (.paren (.binary .implies (fires m) (.binary .eq (value m) (value n))))).eval (σ.trace t)).isTrue = true ↔
      (σ.Leaves m t ↔ σ.Leaves n t) ∧ (σ.Leaves m t → σ.carried m t = σ.carried n t) := by
    obtain ⟨a, ha, hm⟩ := hfires m t
    obtain ⟨b, hb, hn⟩ := hfires n t
    change (decide ((fires m).eval (σ.trace t) = (fires n).eval (σ.trace t)) &&
      (!((fires m).eval (σ.trace t)).isTrue ||
        decide ((value m).eval (σ.trace t) = (value n).eval (σ.trace t)))) = true ↔ _
    rw [ha, hb, ← hm, ← hn, eval_value, eval_value]
    cases a <;> cases b <;> simp [Value.isTrue]
  exact ⟨fun hall t => (hnow t).1 (hall t (Nat.zero_le t)), fun hall t _ => (hnow t).2 (hall t)⟩

theorem forall_mem_pairwiseAgree {pipes : List Int} {p : Temporal → Prop} :
    (∀ t ∈ pairwiseAgree pipes, p t) ↔ pipes.Pairwise fun m n => p (agree m n) := by
  induction pipes with
  | nil => exact ⟨fun _ => .nil, fun _ _ ht => (List.not_mem_nil ht).elim⟩
  | cons m ms ih => rw [pairwiseAgree, List.forall_mem_append, List.forall_mem_map, ih, List.pairwise_cons]

/-- As agreement is symmetric, it is enough that every pipe agrees with those that are listed behind it. -/
theorem says_stepEquivalence (outputs : List Int) : (stepEquivalence outputs).Says fun σ =>
    ∀ t, (∀ n ∈ outputs, ¬ σ.Leaves n t) ∨
      ((∀ n ∈ outputs, σ.Leaves n t) ∧ ∀ m ∈ outputs, ∀ n ∈ outputs, σ.carried m t = σ.carried n t) := by
  refine says_of_conj rfl ?_ fun σ hσ => ?_
  · rw [forall_mem_pairwiseAgree]
    exact List.pairwise_of_forall fun m n => ⟨Nat.le_of_ble_eq_true rfl, rfl, rfl⟩
  · have hpairs : (ascending outputs).Pairwise σ.Agree ↔ ∀ m ∈ outputs, ∀ n ∈ outputs, σ.Agree m n := by
      simp only [← @mem_ascending _ outputs]
      exact ⟨List.Pairwise.forall_of_forall fun n _ => Record.Agree.refl n, List.pairwise_of_forall_mem_list⟩
    rw [forall_mem_pairwiseAgree, List.Pairwise.iff (fun _ _ => holds_agree hσ), hpairs]
    constructor
    · intro h t
      by_cases hnone : ∀ n ∈ outputs, ¬ σ.Leaves n t
      · exact .inl hnone
      · push Not at hnone
        obtain ⟨m, hm, hleaves⟩ := hnone
        have hall : ∀ n ∈ outputs, σ.Leaves n t := fun n hn => (h m hm n hn t).1.1 hleaves
        exact .inr ⟨hall, fun m' hm' n hn => (h m' hm' n hn t).2 (hall m' hm')⟩
    · intro h m hm n hn t
      obtain hnone | ⟨hall, hcarried⟩ := h t
      · exact ⟨iff_of_false (hnone m hm) (hnone n hn), fun hleaves => absurd hleaves (hnone m hm)⟩
      · exact ⟨iff_of_true (hall m hm) (hall n hn), fun _ => hcarried m hm n hn⟩

theorem text_stepEquivalence_of_lt (h : outputs.length < 2) : (stepEquivalence outputs).text = "TRUE" := by
  have hlength : (ascending outputs).length < 2 := by rwa [ascending, List.length_mergeSort]
  have hnone : (stepEquivalence outputs).statement? = none := by
    rw [statement?]
    rcases hpipes : ascending outputs with _ | ⟨n, _ | ⟨m, ns⟩⟩
    · rfl
    · rfl
    · simp only [hpipes, List.length_cons] at hlength
      omega
  rw [text, hnone]

/-- Whatever the pipes, the texts of the formulas over single runs are read as statements of linear time, and these
hold of what their names say: that arrivals are answered, now or later or within two moments; that nothing leaves
but the value true; or that events leave on all of the outputs at once and carry the same. -/
theorem texts_say (inputs outputs : List Int) :
    (liveness inputs outputs).Says (fun σ =>
      ∀ t, (∀ n ∈ inputs, σ.Arrives n t) → ∀ n ∈ outputs, ∃ u, t ≤ u ∧ σ.Leaves n u) ∧
    (boundedLiveness inputs outputs).Says (fun σ =>
      ∀ t, (∀ n ∈ inputs, σ.Arrives n t) → ∀ n ∈ outputs, ∃ u, t ≤ u ∧ u ≤ t + 2 ∧ σ.Leaves n u) ∧
    (outputAlwaysTrue outputs).Says (fun σ =>
      ∀ t, ∀ n ∈ outputs, σ.Leaves n t → (σ.carried n t).isTrue = true) ∧
    (sequenceEquivalence outputs).Says (fun σ =>
      ∀ t, ∀ n ∈ outputs, σ.Leaves n t → (σ.carried n t).isTrue = true) ∧
    (stepEquivalence outputs).Says (fun σ =>
      ∀ t, (∀ n ∈ outputs, ¬ σ.Leaves n t) ∨
        ((∀ n ∈ outputs, σ.Leaves n t) ∧ ∀ m ∈ outputs, ∀ n ∈ outputs, σ.carried m t = σ.carried n t)) ∧
    (outputs.length < 2 → (stepEquivalence outputs).text = "TRUE") :=
  ⟨says_liveness inputs outputs, says_boundedLiveness inputs outputs, says_carriesTrue rfl, says_carriesTrue rfl,
    says_stepEquivalence outputs, text_stepEquivalence_of_lt⟩

end Formula
end StreamCheck
