import StreamCheck.Proofs.Circuit.Sliding

/-! Running folds: with each event, an accumulator puts out the fold of all events so far. As folds wrap around
the domain, one that counts starts again from zero after the last number. -/

namespace StreamCheck.Fold
open Smv

theorem over_replicate_one {d : Int} (hd : 1 < d) (n : Nat) :
    addition.over d (List.replicate (n + 1) (.number 1)) = .number (((n + 1 : Nat) : Int) % d) := by
  induction n with
  | zero =>
    have hone : ((0 + 1 : Nat) : Int) % d = 1 := Int.emod_eq_of_lt Int.one_nonneg hd
    rw [hone]
    rfl
  | succ n ih =>
    have hne : List.replicate (n + 1) (Value.number 1) ≠ [] := List.cons_ne_nil _ _
    rw [List.replicate_succ', over_concat _ _ hne, ih]
    change Value.number ((((n + 1 : Nat) : Int) % d + 1) % d) = _
    rw [Int.emod_add_emod]
    rfl

end StreamCheck.Fold

namespace StreamCheck.Network
open Smv

namespace Stream

theorem events_eq_replicate {x : Stream} {v : Value} (h : ∀ t, x.fires t = true → x.value t = v) (t : Nat) :
    x.events t = List.replicate (x.events t).length v := by
  induction t with
  | zero => rfl
  | succ t ih =>
    cases hx : x.fires t with
    | false => rw [events_succ_of_not_fires hx, ← ih]
    | true =>
      rw [events_succ_of_fires hx, List.length_append, List.length_singleton, List.replicate_succ', ← ih, h t hx]

end Stream

namespace Kind
open Queue Circuit
variable {s : Sizes} {τ : Trace}

section
variable (hq : 0 < s.queue)
include hq

theorem Runs.constant_output {n : Int} {type : PortType} (h : (Kind.constant (.number n) type).Runs s τ) :
    τ.output 0 = fun t => (.number n, .truth ((τ.input 0).fires t)) := by
  obtain ⟨b, hb, -, hbehaviour⟩ := id h
  obtain ⟨e, he, rfl⟩ := behaviour_constant_eq_ok.1 hb
  rw [stream_output hbehaviour]
  funext t
  refine Prod.ext ?_ (h.single hq rfl t).1
  rw [literal] at he
  split at he
  · obtain rfl := Except.ok.inj he
    rfl
  · cases he

/-! ### Nodes whose inputs are in step -/

theorem Runs.offers_of_inStep {k : Kind} (h : k.Runs s τ) (hk : 0 < k.inputs.length) {arrives : Nat → Bool}
    (hstep : InStep τ k.inputs.length arrives) (t : Nat) : ready.eval (τ t) = .truth (arrives t) ∧
      ∀ j < k.inputs.length, (front j).eval (τ t) = (τ.input j).value t := by
  obtain ⟨b, -, hqueues, -⟩ := h
  constructor
  · rw [ready_eval hqueues hq, fires_of_inStep hqueues hq hk hstep]
  · intro j hj
    exact front_of_held_eq_nil hqueues hq hj (held_eq_nil_of_inStep hqueues hq hk hstep t j hj)

section
variable {type : PortType} {arrives : Nat → Bool} (hstep : InStep τ 2 arrives)
include hstep

theorem Runs.filter_output (h : (Kind.filter type).Runs s τ) : τ.output 0 =
    fun t => ((τ.input 0).value t, .truth (arrives t && ((τ.input 1).value t).isTrue)) := by
  obtain ⟨b, hb, -, hbehaviour⟩ := id h
  obtain rfl := Except.ok.inj hb
  rw [stream_output hbehaviour]
  funext t
  obtain ⟨hready, hfront⟩ := h.offers_of_inStep hq Nat.zero_lt_two hstep t
  refine Prod.ext (hfront 0 Nat.zero_lt_two) ?_
  change Value.truth ((ready.eval (τ t)).isTrue && ((front 1).eval (τ t)).isTrue) = _
  rw [hready, hfront 1 Nat.one_lt_two]
  rfl

theorem Runs.apply_output_of_inStep {op : Operator} (h : (Kind.apply op type).Runs s τ)
    (htwo : (Kind.apply op type).inputs.length = 2) {v : Value → Value → Value}
    (hv : ∀ st, (op.combine s.domain front).eval st = v ((front 0).eval st) ((front 1).eval st)) :
    τ.output 0 = fun t => (v ((τ.input 0).value t) ((τ.input 1).value t), .truth (arrives t)) := by
  have hpos : 0 < (Kind.apply op type).inputs.length := htwo ▸ Nat.zero_lt_two
  rw [← htwo] at hstep
  obtain ⟨b, -, hqueues, -⟩ := id h
  rw [h.apply_output hq]
  funext t
  obtain ⟨-, hfront⟩ := h.offers_of_inStep hq hpos hstep t
  refine Prod.ext ?_ (congrArg Value.truth (fires_of_inStep hqueues hq hpos hstep t))
  change (op.combine s.domain front).eval (τ t) = _
  rw [hv, hfront 0 hpos, hfront 1 (htwo ▸ Nat.one_lt_two)]

theorem Runs.isGreaterOrEqual_output (h : (Kind.apply .isGreaterOrEqual type).Runs s τ) : τ.output 0 =
    fun t => (.truth (decide (((τ.input 1).value t).toInt ≤ ((τ.input 0).value t).toInt)), .truth (arrives t)) :=
  h.apply_output_of_inStep hq hstep rfl (v := fun a b => .truth (decide (b.toInt ≤ a.toInt))) fun _ => rfl

theorem Runs.multiplication_output (h : (Kind.apply .multiplication type).Runs s τ) : τ.output 0 =
    fun t => (Fold.multiplication.value s.domain ((τ.input 0).value t) ((τ.input 1).value t), .truth (arrives t)) :=
  h.apply_output_of_inStep hq hstep rfl fun _ => rfl

end

/-! ### Accumulators -/

structure Accumulated (f : Fold) (d : Int) (vs : List Value) (st : State) : Prop where
  started : (Expr.own .started).eval st = .truth (!vs.isEmpty)
  accumulator : vs ≠ [] → (Expr.own .accumulator).eval st = f.over d vs

section
variable {f : Fold} (h : (Kind.cumulate f).Runs s τ)
include h

theorem Runs.cumulate_output_of_accumulated {t : Nat} {vs : List Value} (hcells : Accumulated f s.domain vs (τ t)) :
    τ.output 0 t = (f.over s.domain (vs ++ [(τ.input 0).value t]), .truth ((τ.input 0).fires t)) := by
  obtain ⟨b, hb, -, hbehaviour⟩ := id h
  obtain rfl := Except.ok.inj hb
  have houtput : ({ defines := output 0 (.choose (.own .started)
      (f.combine s.domain (.own .accumulator) (front 0)) (front 0)) ready } : Circuit).Obeyed τ :=
    ⟨hbehaviour.defines, fun a ha => nomatch ha⟩
  obtain ⟨hready, hfront, -⟩ := h.single hq rfl t
  rw [stream_output houtput]
  refine Prod.ext ?_ hready
  change (Expr.choose _ _ _).eval (τ t) = _
  rw [Expr.eval_choose, hcells.started, hfront]
  cases vs with
  | nil => rfl
  | cons v vs =>
    have hne : v :: vs ≠ [] := List.cons_ne_nil _ _
    rw [Fold.over_concat _ _ hne, ← hcells.accumulator hne, ← hfront]
    rfl

theorem Runs.accumulated (t : Nat) : Accumulated f s.domain ((τ.input 0).events t) (τ t) := by
  obtain ⟨b, hb, -, hbehaviour⟩ := id h
  obtain rfl := Except.ok.inj hb
  have hassigns := hbehaviour.assigns
  simp only [Circuit.cumulate, List.forall_mem_cons] at hassigns
  obtain ⟨-, hfirst, hvalue, hlater, -⟩ := hassigns
  induction t with
  | zero => exact ⟨hfirst, fun hne => absurd rfl hne⟩
  | succ t ih =>
    have hready : ready.eval (τ t) = .truth ((τ.input 0).fires t) := (h.single hq rfl t).1
    have hout := congrArg Prod.fst (h.cumulate_output_of_accumulated hq ih)
    have hstarted : (Expr.own .started).eval (τ (t + 1)) =
        .truth (((Expr.own .started).eval (τ t)).isTrue || (ready.eval (τ t)).isTrue) := hlater t
    have haccumulator : (Expr.own .accumulator).eval (τ (t + 1)) =
        (Expr.choose ready (.own (.outValue 0)) (.own .accumulator)).eval (τ t) := hvalue t
    rw [ih.started, hready] at hstarted
    rw [Expr.eval_choose, hready] at haccumulator
    cases hx : (τ.input 0).fires t with
    | false =>
      rw [hx] at hstarted haccumulator
      rw [Stream.events_succ_of_not_fires hx]
      refine ⟨?_, fun hne => haccumulator.trans (ih.accumulator hne)⟩
      rw [hstarted]
      exact congrArg Value.truth (Bool.or_false _)
    | true =>
      rw [hx] at hstarted haccumulator
      rw [Stream.events_succ_of_fires hx]
      refine ⟨?_, fun _ => haccumulator.trans hout⟩
      rw [hstarted]
      simp [Value.isTrue]

theorem Runs.cumulate_output : τ.output 0 =
    fun t => (f.over s.domain ((τ.input 0).events t ++ [(τ.input 0).value t]), .truth ((τ.input 0).fires t)) :=
  funext fun t => h.cumulate_output_of_accumulated hq (h.accumulated hq t)

end
end
end Kind
end StreamCheck.Network
