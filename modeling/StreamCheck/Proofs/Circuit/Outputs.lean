import StreamCheck.Proofs.Queue.Streams

/-! What each kind of node puts out, as a stream made from the streams that come in. -/

namespace StreamCheck

/-- Two operands combined by a fold and wrapped around the domain `0..d-1`. -/
def Fold.value (f : Fold) (d : Int) (a b : Smv.Value) : Smv.Value :=
  Smv.BinaryOp.mod.apply (f.sign.apply a b) (.number d)

def Fold.over (f : Fold) (d : Int) : List Smv.Value → Smv.Value
  | [] => default
  | v :: vs => vs.foldl (f.value d) v

end StreamCheck

namespace StreamCheck.Network
open Smv

namespace Circuit
open Queue
variable {st : State} {τ : Trace}

theorem eval_foldl_combine (f : Fold) (d : Int) (e : Expr) (es : List Expr) :
    (es.foldl (f.combine d) e).eval st = f.over d ((e :: es).map fun e => e.eval st) := by
  induction es generalizing e with
  | nil => rfl
  | cons e' es ih => exact ih (f.combine d e e')

theorem stream_output {p : Nat} {value fire : Expr}
    (h : ({ defines := output p value fire } : Circuit).Obeyed τ) :
    τ.output p = fun t => (value.eval (τ t), fire.eval (τ t)) := by
  funext t
  have hvalue := h.defines _ List.mem_cons_self t
  have hfire := h.defines _ (List.mem_cons_of_mem _ List.mem_cons_self) t
  exact Prod.ext hvalue hfire

theorem counter_countUpTo {n : Nat} (h : (countUpTo n).Obeyed τ) (t : Nat) :
    counter.eval (τ t) = .number (min n (firings τ t) : Nat) := by
  induction t with
  | zero =>
    have hfirst := h.assigns _ List.mem_cons_self
    rw [firings, Nat.min_zero]
    exact hfirst
  | succ t ih =>
    have hnext : counter.eval (τ (t + 1)) = (Expr.choose (both ready (.binary .lt counter (.num n)))
        (.binary .add counter (.num 1)) counter).eval (τ t) :=
      h.assigns _ (List.mem_cons_of_mem _ List.mem_cons_self) t
    have hcondition : ((both ready (.binary .lt counter (.num n))).eval (τ t)).isTrue =
        (fires τ t && decide (firings τ t < n)) := by
      rw [both, Expr.isTrue_eval_and]
      change (fires τ t && decide ((counter.eval (τ t)).toInt < n)) = _
      rw [ih]
      congr 1
      refine decide_eq_decide.2 ?_
      simp only [Value.toInt]
      omega
    rw [hnext, Expr.eval_choose, hcondition, firings]
    cases fires τ t with
    | false => exact ih
    | true =>
      -- the counter stays at its upper end, where the minimum stays too
      by_cases hlt : firings τ t < n
      · rw [decide_eq_true hlt, Bool.and_self, if_pos rfl, if_pos rfl]
        change Value.number ((counter.eval (τ t)).toInt + 1) = _
        rw [ih]
        simp only [Value.toInt, Value.number.injEq]
        omega
      · rw [decide_eq_false hlt, Bool.and_false, if_neg Bool.false_ne_true, ih, if_pos rfl]
        simp only [Value.number.injEq]
        omega

theorem counter_countModulo {k : Nat} (h : (countModulo k).Obeyed τ) (t : Nat) :
    counter.eval (τ t) = .number (firings τ t % k : Nat) := by
  induction t with
  | zero =>
    have hfirst := h.assigns _ List.mem_cons_self
    rw [firings, Nat.zero_mod]
    exact hfirst
  | succ t ih =>
    have hnext : counter.eval (τ (t + 1)) = (Expr.choose ready
        (.binary .mod (.paren (.binary .add counter (.num 1))) (.num k)) counter).eval (τ t) :=
      h.assigns _ (List.mem_cons_of_mem _ List.mem_cons_self) t
    rw [hnext, Expr.eval_choose, firings]
    change (if fires τ t = true then _ else _) = _
    cases fires τ t with
    | false => exact ih
    | true =>
      rw [if_pos rfl, if_pos rfl]
      change Value.number (((counter.eval (τ t)).toInt + 1) % (k : Int)) = _
      rw [ih, ← Nat.mod_add_mod]
      rfl

theorem readyAt_eval {f : Bool} {c n : Nat} (hready : ready.eval st = .truth f)
    (hcounter : counter.eval st = .number (c : Int)) :
    (readyAt n).eval st = .truth (f && decide (c = n)) := by
  have hsame : Value.number (c : Int) = .number n ↔ c = n := by
    rw [Value.number.injEq, Int.ofNat_inj]
  change Value.truth ((ready.eval st).isTrue && decide (counter.eval st = .number n)) = _
  rw [hready, hcounter, decide_eq_decide.2 hsame]
  rfl

theorem nextWindowSlot_eval {f : Bool} {c kept i : Nat} (hready : ready.eval st = .truth f)
    (hcounter : counter.eval st = .number (c : Int)) : (nextWindowSlot kept i).eval st =
      if f = true ∧ c = kept then (if i + 1 < kept then windowSlot (i + 1) else front 0).eval st
      else if f = true ∧ c = i then (front 0).eval st else (windowSlot i).eval st := by
  rw [nextWindowSlot, Update.eval_cases_cons, Update.eval_cases_cons, Update.eval_cases_cons,
    readyAt_eval hready hcounter, readyAt_eval hready hcounter, Expr.isTrue_eval_bool, if_pos rfl]
  simp only [Value.isTrue, Bool.and_eq_true, decide_eq_true_eq]

end Circuit

namespace Kind
open Queue Circuit
variable {s : Sizes} (hq : 0 < s.queue) {k : Kind} {τ : Trace}

theorem inStep_single (τ : Trace) : InStep τ 1 (τ.input 0).fires := by
  intro j hj
  obtain rfl := Nat.lt_one_iff.1 hj
  rfl

def fire : Kind → Expr
  | filter _ => both ready (front 1)
  | trim n _ => readyAt n
  | decimate _ _ _ => readyAt 0
  | window _ _ width _ => if width = 1 then ready else readyAt (width - 1 : Nat)
  | _ => ready

theorem Runs.exists_output_obeyed (h : k.Runs s τ) {p : Nat} (hp : p < k.outputs.length) :
    ∃ value, ({ defines := output p value k.fire } : Circuit).Obeyed τ := by
  obtain ⟨b, hb, -, hbehaviour⟩ := h
  cases k with
  | bare _ _ | group _ _ _ => nomatch hb
  | fork n _ _ =>
    obtain rfl := Except.ok.inj hb
    have hp : p < n := by simpa [outputs] using hp
    refine ⟨front 0, fun d hd => hbehaviour.defines d ?_, fun a ha => absurd ha List.not_mem_nil⟩
    exact List.mem_flatMap.2 ⟨p, List.mem_range.2 hp, hd⟩
  | constant v _ =>
    obtain rfl := Nat.lt_one_iff.1 hp
    obtain ⟨e, -, rfl⟩ := behaviour_constant_eq_ok.1 hb
    exact ⟨e, hbehaviour⟩
  | passthrough _ | apply _ _ | filter _ =>
    obtain rfl := Nat.lt_one_iff.1 hp
    obtain rfl := Except.ok.inj hb
    exact ⟨_, hbehaviour⟩
  | trim _ _ | decimate _ _ _ =>
    obtain rfl := Nat.lt_one_iff.1 hp
    obtain rfl := Except.ok.inj hb
    exact ⟨_, (obeyed_append.1 hbehaviour).2⟩
  | cumulate f =>
    obtain rfl := Nat.lt_one_iff.1 hp
    obtain rfl := Except.ok.inj hb
    exact ⟨_, hbehaviour.defines, fun a ha => absurd ha List.not_mem_nil⟩
  | window _ f width _ =>
    obtain rfl := Nat.lt_one_iff.1 hp
    obtain rfl := Except.ok.inj hb
    rw [Circuit.window] at hbehaviour
    rw [fire]
    split at hbehaviour
    · rw [if_pos ‹_›]
      exact ⟨_, hbehaviour⟩
    · rw [if_neg ‹_›]
      exact ⟨_, (obeyed_append.1 hbehaviour).2⟩

theorem Runs.fires_output (h : k.Runs s τ) {p : Nat} (hp : p < k.outputs.length) (t : Nat) :
    (τ.output p).fires t = (k.fire.eval (τ t)).isTrue := by
  obtain ⟨value, houtput⟩ := h.exists_output_obeyed hp
  rw [stream_output houtput]
  rfl

section
include hq

theorem Runs.clean_output (h : k.Runs s τ) {p : Nat} (hp : p < k.outputs.length) :
    (τ.output p).clean = τ.output p := by
  obtain ⟨value, houtput⟩ := h.exists_output_obeyed hp
  obtain ⟨b, hb, hqueues, -⟩ := h
  have hready (t : Nat) : ready.eval (τ t) = .truth (ready.eval (τ t)).isTrue := ready_eval hqueues hq t
  have hfire (t : Nat) : k.fire.eval (τ t) = .truth (k.fire.eval (τ t)).isTrue := by
    cases k with
    | filter _ | trim _ _ | decimate _ _ _ => rfl
    | window _ _ width _ =>
      rw [fire]
      split
      · exact hready t
      · rfl
    | _ => exact hready t
  rw [stream_output houtput]
  funext t
  exact Prod.ext rfl (hfire t).symm

/-- A node whose inputs get their events at the same moments stores nothing. -/
theorem Runs.load_eq_zero (h : k.Runs s τ) {arrives : Nat → Bool} (hstep : InStep τ k.inputs.length arrives)
    {j : Nat} (hj : j < k.inputs.length) (t : Nat) : load τ s.queue.toNat j t = 0 := by
  obtain ⟨b, -, hqueues, -⟩ := h
  rw [← length_held, held_eq_nil_of_inStep hqueues hq (Nat.zero_lt_of_lt hj) hstep t j hj, List.length_nil]

/-! ### Nodes with one input -/

theorem Runs.single (h : k.Runs s τ) (hk : k.inputs.length = 1) (t : Nat) :
    ready.eval (τ t) = .truth ((τ.input 0).fires t) ∧
      (front 0).eval (τ t) = (τ.input 0).value t ∧ firings τ t = ((τ.input 0).events t).length := by
  obtain ⟨b, -, hqueues, -⟩ := h
  have hn : 0 < k.inputs.length := by omega
  have hstep : InStep τ k.inputs.length (τ.input 0).fires := hk ▸ inStep_single τ
  have hfires := fires_of_inStep hqueues hq hn hstep
  have hheld := held_eq_nil_of_inStep hqueues hq hn hstep t 0 hn
  refine ⟨?_, front_of_held_eq_nil hqueues hq hn hheld, firings_eq_length_events hfires t⟩
  rw [ready_eval hqueues hq, hfires]

theorem Runs.passthrough_output {type : PortType} (h : (Kind.passthrough type).Runs s τ) :
    τ.output 0 = (τ.input 0).clean := by
  obtain ⟨b, hb, -, hbehaviour⟩ := id h
  obtain rfl := Except.ok.inj hb
  rw [stream_output hbehaviour]
  funext t
  obtain ⟨hready, hfront, -⟩ := h.single hq rfl t
  exact Prod.ext hfront hready

theorem Runs.fork_output {n : Nat} {hn : 0 < n} {type : PortType} (h : (Kind.fork n hn type).Runs s τ)
    {p : Nat} (hp : p < n) : τ.output p = (τ.input 0).clean := by
  obtain ⟨b, hb, -, hbehaviour⟩ := id h
  obtain rfl := Except.ok.inj hb
  have houtput : ({ defines := output p (front 0) ready } : Circuit).Obeyed τ := by
    refine ⟨fun d hd => hbehaviour.defines d ?_, fun a ha => absurd ha List.not_mem_nil⟩
    exact List.mem_flatMap.2 ⟨p, List.mem_range.2 hp, hd⟩
  rw [stream_output houtput]
  funext t
  obtain ⟨hready, hfront, -⟩ := h.single hq rfl t
  exact Prod.ext hfront hready

theorem Runs.trim_output {n : Nat} {type : PortType} (h : (Kind.trim n type).Runs s τ) :
    τ.output 0 = (τ.input 0).drop n := by
  obtain ⟨b, hb, -, hbehaviour⟩ := id h
  obtain rfl := Except.ok.inj hb
  obtain ⟨hcounter, houtput⟩ := obeyed_append.1 hbehaviour
  rw [stream_output houtput]
  funext t
  obtain ⟨hready, hfront, hfirings⟩ := h.single hq rfl t
  refine Prod.ext hfront ?_
  change (readyAt n).eval (τ t) = _
  rw [readyAt_eval hready (counter_countUpTo hcounter t), hfirings]
  have hreached : min n ((τ.input 0).events t).length = n ↔ n ≤ ((τ.input 0).events t).length := by omega
  rw [decide_eq_decide.2 hreached]
  rfl

theorem Runs.decimate_output {n : Nat} {hn : 0 < n} {type : PortType}
    (h : (Kind.decimate n hn type).Runs s τ) : τ.output 0 = (τ.input 0).every n := by
  obtain ⟨b, hb, -, hbehaviour⟩ := id h
  obtain rfl := Except.ok.inj hb
  obtain ⟨hcounter, houtput⟩ := obeyed_append.1 hbehaviour
  rw [stream_output houtput]
  funext t
  obtain ⟨hready, hfront, hfirings⟩ := h.single hq rfl t
  refine Prod.ext hfront ?_
  change (readyAt (0 : Nat)).eval (τ t) = _
  rw [readyAt_eval hready (counter_countModulo hcounter t), hfirings]
  rfl

/-! ### Windows -/

/-- The last so many events of a stream before a moment. -/
def recent (x : Stream) (n t : Nat) : List Value := (x.events t).drop ((x.events t).length - n)

omit hq in
theorem windowSlots_obeyed {f : Fold} {width : Nat} (hwidth : width ≠ 1)
    (h : (Circuit.window s f width).Obeyed τ) : (countUpTo (width - 1 : Nat)).Obeyed τ ∧
      (∀ i < width - 1, ∀ t, (windowSlot i).eval (τ (t + 1)) =
        (nextWindowSlot (width - 1) i).eval (τ t)) := by
  rw [Circuit.window, if_neg hwidth] at h
  obtain ⟨h, -⟩ := obeyed_append.1 h
  obtain ⟨h, hslots⟩ := obeyed_append.1 h
  refine ⟨(obeyed_append.1 h).2, fun i hi t => ?_⟩
  exact hslots.assigns _ (mem_assigns_windowSlots.2 ⟨i, hi, .inr rfl⟩) t

theorem Runs.windowSlot_eval {processor : NodeId} {f : Fold} {width : Nat} {hwidth : 0 < width}
    (h : (Kind.window processor f width hwidth).Runs s τ) (t : Nat) {i : Nat} (hi : i < width - 1)
    (hlt : i < ((τ.input 0).events t).length) : (windowSlot i).eval (τ t) =
      ((τ.input 0).events t).getD (((τ.input 0).events t).length - (width - 1) + i) default := by
  obtain ⟨b, hb, -, hbehaviour⟩ := id h
  obtain rfl := Except.ok.inj hb
  have hne : width ≠ 1 := by omega
  obtain ⟨hcounter, hslots⟩ := windowSlots_obeyed hne hbehaviour
  induction t generalizing i with
  | zero => nomatch hlt
  | succ t ih =>
    obtain ⟨hready, hfront, hfirings⟩ := h.single hq rfl t
    rw [hslots i hi, nextWindowSlot_eval hready (counter_countUpTo hcounter t), hfront, hfirings]
    cases hx : (τ.input 0).fires t with
    | false =>
      rw [Stream.events_succ_of_not_fires hx] at hlt ⊢
      simpa using ih hi hlt
    | true =>
      rw [Stream.events_succ_of_fires hx, List.length_append, List.length_singleton] at hlt ⊢
      generalize hn : ((τ.input 0).events t).length = n at hlt ih ⊢
      have hback {i : Nat} (hi : i < n) :
          ((τ.input 0).events t ++ [(τ.input 0).value t]).getD i default =
            ((τ.input 0).events t).getD i default :=
        List.getD_append _ _ _ _ (hn ▸ hi)
      have hlast : ((τ.input 0).events t ++ [(τ.input 0).value t]).getD n default =
          (τ.input 0).value t := by
        rw [← hn, List.getD_append_right _ _ _ _ (Nat.le_refl _), Nat.sub_self]
        rfl
      by_cases hfull : width - 1 ≤ n
      · -- a full window moves up by one slot
        rw [if_pos ⟨rfl, Nat.min_eq_left hfull⟩]
        by_cases hnext : i + 1 < width - 1
        · rw [if_pos hnext, ih hnext (by omega), hback (by omega)]
          congr 1
          omega
        · rw [if_neg hnext, hfront, show n + 1 - (width - 1) + i = n by omega, hlast]
      · -- one that is not takes the event into the slot that the counter points at
        rw [if_neg (by omega), Nat.min_eq_right (by omega), show n + 1 - (width - 1) + i = i by omega]
        by_cases hnew : n = i
        · rw [if_pos ⟨rfl, hnew⟩, ← hnew, hlast]
        · rw [if_neg (by tauto), ih hi (by omega), hback (by omega)]
          congr 1
          omega

theorem Runs.map_windowSlot_eval {processor : NodeId} {f : Fold} {width : Nat} {hwidth : 0 < width}
    (h : (Kind.window processor f width hwidth).Runs s τ) {t : Nat}
    (hfull : width - 1 ≤ ((τ.input 0).events t).length) :
    (List.range (width - 1)).map (fun i => (windowSlot i).eval (τ t)) =
      recent (τ.input 0) (width - 1) t := by
  apply List.ext_getElem
  · rw [List.length_map, List.length_range, recent, List.length_drop]
    omega
  · intro i hi hi'
    rw [List.length_map, List.length_range] at hi
    have hslot := h.windowSlot_eval hq t hi (by omega)
    rw [List.getD_eq_getElem _ _ (by omega)] at hslot
    simp only [List.getElem_map, List.getElem_range, recent, List.getElem_drop]
    exact hslot

theorem Runs.window_output {processor : NodeId} {f : Fold} {width : Nat} {hwidth : 0 < width}
    (h : (Kind.window processor f width hwidth).Runs s τ) (t : Nat) :
    (τ.output 0).fires t = ((τ.input 0).drop (width - 1)).fires t ∧
      (width - 1 ≤ ((τ.input 0).events t).length → (τ.output 0).value t =
        f.over s.domain (recent (τ.input 0) (width - 1) t ++ [(τ.input 0).value t])) := by
  obtain ⟨b, hb, -, hbehaviour⟩ := id h
  obtain rfl := Except.ok.inj hb
  obtain ⟨hready, hfront, hfirings⟩ := h.single hq rfl t
  by_cases hone : width = 1
  · -- a window of one event has neither slots nor a counter
    subst hone
    have hdefines : ({ defines := output 0 (front 0) ready } : Circuit).Obeyed τ := hbehaviour
    have houtput := congrFun (stream_output hdefines) t
    have hnone : recent (τ.input 0) 0 t = [] := List.drop_length
    rw [Stream.fires, Stream.value, houtput, hready, hfront, Stream.fires_drop, Nat.sub_self, hnone]
    exact ⟨by simp [Value.isTrue], fun _ => rfl⟩
  · obtain ⟨hcounter, -⟩ := windowSlots_obeyed hone hbehaviour
    rw [Circuit.window, if_neg hone] at hbehaviour
    have houtput := congrFun (stream_output (obeyed_append.1 hbehaviour).2) t
    rw [Stream.fires, Stream.value, houtput]
    constructor
    · rw [readyAt_eval hready (counter_countUpTo hcounter t), hfirings, Stream.fires_drop]
      have hreached : min (width - 1) ((τ.input 0).events t).length = width - 1 ↔
          width - 1 ≤ ((τ.input 0).events t).length := by omega
      rw [decide_eq_decide.2 hreached]
      rfl
    · intro hfull
      have hslots : windowSlot 0 :: (List.range (width - 1 - 1)).map (fun i => windowSlot (i + 1)) =
          (List.range (width - 1)).map windowSlot := by
        obtain ⟨kept, hkept⟩ := Nat.exists_eq_add_of_lt (show 0 < width - 1 by omega)
        rw [hkept, Nat.zero_add, Nat.add_sub_cancel, List.range_succ_eq_map, List.map_cons, List.map_map]
        rfl
      change Expr.eval (τ t) _ = _
      rw [eval_foldl_combine, ← List.cons_append, hslots, List.map_append, List.map_map,
        ← h.map_windowSlot_eval hq hfull, List.map_singleton, hfront]
      rfl

/-! ### Nodes whose inputs are in step -/

omit hq in
def isPrompt : Kind → Bool
  | passthrough _ | fork _ _ _ | constant _ _ | apply _ _ | cumulate _ => true
  | decimate n _ _ => n == 1
  | _ => false

omit hq in
theorem inputs_pos_of_isPrompt (hk : k.isPrompt = true) : 0 < k.inputs.length := by
  cases k with
  | apply op _ => cases op <;> exact Nat.succ_pos _
  | passthrough _ | fork _ _ _ | constant _ _ | cumulate _ | decimate _ _ _ => exact Nat.one_pos
  | bare _ _ | trim _ _ | filter _ | window _ _ _ _ | group _ _ _ => nomatch hk

theorem Runs.fires_output_of_isPrompt (h : k.Runs s τ) (hk : k.isPrompt = true) {arrives : Nat → Bool}
    (hstep : InStep τ k.inputs.length arrives) {p : Nat} (hp : p < k.outputs.length) :
    (τ.output p).fires = arrives := by
  have hready (t : Nat) : (ready.eval (τ t)).isTrue = arrives t := by
    obtain ⟨b, -, hqueues, -⟩ := h
    rw [ready_eval hqueues hq, fires_of_inStep hqueues hq (inputs_pos_of_isPrompt hk) hstep]
    rfl
  funext t
  cases k with
  | decimate n _ _ =>
    -- a decimation by one drops nothing
    obtain rfl := Nat.lt_one_iff.1 hp
    obtain rfl : n = 1 := eq_of_beq hk
    rw [h.decimate_output hq, ← hstep 0 Nat.one_pos]
    change ((τ.input 0).fires t && decide (_ % 1 = 0)) = _
    rw [Nat.mod_one, decide_eq_true rfl, Bool.and_true]
  | passthrough _ | fork _ _ _ | constant _ _ | apply _ _ | cumulate _ =>
    rw [h.fires_output hp]
    exact hready t
  | bare _ _ | trim _ _ | filter _ | window _ _ _ _ | group _ _ _ => nomatch hk

/-! ### Applied operators -/

theorem Runs.apply_output {op : Operator} {type : PortType} (h : (Kind.apply op type).Runs s τ) :
    τ.output 0 = fun t => ((op.combine s.domain front).eval (τ t), .truth (Queue.fires τ t)) := by
  obtain ⟨b, hb, hqueues, hbehaviour⟩ := id h
  obtain rfl := Except.ok.inj hb
  rw [stream_output hbehaviour]
  funext t
  exact Prod.ext rfl (ready_eval hqueues hq t)

/-- Where the second input is one event behind, a sum is that of the last event and the one that comes. -/
theorem Runs.addition_output (h : (Kind.apply .addition .integer).Runs s τ) (hbehind : OneBehind τ) (t : Nat) :
    (τ.output 0).fires t = (τ.input 1).fires t ∧ ∀ v, ((τ.input 0).events t).getLast? = some v →
      (τ.output 0).value t = Fold.addition.value s.domain v ((τ.input 1).value t) := by
  obtain ⟨b, -, hqueues, -⟩ := id h
  obtain ⟨hheld0, hheld1⟩ := held_of_oneBehind hqueues hq rfl hbehind t
  rw [h.apply_output hq]
  refine ⟨fires_of_oneBehind hqueues hq rfl hbehind t, fun v hv => ?_⟩
  have hfirst : (front 0).eval (τ t) = v := by
    rw [front_eval (circuit_obeyed hqueues Nat.zero_lt_two) hq, hheld0, hv]
    rfl
  have hsecond := front_of_held_eq_nil hqueues hq Nat.one_lt_two hheld1
  change Fold.addition.value s.domain ((front 0).eval (τ t)) ((front 1).eval (τ t)) = _
  rw [hfirst, hsecond]

/-! ### Comparisons -/

section
variable {type : PortType} (h : (Kind.apply .equals type).Runs s τ) {t : Nat}
include h

theorem Runs.equals_fires : (τ.output 0).fires t = Queue.fires τ t := by
  rw [h.apply_output hq]
  rfl

theorem Runs.equals_value :
    (τ.output 0).value t = .truth (decide ((front 0).eval (τ t) = (front 1).eval (τ t))) := by
  rw [h.apply_output hq]
  rfl

theorem Runs.equals_output (hagree : (τ.input 0).Agree (τ.input 1)) (hfires : (τ.output 0).fires t = true) :
    (τ.output 0).value t = .truth true := by
  obtain ⟨b, -, hqueues, -⟩ := id h
  have hstep : InStep τ 2 (τ.input 0).fires := by
    intro j hj
    obtain rfl | rfl : j = 0 ∨ j = 1 := by omega
    · rfl
    · exact funext fun t => (hagree t).1.symm
  have hheld := held_eq_nil_of_inStep hqueues hq Nat.zero_lt_two hstep t
  rw [h.equals_fires hq, fires_of_inStep hqueues hq Nat.zero_lt_two hstep] at hfires
  rw [h.equals_value hq, front_of_held_eq_nil hqueues hq Nat.zero_lt_two (hheld 0 Nat.zero_lt_two),
    front_of_held_eq_nil hqueues hq Nat.one_lt_two (hheld 1 Nat.one_lt_two), decide_eq_true ((hagree t).2 hfires)]

theorem Runs.equals_output_of_constant {v : Value}
    (hv : ∀ j < 2, ∀ t, (τ.input j).fires t = true → (τ.input j).value t = v)
    (hfires : (τ.output 0).fires t = true) : (τ.output 0).value t = .truth true := by
  obtain ⟨b, -, hqueues, -⟩ := id h
  rw [h.equals_fires hq] at hfires
  have hfront (j : Nat) (hj : j < 2) : (front j).eval (τ t) = v := by
    obtain ⟨t', hfires', hvalue⟩ := exists_front_eq hqueues hq hj hfires
    rw [← hvalue, hv j hj t' hfires']
  rw [h.equals_value hq, hfront 0 Nat.zero_lt_two, hfront 1 Nat.one_lt_two, decide_eq_true rfl]

/-- Of an event at every moment and the same without the first ones, a comparison starts with the first event and
the first that is left. -/
theorem Runs.equals_apart {v : Nat → Value} {n : Nat} (hfirst : τ.input 0 = Stream.always v)
    (hsecond : τ.input 1 = (Stream.always v).drop n) :
    (τ.output 0).fires n = true ∧ (τ.output 0).value n = .truth (decide (v 0 = v n)) := by
  obtain ⟨b, -, hqueues, -⟩ := id h
  -- before the moment `n` nothing is left of the second stream to fire with
  have hnone : firings τ n = 0 := by
    have hle := Nat.le_trans (firings_le_length_accepted hqueues hq Nat.one_lt_two n) (length_accepted_le _ 1 n)
    rw [hsecond, Stream.events_drop, Stream.events_always] at hle
    simpa using hle
  have hfires : Queue.fires τ n = true := by
    refine (fires_iff hqueues hq n).2 fun j hj => ?_
    have harrives : isArriving τ j n = true := by
      rw [isArriving_eq]
      obtain rfl | rfl : j = 0 ∨ j = 1 := by
        have hj : j < 2 := hj
        omega
      · rw [hfirst]
        rfl
      · rw [hsecond, Stream.fires_drop, Stream.events_always, List.length_map, List.length_range]
        exact decide_eq_true (Nat.le_refl n)
    rw [harrives, Bool.or_true]
  have hhead (j : Nat) (hj : j < 2) := head?_events_of_firings_eq_zero hqueues hq hj hnone hfires
  have hfront0 := hhead 0 Nat.zero_lt_two
  have hfront1 := hhead 1 Nat.one_lt_two
  rw [hfirst, Stream.events_always, List.range_succ_eq_map] at hfront0
  rw [hsecond, Stream.events_drop, Stream.events_always, List.range_succ, List.map_append,
    List.drop_left' (by rw [List.length_map, List.length_range])] at hfront1
  refine ⟨(h.equals_fires hq).trans hfires, ?_⟩
  rw [h.equals_value hq, ← Option.some.inj hfront0, ← Option.some.inj hfront1]

end

end
end Kind
end StreamCheck.Network
