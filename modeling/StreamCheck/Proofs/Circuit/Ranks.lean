import StreamCheck.Proofs.Circuit.Accumulating
import StreamCheck.Proofs.Circuit.Names
import StreamCheck.Proofs.Circuit.Windows

/-! Nodes that count or fold what arrives, over arrivals that are numbered by their ranks: which of them they
answer, with which value, and that their registers keep to the values that they are declared with. -/

namespace StreamCheck.Smv

/-- Along a trace, every cell that is declared has a value of its type. -/
def Declaration.Kept (d : Declaration) (σ : Trace) : Prop := ∀ x ∈ d.cells, ∀ t, (σ t x.1.spot).Fits x.2

theorem Declaration.kept_scalar {n : Name} {type : Scalar} {σ : Trace}
    (h : ∀ t, ((Expr.own n).eval (σ t)).Fits type) : (⟨n, .scalar type⟩ : Declaration).Kept σ := by
  intro x hx t
  obtain rfl := List.mem_singleton.1 hx
  exact h t

/-- The registers of a node's module, apart from its queues, keep to what they are declared with. -/
def Module.KeepsRegisters (m : Module) (σ : Trace) : Prop :=
  ∀ d ∈ m.declarations, d.name.owner = .behaviour → d.Kept σ

end StreamCheck.Smv

namespace StreamCheck.Network
open Smv

namespace Stream
variable {x : Stream} {e : Nat → Int} {t : Nat}

theorem fires_drop_iff (x : Stream) (n t : Nat) :
    (x.drop n).fires t = true ↔ x.fires t = true ∧ n < x.rank t := by
  rw [fires_drop, Bool.and_eq_true, decide_eq_true_eq]
  refine and_congr_right fun hx => ?_
  rw [rank_of_fires hx, Nat.lt_succ_iff]

theorem fires_every_iff (x : Stream) (n t : Nat) :
    (x.every n).fires t = true ↔ x.fires t = true ∧ ∃ i, x.rank t = i * n + 1 := by
  rw [fires_every, Bool.and_eq_true, decide_eq_true_eq]
  refine and_congr_right fun hx => ?_
  rw [rank_of_fires hx, ← Nat.dvd_iff_mod_eq_zero]
  constructor
  · rintro ⟨i, hi⟩
    exact ⟨i, by rw [hi, Nat.mul_comm]⟩
  · rintro ⟨i, hi⟩
    exact ⟨i, by rw [Nat.mul_comm, ← Nat.succ.inj hi]⟩

theorem Carries.over_events (h : x.Carries e) (hx : x.fires t = true) (f : Fold) (d : Int) :
    f.over d (x.events t ++ [x.value t]) = .number (f.sliding d e (x.rank t) (x.rank t)) := by
  have hrank := rank_of_fires hx
  have hall : x.events t ++ [x.value t] = (List.range' 1 (x.rank t)).map fun r => .number (e r) := by
    rw [h t hx, hrank, List.range'_1_concat, List.map_append, ← h.events_eq t, Nat.add_comm 1]
    rfl
  rw [hall, hrank, List.range'_succ, Fold.over_numbers, Fold.sliding, Nat.sub_self, Nat.add_sub_cancel]

end Stream

/-! ### Registers -/

namespace Circuit
variable {τ : Trace}

theorem kept_countUpTo {n : Nat} (h : (countUpTo n).Obeyed τ) : ∀ d ∈ (countUpTo n).declarations, d.Kept τ := by
  intro d hd
  obtain rfl := List.mem_singleton.1 hd
  refine Declaration.kept_scalar fun t => ?_
  change (counter.eval (τ t)).Fits _
  rw [counter_countUpTo h]
  exact ⟨Int.natCast_nonneg _, Int.ofNat_le.2 (Nat.min_le_left _ _)⟩

theorem kept_countModulo {n : Nat} (hn : 0 < n) (h : (countModulo n).Obeyed τ) :
    ∀ d ∈ (countModulo n).declarations, d.Kept τ := by
  intro d hd
  obtain rfl := List.mem_singleton.1 hd
  refine Declaration.kept_scalar fun t => ?_
  change (counter.eval (τ t)).Fits _
  rw [counter_countModulo h]
  have hlt : Queue.firings τ t % n < n := Nat.mod_lt _ hn
  exact ⟨Int.natCast_nonneg _, by omega⟩

end Circuit

theorem Node.keepsRegisters {n : Node} {s : Sizes} {m : Module} {τ : Trace} {b : Circuit}
    (hm : n.leafModule s = .ok m) (hτ : m.Obeyed τ) (hb : Circuit.behaviour s n.kind = .ok b)
    (h : b.Obeyed τ → ∀ d ∈ b.declarations, d.Kept τ) : m.KeepsRegisters τ := by
  obtain ⟨b', hb', rfl⟩ := Node.leafModule_eq_ok.1 hm
  obtain rfl : b = b' := Except.ok.inj (hb.symm.trans hb')
  obtain ⟨-, hbehaviour⟩ := Circuit.obeyed_append.1 (Circuit.obeyed_of_module hτ)
  intro d hd howner
  obtain hd | hd := List.mem_append.1 hd
  · rw [(Queue.declares_circuits d hd).1] at howner
    nomatch howner
  · exact h hbehaviour d hd

theorem Node.exists_numbered_run {n : Node} {s : Sizes} {m : Module} (hm : n.leafModule s = .ok m)
    (e : Nat → Int) (arrives : Nat → Bool) :
    ∃ τ : Trace, m.Obeyed τ ∧ (τ.input 0).Carries e ∧ (τ.input 0).fires = arrives := by
  obtain ⟨τ, hτ, hinputs⟩ := Node.exists_run hm
    (fun _ t => .number (e (Nat.count (fun u => arrives u = true) (t + 1)))) (fun _ t => .truth (arrives t))
  have hfires : (τ.input 0).fires = arrives := funext fun t => congrArg Value.isTrue (hinputs 0 t).2
  refine ⟨τ, hτ, fun t _ => (hinputs 0 t).1.trans ?_, hfires⟩
  rw [Stream.rank, hfires]

namespace Kind
variable {s : Sizes} (hq : 0 < s.queue) {τ : Trace}
include hq

theorem Runs.cumulate_sliding {f : Fold} (h : (Kind.cumulate f).Runs s τ) {e : Nat → Int}
    (he : (τ.input 0).Carries e) {t : Nat} (hx : (τ.input 0).fires t = true) :
    (τ.output 0).value t = .number (f.sliding s.domain e ((τ.input 0).rank t) ((τ.input 0).rank t)) := by
  rw [h.cumulate_output hq]
  exact he.over_events hx f s.domain

theorem Runs.kept_cumulate {f : Fold} (h : (Kind.cumulate f).Runs s τ) (hd : 0 < s.domain) {e : Nat → Int}
    (he : (τ.input 0).Carries e) (hrange : ∀ r, 0 ≤ e r ∧ e r < s.domain) :
    ∀ d ∈ (Circuit.cumulate s f).declarations, d.Kept τ := by
  have hstarted (t : Nat) : ((Expr.own .started).eval (τ t)).Fits .boolean := by
    rw [(h.accumulated hq t).started]
    trivial
  obtain ⟨b, hb, -, hbehaviour⟩ := id h
  obtain rfl := Except.ok.inj hb
  have hassigns := hbehaviour.assigns
  simp only [Circuit.cumulate, List.forall_mem_cons] at hassigns
  obtain ⟨hfirst, -, hnext, -⟩ := hassigns
  -- before the first arrival the register has its first value, and from then on what was put out last
  have haccumulator (t : Nat) : ((Expr.own .accumulator).eval (τ t)).Fits (s.scalar .integer) := by
    induction t with
    | zero =>
      have hzero : (Expr.own .accumulator).eval (τ 0) = .number 0 := hfirst
      rw [hzero]
      exact ⟨Int.le_refl 0, Int.sub_nonneg_of_le hd⟩
    | succ t ih =>
      have hstep : (Expr.own .accumulator).eval (τ (t + 1)) =
          (Expr.choose Queue.ready (.own (.outValue 0)) (.own .accumulator)).eval (τ t) := hnext t
      rw [hstep, Expr.eval_choose, (h.single hq rfl t).1]
      cases hx : (τ.input 0).fires t with
      | false => exact ih
      | true =>
        have hvalue : (Expr.own (.outValue 0)).eval (τ t) = _ := h.cumulate_sliding hq he hx
        obtain ⟨hlow, hhigh⟩ := f.sliding_mem_domain hd hrange ((τ.input 0).rank t) ((τ.input 0).rank t)
        rw [Value.isTrue, if_pos rfl, hvalue]
        exact ⟨hlow, Int.le_sub_one_of_lt hhigh⟩
  intro d hd
  obtain rfl | hd := List.mem_cons.1 hd
  · exact Declaration.kept_scalar haccumulator
  · obtain rfl := List.mem_singleton.1 hd
    exact Declaration.kept_scalar hstarted

end Kind

/-- In every run of its module, whenever something arrives, a node that trims passes on the arrivals above the
rank `n`, one that decimates those of the ranks `1`, `n + 1`, `2 * n + 1` and so on, and one that cumulates puts
out, with each arrival, the fold of all numbers up to it. -/
theorem counting_nodes_over_arrivals (id : NodeId) (type : PortType) {s : Sizes} (hd : 0 < s.domain)
    (hq : 0 < s.queue) :
    (∀ n, ∃ m, (Node.mk id (.trim n type)).leafModule s = .ok m ∧ m.isBracketed ∧ ∀ τ : Trace, m.Obeyed τ →
      m.KeepsRegisters τ ∧
        ∀ t, ((τ.output 0).fires t = true ↔ (τ.input 0).fires t = true ∧ n < (τ.input 0).rank t) ∧
          ((τ.output 0).fires t = true → (τ.output 0).value t = (τ.input 0).value t)) ∧
    (∀ n hn, ∃ m, (Node.mk id (.decimate n hn type)).leafModule s = .ok m ∧ m.isBracketed ∧
      ∀ τ : Trace, m.Obeyed τ → m.KeepsRegisters τ ∧
        ∀ t, ((τ.output 0).fires t = true ↔
            (τ.input 0).fires t = true ∧ ∃ i, (τ.input 0).rank t = i * n + 1) ∧
          ((τ.output 0).fires t = true → (τ.output 0).value t = (τ.input 0).value t)) ∧
    (∀ f, ∃ m, (Node.mk id (.cumulate f)).leafModule s = .ok m ∧ m.isBracketed ∧
      ∀ (τ : Trace) (e : Nat → Int), m.Obeyed τ → (τ.input 0).Carries e → (∀ r, 0 ≤ e r ∧ e r < s.domain) →
        m.KeepsRegisters τ ∧
          ∀ t, ((τ.output 0).fires t = true ↔ (τ.input 0).fires t = true) ∧
            ((τ.output 0).fires t = true →
              let v := f.sliding s.domain e ((τ.input 0).rank t) ((τ.input 0).rank t)
              (τ.output 0).value t = .number v ∧ (0 ≤ v ∧ v < s.domain) ∧
                ((τ.input 0).rank t = 1 → v = e 1))) := by
  refine ⟨fun n => ?_, fun n hn => ?_, fun f => ?_⟩
  · have hm : (Node.mk id (.trim n type)).leafModule s = .ok _ := rfl
    refine ⟨_, hm, Node.isBracketed_leafModule hm, fun τ hτ => ?_⟩
    have hruns : (Kind.trim n type).Runs s τ := Node.runs_of_obeyed hm hτ
    refine ⟨Node.keepsRegisters hm hτ rfl fun h => Circuit.kept_countUpTo (Circuit.obeyed_append.1 h).1, fun t => ?_⟩
    rw [hruns.trim_output hq]
    exact ⟨Stream.fires_drop_iff _ n t, fun _ => rfl⟩
  · have hm : (Node.mk id (.decimate n hn type)).leafModule s = .ok _ := rfl
    refine ⟨_, hm, Node.isBracketed_leafModule hm, fun τ hτ => ?_⟩
    have hruns : (Kind.decimate n hn type).Runs s τ := Node.runs_of_obeyed hm hτ
    refine ⟨Node.keepsRegisters hm hτ rfl fun h => Circuit.kept_countModulo hn (Circuit.obeyed_append.1 h).1,
      fun t => ?_⟩
    rw [hruns.decimate_output hq]
    exact ⟨Stream.fires_every_iff _ n t, fun _ => rfl⟩
  · have hm : (Node.mk id (.cumulate f)).leafModule s = .ok _ := rfl
    refine ⟨_, hm, Node.isBracketed_leafModule hm, fun τ e hτ he hrange => ?_⟩
    have hruns : (Kind.cumulate f).Runs s τ := Node.runs_of_obeyed hm hτ
    refine ⟨Node.keepsRegisters hm hτ rfl fun _ => hruns.kept_cumulate hq hd he hrange, fun t => ?_⟩
    have hfires : (τ.output 0).fires t = true ↔ (τ.input 0).fires t = true := by
      rw [hruns.cumulate_output hq]
      rfl
    refine ⟨hfires, fun hout => ?_⟩
    refine ⟨hruns.cumulate_sliding hq he (hfires.1 hout), f.sliding_mem_domain hd hrange _ _, fun hone => ?_⟩
    rw [hone]
    exact f.sliding_one s.domain e (Nat.le_refl 1)

/-- The ranks themselves, modulo five, arrive at every other moment: at a node that trims two of them, at one that
takes every third, and at one that multiplies them up. -/
theorem counting_nodes_over_ranks : ∃ trim decimate cumulate τ τ' τ'',
    ((Node.mk 2 (.trim 2 .integer)).leafModule ⟨5, 2⟩ = .ok trim ∧ trim.Obeyed τ ∧
      (τ.input 0).fires = (fun t => t % 2 == 0) ∧ trim.KeepsRegisters τ ∧
      ∀ t, (τ.output 0).fires t = true ↔ (τ.input 0).fires t = true ∧ 2 < (τ.input 0).rank t) ∧
    ((Node.mk 2 (.decimate 3 (by decide) .integer)).leafModule ⟨5, 2⟩ = .ok decimate ∧ decimate.Obeyed τ' ∧
      (τ'.input 0).fires = (fun t => t % 2 == 0) ∧ decimate.KeepsRegisters τ' ∧
      ∀ t, (τ'.output 0).fires t = true ↔
        (τ'.input 0).fires t = true ∧ ∃ i, (τ'.input 0).rank t = i * 3 + 1) ∧
    (Node.mk 2 (.cumulate .multiplication)).leafModule ⟨5, 2⟩ = .ok cumulate ∧ cumulate.Obeyed τ'' ∧
      (τ''.input 0).fires = (fun t => t % 2 == 0) ∧ cumulate.KeepsRegisters τ'' ∧
      ∀ t, (τ''.output 0).fires t = true → (τ''.output 0).value t = .number
        (Fold.sliding .multiplication 5 (fun r => r % 5) ((τ''.input 0).rank t) ((τ''.input 0).rank t)) := by
  obtain ⟨htrim, hdecimate, hcumulate⟩ := counting_nodes_over_arrivals 2 .integer (s := ⟨5, 2⟩) (by decide) (by decide)
  obtain ⟨trim, hm, -, hruns⟩ := htrim 2
  obtain ⟨decimate, hm', -, hruns'⟩ := hdecimate 3 (by decide)
  obtain ⟨cumulate, hm'', -, hruns''⟩ := hcumulate .multiplication
  obtain ⟨τ, hτ, -, hfires⟩ := Node.exists_numbered_run hm (fun r => r % 5) (fun t => t % 2 == 0)
  obtain ⟨τ', hτ', -, hfires'⟩ := Node.exists_numbered_run hm' (fun r => r % 5) (fun t => t % 2 == 0)
  obtain ⟨τ'', hτ'', hcarries, hfires''⟩ := Node.exists_numbered_run hm'' (fun r => r % 5) (fun t => t % 2 == 0)
  have hrange : ∀ r : Nat, 0 ≤ (r % 5 : Int) ∧ (r % 5 : Int) < 5 := by omega
  obtain ⟨hkept, houtput⟩ := hruns τ hτ
  obtain ⟨hkept', houtput'⟩ := hruns' τ' hτ'
  obtain ⟨hkept'', houtput''⟩ := hruns'' τ'' _ hτ'' hcarries hrange
  exact ⟨trim, decimate, cumulate, τ, τ', τ'', ⟨hm, hτ, hfires, hkept, fun t => (houtput t).1⟩,
    ⟨hm', hτ', hfires', hkept', fun t => (houtput' t).1⟩,
    hm'', hτ'', hfires'', hkept'', fun t hout => ((houtput'' t).2 hout).1⟩

end StreamCheck.Network
