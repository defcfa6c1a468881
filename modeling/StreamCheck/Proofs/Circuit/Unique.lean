import StreamCheck.Proofs.Circuit.Runs
import StreamCheck.Proofs.Smv.Evaluation

/-! What a circuit looks at: nothing but its inputs and what it says itself. So what arrives on the inputs
of a node decides everything that its module does. -/

namespace StreamCheck

namespace Smv

namespace Expr

def Sees (P : Spot → Prop) (e : Expr) : Prop := ∀ p ∈ e.reads, P p

section
variable {P : Spot → Prop} {n : Name} {i : Int} {v : Bool} {op : BinaryOp} {a b c e : Expr}
  {es : List Expr}

@[simp] theorem sees_bool : (bool v).Sees P := fun _ h => nomatch h

@[simp] theorem sees_num : (num i).Sees P := fun _ h => nomatch h

@[simp] theorem sees_own : (own n).Sees P ↔ P ⟨.own n, none⟩ := by
  simp [Sees, own, reads]

@[simp] theorem sees_ownSlot : (ownSlot n i).Sees P ↔ P ⟨.own n, some i⟩ := by
  simp [Sees, ownSlot, reads]

@[simp] theorem sees_paren : (paren e).Sees P ↔ e.Sees P := Iff.rfl

@[simp] theorem sees_not : (not e).Sees P ↔ e.Sees P := Iff.rfl

@[simp] theorem sees_binary : (binary op a b).Sees P ↔ a.Sees P ∧ b.Sees P :=
  List.forall_mem_append

@[simp] theorem sees_choose : (choose c a b).Sees P ↔ (c.Sees P ∧ a.Sees P) ∧ b.Sees P :=
  List.forall_mem_append.trans (and_congr_left' List.forall_mem_append)

theorem sees_conj (h : ∀ e ∈ es, e.Sees P) : (conj es).Sees P := by
  cases es with
  | nil => exact sees_bool
  | cons e es =>
    obtain ⟨he, hes⟩ := List.forall_mem_cons.1 h
    intro p hp
    rw [conj, reads_foldl_binary] at hp
    rcases List.mem_append.1 hp with hp | hp
    · exact he p hp
    · obtain ⟨e', he', hp⟩ := List.mem_flatMap.1 hp
      exact hes e' he' p hp

end

end Expr

namespace Update

def Sees (P : Spot → Prop) : Update → Prop
  | value e => e.Sees P
  | cases bs => ∀ b ∈ bs, b.1.Sees P ∧ b.2.Sees P

theorem eval_congr {s s' : State} {u : Update} (h : u.Sees fun p => s p = s' p) :
    u.eval s = u.eval s' := by
  cases u with
  | value e => exact Expr.eval_congr h
  | cases bs =>
    induction bs with
    | nil => rfl
    | cons b bs ih =>
      obtain ⟨⟨hcondition, hvalue⟩, htail⟩ := List.forall_mem_cons.1 h
      rw [eval_cases_cons, eval_cases_cons, Expr.eval_congr hcondition, Expr.eval_congr hvalue, ih htail]

theorem Sees.imp {P Q : Spot → Prop} {u : Update} (h : u.Sees P) (hPQ : ∀ p, P p → Q p) : u.Sees Q := by
  cases u with
  | value e => exact fun p hp => hPQ p (h p hp)
  | cases bs => exact fun b hb => ⟨fun p hp => hPQ p ((h b hb).1 p hp), fun p hp => hPQ p ((h b hb).2 p hp)⟩

end Update

end Smv

namespace Network
open Smv

namespace Circuit

def Says (c : Circuit) (p : Spot) : Prop :=
  (∃ d ∈ c.defines, p = ⟨.own d.1, none⟩) ∨ ∃ d ∈ c.declarations, ∃ x ∈ d.cells, p = x.1.spot

/-- A circuit that looks only at spots of some sort. -/
structure Sees (P : Spot → Prop) (c : Circuit) : Prop where
  defines : ∀ d ∈ c.defines, d.2.Sees P
  assigns : ∀ a ∈ c.assigns, a.update.Sees P

variable {P Q : Spot → Prop} {a b c : Circuit}

theorem Sees.append (ha : a.Sees P) (hb : b.Sees P) : (a ++ b).Sees P :=
  ⟨fun d hd => (List.mem_append.1 hd).elim (ha.defines d) (hb.defines d),
    fun x hx => (List.mem_append.1 hx).elim (ha.assigns x) (hb.assigns x)⟩

theorem says_append_left {p : Spot} (h : a.Says p) : (a ++ b).Says p := by
  rcases h with ⟨d, hd, rfl⟩ | ⟨d, hd, x, hx, rfl⟩
  · exact .inl ⟨d, List.mem_append_left _ hd, rfl⟩
  · exact .inr ⟨d, List.mem_append_left _ hd, x, hx, rfl⟩

theorem says_append_right {p : Spot} (h : b.Says p) : (a ++ b).Says p := by
  rcases h with ⟨d, hd, rfl⟩ | ⟨d, hd, x, hx, rfl⟩
  · exact .inl ⟨d, List.mem_append_right _ hd, rfl⟩
  · exact .inr ⟨d, List.mem_append_right _ hd, x, hx, rfl⟩

theorem sees_join {cs : List Circuit} (h : ∀ c ∈ cs, c.Sees P) : (join cs).Sees P := by
  induction cs with
  | nil => exact ⟨fun d hd => absurd hd List.not_mem_nil, fun a ha => absurd ha List.not_mem_nil⟩
  | cons c cs ih =>
    obtain ⟨hc, hcs⟩ := List.forall_mem_cons.1 h
    exact Sees.append hc (ih hcs)

theorem says_join {cs : List Circuit} (hc : c ∈ cs) {p : Spot} (hp : c.Says p) : (join cs).Says p := by
  induction cs with
  | nil => nomatch hc
  | cons c' cs ih =>
    rcases List.mem_cons.1 hc with rfl | hc
    · exact says_append_left hp
    · exact says_append_right (ih hc)

/-- Two traces of a circuit that agree on all that the circuit looks at and does not say itself agree on what
it says. -/
theorem Settled.agree (hc : c.Settled) (hdetermined : c.Determined)
    (hsees : c.Sees fun p => c.Says p ∨ P p) {σ τ : Trace} (hσ : c.Obeyed σ) (hτ : c.Obeyed τ)
    (hP : ∀ p, P p → ∀ t, σ t p = τ t p) {p : Spot} (hp : c.Says p) (t : Nat) : σ t p = τ t p := by
  -- first the cells, by the moment before; then the definitions, by their ranks
  have hdefines : ∀ t, (∀ d ∈ c.declarations, ∀ x ∈ d.cells, σ t x.1.spot = τ t x.1.spot) →
      ∀ p, c.Says p ∨ P p → σ t p = τ t p := by
    intro t hcells
    have hrank : ∀ k, ∀ d ∈ c.defines, d.1.rank = k → σ t ⟨.own d.1, none⟩ = τ t ⟨.own d.1, none⟩ := by
      intro k
      induction k using Nat.strongRecOn with
      | _ k ih =>
        intro d hd hk
        rw [hσ.defines d hd, hτ.defines d hd]
        refine Expr.eval_congr fun q hq => ?_
        have hlt := hc.graded d hd q hq
        rcases hsees.defines d hd q hq with (⟨d', hd', rfl⟩ | ⟨d', hd', x, hx, rfl⟩) | hPq
        · exact ih _ (hk ▸ hlt) d' hd' rfl
        · exact hcells d' hd' x hx
        · exact hP q hPq t
    rintro p ((⟨d, hd, rfl⟩ | ⟨d, hd, x, hx, rfl⟩) | hPp)
    · exact hrank _ d hd rfl
    · exact hcells d hd x hx
    · exact hP p hPp t
  have hall : ∀ d ∈ c.declarations, ∀ x ∈ d.cells, σ t x.1.spot = τ t x.1.spot := by
    induction t with
    | zero =>
      intro d hd x hx
      obtain ⟨a, ha, hcell, hfirst⟩ := hdetermined d hd x hx .first (.inl rfl)
      have haσ := hσ.assigns a ha
      have haτ := hτ.assigns a ha
      simp only [Assign.Obeyed, hfirst, hcell] at haσ haτ
      rw [haσ, haτ]
      exact hc.first_constant a ha hfirst _ _
    | succ t ih =>
      intro d hd x hx
      obtain ⟨a, ha, hcell, hafter⟩ := hdetermined d hd x hx .after (.inr rfl)
      have haσ := hσ.assigns a ha
      have haτ := hτ.assigns a ha
      simp only [Assign.Obeyed, hafter, hcell] at haσ haτ
      rw [haσ t, haτ t]
      exact Update.eval_congr ((hsees.assigns a ha).imp fun q hq => hdefines t ih q hq)
  exact hdefines t hall p (.inl hp)

end Circuit

namespace Queue
variable {s : Sizes} {j : Nat} {type : PortType} {P : Spot → Prop}

theorem says_slot {i : Nat} (hi : i < s.queue.toNat) :
    (circuit s j type).Says ⟨.own (.queueFlags j), some (i : Int)⟩ ∧
      (circuit s j type).Says ⟨.own (.queueValues j), some (i : Int)⟩ := by
  constructor
  · exact .inr ⟨⟨.queueFlags j, .array s.queue .boolean⟩, by simp [circuit],
      (⟨.queueFlags j, some i⟩, .boolean), List.mem_map.2 ⟨i, List.mem_range.2 hi, rfl⟩, rfl⟩
  · exact .inr ⟨⟨.queueValues j, .array s.queue (s.scalar type)⟩, by simp [circuit],
      (⟨.queueValues j, some i⟩, s.scalar type), List.mem_map.2 ⟨i, List.mem_range.2 hi, rfl⟩, rfl⟩

structure SeesQueue (P : Spot → Prop) (q j : Nat) : Prop where
  flag : ∀ i < q, (flag j i).Sees P
  value : ∀ i < q, (value j i).Sees P
  ready : ready.Sees P
  arrives : (arrives j).Sees P
  arriving : (arriving j).Sees P

theorem sees_nextFlag {q i : Nat} (h : SeesQueue P q j) (hi : i < q) : (nextFlag q j i).Sees P := by
  have hbehind : (if i + 1 < q then flag j (i + 1) else .bool false).Sees P := by
    split
    · exact h.flag _ ‹_›
    · exact Expr.sees_bool
  have hahead : (if 0 < i then flag j (i - 1) else .bool true).Sees P := by
    split
    · exact h.flag _ (by omega)
    · exact Expr.sees_bool
  have hhere := h.flag i hi
  simp [nextFlag, Update.Sees, both, h.ready, h.arrives, hbehind, hahead, hhere]

theorem sees_nextValue {q i : Nat} (h : SeesQueue P q j) (hi : i < q) : (nextValue q j i).Sees P := by
  have hflag := h.flag i hi
  have hvalue := h.value i hi
  have hlast : (Expr.choose (flag j i) (arriving j) (value j i)).Sees P := by
    simp [hflag, hvalue, h.arriving]
  have hbefore : 0 < i → (flag j (i - 1)).Sees P := fun _ => h.flag _ (by omega)
  by_cases hb : i + 1 < q
  · have hnext := h.flag _ hb
    have hnextValue := h.value _ hb
    by_cases h0 : 0 < i <;>
      simp [nextValue, Update.Sees, both, hb, h0, h.ready, h.arrives, h.arriving, hflag, hvalue, hnext,
        hnextValue, hbefore]
  · by_cases h0 : 0 < i <;>
      simp [nextValue, Update.Sees, both, hb, h0, h.ready, h.arrives, h.arriving, hflag, hvalue, hbefore]

theorem sees_circuit (hq : 0 < s.queue) (hP : SeesQueue P s.queue.toNat j) :
    (circuit s j type).Sees P := by
  have hflag := hP.flag 0 (by omega)
  have hvalue := hP.value 0 (by omega)
  constructor
  · simp [circuit, hflag, hvalue, hP.arrives, hP.arriving]
  · intro a ha
    obtain ⟨i, hi, rfl | rfl | rfl | rfl⟩ := mem_assigns_circuit.1 ha
    · exact Expr.sees_bool
    · cases type
      · exact Expr.sees_num
      · exact Expr.sees_bool
    · exact sees_nextFlag hP hi
    · exact sees_nextValue hP hi

end Queue

namespace Circuit
open Queue
variable {s : Sizes} {P : Spot → Prop} {types : List PortType}

structure SeesFronts (P : Spot → Prop) (arity : Nat) : Prop where
  ready : ready.Sees P
  front : ∀ j < arity, (front j).Sees P

theorem sees_countUpTo (last : Int) (hready : Queue.ready.Sees P) (hcounter : counter.Sees P) :
    (countUpTo last).Sees P := by
  constructor
  · exact fun d hd => absurd hd List.not_mem_nil
  · simp [countUpTo, starts, becomes, Update.Sees, both, hready, hcounter]

theorem sees_countModulo (limit : Int) (hready : Queue.ready.Sees P) (hcounter : counter.Sees P) :
    (countModulo limit).Sees P := by
  constructor
  · exact fun d hd => absurd hd List.not_mem_nil
  · simp [countModulo, starts, becomes, Update.Sees, hready, hcounter]

theorem sees_output {p : Nat} {value fire : Expr} (hvalue : value.Sees P) (hfire : fire.Sees P) :
    ({ defines := output p value fire } : Circuit).Sees P := by
  constructor
  · simp [output, hvalue, hfire]
  · exact fun a ha => absurd ha List.not_mem_nil

theorem sees_foldl_combine {f : Fold} {d : Int} {es : List Expr} {e : Expr} (he : e.Sees P)
    (hes : ∀ e ∈ es, e.Sees P) : (es.foldl (f.combine d) e).Sees P := by
  induction es generalizing e with
  | nil => exact he
  | cons x xs ih =>
    obtain ⟨hx, hxs⟩ := List.forall_mem_cons.1 hes
    refine ih ?_ hxs
    simp [Fold.combine, he, hx]

theorem sees_window {f : Fold} {width : Nat} (hwidth : 0 < width) (hP : SeesFronts P 1)
    (hcounter : width ≠ 1 → counter.Sees P) (hslot : ∀ i < width - 1, (windowSlot i).Sees P) :
    (window s f width).Sees P := by
  have hfront := hP.front 0 Nat.zero_lt_one
  unfold window
  split
  · exact sees_output hfront hP.ready
  · rename_i hne
    have hready (i : Int) : (readyAt i).Sees P := by simp [readyAt, both, hP.ready, hcounter hne]
    have hdeclarations : ({ declarations := [⟨.window, .array (width - 1 : Nat) (s.scalar .integer)⟩] } :
        Circuit).Sees P :=
      ⟨fun d hd => absurd hd List.not_mem_nil, fun a ha => absurd ha List.not_mem_nil⟩
    have hslots : ({ assigns := (List.range (width - 1)).flatMap fun i => [starts ⟨.window, some i⟩ (.num 0),
        becomes ⟨.window, some i⟩ (nextWindowSlot (width - 1) i)] } : Circuit).Sees P := by
      refine ⟨fun d hd => absurd hd List.not_mem_nil, fun a ha => ?_⟩
      obtain ⟨i, hi, rfl | rfl⟩ := mem_assigns_windowSlots.1 ha
      · exact Expr.sees_num
      · have hnext : (if i + 1 < width - 1 then windowSlot (i + 1) else front 0).Sees P := by
          split
          · exact hslot _ ‹_›
          · exact hfront
        simp [becomes, nextWindowSlot, Update.Sees, hready, hfront, hslot i hi, hnext]
    have hfold : (((List.range (width - 1 - 1)).map (fun i => windowSlot (i + 1)) ++ [front 0]).foldl
        (f.combine s.domain) (windowSlot 0)).Sees P := by
      refine sees_foldl_combine (hslot 0 (by omega)) fun e he => ?_
      rcases List.mem_append.1 he with he | he
      · obtain ⟨i, hi, rfl⟩ := List.mem_map.1 he
        have hi := List.mem_range.1 hi
        exact hslot (i + 1) (by omega)
      · obtain rfl := List.mem_singleton.1 he
        exact hfront
    exact ((hdeclarations.append (sees_countUpTo _ hP.ready (hcounter hne))).append hslots).append
      (sees_output hfold (hready _))

theorem says_define {c : Circuit} {n : Name} {e : Expr} (h : (n, e) ∈ c.defines) :
    c.Says ⟨.own n, none⟩ := .inl ⟨_, h, rfl⟩

theorem says_scalar {c : Circuit} {n : Name} {type : Scalar} (h : ⟨n, .scalar type⟩ ∈ c.declarations) :
    c.Says ⟨.own n, none⟩ := .inr ⟨_, h, (⟨n, none⟩, type), List.mem_singleton_self _, rfl⟩

theorem says_window {f : Fold} {width i : Nat} (hi : i < width - 1) :
    (window s f width).Says ⟨.own .window, some (i : Int)⟩ := by
  have hne : width ≠ 1 := by omega
  rw [window, if_neg hne]
  exact .inr ⟨⟨.window, .array (width - 1 : Nat) (s.scalar .integer)⟩, List.mem_cons_self,
    (⟨.window, some i⟩, s.scalar .integer), List.mem_map.2 ⟨i, List.mem_range.2 hi, rfl⟩, rfl⟩

theorem sees_behaviour {k : Kind} {b : Circuit} (h : behaviour s k = .ok b)
    (hP : SeesFronts P k.inputs.length) (hb : ∀ p, b.Says p → P p) : b.Sees P := by
  cases k with
  | bare _ _ | group _ _ _ => cases h
  | passthrough _ =>
    cases h
    exact sees_output (hP.front 0 Nat.zero_lt_one) hP.ready
  | fork n _ _ =>
    cases h
    have hfront := hP.front 0 Nat.zero_lt_one
    refine ⟨fun d hd => ?_, fun a ha => absurd ha List.not_mem_nil⟩
    obtain ⟨p, -, hd⟩ := List.mem_flatMap.1 hd
    rcases List.mem_pair.1 hd with rfl | rfl
    · exact hfront
    · exact hP.ready
  | trim n _ =>
    cases h
    have hcounter : counter.Sees P := Expr.sees_own.2 (hb _ (says_scalar List.mem_cons_self))
    refine (sees_countUpTo _ hP.ready hcounter).append (sees_output (hP.front 0 Nat.zero_lt_one) ?_)
    simp [readyAt, both, hP.ready, hcounter]
  | decimate n _ _ =>
    cases h
    have hcounter : counter.Sees P := Expr.sees_own.2 (hb _ (says_scalar List.mem_cons_self))
    refine (sees_countModulo _ hP.ready hcounter).append (sees_output (hP.front 0 Nat.zero_lt_one) ?_)
    simp [readyAt, both, hP.ready, hcounter]
  | filter _ =>
    cases h
    have hfront := hP.front 1 Nat.one_lt_two
    refine sees_output (hP.front 0 Nat.zero_lt_two) ?_
    simp [both, hP.ready, hfront]
  | constant v _ =>
    obtain ⟨e, he, rfl⟩ := behaviour_constant_eq_ok.1 h
    obtain ⟨b, rfl⟩ | ⟨n, rfl⟩ := literal_eq_ok he
    · exact sees_output Expr.sees_bool hP.ready
    · exact sees_output Expr.sees_num hP.ready
  | apply op _ =>
    cases h
    refine sees_output ?_ hP.ready
    have hfirst : 0 < op.arity → (front 0).Sees P := fun h => hP.front 0 (by simpa [Kind.inputs] using h)
    have hsecond : 1 < op.arity → (front 1).Sees P := fun h => hP.front 1 (by simpa [Kind.inputs] using h)
    cases op <;> simp_all [Operator.combine, Operator.arity, Fold.combine]
  | cumulate f =>
    cases h
    have hfront := hP.front 0 Nat.zero_lt_one
    have hacc := hb _ (says_scalar (n := .accumulator) List.mem_cons_self)
    have hstarted := hb _ (says_scalar (n := .started) (List.mem_cons_of_mem _ List.mem_cons_self))
    have hout := hb _ (says_define (n := .outValue 0) List.mem_cons_self)
    constructor
    · simp [cumulate, output, Fold.combine, hfront, hP.ready, hacc, hstarted]
    · simp [cumulate, starts, becomes, Update.Sees, hP.ready, hacc, hstarted, hout]
  | window _ f width hwidth =>
    cases h
    refine sees_window hwidth hP (fun hne => ?_) fun i hi => Expr.sees_ownSlot.2 (hb _ (says_window hi))
    refine Expr.sees_own.2 (hb _ ?_)
    rw [window, if_neg hne]
    exact says_scalar (List.mem_cons_of_mem _ List.mem_cons_self)

theorem says_output {k : Kind} {b : Circuit} (h : behaviour s k = .ok b) {p : Nat}
    (hp : p < k.outputs.length) : b.Says ⟨.own (.outValue p), none⟩ ∧ b.Says ⟨.own (.outFire p), none⟩ := by
  have hone {value fire : Expr} (hp : p < 1) (c : Circuit) :
      (c ++ { defines := output 0 value fire }).Says ⟨.own (.outValue p), none⟩ ∧
        (c ++ { defines := output 0 value fire }).Says ⟨.own (.outFire p), none⟩ := by
    obtain rfl : p = 0 := by omega
    exact ⟨says_append_right (says_define List.mem_cons_self),
      says_append_right (says_define (List.mem_cons_of_mem _ List.mem_cons_self))⟩
  cases k with
  | bare _ _ | group _ _ _ => cases h
  | passthrough _ | filter _ | apply _ _ =>
    cases h
    exact hone hp {}
  | trim _ _ | decimate _ _ _ =>
    cases h
    exact hone hp _
  | fork n _ _ =>
    cases h
    have hp : p ∈ List.range n := by simpa [Kind.outputs] using hp
    exact ⟨says_define (List.mem_flatMap.2 ⟨p, hp, List.mem_cons_self⟩),
      says_define (List.mem_flatMap.2 ⟨p, hp, List.mem_cons_of_mem _ List.mem_cons_self⟩)⟩
  | constant v _ =>
    obtain ⟨e, he, rfl⟩ := behaviour_constant_eq_ok.1 h
    exact hone hp {}
  | cumulate f =>
    cases h
    obtain rfl : p = 0 := Nat.lt_one_iff.1 hp
    exact ⟨says_define List.mem_cons_self, says_define (List.mem_cons_of_mem _ List.mem_cons_self)⟩
  | window _ f width _ =>
    cases h
    unfold window
    split
    · exact hone hp {}
    · exact hone hp _

end Circuit

def InputSpot (arity : Nat) (p : Spot) : Prop :=
  ∃ j < arity, p = ⟨.own (.inValue j), none⟩ ∨ p = ⟨.own (.inFire j), none⟩

open Queue Circuit in
theorem Circuit.sees_ofKind {s : Sizes} (hq : 0 < s.queue) {k : Kind} {b : Circuit}
    (h : behaviour s k = .ok b) : (circuits s k.inputs ++ b).Sees fun p =>
      (circuits s k.inputs ++ b).Says p ∨ InputSpot k.inputs.length p := by
  have hready : (circuits s k.inputs ++ b).Says ⟨.own .ready, none⟩ :=
    says_append_left (says_append_right (says_define List.mem_cons_self))
  have hqueue {type : PortType} {j : Nat} (hj : (type, j) ∈ k.inputs.zipIdx) {p : Spot}
      (hp : (circuit s j type).Says p) : (circuits s k.inputs ++ b).Says p :=
    says_append_left (says_append_left (says_join (List.mem_map.2 ⟨_, hj, rfl⟩) hp))
  have hport {j : Nat} (hj : j < k.inputs.length) : (k.inputs[j], j) ∈ k.inputs.zipIdx :=
    List.mk_mem_zipIdx_iff_getElem?.2 (List.getElem?_eq_getElem hj)
  refine ((sees_join ?_).append ?_).append (sees_behaviour h ?_ fun p hp => .inl (says_append_right hp))
  · intro c hc
    obtain ⟨⟨type, j⟩, hj, rfl⟩ := List.mem_map.1 hc
    have hlt : j < k.inputs.length := by
      obtain ⟨hlt, -⟩ := List.getElem?_eq_some_iff.1 (List.mk_mem_zipIdx_iff_getElem?.1 hj)
      exact hlt
    refine sees_circuit hq ⟨fun i hi => ?_, fun i hi => ?_, ?_, ?_, ?_⟩
    · exact Expr.sees_ownSlot.2 (.inl (hqueue hj (says_slot hi).1))
    · exact Expr.sees_ownSlot.2 (.inl (hqueue hj (says_slot hi).2))
    · exact Expr.sees_own.2 (.inl hready)
    · exact Expr.sees_own.2 (.inr ⟨j, hlt, .inr rfl⟩)
    · exact Expr.sees_own.2 (.inr ⟨j, hlt, .inl rfl⟩)
  · refine ⟨fun d hd => ?_, fun a ha => absurd ha List.not_mem_nil⟩
    obtain rfl := List.mem_singleton.1 hd
    refine Expr.sees_conj fun e he => ?_
    obtain ⟨j, hj, rfl⟩ := List.mem_map.1 he
    exact Expr.sees_own.2 (.inl (hqueue (hport (List.mem_range.1 hj)) (says_define List.mem_cons_self)))
  · refine ⟨Expr.sees_own.2 (.inl hready), fun j hj => Expr.sees_own.2 (.inl (hqueue (hport hj) ?_))⟩
    exact says_define (List.mem_cons_of_mem _ List.mem_cons_self)

def Kind.Runs (s : Sizes) (k : Kind) (τ : Trace) : Prop :=
  ∃ b, Circuit.behaviour s k = .ok b ∧ (Queue.circuits s k.inputs).Obeyed τ ∧ b.Obeyed τ

theorem Node.runs_of_obeyed {n : Node} {s : Sizes} {m : Module} {τ : Trace} (hm : n.leafModule s = .ok m)
    (h : m.Obeyed τ) : n.kind.Runs s τ := by
  obtain ⟨hqueues, b, hb, hbehaviour⟩ := Node.leafModule_parts hm h
  exact ⟨b, hb, hqueues, hbehaviour⟩

/-- What arrives on the inputs of a node decides what it puts out. -/
theorem Kind.Runs.output_unique {s : Sizes} (hq : 0 < s.queue) {k : Kind} {σ τ : Trace}
    (hσ : k.Runs s σ) (hτ : k.Runs s τ) (hinputs : ∀ j < k.inputs.length, ∀ t,
      σ t ⟨.own (.inValue j), none⟩ = τ t ⟨.own (.inValue j), none⟩ ∧
        σ t ⟨.own (.inFire j), none⟩ = τ t ⟨.own (.inFire j), none⟩) {p : Nat} (hp : p < k.outputs.length)
    (t : Nat) : σ t ⟨.own (.outValue p), none⟩ = τ t ⟨.own (.outValue p), none⟩ ∧
      σ t ⟨.own (.outFire p), none⟩ = τ t ⟨.own (.outFire p), none⟩ := by
  obtain ⟨b, hb, hqueues, hbehaviour⟩ := hσ
  obtain ⟨b', hb', hqueues', hbehaviour'⟩ := hτ
  obtain rfl : b = b' := Except.ok.inj (hb.symm.trans hb')
  have hspots : ∀ q, InputSpot k.inputs.length q → ∀ t, σ t q = τ t q := by
    rintro q ⟨j, hj, rfl | rfl⟩ t
    · exact (hinputs j hj t).1
    · exact (hinputs j hj t).2
  have hagree {q : Spot} (hsaid : b.Says q) : σ t q = τ t q :=
    (Circuit.settled_ofKind hb).agree (Circuit.determined_ofKind hb) (Circuit.sees_ofKind hq hb)
      (Circuit.obeyed_append.2 ⟨hqueues, hbehaviour⟩) (Circuit.obeyed_append.2 ⟨hqueues', hbehaviour'⟩) hspots
      (Circuit.says_append_right hsaid) t
  obtain ⟨hvalue, hfire⟩ := Circuit.says_output hb hp
  exact ⟨hagree hvalue, hagree hfire⟩

end Network
end StreamCheck
