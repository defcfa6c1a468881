import StreamCheck.Proofs.Circuit.Ranks
import StreamCheck.Proofs.Smv.Ranges

/-! Ranges of circuits: as long as what arrives on its inputs is of the types of its ports, everything in the module
of a node keeps to the values that it is declared with, whether the node fires or not. -/

namespace StreamCheck.Smv

namespace Module

def slots (m : Module) (r : Ref) : Int :=
  ((m.declarations.find? fun d => decide (r = .own d.name)).map (·.type.size)).getD 0

theorem slots_of_mem {m : Module} (hnodup : (m.declarations.map Declaration.name).Nodup) {d : Declaration}
    (hd : d ∈ m.declarations) : m.slots (.own d.name) = d.type.size := by
  have hfind : m.declarations.find? (fun d' => decide (Ref.own d.name = .own d'.name)) = some d := by
    refine find?_eq_some_of_unique hd (decide_eq_true rfl) fun d' hd' hname => ?_
    have hname : d.name = d'.name := congrArg Ref.name (of_decide_eq_true hname)
    exact List.inj_on_of_nodup_map hnodup hd' hd hname.symm
  rw [slots, hfind]
  rfl

theorem slot_of_mem_cells {m : Module} (hnodup : (m.declarations.map Declaration.name).Nodup) {d : Declaration}
    (hd : d ∈ m.declarations) {x : Cell × Scalar} (hx : x ∈ d.cells) :
    ∀ i ∈ x.1.spot.slot, 0 ≤ i ∧ i < m.slots x.1.spot.ref := by
  intro i hi
  have hsize := slots_of_mem hnodup hd
  obtain ⟨name, t | ⟨size, t⟩ | ⟨callee, args⟩⟩ := d
  · obtain rfl := List.mem_singleton.1 hx
    nomatch hi
  · obtain ⟨i', hlt, rfl⟩ := List.mem_map.1 hx
    obtain rfl := Option.some.inj hi
    refine ⟨Int.natCast_nonneg i', ?_⟩
    change (i' : Int) < m.slots (.own name)
    rw [hsize]
    exact Int.lt_toNat.1 (List.mem_range.1 hlt)
  · nomatch hx

/-- Along a trace, a module keeps to what it declares. -/
structure StaysInRange (m : Module) (σ : Trace) : Prop where
  /-- Every variable and every slot of an array has a value of its type. -/
  declared : ∀ d ∈ m.declarations, d.Kept σ
  /-- Every definition can be evaluated, and has a type. -/
  defines : ∀ d ∈ m.defines, ∃ type, ∀ t, d.2.Yields m.slots (σ t) type
  /-- Every assignment can be evaluated, and assigns a value of the type of its target. -/
  assigns : ∀ a ∈ m.assigns, ∃ d ∈ m.declarations, ∃ x ∈ d.cells, x.1 = a.cell ∧
    ∀ t, a.update.Yields m.slots (σ t) x.2

end Module
end StreamCheck.Smv

namespace StreamCheck.Network
open Smv

/-- At every moment, whether an event passes or not, a stream has a value of some type. -/
def Stream.Within (x : Stream) (type : Scalar) : Prop := ∀ t, (x.value t).Fits type ∧ (x t).2.Fits .boolean

namespace Circuit

/-- A circuit that gives each name values of its range, as long as what it looks at keeps to its own. -/
structure Sound (range : Name → Scalar) (size : Ref → Int) (c : Circuit) : Prop where
  declared : ∀ d ∈ c.declarations, ∀ x ∈ d.cells, x.2 = range d.name
  defines : ∀ d ∈ c.defines, d.2.StaysIn range size (range d.1)
  assigns : ∀ a ∈ c.assigns, a.Sound range size

section
variable {range : Name → Scalar} {size : Ref → Int} {a b c : Circuit} {P : Spot → Prop} {σ : Trace}

theorem sound_starts {x : Cell} {e : Expr} (he : e.StaysIn range size (range x.name))
    (hblind : e.Sees fun _ => False) : (starts x e).Sound range size :=
  ⟨Update.staysIn_value he, fun _ => hblind⟩

theorem sound_becomes {x : Cell} {u : Update} (hu : u.StaysIn range size (range x.name)) :
    (becomes x u).Sound range size :=
  ⟨hu, nofun⟩

theorem Sound.append (ha : a.Sound range size) (hb : b.Sound range size) : (a ++ b).Sound range size where
  declared d hd := (List.mem_append.1 hd).elim (ha.declared d) (hb.declared d)
  defines d hd := (List.mem_append.1 hd).elim (ha.defines d) (hb.defines d)
  assigns x hx := (List.mem_append.1 hx).elim (ha.assigns x) (hb.assigns x)

theorem sound_defines {ds : List (Name × Expr)} (h : ∀ d ∈ ds, d.2.StaysIn range size (range d.1)) :
    ({ defines := ds } : Circuit).Sound range size :=
  ⟨List.forall_mem_nil _, h, List.forall_mem_nil _⟩

theorem sound_declarations {ds : List Declaration} (h : ∀ d ∈ ds, ∀ x ∈ d.cells, x.2 = range d.name) :
    ({ declarations := ds } : Circuit).Sound range size :=
  ⟨h, List.forall_mem_nil _, List.forall_mem_nil _⟩

theorem sound_assigns {xs : List Assign} (h : ∀ a ∈ xs, a.Sound range size) :
    ({ assigns := xs } : Circuit).Sound range size :=
  ⟨List.forall_mem_nil _, List.forall_mem_nil _, h⟩

theorem sound_join {cs : List Circuit} (h : ∀ c ∈ cs, c.Sound range size) : (join cs).Sound range size := by
  induction cs with
  | nil => exact sound_defines (List.forall_mem_nil _)
  | cons c cs ih =>
    obtain ⟨hc, hcs⟩ := List.forall_mem_cons.1 h
    exact Sound.append hc (ih hcs)

/-! ### Runs -/

section
variable (hsound : c.Sound range size) (hc : c.Settled) (hsees : c.Sees fun p => c.Says p ∨ P p) (hσ : c.Obeyed σ)
include hsound hc hsees hσ

/-- At a moment, the definitions follow the cells, in the order of their ranks. -/
theorem Sound.keeps_of_cells {t : Nat} (hP : ∀ p, P p → (σ t).Keeps range size p)
    (hcells : ∀ d ∈ c.declarations, ∀ x ∈ d.cells, (σ t).Keeps range size x.1.spot) :
    ∀ p, c.Says p ∨ P p → (σ t).Keeps range size p := by
  -- What a definition looks at is of lower rank, and is another definition, a cell or one of `P`.
  have hrank : ∀ k, ∀ d ∈ c.defines, d.1.rank = k → (σ t).Keeps range size ⟨.own d.1, none⟩ := by
    intro k
    induction k using Nat.strongRecOn with
    | _ k ih =>
      intro d hd hk
      refine ⟨fun i hi => (nomatch hi), ?_⟩
      rw [hσ.defines d hd]
      refine (hsound.defines d hd (σ t) fun q hq => ?_).fits
      have hlt := hc.graded d hd q hq
      rcases hsees.defines d hd q hq with (⟨d', hd', rfl⟩ | ⟨d', hd', x, hx, rfl⟩) | hPq
      · exact ih _ (hk ▸ hlt) d' hd' rfl
      · exact hcells d' hd' x hx
      · exact hP q hPq
  rintro p ((⟨d, hd, rfl⟩ | ⟨d, hd, x, hx, rfl⟩) | hPp)
  · exact hrank _ d hd rfl
  · exact hcells d hd x hx
  · exact hP p hPp

theorem Sound.keeps (hdetermined : c.Determined)
    (hslots : ∀ p, c.Says p → ∀ i ∈ p.slot, 0 ≤ i ∧ i < size p.ref)
    (hP : ∀ p, P p → ∀ t, (σ t).Keeps range size p) (t : Nat) :
    ∀ p, c.Says p ∨ P p → (σ t).Keeps range size p := by
  have hcell : ∀ t, ∀ d ∈ c.declarations, ∀ x ∈ d.cells, (σ t x.1.spot).Fits (range d.name) →
      (σ t).Keeps range size x.1.spot := by
    intro t d hd x hx hfits
    refine ⟨hslots _ (.inr ⟨d, hd, x, hx, rfl⟩), ?_⟩
    rwa [← Declaration.name_of_mem_cells hx] at hfits
  have hname {d : Declaration} {x : Cell × Scalar} {a : Assign} (hx : x ∈ d.cells) (ha : a.cell = x.1) :
      a.cell.name = d.name := by
    rw [ha, Declaration.name_of_mem_cells hx]
  -- Cells carry the ranges from one moment to the next; at each moment the definitions follow.
  refine hsound.keeps_of_cells hc hsees hσ (fun p hp => hP p hp t) ?_
  induction t with
  | zero =>
    intro d hd x hx
    obtain ⟨a, ha, hax, hfirst⟩ := hdetermined d hd x hx .first (.inl rfl)
    have hobeyed := hσ.assigns a ha
    simp only [Assign.Obeyed, hfirst, hax] at hobeyed
    refine hcell 0 d hd x hx ?_
    rw [hobeyed, ← hname hx hax]
    obtain ⟨hstays, hblind⟩ := hsound.assigns a ha
    exact (hstays (σ 0) ((hblind hfirst).imp fun _ => False.elim)).fits
  | succ t ih =>
    intro d hd x hx
    obtain ⟨a, ha, hax, hafter⟩ := hdetermined d hd x hx .after (.inr rfl)
    have hobeyed := hσ.assigns a ha
    simp only [Assign.Obeyed, hafter, hax] at hobeyed
    refine hcell (t + 1) d hd x hx ?_
    rw [hobeyed t, ← hname hx hax]
    have hkeeps := hsound.keeps_of_cells hc hsees hσ (fun p hp => hP p hp t) ih
    exact ((hsound.assigns a ha).staysIn (σ t) ((hsees.assigns a ha).imp hkeeps)).fits

end
end
end Circuit

/-! ### Ranges of the names of a node -/

namespace Kind

def lastCount : Kind → Int
  | trim count _ => count
  | decimate interval _ _ => interval - 1
  | window _ _ width _ => (width - 1 : Nat)
  | _ => 0

def range (k : Kind) (s : Sizes) : Name → Scalar
  | .inValue j | .queueValues j | .front j => s.scalar (k.inputs.getD j .integer)
  | .outValue p => s.scalar (k.outputs.getD p .integer)
  | .counter => .upTo k.lastCount
  | .accumulator | .window => s.scalar .integer
  | _ => .boolean

theorem range_inValue {k : Kind} {j : Nat} {type : PortType} (hj : k.inputs[j]? = some type) (s : Sizes) :
    k.range s (.inValue j) = s.scalar type := by
  rw [range, List.getD_eq_getElem?_getD, hj, Option.getD_some]

theorem range_outValue {k : Kind} {p : Nat} {type : PortType} (hp : k.outputs[p]? = some type) (s : Sizes) :
    k.range s (.outValue p) = s.scalar type := by
  rw [range, List.getD_eq_getElem?_getD, hp, Option.getD_some]

end Kind

theorem Sizes.zero_le_last {s : Sizes} (hd : 0 < s.domain) : 0 ≤ (0 : Int) ∧ 0 ≤ s.domain - 1 :=
  ⟨Int.le_refl 0, Int.sub_nonneg_of_le hd⟩

/-! ### Queues -/

namespace Queue
variable {k : Kind} {s : Sizes} {size : Ref → Int} {j : Nat}

theorem staysIn_ready : ready.StaysIn (k.range s) size .boolean := Expr.staysIn_own _

theorem staysIn_arrives (j : Nat) : (arrives j).StaysIn (k.range s) size .boolean := Expr.staysIn_own _

theorem staysIn_arriving (j : Nat) : (arriving j).StaysIn (k.range s) size (k.range s (.inValue j)) :=
  Expr.staysIn_own _

theorem staysIn_front (j : Nat) : (front j).StaysIn (k.range s) size (k.range s (.inValue j)) := Expr.staysIn_own _

theorem staysIn_flag (j i : Nat) : (flag j i).StaysIn (k.range s) size .boolean := Expr.staysIn_ownSlot _ _

theorem staysIn_value (j i : Nat) : (value j i).StaysIn (k.range s) size (k.range s (.inValue j)) :=
  Expr.staysIn_ownSlot _ _

theorem staysIn_both {range : Name → Scalar} {a b : Expr} (ha : a.StaysIn range size .boolean)
    (hb : b.StaysIn range size .boolean) : (both a b).StaysIn range size .boolean :=
  ha.binary hb BinaryOp.gives_and

theorem staysIn_nextFlag (q j i : Nat) : (nextFlag q j i).StaysIn (k.range s) size .boolean := by
  refine Update.staysIn_cases ?_ ⟨flag j i, by simp⟩
  simp only [List.forall_mem_cons]
  refine ⟨⟨staysIn_both staysIn_ready (staysIn_arrives j).not, (staysIn_flag j _).ite (Expr.staysIn_bool false)⟩,
    ⟨staysIn_both staysIn_ready.not (staysIn_arrives j), ?_⟩,
    ⟨Expr.staysIn_bool true, staysIn_flag j i⟩, List.forall_mem_nil _⟩
  exact (staysIn_flag j i).binary ((staysIn_flag j _).ite (Expr.staysIn_bool true)) BinaryOp.gives_or

theorem staysIn_nextValue (q j i : Nat) :
    (nextValue q j i).StaysIn (k.range s) size (k.range s (.inValue j)) := by
  have hlast : (Expr.choose (flag j i) (arriving j) (value j i)).StaysIn (k.range s) size (k.range s (.inValue j)) :=
    (staysIn_flag j i).choose (staysIn_arriving j) (staysIn_value j i)
  have hfree : (both (arrives j) (.not (flag j i))).StaysIn (k.range s) size .boolean :=
    staysIn_both (staysIn_arrives j) (staysIn_flag j i).not
  refine Update.staysIn_cases ?_ ⟨value j i, by simp⟩
  simp only [List.forall_mem_cons]
  refine ⟨⟨staysIn_both staysIn_ready (staysIn_arrives j), ?_⟩,
    ⟨staysIn_both staysIn_ready (staysIn_arrives j).not, (staysIn_value j _).ite (staysIn_value j i)⟩,
    ⟨(staysIn_both hfree (staysIn_flag j _)).ite hfree, staysIn_arriving j⟩,
    ⟨Expr.staysIn_bool true, staysIn_value j i⟩, List.forall_mem_nil _⟩
  exact ((staysIn_flag j _).choose (staysIn_value j _) hlast.paren).ite hlast

theorem sound_circuit {type : PortType} (hd : 0 < s.domain) (hj : k.inputs[j]? = some type) :
    (circuit s j type).Sound (k.range s) size := by
  have htype := Kind.range_inValue hj s
  have hblank (i : Nat) : (Circuit.starts ⟨.queueValues j, some i⟩ (blank type)).Sound (k.range s) size := by
    cases type with
    | integer => exact Circuit.sound_starts (htype ▸ Expr.staysIn_num (Sizes.zero_le_last hd)) Expr.sees_num
    | boolean => exact Circuit.sound_starts (htype ▸ Expr.staysIn_bool false) Expr.sees_bool
  refine ⟨fun d hd x hx => ?_, fun d hd => ?_, fun a ha => ?_⟩
  · rcases List.mem_pair.1 hd with rfl | rfl
    · obtain ⟨i, -, rfl⟩ := List.mem_map.1 hx
      exact htype.symm
    · obtain ⟨i, -, rfl⟩ := List.mem_map.1 hx
      rfl
  · rcases List.mem_pair.1 hd with rfl | rfl
    · exact (staysIn_flag j 0).binary (staysIn_arrives j) BinaryOp.gives_or
    · exact (staysIn_flag j 0).choose (staysIn_value j 0) (staysIn_arriving j)
  · obtain ⟨i, -, rfl | rfl | rfl | rfl⟩ := mem_assigns_circuit.1 ha
    · exact Circuit.sound_starts (Expr.staysIn_bool false) Expr.sees_bool
    · exact hblank i
    · exact Circuit.sound_becomes (staysIn_nextFlag _ j i)
    · exact Circuit.sound_becomes (staysIn_nextValue _ j i)

theorem sound_circuits (hd : 0 < s.domain) : (circuits s k.inputs).Sound (k.range s) size := by
  refine (Circuit.sound_join fun c hc => ?_).append (Circuit.sound_defines fun d hd => ?_)
  · obtain ⟨⟨type, j⟩, hj, rfl⟩ := List.mem_map.1 hc
    exact sound_circuit hd (List.mk_mem_zipIdx_iff_getElem?.1 hj)
  · obtain rfl := List.mem_singleton.1 hd
    refine Expr.staysIn_conj fun e he => ?_
    obtain ⟨j, -, rfl⟩ := List.mem_map.1 he
    exact Expr.staysIn_own _

end Queue

/-! ### Behaviours -/

namespace Circuit
open Queue
variable {k : Kind} {s : Sizes} {size : Ref → Int}

theorem sound_output {p : Nat} {value fire : Expr}
    (hvalue : value.StaysIn (k.range s) size (k.range s (.outValue p)))
    (hfire : fire.StaysIn (k.range s) size .boolean) :
    ({ defines := output p value fire } : Circuit).Sound (k.range s) size := by
  refine sound_defines fun d hd => ?_
  rcases List.mem_pair.1 hd with rfl | rfl
  · exact hvalue
  · exact hfire

theorem sound_register {x : Name} {range : Name → Scalar} {e : Expr} {u : Update}
    (he : e.StaysIn range size (range x)) (hblind : e.Sees fun _ => False) (hu : u.StaysIn range size (range x)) :
    ({ declarations := [⟨x, .scalar (range x)⟩]
       assigns := [starts ⟨x, none⟩ e, becomes ⟨x, none⟩ u] } : Circuit).Sound range size := by
  refine ⟨fun d hd y hy => ?_, List.forall_mem_nil _, fun a ha => ?_⟩
  · obtain rfl := List.mem_singleton.1 hd
    obtain rfl := List.mem_singleton.1 hy
    rfl
  · rcases List.mem_pair.1 ha with rfl | rfl
    · exact sound_starts he hblind
    · exact sound_becomes hu

theorem staysIn_counter : counter.StaysIn (k.range s) size (.upTo k.lastCount) := Expr.staysIn_own _

theorem staysIn_readyAt {n : Int} (hn : 0 ≤ n) : (readyAt n).StaysIn (k.range s) size .boolean :=
  staysIn_both staysIn_ready
    (staysIn_counter.binary (Expr.staysIn_num ⟨hn, Int.le_refl n⟩) (BinaryOp.gives_eq rfl))

theorem sound_countUpTo (hlast : 0 ≤ k.lastCount) : (countUpTo k.lastCount).Sound (k.range s) size := by
  have hnumber {n : Int} (hn : 0 ≤ n) : (Expr.num n).StaysIn (k.range s) size (.upTo n) :=
    Expr.staysIn_num ⟨hn, Int.le_refl n⟩
  have hcondition : (both ready (.binary .lt counter (.num k.lastCount))).StaysIn (k.range s) size .boolean :=
    staysIn_both staysIn_ready (staysIn_counter.binary (hnumber hlast) (BinaryOp.gives_lt _ _))
  have hsum : (Expr.binary .add counter (.num 1)).StaysIn (k.range s) size (.upTo (k.lastCount + 1)) :=
    staysIn_counter.binary (hnumber Int.one_nonneg) (BinaryOp.gives_add _ _)
  refine sound_register (x := .counter) (Expr.staysIn_num ⟨Int.le_refl 0, hlast⟩) Expr.sees_num ?_
  refine Update.staysIn_value fun st hst => ?_
  obtain ⟨⟨hsc, hsa⟩, hsb⟩ := Expr.sees_choose.1 hst
  have hcounter := staysIn_counter st hsb
  -- The sum has a range of its own, one wider; it is taken only below the last value.
  refine (hcondition st hsc).choose (hsum st hsa) hcounter rfl fun hless => ?_
  rw [both, Expr.isTrue_eval_and, Bool.and_eq_true] at hless
  have hlt : (counter.eval st).toInt < k.lastCount := of_decide_eq_true hless.2
  obtain ⟨n, hn, hlow, -⟩ := hcounter.fits.exists_number
  change (Value.number ((counter.eval st).toInt + 1)).Fits _
  rw [hn] at hlt ⊢
  exact ⟨Int.add_nonneg hlow Int.one_nonneg, hlt⟩

theorem sound_countModulo {limit : Int} (hlast : k.lastCount = limit - 1) (hlimit : 0 < limit) :
    (countModulo limit).Sound (k.range s) size := by
  have hrange : (.upTo (limit - 1)) = k.range s .counter := congrArg Scalar.upTo hlast.symm
  have hcounter : counter.StaysIn (k.range s) size (.upTo (limit - 1)) := hlast ▸ staysIn_counter
  have hone : (Expr.num 1).StaysIn (k.range s) size (.upTo 1) := Expr.staysIn_num ⟨Int.one_nonneg, Int.le_refl 1⟩
  have hsum : (Expr.binary .add counter (.num 1)).StaysIn (k.range s) size (.upTo (limit - 1 + 1)) :=
    hcounter.binary hone (BinaryOp.gives_add _ _)
  rw [countModulo, hrange]
  refine sound_register ?_ Expr.sees_num (Update.staysIn_value ?_)
  · exact hrange ▸ Expr.staysIn_num ⟨Int.le_refl 0, Int.sub_nonneg_of_le hlimit⟩
  · exact hrange ▸ staysIn_ready.choose (hsum.paren.mod hlimit) hcounter

/-! #### Folds -/

theorem staysIn_combine {range : Name → Scalar} {f : Fold} {d m n : Int} (hd : 0 < d) {a b : Expr}
    (ha : a.StaysIn range size (.upTo m)) (hb : b.StaysIn range size (.upTo n)) :
    (f.combine d a b).StaysIn range size (.upTo (d - 1)) := by
  cases f with
  | addition => exact (ha.binary hb (BinaryOp.gives_add m n)).paren.mod hd
  | multiplication => exact (ha.binary hb (BinaryOp.gives_mul m n)).paren.mod hd

theorem staysIn_foldl_combine {range : Name → Scalar} {f : Fold} {d : Int} (hd : 0 < d) {es : List Expr} {e : Expr}
    (he : e.StaysIn range size (.upTo (d - 1))) (hes : ∀ x ∈ es, x.StaysIn range size (.upTo (d - 1))) :
    (es.foldl (f.combine d) e).StaysIn range size (.upTo (d - 1)) := by
  induction es generalizing e with
  | nil => exact he
  | cons x xs ih =>
    obtain ⟨hx, hxs⟩ := List.forall_mem_cons.1 hes
    exact ih (staysIn_combine hd he hx) hxs

theorem sound_cumulate (hd : 0 < s.domain) (f : Fold) :
    (cumulate s f).Sound ((Kind.cumulate f).range s) size := by
  have hstarted : (Expr.own .started).StaysIn ((Kind.cumulate f).range s) size .boolean := Expr.staysIn_own _
  have haccumulator : (Expr.own .accumulator).StaysIn ((Kind.cumulate f).range s) size (.upTo (s.domain - 1)) :=
    Expr.staysIn_own _
  have hfront : (front 0).StaysIn ((Kind.cumulate f).range s) size (.upTo (s.domain - 1)) := staysIn_front 0
  have hout : (Expr.own (.outValue 0)).StaysIn ((Kind.cumulate f).range s) size (.upTo (s.domain - 1)) :=
    Expr.staysIn_own _
  refine ⟨fun d hdeclared x hx => ?_, fun d hdefine => ?_, ?_⟩
  · rcases List.mem_pair.1 hdeclared with rfl | rfl <;> obtain rfl := List.mem_singleton.1 hx <;> rfl
  · rcases List.mem_pair.1 hdefine with rfl | rfl
    · exact hstarted.choose (staysIn_combine hd haccumulator hfront) hfront
    · exact staysIn_ready
  · simp only [cumulate, List.forall_mem_cons]
    exact ⟨sound_starts (Expr.staysIn_num (Sizes.zero_le_last hd)) Expr.sees_num,
      sound_starts (Expr.staysIn_bool false) Expr.sees_bool,
      sound_becomes (Update.staysIn_value (staysIn_ready.choose hout haccumulator)),
      sound_becomes (Update.staysIn_value (hstarted.binary staysIn_ready BinaryOp.gives_or)), List.forall_mem_nil _⟩

theorem staysIn_nextWindowSlot {t : Scalar} (hslot : ∀ i, (windowSlot i).StaysIn (k.range s) size t)
    (hfront : (front 0).StaysIn (k.range s) size t) (kept i : Nat) :
    (nextWindowSlot kept i).StaysIn (k.range s) size t := by
  refine Update.staysIn_cases ?_ ⟨windowSlot i, by simp⟩
  simp only [List.forall_mem_cons]
  exact ⟨⟨staysIn_readyAt (Int.natCast_nonneg _), (hslot _).ite hfront⟩,
    ⟨staysIn_readyAt (Int.natCast_nonneg _), hfront⟩,
    ⟨Expr.staysIn_bool true, hslot i⟩, List.forall_mem_nil _⟩

theorem sound_window (hd : 0 < s.domain) {processor : NodeId} {f : Fold} {width : Nat} (hwidth : 0 < width) :
    (window s f width).Sound ((Kind.window processor f width hwidth).range s) size := by
  have hfront : (front 0).StaysIn ((Kind.window processor f width hwidth).range s) size (.upTo (s.domain - 1)) :=
    staysIn_front 0
  have hslot (i : Nat) : (windowSlot i).StaysIn ((Kind.window processor f width hwidth).range s) size
      (.upTo (s.domain - 1)) := Expr.staysIn_ownSlot _ _
  unfold window
  split
  · exact sound_output hfront staysIn_ready
  · have hdeclaration : ({ declarations := [⟨.window, .array (width - 1 : Nat) (s.scalar .integer)⟩] } : Circuit).Sound
        ((Kind.window processor f width hwidth).range s) size := by
      refine sound_declarations fun d hdeclared x hx => ?_
      obtain rfl := List.mem_singleton.1 hdeclared
      obtain ⟨i, -, rfl⟩ := List.mem_map.1 hx
      rfl
    have hslots : ({ assigns := (List.range (width - 1)).flatMap fun i => [starts ⟨.window, some i⟩ (.num 0),
        becomes ⟨.window, some i⟩ (nextWindowSlot (width - 1) i)] } : Circuit).Sound
        ((Kind.window processor f width hwidth).range s) size := by
      refine sound_assigns fun a ha => ?_
      obtain ⟨i, -, rfl | rfl⟩ := mem_assigns_windowSlots.1 ha
      · exact sound_starts (Expr.staysIn_num (Sizes.zero_le_last hd)) Expr.sees_num
      · exact sound_becomes (staysIn_nextWindowSlot hslot hfront _ i)
    have hfold : (((List.range (width - 1 - 1)).map (fun i => windowSlot (i + 1)) ++ [front 0]).foldl
        (f.combine s.domain) (windowSlot 0)).StaysIn ((Kind.window processor f width hwidth).range s) size
          (.upTo (s.domain - 1)) := by
      refine staysIn_foldl_combine hd (hslot 0) fun e he => ?_
      rcases List.mem_append.1 he with he | he
      · obtain ⟨i, -, rfl⟩ := List.mem_map.1 he
        exact hslot (i + 1)
      · obtain rfl := List.mem_singleton.1 he
        exact hfront
    exact ((hdeclaration.append (sound_countUpTo (Int.natCast_nonneg _))).append hslots).append
      (sound_output hfold (staysIn_readyAt (Int.natCast_nonneg _)))

theorem staysIn_literal {range : Name → Scalar} {v : Literal} {e : Expr} (h : literal s v = .ok e) :
    e.StaysIn range size (s.scalar v.type) := by
  cases v with
  | truth b =>
    obtain rfl := Except.ok.inj h
    exact Expr.staysIn_bool b
  | number n =>
    rw [literal] at h
    split at h
    case isTrue hn =>
      obtain rfl := Except.ok.inj h
      exact Expr.staysIn_num ⟨hn.1, Int.le_sub_one_of_lt hn.2⟩
    case isFalse => cases h

theorem staysIn_apply (hd : 0 < s.domain) {op : Operator} {type : PortType} (hop : op ≠ .equals → type = .integer) :
    (op.combine s.domain front).StaysIn ((Kind.apply op type).range s) size
      ((Kind.apply op type).range s (.outValue 0)) := by
  cases op with
  | equals => exact (staysIn_front 0).binary (staysIn_front 1) (BinaryOp.gives_eq rfl)
  | addition =>
    obtain rfl := hop (by decide)
    exact staysIn_combine hd (staysIn_front 0) (staysIn_front 1)
  | multiplication =>
    obtain rfl := hop (by decide)
    exact staysIn_combine hd (staysIn_front 0) (staysIn_front 1)
  | isGreaterOrEqual =>
    obtain rfl := hop (by decide)
    exact (staysIn_front 0).binary (staysIn_front 1) (BinaryOp.gives_ge _ _)
  | isEven =>
    obtain rfl := hop (by decide)
    have hparity : (Expr.binary .mod (front 0) (.num 2)).StaysIn ((Kind.apply .isEven .integer).range s) size
        (.upTo (2 - 1)) := (staysIn_front 0).mod (by decide)
    have hzero : (Expr.num 0).StaysIn ((Kind.apply .isEven .integer).range s) size (.upTo 0) :=
      Expr.staysIn_num ⟨Int.le_refl 0, Int.le_refl 0⟩
    exact hparity.binary hzero (BinaryOp.gives_eq rfl)

theorem sound_behaviour {b : Circuit} (h : behaviour s k = .ok b) (hd : 0 < s.domain)
    (hoperands : ∀ op type, k = .apply op type → op ≠ .equals → type = .integer) : b.Sound (k.range s) size := by
  cases k with
  | bare _ _ | group _ _ _ => nomatch h
  | passthrough type =>
    obtain rfl := Except.ok.inj h
    exact sound_output (staysIn_front 0) staysIn_ready
  | fork n hn type =>
    obtain rfl := Except.ok.inj h
    refine sound_defines fun d hdefine => ?_
    obtain ⟨p, hp, hdefine⟩ := List.mem_flatMap.1 hdefine
    have houtput : (Kind.fork n hn type).outputs[p]? = some type := by
      rw [Kind.outputs, List.getElem?_replicate, if_pos (List.mem_range.1 hp)]
    rcases List.mem_pair.1 hdefine with rfl | rfl
    · rw [Kind.range_outValue houtput]
      exact staysIn_front 0
    · exact staysIn_ready
  | filter type =>
    obtain rfl := Except.ok.inj h
    exact sound_output (staysIn_front 0) (staysIn_both staysIn_ready (staysIn_front 1))
  | trim count type =>
    obtain rfl := Except.ok.inj h
    exact (sound_countUpTo (Int.natCast_nonneg _)).append
      (sound_output (staysIn_front 0) (staysIn_readyAt (Int.natCast_nonneg _)))
  | decimate interval hinterval type =>
    obtain rfl := Except.ok.inj h
    exact (sound_countModulo rfl (Int.natCast_pos.2 hinterval)).append
      (sound_output (staysIn_front 0) (staysIn_readyAt (Int.le_refl 0)))
  | constant v input =>
    obtain ⟨e, he, rfl⟩ := behaviour_constant_eq_ok.1 h
    exact sound_output (staysIn_literal he) staysIn_ready
  | apply op type =>
    obtain rfl := Except.ok.inj h
    exact sound_output (staysIn_apply hd (hoperands op type rfl)) staysIn_ready
  | cumulate f =>
    obtain rfl := Except.ok.inj h
    exact sound_cumulate hd f
  | window processor f width hwidth =>
    obtain rfl := Except.ok.inj h
    exact sound_window hd hwidth

theorem sound_ofKind {b : Circuit} (h : behaviour s k = .ok b) (hd : 0 < s.domain)
    (hoperands : ∀ op type, k = .apply op type → op ≠ .equals → type = .integer) :
    (Queue.circuits s k.inputs ++ b).Sound (k.range s) size :=
  (Queue.sound_circuits hd).append (sound_behaviour h hd hoperands)

end Circuit

/-! ### Modules -/

section
variable {n : Node} {s : Sizes} {m : Module} {τ : Trace}

theorem Node.keeps_leafModule (hd : 0 < s.domain) (hq : 0 < s.queue) {b : Circuit}
    (hb : Circuit.behaviour s n.kind = .ok b)
    (hoperands : ∀ op type, n.kind = .apply op type → op ≠ .equals → type = .integer)
    (hτ : (Queue.circuits s n.kind.inputs ++ b).Obeyed τ)
    (hinputs : ∀ j type, n.kind.inputs[j]? = some type → (τ.input j).Within (s.scalar type)) (t : Nat) :
    ∀ p, (Queue.circuits s n.kind.inputs ++ b).Says p ∨ InputSpot n.kind.inputs.length p →
      (τ t).Keeps (n.kind.range s) (Workspace.circuitModule n (Queue.circuits s n.kind.inputs ++ b)).slots p := by
  refine (Circuit.sound_ofKind hb hd hoperands).keeps (Circuit.settled_ofKind hb) (Circuit.sees_ofKind hq hb) hτ
    (Circuit.determined_ofKind hb) ?_ ?_ t
  · rintro _ (⟨d, hdefine, rfl⟩ | ⟨d, hdeclared, x, hx, rfl⟩) i hi
    · nomatch hi
    · exact Module.slot_of_mem_cells (Circuit.names_ofKind hb).1.declared hdeclared hx i hi
  · rintro p ⟨j, hj, hp⟩ t
    have hport := List.getElem?_eq_getElem hj
    obtain ⟨hvalue, hfire⟩ := hinputs j _ hport t
    rcases hp with rfl | rfl
    · exact ⟨fun i hi => (nomatch hi), Kind.range_inValue hport s ▸ hvalue⟩
    · exact ⟨fun i hi => (nomatch hi), hfire⟩

/-- In every run in which the inputs of a node get values of the types of their ports, whether as events or not, the
module of the node keeps to what it declares, and its outputs have values of the types of their ports, whether the
node fires or not. An operator other than equality must be one on numbers. -/
theorem leafModule_staysInRange (hd : 1 ≤ s.domain) (hq : 1 ≤ s.queue) (hm : n.leafModule s = .ok m)
    (hoperands : ∀ op type, n.kind = .apply op type → op ≠ .equals → type = .integer) (hτ : m.Obeyed τ)
    (hinputs : ∀ j type, n.kind.inputs[j]? = some type → (τ.input j).Within (s.scalar type)) :
    m.isBracketed ∧ m.StaysInRange τ ∧
      ∀ p type, n.kind.outputs[p]? = some type → (τ.output p).Within (s.scalar type) := by
  refine ⟨Node.isBracketed_leafModule hm, ?_⟩
  obtain ⟨b, hb, rfl⟩ := Node.leafModule_eq_ok.1 hm
  have hkeeps := Node.keeps_leafModule hd hq hb hoperands (Circuit.obeyed_of_module hτ) hinputs
  have hsound : (Queue.circuits s n.kind.inputs ++ b).Sound (n.kind.range s)
      (Workspace.circuitModule n (Queue.circuits s n.kind.inputs ++ b)).slots := Circuit.sound_ofKind hb hd hoperands
  have hsees := Circuit.sees_ofKind hq hb
  refine ⟨⟨fun d hdeclared x hx t => ?_, fun d hdefine => ⟨n.kind.range s d.1, fun t => ?_⟩, fun a ha => ?_⟩,
    fun p type hp t => ?_⟩
  · rw [hsound.declared d hdeclared x hx, ← Declaration.name_of_mem_cells hx]
    exact (hkeeps t _ (.inl (.inr ⟨d, hdeclared, x, hx, rfl⟩))).fits
  · exact hsound.defines d hdefine (τ t) fun p hp => hkeeps t p (hsees.defines d hdefine p hp)
  · obtain ⟨d, hdeclared, x, hx, hcell⟩ := (Circuit.names_ofKind hb).1.assigned a ha
    refine ⟨d, hdeclared, x, hx, hcell, fun t => ?_⟩
    rw [hsound.declared d hdeclared x hx, ← Declaration.name_of_mem_cells hx, hcell]
    exact (hsound.assigns a ha).staysIn (τ t) ((hsees.assigns a ha).imp (hkeeps t))
  · obtain ⟨hlt, -⟩ := List.getElem?_eq_some_iff.1 hp
    obtain ⟨hvalue, hfire⟩ := Circuit.says_output hb hlt
    refine ⟨?_, (hkeeps t _ (.inl (Circuit.says_append_right hfire))).fits⟩
    rw [← Kind.range_outValue hp]
    exact (hkeeps t _ (.inl (Circuit.says_append_right hvalue))).fits

end

open Queue in
/-- An adder whose first input gets an event at every moment, more than its queue can hold, and whose second one gets
an event at every third. -/
theorem leafModule_staysInRange_of_adder : ∃ m τ, adder.leafModule ⟨5, 2⟩ = .ok m ∧ m.Obeyed τ ∧
    (∀ t, isArriving τ 0 t = true ∧ isArriving τ 1 t = (t % 3 == 0)) ∧
    (∀ j < 2, (τ.input j).Within (.upTo 4)) ∧ m.isBracketed ∧ m.StaysInRange τ ∧ (τ.output 0).Within (.upTo 4) := by
  obtain ⟨τ, hτ, harriving⟩ := Node.exists_run (n := adder) (s := ⟨5, 2⟩) rfl
    (fun _ t => .number ((t + 3) % 5)) (fun j t => .truth (j == 0 || t % 3 == 0))
  have hwithin (j : Nat) : (τ.input j).Within (.upTo 4) := by
    intro t
    obtain ⟨hvalue, hfire⟩ := harriving j t
    change (τ t ⟨.own (.inValue j), none⟩).Fits _ ∧ (τ t ⟨.own (.inFire j), none⟩).Fits _
    rw [hvalue, hfire]
    exact ⟨⟨by omega, by omega⟩, trivial⟩
  have hinputs : ∀ j type, adder.kind.inputs[j]? = some type → (τ.input j).Within (Sizes.scalar ⟨5, 2⟩ type) := by
    intro j type hj
    obtain rfl : type = .integer := List.eq_of_mem_replicate (List.mem_of_getElem? hj)
    exact hwithin j
  have hoperands : ∀ op type, adder.kind = .apply op type → op ≠ .equals → type = .integer := by
    rintro op type ⟨⟩ -
    rfl
  obtain ⟨hbracketed, hranges, houtputs⟩ :=
    leafModule_staysInRange (n := adder) (s := ⟨5, 2⟩) (by decide) (by decide) rfl hoperands hτ hinputs
  refine ⟨_, τ, rfl, hτ, fun t => ⟨?_, ?_⟩, fun j _ => hwithin j, hbracketed, hranges, houtputs 0 .integer rfl⟩
  · exact congrArg Value.isTrue (harriving 0 t).2
  · exact congrArg Value.isTrue (harriving 1 t).2

end StreamCheck.Network
