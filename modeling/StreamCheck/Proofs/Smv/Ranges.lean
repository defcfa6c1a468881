import StreamCheck.Proofs.Circuit.Unique
import StreamCheck.Proofs.Smv.Typing

/-! Ranges: which values an expression comes to where all that it looks at is there and holds values of known
ranges. Such an expression takes everything for what it is, takes no remainder by zero, and has a range of its own. -/

namespace StreamCheck.Smv

namespace Value

def type : Value → ValueType
  | truth _ => .truth
  | number _ => .number

variable {v : Value} {t : Scalar} {last : Int}

theorem Fits.type_eq (h : v.Fits t) : v.type = t.valueType := by
  cases v with
  | truth b =>
    cases t with
    | boolean => rfl
    | upTo last => exact h.elim
  | number n =>
    cases t with
    | boolean => exact h.elim
    | upTo last => rfl

theorem Fits.exists_number (h : v.Fits (.upTo last)) : ∃ n, v = .number n ∧ 0 ≤ n ∧ n ≤ last := by
  cases v with
  | truth b => exact h.elim
  | number n => exact ⟨n, rfl, h⟩

end Value

def State.Offers (s : State) (p : Spot) (type : ValueType) : Prop := (s p).type = type

/-- A spot that is there, and that holds a value of the range of its name; `size` gives the number of slots of each
array. -/
structure State.Keeps (range : Name → Scalar) (size : Ref → Int) (s : State) (p : Spot) : Prop where
  exists_slot : ∀ i ∈ p.slot, 0 ≤ i ∧ i < size p.ref
  fits : (s p).Fits (range p.ref.name)

theorem State.Keeps.offers {range : Name → Scalar} {size : Ref → Int} {s : State} {p : Spot}
    (h : s.Keeps range size p) : s.Offers p (range p.ref.name).valueType := h.fits.type_eq

structure BinaryOp.Gives (op : BinaryOp) (a b c : Scalar) : Prop where
  typed : op.type? a.valueType b.valueType = some c.valueType
  ne_mod : op ≠ .mod
  fits : ∀ x y : Value, x.Fits a → y.Fits b → (op.apply x y).Fits c

namespace BinaryOp

theorem gives_add (m n : Int) : add.Gives (.upTo m) (.upTo n) (.upTo (m + n)) := by
  refine ⟨rfl, nofun, fun x y hx hy => ?_⟩
  obtain ⟨x, rfl, hx, hxm⟩ := hx.exists_number
  obtain ⟨y, rfl, hy, hyn⟩ := hy.exists_number
  exact ⟨Int.add_nonneg hx hy, Int.add_le_add hxm hyn⟩

theorem gives_mul (m n : Int) : mul.Gives (.upTo m) (.upTo n) (.upTo (m * n)) := by
  refine ⟨rfl, nofun, fun x y hx hy => ?_⟩
  obtain ⟨x, rfl, hx, hxm⟩ := hx.exists_number
  obtain ⟨y, rfl, hy, hyn⟩ := hy.exists_number
  exact ⟨Int.mul_nonneg hx hy, Int.mul_le_mul hxm hyn hy (Int.le_trans hx hxm)⟩

theorem gives_lt (m n : Int) : lt.Gives (.upTo m) (.upTo n) .boolean := ⟨rfl, nofun, fun _ _ _ _ => trivial⟩

theorem gives_ge (m n : Int) : ge.Gives (.upTo m) (.upTo n) .boolean := ⟨rfl, nofun, fun _ _ _ _ => trivial⟩

theorem gives_eq {a b : Scalar} (h : a.valueType = b.valueType) : eq.Gives a b .boolean :=
  ⟨if_pos h, nofun, fun _ _ _ _ => trivial⟩

theorem gives_and : and.Gives .boolean .boolean .boolean := ⟨rfl, nofun, fun _ _ _ _ => trivial⟩

theorem gives_or : or.Gives .boolean .boolean .boolean := ⟨rfl, nofun, fun _ _ _ _ => trivial⟩

end BinaryOp

/-! ### Expressions -/

namespace Expr

/-- In a state, an expression takes all that it looks at for what it is, can be evaluated, and comes to a value of a
range. -/
structure Yields (size : Ref → Int) (s : State) (e : Expr) (t : Scalar) : Prop where
  typed : e.HasType s.Offers t.valueType
  safe : e.Safe size s
  fits : (e.eval s).Fits t

/-- An expression yields values of a range wherever all that it looks at keeps to its own. -/
def StaysIn (range : Name → Scalar) (size : Ref → Int) (e : Expr) (t : Scalar) : Prop :=
  ∀ s : State, e.Sees (s.Keeps range size) → e.Yields size s t

section
variable {range : Name → Scalar} {size : Ref → Int} {a b c e : Expr} {es : List Expr} {op : BinaryOp}
  {t ta tb : Scalar}

theorem staysIn_own (n : Name) : (own n).StaysIn range size (range n) := by
  intro s hs
  have h := sees_own.1 hs
  exact ⟨.var h.offers, trivial, h.fits⟩

theorem staysIn_ownSlot (n : Name) (i : Int) : (ownSlot n i).StaysIn range size (range n) := by
  intro s hs
  have h := sees_ownSlot.1 hs
  exact ⟨.slot h.offers, h.exists_slot i rfl, h.fits⟩

theorem staysIn_bool (b : Bool) : (bool b).StaysIn range size .boolean :=
  fun _ _ => ⟨.bool b, trivial, trivial⟩

theorem staysIn_num {n last : Int} (h : 0 ≤ n ∧ n ≤ last) : (num n).StaysIn range size (.upTo last) :=
  fun _ _ => ⟨.num n, trivial, h⟩

theorem StaysIn.paren (he : e.StaysIn range size t) : (paren e).StaysIn range size t := by
  intro s hs
  obtain ⟨htyped, hsafe, hfits⟩ := he s (sees_paren.1 hs)
  exact ⟨.paren htyped, hsafe, hfits⟩

theorem StaysIn.not (he : e.StaysIn range size .boolean) : (not e).StaysIn range size .boolean := by
  intro s hs
  obtain ⟨htyped, hsafe, -⟩ := he s (sees_not.1 hs)
  exact ⟨.not htyped, hsafe, trivial⟩

theorem StaysIn.binary (ha : a.StaysIn range size ta) (hb : b.StaysIn range size tb) (hop : op.Gives ta tb t) :
    (binary op a b).StaysIn range size t := by
  intro s hs
  obtain ⟨hsa, hsb⟩ := sees_binary.1 hs
  have hya := ha s hsa
  have hyb := hb s hsb
  exact ⟨.binary hya.typed hyb.typed hop.typed, ⟨hya.safe, hyb.safe, fun hmod => absurd hmod hop.ne_mod⟩,
    hop.fits _ _ hya.fits hyb.fits⟩

theorem StaysIn.mod {d last : Int} (ha : a.StaysIn range size (.upTo last)) (hd : 0 < d) :
    (Expr.binary .mod a (.num d)).StaysIn range size (.upTo (d - 1)) := by
  intro s hs
  have hya := ha s (sees_binary.1 hs).1
  have hne : d ≠ 0 := Int.ne_of_gt hd
  refine ⟨.binary hya.typed (.num d) rfl, ⟨hya.safe, trivial, fun _ hzero => hne (Value.number.inj hzero)⟩, ?_⟩
  exact ⟨Int.emod_nonneg _ hne, Int.le_sub_one_of_lt (Int.emod_lt_of_pos _ hd)⟩

/-- The first branch has to be of the range only where the condition holds. -/
theorem Yields.choose {s : State} (hc : c.Yields size s .boolean) (ha : a.Yields size s ta) (hb : b.Yields size s t)
    (htype : ta.valueType = t.valueType) (hfits : (c.eval s).isTrue = true → (a.eval s).Fits t) :
    (choose c a b).Yields size s t := by
  refine ⟨.choose hc.typed (htype ▸ ha.typed) hb.typed, ⟨hc.safe, ?_⟩, ?_⟩
  · split
    · exact ha.safe
    · exact hb.safe
  · rw [eval_choose]
    split
    · exact hfits ‹_›
    · exact hb.fits

theorem StaysIn.choose (hc : c.StaysIn range size .boolean) (ha : a.StaysIn range size t)
    (hb : b.StaysIn range size t) : (choose c a b).StaysIn range size t := by
  intro s hs
  obtain ⟨⟨hsc, hsa⟩, hsb⟩ := sees_choose.1 hs
  have hya := ha s hsa
  exact (hc s hsc).choose hya (hb s hsb) rfl fun _ => hya.fits

theorem StaysIn.ite {p : Prop} [Decidable p] (ha : a.StaysIn range size t) (hb : b.StaysIn range size t) :
    (if p then a else b).StaysIn range size t := by
  split
  · exact ha
  · exact hb

theorem StaysIn.foldl (hop : op.Gives t t t) (he : e.StaysIn range size t) (hes : ∀ x ∈ es, x.StaysIn range size t) :
    (es.foldl (.binary op) e).StaysIn range size t := by
  induction es generalizing e with
  | nil => exact he
  | cons x xs ih =>
    obtain ⟨hx, hxs⟩ := List.forall_mem_cons.1 hes
    exact ih (he.binary hx hop) hxs

theorem staysIn_conj (h : ∀ e ∈ es, e.StaysIn range size .boolean) : (conj es).StaysIn range size .boolean := by
  cases es with
  | nil => exact staysIn_bool true
  | cons e es =>
    obtain ⟨he, hes⟩ := List.forall_mem_cons.1 h
    exact he.foldl BinaryOp.gives_and hes

end
end Expr

/-! ### Right sides of assignments -/

namespace Update

/-- All conditions are truth values, and whatever may be assigned is of one type. -/
def HasType (offers : Spot → ValueType → Prop) : Update → ValueType → Prop
  | value e, type => e.HasType offers type
  | cases bs, type => ∀ b ∈ bs, b.1.HasType offers .truth ∧ b.2.HasType offers type

structure Yields (size : Ref → Int) (s : State) (u : Update) (t : Scalar) : Prop where
  typed : u.HasType s.Offers t.valueType
  safe : u.Safe size s
  fits : (u.eval s).Fits t

def StaysIn (range : Name → Scalar) (size : Ref → Int) (u : Update) (t : Scalar) : Prop :=
  ∀ s : State, u.Sees (s.Keeps range size) → u.Yields size s t

variable {range : Name → Scalar} {size : Ref → Int} {t : Scalar}

theorem staysIn_value {e : Expr} (h : e.StaysIn range size t) : (value e).StaysIn range size t := by
  intro s hs
  obtain ⟨htyped, hsafe, hfits⟩ := h s hs
  exact ⟨htyped, hsafe, hfits⟩

theorem staysIn_cases {bs : List (Expr × Expr)}
    (h : ∀ b ∈ bs, b.1.StaysIn range size .boolean ∧ b.2.StaysIn range size t)
    (hdefault : ∃ e, (.bool true, e) ∈ bs) : (cases bs).StaysIn range size t := by
  intro s hs
  have hyields : ∀ b ∈ bs, b.1.Yields size s .boolean ∧ b.2.Yields size s t := fun b hb =>
    ⟨(h b hb).1 s (hs b hb).1, (h b hb).2 s (hs b hb).2⟩
  have hchosen : ∀ b ∈ chosen? s bs, b.2.Yields size s t := fun b hb => (hyields b (List.mem_of_find?_eq_some hb)).2
  refine ⟨fun b hb => ⟨(hyields b hb).1.typed, (hyields b hb).2.typed⟩,
    ⟨fun b hb => (hyields b hb).1.safe, fun b hb => (hchosen b hb).safe⟩, ?_⟩
  cases hfind : chosen? s bs with
  | none =>
    obtain ⟨e, he⟩ := hdefault
    exact absurd rfl (List.find?_eq_none.1 hfind _ he)
  | some b =>
    rw [eval, hfind]
    exact (hchosen b hfind).fits

end Update

/-- An assignment that gives its cell values of the range of its name, and the first of them without looking at
anything. -/
structure Assign.Sound (range : Name → Scalar) (size : Ref → Int) (a : Assign) : Prop where
  staysIn : a.update.StaysIn range size (range a.cell.name)
  blind : a.timing = .first → a.update.Sees fun _ => False

end StreamCheck.Smv
