import StreamCheck.Proofs.Smv.Settling
import StreamCheck.Smv.Expr

/-! Typing: whether an expression takes all that it looks at for what it is. -/

namespace StreamCheck.Smv

inductive ValueType where
  | truth
  | number
deriving DecidableEq, Repr

def Scalar.valueType : Scalar → ValueType
  | boolean => .truth
  | upTo _ => .number

def BinaryOp.type? : BinaryOp → ValueType → ValueType → Option ValueType
  | mul, .number, .number | mod, .number, .number | add, .number, .number => some .number
  | lt, .number, .number | ge, .number, .number => some .truth
  | eq, a, b => if a = b then some .truth else none
  | and, .truth, .truth | or, .truth, .truth | implies, .truth, .truth => some .truth
  | _, _, _ => none

variable {offers : Spot → ValueType → Prop}

namespace Expr

/-- An expression has a type if every spot that it looks at is offered at the type that it is used at. -/
inductive HasType (offers : Spot → ValueType → Prop) : Expr → ValueType → Prop
  | bool (b : Bool) : HasType offers (.bool b) .truth
  | num (n : Int) : HasType offers (.num n) .number
  | var {r : Ref} {type : ValueType} (h : offers ⟨r, none⟩ type) : HasType offers (.var r) type
  | slot {r : Ref} {i : Int} {type : ValueType} (h : offers ⟨r, some i⟩ type) : HasType offers (.slot r i) type
  | paren {e : Expr} {type : ValueType} (h : HasType offers e type) : HasType offers (.paren e) type
  | not {e : Expr} (h : HasType offers e .truth) : HasType offers (.not e) .truth
  | binary {op : BinaryOp} {a b : Expr} {left right type : ValueType} (ha : HasType offers a left)
    (hb : HasType offers b right) (hop : op.type? left right = some type) : HasType offers (.binary op a b) type
  | choose {c a b : Expr} {type : ValueType} (hc : HasType offers c .truth) (ha : HasType offers a type)
    (hb : HasType offers b type) : HasType offers (.choose c a b) type

theorem HasType.exists_offer {e : Expr} {type : ValueType} (h : e.HasType offers type) :
    ∀ p ∈ e.reads, ∃ type, offers p type := by
  induction h with
  | bool | num => exact fun p hp => nomatch hp
  | var h | slot h =>
    intro p hp
    obtain rfl := List.mem_singleton.1 hp
    exact ⟨_, h⟩
  | paren _ ih | not _ ih => exact ih
  | binary _ _ _ iha ihb => exact List.forall_mem_append.2 ⟨iha, ihb⟩
  | choose _ _ _ ihc iha ihb => exact List.forall_mem_append.2 ⟨List.forall_mem_append.2 ⟨ihc, iha⟩, ihb⟩

theorem HasType.foldl {op : BinaryOp} (hop : op.type? .truth .truth = some .truth) {es : List Expr} {e : Expr}
    (he : e.HasType offers .truth) (hes : ∀ x ∈ es, x.HasType offers .truth) :
    (es.foldl (.binary op) e).HasType offers .truth := by
  induction es generalizing e with
  | nil => exact he
  | cons x xs ih =>
    obtain ⟨hx, hxs⟩ := List.forall_mem_cons.1 hes
    exact ih (.binary he hx hop) hxs

theorem HasType.conj {es : List Expr} (h : ∀ e ∈ es, e.HasType offers .truth) :
    (Expr.conj es).HasType offers .truth := by
  cases es with
  | nil => exact .bool true
  | cons e es =>
    obtain ⟨he, hes⟩ := List.forall_mem_cons.1 h
    exact he.foldl rfl hes

end Expr

namespace Temporal

def Typed (offers : Spot → ValueType → Prop) : Temporal → Prop
  | now e => e.HasType offers .truth
  | paren t | not t | next t | eventually t | always t | possibly t | invariably t => t.Typed offers
  | and a b | or a b | implies a b => a.Typed offers ∧ b.Typed offers

def reads : Temporal → List Spot
  | now e => e.reads
  | paren t | not t | next t | eventually t | always t | possibly t | invariably t => t.reads
  | and a b | or a b | implies a b => a.reads ++ b.reads

theorem Typed.exists_offer {t : Temporal} (h : t.Typed offers) : ∀ p ∈ t.reads, ∃ type, offers p type := by
  induction t with
  | now e => exact Expr.HasType.exists_offer h
  | paren t ih | not t ih | next t ih | eventually t ih | always t ih | possibly t ih | invariably t ih => exact ih h
  | and a b iha ihb | or a b iha ihb | implies a b iha ihb =>
    exact List.forall_mem_append.2 ⟨iha h.1, ihb h.2⟩

theorem Typed.conj? {ts : List Temporal} (h : ∀ t ∈ ts, t.Typed offers) :
    ∀ f ∈ Temporal.conj? ts, f.Typed offers := by
  intro f hf
  cases ts with
  | nil => nomatch hf
  | cons t ts =>
    obtain rfl := Option.some.inj hf
    obtain ⟨ht, hts⟩ := List.forall_mem_cons.1 h
    exact List.foldlRecOn (motive := Typed offers) ts and ht fun f hf x hx => ⟨hf, hts x hx⟩

end Temporal
end StreamCheck.Smv
