import StreamCheck.Smv.Module

/-! States: what every name and every slot of a model holds at one moment, and the value that an
expression has there. -/

namespace StreamCheck.Smv

inductive Value where
  | truth (b : Bool)
  | number (n : Int)
deriving DecidableEq, Repr, Inhabited

namespace Value

def isTrue : Value → Bool
  | truth b => b
  | number n => n != 0

def toInt : Value → Int
  | truth b => if b then 1 else 0
  | number n => n

def Fits : Value → Scalar → Prop
  | truth _, .boolean => True
  | number n, .upTo last => 0 ≤ n ∧ n ≤ last
  | _, _ => False

instance (v : Value) (s : Scalar) : Decidable (v.Fits s) := by
  cases v <;> cases s <;> simp only [Fits] <;> infer_instance

end Value

/-- A name, or one slot of the array under it. -/
structure Spot where
  ref : Ref
  slot : Option Int := none
deriving DecidableEq, Repr, Inhabited

abbrev State := Spot → Value

def State.inside (s : State) (id : Nat) : State := fun p => s ⟨p.ref.under id, p.slot⟩

def BinaryOp.apply : BinaryOp → Value → Value → Value
  | mul, a, b => .number (a.toInt * b.toInt)
  | mod, a, b => .number (a.toInt % b.toInt)
  | add, a, b => .number (a.toInt + b.toInt)
  | lt, a, b => .truth (decide (a.toInt < b.toInt))
  | ge, a, b => .truth (decide (b.toInt ≤ a.toInt))
  | eq, a, b => .truth (decide (a = b))
  | and, a, b => .truth (a.isTrue && b.isTrue)
  | or, a, b => .truth (a.isTrue || b.isTrue)
  | implies, a, b => .truth (!a.isTrue || b.isTrue)

namespace Expr

def eval (s : State) : Expr → Value
  | bool b => .truth b
  | num n => .number n
  | var r => s ⟨r, none⟩
  | slot r i => s ⟨r, some i⟩
  | paren e => e.eval s
  | not e => .truth !(e.eval s).isTrue
  | binary op a b => op.apply (a.eval s) (b.eval s)
  | choose c a b => if (c.eval s).isTrue then a.eval s else b.eval s

/-- In evaluating the expression, no remainder is taken by zero and every slot is one that its array
has, where `size` gives the number of slots of each array. -/
def Safe (size : Ref → Int) (s : State) : Expr → Prop
  | bool _ | num _ | var _ => True
  | slot r i => 0 ≤ i ∧ i < size r
  | paren e | not e => e.Safe size s
  | binary op a b =>
    a.Safe size s ∧ b.Safe size s ∧ (op = .mod → b.eval s ≠ .number 0)
  | choose c a b =>
    c.Safe size s ∧ if (c.eval s).isTrue then a.Safe size s else b.Safe size s

end Expr

namespace Update

def chosen? (s : State) (branches : List (Expr × Expr)) : Option (Expr × Expr) :=
  branches.find? fun b => (b.1.eval s).isTrue

def eval (s : State) : Update → Value
  | value e => e.eval s
  | cases bs => ((chosen? s bs).map fun b => b.2.eval s).getD default

def Safe (size : Ref → Int) (s : State) : Update → Prop
  | value e => e.Safe size s
  | cases bs =>
    (∀ b ∈ bs, b.1.Safe size s) ∧ ∀ b ∈ chosen? s bs, b.2.Safe size s

end Update

end StreamCheck.Smv
