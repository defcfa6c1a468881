import StreamCheck.Smv.Expr

/-! Operators that a node applies to events. Arithmetic wraps around the value domain, so every
result lies in it. -/

namespace StreamCheck
open Smv

inductive Operator where
  | addition
  | multiplication
  | isGreaterOrEqual
  | equals
  | isEven
deriving DecidableEq, Repr, Inhabited

/-- A binary operator on numbers, which can fold a stream. -/
inductive Fold where
  | addition
  | multiplication
deriving DecidableEq, Repr, Inhabited

structure OperandCount where
  operator : Operator
  given : Nat
deriving DecidableEq, Repr

namespace Fold

def sign : Fold → BinaryOp
  | addition => .add
  | multiplication => .mul

/-- Two operands combined and wrapped around the domain `0..d-1`. -/
def combine (f : Fold) (d : Int) (a b : Expr) : Expr :=
  .binary .mod (.paren (.binary f.sign a b)) (.num d)

end Fold

namespace Operator

def all : List Operator := [addition, multiplication, isGreaterOrEqual, equals, isEven]

def name : Operator → String
  | addition => "addition"
  | multiplication => "multiplication"
  | isGreaterOrEqual => "is_greater_or_equal"
  | equals => "equals"
  | isEven => "is_even"

def ofName? (s : String) : Option Operator := all.find? (·.name == s)

def arity : Operator → Nat
  | isEven => 1
  | _ => 2

def returnsBoolean : Operator → Bool
  | addition | multiplication => false
  | isGreaterOrEqual | equals | isEven => true

def fold? : Operator → Option Fold
  | addition => some .addition
  | multiplication => some .multiplication
  | _ => none

def combine (op : Operator) (d : Int) (operand : Nat → Expr) : Expr :=
  match op with
  | addition => Fold.addition.combine d (operand 0) (operand 1)
  | multiplication => Fold.multiplication.combine d (operand 0) (operand 1)
  | isGreaterOrEqual => .binary .ge (operand 0) (operand 1)
  | equals => .binary .eq (operand 0) (operand 1)
  | isEven => .binary .eq (.binary .mod (operand 0) (.num 2)) (.num 0)

/-- The operator applied to a list of operands, which must be as many as it takes. -/
def apply (op : Operator) (d : Int) (operands : List Expr) : Except OperandCount Expr :=
  if operands.length = op.arity then
    .ok (op.combine d fun i => operands.getD i default)
  else .error ⟨op, operands.length⟩

end Operator

def Fold.toOperator : Fold → Operator
  | addition => .addition
  | multiplication => .multiplication

def OperandCount.message (e : OperandCount) : String :=
  e.operator.name ++ " expects " ++ toString e.operator.arity ++ " operands, got " ++
    toString e.given

end StreamCheck
