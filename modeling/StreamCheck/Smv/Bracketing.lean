import StreamCheck.Smv.Expr

/-! Bracketing: whether a text is read as the expression that it was written from. It is when every
operand binds more tightly than its operator, or stands in brackets. -/

namespace StreamCheck.Smv

namespace BinaryOp

def level : BinaryOp → Nat
  | mul | mod => 7
  | add => 6
  | lt | ge | eq => 5
  | and => 4
  | or => 3
  | implies => 1

/-- The level that the left operand has at least; equal operators group to the left, but
implications to the right. -/
def leftLevel : BinaryOp → Nat
  | implies => 2
  | op => op.level

def rightLevel : BinaryOp → Nat
  | implies => 1
  | op => op.level + 1

end BinaryOp

namespace Expr

def level : Expr → Nat
  | bool _ | num _ | var _ | slot .. | paren _ => 9
  | not _ => 8
  | binary op .. => op.level
  | choose .. => 2

def isBracketed : Expr → Bool
  | bool _ | num _ | var _ | slot .. => true
  | paren e => e.isBracketed
  | not e => 8 ≤ e.level && e.isBracketed
  | binary op a b =>
    op.leftLevel ≤ a.level && op.rightLevel ≤ b.level && a.isBracketed && b.isBracketed
  | choose c a b =>
    3 ≤ c.level && 2 ≤ b.level && c.isBracketed && a.isBracketed && b.isBracketed

end Expr

namespace Temporal

/-- How tightly the outermost operator of a statement binds; temporal operators bind like a
negation. -/
def level : Temporal → Nat
  | now e => e.level
  | paren _ => 9
  | not _ | next _ | eventually _ | always _ | possibly _ | invariably _ => 8
  | and .. => 4
  | or .. => 3
  | implies .. => 1

def isBracketed : Temporal → Bool
  | now e => e.isBracketed
  | paren t => t.isBracketed
  | not t | next t | eventually t | always t | possibly t | invariably t =>
    8 ≤ t.level && t.isBracketed
  | and a b => 4 ≤ a.level && 5 ≤ b.level && a.isBracketed && b.isBracketed
  | or a b => 3 ≤ a.level && 4 ≤ b.level && a.isBracketed && b.isBracketed
  | implies a b => 2 ≤ a.level && 1 ≤ b.level && a.isBracketed && b.isBracketed

end Temporal

end StreamCheck.Smv
