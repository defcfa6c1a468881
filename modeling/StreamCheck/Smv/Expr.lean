import StreamCheck.Smv.Name

/-! Expressions over the names of a model, and temporal statements about it. Brackets are part of both, so their
texts add none; the operators bind, from tight to loose: not; product and remainder; sum; comparisons; and; or;
choice; implication. -/

namespace StreamCheck.Smv

inductive BinaryOp where
  | mul
  | mod
  | add
  | lt
  | ge
  | eq
  | and
  | or
  | implies
deriving DecidableEq, Repr, Inhabited

def BinaryOp.text : BinaryOp → String
  | mul => "*"
  | mod => "mod"
  | add => "+"
  | lt => "<"
  | ge => ">="
  | eq => "="
  | and => "&"
  | or => "|"
  | implies => "->"

inductive Expr where
  | bool (b : Bool)
  | num (n : Int)
  | var (r : Ref)
  /-- One slot of an array. -/
  | slot (array : Ref) (index : Int)
  | paren (e : Expr)
  | not (e : Expr)
  | binary (op : BinaryOp) (a b : Expr)
  /-- The second expression where the first holds, else the third. -/
  | choose (condition a b : Expr)
deriving DecidableEq, Repr, Inhabited

namespace Expr

def own (n : Name) : Expr := var (.own n)

def ownSlot (n : Name) (i : Int) : Expr := slot (.own n) i

/-- Text that stands for an operand as it is. -/
def verbatim (text : String) : Expr := own (.other text)

/-- All of the expressions hold, from left to right; of none, `TRUE`. -/
def conj : List Expr → Expr
  | [] => bool true
  | e :: es => es.foldl (binary .and) e

def text : Expr → String
  | bool true => "TRUE"
  | bool false => "FALSE"
  | num n => toString n
  | var r => r.text
  | slot r i => r.text ++ "[" ++ toString i ++ "]"
  | paren e => "(" ++ e.text ++ ")"
  | not e => "!" ++ e.text
  | binary op a b => a.text ++ " " ++ op.text ++ " " ++ b.text
  | choose c a b => c.text ++ " ? " ++ a.text ++ " : " ++ b.text

end Expr

/-! ### Temporal statements -/

inductive Temporal where
  /-- An expression holds in the first state. -/
  | now (e : Expr)
  | paren (t : Temporal)
  | not (t : Temporal)
  | and (a b : Temporal)
  | or (a b : Temporal)
  | implies (a b : Temporal)
  /-- In the next state of the run. -/
  | next (t : Temporal)
  /-- In some state of the run, this one or a later one. -/
  | eventually (t : Temporal)
  /-- In all states of the run from this one on. -/
  | always (t : Temporal)
  /-- In some state of some run from here. -/
  | possibly (t : Temporal)
  /-- In all states of all runs from here. -/
  | invariably (t : Temporal)
deriving DecidableEq, Repr, Inhabited

namespace Temporal

/-- All of the statements hold, from left to right; nothing for the empty list. -/
def conj? : List Temporal → Option Temporal
  | [] => none
  | t :: ts => some (ts.foldl and t)

def text : Temporal → String
  | now e => e.text
  | paren t => "(" ++ t.text ++ ")"
  | not t => "! " ++ t.text
  | and a b => a.text ++ " & " ++ b.text
  | or a b => a.text ++ " | " ++ b.text
  | implies a b => a.text ++ " -> " ++ b.text
  | next t => "X " ++ t.text
  | eventually t => "F " ++ t.text
  | always t => "G " ++ t.text
  | possibly t => "EF " ++ t.text
  | invariably t => "AG " ++ t.text

end Temporal

end StreamCheck.Smv
