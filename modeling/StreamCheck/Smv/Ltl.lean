import StreamCheck.Smv.Bracketing
import StreamCheck.Smv.State

/-! Statements of linear time, as they are understood from their text. `G`, `F` and `X` bind more tightly than
every operator between two operands, and those bind as in expressions. -/

namespace StreamCheck.Smv

/-- An operator that speaks of the moments of a run from one on. -/
inductive Modality where
  | next
  | eventually
  | always
deriving DecidableEq, Repr, Inhabited

namespace Modality

def letter : Modality → Char
  | next => 'X'
  | eventually => 'F'
  | always => 'G'

def Over (m : Modality) (p : Nat → Prop) (t : Nat) : Prop :=
  match m with
  | next => p (t + 1)
  | eventually => ∃ u, t ≤ u ∧ p u
  | always => ∀ u, t ≤ u → p u

end Modality

/-- What names, as they are written, hold at all moments. -/
abbrev Record := Nat → String → Value

/-- A statement about a run. Brackets are gone, and names are as they are written. -/
inductive Ltl where
  | truth (b : Bool)
  | name (s : String)
  | modal (m : Modality) (a : Ltl)
  | binary (op : BinaryOp) (a b : Ltl)
deriving DecidableEq, Repr, Inhabited

namespace Ltl

open Classical in
noncomputable def value (σ : Record) : Ltl → Nat → Value
  | truth b, _ => .truth b
  | name s, t => σ t s
  | modal m a, t => .truth (decide (m.Over (fun u => (a.value σ u).isTrue = true) t))
  | binary op a b, t => op.apply (a.value σ t) (b.value σ t)

def Holds (a : Ltl) (σ : Record) : Prop := (a.value σ 0).isTrue = true

/-! ### Words and signs -/

inductive Token where
  | operand (a : Ltl)
  | modal (m : Modality)
  | binary (op : BinaryOp)
  | opening
  | closing
deriving DecidableEq, Repr, Inhabited

def isWordChar (c : Char) : Bool := c.isAlphanum || c == '_' || c == '-'

def Token.ofWord : List Char → Token
  | ['T', 'R', 'U', 'E'] => .operand (.truth true)
  | ['F', 'A', 'L', 'S', 'E'] => .operand (.truth false)
  | ['X'] => .modal .next
  | ['F'] => .modal .eventually
  | ['G'] => .modal .always
  | cs => .operand (.name (String.ofList cs))

def word? : List Char → Option (List Token)
  | [] => some []
  | c :: cs => if c.isAlpha then some [.ofWord (c :: cs)] else none

def sign? : Char → Option (List Token)
  | ' ' => some []
  | '(' => some [.opening]
  | ')' => some [.closing]
  | '=' => some [.binary .eq]
  | '&' => some [.binary .and]
  | '|' => some [.binary .or]
  | _ => none

/-- The words and signs of a text, behind what has been read of a word. An arrow is a dash and a point, and a
semicolon ends the text. -/
def scan? (word : List Char) : List Char → Option (List Token)
  | [] => word? word
  | c :: cs =>
    if isWordChar c then scan? (word ++ [c]) cs
    else if c = '>' then
      if word = ['-'] then (scan? [] cs).map (.binary .implies :: ·) else none
    else if c = ';' then
      if cs = [] then word? word else none
    else do
      let read ← word? word
      let sign ← sign? c
      let rest ← scan? [] cs
      return read ++ sign ++ rest

/-! ### Operands and operators -/

inductive Pending where
  | modal (m : Modality)
  /-- An operator with the operand on its left. -/
  | left (a : Ltl) (op : BinaryOp)
  | bracket
deriving DecidableEq, Repr, Inhabited

/-- An operand is given to what waits for it, and the outcome to what waits for that, as long as this binds at
least as tightly as some level. -/
def settle (level : Nat) : List Pending → Ltl → List Pending × Ltl
  | .modal m :: ps, a => settle level ps (.modal m a)
  | .left a op :: ps, b =>
    if level ≤ op.level then settle level ps (.binary op a b) else (.left a op :: ps, b)
  | .bracket :: ps, a => (.bracket :: ps, a)
  | [], a => ([], a)

/-- One word or sign more. What is read comes in front of an operand or behind one. -/
def take? : List Pending × Option Ltl → Token → Option (List Pending × Option Ltl)
  | (ps, none), .operand a => some (ps, some a)
  | (ps, none), .modal m => some (.modal m :: ps, none)
  | (ps, none), .opening => some (.bracket :: ps, none)
  | (ps, some a), .binary op =>
    let (ps, a) := settle op.leftLevel ps a
    some (.left a op :: ps, none)
  | (ps, some a), .closing =>
    match settle 0 ps a with
    | (.bracket :: ps, a) => some (ps, some a)
    | _ => none
  | _, _ => none

def parse? (ts : List Token) : Option Ltl :=
  match ts.foldlM take? ([], none) with
  | some (ps, some a) =>
    match settle 0 ps a with
    | ([], a) => some a
    | _ => none
  | _ => none

def read? (text : String) : Option Ltl := (scan? [] text.toList).bind parse?

def connectives : List BinaryOp := [.eq, .and, .or, .implies]

end Ltl

/-! ### What is meant -/

/-- A name as a statement. Of a name that is given as text it is not known what it is read as. -/
def Name.ltl? : Name → Option Ltl
  | other _ => none
  | x => some (.name x.text)

def Expr.ltl? : Expr → Option Ltl
  | bool b => some (.truth b)
  | var ⟨[], x⟩ => x.ltl?
  | paren e => e.ltl?
  | binary op a b => if op ∈ Ltl.connectives then a.ltl?.bind fun φ => b.ltl?.map (.binary op φ) else none
  | _ => none

namespace Temporal

def ltl? : Temporal → Option Ltl
  | now e => e.ltl?
  | paren t => t.ltl?
  | and a b => a.ltl?.bind fun φ => b.ltl?.map (.binary .and φ)
  | or a b => a.ltl?.bind fun φ => b.ltl?.map (.binary .or φ)
  | implies a b => a.ltl?.bind fun φ => b.ltl?.map (.binary .implies φ)
  | next t => t.ltl?.map (.modal .next)
  | eventually t => t.ltl?.map (.modal .eventually)
  | always t => t.ltl?.map (.modal .always)
  | _ => none

end Temporal

def State.ofTexts (v : String → Value) : State := fun p => v p.ref.text

end StreamCheck.Smv
