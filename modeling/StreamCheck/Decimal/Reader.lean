import StreamCheck.Text.Basic

/-! Reading numbers. Digits may be those of any script, and an underscore may stand between two. -/

namespace StreamCheck.Decimal
open Text

def mostDigits : Nat := 4300

def ofDigits (ds : List Nat) : Nat := ds.foldl (fun n d => 10 * n + d) 0

def startsWithDigit : List Char → Bool
  | [] => false
  | c :: _ => isDigit c

/-- The digits in front, and what follows. An underscore is passed over between two digits only; the
flag tells whether a digit comes before. -/
def takeDigits (follows : Bool) : List Char → List Nat × List Char
  | [] => ([], [])
  | c :: rest =>
    match digitValue? c with
    | some d =>
      let (ds, after) := takeDigits true rest
      (d :: ds, after)
    | none =>
      if follows && c == '_' && startsWithDigit rest then takeDigits false rest
      else ([], c :: rest)

def takeSign : List Char → Bool × List Char
  | '-' :: rest => (true, rest)
  | '+' :: rest => (false, rest)
  | cs => (false, cs)

/-- A number of so many units, `10 ^ exponent` each; beyond every finite size it is infinite. -/
def ofScaled (digits : List Nat) (exponent : Int) : Float :=
  let significant := digits.dropWhile (· == 0)
  let place : Int := significant.length + exponent
  if significant.isEmpty || decide (place < -400) then 0.0
  else if 400 < place then 1.0 / 0.0
  else Float.ofScientific (ofDigits significant) (decide (exponent < 0)) exponent.natAbs

def exponent? : List Char → Option Int
  | [] => some 0
  | c :: rest =>
    if c = 'e' ∨ c = 'E' then
      let (negative, rest) := takeSign rest
      let (ds, after) := takeDigits false rest
      if ds.isEmpty || !after.isEmpty then none
      else some (if negative then -(ofDigits ds : Int) else ofDigits ds)
    else none

def unsigned? (cs : List Char) : Option Float :=
  let (whole, rest) := takeDigits false cs
  let (fraction, rest) :=
    match rest with
    | '.' :: more => takeDigits false more
    | _ => ([], rest)
  if whole.isEmpty && fraction.isEmpty then none
  else (exponent? rest).map fun e => ofScaled (whole ++ fraction) (e - fraction.length)

/-- A number with its sign: decimal digits, or a word for infinity or for no number, in any case. -/
def signed? (cs : List Char) : Option Float :=
  let (negative, cs) := takeSign cs
  let size :=
    match (String.ofList cs).toLower with
    | "inf" | "infinity" => some (1.0 / 0.0)
    | "nan" => some (0.0 / 0.0)
    | _ => unsigned? cs
  size.map fun x => if negative then -x else x

def real? (s : String) : Option Float := signed? (stripBlanks s.toList)

def natural? (cs : List Char) : Option Nat :=
  let ds := cs.filterMap digitValue?
  if ds.isEmpty || decide (ds.length ≠ cs.length) || decide (mostDigits < ds.length) then none
  else some (ofDigits ds)

/-! ### Numbers in plain decimal digits, and what they stand for -/

structure Numeral where
  whole : List (Fin 10)
  fraction : List (Fin 10) := []
  whole_ne_nil : whole ≠ []
deriving DecidableEq, Repr

namespace Numeral

def digits (ds : List (Fin 10)) : List Char := ds.map fun d => Nat.digitChar d.val

def chars (n : Numeral) : List Char :=
  digits n.whole ++ if n.fraction = [] then [] else '.' :: digits n.fraction

def value (n : Numeral) : Float :=
  ofScaled ((n.whole ++ n.fraction).map Fin.val) (-(n.fraction.length : Int))

end Numeral

end StreamCheck.Decimal
