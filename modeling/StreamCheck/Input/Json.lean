import StreamCheck.Decimal.Reader
import StreamCheck.Input.Datum
import StreamCheck.Text.Encoding

/-! Data from JSON. Besides what the format has, the words for infinity and for no number are numbers.
Each reader takes what it reads from the front and hands back what follows. -/

namespace StreamCheck.Input.Json
open Text

def skipSpace (cs : List Char) : List Char :=
  cs.dropWhile fun c => c == ' ' || c == '\t' || c == '\n' || c == '\r'

def escaped? : Char → Option Nat
  | '"' => some '"'.toNat
  | '\\' => some '\\'.toNat
  | '/' => some '/'.toNat
  | 'b' => some 8
  | 'f' => some 12
  | 'n' => some 10
  | 'r' => some 13
  | 't' => some 9
  | _ => none

/-- The numbers of the characters up to a quote, in front of which others have been read, the last one
first. -/
def characters? (read : List Nat) : List Char → Option (List Nat × List Char)
  | [] => none
  | '"' :: rest => some (read.reverse, rest)
  | '\\' :: 'u' :: a :: b :: c :: d :: rest =>
    match Units.hex? [a, b, c, d] with
    | some n => characters? (n :: read) rest
    | none => none
  | '\\' :: c :: rest =>
    match escaped? c with
    | some n => characters? (n :: read) rest
    | none => none
  | c :: rest => if c.toNat < 0x20 then none else characters? (c.toNat :: read) rest

def text? (cs : List Char) : Option (String × Bool × List Char) :=
  (characters? [] cs).map fun (units, rest) => (Units.decode units, Units.hasLoneHalf units, rest)

def digits (cs : List Char) : List Nat × List Char :=
  ((cs.takeWhile Char.isDigit).map fun c => c.toNat - '0'.toNat, cs.dropWhile Char.isDigit)

def fraction (cs : List Char) : List Nat × List Char :=
  match cs with
  | '.' :: rest => if (digits rest).1.isEmpty then ([], cs) else digits rest
  | _ => ([], cs)

def exponent? (cs : List Char) : Option Int × List Char :=
  match cs with
  | c :: rest =>
    if c = 'e' ∨ c = 'E' then
      let (negative, rest) := Decimal.takeSign rest
      let (ds, rest) := digits rest
      if ds.isEmpty then (none, cs)
      else (some (if negative then -(Decimal.ofDigits ds : Int) else Decimal.ofDigits ds), rest)
    else (none, cs)
  | [] => (none, cs)

/-- A number without its sign; a zero in front is all of its whole part. A whole number may not be too
long. -/
def unsigned? (negative : Bool) (cs : List Char) : Option (Datum × List Char) :=
  let (whole, rest) :=
    match cs with
    | '0' :: rest => ([0], rest)
    | _ => digits cs
  let (places, rest) := fraction rest
  let (power, rest) := exponent? rest
  if whole.isEmpty then none
  else if places.isEmpty && power.isNone then
    if Decimal.mostDigits < whole.length then none
    else
      let size : Int := Decimal.ofDigits whole
      some (.whole (if negative then -size else size), rest)
  else
    let size := Decimal.ofScaled (whole ++ places) (power.getD 0 - places.length)
    some (.real (if negative then -size else size), rest)

def scalar? : List Char → Option (Datum × List Char)
  | 'n' :: 'u' :: 'l' :: 'l' :: rest => some (.null, rest)
  | 't' :: 'r' :: 'u' :: 'e' :: rest => some (.truth true, rest)
  | 'f' :: 'a' :: 'l' :: 's' :: 'e' :: rest => some (.truth false, rest)
  | 'N' :: 'a' :: 'N' :: rest => some (.real (0.0 / 0.0), rest)
  | 'I' :: 'n' :: 'f' :: 'i' :: 'n' :: 'i' :: 't' :: 'y' :: rest => some (.real (1.0 / 0.0), rest)
  | '-' :: 'I' :: 'n' :: 'f' :: 'i' :: 'n' :: 'i' :: 't' :: 'y' :: rest =>
    some (.real (-(1.0 / 0.0)), rest)
  | '-' :: rest => unsigned? true rest
  | cs => unsigned? false cs

inductive Fault where
  | malformed
  /-- Lists and mappings lie too deep in each other; whether the innermost one is a list. -/
  | tooDeep (isList : Bool)
deriving DecidableEq, Repr, Inhabited

def tooDeepMessage (isList : Bool) : String :=
  "maximum recursion depth exceeded while decoding a JSON " ++
    (if isList then "array" else "object") ++ " from a unicode string"

def mostDepth : Nat := 980

mutual

/-- A value, with room for so many lists and mappings in each other. The steps are bounded. -/
def value : Nat → Nat → List Char → Except Fault (Datum × List Char)
  | 0, _, _ => .error .malformed
  | steps + 1, room, cs =>
    match skipSpace cs, room with
    | '"' :: rest, _ =>
      match text? rest with
      | some (s, isBroken, rest) => .ok (if isBroken then .broken s else .text s, rest)
      | none => .error .malformed
    | '[' :: _, 0 => .error (.tooDeep true)
    | '[' :: rest, room + 1 =>
      match skipSpace rest with
      | ']' :: rest => .ok (.list [], rest)
      | rest => items steps room [] rest
    | '\x7b' :: _, 0 => .error (.tooDeep false)
    | '\x7b' :: rest, room + 1 =>
      match skipSpace rest with
      | '\x7d' :: rest => .ok (.mapping [], rest)
      | rest => fields steps room [] rest
    | cs, _ => (scalar? cs).elim (.error .malformed) .ok

def items : Nat → Nat → List Datum → List Char → Except Fault (Datum × List Char)
  | 0, _, _, _ => .error .malformed
  | steps + 1, room, read, cs => do
    let (d, rest) ← value steps room cs
    match skipSpace rest with
    | ',' :: rest => items steps room (d :: read) rest
    | ']' :: rest => return (.list (d :: read).reverse, rest)
    | _ => throw .malformed

def fields : Nat → Nat → List (String × Datum) → List Char → Except Fault (Datum × List Char)
  | 0, _, _, _ => .error .malformed
  | steps + 1, room, read, cs =>
    match skipSpace cs with
    | '"' :: rest =>
      match text? rest with
      | none => .error .malformed
      | some (key, _, rest) =>
        match skipSpace rest with
        | ':' :: rest => do
          let (d, rest) ← value steps room rest
          match skipSpace rest with
          | ',' :: rest => fields steps room ((key, d) :: read) rest
          | '\x7d' :: rest => return (Datum.ofFields ((key, d) :: read).reverse, rest)
          | _ => throw .malformed
        | _ => .error .malformed
    | _ => .error .malformed

end

def read (text : String) : Except Fault Datum := do
  let cs := text.toList
  let (d, rest) ← value (2 * cs.length + 2) mostDepth cs
  if (skipSpace rest).isEmpty then return d else throw .malformed

end StreamCheck.Input.Json
