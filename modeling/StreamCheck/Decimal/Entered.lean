import StreamCheck.Decimal.Reader

/-! Numbers as they are entered in a field: with blanks around them, a sign, zeros in front,
underscores between the digits, and a fraction of zeros behind a whole number. -/

namespace StreamCheck.Decimal
open Text

inductive WholeFault where
  | malformed
  /-- There are more digits than are read. -/
  | tooLong
deriving DecidableEq, Repr, Inhabited

/-- A whole number in its plain form: a minus sign at most, and digits that begin with a zero only if
there is no other. -/
def plainWhole (cs : List Char) : Except WholeFault Int :=
  let (negative, digits) :=
    match cs with
    | '-' :: rest => (true, rest)
    | _ => (false, cs)
  let run := digits.takeWhile Char.isDigit
  match run with
  | [] => .error .malformed
  | '0' :: _ => if digits.length = 1 then .ok 0 else .error .malformed
  | _ =>
    if mostDigits < run.length then .error .tooLong
    else if run.length ≠ digits.length then .error .malformed
    else
      let size : Int := ofDigits (run.map fun c => c.toNat - '0'.toNat)
      .ok (if negative then -size else size)

def hasDoubleUnderscore : List Char → Bool
  | '_' :: '_' :: _ => true
  | _ :: rest => hasDoubleUnderscore rest
  | [] => false

/-- Characters without their underscores, if there are some, each alone and none at an end. -/
def withoutUnderscores? (cs : List Char) : Option (List Char) :=
  if !cs.contains '_' || cs.head? == some '_' || cs.getLast? == some '_' || hasDoubleUnderscore cs
  then none
  else some (cs.filter (· != '_'))

/-- What is left behind zeros and underscores, the last of which comes before; a point keeps that
last one in front. What is left may have a sign of its own. -/
def afterZeros? (last : Char) : List Char → Option (List Char)
  | [] => some [last]
  | c :: rest =>
    if c = '0' ∨ c = '_' then afterZeros? c rest
    else if c.isDigit ∨ c = '-' then some (c :: rest)
    else if c = '.' then some (last :: c :: rest)
    else none

def withoutLeadingZeros? : List Char → Option (List Char)
  | [] => none
  | c :: rest =>
    if c = '0' then afterZeros? c rest
    else if c.isDigit then some (c :: rest)
    else none

def withoutZeroFraction (cs : List Char) : List Char :=
  match cs.dropWhile (· != '.') with
  | _ :: '0' :: fraction => if fraction.all (· == '0') then cs.takeWhile (· != '.') else cs
  | _ => cs

def plainForm? (cs : List Char) : Option (List Char) :=
  let (negative, unsigned) := takeSign (stripBlanks cs)
  (withoutLeadingZeros? unsigned).map fun digits =>
    let whole := withoutZeroFraction digits
    let plain := (withoutUnderscores? whole).getD whole
    if negative then '-' :: plain else plain

def enteredWhole (s : String) : Except WholeFault Int :=
  match plainWhole s.toList with
  | .error .malformed => (plainForm? s.toList).elim (.error .malformed) plainWhole
  | read => read

def plainReal? (cs : List Char) : Option Float :=
  if cs.all fun c => decide (c.toNat < 128) && c != '_' then signed? cs else none

/-- The number that is entered. Blanks around it and underscores inside it do not go together. -/
def enteredReal? (s : String) : Option Float :=
  (plainReal? (stripBlanks s.toList)).or ((withoutUnderscores? s.toList).bind plainReal?)

end StreamCheck.Decimal
