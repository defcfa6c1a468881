import StreamCheck.Decimal.Reader
import StreamCheck.Markup.Fault
import StreamCheck.Text.Encoding
import StreamCheck.Text.Small

/-! Numbers of documents: whole ones in four bases and in sixties, and others with a point. Underscores
may stand among the digits. Which words are numbers is one question, and what a word stands for that
is marked as a number another. -/

namespace StreamCheck.Markup.Number
open Text

def isNumeral (c : Char) : Bool := c.isDigit || c == '_'

def withoutUnderscores (cs : List Char) : List Char := cs.filter (· != '_')

def unsigned : List Char → List Char
  | '-' :: rest => rest
  | '+' :: rest => rest
  | cs => cs

def isSixties : List Char → Bool
  | [] => true
  | ':' :: a :: rest =>
    a.isDigit && (isSixties rest ||
      match rest with
      | b :: rest => decide (a ≤ '5') && b.isDigit && isSixties rest
      | [] => false)
  | _ => false

def isWhole (cs : List Char) : Bool :=
  match unsigned cs with
  | '0' :: 'b' :: rest => !rest.isEmpty && rest.all fun c => "01_".toList.contains c
  | '0' :: 'x' :: rest => !rest.isEmpty && rest.all fun c => (Units.hexDigit? c).isSome || c == '_'
  | '0' :: rest => rest.all fun c => "01234567_".toList.contains c
  | c :: rest => c.isDigit && isSixties (rest.dropWhile isNumeral)
  | [] => false

def isExponent : List Char → Bool
  | [] => true
  | e :: sign :: ds =>
    (e == 'e' || e == 'E') && (sign == '+' || sign == '-') && !ds.isEmpty && ds.all Char.isDigit
  | _ => false

def infinityWords : List String := [".inf", ".Inf", ".INF"]

def noNumberWords : List String := [".nan", ".NaN", ".NAN"]

def isPointed (cs : List Char) : Bool :=
  let whole := cs.takeWhile (· != '.')
  match whole, cs.dropWhile (· != '.') with
  | c :: rest, _ :: fraction =>
    let places := rest.dropWhile isNumeral
    c.isDigit &&
      if places.isEmpty then isExponent (fraction.dropWhile isNumeral)
      else isSixties places && fraction.all isNumeral
  | _, _ => false

/-- Whether a word is a number with a point. Without digits in front of the point it has no sign. -/
def isReal (cs : List Char) : Bool :=
  isPointed (unsigned cs) || infinityWords.contains (String.ofList (unsigned cs)) ||
    noNumberWords.contains (String.ofList cs) ||
    match cs with
    | '.' :: c :: rest => c.isDigit && isExponent (rest.dropWhile isNumeral)
    | _ => false

def baseLetter? : Nat → Option Char
  | 2 => some 'b'
  | 8 => some 'o'
  | 16 => some 'x'
  | _ => none

def withoutBase (base : Nat) (cs : List Char) : List Char :=
  match cs with
  | '0' :: c :: rest => if (baseLetter? base).any (· == c.toLower) then rest else cs
  | _ => cs

def digit? (c : Char) : Option Nat := (digitValue? c).or (Units.hexDigit? c)

/-- The whole number that digits of a base stand for. In bases other than powers of two, too many
digits are refused. -/
def digits (base : Nat) (cs : List Char) : Except Fault Int :=
  let (negative, size) := Decimal.takeSign (stripBlanks cs)
  let ds := (withoutBase base size).map digit?
  if ds.isEmpty || ds.any fun d => !d.any (decide <| · < base) then
    .error (.noWhole base (String.ofList cs))
  else if base = 10 ∧ Decimal.mostDigits < ds.length then .error (.wholeTooLong ds.length)
  else
    let n : Int := ds.foldl (fun n d => base * n + d.getD 0) 0
    .ok (if negative then -n else n)

def inSixties (cs : List Char) : Except Fault Int := do
  let places ← ((String.ofList cs).splitOn ":").mapM fun p => digits 10 p.toList
  return places.foldl (fun n p => 60 * n + p) 0

def whole (text : String) : Except Fault Int := do
  let cs := withoutUnderscores text.toList
  let size := unsigned cs
  let n ←
    match size with
    | [] => throw .noDigits
    | ['0'] => pure 0
    | '0' :: 'b' :: rest => digits 2 rest
    | '0' :: 'x' :: rest => digits 16 rest
    | '0' :: _ => digits 8 size
    | _ => if size.contains ':' then inSixties size else digits 10 size
  return if cs.head? == some '-' then -n else n

def plainReal (cs : List Char) : Except Fault Float :=
  (Decimal.real? (String.ofList cs)).elim (.error (.noReal (String.ofList cs))) .ok

/-- How many places a number in sixties may have; one more would be worth more than every finite size. -/
def mostPlaces : Nat := 174

/-- What places stand for of which each is worth sixty of the next, the last place first. -/
def ofSixties (place : Nat) (sum : Float) : List Float → Float
  | [] => sum
  | p :: rest => ofSixties (place + 1) (sum + p * Float.ofNat (Nat.pow 60 place)) rest

def real (text : String) : Except Fault Float := do
  let cs := (Text.inSmall (String.ofList (withoutUnderscores text.toList))).toList
  let size := unsigned cs
  let x ←
    if cs.isEmpty then throw .noDigits
    else if size = ".inf".toList then pure (1.0 / 0.0)
    else if size = ".nan".toList then pure (0.0 / 0.0)
    else if size.contains ':' then do
      let places ← ((String.ofList size).splitOn ":").mapM fun p => plainReal p.toList
      if mostPlaces < places.length then throw .placeTooLarge
      pure (ofSixties 0 0.0 places.reverse)
    else plainReal size
  return if cs.head? == some '-' then -x else x

end StreamCheck.Markup.Number
