import StreamCheck.Decimal.Written

/-! The calendar: how long months are, and which moments are written how. -/

namespace StreamCheck.Input.Calendar

def isLeap (year : Nat) : Bool := year % 4 == 0 && (year % 100 != 0 || year % 400 == 0)

def daysIn (year month : Nat) : Nat :=
  match month with
  | 2 => if isLeap year then 29 else 28
  | 4 | 6 | 9 | 11 => 30
  | _ => 31

def pair? : List Char → Option (Nat × List Char)
  | a :: b :: rest =>
    if a.isDigit && b.isDigit then
      some (10 * (a.toNat - '0'.toNat) + (b.toNat - '0'.toNat), rest)
    else none
  | _ => none

def behind? (mark : Char) : List Char → Option (List Char)
  | c :: rest => if c = mark then some rest else none
  | [] => none

def date? (cs : List Char) : Option (Nat × List Char) := do
  let (century, cs) ← pair? cs
  let (year, cs) ← pair? cs
  let (month, cs) ← pair? (← behind? '-' cs)
  let (day, cs) ← pair? (← behind? '-' cs)
  let year := 100 * century + year
  if 1 ≤ month ∧ month ≤ 12 ∧ 1 ≤ day ∧ day ≤ daysIn year month then some (year, cs)
  else none

def behindFraction? : List Char → Option (List Char)
  | c :: rest =>
    if c = '.' ∨ c = ',' then
      if (rest.takeWhile Char.isDigit).isEmpty then none else some (rest.dropWhile Char.isDigit)
    else some (c :: rest)
  | [] => some []

def behindTime? (cs : List Char) : Option (List Char) := do
  let (hour, cs) ← pair? cs
  let (minute, cs) ← pair? (← behind? ':' cs)
  if 23 < hour ∨ 59 < minute then none
  else
    match cs with
    | ':' :: rest => do
      let (second, cs) ← pair? rest
      if 59 < second then none else behindFraction? cs
    | _ => some cs

/-- Whether characters are a distance from the zero meridian: nothing, a letter, or hours and minutes
with a sign, less than a day in all. -/
def isZone : List Char → Bool
  | [] => true
  | ['Z'] | ['z'] => true
  | sign :: cs =>
    ['+', '-', Char.ofNat 0x2212].contains sign &&
      match pair? cs with
      | none => false
      | some (hour, cs) =>
        match pair? ((behind? ':' cs).getD cs) with
        | some (minute, []) => decide (hour < 24) && decide (minute < 60)
        | _ => false

def isTime : List Char → Bool
  | mark :: rest => ['T', 't', ' ', '_'].contains mark && ((behindTime? rest).map isZone).getD false
  | [] => false

def year? (cs : List Char) : Option Nat :=
  (date? cs).bind fun (year, rest) => if rest.isEmpty || isTime rest then some year else none

inductive Reach where
  | within
  /-- The moment lies in the year before the first. -/
  | yearZero
  /-- The moment lies before that year, or its year has more than four digits. -/
  | beyond
deriving DecidableEq, Repr, Inhabited

def firstSecond : Int := -62135596800

def zeroSecond : Int := -62167219200

def lastSecond : Int := 253402300799

/-- The largest count since the year 1970 that is one of seconds; larger ones are of milliseconds. -/
def mostSeconds : Nat := 20000000000

def reach (count : Int) : Reach :=
  let seconds := if count.natAbs ≤ mostSeconds then count else Int.fdiv count 1000
  if seconds < zeroSecond ∨ lastSecond < seconds then .beyond
  else if seconds < firstSecond then .yearZero
  else .within

def digitOf (c : Char) : Nat := c.toNat - '0'.toNat

/-- A number with decimal places: each place is added to what comes before it, and rounded. -/
def addPlaces (whole : Nat) (places : List Char) : Float :=
  (places.foldl (fun (sum, unit) c => (sum + Float.ofNat (digitOf c) / unit, unit * 10.0))
    (Float.ofNat whole, 10.0)).1

/-- The count that a text stands for, a fraction counting as the whole number below. -/
def count? (cs : List Char) : Option Int :=
  let (negative, cs) :=
    match cs with
    | '-' :: rest => (true, rest)
    | '+' :: rest => (false, rest)
    | _ => (false, cs)
  let run := cs.takeWhile Char.isDigit
  let size := run.foldl (fun n c => 10 * n + digitOf c) 0
  match cs.dropWhile Char.isDigit with
  | [] => if run.isEmpty then none else some (if negative then -(size : Int) else size)
  | '.' :: places =>
    if places.all Char.isDigit then
      let x := addPlaces size places
      Decimal.floor? (if negative then -x else x)
    else none
  | _ => none

def reachOfText? (s : String) : Option Reach :=
  match year? s.toList with
  | some year => some (if year = 0 then .yearZero else .within)
  | none => (count? s.toList).map reach

end StreamCheck.Input.Calendar
