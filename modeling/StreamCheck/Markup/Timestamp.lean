import StreamCheck.Input.Calendar
import StreamCheck.Markup.Fault
import StreamCheck.Text.Basic

/-! Timestamps of documents: a date, and perhaps a time of the day and the distance from the zero
meridian. Nothing is kept of them but whether there is such a moment. -/

namespace StreamCheck.Markup
open Input

structure Timestamp where
  year : Nat
  month : Nat
  day : Nat
  /-- Hour, minute and second. -/
  clock : Option (Nat × Nat × Nat) := none
  /-- Seconds from the zero meridian. -/
  zone : Option Int := none
  /-- Month and day have two digits each. -/
  padded : Bool
deriving DecidableEq, Repr, Inhabited

namespace Timestamp

def short? (cs : List Char) : Option (Nat × Bool × List Char) :=
  match Calendar.pair? cs, cs with
  | some (n, rest), _ => some (n, true, rest)
  | none, c :: rest => if c.isDigit then some (c.toNat - '0'.toNat, false, rest) else none
  | none, [] => none

def behindLetter? : List Char → Option (List Char)
  | c :: rest =>
    if c = 'T' ∨ c = 't' then some rest
    else if c = ' ' ∨ c = '\t' then some (rest.dropWhile fun d => d == ' ' || d == '\t')
    else none
  | [] => none

def zone? (cs : List Char) : Option Int :=
  match cs with
  | ['Z'] => some 0
  | sign :: rest =>
    if sign = '+' ∨ sign = '-' then
      match short? rest with
      | none => none
      | some (hours, _, rest) =>
        let minutes :=
          match rest with
          | [] => some 0
          | ':' :: rest => (Calendar.pair? rest).bind fun (m, rest) => if rest.isEmpty then some m else none
          | _ => none
        minutes.map fun m =>
          let seconds : Int := hours * 3600 + m * 60
          if sign = '-' then -seconds else seconds
    else none
  | [] => none

def withTime? (date : Timestamp) (cs : List Char) : Option Timestamp := do
  let (hour, _, cs) ← short? cs
  let (minute, cs) ← Calendar.pair? (← Calendar.behind? ':' cs)
  let (second, cs) ← Calendar.pair? (← Calendar.behind? ':' cs)
  let cs :=
    match cs with
    | '.' :: rest => rest.dropWhile Char.isDigit
    | _ => cs
  let timed := { date with clock := some (hour, minute, second) }
  if cs.isEmpty then return timed
  let zone ← zone? (cs.dropWhile fun c => c == ' ' || c == '\t')
  return { timed with zone := some zone }

def read? (text : String) : Option Timestamp := do
  let (century, cs) ← Calendar.pair? (Text.withoutLastFeed text).toList
  let (year, cs) ← Calendar.pair? cs
  let (month, monthPadded, cs) ← short? (← Calendar.behind? '-' cs)
  let (day, dayPadded, cs) ← short? (← Calendar.behind? '-' cs)
  let date : Timestamp :=
    { year := 100 * century + year, month, day, padded := monthPadded && dayPadded }
  if cs.isEmpty then return date
  withTime? date (← behindLetter? cs)

/-- Whether a word is a timestamp. A date alone has two digits for month and day. -/
def isWord (text : String) : Bool := (read? text).any fun t => t.padded || t.clock.isSome

def fault? (t : Timestamp) : Option TimeFault :=
  let (hour, minute, second) := t.clock.getD (0, 0, 0)
  if (t.zone.any fun z => decide (86400 ≤ z.natAbs)) then some (.zone (t.zone.getD 0))
  else if t.year = 0 then some (.year 0)
  else if t.month = 0 ∨ 12 < t.month then some .month
  else if t.day = 0 ∨ Calendar.daysIn t.year t.month < t.day then some .day
  else if 23 < hour then some .hour
  else if 59 < minute then some .minute
  else if 59 < second then some .second
  else none

end Timestamp

end StreamCheck.Markup
