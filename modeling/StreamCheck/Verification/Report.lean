import StreamCheck.Decimal.Reader
import StreamCheck.Subject.Basic

/-! Reports of the checker. A figure in a report is found by the words in front of it; a report need not
hold every figure, and one that is missing or no number counts as not observed. -/

namespace StreamCheck.Verification
open Text

inductive FigureForm where
  /-- Digits, directly behind the words. -/
  | count
  /-- On the rest of the line, digits and points behind the first fitting `^`. -/
  | power
  /-- Digits, a point and digits; the first digits count. -/
  | step
deriving DecidableEq, Repr, Inhabited

structure Figure where
  words : String
  form : FigureForm
deriving DecidableEq, Repr, Inhabited

namespace Figure

def memory : Figure := ⟨"Memory in use: ", .count⟩

def totalNodes : Figure := ⟨"Peak number of nodes: ", .count⟩

def liveNodes : Figure := ⟨"Peak number of live nodes: ", .count⟩

def diameter : Figure := ⟨"system diameter: ", .count⟩

def reachableStates : Figure := ⟨"reachable states: ", .power⟩

def totalStates : Figure := ⟨"out of ", .power⟩

def witnessState : Figure := ⟨"State: ", .step⟩

end Figure

def isNumeral (c : Char) : Bool := isDigit c || c == '.'

def takeSome (p : Char → Bool) (cs : List Char) : Option (List Char) :=
  match cs.takeWhile p with
  | [] => none
  | run => some run

/-- The digits and points behind the first `^` of the line that has some behind it. -/
def powerIn : List Char → Option (List Char)
  | [] => none
  | c :: rest =>
    if c = '^' then
      match takeSome isNumeral rest with
      | some run => some run
      | none => powerIn rest
    else if c = '\n' then none
    else powerIn rest

/-- The digits in front of a point and digits. -/
def stepIn (cs : List Char) : Option (List Char) :=
  match takeSome isDigit cs with
  | none => none
  | some run =>
    match cs.dropWhile isDigit with
    | '.' :: rest => (takeSome isDigit rest).map fun _ => run
    | _ => none

def FigureForm.read : FigureForm → List Char → Option (List Char)
  | count => takeSome isDigit
  | power => powerIn
  | step => stepIn

def after? (words : List Char) (cs : List Char) : Option (List Char) :=
  if words.isPrefixOf cs then some (cs.drop words.length) else none

def Figure.here (f : Figure) (cs : List Char) : Option (List Char) :=
  (after? f.words.toList cs).bind f.form.read

def Figure.first (f : Figure) : List Char → Option (List Char)
  | [] => f.here []
  | c :: rest =>
    match f.here (c :: rest) with
    | some run => some run
    | none => first f rest

def Figure.count (f : Figure) : List Char → Nat
  | [] => if (f.here []).isSome then 1 else 0
  | c :: rest => (if (f.here (c :: rest)).isSome then 1 else 0) + count f rest

def mentions (words : List Char) : List Char → Bool
  | [] => words.isEmpty
  | c :: rest => words.isPrefixOf (c :: rest) || mentions words rest

inductive Verdict where
  | holds
  | fails
  | unknown
deriving DecidableEq, Repr, Inhabited

namespace Verdict

def all : List Verdict := [holds, fails, unknown]

def name : Verdict → String
  | holds => "True"
  | fails => "False"
  | unknown => "Unknown"

def ofName? (s : String) : Option Verdict := all.find? (·.name == s)

end Verdict

namespace Report

def whole (f : Figure) (report : String) : Int :=
  match (f.first report.toList).bind Decimal.natural? with
  | some n => n
  | none => notObserved

def real (f : Figure) (report : String) : Float :=
  match (f.first report.toList).bind fun run => Decimal.real? (String.ofList run) with
  | some x => x
  | none => -1.0

/-- The verdict of a report; that the property fails counts more than that it holds. -/
def verdict (report : String) : Verdict :=
  if mentions "is false".toList report.toList then .fails
  else if mentions "is true".toList report.toList then .holds
  else .unknown

def witnessLength (report : String) : Nat := Figure.witnessState.count report.toList

end Report

end StreamCheck.Verification
