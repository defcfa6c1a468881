import StreamCheck.Decimal.Reader
import StreamCheck.Verification.Record

/-! Statistics as the checker prints them: each on a line of its own, in any order, among lines that say other things.
Beside that, where a figure stands in a report, whatever the report is. -/

namespace StreamCheck.Verification
open Text

def FigureForm.Begins : FigureForm → List Char → Prop
  | count, cs => ∃ d rest, cs = d :: rest ∧ isDigit d
  | power, cs => ∃ gap d rest, cs = gap ++ '^' :: d :: rest ∧ '\n' ∉ gap ∧ isNumeral d
  | step, cs => ∃ run d rest, cs = run ++ '.' :: d :: rest ∧ run ≠ [] ∧ (∀ c ∈ run, isDigit c) ∧ isDigit d

namespace Figure

/-- Somewhere in a report, the words of the figure are followed by what it needs. -/
def StandsIn (f : Figure) (report : String) : Prop :=
  ∃ front rest, report.toList = front ++ (f.words.toList ++ rest) ∧ f.form.Begins rest

def counts : List Figure := [.memory, .totalNodes, .liveNodes, .diameter]

def statistics : List Figure := counts ++ [.reachableStates, .totalStates]

end Figure

structure Whole where
  number : Nat
  short : (toString number).length ≤ Decimal.mostDigits
deriving DecidableEq, Repr

/-- A number of states: in digits, rounded if it is large, and as a power of two. -/
structure StateCount where
  size : String
  power : Decimal.Numeral
  plain : ∀ c ∈ size.toList, c ∈ "0123456789.e+".toList
deriving DecidableEq, Repr

def StateCount.text (n : StateCount) : String := n.size ++ " (2^" ++ String.ofList n.power.chars ++ ")"

/-- What the checker prints about a model; the reachable states and all of them are on one line. -/
structure Statistics where
  memory : Option Whole := none
  totalNodes : Option Whole := none
  liveNodes : Option Whole := none
  diameter : Option Whole := none
  states : Option (StateCount × StateCount) := none
deriving DecidableEq, Repr

namespace Statistics
variable (p : Statistics)

def counts : List (Figure × Option Whole) :=
  [(.memory, p.memory), (.totalNodes, p.totalNodes), (.liveNodes, p.liveNodes), (.diameter, p.diameter)]

def countLine (f : Figure) (n : Whole) : String := f.words ++ toString n.number

def stateLine (n : StateCount × StateCount) : String :=
  "reachable states: " ++ n.1.text ++ " out of " ++ n.2.text

def lines : List String :=
  (p.counts.flatMap fun x => x.2.toList.map (countLine x.1)) ++ p.states.toList.map stateLine

/-- A record that holds what was printed, and nothing where nothing was. -/
def noted (r : Record) : Record :=
  let whole (n : Option Whole) : Int := n.elim notObserved fun n => n.number
  { r with
    memory := whole p.memory
    totalNodes := whole p.totalNodes
    liveNodes := whole p.liveNodes
    systemDiameter := whole p.diameter
    reachableStates := p.states.elim (-1.0) fun n => n.1.power.value
    totalStates := p.states.elim (-1.0) fun n => n.2.power.value }

/-- The fields of a report on a record that are about statistics, each with whether its line was printed. -/
def fields : List (String × Bool) :=
  [("memory", p.memory.isSome), ("total_nodes", p.totalNodes.isSome), ("live_nodes", p.liveNodes.isSome),
   ("system_diameter", p.diameter.isSome), ("reachable_states", p.states.isSome), ("total_states", p.states.isSome)]

end Statistics

end StreamCheck.Verification
