import StreamCheck.Decimal.Written
import StreamCheck.Settings.Basic
import StreamCheck.Text.Printable

/-! The journal: events with a level, of which those that matter enough are written as lines of fields.
Setting the journal up again replaces what was set up before. -/

namespace StreamCheck
open Input

inductive Level where
  | debug
  | info
  | warning
  | error
  | critical
deriving DecidableEq, Repr, Inhabited

namespace Level

def rank : Level → Nat
  | debug => 10
  | info => 20
  | warning => 30
  | error => 40
  | critical => 50

def name : Level → String
  | debug => "debug"
  | info => "info"
  | warning => "warning"
  | error => "error"
  | critical => "critical"

def all : List Level := [debug, info, warning, error, critical]

def ofRank? (n : Int) : Option Level := all.find? fun l => decide ((l.rank : Int) = n)

/-- The capitals of a letter. Of the letters outside the alphabet, these four have capitals that a name
of a level holds. -/
def capitals (c : Char) : List Char :=
  if c = 'ı' then ['I']
  else if c = 'ſ' then ['S']
  else if c = 'ﬅ' ∨ c = 'ﬆ' then ['S', 'T']
  else [c.toUpper]

inductive Fault where
  /-- The word names a text. -/
  | text (s : String)
  /-- The word names a table. -/
  | table
deriving DecidableEq, Repr, Inhabited

def Fault.message : Fault → String
  | text s => "Unknown level: " ++ Text.quote s
  | table => "no level"

def basicForm : String := "%(levelname)s:%(name)s:%(message)s"

def rankOf? : String → Option Nat
  | "NOTSET" => some 0
  | "DEBUG" => some debug.rank
  | "INFO" => some info.rank
  | "WARNING" | "WARN" => some warning.rank
  | "ERROR" => some error.rank
  | "CRITICAL" | "FATAL" => some critical.rank
  | _ => none

/-- The least rank that is written, by a word in any case; by an unknown word, that of information. -/
def threshold (word : String) : Except Fault Nat :=
  match String.ofList (word.toList.flatMap capitals) with
  | "BASIC_FORMAT" => .error (.text basicForm)
  | "_STYLES" => .error .table
  | name => .ok ((rankOf? name).getD info.rank)

end Level

inductive Demand where
  /-- To say something that matters so much, and perhaps that an error was caught. -/
  | say (level : Level) (caught : Bool)
  /-- To say something that matters as much as the rank that stands in place of the text. -/
  | sayRanked
  /-- To say something later; that time does not come. -/
  | sayLater
  /-- To take back what stands in place of the text; nothing has been given to take back, which a mild
  demand does not mind. -/
  | takeBack (mild : Bool)
  /-- To write of a source what has the rank in place of the text, or a higher one. -/
  | setThreshold
  /-- To tell whether what has the rank in place of the text is written. -/
  | askRank
  /-- To make a part of the source known. -/
  | askPart
  /-- To pass on a record. -/
  | passOn
  /-- To do something of which nothing is seen. -/
  | ignore
  /-- To do what needs no text. -/
  | refuse
deriving DecidableEq, Repr, Inhabited

def Demand.ofWord? : String → Option Demand
  | "debug" => some (say .debug false)
  | "info" => some (say .info false)
  | "warning" | "warn" => some (say .warning false)
  | "error" => some (say .error false)
  | "exception" => some (say .error true)
  | "critical" | "fatal" => some (say .critical false)
  | "log" => some sayRanked
  | _ => none

structure Event where
  /-- What is asked of the journal; none if no such thing can be asked. -/
  demand : Option Demand
  /-- What is said; null for nothing. -/
  text : Datum
  /-- The name of the part; null, false and the like for the whole program. -/
  source : Datum
  fields : List (String × Datum)
deriving Inhabited

inductive Event.Fault where
  /-- The source has no name. -/
  | namelessSource
  /-- There is no such demand. -/
  | unknownDemand
  /-- A field has the name of a part of the event. -/
  | takenName
  /-- What is given as the record of the event is none. -/
  | noRecord
  /-- What stands in place of the text is of a kind that does not go there. -/
  | wrongKind
  /-- There is nothing under the key in place of the text. -/
  | noEntry (key : String)
  /-- No rank has the name. -/
  | noRank (name : String)
deriving DecidableEq, Repr, Inhabited

def Event.Fault.message : Event.Fault → String
  | namelessSource => "no source"
  | unknownDemand => "no demand"
  | takenName => "taken name"
  | noRecord => "no record"
  | wrongKind => "wrong kind"
  | noEntry key => key
  | noRank name => "Unknown level: " ++ Text.quote name

inductive Journal.Format where
  /-- One line of data an event. -/
  | data
  /-- Text for people. -/
  | console
deriving DecidableEq, Repr, Inhabited

structure Journal where
  /-- The least rank that is written. -/
  threshold : Nat := Level.warning.rank
  /-- Sources that have a least rank of their own. -/
  ownThresholds : List (String × Nat) := []
  /-- Sources that have spoken. -/
  speakers : List String := []
  /-- How events become lines, for each place that they are written to. -/
  outlets : List Journal.Format := []
  /-- The name of the run, if it has one. -/
  run : Option Datum := none
deriving Inhabited

namespace Journal

def Format.ofName (s : String) : Format := if s = "json" then .data else .console

/-- The journal with the settings and a name for the run; without a name it keeps the one it has. Of
the quiet sources no more than warnings are written. -/
def setUp (s : JournalSettings) (quiet : List String) (run : Datum) (j : Journal) :
    Except Level.Fault Journal := do
  let threshold ← Level.threshold s.level
  return { j with
    threshold
    ownThresholds := quiet.map fun source => (source, Level.warning.rank)
    outlets := [Format.ofName s.format]
    run := if run.isNothing then j.run else some run }

def wholeName : String := "root"

def beforePoint (name : List Char) : List Char :=
  ((name.reverse.dropWhile (· != '.')).drop 1).reverse

theorem length_beforePoint_le (name : List Char) : (beforePoint name).length ≤ name.length - 1 := by
  have h := (List.dropWhile_sublist (· != '.') (l := name.reverse)).length_le
  simp only [List.length_reverse] at h
  simp only [beforePoint, List.length_reverse, List.length_drop]
  omega

/-- The names of which a name is a part, the longest first: each ends before a point, and behind each
but the longest there is a character besides the point. -/
def enclosing (name : List Char) : List (List Char) :=
  if (beforePoint name).isEmpty then []
  else beforePoint name :: enclosing (beforePoint name).dropLast
termination_by name.length
decreasing_by
  have := length_beforePoint_le name
  have : 0 < (beforePoint name).length := List.length_pos_iff.2 (by simpa using ‹¬(beforePoint name).isEmpty = true›)
  simp only [List.length_dropLast]
  omega

/-- The least rank that a source has of its own; none for one that has not. -/
def ownThreshold (j : Journal) (source : String) : Nat := (j.ownThresholds.lookup source).getD 0

/-- Whether a source is known: it has a least rank of its own, or has spoken. -/
def isKnown (j : Journal) (source : String) : Bool :=
  j.ownThresholds.any (·.1 == source) || j.speakers.contains source

/-- The least rank that is written of what a source says. One that has none of its own goes with the
nearest known source of which it is a part. -/
def thresholdOf (j : Journal) (source : String) : Nat := go source.length source
where
  go : Nat → String → Nat
    | 0, _ => j.threshold
    | size + 1, source =>
      if 0 < j.ownThreshold source then j.ownThreshold source
      else
        match ((enclosing source.toList).map String.ofList).find? j.isKnown with
        | some whole => go size whole
        | none => j.threshold

def takenNames : List String := ["event", "self", "method_name"]

def namesTakenBy : Demand → List String
  | .say .. => takenNames
  | .sayRanked => ["self", "level"]
  | .sayLater => ["event", "self"]
  | _ => []

def takesFields : Demand → Bool
  | .say .. | .sayRanked | .sayLater => true
  | _ => false

def recordName : String := "_record"

/-- Fields that say nothing: their place is taken by the time and by the call stack. -/
def ownNames : List String := [recordName, "timestamp", "stack_info"]

def sourceName (source : Datum) : Except Event.Fault String :=
  match source with
  | .text s => .ok (if s.isEmpty then wholeName else s)
  | d => if d.isNothing then .ok wholeName else .error .namelessSource

def fieldsOf (caught : Bool) (fields : List (String × Datum)) : List (String × Datum) :=
  if caught && (fields.lookup "exc_info").isNone then fields ++ [("exc_info", .truth true)]
  else fields

/-- The line of an event. Its text, level and source count more than its fields, and those more than
the name of the run. Fields with the names of marks are left out. -/
def line (j : Journal) (marks : List String) (text : Datum) (fields : List (String × Datum))
    (level : Level) (source : String) : Datum :=
  let base := Datum.mapping (j.run.elim [] fun r => [("run_id", r)])
  let fields := fields.filter fun f => !(ownNames ++ marks).contains f.1
  let withFields := fields.foldl (fun d (k, v) => d.insert k v) base
  let withText :=
    match text with
    | .null => withFields
    | text => withFields.insert "event" text
  (withText.insert "level" (.text level.name)).insert "logger" (.text source)

def hasNoRecord (fields : List (String × Datum)) : Bool :=
  match fields.lookup recordName with
  | none | some .null => true
  | some _ => false

def linesOf (marks : List String) (text : Datum) (fields : List (String × Datum)) (level : Level)
    (source : String) (j : Journal) : Except Event.Fault (List Datum) :=
  if !hasNoRecord fields then .error .noRecord
  else if j.thresholdOf source ≤ level.rank then
    .ok ((j.outlets.filter (· == .data)).map fun _ => line j marks text fields level source)
  else .ok []

def keyText? : Datum → Option String
  | .null => some "None"
  | .truth b => some (if b then "True" else "False")
  | .whole n => some (toString n)
  | .real x => some (Decimal.text x)
  | .text s => some (Text.quote s)
  | _ => none

def wholeOf? : Datum → Option Int
  | .whole n => some n
  | .truth b => some (if b then 1 else 0)
  | .real x => Decimal.whole? x
  | _ => none

/-- The level of the rank that a value is. The lowest rank is known and is that of no level. -/
def levelOf (d : Datum) : Except Event.Fault Level :=
  match keyText? d with
  | none => .error .wrongKind
  | some key =>
    match (wholeOf? d).bind Level.ofRank? with
    | some level => .ok level
    | none => .error (if wholeOf? d = some 0 then .unknownDemand else .noEntry key)

def withThreshold (source : String) (rank : Nat) (j : Journal) : Journal :=
  if source = wholeName then { j with threshold := rank }
  else { j with ownThresholds := (source, rank) :: j.ownThresholds }

def rankOf (d : Datum) : Except Event.Fault Nat :=
  match d with
  | .whole n => .ok n.toNat
  | .truth b => .ok (if b then 1 else 0)
  | .text s => (Level.rankOf? s).elim (.error (.noRank s)) .ok
  | _ => .error .wrongKind

def meet (marks : List String) (e : Event) (j : Journal) :
    Except Event.Fault (List Datum × Journal) := do
  let source ← sourceName e.source
  let j := { j with speakers := source :: j.speakers }
  match e.demand with
  | none => throw .unknownDemand
  | some demand =>
    if e.fields.any fun f => !takesFields demand || (namesTakenBy demand).contains f.1 then
      throw .takenName
    match demand with
    | .say level caught =>
      return (← linesOf marks e.text (fieldsOf caught e.fields) level source j, j)
    | .sayRanked =>
      let level ← levelOf e.text
      if e.fields.any fun f => f.1 == "method_name" then throw .takenName
      let text := (e.fields.lookup "event").getD .null
      let fields := e.fields.filter fun f => f.1 != "event"
      return (← linesOf marks text fields level source j, j)
    | .takeBack mild =>
      match keyText? e.text with
      | none => throw .wrongKind
      | some key => if mild then return ([], j) else throw (.noEntry key)
    | .setThreshold => return ([], j.withThreshold source (← rankOf e.text))
    | .askRank =>
      match e.text with
      | .whole _ | .real _ | .truth _ => return ([], j)
      | _ => throw .wrongKind
    | .askPart =>
      match e.text with
      | .text s =>
        let part := if source = wholeName then s else source ++ "." ++ s
        return ([], { j with speakers := part :: j.speakers })
      | _ => throw .wrongKind
    | .passOn => throw .noRecord
    | .sayLater | .ignore => return ([], j)
    | .refuse => throw .wrongKind

def lines (marks : List String) (events : List Event) (j : Journal) :
    Except Event.Fault (List Datum × Journal) :=
  match events with
  | [] => .ok ([], j)
  | e :: rest => do
    let (first, j) ← meet marks e j
    let (others, j) ← lines marks rest j
    return (first ++ others, j)

end Journal

end StreamCheck
