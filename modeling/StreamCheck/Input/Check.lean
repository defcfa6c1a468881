import StreamCheck.Decimal.Entered
import StreamCheck.Input.Calendar
import StreamCheck.Input.Datum
import StreamCheck.Text.Encoding

/-! Checking data against the shape that is expected of it. Every field is checked, so all that is wrong
with a document is known at once, in the order of the fields. -/

namespace StreamCheck.Input

inductive Trouble where
  | missing
  | notText
  | notUnicode
  | notWhole
  | noWholeText
  | wholeTooLong
  | notFinite
  | fraction
  | belowOne
  | notReal
  | noRealText
  | notTruth
  | noTruthText
  | notListed
  | notPath
  | notMapping
  | notMoment
  | noMomentText
  | farMoment
  | unchangeable
deriving DecidableEq, Repr, Inhabited

def Trouble.code : Trouble → String
  | missing => "missing"
  | notText => "string_type"
  | notUnicode => "string_unicode"
  | notWhole => "int_type"
  | noWholeText => "int_parsing"
  | wholeTooLong => "int_parsing_size"
  | notFinite => "finite_number"
  | fraction => "int_from_float"
  | belowOne => "greater_than_equal"
  | notReal => "float_type"
  | noRealText => "float_parsing"
  | notTruth => "bool_type"
  | noTruthText => "bool_parsing"
  | notListed => "enum"
  | notPath => "path_type"
  | notMapping => "model_type"
  | notMoment => "datetime_type"
  | noMomentText => "datetime_from_date_parsing"
  | farMoment => "datetime_parsing"
  | unchangeable => "frozen_instance"

structure Issue where
  path : List String
  trouble : Trouble
deriving DecidableEq, Repr, Inhabited

/-- A reading of a value as something of a type. -/
abbrev Check (α : Type) := Datum → Except Trouble α

abbrev Positive := { n : Int // 0 < n }

instance : Inhabited Positive := ⟨⟨1, Int.one_pos⟩⟩

namespace Check

def spelled : Datum → Datum
  | .bytes b => (Text.Utf8.decode? b).elim (.bytes b) .text
  | d => d

def text : Check String := fun d =>
  match spelled d with
  | .text s | .broken s => .ok s
  | .bytes _ => .error .notUnicode
  | _ => .error .notText

def path : Check String
  | .text s | .broken s => .ok s
  | _ => .error .notPath

def isWord (n : Int) : Bool :=
  decide (-(Nat.pow 2 63 : Int) ≤ n) && decide (n < (Nat.pow 2 63 : Int))

/-- The whole number that a float stands for; the least word counts as too long here. -/
def wholeOfFloat (x : Float) : Except Trouble Int :=
  if x.isNaN || x.isInf then .error .notFinite
  else
    match Decimal.whole? x with
    | none => .error .fraction
    | some n => if isWord n && isWord (n - 1) then .ok n else .error .wholeTooLong

def whole : Check Int := fun d =>
  match spelled d with
  | .whole n => .ok n
  | .truth b => .ok (if b then 1 else 0)
  | .real x => wholeOfFloat x
  | .text s =>
    match Decimal.enteredWhole s with
    | .ok n => .ok n
    | .error .malformed => .error .noWholeText
    | .error .tooLong => .error .wholeTooLong
  | .bytes _ => .error .noWholeText
  | .broken _ => .error .notUnicode
  | _ => .error .notWhole

def positive : Check Positive := fun d => do
  let n ← whole d
  if h : 0 < n then .ok ⟨n, h⟩ else .error .belowOne

def real : Check Float := fun d =>
  match spelled d with
  | .whole n =>
    let x := Float.ofInt n
    if x.isInf then .error .notReal else .ok x
  | .truth b => .ok (if b then 1.0 else 0.0)
  | .real x => .ok x
  | .text s => (Decimal.enteredReal? s).elim (.error .noRealText) .ok
  | .bytes _ => .error .noRealText
  | .broken _ => .error .notUnicode
  | _ => .error .notReal

def truthOfWhole (n : Int) : Except Trouble Bool :=
  if n = 0 then .ok false else if n = 1 then .ok true else .error .noTruthText

def truth : Check Bool := fun d =>
  match spelled d with
  | .truth b => .ok b
  | .whole n => if isWord n then truthOfWhole n else .error .notTruth
  | .real x =>
    match wholeOfFloat x with
    | .ok n => truthOfWhole n
    | .error _ => .error .notTruth
  | .text s =>
    let word := s.toLower
    if ["true", "t", "yes", "y", "on", "1"].contains word then .ok true
    else if ["false", "f", "no", "n", "off", "0"].contains word then .ok false
    else .error .noTruthText
  | .bytes _ => .error .noTruthText
  | .broken _ => .error .notUnicode
  | _ => .error .notTruth

/-- A moment; nothing but whether it is one is kept. A text that leads beyond the calendar stands for no
moment, but one that leads into the year zero does. -/
def moment : Check Unit := fun d =>
  match spelled d with
  | .whole n =>
    if Calendar.reach n = .within then .ok ()
    else if (Float.ofInt n).isInf then .error .notMoment
    else .error .farMoment
  | .real x =>
    if (Decimal.floor? x).map Calendar.reach = some .within then .ok () else .error .farMoment
  | .text s =>
    match Calendar.reachOfText? s with
    | some .within => .ok ()
    | some .yearZero => .error .farMoment
    | some .beyond | none => .error .noMomentText
  | .bytes _ => .error .noMomentText
  | .broken _ => .error .notUnicode
  | _ => .error .notMoment

def listed {α : Type} (ofName? : String → Option α) : Check α
  | .text s => (ofName? s).elim (.error .notListed) .ok
  | _ => .error .notListed

def optional {α : Type} (check : Check α) : Check (Option α)
  | .null => .ok none
  | d => (check d).map some

end Check

/-- A reading of a document that collects what is wrong with it. -/
abbrev Form := StateM (List Issue)

namespace Form

def report (path : List String) (t : Trouble) : Form Unit := modify (· ++ [⟨path, t⟩])

/-- A value that is given, checked; something of the type if the check fails. -/
def given {α : Type} [Inhabited α] (path : List String) (check : Check α) (d : Datum) :
    Form α := do
  match check d with
  | .ok a => return a
  | .error t =>
    report path t
    return default

def required {α : Type} [Inhabited α] (d : Datum) (path : List String) (key : String)
    (check : Check α) : Form α := do
  match d.field? key with
  | some v => given (path ++ [key]) check v
  | none =>
    report (path ++ [key]) .missing
    return default

def defaulted {α : Type} [Inhabited α] (d : Datum) (path : List String) (key : String)
    (check : Check α) (otherwise : α) : Form α := do
  match d.field? key with
  | some v => given (path ++ [key]) check v
  | none => return otherwise

def finish {α : Type} (form : Form α) : Except (List Issue) α :=
  match form.run [] with
  | (a, []) => .ok a
  | (_, issues) => .error issues

end Form

end StreamCheck.Input
