import StreamCheck.Settings.Environment

/-! Which of the places that may give a setting counts: the document, a variable, or neither. -/

namespace StreamCheck

namespace Input

def Check.orElse {α : Type} (check : Check α) (otherwise : α) : Option Datum → Except Trouble α
  | none => .ok otherwise
  | some v => check v

/-- What a document says at a place: the value under a key of a section. -/
def Datum.under (d : Datum) (sectionName key : String) : Option Datum :=
  (d.field? sectionName).bind (field? key)

end Input

open Input

inductive Setting where
  | text (s : String)
  | limit (seconds : Option Float)
  | truth (b : Bool)

namespace Settings

def valueOf (s : Settings) (p : Place) : Setting :=
  if p = .binary then .text s.checker.binary
  else if p = .workDir then .text s.checker.workDir
  else if p = .timeout then .limit s.checker.timeout
  else if p = .keepModels then .truth s.checker.keepModels
  else if p = .level then .text s.journal.level
  else .text s.journal.format

namespace Place

def said (p : Place) (d : Datum) : Option Datum := d.under p.sectionName p.key

def meaning (temporary : String) (p : Place) (v : Option Datum) : Except Trouble Setting :=
  if p = binary then Setting.text <$> Check.text.orElse "NuSMV" v
  else if p = workDir then (fun s => Setting.text (Text.normalPath s)) <$> Check.path.orElse temporary v
  else if p = timeout then
    (fun x => Setting.limit (x.bind CheckerSettings.limit)) <$> (Check.optional Check.real).orElse none v
  else if p = keepModels then Setting.truth <$> Check.truth.orElse false v
  else if p = level then Setting.text <$> Check.text.orElse "INFO" v
  else Setting.text <$> Check.text.orElse "console" v

/-- The setting that the value of a variable means. A limit is read as a number before it is looked at. -/
def entered (temporary : String) (p : Place) (text : String) : Except Trouble Setting :=
  if p = timeout then
    (Decimal.real? text).elim (.error .noRealText) fun x => .ok (.limit (CheckerSettings.limit x))
  else p.meaning temporary (some (.text text))

/-- The places whose variables replace what the document says. -/
def replacing : List Place := [timeout, level]

/-- The setting of a place: that of its variable where the document says nothing, or where the variable is not
empty and replaces what it says; else that of the document. -/
def settled (temporary : String) (env : Environment) (d : Datum) (p : Place) : Except Trouble Setting :=
  match env.lookup p.variableName, p.said d with
  | none, v => p.meaning temporary v
  | some text, none => p.entered temporary text
  | some text, some v =>
    if text ≠ "" ∧ p ∈ replacing then p.entered temporary text else p.meaning temporary (some v)

end Place

/-- All variables of the program belong to places, and each is set once. -/
structure Orderly (env : Environment) : Prop where
  settable : env.fault? = none
  once : (env.map Prod.fst).Nodup
  places : ∀ v ∈ env, "pipebench_".toList <+: (Text.inSmall v.1).toList → ∃ p ∈ Place.all, v.1 = p.variableName

/-- A document names its sections in small letters, and says nothing about how variables are read. -/
structure Plain (fields : List (String × Datum)) : Prop where
  small : ∀ f ∈ fields, Text.inSmall f.1 ∈ Place.sections → f.1 ∈ Place.sections
  usual : variableForm (.mapping fields) = .ok {}

end Settings

end StreamCheck
