import StreamCheck.Input.Json
import StreamCheck.Text.Small

/-! Variables of the environment as sections of a document. A variable holds a whole section, or the
name of a section is followed by the names that lead to one value in it. -/

namespace StreamCheck.Settings
open Input

abbrev Environment := List (String × String)

inductive VariableFault where
  /-- A character with the number zero is in its name or its value. -/
  | zeroCharacter
  /-- The sign that parts names from values is in its name. -/
  | equalsSign
  | noName
deriving DecidableEq, Repr, Inhabited

def VariableFault.message : VariableFault → String
  | zeroCharacter => "embedded null byte"
  | equalsSign => "illegal environment variable name"
  | noName => "no name"

def variableFault? (name value : String) : Option VariableFault :=
  if name.contains '\x00' || value.contains '\x00' then some .zeroCharacter
  else if name.contains '=' then some .equalsSign
  else if name.isEmpty then some .noName
  else none

def Environment.fault? (env : Environment) : Option VariableFault :=
  env.findSome? fun v => variableFault? v.1 v.2

inductive SectionFault where
  /-- A variable holds no data. -/
  | noData (fault : Json.Fault)
  /-- What is said about the parting of names is of a kind that parts none. -/
  | senseless
  /-- The number of names is none that is counted to. -/
  | uncounted
deriving DecidableEq, Repr, Inhabited

/-- How that part of a variable's name is parted that is behind the name of the section. -/
inductive Parting where
  /-- At all separators. -/
  | everywhere
  /-- Into so many names at most, of which the last one keeps its separators. -/
  | into (most : Nat)
  /-- There is no parting. -/
  | fails (fault : SectionFault)
deriving DecidableEq, Repr, Inhabited

structure VariableForm where
  /-- With what the names of all variables begin. -/
  start : String := "PIPEBENCH_"
  /-- What stands between names; without it variables hold whole sections only. -/
  separator : Option String := some "__"
  parting : Parting := .everywhere
  /-- Names in other letters are other names. -/
  caseMatters : Bool := false
  /-- Variables with an empty value count as not set. -/
  skipsEmpty : Bool := false
  /-- The value that stands for null. -/
  nullWord : Option String := none
deriving DecidableEq, Repr, Inhabited

namespace VariableForm

def compared (f : VariableForm) (name : String) : String :=
  if f.caseMatters then name else Text.inSmall name

/-- The variables by their names as they are compared; of two with one name, the later one counts. -/
def byName (f : VariableForm) (env : Environment) : List (String × Datum) :=
  (Datum.ofFields <| (env.filter fun v => !(f.skipsEmpty && v.2.isEmpty)).map fun (name, value) =>
    (f.compared name, if f.nullWord == some value then .null else .text value)).fields

/-- A mapping with a value at the end of some names. What stands in the way and is no mapping stays. A
null replaces nothing but an empty mapping. -/
def put (names : List String) (v : Datum) (d : Datum) : Datum :=
  match names, d with
  | [name], .mapping _ =>
    match v, d.field? name with
    | .null, some (.mapping []) => d.insert name v
    | .null, some _ => d
    | _, _ => d.insert name v
  | name :: rest, .mapping _ => d.insert name (put rest v ((d.field? name).getD (.mapping [])))
  | _, d => d

def names (f : VariableForm) (separator rest : String) : Except SectionFault (List String) :=
  let parts := rest.splitOn separator
  match f.parting with
  | .everywhere => .ok parts
  | .into n =>
    .ok <| if parts.length ≤ n then parts
      else parts.take (n - 1) ++ [separator.intercalate (parts.drop (n - 1))]
  | .fails fault => .error fault

def inner (f : VariableForm) (vars : List (String × Datum)) (sectionName : String) :
    Except SectionFault Datum :=
  match f.separator with
  | none => .ok (.mapping [])
  | some separator =>
    let start := (f.compared (f.start ++ sectionName) ++ separator).toList
    vars.foldlM (fun d (name, v) =>
      if start.isPrefixOf name.toList then
        (f.names separator (String.ofList (name.toList.drop start.length))).map fun ns => put ns v d
      else .ok d) (.mapping [])

/-- The fields of a section under the keys that they belong to, which may be given in other letters. -/
def renamed (f : VariableForm) (keys : List String) (d : Datum) : Datum :=
  match d with
  | .mapping fields =>
    if f.caseMatters then d
    else Datum.ofFields <| fields.map fun (name, v) =>
      ((keys.find? fun k => Text.inSmall k == Text.inSmall name).getD name, v)
  | d => d

def sectionOf (f : VariableForm) (vars : List (String × Datum)) (sectionName : String)
    (keys : List String) : Except SectionFault (Option Datum) :=
  match vars.lookup (f.compared (f.start ++ sectionName)) with
  | none =>
    (f.inner vars sectionName).map fun inner =>
      if inner.fields.isEmpty then none else some (f.renamed keys inner)
  | some (.text s) =>
    match Json.read s with
    | .error fault => .error (.noData fault)
    | .ok .null => .ok none
    | .ok (.mapping fields) =>
      (f.inner vars sectionName).map fun inner =>
        some (f.renamed keys (Datum.merge (.mapping fields) inner))
    | .ok d => .ok (some d)
  | some d => .ok (some d)

end VariableForm

end StreamCheck.Settings
