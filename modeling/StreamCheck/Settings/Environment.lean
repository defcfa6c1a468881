import StreamCheck.Decimal.Written
import StreamCheck.Markup.Document
import StreamCheck.Settings.Basic
import StreamCheck.Settings.Variables

/-! Settings from a document and from the environment. Four variables replace what the document says;
each key has besides a variable of its own, which counts where neither of them says anything. How those
are read, the document may say itself. -/

namespace StreamCheck.Settings
open Input Markup

/-- A place in a document: a section and a key. -/
structure Place where
  sectionName : String
  key : String
deriving DecidableEq, Repr, Inhabited

namespace Place

def binary : Place := ⟨"checker", "binary_path"⟩

def workDir : Place := ⟨"checker", "work_dir"⟩

def timeout : Place := ⟨"checker", "timeout_s"⟩

def keepModels : Place := ⟨"checker", "keep_model_files"⟩

def level : Place := ⟨"logging", "level"⟩

def format : Place := ⟨"logging", "format"⟩

def all : List Place := [binary, workDir, timeout, keepModels, level, format]

def sections : List String := (all.map sectionName).eraseDups

def keysOf (name : String) : List String := (all.filter (·.sectionName == name)).map key

def variableName (p : Place) : String :=
  "PIPEBENCH_" ++ p.sectionName.toUpper ++ "__" ++ p.key.toUpper

end Place

def binaryVariable : String := "PIPEBENCH_NUSMV_PATH"

def workDirVariable : String := "PIPEBENCH_WORK_DIR"

inductive SettingsFault where
  | unset (fault : VariableFault)
  /-- The document cannot be read. -/
  | document (fault : Markup.Fault)
  /-- A variable is to be put into a document that is no mapping. -/
  | noDocument
  /-- A value is of a kind that does not go where it stands, a name of the document is no text, or it is
  taken. -/
  | wrongKind
  /-- A variable holds no data, or there is no telling where data come from. -/
  | environment
  /-- The number of names in that of a variable is none that is counted to. -/
  | uncounted
  /-- A variable holds lists or mappings that lie too deep in each other. -/
  | tooDeep (isList : Bool)
  | noNumber (text : String)
  | invalid (issues : List Issue)
deriving DecidableEq, Repr, Inhabited

def SettingsFault.message : SettingsFault → String
  | unset fault => fault.message
  | document fault => fault.message
  | noDocument => "no document"
  | wrongKind => "wrong kind"
  | environment => "no data"
  | uncounted => "Python int too large to convert to C ssize_t"
  | tooDeep isList => Json.tooDeepMessage isList
  | noNumber text => "could not convert string to float: " ++ Text.quote text
  | invalid _ => "invalid settings"

def SettingsFault.ofSection : SectionFault → SettingsFault
  | .noData .malformed => environment
  | .noData (.tooDeep isList) => tooDeep isList
  | .senseless => wrongKind
  | .uncounted => uncounted

def put (p : Place) (v : Datum) (d : Datum) : Except SettingsFault Datum :=
  match d with
  | .mapping fields =>
    match d.field? p.sectionName with
    | none => .ok (.mapping (fields ++ [(p.sectionName, .mapping [(p.key, v)])]))
    | some (.mapping inner) =>
      .ok (d.insert p.sectionName ((Datum.mapping inner).insert p.key v))
    | some _ => .error .wrongKind
  | _ => .error .noDocument

def nonempty? (env : Environment) (name : String) : Option String :=
  match env.lookup name with
  | some "" => none
  | v => v

def replace (env : Environment) (name : String) (p : Place)
    (value : String → Except SettingsFault Datum) (d : Datum) : Except SettingsFault Datum :=
  match nonempty? env name with
  | none => .ok d
  | some text => do put p (← value text) d

def number (text : String) : Except SettingsFault Datum :=
  (Decimal.real? text).elim (.error (.noNumber text)) fun x => .ok (.real x)

def replaceAll (env : Environment) (d : Datum) : Except SettingsFault Datum := do
  let d ← replace env binaryVariable .binary (fun s => .ok (.text s)) d
  let d ← replace env workDirVariable .workDir (fun s => .ok (.text s)) d
  let d ← replace env Place.timeout.variableName .timeout number d
  replace env Place.level.variableName .level (fun s => .ok (.text s)) d

def saysYes (d : Datum) (key : String) : Bool := ((d.field? key).map fun v => !v.isNothing).getD false

/-- Whether what the names of variables begin with stands in front of the names of sections. -/
def startsNames (d : Datum) : Bool :=
  match d.field? "_env_prefix_target" with
  | none | some .null => true
  | some (.text s) => s == "variable" || s == "all"
  | some _ => false

def startOf (d : Datum) (otherwise : String) : Except SettingsFault String :=
  match d.field? "_env_prefix" with
  | none | some .null => .ok (if startsNames d then otherwise else "")
  | some (.text s) | some (.broken s) => .ok (if startsNames d then s else "")
  | some (.list _) | some (.mapping _) | some (.bytes _) | some (.set _) =>
    if startsNames d then .error .environment else .ok ""
  | some _ => .error .wrongKind

/-- What stands between the names in that of a variable, where the document says something about it. -/
def separatorOf (d : Datum) (otherwise : Option String) : Option String :=
  match d.field? "_env_nested_delimiter" with
  | none | some .null => otherwise
  | some v =>
    if v.isNothing then none
    else
      match v with
      | .text s => some s
      | .whole n => some (toString n)
      | .truth _ => some "True"
      | .real x => some (Decimal.text x)
      | _ => none

def isOddSeparator (d : Datum) : Bool :=
  match d.field? "_env_nested_delimiter" with
  | none | some .null | some (.text _) => false
  | some _ => true

/-- How names are parted, where the document says into how many. To count one less than nothing is to
part everywhere. -/
def partingOf (d : Datum) : Except SettingsFault Parting :=
  match d.field? "_env_nested_max_split" with
  | none => .ok .everywhere
  | some v =>
    if v.isNothing then .ok .everywhere
    else
      match v with
      | .whole n =>
        .ok (if !Check.isWord (n - 1) then .fails .uncounted
          else if 0 < n then .into n.toNat
          else .everywhere)
      | .truth _ => .ok (.into 1)
      | .real _ => .ok (.fails .senseless)
      | _ => .error .wrongKind

def variableForm (d : Datum) : Except SettingsFault VariableForm := do
  let usual : VariableForm := {}
  let parting ← partingOf d
  let start ← startOf d usual.start
  return {
    start
    separator := separatorOf d usual.separator
    parting :=
      if isOddSeparator d ∧ parting ≠ .fails .uncounted then .fails .senseless else parting
    caseMatters := saysYes d "_case_sensitive"
    skipsEmpty := saysYes d "_env_ignore_empty"
    nullWord :=
      match d.field? "_env_parse_none_str" with
      | some (.text s) => some s
      | _ => none }

def isFileName : Datum → Bool
  | .text _ | .broken _ => true
  | _ => false

def namesFiles (d : Datum) (key : String) : Bool :=
  match d.field? key with
  | none | some .null | some (.mapping _) | some (.set _) => true
  | some (.list items) => items.all isFileName
  | some (.bytes b) => b.isEmpty
  | some v => isFileName v

/-- Whether the document gives words of a command line, or says whether there is one. -/
def hasWords (d : Datum) : Bool :=
  match d.field? "_cli_parse_args" with
  | none | some .null | some (.truth _) | some (.list _) => true
  | some (.whole n) => n == 0
  | some (.real x) => x == 0.0
  | some _ => false

/-- The sections of a document under their names. Of the names that are one in small letters, the first
counts. -/
def sectionsOf (d : Datum) : Datum :=
  .mapping <| Place.sections.filterMap fun s =>
    (d.fields.find? fun f => Text.inSmall f.1 == s).map fun f => (s, f.2)

/-- The sections of a document with what variables say where it says nothing itself. -/
def fill (env : Environment) (d : Datum) : Except SettingsFault Datum := do
  if !namesFiles d "_env_file" then throw .wrongKind
  let form ← variableForm d
  if !hasWords d then throw .environment
  let vars := form.byName env
  let given ← Place.sections.mapM fun s =>
    match form.sectionOf vars s (Place.keysOf s) with
    | .error fault => throw (.ofSection fault)
    | .ok value => pure (value.map fun v => (s, v))
  if !namesFiles d "_secrets_dir" then throw .wrongKind
  return Datum.merge (.mapping (given.filterMap id)) (sectionsOf d)

/-- Where settings come from: how the text of a document is read, and what a document and the variables of an
environment come to together. -/
structure Sources where
  read : String → Except Markup.Fault Document
  fill : Environment → Datum → Except SettingsFault Datum

namespace Sources

/-- The settings of a document in an environment. Some names are taken, and no document gives them. -/
def resolve (S : Sources) (temporary : String) (taken : List String) (env : Environment) (d : Document) :
    Except SettingsFault Settings := do
  let value ← replaceAll env (if d.isNothing then .mapping [] else d.value)
  match value with
  | .mapping fields =>
    if d.hasForeignKey || fields.any fun f => taken.contains f.1 then throw .wrongKind
    match Settings.read temporary (← S.fill env value) with
    | .ok s => return s
    | .error issues => throw (.invalid issues)
  | _ => throw .wrongKind

def load (S : Sources) (temporary : String) (taken : List String) (env : Environment) (text : Option String) :
    Except SettingsFault Settings :=
  match env.fault?, text with
  | some fault, _ => .error (.unset fault)
  | none, none => S.resolve temporary taken env ⟨.null, false⟩
  | none, some text =>
    match S.read text with
    | .error fault => .error (.document fault)
    | .ok d => S.resolve temporary taken env d

end Sources

/-- Documents in their markup, and variables of sections and their keys. -/
def sources : Sources := ⟨Document.read, fill⟩

def defaultText : String :=
  "checker:\n  binary_path: NuSMV\n  timeout_s: null\n  keep_model_files: false\n\n" ++
    "logging:\n  level: INFO\n  format: console\n"

/-- The settings of the text of a document, if there is one, in an environment. -/
def load (temporary : String) (taken : List String) (env : Environment) (text : Option String) :
    Except SettingsFault Settings :=
  sources.load temporary taken env text

end StreamCheck.Settings
