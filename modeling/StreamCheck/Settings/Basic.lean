import StreamCheck.Input.Check
import StreamCheck.Text.Basic

/-! Settings: how the checker is called, and what is written to the journal. Every value has a default,
and a document may give some of them. -/

namespace StreamCheck
open Input

structure CheckerSettings where
  binary : String := "NuSMV"
  workDir : String
  /-- Seconds; none to wait for as long as it takes. -/
  timeout : Option Float := none
  keepModels : Bool := false
deriving Inhabited

structure JournalSettings where
  level : String := "INFO"
  format : String := "console"
deriving DecidableEq, Repr, Inhabited

structure Settings where
  checker : CheckerSettings
  journal : JournalSettings
deriving Inhabited

namespace CheckerSettings

/-- A limit that is not positive is none. -/
def limit (x : Float) : Option Float := if x <= 0.0 then none else some x

/-- The section of the checker in a document; its files go to a directory for temporary files unless
another one is given. -/
def form (temporary : String) (path : List String) (d : Datum) : Form CheckerSettings := do
  let binary ← Form.defaulted d path "binary_path" Check.text "NuSMV"
  let workDir ← Form.defaulted d path "work_dir" Check.path temporary
  let timeout ← Form.defaulted d path "timeout_s" (Check.optional Check.real) none
  let keepModels ← Form.defaulted d path "keep_model_files" Check.truth false
  return { binary, workDir := Text.normalPath workDir, timeout := timeout.bind limit, keepModels }

def read (temporary : String) (d : Datum) : Except (List Issue) CheckerSettings :=
  Form.finish (form temporary [] d)

end CheckerSettings

namespace JournalSettings

def form (path : List String) (d : Datum) : Form JournalSettings := do
  let level ← Form.defaulted d path "level" Check.text "INFO"
  let format ← Form.defaulted d path "format" Check.text "console"
  return { level, format }

def read (d : Datum) : Except (List Issue) JournalSettings := Form.finish (form [] d)

end JournalSettings

namespace Settings

/-- A section of a document; one that is left out has its defaults. -/
def part {α : Type} [Inhabited α] (d : Datum) (name : String) (form : Datum → Form α) :
    Form α :=
  match d.field? name with
  | none => form (.mapping [])
  | some (.mapping fields) => form (.mapping fields)
  | some _ => do
    Form.report [name] .notMapping
    return default

def read (temporary : String) (d : Datum) : Except (List Issue) Settings :=
  Form.finish do
    let checker ← part d "checker" (CheckerSettings.form temporary ["checker"])
    let journal ← part d "logging" (JournalSettings.form ["logging"])
    return { checker, journal }

end Settings

end StreamCheck
