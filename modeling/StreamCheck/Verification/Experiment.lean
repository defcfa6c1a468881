import StreamCheck.Subject.Applicable
import StreamCheck.Verification.Checker
import StreamCheck.Verification.Record

/-! Experiments: one property checked against one model, in a first call of the checker for the verdict
and a second one for the statistics. A failure leaves the record as far as it was filled. -/

namespace StreamCheck.Verification

structure Experiment where
  subject : Subject
  formula : Formula
  keepModel : Bool := false
deriving Inhabited

structure Running where
  scene : Scene
  record : Record
deriving Inhabited

abbrev Progress := EStateM Failure Running

namespace Progress

def act {α : Type} (step : Act α) : Progress α := fun r =>
  match step r.scene with
  | .ok a s => .ok a { r with scene := s }
  | .error e s => .error e { r with scene := s }

def note (f : Record → Record) : Progress Unit := modify fun r => { r with record := f r.record }

/-- A step, and another one that changes the scene after it however it ends. -/
def andThen {α : Type} (step : Progress α) (last : Act Unit) : Progress α := fun r =>
  match step r with
  | .ok a r =>
    match last r.scene with
    | .ok _ s => .ok a { r with scene := s }
    | .error e s => .error e { r with scene := s }
  | .error e r =>
    match last r.scene with
    | .ok _ s => .error e { r with scene := s }
    | .error e s => .error e { r with scene := s }

end Progress

namespace Experiment
open Progress

/-- The milliseconds noted for compiling a model; those of the counter are not observed. -/
def generationTime : Subject → Float
  | .network _ => 0.0
  | .counter .. => -1.0

def newRecord (e : Experiment) : Record :=
  Record.ofFormula e.subject.facts (generationTime e.subject) e.formula

def withoutNewlines (s : String) : String :=
  String.ofList (s.toList.reverse.dropWhile (· == '\n')).reverse

def text (e : Experiment) : String :=
  withoutNewlines e.subject.text ++ "\n\n" ++ e.formula.logic.keyword ++ "\n" ++
    e.formula.text ++ "\n"

def checkPrerequisites : Progress Bool := do
  let ready := Checker.prerequisites (← get).scene
  note fun r =>
    { r with status := if ready then .prerequisitesReady else .prerequisitesMissing }
  return ready

def fulfill (c : Checker) : Progress Unit := do
  act c.writeBatches
  note fun r => { r with status := .prerequisitesReady }

def prepare (e : Experiment) (c : Checker) : Progress FileName := do
  unless ← checkPrerequisites do fulfill c
  note fun r => { r with status := .executing }
  act (c.writeModel e.text)

def noteCheck (run : CheckerRun) : Progress Unit := do
  note fun r => { r with time := run.elapsed }
  note fun r => r.withCheck run.output

def noteStatistics (run : CheckerRun) : Progress Unit :=
  note fun r => r.withStatistics run.output

def phases (c : Checker) (model : FileName) : Progress Unit := do
  noteCheck (← act (c.run .check model))
  noteStatistics (← act (c.run .stats model))

/-- Removes the model file unless it is kept; that it cannot be removed does not matter. -/
def discardModel (e : Experiment) (model : FileName) : Act Unit :=
  if e.keepModel then pure () else Act.anyway (Act.remove model)

def execute (e : Experiment) (c : Checker) : Progress Unit := do
  let model ← e.prepare c
  Progress.andThen (phases c model) (e.discardModel model)
  note fun r => { r with status := .done, completed := true }

def noteFailure (f : Failure) : Progress Unit :=
  note fun r => { r with status := .failed, failureReason := f.message, completed := true }

/-- Runs both phases; a failure of the experiment's own is noted in the record. -/
def run (e : Experiment) (c : Checker) : Progress Unit := fun r =>
  match e.execute c r with
  | .ok _ r => .ok () r
  | .error f r => if f.isOwn then noteFailure f r else .error f r

end Experiment

end StreamCheck.Verification
