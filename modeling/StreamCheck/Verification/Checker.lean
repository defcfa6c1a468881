import StreamCheck.Settings.Basic
import StreamCheck.Verification.Scene

/-! The checker: a program that reads a batch of commands and a model, each from a file, and prints what
it finds. The two batches are shared by all experiments; every experiment has a model file of its own. -/

namespace StreamCheck.Verification

structure Checker where
  binary : String := "NuSMV"
  /-- The path of the working directory. -/
  work : String := "."
  timeout : Option Seconds := none
  /-- How the number of a model file is written in its name. -/
  idText : Nat → String := fun n => toString n

inductive Batch where
  | check
  | stats
deriving DecidableEq, Repr, Inhabited

namespace Batch

def file : Batch → FileName
  | check => .check
  | stats => .stats

def commands : Batch → String
  | check => "go; check_property; quit;"
  | stats => "go; print_bdd_stats; print_reachable_states; quit;"

end Batch

structure CheckerRun where
  batch : Batch
  model : FileName
  output : String
  exitCode : Int
  /-- Milliseconds that it took. -/
  elapsed : Float
deriving Inhabited

namespace Checker

def ofSettings (s : CheckerSettings) : Checker :=
  { binary := s.binary, work := s.workDir, timeout := s.timeout.map .real }

def fileName (c : Checker) : FileName → String
  | .check => "check.smv"
  | .stats => "stats.smv"
  | .model id => "model-" ++ c.idText id ++ ".smv"
  | .other name => name

def path (c : Checker) (f : FileName) : String := c.work ++ "/" ++ c.fileName f

def prerequisites (s : Scene) : Bool := s.work.isFile .check && s.work.isFile .stats

def writeBatches (c : Checker) : Act Unit :=
  Act.orElse (do
    Act.createWork
    Act.write .check Batch.check.commands
    Act.write .stats Batch.stats.commands) fun e => .batchNotWritten ⟨c.work, e.message⟩

def removeBatches : Act Unit := do
  Act.remove .check
  Act.remove .stats

def freshModel : Act FileName := do
  let s ← get
  set { s with nextModel := s.nextModel + 1 }
  return .model s.nextModel

def writeModel (c : Checker) (text : String) : Act FileName := do
  let f ← freshModel
  Act.orElse (do
    Act.createWork
    Act.write f text) fun e => .modelNotWritten ⟨c.path f, e.message⟩
  return f

def nextInvocation : Act Invocation := do
  let s ← get
  match s.invocations with
  | [] => return .refused .missing
  | i :: rest =>
    set { s with invocations := rest }
    return i

def attempt (c : Checker) (arguments : List String) (model : Option FileName) :
    Act Invocation := do
  modify fun s => { s with starts := s.starts ++
    [⟨c.binary :: arguments, model.bind fun f => s.work.text? f⟩] }
  let i ← nextInvocation
  match i, model with
  | .started { swap := some .removed, .. }, some f =>
    modify fun s => { s with work := s.work.erase f }
  | .started { swap := some .directory, .. }, some f =>
    modify fun s => { s with work := s.work.put f .directory }
  | _, _ => pure ()
  return i

def start (c : Checker) (b : Batch) (model : FileName) : Act Course := do
  match ← c.attempt ["-source", c.path b.file, c.path model] (some model) with
  | .refused .missing => throw (.checkerMissing c.binary)
  | .refused (.other reason) => throw (.cannotStart c.binary reason)
  | .started course => return course

/-- Kills a process; the system objects if it is gone. -/
def kill (course : Course) : Act Unit := do
  modify fun s => { s with kills := s.kills + 1 }
  if course.gone then throw .system

def outputText (course : Course) : String := (course.output.map Text.Utf8.decode).getD ""

def hasTime (c : Checker) : Bool := (c.timeout.map Seconds.isPositive).getD true

/-- Gives up a process that there is no time to wait for. It is waited for after it is killed, and then
nothing is provided for but that it ends. -/
def giveUp (c : Checker) (course : Course) : Act CheckerRun := do
  kill course
  match course.waiting with
  | .ends => throw (.timedOut c.timeout)
  | .timesOut => throw .system
  | .cancelled => throw .cancelled

def finish (c : Checker) (b : Batch) (model : FileName) (course : Course) : Act CheckerRun := do
  match c.timeout.bind Failure.ofLimit? with
  | some failure => throw failure
  | none =>
    if !c.hasTime then giveUp c course
    else
      match course.waiting with
      | .timesOut =>
        kill course
        throw (.timedOut c.timeout)
      | .cancelled =>
        Act.anyway (kill course)
        throw .cancelled
      | .ends =>
        let code := course.code.getD (-1)
        let output := outputText course
        if code ≠ 0 then throw (.exited code output)
        if output.isEmpty then throw (.noOutput code)
        return ⟨b, model, output, code, course.elapsed⟩

def run (c : Checker) (b : Batch) (model : FileName) : Act CheckerRun := do
  c.finish b model (← c.start b model)

def available (c : Checker) : Act Bool := do
  match ← c.attempt ["-h"] none with
  | .refused _ => return false
  | .started course =>
    match course.waiting with
    | .ends => return true
    | .cancelled => throw .cancelled
    | .timesOut =>
      kill course
      return false

end Checker

end StreamCheck.Verification
