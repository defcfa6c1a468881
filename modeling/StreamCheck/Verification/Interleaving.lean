import StreamCheck.Verification.Fate

/-! Interleaving: experiments that share a checker and its working directory, and go on in turns. An execution gives way
whenever it waits: for a process to start, for it to end, and for it to be gone once it was killed. There it can be given
up as well. -/

namespace StreamCheck.Verification

/-- What becomes of the model file when a call starts, other than that it is read. -/
def Invocation.swap? : Invocation → Option Swap
  | refused _ => none
  | started course => course.swap

inductive Awaited where
  | ended (run : CheckerRun)
  /-- It was killed, and the failure follows when it is gone. -/
  | killed (failure : Failure)
deriving Inhabited

/-- Waits for a process, as far as that goes without waiting again. -/
def Checker.await (c : Checker) (b : Batch) (model : FileName) (course : Course) : Act Awaited := do
  match c.timeout.bind Failure.ofLimit? with
  | some failure => throw failure
  | none =>
    if !c.hasTime then
      kill course
      return .killed <| match course.waiting with
        | .ends => .timedOut c.timeout
        | .timesOut => .system
        | .cancelled => .cancelled
    else
      match course.waiting with
      | .timesOut =>
        kill course
        return .killed (.timedOut c.timeout)
      | .cancelled =>
        Act.anyway (kill course)
        throw .cancelled
      | .ends =>
        let code := course.code.getD (-1)
        let output := outputText course
        if code ≠ 0 then throw (.exited code output)
        if output.isEmpty then throw (.noOutput code)
        return .ended ⟨b, model, output, code, course.elapsed⟩

/-- Where an execution stands between its turns, with the model file that it works on. -/
inductive Stage where
  | fresh
  /-- The process of a call is to start. -/
  | starting (b : Batch) (model : FileName)
  | running (b : Batch) (model : FileName) (course : Course)
  /-- The process was killed and is to be gone. -/
  | reaping (b : Batch) (model : FileName) (failure : Failure)
  /-- The execution is over, well or with a failure; there is no file if none was written. -/
  | ended (failure : Option Failure) (model : Option FileName)
deriving Inhabited

namespace Stage

def file? : Stage → Option FileName
  | fresh => none
  | starting _ f | running _ f _ | reaping _ f _ => some f
  | ended _ f => f

def isOver : Stage → Bool
  | ended .. => true
  | _ => false

def call? : Stage → Option (Batch × FileName)
  | running b f _ | reaping b f _ => some (b, f)
  | _ => none

end Stage

structure Task where
  experiment : Experiment
  record : Record
  stage : Stage := .fresh
deriving Inhabited

namespace Task

/-- The end of an execution that failed: its model file is dealt with first. -/
def fail (t : Task) (failure : Failure) (model : FileName) (s : Scene) : Task × Scene :=
  match t.experiment.discardModel model s with
  | .ok _ s => ({ t with stage := .ended (some failure) (some model) }, s)
  | .error e s => ({ t with stage := .ended (some e) (some model) }, s)

def succeed (t : Task) (model : FileName) (s : Scene) : Task × Scene :=
  match t.experiment.discardModel model s with
  | .ok _ s =>
    ({ t with record := { t.record with status := .done, completed := true }, stage := .ended none (some model) }, s)
  | .error e s => ({ t with stage := .ended (some e) (some model) }, s)

def proceed (t : Task) (b : Batch) (model : FileName) (run : CheckerRun) (s : Scene) : Task × Scene :=
  match b with
  | .check =>
    ({ t with
        record := { t.record with time := run.elapsed }.withCheck run.output
        stage := .starting .stats model }, s)
  | .stats => { t with record := t.record.withStatistics run.output }.succeed model s

/-- Goes on until the execution waits again or is over. -/
def resume (c : Checker) (t : Task) (s : Scene) : Task × Scene :=
  match t.stage with
  | .fresh =>
    match t.experiment.prepare c ⟨s, t.record⟩ with
    | .ok model r => ({ t with record := r.record, stage := .starting .check model }, r.scene)
    | .error e r => ({ t with record := r.record, stage := .ended (some e) none }, r.scene)
  | .starting b model =>
    match c.start b model s with
    | .ok course s => ({ t with stage := .running b model course }, s)
    | .error e s => t.fail e model s
  | .running b model course =>
    match c.await b model course s with
    | .ok (.ended run) s => t.proceed b model run s
    | .ok (.killed failure) s => ({ t with stage := .reaping b model failure }, s)
    | .error e s => t.fail e model s
  | .reaping _ model failure => t.fail failure model s
  | .ended .. => (t, s)

/-- Gives the execution up where it waits; a process that runs is killed. -/
def cancel (t : Task) (s : Scene) : Task × Scene :=
  match t.stage with
  | .fresh => ({ t with stage := .ended (some .cancelled) none }, s)
  | .starting _ model | .reaping _ model _ => t.fail .cancelled model s
  | .running _ model course =>
    match Act.anyway (Checker.kill course) s with
    | .ok _ s => t.fail .cancelled model s
    | .error e s => t.fail e model s
  | .ended .. => (t, s)

def resumes (c : Checker) : Nat → Task → Scene → Task × Scene
  | 0, t, s => (t, s)
  | n + 1, t, s => resumes c n (t.resume c s).1 (t.resume c s).2

end Task

inductive Turn where
  | resume (i : Nat)
  | cancel (i : Nat)
deriving DecidableEq, Repr, Inhabited

def Turn.index : Turn → Nat
  | resume i | cancel i => i

structure Ensemble where
  scene : Scene
  tasks : List Task
deriving Inhabited

namespace Ensemble

def ofExperiments (s : Scene) (es : List (Experiment × Record)) : Ensemble := ⟨s, es.map fun x => ⟨x.1, x.2, .fresh⟩⟩

def take (c : Checker) (m : Ensemble) (turn : Turn) : Ensemble :=
  match m.tasks[turn.index]? with
  | none => m
  | some t =>
    let (t', s) := match turn with
      | .resume _ => t.resume c m.scene
      | .cancel _ => t.cancel m.scene
    ⟨s, m.tasks.set turn.index t'⟩

def takeAll (c : Checker) (m : Ensemble) (turns : List Turn) : Ensemble := turns.foldl (take c) m

/-- Executions that started in a scene and never saw each other's model. -/
structure Separate (c : Checker) (s : Scene) (m : Ensemble) : Prop where
  /-- While a call is under way, the file that it names holds the text of the experiment whose call it is. -/
  calls : ∀ (i : Nat) (t : Task) b f, m.tasks[i]? = some t → t.stage.call? = some (b, f) →
    m.scene.work.text? f = some t.experiment.text
  /-- Every call named the file of an execution, and that text stood there when it started. -/
  starts : ∃ new, m.scene.starts = s.starts ++ new ∧ ∀ x ∈ new, ∃ (i : Nat) (t : Task) (b : Batch) (f : FileName),
    m.tasks[i]? = some t ∧ t.stage.file? = some f ∧ x = ⟨c.command b f, some t.experiment.text⟩
  /-- An execution stays with its file, in both of its calls and to its end. -/
  stays : ∀ (i : Nat) (t : Task) f (turns : List Turn), m.tasks[i]? = some t → t.stage.file? = some f →
    ∃ t', (m.takeAll c turns).tasks[i]? = some t' ∧ t'.stage.file? = some f
  /-- The file of an execution that is over is gone unless it is to be kept, -/
  gone : ∀ (i : Nat) (t : Task) f, m.tasks[i]? = some t → t.stage.file? = some f → t.stage.isOver = true →
    t.experiment.keepModel = false → m.scene.work.content? f = none
  /-- and then it is still what it was. -/
  kept : ∀ (i : Nat) (t : Task) f, m.tasks[i]? = some t → t.stage.file? = some f → t.experiment.keepModel = true →
    m.scene.work.text? f = some t.experiment.text
  /-- A turn of one execution changes nothing about the file of another, -/
  spared : ∀ (turn : Turn) (i : Nat) (t : Task) f, m.tasks[i]? = some t → t.stage.file? = some f → i ≠ turn.index →
    (m.take c turn).scene.work.content? f = m.scene.work.content? f
  /-- and their files stand at different paths, away from the batch files. -/
  paths : ∀ (i j : Nat) (t t' : Task) f f', m.tasks[i]? = some t → m.tasks[j]? = some t' → t.stage.file? = some f →
    t'.stage.file? = some f' → i ≠ j → c.path f ≠ c.path f'
  batches : ∀ (i : Nat) (t : Task) f (b : Batch), m.tasks[i]? = some t → t.stage.file? = some f →
    c.path f ≠ c.path b.file

end Ensemble

end StreamCheck.Verification
