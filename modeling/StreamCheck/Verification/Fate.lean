import Mathlib.Data.List.Forall2
import StreamCheck.Verification.Factory

/-! Fates: what becomes of the writes of one experiment and of its calls of the checker. Nothing else decides how its
run ends and what its record says then. -/

namespace StreamCheck.Verification

/-- Whether a text can be written under a name, in the directory or in one that is created for it. -/
def WorkDir.takes (d : WorkDir) (f : FileName) : Bool := d != .occupied && d.content? f != some .directory

/-- Whether the system refuses none of some attempts to create or write, after it answered others. -/
def Scene.grants (s : Scene) (answered count : Nat) : Bool := ((s.refusals.drop answered).take count).all (·.isNone)

namespace Invocation

/-- What is relied on when the checker is called: nobody gives the call up, and killing a process that takes too long
succeeds; where there is no time to wait at all, every process is killed and then ends. -/
def Orderly (c : Checker) : Invocation → Prop
  | refused _ => True
  | started course =>
    if c.hasTime then course.waiting ≠ .cancelled ∧ (course.waiting = .timesOut → course.gone = false)
    else course.waiting = .ends ∧ course.gone = false

/-- The course of a call that succeeds: the checker ends in time, with the code zero, and has printed something. -/
def passed? (c : Checker) : Invocation → Option Course
  | refused _ => none
  | started course =>
    if c.hasTime ∧ course.waiting = .ends ∧ course.code = some 0 ∧ Checker.outputText course ≠ "" then some course
    else none

end Invocation

/-- What decides how the run of an experiment ends. -/
structure Fate where
  /-- Both batch files are there, or they can be written. -/
  batches : Bool
  /-- The model file can be written, once the batch files are there. -/
  model : Bool
  check : Invocation
  stats : Invocation
deriving Inhabited

/-- The fate of the experiment that runs next. The directory and both batch files take three attempts unless they are
there, the directory and the model file two. -/
def Scene.fate (s : Scene) : Fate :=
  let ready := Checker.prerequisites s
  { batches := ready || s.grants 0 3 && s.work.takes .check && s.work.takes .stats
    model := s.grants (if ready then 0 else 3) 2 && s.work.takes (.model s.nextModel)
    check := s.invocations.headD (.refused .missing)
    stats := s.invocations.tail.headD (.refused .missing) }

namespace Fate

def check? (c : Checker) (f : Fate) : Option Course := if f.batches && f.model then f.check.passed? c else none

def stats? (c : Checker) (f : Fate) : Option Course := (f.check? c).bind fun _ => f.stats.passed? c

/-- The calls that are made: the second one only if the first one succeeds. -/
def calls (c : Checker) (f : Fate) : List Batch :=
  if f.batches && f.model then .check :: if (f.check? c).isSome then [.stats] else [] else []

def made (c : Checker) (f : Fate) : List Invocation :=
  (f.calls c).map fun
    | .check => f.check
    | .stats => f.stats

/-- The record after the run, from the one before it. Up to the call that fails, it says what the calls reported;
after that, nothing but that the run failed, and why. -/
def record (c : Checker) (f : Fate) (r : Record) (reason : String) : Record :=
  match f.check? c with
  | none => { r with status := .failed, failureReason := reason, completed := true }
  | some check =>
    let checked := { r with time := check.elapsed }.withCheck (Checker.outputText check)
    match f.stats? c with
    | none => { checked with status := .failed, failureReason := reason, completed := true }
    | some stats => { checked.withStatistics (Checker.outputText stats) with status := .done, completed := true }

end Fate

/-- The record as it was before any run: the facts of the model and the formula, and nothing that was found out. -/
def Record.bare (r : Record) : Record :=
  { id := r.id, query := r.query, property := r.property, logic := r.logic, formula := r.formula,
    queueSize := r.queueSize, domainSize := r.domainSize, k := r.k, moduleCount := r.moduleCount,
    processorCount := r.processorCount, variableCount := r.variableCount,
    queueVariableCount := r.queueVariableCount, generationTime := r.generationTime }

def Checker.command (c : Checker) (b : Batch) (model : FileName) : List String :=
  [c.binary, "-source", c.path b.file, c.path model]

namespace Experiment

/-- How the run of an experiment ends, from a scene and a record. -/
structure Ends (e : Experiment) (c : Checker) (s : Scene) (r : Record) (after : Running) : Prop where
  /-- The record is as the fate has it; nothing but the reason of a failure is left open. -/
  record : ∃ reason, reason ≠ "" ∧ after.record = s.fate.record c r reason
  /-- The calls of the fate are made on the model file, and no others. -/
  starts : after.scene.starts.map Start.command =
    s.starts.map Start.command ++ (s.fate.calls c).map fun b => c.command b (.model s.nextModel)
  invocations : after.scene.invocations = s.invocations.drop (s.fate.calls c).length
  /-- The model file that was written is gone unless it is kept. -/
  discarded : s.fate.batches → s.fate.model → e.keepModel = false →
    after.scene.work.isFile (.model s.nextModel) = false

def leaves (e : Experiment) (c : Checker) (s : Scene) : Scene :=
  match e.run c ⟨s, e.newRecord⟩ with
  | .ok _ after => after.scene
  | .error _ after => after.scene

def fates (c : Checker) : Scene → List Experiment → List Fate
  | _, [] => []
  | s, e :: es => s.fate :: fates c (e.leaves c s) es

/-- How experiments end that run one after the other from a scene: every record is as the fate of its own experiment has
it, and the calls that the experiments make take what comes from the scene in turn. -/
structure EndInTurn (c : Checker) (s : Scene) (es : List Experiment) (records : List Record) (after : Scene) : Prop where
  records : List.Forall₂ (fun x r => ∃ reason, reason ≠ "" ∧ r = x.2.record c x.1.newRecord reason)
    (es.zip (fates c s es)) records
  made : (fates c s es).flatMap (Fate.made c) =
    (List.range ((fates c s es).flatMap (Fate.calls c)).length).map fun i => s.invocations.getD i (.refused .missing)
  invocations : after.invocations = s.invocations.drop ((fates c s es).flatMap (Fate.calls c)).length

end Experiment

end StreamCheck.Verification
