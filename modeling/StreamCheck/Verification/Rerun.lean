import StreamCheck.Verification.Experiment

/-! Experiments that run again: what a record says of its runs, and the record of an experiment that runs several
times. Every run goes on in the record that the one before it has left. -/

namespace StreamCheck.Verification

structure Checked where
  verdict : Verdict
  witnessLength : Int
  timed : Bool

/-- Whether a check has reported. Then the length of the witness is known, and may be zero. -/
def Checked.reported (c : Checked) : Bool := c.witnessLength != notObserved

structure Measures where
  memory : Int
  totalNodes : Int
  liveNodes : Int
  systemDiameter : Int
  reachableStates : Float
  totalStates : Float

@[ext]
structure Findings where
  status : Status
  failureReason : String
  check : Checked
  measures : Measures

def Record.findings (r : Record) : Findings where
  status := r.status
  failureReason := r.failureReason
  check := ⟨r.verdict, r.witnessLength, r.timed⟩
  measures := ⟨r.memory, r.totalNodes, r.liveNodes, r.systemDiameter, r.reachableStates, r.totalStates⟩

/-- What a run finds out, over what the record said before. Every run sets the status, but only one that fails sets the
reason, only one whose check reports what a check finds out, and only one that is done the statistics. -/
def Findings.over (new old : Findings) : Findings where
  status := new.status
  failureReason := if new.failureReason = "" then old.failureReason else new.failureReason
  check := if new.check.reported then new.check else old.check
  measures := if new.status = .done then new.measures else old.measures

namespace Experiment

def after (e : Experiment) (c : Checker) (r : Record) (s : Scene) : Record :=
  match e.run c ⟨s, r⟩ with
  | .ok _ t => t.record
  | .error _ t => t.record

def afterAll (e : Experiment) (c : Checker) (scenes : List Scene) : Record :=
  scenes.foldl (e.after c) e.newRecord

/-- The record of the last run that was done, as it would be without the others, or of a new experiment if none was. -/
def lastDone (e : Experiment) (c : Checker) (scenes : List Scene) : Record :=
  match (scenes.filter fun s => (e.afterAll c [s]).status = .done).getLast? with
  | none => e.newRecord
  | some s => e.afterAll c [s]

end Experiment

end StreamCheck.Verification
