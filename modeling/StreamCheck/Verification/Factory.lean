import StreamCheck.Pipeline.Archive
import StreamCheck.Verification.Experiment

/-! The factory: experiments for configurations, one by one or as a batch. A configuration whose
pipeline or property does not apply has no experiment and is passed over. -/

namespace StreamCheck.Verification
open Pipeline Network

structure Factory where
  library : Library
  checker : Checker
  keepModels : Bool := false

/-- A scene together with the archive that the models come from. -/
structure Laboratory where
  archive : Archive := {}
  scene : Scene := {}
deriving Inhabited

inductive Interruption where
  | fault (f : Fault)
  | failure (f : Failure)
deriving Inhabited

abbrev Work := EStateM Interruption Laboratory

namespace Factory

def ofSettings (library : Library) (s : CheckerSettings) : Factory :=
  { library, checker := Checker.ofSettings s, keepModels := s.keepModels }

def get (f : Factory) (config : Configuration) : Keep (Option Experiment) := do
  match ← f.library.get config with
  | none => return none
  | some subject =>
    return (Formula.named? config.property subject).map fun formula =>
      ⟨subject, formula, f.keepModels⟩

def keep {α : Type} (step : Keep α) : Work α := fun l =>
  match step l.archive with
  | .ok a s => .ok a { l with archive := s }
  | .error e s => .error (.fault e) { l with archive := s }

def runNew (f : Factory) (e : Experiment) : Work Record := fun l =>
  match e.run f.checker ⟨l.scene, e.newRecord⟩ with
  | .ok _ r => .ok r.record { l with scene := r.scene }
  | .error e r => .error (.failure e) { l with scene := r.scene }

def runOne (f : Factory) (config : Configuration) : Work (Option Record) := do
  match ← keep (f.get config) with
  | none => return none
  | some e => return some (← f.runNew e)

def runAll (f : Factory) (configs : List Configuration) : Work (List Record) := do
  return (← configs.mapM f.runOne).filterMap id

end Factory

end StreamCheck.Verification
