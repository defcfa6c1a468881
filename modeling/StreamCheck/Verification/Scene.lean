import StreamCheck.Decimal.Written
import StreamCheck.Text.Encoding

/-! The scene of verification: the working directory, and what the system and the checker are going to
do. What will come is part of the scene, so a run is a function of the scene that it starts in. -/

namespace StreamCheck.Verification

/-- The files that are written to the working directory, and others that may be there. -/
inductive FileName where
  | check
  | stats
  /-- The model of one experiment. -/
  | model (id : Nat)
  | other (name : String)
deriving DecidableEq, Repr, Inhabited

inductive Content where
  | text (s : String)
  | directory
deriving DecidableEq, Repr, Inhabited

inductive WorkDir where
  | absent
  /-- Something that is no directory. -/
  | occupied
  | directory (files : List (FileName × Content))
deriving DecidableEq, Repr, Inhabited

namespace WorkDir

def content? : WorkDir → FileName → Option Content
  | directory files, f => files.lookup f
  | _, _ => none

def isFile (d : WorkDir) (f : FileName) : Bool :=
  match d.content? f with
  | some (.text _) => true
  | _ => false

def text? (d : WorkDir) (f : FileName) : Option String :=
  match d.content? f with
  | some (.text s) => some s
  | _ => none

def put (d : WorkDir) (f : FileName) (c : Content) : WorkDir :=
  match d with
  | directory files => directory (files.filter (fun x => x.1 != f) ++ [(f, c)])
  | d => d

def erase (d : WorkDir) (f : FileName) : WorkDir :=
  match d with
  | directory files => directory (files.filter fun x => x.1 != f)
  | d => d

end WorkDir

inductive StartFault where
  | missing
  | other (reason : String)
deriving DecidableEq, Repr, Inhabited

inductive Obstacle where
  /-- Something that is no directory stands at the path of the working directory. -/
  | fileExists
  | noDirectory (f : FileName)
  | notDirectory (f : FileName)
  | isDirectory (f : FileName)
deriving DecidableEq, Repr, Inhabited

inductive Waiting where
  | ends
  | timesOut
  | cancelled
deriving DecidableEq, Repr, Inhabited

/-- What becomes of the model file when a process starts. -/
inductive Swap where
  | removed
  | directory
deriving DecidableEq, Repr, Inhabited

structure Course where
  /-- The bytes that it prints; none if the system hands back no bytes at all. -/
  output : Option (List UInt8) := some []
  /-- The exit code, if it is known. -/
  code : Option Int := some 0
  waiting : Waiting := .ends
  /-- Killing it finds that it is gone already. -/
  gone : Bool := false
  swap : Option Swap := none
  /-- Milliseconds until it ends. -/
  elapsed : Float := 0.0
deriving Inhabited

inductive Invocation where
  | refused (why : StartFault)
  | started (course : Course)
deriving Inhabited

structure Start where
  command : List String
  model : Option String
deriving DecidableEq, Repr, Inhabited

/-- The working directory, what is going to happen, and what has happened. -/
structure Scene where
  work : WorkDir := .absent
  /-- For each attempt to create the directory or write a file, what the system says if it refuses it. -/
  refusals : List (Option String) := []
  /-- How each attempt to start the checker goes; when they run out, there is no checker. -/
  invocations : List Invocation := []
  starts : List Start := []
  kills : Nat := 0
  /-- The number of the next model file. -/
  nextModel : Nat := 0
  /-- What the system says when something stands in the way of writing. -/
  words : Obstacle → String := fun _ => ""
deriving Inhabited

inductive Seconds where
  | whole (n : Int)
  | real (x : Float)
  | truth (b : Bool)
  /-- What is given is no span of time at all. -/
  | senseless
deriving Inhabited

namespace Seconds

def text : Seconds → String
  | whole n => toString n
  | real x => Decimal.text x
  | truth b => if b then "True" else "False"
  | senseless => ""

/-- Whether there is any time in a span; a real number that is none counts as if there were. -/
def isPositive : Seconds → Bool
  | whole n => decide (0 < n)
  | real x => !(x <= 0.0)
  | truth b => b
  | senseless => true

end Seconds

/-- What was not written: its path, and what the system said. -/
structure Unwritten where
  path : String
  reason : String
deriving DecidableEq, Repr, Inhabited

def Unwritten.text (u : Unwritten) : String := if u.reason.isEmpty then u.path else u.path ++ ": " ++ u.reason

inductive Failure where
  | batchNotWritten (what : Unwritten)
  | modelNotWritten (what : Unwritten)
  | checkerMissing (binary : String)
  | cannotStart (binary reason : String)
  | timedOut (limit : Option Seconds)
  | exited (code : Int) (output : String)
  | noOutput (code : Int)
  /-- The caller gave the experiment up. -/
  | cancelled
  /-- The system refused to create or to write something. -/
  | refused (reason : String)
  /-- The system refused something that is not provided for. -/
  | system
  /-- The limit is too large to reckon with. -/
  | limitTooLarge
  /-- The limit is no span of time. -/
  | limitSenseless
deriving Inhabited

namespace Failure

def message : Failure → String
  | batchNotWritten what => "Cannot write NuSMV batch files in " ++ what.text
  | modelNotWritten what => "Cannot write model file " ++ what.text
  | checkerMissing binary => "NuSMV binary not found: " ++ binary
  | cannotStart binary reason => "Cannot start NuSMV at " ++ binary ++ ": " ++ reason
  | timedOut limit => "NuSMV timed out after " ++ (limit.map Seconds.text).getD "None" ++ "s"
  | exited code _ => "NuSMV exited with code " ++ toString code
  | noOutput _ => "NuSMV returned no output"
  | cancelled => "cancelled"
  | refused reason => reason
  | system => "system error"
  | limitTooLarge => "int too large to convert to float"
  | limitSenseless => "no span of time"

/-- Whether the failure is one of the experiment alone. -/
def isOwn : Failure → Bool
  | cancelled | refused _ | system | limitTooLarge | limitSenseless => false
  | _ => true

/-- Why a limit cannot be kept to, if it cannot: whole numbers beyond every finite size are not reckoned
with. -/
def ofLimit? : Seconds → Option Failure
  | .whole n => if 0 < n ∧ (Float.ofInt n).isInf then some limitTooLarge else none
  | .senseless => some limitSenseless
  | _ => none

def exitCode : Failure → Int
  | exited code _ => code
  | noOutput code => code
  | _ => -1

def output : Failure → String
  | exited _ out => out
  | _ => ""

end Failure

/-- A step in a scene; what it did before a failure stays done. -/
abbrev Act := EStateM Failure Scene

namespace Act

/-- What the system says to the next attempt to create or write, if it refuses it. -/
def refused : Act (Option String) := do
  let s ← get
  match s.refusals with
  | [] => return none
  | r :: rest =>
    set { s with refusals := rest }
    return r

def obstructed (o : Obstacle) : Act Unit := do
  throw (.refused ((← get).words o))

def createWork : Act Unit := do
  if let some reason ← refused then throw (.refused reason)
  let s ← get
  match s.work with
  | .absent => set { s with work := .directory [] }
  | .occupied => obstructed .fileExists
  | .directory _ => pure ()

def write (f : FileName) (text : String) : Act Unit := do
  if let some reason ← refused then throw (.refused reason)
  let s ← get
  match s.work with
  | .directory _ =>
    if s.work.content? f = some .directory then obstructed (.isDirectory f)
    else set { s with work := s.work.put f (.text text) }
  | .absent => obstructed (.noDirectory f)
  | .occupied => obstructed (.notDirectory f)

/-- Removes a file of the working directory; one that is not there needs no removal. -/
def remove (f : FileName) : Act Unit := do
  let s ← get
  match s.work with
  | .absent => pure ()
  | .occupied => throw .system
  | .directory _ =>
    if s.work.content? f = some .directory then throw .system
    set { s with work := s.work.erase f }

/-- The result, with every failure of a step replaced by one that says more. -/
def orElse {α : Type} (step : Act α) (failure : Failure → Failure) : Act α := fun s =>
  match step s with
  | .ok a s => .ok a s
  | .error e s => .error (failure e) s

def anyway (step : Act Unit) : Act Unit := fun s =>
  match step s with
  | .ok _ s => .ok () s
  | .error _ s => .ok () s

/-- A step, and another one after it however it ends. -/
def andThen {α : Type} (step : Act α) (last : Act Unit) : Act α := fun s =>
  match step s with
  | .error e s =>
    match last s with
    | .ok _ s => .error e s
    | .error e s => .error e s
  | .ok a s =>
    match last s with
    | .ok _ s => .ok a s
    | .error e s => .error e s

end Act

end StreamCheck.Verification
