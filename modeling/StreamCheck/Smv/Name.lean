/-! The names that a model declares. Each family of names has a form of its own, so that a name tells
what it stands for: `ic_4` is the value that arrives on pipe 4, `qb0` the flags of the first queue. -/

namespace StreamCheck.Smv

/-- A name inside one module. Ports count from zero; pipes and nodes go by their numbers. -/
inductive Name where
  /-- Value handed to an input port of the module. -/
  | inValue (port : Nat)
  /-- Whether an event arrives on an input port of the module. -/
  | inFire (port : Nat)
  /-- Value on an output port of the module. -/
  | outValue (port : Nat)
  /-- Whether an output port of the module fires. -/
  | outFire (port : Nat)
  /-- Values stored in the queue of an input port. -/
  | queueValues (port : Nat)
  /-- Which slots of the queue of an input port are taken. -/
  | queueFlags (port : Nat)
  /-- Whether an input port has an event to offer, stored or arriving. -/
  | available (port : Nat)
  /-- The event that an input port offers. -/
  | front (port : Nat)
  /-- Whether every input port has an event to offer. -/
  | ready
  /-- Number of events seen so far, as far as it matters. -/
  | counter
  /-- Running fold. -/
  | accumulator
  /-- Whether the running fold has seen an event. -/
  | started
  /-- The last events of a sliding window. -/
  | window
  /-- Value that arrives from outside on a pipe. -/
  | pipeInValue (pipe : Int)
  /-- Whether an event arrives from outside on a pipe. -/
  | pipeInFire (pipe : Int)
  /-- Value that leaves on a pipe. -/
  | pipeOutValue (pipe : Int)
  /-- Whether an event leaves on a pipe. -/
  | pipeOutFire (pipe : Int)
  /-- Instance of the module of a node. -/
  | part (node : Nat)
  /-- Any other name, given as text. -/
  | other (text : String)
deriving DecidableEq, Repr, Inhabited

namespace Name

def text : Name → String
  | inValue j => "inc_" ++ toString j
  | inFire j => "inb_" ++ toString j
  | outValue p => "outc_" ++ toString p
  | outFire p => "outb_" ++ toString p
  | queueValues j => "qc" ++ toString j
  | queueFlags j => "qb" ++ toString j
  | available j => "avail_" ++ toString j
  | front j => "front_" ++ toString j
  | ready => "ready"
  | counter => "cnt"
  | accumulator => "acc"
  | started => "started"
  | window => "win"
  | pipeInValue n => "ic_" ++ toString n
  | pipeInFire n => "ib_" ++ toString n
  | pipeOutValue n => "oc_" ++ toString n
  | pipeOutFire n => "ob_" ++ toString n
  | part n => "pr_" ++ toString n
  | other t => t

end Name

/-- A name reached through a chain of instances; the empty chain stays in the module itself. -/
structure Ref where
  path : List Nat
  name : Name
deriving DecidableEq, Repr, Inhabited

namespace Ref

def own (n : Name) : Ref := ⟨[], n⟩

def within (node : Nat) (n : Name) : Ref := ⟨[node], n⟩

def under (node : Nat) (r : Ref) : Ref := ⟨node :: r.path, r.name⟩

def text (r : Ref) : String :=
  String.join (r.path.map fun n => (Name.part n).text ++ ".") ++ r.name.text

end Ref

end StreamCheck.Smv
