import StreamCheck.Network.Fault

/-! Graphs: nodes, the connections between their ports, and the ports exposed to the outside. A graph
also keeps what feeds each input and what takes each output, so that no port is bound twice. -/

namespace StreamCheck.Network

/-- A port of a node, an input or an output as the place demands. -/
structure Port where
  node : Node
  index : Nat
deriving DecidableEq, Repr, Inhabited

structure Connection where
  source : Port
  destination : Port
deriving DecidableEq, Repr, Inhabited

/-- A port exposed to the outside under the number of a pipe. -/
structure External where
  pipe : PipeId
  port : Port
deriving DecidableEq, Repr, Inhabited

inductive Binding where
  | connection (c : Connection)
  | external (e : External)
  /-- A port of the group around the graph. -/
  | association (group : Node)
deriving DecidableEq, Repr, Inhabited

/-- A port by the number of its node and its place there. -/
abbrev Slot := NodeId × Nat

/-- A multigraph of nodes over the values `0..domain-1`, with queues of one size. -/
structure Graph where
  domain : Nat
  queue : Nat
  domain_pos : 0 < domain
  queue_pos : 0 < queue
  nodes : List Node := []
  connections : List Connection := []
  inputs : List External := []
  outputs : List External := []
  /-- What feeds each bound input. -/
  feeds : List (Slot × Binding) := []
  /-- What takes each bound output. -/
  takes : List (Slot × Binding) := []
  /-- For a group's graph, the inner input of each associated input of the group. -/
  entries : List (Nat × Port) := []
  /-- For a group's graph, the inner output of each associated output of the group. -/
  exits : List (Nat × Port) := []
  frozen : Bool := false
deriving Repr

instance : Inhabited Graph :=
  ⟨{ domain := 1, queue := 1, domain_pos := by decide, queue_pos := by decide }⟩

namespace Graph

def contains (g : Graph) (n : Node) : Bool := g.nodes.any (·.id == n.id)

def bindings (g : Graph) : Side → List (Slot × Binding)
  | .input => g.feeds
  | .output => g.takes

/-- The bindings of the group's own ports on one side. -/
def associations (g : Graph) : Side → List (Nat × Port)
  | .input => g.entries
  | .output => g.exits

def binding? (g : Graph) (side : Side) (slot : Slot) : Option Binding :=
  (g.bindings side).lookup slot

def isBound (g : Graph) (side : Side) (slot : Slot) : Bool := (g.binding? side slot).isSome

def bind (g : Graph) (side : Side) (slot : Slot) (b : Binding) : Graph :=
  match side with
  | .input => { g with feeds := g.feeds ++ [(slot, b)] }
  | .output => { g with takes := g.takes ++ [(slot, b)] }

def associate (g : Graph) (side : Side) (index : Nat) (p : Port) : Graph :=
  match side with
  | .input => { g with entries := g.entries ++ [(index, p)] }
  | .output => { g with exits := g.exits ++ [(index, p)] }

def expose (g : Graph) (side : Side) (e : External) : Graph :=
  match side with
  | .input => { g with inputs := g.inputs ++ [e] }
  | .output => { g with outputs := g.outputs ++ [e] }

def incoming? (g : Graph) (n : Node) (port : Int) : Option Connection :=
  if port < 0 then none
  else
    match g.binding? .input (n.id, port.toNat) with
    | some (.connection c) => some c
    | _ => none

end Graph

end StreamCheck.Network
