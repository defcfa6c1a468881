import StreamCheck.Operator

/-! Nodes of a stream-processing network. A node is a value: its number, which tells it from every
other, and its kind, which fixes its ports. What a group holds is kept with its inner graph. -/

namespace StreamCheck.Network

inductive PortType where
  | integer
  | boolean
deriving DecidableEq, Repr, Inhabited

namespace PortType

def all : List PortType := [integer, boolean]

def name : PortType → String
  | integer => "integer"
  | boolean => "boolean"

def ofName? (s : String) : Option PortType := all.find? (·.name == s)

end PortType

/-- Nodes are numbered in the order of their construction. -/
abbrev NodeId := Nat

/-- Pipes are numbered in the order in which ports are exposed. -/
abbrev PipeId := Nat

/-- Graphs are numbered in the order of their construction. -/
abbrev GraphId := Nat

inductive Literal where
  | number (n : Int)
  | truth (b : Bool)
deriving DecidableEq, Repr, Inhabited

def Literal.type : Literal → PortType
  | number _ => .integer
  | truth _ => .boolean

inductive Kind where
  /-- A node that does nothing of its own. -/
  | bare (inputs outputs : List PortType)
  /-- Lets every event through. -/
  | passthrough (type : PortType)
  /-- Sends every event to each output. -/
  | fork (arity : Nat) (positive : 0 < arity) (type : PortType)
  /-- Drops the first events and lets all later ones through. -/
  | trim (count : Nat) (type : PortType)
  /-- Lets the first of every so many events through. -/
  | decimate (interval : Nat) (positive : 0 < interval) (type : PortType)
  /-- Lets the event of input 0 through when that of input 1 is true. -/
  | filter (type : PortType)
  /-- Turns every event into the same constant. -/
  | constant (value : Literal) (input : PortType)
  /-- Applies an operator to one event of each input. -/
  | apply (operator : Operator) (input : PortType)
  /-- Puts out the running fold of the events. -/
  | cumulate (fold : Fold)
  /-- Folds the last events, as many as the window is wide, as its processor would. -/
  | window (processor : NodeId) (fold : Fold) (width : Nat) (positive : 0 < width)
  /-- Stands for the inner graph; its ports are associated with ports in there. -/
  | group (inner : GraphId) (inputs outputs : Nat)
deriving DecidableEq, Repr

instance : Inhabited Kind := ⟨.bare [] []⟩

namespace Kind

def label : Kind → String
  | bare .. => "Node"
  | passthrough .. => "Passthrough"
  | fork .. => "Fork"
  | trim .. => "Trim"
  | decimate .. => "CountDecimate"
  | filter .. => "Filter"
  | constant .. => "Constant"
  | apply .. => "Apply"
  | cumulate .. => "Cumulate"
  | window .. => "Window"
  | group .. => "Group"

/-- The types of the inputs; those of a group hold until they are associated. -/
def inputs : Kind → List PortType
  | bare ins _ => ins
  | passthrough t => [t]
  | fork _ _ t => [t]
  | trim _ t => [t]
  | decimate _ _ t => [t]
  | filter t => [t, .boolean]
  | constant _ t => [t]
  | apply op t => List.replicate op.arity t
  | cumulate _ => [.integer]
  | window .. => [.integer]
  | group _ n _ => List.replicate n .integer

def outputs : Kind → List PortType
  | bare _ outs => outs
  | passthrough t => [t]
  | fork n _ t => List.replicate n t
  | trim _ t => [t]
  | decimate _ _ t => [t]
  | filter t => [t]
  | constant v _ => [v.type]
  | apply op _ => [if op.returnsBoolean then .boolean else .integer]
  | cumulate _ => [.integer]
  | window .. => [.integer]
  | group _ _ n => List.replicate n .integer

end Kind

/-- A node; two nodes are the same when their numbers are. -/
structure Node where
  id : NodeId
  kind : Kind
deriving DecidableEq, Repr, Inhabited

inductive Side where
  | input
  | output
deriving DecidableEq, Repr, Inhabited

namespace Node

def name (n : Node) : String := n.kind.label ++ "_" ++ toString n.id

def inputArity (n : Node) : Nat := n.kind.inputs.length

def outputArity (n : Node) : Nat := n.kind.outputs.length

def arity (n : Node) : Side → Nat
  | .input => n.inputArity
  | .output => n.outputArity

def inner? (n : Node) : Option GraphId :=
  match n.kind with
  | .group g _ _ => some g
  | _ => none

/-- The nodes that stand inside a window. -/
def processors (n : Node) : List Node :=
  match n.kind with
  | .window p f _ _ => [⟨p, .cumulate f⟩]
  | _ => []

end Node

end StreamCheck.Network
