import StreamCheck.Network.Node
import StreamCheck.Smv.Module

/-! What can go wrong in building or compiling a network. -/

namespace StreamCheck.Network

inductive Fault where
  | emptyFork
  | negativeTrim
  | emptyInterval
  | noFold (operator : Operator)
  | noProcessor
  | emptyWindow
  | emptyDomain
  | emptyQueue
  | frozen
  | noPort (node : Node) (side : Side) (port : Int)
  | alreadyMember (node : Node)
  | notMember (node : Node)
  | typeMismatch (source : Node) (output : Int) (sourceType : PortType)
      (destination : Node) (input : Int) (destinationType : PortType)
  | alreadyConnected (side : Side) (port : Int) (node : Node)
  | notConnected (port : Nat) (node : Node)
  | alreadyAssociated (node : Node) (side : Side) (index : Int)
  | notAssociated (side : Side) (index : Nat) (node : Node)
  | notGroup (node : Node)
  | noBehaviour (kind : Kind)
  | constantOutside (value domain : Int)
  /-- A graph holds itself, so its nodes never end. -/
  | endless
deriving DecidableEq, Repr, Inhabited

def Side.word : Side → String
  | input => "input"
  | output => "output"

def Side.title : Side → String
  | input => "Input"
  | output => "Output"

namespace Fault

def message : Fault → String
  | emptyFork => "A fork needs at least one output"
  | negativeTrim => "Trim count must be non-negative"
  | emptyInterval => "Decimation interval must be positive"
  | noFold op => "Cannot cumulate with " ++ op.name
  | noProcessor => "Only cumulative processors can be windowed"
  | emptyWindow => "Window width must be positive"
  | emptyDomain => "Domain size must be positive"
  | emptyQueue => "Queue size must be positive"
  | frozen => "Cannot modify a frozen module graph"
  | noPort n side p =>
    n.name ++ " has no " ++ side.word ++ " port " ++ toString p ++ " (arity " ++
      toString (n.arity side) ++ ")"
  | alreadyMember n => n.name ++ " is already part of the graph"
  | notMember n => n.name ++ " is not part of the graph"
  | typeMismatch s o st d i dt =>
    "Cannot connect " ++ s.name ++ ":" ++ toString o ++ " (" ++ st.name ++ ") to " ++
      d.name ++ ":" ++ toString i ++ " (" ++ dt.name ++ ")"
  | alreadyConnected side p n =>
    side.title ++ " " ++ toString p ++ " of " ++ n.name ++ " is already connected"
  | notConnected p n => "Input " ++ toString p ++ " of " ++ n.name ++ " is not connected"
  | alreadyAssociated n side i =>
    n.name ++ " " ++ side.word ++ " " ++ toString i ++ " is already associated"
  | notAssociated side i n =>
    side.title ++ " " ++ toString i ++ " of " ++ n.name ++ " is not associated"
  | notGroup n => n.name ++ " is not a group"
  | noBehaviour k => "No SMV semantics for " ++ k.label
  | constantOutside v d =>
    "Constant " ++ toString v ++ " is outside the domain 0.." ++ toString (d - 1)
  | endless => "A module graph contains itself"

/-- Whether a graph reports the fault as an error of its own; not when a node that is no group is asked for
what is inside, and not when a question about a graph that holds itself is never answered. -/
def isGraphError : Fault → Bool
  | notGroup _ | endless => false
  | _ => true

def isWritable : Fault → Bool
  | constantOutside _ d => Smv.isWritable (d - 1)
  | _ => true

end Fault

end StreamCheck.Network
