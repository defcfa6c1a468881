import StreamCheck.Network.Build

/-! Sessions: networks are built by calls, one after the other, on any number of graphs and groups. A
session keeps the workspace and, in order, every node and every pipe that a call has given out. -/

namespace StreamCheck.Network

inductive Recipe where
  | bare (inputs outputs : List PortType)
  | passthrough (type : PortType)
  | fork (arity : Int) (type : PortType)
  | trim (count : Int) (type : PortType)
  | decimate (interval : Int) (type : PortType)
  | filter (type : PortType)
  | constant (value : Literal) (input : PortType)
  | apply (operator : Operator) (input : PortType)
  | cumulate (operator : Operator)
  | window (processor : Node) (width : Int)
  | group (domain queue inputs outputs : Int)
deriving Repr, Inhabited

namespace Recipe

def make : Recipe → Build Node
  | bare ins outs => Build.node (.bare ins outs)
  | passthrough t => Build.passthrough t
  | fork n t => Build.fork n t
  | trim n t => Build.trim n t
  | decimate n t => Build.decimate n t
  | filter t => Build.filter t
  | constant v t => Build.constant v t
  | apply op t => Build.apply op t
  | cumulate op => Build.cumulate op
  | window p n => Build.window p n
  | group d q ins outs => Build.group d q ins outs

def nodes : Recipe → List Node
  | window p _ => [p]
  | _ => []

end Recipe

inductive Outcome where
  | nothing
  | node (n : Node)
  | pipe (p : PipeId)
deriving Repr, Inhabited

inductive Call where
  | newGraph (domain queue : Int)
  | create (recipe : Recipe)
  | add (g : GraphId) (nodes : List Node)
  | connect (g : GraphId) (source : Node) (output : Int) (destination : Node) (input : Int)
  | expose (g : GraphId) (side : Side) (n : Node) (port : Int)
  | associate (group : Node) (side : Side) (index : Int) (n : Node) (port : Int)
  | validate (g : GraphId)
  | freeze (g : GraphId)
deriving Repr, Inhabited

namespace Call

def build : Call → Build Outcome
  | newGraph d q => do
    discard (Build.newGraph d q)
    return .nothing
  | create r => return .node (← r.make)
  | add g ns => do
    Build.add g ns
    return .nothing
  | connect g s o d i => do
    discard (Build.connect g s o d i)
    return .nothing
  | expose g side n p => return .pipe (← Build.expose g side n p)
  | associate group side i n p => do
    Build.associate group side i n p
    return .nothing
  | validate g => do
    Build.validate g
    return .nothing
  | freeze g => do
    Build.freeze g
    return .nothing

def nodes : Call → List Node
  | create r => r.nodes
  | add _ ns => ns
  | connect _ s _ d _ => [s, d]
  | expose _ _ n _ => [n]
  | associate group _ _ n _ => [group, n]
  | _ => []

def graph? : Call → Option GraphId
  | add g _ => some g
  | connect g _ _ _ _ => some g
  | expose g _ _ _ => some g
  | validate g => some g
  | freeze g => some g
  | _ => none

end Call

structure Session where
  workspace : Workspace := {}
  nodes : List Node := []
  pipes : List PipeId := []
deriving Repr, Inhabited

namespace Session

def admits (s : Session) (c : Call) : Bool :=
  c.nodes.all (s.nodes.contains ·) && c.graph?.all (· < s.workspace.graphs.length)

/-- The session after a call that ended in some way; what a failed call has done stays. -/
def after (s : Session) : EStateM.Result Fault Workspace Outcome → Session
  | .ok (.node n) w => ⟨w, s.nodes ++ [n], s.pipes⟩
  | .ok (.pipe p) w => ⟨w, s.nodes, s.pipes ++ [p]⟩
  | .ok .nothing w => { s with workspace := w }
  | .error _ w => { s with workspace := w }

/-- The session after a call; one that names what is not there cannot be made. -/
def perform (s : Session) (c : Call) : Session :=
  if s.admits c then s.after (c.build.run s.workspace) else s

def performAll (s : Session) (cs : List Call) : Session := cs.foldl perform s

def groupsAround (s : Session) (g : GraphId) : List Node := s.nodes.filter (·.inner? == some g)

end Session

/-! ### Agreement of the two ends of a connection

A connection is made between ports of one type, but a port of a group may be associated with a port inside after that,
and takes over its type. -/

namespace Workspace
variable (w : Workspace) (side : Side)

def associated? (p : Port) : Option Port :=
  p.node.inner?.bind fun inner => ((w.graph inner).associations side).lookup p.index

/-- A port stands for itself and, if it is associated, for all that the port inside stands for. -/
inductive StandsFor : Port → Port → Prop
  | self (p : Port) : StandsFor p p
  | inside {p q r : Port} (hq : w.associated? side p = some q) (h : StandsFor q r) : StandsFor p r

end Workspace

namespace Session

def Associates (s : Session) (call : Call) (side : Side) (r q : Port) : Prop :=
  s.workspace.associated? side r = none ∧ (s.perform call).workspace.associated? side r = some q

/-- The call gives a port another type. A port of a group is of integers until it is associated; the call
associates one that the port stands for with a port that is not of integers. -/
def Retypes (s : Session) (call : Call) (side : Side) (p : Port) : Prop :=
  ∃ r q, s.workspace.StandsFor side p r ∧ s.Associates call side r q ∧
    s.workspace.typeOf side q ≠ .integer

/-- One of the calls gives a port another type after a connection of the graph has been made. -/
def RetypedSince (calls : List Call) (g : GraphId) (c : Connection) (side : Side) (p : Port) : Prop :=
  ∃ before call after, calls = before ++ call :: after ∧
    c ∈ ((({} : Session).performAll before).workspace.graph g).connections ∧
    (({} : Session).performAll before).Retypes call side p

end Session

end StreamCheck.Network
