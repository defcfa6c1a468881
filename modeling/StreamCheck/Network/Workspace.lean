import StreamCheck.Network.Graph

/-! The workspace: every graph built so far and the numbers that come next. Groups refer to their inner
graphs by number, so a question about a node that reaches into groups is asked of the workspace. -/

namespace StreamCheck.Network

structure Workspace where
  nextNode : NodeId := 1
  nextPipe : PipeId := 0
  graphs : List Graph := []
deriving Repr, Inhabited

namespace Workspace

def graph (w : Workspace) (g : GraphId) : Graph := w.graphs.getD g default

def modify (w : Workspace) (g : GraphId) (f : Graph → Graph) : Workspace :=
  { w with graphs := w.graphs.modify g f }

/-- A bound on the nesting of groups: no chain of distinct graphs is longer. -/
def depth (w : Workspace) : Nat := w.graphs.length + 1

def declared (n : Node) : Side → List PortType
  | .input => n.kind.inputs
  | .output => n.kind.outputs

/-- The type of a port: for an associated port of a group, the type of the inner port. -/
def typeWithin (w : Workspace) (side : Side) : Nat → Node → Nat → PortType
  | 0, n, p => (declared n side).getD p .integer
  | fuel + 1, n, p =>
    match n.inner? with
    | none => (declared n side).getD p .integer
    | some g =>
      match ((w.graph g).associations side).lookup p with
      | none => (declared n side).getD p .integer
      | some inner => typeWithin w side fuel inner.node inner.index

def typeOf (w : Workspace) (side : Side) (p : Port) : PortType :=
  w.typeWithin side w.depth p.node p.index

def port? (n : Node) (side : Side) (port : Int) : Except Fault Port :=
  if 0 ≤ port ∧ port < n.arity side then .ok ⟨n, port.toNat⟩ else .error (.noPort n side port)

def type? (w : Workspace) (n : Node) (side : Side) (port : Int) : Except Fault PortType :=
  (port? n side port).map (w.typeOf side)

def children (w : Workspace) (n : Node) : List Node :=
  match n.inner? with
  | some g => (w.graph g).nodes
  | none => n.processors

def total (ns : List Nat) : Nat := ns.foldr (· + ·) 0

/-- The number of nodes that a node stands for, itself included. -/
def countWithin (w : Workspace) : Nat → Node → Nat
  | 0, _ => 1
  | fuel + 1, n => 1 + total ((w.children n).map (countWithin w fuel))

def count (w : Workspace) (g : GraphId) : Nat :=
  total ((w.graph g).nodes.map (w.countWithin (w.depth + 1)))

def checkFed (g : Graph) (n : Node) : Except Fault Unit :=
  (List.range n.inputArity).forM fun p =>
    if g.isBound .input (n.id, p) then .ok () else .error (.notConnected p n)

def checkAssociated (inner : Graph) (n : Node) (side : Side) : Except Fault Unit :=
  (List.range (n.arity side)).forM fun i =>
    if ((inner.associations side).lookup i).isSome then .ok ()
    else .error (.notAssociated side i n)

/-- Every input is fed and every port of a group associated, in the graph and in its groups. -/
def validateWithin (w : Workspace) : Nat → GraphId → Except Fault Unit
  | 0, _ => .error .endless
  | fuel + 1, g =>
    (w.graph g).nodes.forM fun n => do
      checkFed (w.graph g) n
      match n.inner? with
      | none => pure ()
      | some inner =>
        checkAssociated (w.graph inner) n .input
        checkAssociated (w.graph inner) n .output
        validateWithin w fuel inner

def validate (w : Workspace) (g : GraphId) : Except Fault Unit := w.validateWithin w.depth g

def freezeWithin : Nat → GraphId → Workspace → Workspace
  | 0, _, w => w
  | fuel + 1, g, w =>
    ((w.graph g).nodes.filterMap Node.inner?).foldl (fun w inner => freezeWithin fuel inner w)
      (w.modify g fun graph => { graph with frozen := true })

def freeze (w : Workspace) (g : GraphId) : Workspace := freezeWithin w.depth g w

end Workspace

end StreamCheck.Network
