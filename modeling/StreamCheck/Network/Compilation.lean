import StreamCheck.Network.Circuit
import StreamCheck.Network.Workspace

/-! Compilation: a graph becomes a model with one module for each node. The main module declares the
pipes of the graph and the instances of its nodes; a group's module declares the instances of the
nodes inside and passes their outputs on. -/

namespace StreamCheck.Network
open Smv

/-- The names of the value and of the firing of an event. -/
abbrev Wire := Ref × Ref

/-- What feeds the inputs that no other node feeds, by node and port. -/
abbrev Supply := List (Slot × Wire)

namespace Workspace

def moduleName (n : Node) : ModuleName := .node n.kind.label n.id

def parameters (arity : Nat) : List Name :=
  (List.range arity).flatMap fun j => [.inValue j, .inFire j]

def outputWire (p : Port) : Wire :=
  (.within p.node.id (.outValue p.index), .within p.node.id (.outFire p.index))

/-- What feeds an input: the node connected to it, or else what the graph is supplied with. -/
def feed (graph : Graph) (supply : Supply) (n : Node) (port : Nat) : Except Fault Wire :=
  match graph.incoming? n port with
  | some c => .ok (outputWire c.source)
  | none =>
    match supply.lookup (n.id, port) with
    | some wire => .ok wire
    | none => .error (.notConnected port n)

def arguments (graph : Graph) (supply : Supply) (n : Node) : Except Fault (List Ref) := do
  let wires ← (List.range n.inputArity).mapM (feed graph supply n)
  return wires.flatMap fun (value, fire) => [value, fire]

def groupSupply (inner : Graph) : Supply :=
  inner.entries.map fun (index, p) =>
    ((p.node.id, p.index), (.own (.inValue index), .own (.inFire index)))

def pipeSupply (graph : Graph) : Supply :=
  graph.inputs.map fun e =>
    ((e.port.node.id, e.port.index), (.own (.pipeInValue e.pipe), .own (.pipeInFire e.pipe)))

def groupOutputs (inner : Graph) (arity : Nat) : List (Name × Expr) :=
  (List.range arity).flatMap fun index =>
    match inner.exits.lookup index with
    | none => []
    | some p =>
      let (value, fire) := outputWire p
      [(.outValue index, .var value), (.outFire index, .var fire)]

def circuitModule (n : Node) (c : Circuit) : Module :=
  ⟨moduleName n, parameters n.inputArity, c.declarations, c.defines, c.assigns⟩

def groupModule (n : Node) (inner : Graph) (parts : List Instance) : Module :=
  ⟨moduleName n, parameters n.inputArity, parts.map Instance.declaration,
    groupOutputs inner n.outputArity, []⟩

def instances (w : Workspace) (s : Sizes) :
    Nat → GraphId → Supply → Except Fault (List Instance)
  | 0, _, _ => .error .endless
  | fuel + 1, g, supply =>
    (w.graph g).nodes.mapM fun n => do
      match n.inner? with
      | none =>
        let c ← Circuit.ofKind s n.kind
        return .mk n.id (← arguments (w.graph g) supply n) (circuitModule n c) []
      | some inner =>
        let parts ← instances w s fuel inner (groupSupply (w.graph inner))
        return .mk n.id (← arguments (w.graph g) supply n)
          (groupModule n (w.graph inner) parts) parts

def pipeType (w : Workspace) (s : Sizes) (side : Side) (e : External) : VarType :=
  .scalar (s.scalar (w.typeOf side e.port))

def mainModule (w : Workspace) (s : Sizes) (graph : Graph) (parts : List Instance) : Module where
  name := .main
  parameters := []
  declarations :=
    (graph.inputs.flatMap fun e =>
      [⟨.pipeInValue e.pipe, w.pipeType s .input e⟩,
       ⟨.pipeInFire e.pipe, .scalar .boolean⟩]) ++
    parts.map Instance.declaration ++
    (graph.outputs.flatMap fun e =>
      [⟨.pipeOutValue e.pipe, w.pipeType s .output e⟩,
       ⟨.pipeOutFire e.pipe, .scalar .boolean⟩])
  defines := []
  assigns := graph.outputs.flatMap fun e =>
    let (value, fire) := outputWire e.port
    [⟨.always, ⟨.pipeOutValue e.pipe, none⟩, .value (.var value)⟩,
     ⟨.always, ⟨.pipeOutFire e.pipe, none⟩, .value (.var fire)⟩]

def compile (w : Workspace) (s : Sizes) (g : GraphId) : Except Fault Model := do
  w.validate g
  let parts ← w.instances s w.depth g (pipeSupply (w.graph g))
  return ⟨w.mainModule s (w.graph g) parts, parts⟩

end Workspace

end StreamCheck.Network
