import StreamCheck.Network.Workspace

/-! Building networks. An operation that fails keeps what it did before the fault: a number once taken
is never given out again, and the nodes added before an offending one stay. -/

namespace StreamCheck.Network

/-- A step of building: it changes the workspace and gives a result or ends in a fault. -/
abbrev Build := EStateM Fault Workspace

namespace Build

def ask {α : Type} (question : Workspace → Except Fault α) : Build α := do
  match question (← get) with
  | .ok a => pure a
  | .error e => throw e

def graph (g : GraphId) : Build Graph := do return (← get).graph g

def update (g : GraphId) (f : Graph → Graph) : Build Unit := modify fun w => w.modify g f

def node (k : Kind) : Build Node := do
  let w ← get
  set { w with nextNode := w.nextNode + 1 }
  return ⟨w.nextNode, k⟩

def pipe : Build PipeId := do
  let w ← get
  set { w with nextPipe := w.nextPipe + 1 }
  return w.nextPipe

def newGraph (domain queue : Int) : Build GraphId := do
  if hd : 0 < domain then
    if hq : 0 < queue then
      let w ← get
      let g : Graph :=
        { domain := domain.toNat, queue := queue.toNat, domain_pos := by omega,
          queue_pos := by omega }
      set { w with graphs := w.graphs ++ [g] }
      return w.graphs.length
    else throw .emptyQueue
  else throw .emptyDomain

def passthrough (type : PortType) : Build Node := node (.passthrough type)

def fork (arity : Int) (type : PortType) : Build Node :=
  if h : 0 < arity then node (.fork arity.toNat (by omega) type) else throw .emptyFork

def trim (count : Int) (type : PortType) : Build Node :=
  if 0 ≤ count then node (.trim count.toNat type) else throw .negativeTrim

def decimate (interval : Int) (type : PortType) : Build Node :=
  if h : 0 < interval then node (.decimate interval.toNat (by omega) type)
  else throw .emptyInterval

def filter (type : PortType) : Build Node := node (.filter type)

def constant (value : Literal) (input : PortType) : Build Node := node (.constant value input)

def apply (operator : Operator) (input : PortType) : Build Node := node (.apply operator input)

def cumulate (operator : Operator) : Build Node :=
  match operator.fold? with
  | some f => node (.cumulate f)
  | none => throw (.noFold operator)

def window (processor : Node) (width : Int) : Build Node :=
  match processor.kind with
  | .cumulate f =>
    if h : 0 < width then node (.window processor.id f width.toNat (by omega))
    else throw .emptyWindow
  | _ => throw .noProcessor

/-- A group with a new inner graph; the number of the node is taken first. -/
def group (domain queue inputs outputs : Int) : Build Node := do
  let n ← node (.bare [] [])
  let g ← newGraph domain queue
  return { n with kind := .group g inputs.toNat outputs.toNat }

def ensureMutable (g : GraphId) : Build Unit := do
  if (← graph g).frozen then throw .frozen

def ensureMember (g : GraphId) (n : Node) : Build Unit := do
  unless (← graph g).contains n do throw (.notMember n)

def portType (n : Node) (side : Side) (port : Int) : Build PortType := ask (·.type? n side port)

def addOne (g : GraphId) (n : Node) : Build Unit := do
  if (← graph g).contains n then throw (.alreadyMember n)
  update g fun graph => { graph with nodes := graph.nodes ++ [n] }

def add (g : GraphId) (nodes : List Node) : Build Unit := do
  ensureMutable g
  nodes.forM (addOne g)

def bindPort (g : GraphId) (side : Side) (n : Node) (port : Int) (b : Port → Binding) :
    Build Port := do
  ensureMutable g
  ensureMember g n
  let p ← ask fun _ => Workspace.port? n side port
  if (← graph g).isBound side (n.id, p.index) then throw (.alreadyConnected side port n)
  update g (·.bind side (n.id, p.index) (b p))
  return p

def connect (g : GraphId) (source : Node) (output : Int) (destination : Node) (input : Int) :
    Build Connection := do
  ensureMutable g
  ensureMember g source
  ensureMember g destination
  let sourceType ← portType source .output output
  let destinationType ← portType destination .input input
  if sourceType ≠ destinationType then
    throw (.typeMismatch source output sourceType destination input destinationType)
  if (← graph g).isBound .input (destination.id, input.toNat) then
    throw (.alreadyConnected .input input destination)
  let c : Connection := ⟨⟨source, output.toNat⟩, ⟨destination, input.toNat⟩⟩
  discard <| bindPort g .output source output fun _ => .connection c
  discard <| bindPort g .input destination input fun _ => .connection c
  update g fun graph => { graph with connections := graph.connections ++ [c] }
  return c

def expose (g : GraphId) (side : Side) (n : Node) (port : Int) : Build PipeId := do
  ensureMutable g
  discard <| portType n side port
  let e : External := ⟨← pipe, ⟨n, port.toNat⟩⟩
  discard <| bindPort g side n port fun _ => .external e
  update g (·.expose side e)
  return e.pipe

def inside (group : Node) : Build GraphId :=
  match group.inner? with
  | none => throw (.notGroup group)
  | some inner => return inner

/-- Makes a port of a group stand for a port of a node inside. -/
def associate (group : Node) (side : Side) (index : Int) (n : Node) (port : Int) :
    Build Unit := do
  let inner ← inside group
  let outer ← ask fun _ => Workspace.port? group side index
  if (((← graph inner).associations side).lookup outer.index).isSome then
    throw (.alreadyAssociated group side index)
  let p ← bindPort inner side n port fun _ => .association group
  update inner (·.associate side outer.index p)

def validate (g : GraphId) : Build Unit := ask (·.validate g)

def freeze (g : GraphId) : Build Unit := modify (·.freeze g)

end Build

end StreamCheck.Network
