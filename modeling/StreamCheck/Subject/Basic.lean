import StreamCheck.Formula.Basic
import StreamCheck.Network.Compilation

/-! Subjects of verification: a model compiled from a graph, or a single counter that shows whether the
checker itself runs. A subject knows its text and the pipes and queues that a formula may speak of. -/

namespace StreamCheck
open Smv Network

/-- What a fact is when the subject does not have it. -/
def notObserved : Int := -1

structure Facts where
  query : String
  queueSize : Int
  domainSize : Int
  k : Option Int := none
  moduleCount : Int := notObserved
  processorCount : Int := notObserved
  variableCount : Int := notObserved
  queueVariableCount : Int := notObserved
deriving DecidableEq, Repr, Inhabited

structure CompiledGraph where
  name : String
  sizes : Sizes
  shape : Option Int
  graph : GraphId
  /-- The nodes of the graph, those inside groups and windows included. -/
  processors : Nat
  model : Model
deriving Repr, Inhabited

inductive Subject where
  | network (c : CompiledGraph)
  | counter (queue domain : Int)
deriving Repr, Inhabited

namespace CompiledGraph

def compile (w : Workspace) (name : String) (s : Sizes) (g : GraphId) (shape : Option Int) :
    Except Fault CompiledGraph :=
  (w.compile s g).map fun m => ⟨name, s, shape, g, w.count g, m⟩

def inputs (c : CompiledGraph) : List Int :=
  (c.model.main.declarations.filterMap fun v =>
    match v.name with
    | .pipeInValue n => some n
    | _ => none).eraseDups

def outputs (c : CompiledGraph) : List Int :=
  (c.model.main.declarations.filterMap fun v =>
    match v.name with
    | .pipeOutValue n => some n
    | _ => none).eraseDups

def booleanOutputs (c : CompiledGraph) : List Int :=
  (c.model.main.declarations.filterMap fun v =>
    match v.name with
    | .pipeOutValue n => if v.type = .scalar .boolean then some n else none
    | _ => none).eraseDups

def queueFlags (c : CompiledGraph) : List QueueFlags :=
  (c.model.declarations.filterMap fun (r, t) =>
    match r.name with
    | .queueFlags _ => some ⟨r, t.size⟩
    | _ => none).eraseDups

/-- The number of variables declared in the model, each counted once by its name and type. -/
def variableCount (c : CompiledGraph) : Nat := c.model.declarations.eraseDups.length

def facts (c : CompiledGraph) : Facts where
  query := c.name
  queueSize := c.sizes.queue
  domainSize := c.sizes.domain
  k := c.shape
  moduleCount := 1 + c.model.modules.length
  processorCount := c.processors
  variableCount := c.variableCount
  queueVariableCount := c.queueFlags.length

end CompiledGraph

namespace Subject

/-- The model of the counter: one number that starts at zero and never stays. -/
def counterText (domain : Int) : String :=
  "MODULE main\nVAR\n  x : 0.." ++ toString domain ++
    ";\nINIT\n  x = 0;\nTRANS\n  next(x) = x + 1;\n"

def name : Subject → String
  | network c => c.name
  | counter .. => "Dummy"

def text : Subject → String
  | network c => c.model.text
  | counter _ domain => counterText domain

def inputs : Subject → List Int
  | network c => c.inputs
  | counter .. => []

def outputs : Subject → List Int
  | network c => c.outputs
  | counter .. => []

def booleanOutputs : Subject → List Int
  | network c => c.booleanOutputs
  | counter .. => []

def queueFlags : Subject → List QueueFlags
  | network c => c.queueFlags
  | counter .. => []

def facts : Subject → Facts
  | network c => c.facts
  | counter queue domain =>
    { query := "Dummy", queueSize := queue, domainSize := domain, variableCount := 1,
      queueVariableCount := 0 }

end Subject

end StreamCheck
