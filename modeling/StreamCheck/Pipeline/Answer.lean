import Mathlib.Logic.Relation
import StreamCheck.Network.Compilable
import StreamCheck.Pipeline.Catalog

/-! What the catalog has to answer: which configurations have a graph, and what such a graph is to be. -/

namespace StreamCheck.Network

def Graph.Leads (g : Graph) (i j : NodeId) : Prop :=
  ∃ c ∈ g.connections, c.source.node.id = i ∧ c.destination.node.id = j

def Graph.Acyclic (g : Graph) : Prop := ∀ i, ¬ Relation.TransGen g.Leads i i

end StreamCheck.Network

namespace StreamCheck.Pipeline
open Network

namespace Query

def constants (q : Query) (shape : Option Int) : List Int :=
  match q with
  | sumOfOnes => [1]
  | sumOfDoubles => [2]
  | outputIfSmaller => [Creator.effective shape Creator.defaultShape]
  | _ => []

/-- Whether the shape of a query is a number of this node, which stands among these connections: an interval,
the width of a window, the number that counts are held against, or a delay. -/
def Controls (q : Query) (connections : List Connection) (n : Node) : Prop :=
  match q with
  | productOfFirst => (n.kind matches .decimate ..)
  | productWindow | sumOfOnes => (n.kind matches .window ..)
  | outputIfSmaller => ∃ c ∈ connections, c.source.node.id = n.id ∧ c.destination.index = 0 ∧
      c.destination.node.kind = .apply .isGreaterOrEqual .integer
  | comparePassthroughDelay => (n.kind matches .trim ..)
  | _ => False

end Query

def outputTypes : Option Wiring → List PortType
  | none => [.integer]
  | some .stepwise => [.integer, .integer]
  | some .sequence => [.boolean]

namespace Configuration

/-- The query is one of the catalog, and all constants that it needs lie in the domain. -/
def Fits (c : Configuration) : Prop :=
  ∃ q ∈ Catalog.queries, c.query = q.name ∧ ∀ v ∈ q.constants c.shape, 0 ≤ v ∧ v < c.domain

def IsWritable (c : Configuration) : Prop :=
  ∀ v ∈ c.domain :: c.queue :: c.k.toList, Smv.isWritable v = true

end Configuration

/-- What is asked of a graph that is assembled for a configuration. -/
structure Assembly.Answers (a : Assembly) (c : Configuration) (w : Workspace) : Prop where
  valid : w.validate a.graph = .ok ()
  acyclic : ∀ place inner, w.Within a.graph place inner → (w.graph inner).Acyclic
  compiles : ∃ m, w.compile ⟨c.domain, c.queue⟩ a.graph = .ok m ∧
    (c.IsWritable → w.Writable a.graph ⟨c.domain, c.queue⟩ ∧ m.isWritable = true)
  input : ∃ e, (w.graph a.graph).inputs = [e] ∧ w.typeOf .input e.port = .integer
  wiring : a.wiring = c.wiring?
  outputs : (w.graph a.graph).outputs.map (fun e => w.typeOf .output e.port) = outputTypes c.wiring?
  /-- A shape that is asked for is the one that is reported, unless none is. -/
  asked : ∀ k, c.shape = some k → a.shape = none ∨ a.shape = some k
  /-- The shape is the number of the nodes that it controls, at any depth; without any there is none. -/
  shape : ∀ k, a.shape = some k ↔ ∃ (q : Query) (around : GraphId) (n : Node), c.query = q.name ∧ w.Holds a.graph around n ∧
    q.Controls (w.graph around).connections n ∧ k ∈ n.kind.numbers

end StreamCheck.Pipeline
