import StreamCheck.Network.Route
import StreamCheck.Smv.Module

/-! Nesting, and what it takes for a graph to be compiled: what leaves something open, in the graph itself or at any
depth of nesting, or has no meaning for the sizes that are asked for. A group may be put into any graph, the one
inside of it included, so it takes a look at the whole workspace to tell whether nesting ends. -/

namespace StreamCheck.Network

/-! ### Nesting -/

namespace Workspace
variable (w : Workspace) (g : GraphId)

/-- A node of the graph or of a graph nested in it, with the graph that it is a node of. -/
def Holds (around : GraphId) (n : Node) : Prop := ∃ place, w.Within g place around ∧ n ∈ (w.graph around).nodes

def ContainsItself : Prop := ∃ group place, w.Within g (group :: place) g

/-- Neither the graph nor any graph nested in it contains itself: the nesting ends. -/
def Grounded : Prop := ∀ place inner, w.Within g place inner → ¬ w.ContainsItself inner

/-- The graph and all graphs nested in it are frozen. -/
def Sealed : Prop := ∀ place inner, w.Within g place inner → (w.graph inner).frozen = true

/-- No node stands at two places. -/
def OccursOnce : Prop := ∀ place place' around around' n, w.Within g place around → n ∈ (w.graph around).nodes →
  w.Within g place' around' → n ∈ (w.graph around').nodes → place = place'

/-- Groups are nested in the graph on fewer levels than so many. -/
def NestsWithin : Nat → GraphId → Prop
  | 0, _ => False
  | height + 1, g => ∀ n ∈ (w.graph g).nodes, ∀ inner ∈ n.inner?, NestsWithin height inner

instance NestsWithin.decidable : ∀ height g, Decidable (w.NestsWithin height g)
  | 0, _ => inferInstanceAs (Decidable False)
  | height + 1, g =>
    have := NestsWithin.decidable height
    inferInstanceAs (Decidable (∀ n ∈ (w.graph g).nodes, ∀ inner ∈ n.inner?, w.NestsWithin height inner))

end Workspace

/-! ### What compilation asks for -/

def Kind.numbers : Kind → List Int
  | .trim count _ => [count]
  | .decimate interval _ _ => [interval]
  | .constant (.number v) _ => [v]
  | .window _ _ width _ => [width]
  | _ => []

namespace Workspace
variable (w : Workspace) (g : GraphId) (z : Sizes)

/-- Every input of every node is fed and every port of every group is associated, at any depth. -/
structure Valid : Prop where
  fed : ∀ around n, w.Holds g around n → ∀ j < n.inputArity,
    (w.graph around).isBound .input (n.id, j) = true
  associated : ∀ around n, w.Holds g around n → ∀ inner, n.inner? = some inner →
    ∀ side, ∀ i < n.arity side, (((w.graph inner).associations side).lookup i).isSome = true

structure Compilable : Prop extends w.Valid g where
  /-- Every node has a behaviour of its own. -/
  behaving : ∀ around n, w.Holds g around n → ∀ ins outs, n.kind ≠ .bare ins outs
  /-- Every number that stands for events lies in the domain. -/
  constants : ∀ around n, w.Holds g around n → ∀ v input, n.kind = .constant (.number v) input →
    0 ≤ v ∧ v < z.domain
  /-- No group around the graph itself feeds an input. -/
  outermost : ∀ n ∈ (w.graph g).nodes, ∀ j < n.inputArity, ∀ group,
    (w.graph g).binding? .input (n.id, j) ≠ some (.association group)
  /-- No pipe leads into a group. -/
  enclosed : ∀ around group, w.Holds g around group → ∀ inner, group.inner? = some inner →
    ∀ n ∈ (w.graph inner).nodes, ∀ j < n.inputArity, ∀ e,
      (w.graph inner).binding? .input (n.id, j) ≠ some (.external e)

structure Writable : Prop where
  sizes : ∀ v ∈ [z.domain, z.domain - 1, z.queue, z.queue - 1], Smv.isWritable v = true
  numbers : ∀ around n, w.Holds g around n → ∀ v ∈ n.kind.numbers, Smv.isWritable v = true

end Workspace

end StreamCheck.Network
