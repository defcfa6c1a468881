import StreamCheck.Network.Compilation
import StreamCheck.Smv.Reference

/-! The routes of events through nested groups. A place is a chain of groups, each a node of the graph
inside the next; the innermost comes first, and the empty chain is the outermost graph itself. -/

namespace StreamCheck.Network
open Smv

/-- Where an event comes from in the end: from outside, or from an output of a node at some place. -/
inductive Producer where
  | pipe (p : PipeId)
  | output (place : List Node) (p : Port)
deriving DecidableEq, Repr, Inhabited

/-- The chain of instances that leads to a place, outermost first. -/
def address (place : List Node) : List Nat := (place.map Node.id).reverse

def Wire.beneath (path : List Nat) (wire : Wire) : Wire :=
  (Ref.beneath path wire.1, Ref.beneath path wire.2)

def Producer.wire : Producer → Wire
  | pipe p => (.own (.pipeInValue p), .own (.pipeInFire p))
  | output place p => Wire.beneath (address place) (Workspace.outputWire p)

namespace Workspace
variable (w : Workspace) (g : GraphId)

def inputWire (p : Port) : Wire :=
  (.within p.node.id (.inValue p.index), .within p.node.id (.inFire p.index))

inductive Within : List Node → GraphId → Prop
  | top : Within [] g
  | inside {place : List Node} {around inner : GraphId} {group : Node} (h : Within place around)
    (hmem : group ∈ (w.graph around).nodes) (hinner : group.inner? = some inner) :
    Within (group :: place) inner

/-- The output of a leaf that an output of a node passes on; a group's output does so for the inner
output that it is associated with. -/
inductive Drives : List Node → Port → List Node → Port → Prop
  | leaf {place : List Node} {p : Port} (h : p.node.inner? = none) : Drives place p place p
  | group {place place' : List Node} {inner : GraphId} {p q p' : Port}
    (hinner : p.node.inner? = some inner) (hq : (p.index, q) ∈ (w.graph inner).exits)
    (h : Drives (p.node :: place) q place' p') : Drives place p place' p'

/-- The producer that feeds an input of a node at a place: through a connection, from a pipe, or through
the input of the group that the input is associated with. -/
inductive Feeds : List Node → Port → Producer → Prop
  | connection {place place' : List Node} {around : GraphId} {c : Connection} {p p' : Port}
    (hplace : Within w g place around) (hc : c ∈ (w.graph around).connections)
    (hp : c.destination = p) (h : Drives w place c.source place' p') :
    Feeds place p (.output place' p')
  | pipe {e : External} {p : Port} (he : e ∈ (w.graph g).inputs) (hp : e.port = p) :
    Feeds [] p (.pipe e.pipe)
  | group {place : List Node} {inner : GraphId} {group : Node} {i : Nat} {p : Port} {pr : Producer}
    (hinner : group.inner? = some inner) (hp : (i, p) ∈ (w.graph inner).entries)
    (h : Feeds place ⟨group, i⟩ pr) : Feeds (group :: place) p pr

end Workspace

end StreamCheck.Network
