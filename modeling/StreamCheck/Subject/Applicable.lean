import StreamCheck.Subject.Basic

/-! Which formula states a property of a subject. A property that has nothing to speak of there does
not apply and has no formula. -/

namespace StreamCheck

def unlessEmpty {α β : Type} (xs : List α) (b : β) : Option β :=
  if xs.isEmpty then none else some b

def Property.overGraph? (p : Property) (c : CompiledGraph) : Option Formula :=
  match p with
  | xStaysNull => none
  | noFullQueues => some (.noFullQueues c.queueFlags)
  | liveness => unlessEmpty c.outputs (.liveness c.inputs c.outputs)
  | boundedLiveness => unlessEmpty c.outputs (.boundedLiveness c.inputs c.outputs)
  | outputAlwaysEven =>
    let integers := c.outputs.filter fun n => !c.booleanOutputs.contains n
    unlessEmpty integers (.outputAlwaysEven integers)
  | outputAlwaysTrue => unlessEmpty c.booleanOutputs (.outputAlwaysTrue c.booleanOutputs)
  | stepEquivalence => some (.stepEquivalence c.outputs)
  | sequenceEquivalence => unlessEmpty c.booleanOutputs (.sequenceEquivalence c.booleanOutputs)

/-- The formula of a property over a subject: of the counter only that it stays at zero. -/
def Property.formula? (p : Property) (s : Subject) : Option Formula :=
  match s with
  | .network c => p.overGraph? c
  | .counter .. => if p = xStaysNull then some .xStaysNull else none

def Formula.named? (name : String) (s : Subject) : Option Formula :=
  (Property.ofName? name).bind (·.formula? s)

/-! ### Formulas over what is listed of a model

What a model has of one kind is a set, and a list gives it some order. -/

/-- What a formula may speak of, everything in some order. -/
structure Inventory where
  flags : List QueueFlags
  inputs : List Int
  outputs : List Int
  /-- The pipes that take truth values out. -/
  booleans : List Int
  /-- The pipes that take numbers out. -/
  integers : List Int
deriving Repr, Inhabited

def CompiledGraph.inventory (c : CompiledGraph) : Inventory where
  flags := c.queueFlags
  inputs := c.inputs
  outputs := c.outputs
  booleans := c.booleanOutputs
  integers := c.outputs.filter fun n => !c.booleanOutputs.contains n

def Property.over? (p : Property) (i : Inventory) : Option Formula :=
  match p with
  | xStaysNull => none
  | noFullQueues => some (.noFullQueues i.flags)
  | liveness => unlessEmpty i.outputs (.liveness i.inputs i.outputs)
  | boundedLiveness => unlessEmpty i.outputs (.boundedLiveness i.inputs i.outputs)
  | outputAlwaysEven => unlessEmpty i.integers (.outputAlwaysEven i.integers)
  | outputAlwaysTrue => unlessEmpty i.booleans (.outputAlwaysTrue i.booleans)
  | stepEquivalence => some (.stepEquivalence i.outputs)
  | sequenceEquivalence => unlessEmpty i.booleans (.sequenceEquivalence i.booleans)

namespace Inventory

def text? (i : Inventory) (name : String) : Option String :=
  ((Property.ofName? name).bind (·.over? i)).map Formula.text

/-- What one inventory lists another one lists too, each kind in an order of its own. -/
structure SameUpToOrder (i j : Inventory) : Prop where
  flags : i.flags.Perm j.flags
  inputs : i.inputs.Perm j.inputs
  outputs : i.outputs.Perm j.outputs
  booleans : i.booleans.Perm j.booleans
  integers : i.integers.Perm j.integers

end Inventory

end StreamCheck
