import StreamCheck.Input.Check
import StreamCheck.Pipeline.Configuration

/-! Reading a configuration from data, where the property may stand under either of two keys and the shorter one counts
when both are there; and assigning to a configuration. Its fields do not change one by one. All of them together may be
replaced, and what replaces them is not checked. -/

namespace StreamCheck.Pipeline
open Input

/-! ### Reading -/

namespace Configuration

/-- The property by name; by default that no queue is full. -/
def readProperty (d : Datum) : Form String :=
  match d.field? "property" with
  | some v => Form.given ["property"] Check.text v
  | none => Form.defaulted d [] "property_name" Check.text Property.noFullQueues.name

def read (d : Datum) : Except (List Issue) Configuration :=
  Form.finish do
    let query ← Form.required d [] "query" Check.text
    let domain ← Form.required d [] "domain_size" Check.positive
    let queue ← Form.required d [] "queue_size" Check.positive
    let k ← Form.defaulted d [] "k" (Check.optional Check.whole) none
    let property ← readProperty d
    return ⟨query, domain, queue, k, property, domain.2, queue.2⟩

end Configuration

/-! ### Assigning -/

inductive Target where
  /-- A field, or what could be one. -/
  | field
  /-- A place beside the fields; what is put there is not seen again. -/
  | aside
  /-- All fields together. -/
  | fields
  /-- What a configuration is. -/
  | kind
  /-- Something that is only read. -/
  | fixed
deriving DecidableEq, Repr, Inhabited

namespace Target

/-- What a name stands for that has no meaning of its own. No field's name begins with an underscore. -/
def ofName (name : String) : Target := if name.startsWith "_" then aside else field

end Target

inductive AssignmentFault where
  | issue (issue : Issue)
  /-- A value is of a kind that does not go there. -/
  | wrongKind
  /-- There is nothing of that name to write, or to read. -/
  | noPlace
deriving DecidableEq, Repr, Inhabited

namespace Configuration

def fields (c : Configuration) : Datum :=
  .mapping [("query", .text c.query), ("domain_size", .whole c.domain),
    ("queue_size", .whole c.queue), ("k", c.k.elim .null .whole), ("property_name", .text c.property)]

def assign (target : Target) (name : String) (v fields : Datum) : Except AssignmentFault Datum :=
  match target, v with
  | .field, _ => .error (.issue ⟨[name], .unchangeable⟩)
  | .aside, _ => .ok fields
  | .fields, .mapping fs => .ok (.mapping fs)
  | .fields, _ | .kind, _ => .error .wrongKind
  | .fixed, _ => .error .noPlace

def assignAll (targetOf : String → Target) (values : List (String × Datum)) (fields : Datum) :
    Except AssignmentFault Datum :=
  values.foldlM (fun fs (name, v) => assign (targetOf name) name v fs) fields

end Configuration

/-- What a configuration says, whatever its fields are. -/
structure Profile where
  query : Datum
  domain : Datum
  queue : Datum
  k : Datum
  shape : Datum
  property : Datum
  comparisonStyle : Bool
  comparisonQuery : Bool
  wiring : Option Wiring
deriving Inhabited

namespace Profile

/-- The shape that a number asks for. Only numbers compare with zero. -/
def shapeOf (k : Datum) : Except AssignmentFault Datum :=
  match k with
  | .null => .ok .null
  | .whole n => .ok (if 0 < n then k else .null)
  | .truth b => .ok (if b then k else .null)
  | .real x => .ok (if x <= 0.0 then .null else k)
  | _ => .error .wrongKind

/-- The name that a value is; what is no text is the name of nothing. -/
def nameOf : Datum → String
  | .text s => s
  | _ => ""

def ofFields (fields : Datum) : Except AssignmentFault Profile := do
  let query ← part "query"
  let domain ← part "domain_size"
  let queue ← part "queue_size"
  let k ← part "k"
  let shape ← shapeOf k
  let property ← part "property_name"
  return {
    query, domain, queue, k, shape, property
    comparisonStyle := isComparisonStyle (nameOf query) (nameOf property)
    comparisonQuery := isComparisonQuery (nameOf query)
    wiring := Pipeline.wiring? (nameOf query) (nameOf property) }
where
  part (name : String) : Except AssignmentFault Datum :=
    (fields.field? name).elim (.error .noPlace) .ok

end Profile

end StreamCheck.Pipeline
