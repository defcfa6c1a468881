import StreamCheck.Formula.Property

/-! Configurations: one point of the benchmark, and the key under which its pipeline is kept. The queries are the
pipelines that can be asked for by name. -/

namespace StreamCheck.Pipeline

inductive Query where
  /-- The counter, which is no pipeline. -/
  | dummy
  | passthrough
  | product
  | productOfFirst
  | productWindow
  | sumOfOnes
  | sumOfDoubles
  | outputIfSmaller
  | compareWindowSum2
  | compareWindowSum3
  | comparePassthroughDelay
deriving DecidableEq, Repr, Inhabited

namespace Query

def all : List Query :=
  [dummy, passthrough, product, productOfFirst, productWindow, sumOfOnes, sumOfDoubles,
    outputIfSmaller, compareWindowSum2, compareWindowSum3, comparePassthroughDelay]

def name : Query → String
  | dummy => "Dummy"
  | passthrough => "Passthrough"
  | product => "Product"
  | productOfFirst => "Product of 1 and k-th"
  | productWindow => "Sum of window of width 3"
  | sumOfOnes => "Sum of 1s on window"
  | sumOfDoubles => "Sum of doubles"
  | outputIfSmaller => "Output if smaller than k"
  | compareWindowSum2 => "Window sum of 2 comparison"
  | compareWindowSum3 => "Window sum of 3 comparison"
  | comparePassthroughDelay => "Passthrough vs delay comparison"

def ofName? (s : String) : Option Query := all.find? (·.name == s)

/-- Whether the query sets two different pipelines against each other. -/
def isComparison : Query → Bool
  | compareWindowSum2 | compareWindowSum3 | comparePassthroughDelay => true
  | _ => false

end Query

/-- Which query, at which sizes, under which property. Names need not be known ones. -/
structure Configuration where
  query : String
  domain : Int
  queue : Int
  /-- Width, interval, threshold or delay; none and numbers below one leave it to the query. -/
  k : Option Int := none
  property : String := Property.noFullQueues.name
  domain_pos : 0 < domain
  queue_pos : 0 < queue
deriving DecidableEq, Repr

instance : Inhabited Configuration :=
  ⟨{ query := "", domain := 1, queue := 1, domain_pos := by decide, queue_pos := by decide }⟩

inductive Wiring where
  /-- The outputs of both branches leave the pipeline. -/
  | stepwise
  /-- A node compares the outputs, and its result leaves the pipeline. -/
  | sequence
deriving DecidableEq, Repr, Inhabited

def Wiring.name : Wiring → String
  | stepwise => "stepwise"
  | sequence => "sequence"

def isComparisonQuery (query : String) : Bool :=
  match Query.ofName? query with
  | some q => q.isComparison
  | none => false

def isEquivalence (property : String) : Bool :=
  match Property.ofName? property with
  | some p => p.isEquivalence
  | none => false

def isComparisonStyle (query property : String) : Bool :=
  isEquivalence property || isComparisonQuery query

/-- The wiring that a query under a property needs; none for a plain pipeline. -/
def wiring? (query property : String) : Option Wiring :=
  if property = Property.stepEquivalence.name then some .stepwise
  else if property = Property.sequenceEquivalence.name then some .sequence
  else if isComparisonQuery query then
    if property = Property.outputAlwaysTrue.name then some .sequence else some .stepwise
  else none

namespace Configuration

def shape (c : Configuration) : Option Int := c.k.filter fun k => decide (0 < k)

def wiring? (c : Configuration) : Option Wiring := Pipeline.wiring? c.query c.property

end Configuration

/-- What tells the pipeline of one configuration from that of another. -/
structure Key where
  query : String
  queue : Int
  domain : Int
  shape : Option Int
  property : String
deriving DecidableEq, Repr, Inhabited

namespace Key

def ofConfiguration (c : Configuration) : Key := ⟨c.query, c.queue, c.domain, c.shape, c.property⟩

def comparisonStyle (k : Key) : Bool := isComparisonStyle k.query k.property

/-- Whether two keys stand for one pipeline: the property counts only where it decides how branches
are exposed. -/
def matches? (a b : Key) : Bool :=
  a.query == b.query && a.queue == b.queue && a.domain == b.domain && a.shape == b.shape &&
    (if a.comparisonStyle || b.comparisonStyle then a.property == b.property else true)

end Key

end StreamCheck.Pipeline
