import StreamCheck.Network.Build

/-! Sections: the pipelines from an entry to an exit, each wired port by port into a graph that is
given. A section that makes no sense over the graph's domain is not built. -/

namespace StreamCheck.Pipeline
open Network

structure Section where
  entry : Node
  exit : Node
  shape : Option Int := none
deriving DecidableEq, Repr, Inhabited

/-- Builds a section into a graph for the shape that is asked for, if it can be built there. -/
abbrev Creator := GraphId → Option Int → Build (Option Section)

namespace Creator

def defaultShape : Int := 3

def defaultDelay : Int := 1

/-- The shape that is asked for if it is positive, else the query's own. -/
def effective (shape : Option Int) (otherwise : Int) : Int :=
  match shape with
  | some k => if 0 < k then k else otherwise
  | none => otherwise

def wire (g : GraphId) (a : Node) (output : Int) (b : Node) (input : Int) : Build Unit :=
  discard (Build.connect g a output b input)

def passthrough : Creator := fun g _ => do
  let node ← Build.passthrough .integer
  Build.add g [node]
  return some { entry := node, exit := node }

def product : Creator := fun g _ => do
  let node ← Build.cumulate .multiplication
  Build.add g [node]
  return some { entry := node, exit := node }

/-- Multiplies each event by the last one of rank 1, k+1, 2k+1, and so on. -/
def productOfFirst : Creator := fun g shape => do
  let k := effective shape defaultShape
  let fork ← Build.fork 2 .integer
  let mul ← Build.apply .multiplication .integer
  let dec ← Build.decimate k .integer
  Build.add g [fork, mul, dec]
  wire g fork 0 mul 0
  wire g fork 1 dec 0
  wire g dec 0 mul 1
  return some ⟨fork, mul, some k⟩

def productWindow : Creator := fun g shape => do
  let k := effective shape defaultShape
  let fold ← Build.cumulate .multiplication
  let win ← Build.window fold k
  Build.add g [win]
  return some ⟨win, win, some k⟩

/-- Counts the events and multiplies the counts of the last k; it needs the constant 1. -/
def sumOfOnes : Creator := fun g shape => do
  if (← Build.graph g).domain < 2 then return none
  let k := effective shape defaultShape
  let one ← Build.constant (.number 1) .integer
  let total ← Build.cumulate .addition
  let fold ← Build.cumulate .multiplication
  let win ← Build.window fold k
  Build.add g [one, total, win]
  wire g one 0 total 0
  wire g total 0 win 0
  return some ⟨one, win, some k⟩

/-- Adds up twice each event; it needs the constant 2. -/
def sumOfDoubles : Creator := fun g _ => do
  if (← Build.graph g).domain < 3 then return none
  let fork ← Build.fork 2 .integer
  let mul ← Build.apply .multiplication .integer
  let two ← Build.constant (.number 2) .integer
  let total ← Build.cumulate .addition
  Build.add g [fork, mul, two, total]
  wire g fork 0 mul 0
  wire g fork 1 two 0
  wire g two 0 mul 1
  wire g mul 0 total 0
  return some { entry := fork, exit := total }

/-- Lets events through while a running count of them is at most k; it needs the constant k. -/
def outputIfSmaller : Creator := fun g shape => do
  let k := effective shape defaultShape
  if (← Build.graph g).domain ≤ k then return none
  let fork ← Build.fork 3 .integer
  let filt ← Build.filter .integer
  let turnK ← Build.constant (.number k) .integer
  let turn1 ← Build.constant (.number 1) .integer
  let count ← Build.cumulate .addition
  let gte ← Build.apply .isGreaterOrEqual .integer
  Build.add g [fork, filt, turnK, turn1, count, gte]
  wire g fork 0 filt 0
  wire g fork 1 turnK 0
  wire g fork 2 turn1 0
  wire g turn1 0 count 0
  wire g turnK 0 gte 0
  wire g count 0 gte 1
  wire g gte 0 filt 1
  return some ⟨fork, filt, some k⟩

def windowSum (width : Int) : Creator := fun g _ => do
  let fold ← Build.cumulate .addition
  let win ← Build.window fold width
  Build.add g [win]
  return some { entry := win, exit := win }

/-- Adds each event to the next one, with one trimmed copy of the stream. -/
def trimSum2 : Creator := fun g _ => do
  let fork ← Build.fork 2 .integer
  let trim1 ← Build.trim 1 .integer
  let add1 ← Build.apply .addition .integer
  Build.add g [fork, trim1, add1]
  wire g fork 0 add1 0
  wire g fork 1 trim1 0
  wire g trim1 0 add1 1
  return some { entry := fork, exit := add1 }

def trimSum3 : Creator := fun g _ => do
  let fork ← Build.fork 3 .integer
  let trim1 ← Build.trim 1 .integer
  let add1 ← Build.apply .addition .integer
  let trim2 ← Build.trim 2 .integer
  let add2 ← Build.apply .addition .integer
  Build.add g [fork, trim1, add1, trim2, add2]
  wire g fork 0 add1 0
  wire g fork 1 trim1 0
  wire g trim1 0 add1 1
  wire g fork 2 trim2 0
  wire g add1 0 add2 0
  wire g trim2 0 add2 1
  return some { entry := fork, exit := add2 }

def delay : Creator := fun g shape => do
  let k := effective shape defaultDelay
  let trim ← Build.trim k .integer
  Build.add g [trim]
  return some ⟨trim, trim, some k⟩

end Creator

end StreamCheck.Pipeline
