import StreamCheck.Pipeline.Configuration
import StreamCheck.Pipeline.Section

/-! The catalog: what each query is made of, and how the graph of a configuration is assembled. A plain
pipeline stands in the graph itself. Of a comparison each branch stands in a group of its own, a fork
feeds both, and the two outputs either leave or are compared. -/

namespace StreamCheck.Pipeline
open Network

/-- What a query is made of: its section, or the two that it compares. -/
structure Recipe where
  first : Creator
  second : Option Creator := none
  /-- The file that shows the pipeline. -/
  image : Option String := none

structure Assembly where
  query : String
  graph : GraphId
  shape : Option Int
  wiring : Option Wiring := none
deriving DecidableEq, Repr, Inhabited

namespace Recipe

def isComparison (e : Recipe) : Bool := e.second.isSome

def creatorCount (e : Recipe) : Nat := if e.isComparison then 2 else 1

end Recipe

/-- What a query is made of; the counter is no pipeline. -/
def Query.recipe? : Query → Option Recipe
  | dummy => none
  | passthrough => some ⟨Creator.passthrough, none, some "Passthrough.png"⟩
  | product => some ⟨Creator.product, none, some "Product.png"⟩
  | productOfFirst => some ⟨Creator.productOfFirst, none, some "Product1_k.png"⟩
  | productWindow => some ⟨Creator.productWindow, none, some "ProductWindow_k.png"⟩
  | sumOfOnes => some ⟨Creator.sumOfOnes, none, some "SumOfOnesWindow_k.png"⟩
  | sumOfDoubles => some ⟨Creator.sumOfDoubles, none, some "SumOfDoubles.png"⟩
  | outputIfSmaller => some ⟨Creator.outputIfSmaller, none, some "OutputIfSmallerThan_k.png"⟩
  | compareWindowSum2 =>
    some ⟨Creator.windowSum 2, some Creator.trimSum2, some "CompareWindowSum2.png"⟩
  | compareWindowSum3 =>
    some ⟨Creator.windowSum 3, some Creator.trimSum3, some "CompareWindowSum3.png"⟩
  | comparePassthroughDelay => some ⟨Creator.passthrough, some Creator.delay, none⟩

namespace Catalog

def queries : List Query := Query.all.filter fun q => q.recipe?.isSome

def recipe? (query : String) : Option Recipe := (Query.ofName? query).bind Query.recipe?

def imageUrl? (query : String) : Option String :=
  ((recipe? query).bind Recipe.image).map ("/resource/" ++ ·)

/-- A section inside a group of its own, wired to the ports of the group. -/
def branch (g : GraphId) (create : Creator) (shape : Option Int) :
    Build (Option (Node × Section)) := do
  let graph ← Build.graph g
  let group ← Build.group graph.domain graph.queue 1 1
  match group.inner? with
  | none => return none
  | some inner =>
    match ← create inner shape with
    | none => return none
    | some part =>
      Build.associate group .input 0 part.entry 0
      Build.associate group .output 0 part.exit 0
      return some (group, part)

/-- Two groups fed by one fork, with their outputs exposed as the wiring says. -/
def join (g : GraphId) (first second : Node) (wiring : Wiring) : Build Unit := do
  let fork ← Build.fork 2 .integer
  Build.add g [fork, first, second]
  Creator.wire g fork 0 first 0
  Creator.wire g fork 1 second 0
  discard (Build.expose g .input fork 0)
  match wiring with
  | .stepwise =>
    discard (Build.expose g .output first 0)
    discard (Build.expose g .output second 0)
  | .sequence =>
    let equals ← Build.apply .equals (← Build.portType first .output 0)
    Build.add g [equals]
    Creator.wire g first 0 equals 0
    Creator.wire g second 0 equals 1
    discard (Build.expose g .output equals 0)

def assemblePlain (g : GraphId) (create : Creator) (shape : Option Int) :
    Build (Option (Option Int)) := do
  match ← create g shape with
  | none => return none
  | some part =>
    discard (Build.expose g .input part.entry 0)
    discard (Build.expose g .output part.exit 0)
    return some part.shape

/-- Two sections side by side; the shape that the first of them was given that has one. -/
def assembleBranches (g : GraphId) (first second : Creator) (shape : Option Int)
    (wiring : Wiring) : Build (Option (Option Int)) := do
  match ← branch g first shape with
  | none => return none
  | some (a, left) =>
    match ← branch g second shape with
    | none => return none
    | some (b, right) =>
      join g a b wiring
      return some (left.shape <|> right.shape)

/-- The graph of a configuration; none if the query is unknown or does not fit the domain. -/
def assemble (c : Configuration) : Build (Option Assembly) := do
  match recipe? c.query with
  | none => return none
  | some recipe =>
    let g ← Build.newGraph c.domain c.queue
    let shape ← match c.wiring? with
      | none => assemblePlain g recipe.first c.shape
      | some wiring =>
        assembleBranches g recipe.first (recipe.second.getD recipe.first) c.shape wiring
    match shape with
    | none => return none
    | some shape =>
      Build.validate g
      return some ⟨c.query, g, shape, c.wiring?⟩

end Catalog

end StreamCheck.Pipeline
