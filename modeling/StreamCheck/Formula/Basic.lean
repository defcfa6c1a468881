import StreamCheck.Formula.Property
import StreamCheck.Smv.Expr
import StreamCheck.Smv.Module
import StreamCheck.Text.Printable

/-! Formulas: a property stated over the pipes and queues of one model. Pipes are taken in ascending
order, queues in the order of their names. -/

namespace StreamCheck
open Smv

/-- The flags of one queue: which of its slots are taken. -/
structure QueueFlags where
  name : Ref
  size : Int
deriving DecidableEq, Repr, Inhabited

def QueueFlags.full (q : QueueFlags) : Expr := .slot q.name (q.size - 1)

/-- A property together with the pipes or queues that it speaks of. -/
inductive Formula where
  | xStaysNull
  | noFullQueues (flags : List QueueFlags)
  | liveness (inputs outputs : List Int)
  | boundedLiveness (inputs outputs : List Int)
  | outputAlwaysEven (outputs : List Int)
  | outputAlwaysTrue (outputs : List Int)
  | stepEquivalence (outputs : List Int)
  | sequenceEquivalence (outputs : List Int)
deriving DecidableEq, Repr, Inhabited

namespace Formula

def property : Formula → Property
  | xStaysNull => .xStaysNull
  | noFullQueues _ => .noFullQueues
  | liveness _ _ => .liveness
  | boundedLiveness _ _ => .boundedLiveness
  | outputAlwaysEven _ => .outputAlwaysEven
  | outputAlwaysTrue _ => .outputAlwaysTrue
  | stepEquivalence _ => .stepEquivalence
  | sequenceEquivalence _ => .sequenceEquivalence

def logic (f : Formula) : Logic := f.property.logic

def ascending (pipes : List Int) : List Int := pipes.mergeSort fun a b => decide (a ≤ b)

/-- Queues in the order of their names; queues of one name keep their order. -/
def byName (flags : List QueueFlags) : List QueueFlags :=
  flags.mergeSort fun a b => !decide (b.name.text < a.name.text)

def arrives (pipe : Int) : Expr := .own (.pipeInFire pipe)

def fires (pipe : Int) : Expr := .own (.pipeOutFire pipe)

def value (pipe : Int) : Expr := .own (.pipeOutValue pipe)

def someFull (q : QueueFlags) (qs : List QueueFlags) : Expr :=
  (qs.map QueueFlags.full).foldl (.binary .or) q.full

def allArrive : List Int → Expr
  | [] => .bool true
  | [n] => arrives n
  | ns => .paren (Expr.conj (ns.map arrives))

def whenever (inputs : List Int) (response : Temporal) : Temporal :=
  .always (.paren (.implies (.now (allArrive (ascending inputs))) response))

def firesEventually (pipe : Int) : Temporal := .eventually (.now (fires pipe))

def firesWithinTwo (pipe : Int) : Temporal :=
  .paren (.or (.now (fires pipe)) (.next (.paren (.or (.now (fires pipe))
    (.next (.now (fires pipe)))))))

def carriesEven (pipe : Int) : Temporal :=
  .invariably (.paren (.now (.binary .implies (fires pipe)
    (.binary .eq (.binary .mod (value pipe) (.num 2)) (.num 0)))))

def carriesTrue (pipe : Int) : Temporal :=
  .always (.paren (.now (.binary .implies (fires pipe) (value pipe))))

/-- Two pipes fire in the same states and then carry the same value. -/
def agree (left right : Int) : Temporal :=
  .always (.paren (.now (.binary .and (.binary .eq (fires left) (fires right))
    (.paren (.binary .implies (fires left) (.binary .eq (value left) (value right)))))))

def pairwiseAgree : List Int → List Temporal
  | [] => []
  | left :: rest => rest.map (agree left) ++ pairwiseAgree rest

def counterStaysZero : Temporal :=
  let zeroNow : Temporal := .now (.binary .eq (.own (.other "x")) (.num 0))
  .invariably (.paren (.implies zeroNow (.invariably (.paren zeroNow))))

/-- The statement of the formula; nothing where there is nothing to state. -/
def statement? : Formula → Option Temporal
  | xStaysNull => some counterStaysZero
  | noFullQueues flags =>
    match byName flags with
    | [] => none
    | q :: qs => some (.not (.paren (.possibly (.paren (.now (someFull q qs))))))
  | liveness inputs outputs =>
    Temporal.conj? ((ascending outputs).map fun n => whenever inputs (firesEventually n))
  | boundedLiveness inputs outputs =>
    Temporal.conj? ((ascending outputs).map fun n => whenever inputs (firesWithinTwo n))
  | outputAlwaysEven outputs => Temporal.conj? ((ascending outputs).map carriesEven)
  | outputAlwaysTrue outputs => Temporal.conj? ((ascending outputs).map carriesTrue)
  | sequenceEquivalence outputs => Temporal.conj? ((ascending outputs).map carriesTrue)
  | stepEquivalence outputs => Temporal.conj? (pairwiseAgree (ascending outputs))

/-- The formula as it is written below a model: a statement ends with a semicolon, and where there
is nothing to state `TRUE` stands alone. -/
def text (f : Formula) : String :=
  match f.statement? with
  | none => "TRUE"
  | some t => t.text ++ ";"

def isWritable : Formula → Bool
  | noFullQueues flags => flags.all fun q => Smv.isWritable (q.size - 1)
  | _ => true

def summary (f : Formula) : String :=
  "<" ++ f.property.label ++ " " ++ f.logic.name ++ ": " ++ Text.quote f.text ++ ">"

end Formula

end StreamCheck
