/-! The temporal properties that can be checked, and the logics they are stated in. -/

namespace StreamCheck

inductive Logic where
  | ctl
  | ltl
deriving DecidableEq, Repr, Inhabited

namespace Logic

def all : List Logic := [ctl, ltl]

def name : Logic → String
  | ctl => "CTL"
  | ltl => "LTL"

def ofName? (s : String) : Option Logic := all.find? (·.name == s)

def keyword (l : Logic) : String := l.name ++ "SPEC"

end Logic

inductive Property where
  | xStaysNull
  | noFullQueues
  | liveness
  | boundedLiveness
  | outputAlwaysEven
  | outputAlwaysTrue
  | stepEquivalence
  | sequenceEquivalence
deriving DecidableEq, Repr, Inhabited

namespace Property

def all : List Property :=
  [xStaysNull, noFullQueues, liveness, boundedLiveness, outputAlwaysEven, outputAlwaysTrue,
    stepEquivalence, sequenceEquivalence]

def name : Property → String
  | xStaysNull => "x stays null"
  | noFullQueues => "No full queues"
  | liveness => "Liveness"
  | boundedLiveness => "Bounded liveness"
  | outputAlwaysEven => "Output always even"
  | outputAlwaysTrue => "Output always true"
  | stepEquivalence => "Step-wise equivalence"
  | sequenceEquivalence => "Sequence equivalence"

def ofName? (s : String) : Option Property := all.find? (·.name == s)

def isEquivalence (p : Property) : Bool := p == stepEquivalence || p == sequenceEquivalence

def logic : Property → Logic
  | xStaysNull | noFullQueues | outputAlwaysEven => .ctl
  | _ => .ltl

def label : Property → String
  | xStaysNull => "XStaysNull"
  | noFullQueues => "NoFullQueues"
  | liveness => "Liveness"
  | boundedLiveness => "BoundedLiveness"
  | outputAlwaysEven => "OutputAlwaysEven"
  | outputAlwaysTrue => "OutputAlwaysTrue"
  | stepEquivalence => "StepEquivalence"
  | sequenceEquivalence => "SequenceEquivalence"

def ofLabel? (s : String) : Option Property := all.find? (·.label == s)

end Property

end StreamCheck
