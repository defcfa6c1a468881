import StreamCheck.Pipeline.Configuration
import StreamCheck.Verification.Record

/-! Summaries over many records: how large the models were, and which check took longest. -/

namespace StreamCheck.Verification
open Pipeline

structure ModelSummary where
  minProcessors : Int := 0
  maxProcessors : Int := 0
  maxVariables : Int := 0
  maxModules : Int := 0
  maxQueueSize : Int := 0
  maxDomainSize : Int := 0
  modelCount : Nat := 0
deriving DecidableEq, Repr, Inhabited

structure TimeSummary where
  maxTime : Float := 0.0
  maxQuery : String := ""
  maxProperty : String := ""
deriving Inhabited

namespace Summary

def key (r : Record) : Key := ⟨r.query, r.queueSize, r.domainSize, r.k, r.property⟩

def ofPipeline (r : Record) : Bool := r.processorCount != notObserved

/-- Keys of which no two stand for one pipeline. -/
def distinct (keys : List Key) : List Key :=
  keys.foldl (fun seen k => if seen.any (·.matches? k) then seen else seen ++ [k]) []

def greatest (number : Record → Int) (r : Record) (rs : List Record) : Int :=
  rs.foldl (fun n x => max n (number x)) (number r)

def least (number : Record → Int) (r : Record) (rs : List Record) : Int :=
  rs.foldl (fun n x => min n (number x)) (number r)

/-- Sizes over the records of pipelines; without any, everything is zero. -/
def models (records : List Record) : ModelSummary :=
  match records.filter ofPipeline with
  | [] => {}
  | r :: rs =>
    { minProcessors := least Record.processorCount r rs
      maxProcessors := greatest Record.processorCount r rs
      maxVariables := greatest Record.variableCount r rs
      maxModules := greatest Record.moduleCount r rs
      maxQueueSize := greatest Record.queueSize r rs
      maxDomainSize := greatest Record.domainSize r rs
      modelCount := (distinct ((r :: rs).map key)).length }

/-- The slowest of the finished experiments; of several equally slow ones the first. -/
def times (records : List Record) : TimeSummary :=
  records.foldl (fun s r =>
    if r.status = .done ∧ s.maxTime < r.time then ⟨r.time, r.query, r.property⟩ else s) {}

end Summary

end StreamCheck.Verification
