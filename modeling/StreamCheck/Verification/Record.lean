import StreamCheck.Input.Check
import StreamCheck.Verification.Report

/-! Records: everything known about one experiment. The facts of the model come first; checking adds the
verdict, and the statistics add the rest. -/

namespace StreamCheck.Verification
open Input

inductive Status where
  | constructed
  | prerequisitesMissing
  | prerequisitesReady
  | executing
  | done
  | failed
deriving DecidableEq, Repr, Inhabited

namespace Status

def all : List Status :=
  [constructed, prerequisitesMissing, prerequisitesReady, executing, done, failed]

def name : Status → String
  | constructed => "constructed"
  | prerequisitesMissing => "prerequisites_missing"
  | prerequisitesReady => "prerequisites_ready"
  | executing => "executing"
  | done => "done"
  | failed => "failed"

def ofName? (s : String) : Option Status := all.find? (·.name == s)

end Status

/-- What is known about one experiment; numbers that are not known are `-1`. -/
structure Record where
  id : String := ""
  query : String := ""
  property : String := ""
  logic : String := ""
  formula : String := ""
  queueSize : Int := notObserved
  domainSize : Int := notObserved
  k : Option Int := none
  moduleCount : Int := notObserved
  processorCount : Int := notObserved
  variableCount : Int := notObserved
  queueVariableCount : Int := notObserved
  /-- Milliseconds that compiling the model took. -/
  generationTime : Float := -1.0
  /-- Milliseconds that the check took. -/
  time : Float := -1.0
  verdict : Verdict := .unknown
  witnessLength : Int := notObserved
  memory : Int := notObserved
  totalNodes : Int := notObserved
  liveNodes : Int := notObserved
  systemDiameter : Int := notObserved
  reachableStates : Float := -1.0
  totalStates : Float := -1.0
  status : Status := .constructed
  failureReason : String := ""
  completed : Bool := false
deriving Inhabited

inductive Shown where
  | nothing
  | whole (n : Int)
  | real (x : Float)
  | text (s : String)
deriving Inhabited

namespace Record

def unknownText : String := "not observed"

def showWhole (n : Int) : Shown := if n = notObserved then .text unknownText else .whole n

def showReal (x : Float) : Shown := if x == -1.0 then .text unknownText else .real x

def timed (r : Record) : Bool := !(r.time == -1.0)

def generated (r : Record) : Bool := !(r.generationTime == -1.0)

def display (r : Record) : List (String × Shown) :=
  [("query", .text r.query),
   ("property_name", .text r.property),
   ("logic", .text r.logic),
   ("formula", .text r.formula),
   ("queue_size", showWhole r.queueSize),
   ("domain_size", showWhole r.domainSize),
   ("k", r.k.elim .nothing showWhole),
   ("module_count", showWhole r.moduleCount),
   ("processor_count", showWhole r.processorCount),
   ("variable_count", showWhole r.variableCount),
   ("queue_variable_count", showWhole r.queueVariableCount),
   ("generation_time_ms", showReal r.generationTime),
   ("time_ms", showReal r.time),
   ("verdict", .text r.verdict.name),
   ("witness_length", showWhole r.witnessLength),
   ("memory", showWhole r.memory),
   ("total_nodes", showWhole r.totalNodes),
   ("live_nodes", showWhole r.liveNodes),
   ("system_diameter", showWhole r.systemDiameter),
   ("reachable_states", showReal r.reachableStates),
   ("total_states", showReal r.totalStates),
   ("status", .text r.status.name),
   ("failure_reason", .text r.failureReason)]

def ofFormula (facts : Facts) (generationTime : Float) (f : Formula) : Record :=
  { query := facts.query, property := f.property.name, logic := f.logic.name, formula := f.text,
    queueSize := facts.queueSize, domainSize := facts.domainSize, k := facts.k,
    moduleCount := facts.moduleCount, processorCount := facts.processorCount,
    variableCount := facts.variableCount, queueVariableCount := facts.queueVariableCount,
    generationTime }

def withCheck (r : Record) (report : String) : Record :=
  { r with verdict := Report.verdict report, witnessLength := Report.witnessLength report }

def withStatistics (r : Record) (report : String) : Record :=
  { r with
    memory := Report.whole .memory report
    totalNodes := Report.whole .totalNodes report
    liveNodes := Report.whole .liveNodes report
    systemDiameter := Report.whole .diameter report
    reachableStates := Report.real .reachableStates report
    totalStates := Report.real .totalStates report }

def read (d : Datum) : Except (List Issue) Record :=
  let text (key : String) : Form String := Form.defaulted d [] key Check.text ""
  let whole (key : String) : Form Int := Form.defaulted d [] key Check.whole notObserved
  let real (key : String) : Form Float := Form.defaulted d [] key Check.real (-1.0)
  Form.finish do
    let id ← text "id"
    let query ← text "query"
    let property ← text "property_name"
    let logic ← text "logic"
    let formula ← text "formula"
    let queueSize ← whole "queue_size"
    let domainSize ← whole "domain_size"
    let k ← Form.defaulted d [] "k" (Check.optional Check.whole) none
    let moduleCount ← whole "module_count"
    let processorCount ← whole "processor_count"
    let variableCount ← whole "variable_count"
    let queueVariableCount ← whole "queue_variable_count"
    let generationTime ← real "generation_time_ms"
    let time ← real "time_ms"
    let verdict ← Form.defaulted d [] "verdict" (Check.listed Verdict.ofName?) .unknown
    let witnessLength ← whole "witness_length"
    let memory ← whole "memory"
    let totalNodes ← whole "total_nodes"
    let liveNodes ← whole "live_nodes"
    let systemDiameter ← whole "system_diameter"
    let reachableStates ← real "reachable_states"
    let totalStates ← real "total_states"
    let status ← Form.defaulted d [] "status" (Check.listed Status.ofName?) .constructed
    let failureReason ← text "failure_reason"
    Form.defaulted d [] "created_at" Check.moment ()
    let completed ← Form.defaulted d [] "completed_at" (Check.optional Check.moment) none
    return { id, query, property, logic, formula, queueSize, domainSize, k, moduleCount,
             processorCount, variableCount, queueVariableCount, generationTime, time, verdict,
             witnessLength, memory, totalNodes, liveNodes, systemDiameter, reachableStates,
             totalStates, status, failureReason, completed := completed.isSome }

end Record

end StreamCheck.Verification
