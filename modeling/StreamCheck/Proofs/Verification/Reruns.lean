import Mathlib.Data.List.Induction
import StreamCheck.Proofs.Verification.Fates
import StreamCheck.Verification.Rerun

/-! What several runs of one experiment leave in its record. A run lays a trail that depends on the scene alone; it
covers only a part of what earlier runs have left. -/

namespace StreamCheck.Verification

namespace Record

/-- The record of a run that breaks off. A failure of the experiment's own is noted, no other one is. -/
def broken (r : Record) (f : Failure) : Record :=
  if f.isOwn then { r with status := .failed, failureReason := f.message, completed := true } else r

def withRun (r : Record) (run : CheckerRun) : Record := { r with time := run.elapsed }.withCheck run.output

end Record

/-- How far a run comes, and what the calls report on the way. -/
inductive Trail where
  /-- It breaks off before the first call has reported. -/
  | unchecked (failure : Failure)
  | checked (check : CheckerRun) (failure : Failure)
  | done (check stats : CheckerRun)

def Trail.note (r : Record) : Trail → Record
  | unchecked failure => { r with status := .executing }.broken failure
  | checked check failure => ({ r with status := .executing }.withRun check).broken failure
  | done check stats => { (r.withRun check).withStatistics stats.output with status := .done, completed := true }

namespace Experiment
open Progress
variable {e : Experiment} {c : Checker} {s t : Scene} {r : Record} {f : FileName} {failure : Failure}

theorem after_of_ok {after : Running} (h : (e.run c).run ⟨s, r⟩ = .ok () after) : e.after c r s = after.record := by
  simp only [EStateM.run] at h
  rw [Experiment.after, h]

theorem after_of_error {after : Running} (h : (e.execute c).run ⟨s, r⟩ = .error failure after) :
    e.after c r s = after.record.broken failure := by
  cases hown : failure.isOwn with
  | true =>
    rw [after_of_ok (run_run_of_error h hown), Record.broken, if_pos hown]
  | false =>
    simp only [EStateM.run] at h
    rw [Experiment.after, Experiment.run, h, Record.broken]
    simp [hown]

theorem phases_run_of_error (h : (c.run .check f).run s = .error failure t) :
    (phases c f).run ⟨s, r⟩ = .error failure ⟨t, r⟩ :=
  run_bind_error (act_run_of_error h)

theorem phases_run_of_ok {check : CheckerRun} (h : (c.run .check f).run s = .ok check t) :
    (phases c f).run ⟨s, r⟩ = (act (c.run .stats f) >>= noteStatistics).run ⟨t, r.withRun check⟩ := by
  have hnote : (noteCheck check).run ⟨t, r⟩ = .ok () ⟨t, r.withRun check⟩ := rfl
  rw [phases, run_bind_ok (act_run_of_ok h), run_bind_ok hnote]

theorem exists_trail (e : Experiment) (c : Checker) (s : Scene) : ∃ trail : Trail, ∀ r, e.after c r s = trail.note r := by
  by_cases hbatches : s.fate.batches
  swap
  · obtain ⟨reason, -, hprepare⟩ := e.prepare_run_of_not_batches c hbatches
    exact ⟨.unchecked (.batchNotWritten ⟨c.work, reason⟩), fun r => after_of_error (run_bind_error (hprepare r))⟩
  by_cases hmodel : s.fate.model
  swap
  · obtain ⟨reason, -, hprepare⟩ := e.prepare_run_of_not_model c hbatches hmodel
    exact ⟨.unchecked (.modelNotWritten ⟨c.path (.model s.nextModel), reason⟩), fun r =>
      after_of_error (run_bind_error (hprepare r))⟩
  have hprepare (r : Record) := e.prepare_run_of_written c (r := r) hbatches hmodel
  -- the two calls are steps of the scene, whatever record they are made for
  cases hcheck : (c.run .check (.model s.nextModel)).run (e.prepared s) with
  | error failure t =>
    exact ⟨.unchecked failure, fun r => after_of_error (execute_run_of_error (hprepare r) (phases_run_of_error hcheck))⟩
  | ok check t =>
    cases hstats : (c.run .stats (.model s.nextModel)).run t with
    | error failure t' =>
      refine ⟨.checked check failure, fun r => ?_⟩
      have hphases := (phases_run_of_ok (r := { r with status := .executing }) hcheck).trans
        (run_bind_error (act_run_of_error hstats))
      exact after_of_error (execute_run_of_error (hprepare r) hphases)
    | ok stats t' =>
      refine ⟨.done check stats, fun r => ?_⟩
      have hphases := (phases_run_of_ok (r := { r with status := .executing }) hcheck).trans
        (run_bind_ok (act_run_of_ok hstats))
      exact after_of_ok (run_run_of_ok (execute_run_of_ok (hprepare r) hphases))

end Experiment

/-! ### What a trail covers -/

theorem natCast_bne_notObserved (n : Nat) : ((n : Int) != notObserved) = true := by
  have hlt : notObserved < 0 := by decide
  rw [bne_iff_ne]
  omega

/-- A trail covers what a record says as far as it notes something over a record that says nothing. -/
theorem Trail.findings_note {new : Record} (hreason : new.failureReason = "") (hlength : new.witnessLength = notObserved)
    (r : Record) (trail : Trail) : (trail.note r).findings = (trail.note new).findings.over r.findings := by
  cases trail with
  | unchecked failure =>
    have hmessage : failure.isOwn = true → failure.message ≠ "" := Failure.message_ne_empty
    cases hown : failure.isOwn <;>
      simp [note, Record.broken, Record.findings, Findings.over, Checked.reported, Record.timed, hown, hreason, hlength,
        hmessage]
  | checked check failure =>
    have hmessage : failure.isOwn = true → failure.message ≠ "" := Failure.message_ne_empty
    have hreported := natCast_bne_notObserved (Report.witnessLength check.output)
    cases hown : failure.isOwn <;>
      simp [note, Record.broken, Record.withRun, Record.withCheck, Record.findings, Findings.over, Checked.reported,
        Record.timed, hown, hreason, hreported, hmessage]
  | done check stats =>
    have hreported := natCast_bne_notObserved (Report.witnessLength check.output)
    simp [note, Record.withRun, Record.withCheck, Record.withStatistics, Record.findings, Findings.over,
      Checked.reported, Record.timed, hreason, hreported]

/-! ### Several runs -/

namespace Findings
variable {new old : Findings}

theorem failureReason_over : (new.over old).failureReason =
    if new.failureReason = "" then old.failureReason else new.failureReason := rfl

theorem check_over : (new.over old).check = if new.check.reported then new.check else old.check := rfl

theorem measures_over : (new.over old).measures = if new.status = .done then new.measures else old.measures := rfl

/-- What a run finds out stays as it is where it covers what was said before. -/
theorem over_eq_iff : new.over old = new ↔
    (new.failureReason ≠ "" ∨ old.failureReason = "") ∧ (new.check.reported ∨ old.check = new.check) ∧
      (new.status = .done ∨ old.measures = new.measures) := by
  rw [Findings.ext_iff, failureReason_over, check_over, measures_over]
  refine (and_iff_right rfl).trans (and_congr ?_ (and_congr ?_ ?_)) <;> split_ifs with h <;> simp [h]

end Findings

namespace Experiment
variable (e : Experiment) (c : Checker) (scenes : List Scene) (s : Scene)

theorem findings_after (r : Record) : (e.after c r s).findings = (e.afterAll c [s]).findings.over r.findings := by
  obtain ⟨trail, htrail⟩ := exists_trail e c s
  have hfirst : e.afterAll c [s] = trail.note e.newRecord := htrail e.newRecord
  rw [hfirst, htrail r]
  exact trail.findings_note rfl rfl r

theorem findings_concat : (e.afterAll c (scenes ++ [s])).findings =
    (e.afterAll c [s]).findings.over (e.afterAll c scenes).findings := by
  rw [afterAll, List.foldl_concat]
  exact e.findings_after c s _

theorem failureReason_afterAll : (e.afterAll c scenes).findings.failureReason = "" ↔
    ∀ t ∈ scenes, (e.afterAll c [t]).findings.failureReason = "" := by
  induction scenes using List.reverseRecOn with
  | nil => exact iff_of_true rfl fun t ht => nomatch ht
  | append_singleton scenes s ih =>
    rw [findings_concat, Findings.failureReason_over, List.forall_mem_append, List.forall_mem_singleton, ← ih]
    split_ifs with hs <;> simp [hs]

theorem check_afterAll : (e.afterAll c scenes).findings.check = e.newRecord.findings.check ↔
    ∀ t ∈ scenes, (e.afterAll c [t]).findings.check.reported = false := by
  induction scenes using List.reverseRecOn with
  | nil => exact iff_of_true rfl fun t ht => nomatch ht
  | append_singleton scenes s ih =>
    rw [findings_concat, Findings.check_over, List.forall_mem_append, List.forall_mem_singleton, ← ih]
    split_ifs with hs
    · refine iff_of_false (fun heq => ?_) (by simp [hs])
      rw [heq] at hs
      nomatch hs
    · simp [hs]

theorem measures_afterAll :
    (e.afterAll c scenes).findings.measures = (e.lastDone c scenes).findings.measures := by
  induction scenes using List.reverseRecOn with
  | nil => rfl
  | append_singleton scenes s ih =>
    rw [findings_concat, Findings.measures_over, lastDone, List.filter_append]
    by_cases hs : (e.afterAll c [s]).status = .done
    · have honly : [s].filter (fun t => (e.afterAll c [t]).status = .done) = [s] := by simp [hs]
      rw [honly, List.getLast?_concat]
      exact if_pos hs
    · have hnone : [s].filter (fun t => (e.afterAll c [t]).status = .done) = [] := by simp [hs]
      rw [hnone, List.append_nil]
      exact (if_neg hs).trans ih

/-- What a run leaves in the record of its experiment is what it would leave as the first one, over what the record said
before. It is the same exactly if what the run does not set was not set before: the reason of a failure, what a check
found out, and the statistics. -/
theorem rerun_findings (e : Experiment) (c : Checker) (scenes : List Scene) (s : Scene) :
    (e.afterAll c (scenes ++ [s])).findings =
      (e.afterAll c [s]).findings.over (e.afterAll c scenes).findings ∧
    ((e.afterAll c (scenes ++ [s])).findings = (e.afterAll c [s]).findings ↔
      ((e.afterAll c [s]).failureReason ≠ "" ∨ ∀ t ∈ scenes, (e.afterAll c [t]).failureReason = "") ∧
      ((e.afterAll c [s]).findings.check.reported ∨
        ∀ t ∈ scenes, (e.afterAll c [t]).findings.check.reported = false) ∧
      ((e.afterAll c [s]).status = .done ∨
        (e.lastDone c scenes).findings.measures = e.newRecord.findings.measures)) := by
  refine ⟨e.findings_concat c scenes s, ?_⟩
  -- as the first one, a run covers nothing of a new record but what it sets itself
  have hfirst : (e.afterAll c [s]).findings.over e.newRecord.findings = (e.afterAll c [s]).findings :=
    (e.findings_after c s e.newRecord).symm
  obtain ⟨-, hcheck, hmeasures⟩ := Findings.over_eq_iff.1 hfirst
  rw [findings_concat, Findings.over_eq_iff, failureReason_afterAll, measures_afterAll]
  refine and_congr Iff.rfl (and_congr (or_congr_right' fun hunreported => ?_) (or_congr_right' fun hundone => ?_))
  · rw [← hcheck.resolve_left hunreported]
    exact e.check_afterAll c scenes
  · rw [← hmeasures.resolve_left hundone]

end Experiment
end StreamCheck.Verification
