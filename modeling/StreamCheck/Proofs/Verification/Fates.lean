import StreamCheck.Proofs.Verification.Calls

/-! How one experiment ends: its fate decides it, and the record tells as much as the calls reported. -/

namespace StreamCheck.Verification

namespace Progress
variable {α : Type} {step : Act α} {r : Running} {t : Scene}

theorem act_run_of_ok {a : α} (h : step.run r.scene = .ok a t) : (act step).run r = .ok a { r with scene := t } := by
  simp only [EStateM.run] at h ⊢
  rw [act, h]

theorem act_run_of_error {e : Failure} (h : step.run r.scene = .error e t) :
    (act step).run r = .error e { r with scene := t } := by
  simp only [EStateM.run] at h ⊢
  rw [act, h]

theorem andThen_run_of_ok {α : Type} {step : Progress α} {last : Act Unit} {a : α} {r r' : Running} {t : Scene}
    (h : step.run r = .ok a r') (hlast : last.run r'.scene = .ok () t) :
    (Progress.andThen step last).run r = .ok a { r' with scene := t } := by
  simp only [EStateM.run] at h hlast ⊢
  rw [Progress.andThen, h]
  dsimp only
  rw [hlast]

theorem andThen_run_of_error {α : Type} {step : Progress α} {last : Act Unit} {e : Failure} {r r' : Running} {t : Scene}
    (h : step.run r = .error e r') (hlast : last.run r'.scene = .ok () t) :
    (Progress.andThen step last).run r = .error e { r' with scene := t } := by
  simp only [EStateM.run] at h hlast ⊢
  rw [Progress.andThen, h]
  dsimp only
  rw [hlast]

end Progress

/-! ### Getting ready -/

def Scene.supplied (s : Scene) : Scene := if Checker.prerequisites s then s else Checker.batchWrites.leaves s

namespace Scene
variable {s : Scene}

theorem sameBut_supplied (s : Scene) : s.SameBut [.check, .stats] s.supplied := by
  unfold supplied
  split_ifs
  · exact .refl _ s
  · exact Checker.spares_batchWrites s

theorem fate_batches_iff : s.fate.batches ↔ Checker.prerequisites s ∨ Checker.batchWrites.Succeeds s := by
  rw [Checker.succeeds_batchWrites_iff, fate]
  simp [and_assoc]

theorem says_of_supplied {reason : String} (h : s.fate.batches) (hsaid : s.supplied.Says reason) : s.Says reason := by
  unfold supplied at hsaid
  split_ifs at hsaid with hready
  · exact hsaid
  · obtain ⟨a, t, hrun⟩ := (fate_batches_iff.1 h).resolve_left hready
    exact Checker.blames_batchWrites.earlier hrun (Act.leaves_of_ok hrun ▸ hsaid)

theorem fate_model_iff (text : String) (h : s.fate.batches) :
    s.fate.model ↔ (Checker.modelWrites (.model s.nextModel) text).Succeeds s.supplied.named := by
  have htakes : s.supplied.work.takes (.model s.nextModel) = s.work.takes (.model s.nextModel) :=
    s.sameBut_supplied.takes (by simp)
  have hgrants : s.supplied.grants 0 2 = s.grants (if Checker.prerequisites s then 0 else 3) 2 := by
    unfold supplied
    split_ifs with hready
    · rfl
    · rw [grants, grants, Checker.refusals_batchWrites ((fate_batches_iff.1 h).resolve_left hready), List.drop_zero]
  rw [Checker.succeeds_modelWrites_iff]
  change _ ↔ s.supplied.grants 0 2 ∧ s.supplied.work.takes (.model s.nextModel)
  rw [htakes, hgrants, fate, Bool.and_eq_true]

end Scene

namespace Fate
variable {c : Checker} {f : Fate}

theorem check?_of_unwritten (h : (f.batches && f.model) = false) : f.check? c = none := by
  rw [check?, h]
  rfl

theorem check?_of_written (h : (f.batches && f.model) = true) : f.check? c = f.check.passed? c := by
  rw [check?, h]
  rfl

theorem calls_of_unwritten (h : (f.batches && f.model) = false) : f.calls c = [] := by
  rw [calls, h]
  rfl

theorem calls_of_not_check (h : (f.batches && f.model) = true) (hcheck : f.check.passed? c = none) :
    f.calls c = [.check] := by
  rw [calls, h, check?_of_written h, hcheck]
  rfl

theorem calls_of_check {check : Course} (h : (f.batches && f.model) = true) (hcheck : f.check.passed? c = some check) :
    f.calls c = [.check, .stats] := by
  rw [calls, h, check?_of_written h, hcheck]
  rfl

theorem isSome_stats?_iff : (f.stats? c).isSome ↔
    f.batches ∧ f.model ∧ (f.check.passed? c).isSome ∧ (f.stats.passed? c).isSome := by
  rw [← and_assoc, ← Bool.and_eq_true_iff (x := f.batches)]
  cases h : f.batches && f.model with
  | false => simp [stats?, check?_of_unwritten h]
  | true =>
    rw [stats?, check?_of_written h]
    cases f.check.passed? c <;> simp

variable {r : Record} {reason : String}

theorem status_record : (f.record c r reason).status = if (f.stats? c).isSome then .done else .failed := by
  unfold record stats?
  cases f.check? c with
  | none => rfl
  | some check => cases f.stats.passed? c <;> rfl

theorem failureReason_record (h : f.stats? c = none) : (f.record c r reason).failureReason = reason := by
  rw [record, h]
  cases f.check? c <;> rfl

theorem bare_record : (f.record c r reason).bare = r.bare := by
  unfold record
  cases f.check? c with
  | none => rfl
  | some check => cases f.stats? c <;> rfl

end Fate

namespace Experiment
open Progress
variable (e : Experiment) (c : Checker) {s : Scene} {r : Record}

def supply : Progress Unit := do
  unless ← checkPrerequisites do fulfill c

theorem prepare_eq : e.prepare c = (do
    supply c
    note fun r => { r with status := .executing }
    act (c.writeModel e.text)) := by
  rw [supply, bind_assoc]
  refine congrArg (checkPrerequisites >>= ·) (funext fun ready => ?_)
  cases ready <;> rfl

theorem checkPrerequisites_run : checkPrerequisites.run ⟨s, r⟩ = .ok (Checker.prerequisites s)
    ⟨s, { r with status := if Checker.prerequisites s then .prerequisitesReady else .prerequisitesMissing }⟩ := rfl

theorem supply_run_of_batches (h : s.fate.batches) :
    (supply c).run ⟨s, r⟩ = .ok () ⟨s.supplied, { r with status := .prerequisitesReady }⟩ := by
  rw [supply, run_bind_ok checkPrerequisites_run, Scene.supplied]
  by_cases hready : Checker.prerequisites s
  · rw [if_pos hready, if_pos hready, if_pos hready]
    rfl
  · have hwrites := c.writeBatches_run_of_succeeds ((Scene.fate_batches_iff.1 h).resolve_left hready)
    rw [if_neg hready, if_neg hready, if_neg hready, fulfill, run_bind_ok (act_run_of_ok hwrites)]
    rfl

theorem supply_run_of_not (h : ¬s.fate.batches) : ∃ reason, s.Says reason ∧ ∀ r, (supply c).run ⟨s, r⟩ =
    .error (.batchNotWritten ⟨c.work, reason⟩) ⟨s.supplied, { r with status := .prerequisitesMissing }⟩ := by
  obtain ⟨hready, hfails⟩ := not_or.1 (mt Scene.fate_batches_iff.2 h)
  obtain ⟨reason, hsaid, hwrites⟩ := c.writeBatches_run_of_not hfails
  refine ⟨reason, hsaid, fun r => ?_⟩
  rw [supply, run_bind_ok checkPrerequisites_run, Scene.supplied, if_neg hready, if_neg hready, if_neg hready, fulfill,
    run_bind_error (act_run_of_error hwrites)]

def prepared (e : Experiment) (s : Scene) : Scene :=
  (Checker.modelWrites (.model s.nextModel) e.text).leaves s.supplied.named

theorem prepare_run_of_written (hbatches : s.fate.batches) (hmodel : s.fate.model) : (e.prepare c).run ⟨s, r⟩ =
    .ok (.model s.nextModel) ⟨e.prepared s, { r with status := .executing }⟩ := by
  have hwrites := (Scene.fate_model_iff e.text hbatches).1 hmodel
  have hname : s.supplied.nextModel = s.nextModel := s.sameBut_supplied.nextModel
  rw [← hname] at hwrites
  rw [prepare_eq, run_bind_ok (supply_run_of_batches c hbatches), prepared, ← hname]
  exact act_run_of_ok (r := ⟨s.supplied, { r with status := .executing }⟩) (c.writeModel_run_of_succeeds hwrites)

theorem prepare_run_of_not_model (hbatches : s.fate.batches) (hmodel : ¬s.fate.model) : ∃ reason, s.Says reason ∧
    ∀ r, (e.prepare c).run ⟨s, r⟩ = .error (.modelNotWritten ⟨c.path (.model s.nextModel), reason⟩)
      ⟨e.prepared s, { r with status := .executing }⟩ := by
  have hwrites := mt (Scene.fate_model_iff e.text hbatches).2 hmodel
  have hname : s.supplied.nextModel = s.nextModel := s.sameBut_supplied.nextModel
  rw [← hname] at hwrites
  obtain ⟨reason, hsaid, hrun⟩ := c.writeModel_run_of_not hwrites
  refine ⟨reason, Scene.says_of_supplied hbatches hsaid, fun r => ?_⟩
  rw [prepare_eq, run_bind_ok (supply_run_of_batches c hbatches), prepared, ← hname]
  exact act_run_of_error (r := ⟨s.supplied, { r with status := .executing }⟩) hrun

theorem prepare_run_of_not_batches (h : ¬s.fate.batches) : ∃ reason, s.Says reason ∧ ∀ r, (e.prepare c).run ⟨s, r⟩ =
    .error (.batchNotWritten ⟨c.work, reason⟩) ⟨s.supplied, { r with status := .prerequisitesMissing }⟩ := by
  obtain ⟨reason, hsaid, hsupply⟩ := supply_run_of_not c h
  exact ⟨reason, hsaid, fun r => by rw [prepare_eq, run_bind_error (hsupply r)]⟩

theorem sameBut_prepared (e : Experiment) (s : Scene) :
    s.named.SameBut [.check, .stats, .model s.nextModel] (e.prepared s) := by
  have hsupplied := s.sameBut_supplied
  have hnamed : s.named.SameBut [.check, .stats] s.supplied.named :=
    { hsupplied with nextModel := congrArg (· + 1) hsupplied.nextModel }
  exact (hnamed.mono (by simp)).trans ((Checker.spares_modelWrites _).mono (by simp))

theorem text?_prepared (hbatches : s.fate.batches) (hmodel : s.fate.model) :
    (e.prepared s).work.text? (.model s.nextModel) = some e.text :=
  Checker.text?_modelWrites ((Scene.fate_model_iff e.text hbatches).1 hmodel)

/-! ### The two calls -/

section
variable {c : Checker} {f : FileName} {check stats : Course}

theorem phases_run_of_not_check (hlimit : c.timeout.bind Failure.ofLimit? = none) (horderly : s.next.Orderly c)
    (hcheck : s.next.passed? c = none) :
    ∃ (e : Failure) (k : Nat), e.isOwn ∧ (phases c f).run ⟨s, r⟩ = .error e ⟨{ s.called c .check f with kills := k }, r⟩ := by
  obtain ⟨e, k, hown, hrun⟩ := Checker.run_run_of_not (b := .check) (f := f) hlimit horderly hcheck
  exact ⟨e, k, hown, run_bind_error (act_run_of_error hrun)⟩

def checked (r : Record) (check : Course) : Record :=
  { r with time := check.elapsed }.withCheck (Checker.outputText check)

theorem phases_run_of_check (hlimit : c.timeout.bind Failure.ofLimit? = none) (hcheck : s.next.passed? c = some check) :
    (phases c f).run ⟨s, r⟩ = (act (c.run .stats f) >>= noteStatistics).run ⟨s.called c .check f, checked r check⟩ := by
  have hnote : (noteCheck ⟨.check, f, Checker.outputText check, 0, check.elapsed⟩).run ⟨s.called c .check f, r⟩ =
    .ok () ⟨s.called c .check f, checked r check⟩ := rfl
  rw [phases, run_bind_ok (act_run_of_ok (Checker.run_run_of_passed hlimit hcheck)), run_bind_ok hnote]

theorem phases_run_of_not_stats (hlimit : c.timeout.bind Failure.ofLimit? = none)
    (hcheck : s.next.passed? c = some check) (horderly : (s.called c .check f).next.Orderly c)
    (hstats : (s.called c .check f).next.passed? c = none) :
    ∃ (e : Failure) (k : Nat), e.isOwn ∧ (phases c f).run ⟨s, r⟩ =
      .error e ⟨{ (s.called c .check f).called c .stats f with kills := k }, checked r check⟩ := by
  obtain ⟨e, k, hown, hrun⟩ := Checker.run_run_of_not (b := .stats) (f := f) hlimit horderly hstats
  exact ⟨e, k, hown, (phases_run_of_check hlimit hcheck).trans (run_bind_error (act_run_of_error hrun))⟩

theorem phases_run_of_passed (hlimit : c.timeout.bind Failure.ofLimit? = none)
    (hcheck : s.next.passed? c = some check) (hstats : (s.called c .check f).next.passed? c = some stats) :
    (phases c f).run ⟨s, r⟩ = .ok () ⟨(s.called c .check f).called c .stats f,
      (checked r check).withStatistics (Checker.outputText stats)⟩ := by
  rw [phases_run_of_check hlimit hcheck, run_bind_ok (act_run_of_ok (Checker.run_run_of_passed hlimit hstats))]
  rfl

end

/-! ### The whole run -/

def discarded (f : FileName) (s : Scene) : Scene :=
  { s with work := if e.keepModel then s.work else s.work.removed f }

theorem discardModel_run (f : FileName) (s : Scene) : (e.discardModel f).run s = .ok () (e.discarded f s) := by
  unfold discardModel discarded
  split_ifs
  · rfl
  · exact Act.anyway_remove_run s f

variable {e c} {f : FileName} {r' : Running} {failure : Failure}

theorem execute_run_of_ok {t : Running} (hprepare : (e.prepare c).run ⟨s, r⟩ = .ok f t)
    (hphases : (phases c f).run t = .ok () r') : (e.execute c).run ⟨s, r⟩ =
      .ok () ⟨e.discarded f r'.scene, { r'.record with status := .done, completed := true }⟩ := by
  have hlast := andThen_run_of_ok hphases (e.discardModel_run f r'.scene)
  rw [execute, run_bind_ok hprepare, run_bind_ok hlast]
  rfl

theorem execute_run_of_error {t : Running} (hprepare : (e.prepare c).run ⟨s, r⟩ = .ok f t)
    (hphases : (phases c f).run t = .error failure r') : (e.execute c).run ⟨s, r⟩ =
      .error failure ⟨e.discarded f r'.scene, r'.record⟩ := by
  have hlast := andThen_run_of_error hphases (e.discardModel_run f r'.scene)
  rw [execute, run_bind_ok hprepare, run_bind_error hlast]

theorem run_run_of_ok (h : (e.execute c).run ⟨s, r⟩ = .ok () r') : (e.run c).run ⟨s, r⟩ = .ok () r' := by
  simp only [EStateM.run] at h ⊢
  rw [run, h]

theorem run_run_of_error (h : (e.execute c).run ⟨s, r⟩ = .error failure r') (hown : failure.isOwn) :
    (e.run c).run ⟨s, r⟩ = .ok () ⟨r'.scene,
      { r'.record with status := .failed, failureReason := failure.message, completed := true }⟩ := by
  simp only [EStateM.run] at h ⊢
  rw [run, h]
  exact if_pos hown

theorem ends_of_unwritten {t : Scene} (h : (s.fate.batches && s.fate.model) = false) (hstarts : t.starts = s.starts)
    (hinvocations : t.invocations = s.invocations) {failure : Failure} (hown : failure.isOwn = true) : e.Ends c s r
      ⟨t, { r with status := .failed, failureReason := failure.message, completed := true }⟩ where
  record := ⟨_, failure.message_ne_empty hown, by rw [Fate.record, Fate.check?_of_unwritten h]⟩
  starts := by rw [Fate.calls_of_unwritten h, hstarts, List.map_nil, List.append_nil]
  invocations := by rw [Fate.calls_of_unwritten h, hinvocations, List.length_nil, List.drop_zero]
  discarded hbatches hmodel := absurd (Bool.and_eq_true_iff.2 ⟨hbatches, hmodel⟩) (by simp [h])

theorem ends_of_written {t : Scene} {record : Record} {reason : String} (hreason : reason ≠ "")
    (hrecord : record = s.fate.record c r reason)
    (hstarts : t.starts.map Start.command =
      s.starts.map Start.command ++ (s.fate.calls c).map fun b => c.command b (.model s.nextModel))
    (hinvocations : t.invocations = s.invocations.drop (s.fate.calls c).length) :
    e.Ends c s r ⟨e.discarded (.model s.nextModel) t, record⟩ where
  record := ⟨reason, hreason, hrecord⟩
  starts := hstarts
  invocations := hinvocations
  discarded _ _ hkeep := by
    rw [Experiment.discarded, hkeep]
    exact WorkDir.isFile_removed

theorem exists_run (hlimit : c.timeout.bind Failure.ofLimit? = none) (hcheck : s.fate.check.Orderly c)
    (hstats : s.fate.stats.Orderly c) : ∃ after, (e.run c).run ⟨s, r⟩ = .ok () after ∧ e.Ends c s r after := by
  have hspared := e.sameBut_prepared s
  by_cases hbatches : s.fate.batches
  swap
  · obtain ⟨reason, -, hprepare⟩ := e.prepare_run_of_not_batches c hbatches
    exact ⟨_, run_run_of_error (run_bind_error (hprepare r)) rfl,
      ends_of_unwritten (by simp [hbatches]) s.sameBut_supplied.starts s.sameBut_supplied.invocations rfl⟩
  by_cases hmodel : s.fate.model
  swap
  · obtain ⟨reason, -, hprepare⟩ := e.prepare_run_of_not_model c hbatches hmodel
    exact ⟨_, run_run_of_error (run_bind_error (hprepare r)) rfl,
      ends_of_unwritten (s := s) (by simp [hmodel]) hspared.starts hspared.invocations rfl⟩
  have hprepare := e.prepare_run_of_written c (r := r) hbatches hmodel
  have hwritten : (s.fate.batches && s.fate.model) = true := Bool.and_eq_true_iff.2 ⟨hbatches, hmodel⟩
  have hnext : (e.prepared s).next = s.fate.check := congrArg (List.headD · _) hspared.invocations
  have hnext' : ((e.prepared s).called c .check (.model s.nextModel)).next = s.fate.stats :=
    congrArg (fun is => List.headD (List.tail is) _) hspared.invocations
  cases hpassed : s.fate.check.passed? c with
  | none =>
    obtain ⟨failure, k, hown, hphases⟩ := phases_run_of_not_check (f := .model s.nextModel)
      (r := { r with status := .executing }) hlimit (hnext ▸ hcheck) (hnext ▸ hpassed)
    refine ⟨_, run_run_of_error (execute_run_of_error hprepare hphases) hown,
      ends_of_written (failure.message_ne_empty hown) ?_ ?_ ?_⟩
    · rw [Fate.record, Fate.check?_of_written hwritten, hpassed]
    · rw [Fate.calls_of_not_check hwritten hpassed]
      simp [Scene.called, hspared.starts, Scene.named]
    · rw [Fate.calls_of_not_check hwritten hpassed]
      simp [Scene.called, hspared.invocations, Scene.named]
  | some check =>
    have hcheck? : s.fate.check? c = some check := (Fate.check?_of_written hwritten).trans hpassed
    have hstats? : s.fate.stats? c = s.fate.stats.passed? c := by rw [Fate.stats?, hcheck?, Option.bind_some]
    have hcalls : s.fate.calls c = [.check, .stats] := Fate.calls_of_check hwritten hpassed
    have hstarts : (((e.prepared s).called c .check (.model s.nextModel)).called c .stats
        (.model s.nextModel)).starts.map Start.command =
        s.starts.map Start.command ++ (s.fate.calls c).map fun b => c.command b (.model s.nextModel) := by
      rw [hcalls]
      simp [Scene.called, hspared.starts, Scene.named]
    have hinvocations : (((e.prepared s).called c .check (.model s.nextModel)).called c .stats
        (.model s.nextModel)).invocations = s.invocations.drop (s.fate.calls c).length := by
      rw [hcalls]
      change (e.prepared s).invocations.tail.tail = s.invocations.drop 2
      rw [hspared.invocations, ← List.drop_one, ← List.drop_one, List.drop_drop]
      rfl
    cases hpassed' : s.fate.stats.passed? c with
    | none =>
      obtain ⟨failure, k, hown, hphases⟩ := phases_run_of_not_stats (f := .model s.nextModel)
        (r := { r with status := .executing }) hlimit (hnext ▸ hpassed) (hnext' ▸ hstats) (hnext' ▸ hpassed')
      refine ⟨_, run_run_of_error (execute_run_of_error hprepare hphases) hown,
        ends_of_written (failure.message_ne_empty hown) ?_ hstarts hinvocations⟩
      rw [Fate.record, hcheck?, hstats?, hpassed']
      rfl
    | some stats =>
      have hphases := phases_run_of_passed (f := .model s.nextModel) (r := { r with status := .executing }) hlimit
        (hnext ▸ hpassed) (hnext' ▸ hpassed')
      refine ⟨_, run_run_of_ok (execute_run_of_ok hprepare hphases),
        ends_of_written (show "done" ≠ "" by decide) ?_ hstarts hinvocations⟩
      rw [Fate.record, hcheck?, hstats?, hpassed']
      rfl

theorem bare_newRecord (e : Experiment) (id : String) :
    ({ e.newRecord with id } : Record).bare = { e.newRecord with id } := rfl

/-- The run of a new experiment comes to an end whatever becomes of its writes and its calls. It is done exactly if both
batch files and the model file were there or could be written and both calls ended in time with the code zero and some
output; otherwise it failed, for a reason that is given. -/
theorem run_ends_by_fate (e : Experiment) (c : Checker) (s : Scene) (id : String)
    (hlimit : c.timeout.bind Failure.ofLimit? = none) (hcheck : s.fate.check.Orderly c)
    (hstats : s.fate.stats.Orderly c) :
    ∃ after, (e.run c).run ⟨s, { e.newRecord with id }⟩ = .ok () after ∧
      (after.record.status = .done ↔ s.fate.batches ∧ s.fate.model ∧
        (s.fate.check.passed? c).isSome ∧ (s.fate.stats.passed? c).isSome) ∧
      (after.record.status ≠ .done → after.record.status = .failed ∧ after.record.failureReason ≠ "") ∧
      after.record.bare = { e.newRecord with id } ∧ e.Ends c s { e.newRecord with id } after := by
  obtain ⟨after, hrun, hends⟩ := exists_run (e := e) (r := { e.newRecord with id }) hlimit hcheck hstats
  obtain ⟨reason, hreason, hrecord⟩ := hends.record
  refine ⟨after, hrun, ?_, fun h => ?_, ?_, hends⟩
  · rw [hrecord, Fate.status_record, ← Fate.isSome_stats?_iff]
    split_ifs with hdone <;> simp [hdone]
  · rw [hrecord, Fate.status_record] at h
    rw [hrecord, Fate.status_record]
    split_ifs at h ⊢ with hdone
    · exact absurd rfl h
    · exact ⟨rfl, (Fate.failureReason_record (Option.not_isSome_iff_eq_none.1 hdone)).symm ▸ hreason⟩
  · rw [hrecord, Fate.bare_record, bare_newRecord]

/-- A new directory, and a checker that prints a letter whenever it is called. -/
def twoReports : Scene := { invocations := [.started { output := some [79] }, .started { output := some [79] }] }

theorem run_ends_by_fate_of_twoReports : ∃ after,
    ((⟨.counter 1 2, .xStaysNull, false⟩ : Experiment).run {}).run
      ⟨twoReports, { (⟨.counter 1 2, .xStaysNull, false⟩ : Experiment).newRecord with id := "first" }⟩ = .ok () after ∧
    after.record.status = .done ∧ after.scene.work.isFile (.model 0) = false := by
  have horderly : (Invocation.started { output := some [79] }).Orderly {} := ⟨by decide, fun _ => rfl⟩
  obtain ⟨after, hrun, hdone, -, -, hends⟩ :=
    run_ends_by_fate ⟨.counter 1 2, .xStaysNull, false⟩ {} twoReports "first" rfl horderly horderly
  exact ⟨after, hrun, hdone.2 ⟨rfl, rfl, rfl, rfl⟩, hends.discarded rfl rfl rfl⟩

end Experiment
end StreamCheck.Verification
