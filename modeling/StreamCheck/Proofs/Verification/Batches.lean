import StreamCheck.Proofs.Verification.Fates
import StreamCheck.Proofs.Verification.Fitting

/-! Batches: experiments that run one after the other end by their own fates, and what one of them meets with is lost on
the others. -/

namespace StreamCheck.Verification
open Pipeline

namespace Fate

theorem made_fate (c : Checker) (s : Scene) : s.fate.made c =
    (List.range (s.fate.calls c).length).map fun i => s.invocations.getD i (.refused .missing) := by
  have hcheck : s.fate.check = s.invocations.getD 0 (.refused .missing) := by
    rw [Scene.fate]
    cases s.invocations <;> rfl
  have hstats : s.fate.stats = s.invocations.getD 1 (.refused .missing) := by
    rw [Scene.fate]
    rcases s.invocations with _ | ⟨i, _ | ⟨i', is⟩⟩ <;> rfl
  rw [made, calls]
  split_ifs <;> simp [List.range_succ, hcheck, hstats]

end Fate

namespace Scene
variable {c : Checker} {s : Scene}

theorem orderly_check (h : ∀ i ∈ s.invocations, i.Orderly c) : s.fate.check.Orderly c := by
  rw [fate]
  cases hs : s.invocations with
  | nil => trivial
  | cons i is => exact h i (hs ▸ List.mem_cons_self)

theorem orderly_stats (h : ∀ i ∈ s.invocations, i.Orderly c) : s.fate.stats.Orderly c := by
  rw [fate]
  cases hs : s.invocations.tail with
  | nil => trivial
  | cons i is => exact h i (List.mem_of_mem_tail (hs ▸ List.mem_cons_self))

end Scene

namespace Experiment
variable {c : Checker} {e : Experiment} {es : List Experiment} {s : Scene}

theorem leaves_of_run {after : Running} (h : (e.run c).run ⟨s, e.newRecord⟩ = .ok () after) :
    e.leaves c s = after.scene := by
  simp only [EStateM.run] at h
  rw [leaves, h]

theorem endInTurn_nil : EndInTurn c s [] [] s := ⟨.nil, rfl, rfl⟩

theorem Ends.endInTurn_cons {after : Running} {records : List Record} {last : Scene}
    (hrun : (e.run c).run ⟨s, e.newRecord⟩ = .ok () after) (hends : e.Ends c s e.newRecord after)
    (h : EndInTurn c after.scene es records last) : EndInTurn c s (e :: es) (after.record :: records) last := by
  have hfates : fates c s (e :: es) = s.fate :: fates c after.scene es := by
    rw [fates, leaves_of_run hrun]
  have hlength : ((fates c s (e :: es)).flatMap (Fate.calls c)).length =
      (s.fate.calls c).length + ((fates c after.scene es).flatMap (Fate.calls c)).length := by
    rw [hfates, List.flatMap_cons, List.length_append]
  refine ⟨?_, ?_, ?_⟩
  · rw [hfates]
    exact .cons hends.record h.records
  · rw [hlength, hfates, List.flatMap_cons, Fate.made_fate, h.made, List.range_add, List.map_append, List.map_map,
      hends.invocations]
    simp [Function.comp_def, List.getD_eq_getElem?_getD]
  · rw [hlength, h.invocations, hends.invocations, List.drop_drop]

theorem length_fates (c : Checker) (s : Scene) (es : List Experiment) : (fates c s es).length = es.length := by
  induction es generalizing s with
  | nil => rfl
  | cons e es ih => rw [fates, List.length_cons, ih, List.length_cons]

namespace EndInTurn
variable {records : List Record} {after : Scene}

theorem length_eq (h : EndInTurn c s es records after) : records.length = es.length := by
  rw [← h.records.length_eq, List.length_zip, length_fates, Nat.min_self]

theorem status (h : EndInTurn c s es records after) : ∀ r ∈ records, r.status = .done ∨ r.status = .failed := by
  intro r hr
  obtain ⟨i, hi, rfl⟩ := List.getElem_of_mem hr
  obtain ⟨reason, -, hrecord⟩ := h.records.get (h.records.length_eq ▸ hi) hi
  rw [List.get_eq_getElem] at hrecord
  rw [hrecord, Fate.status_record]
  split_ifs
  · exact .inl rfl
  · exact .inr rfl

end EndInTurn
end Experiment

namespace Factory
variable {f : Factory} {archive final : Archive} {s : Scene}

theorem keep_run {α : Type} {step : Keep α} {a : α} (h : step.run archive = .ok a final) :
    (keep step).run ⟨archive, s⟩ = .ok a ⟨final, s⟩ := by
  simp only [EStateM.run] at h ⊢
  rw [keep, h]

theorem runNew_run {e : Experiment} {after : Running}
    (hrun : (e.run f.checker).run ⟨s, e.newRecord⟩ = .ok () after) :
    (f.runNew e).run ⟨archive, s⟩ = .ok after.record ⟨archive, after.scene⟩ := by
  simp only [EStateM.run] at hrun ⊢
  rw [runNew, hrun]

theorem runOne_run_of_none {config : Configuration} (h : (f.get config).run archive = .ok none final) :
    (f.runOne config).run ⟨archive, s⟩ = .ok none ⟨final, s⟩ := by
  rw [runOne, run_bind_ok (keep_run h)]
  rfl

theorem runOne_run_of_some {config : Configuration} {e : Experiment} {after : Running}
    (h : (f.get config).run archive = .ok (some e) final)
    (hrun : (e.run f.checker).run ⟨s, e.newRecord⟩ = .ok () after) :
    (f.runOne config).run ⟨archive, s⟩ = .ok (some after.record) ⟨final, after.scene⟩ := by
  rw [runOne, run_bind_ok (keep_run h)]
  exact run_bind_ok (runNew_run hrun)

theorem exists_mapM_runOne {cs : List Configuration} {experiments : List (Option Experiment)}
    (hlimit : f.checker.timeout.bind Failure.ofLimit? = none) (horderly : ∀ i ∈ s.invocations, i.Orderly f.checker)
    (hgets : (cs.mapM f.get).run archive = .ok experiments final) :
    ∃ (records : List (Option Record)) (after : Scene), (cs.mapM f.runOne).run ⟨archive, s⟩ = .ok records ⟨final, after⟩ ∧
      Experiment.EndInTurn f.checker s (experiments.filterMap id) (records.filterMap id) after := by
  induction cs generalizing archive s experiments with
  | nil =>
    obtain ⟨rfl, rfl⟩ := (EStateM.Result.ok.injEq ..).mp hgets
    exact ⟨[], s, rfl, Experiment.endInTurn_nil⟩
  | cons config cs ih =>
    rw [List.mapM_cons] at hgets
    obtain ⟨e?, archive', hget, htail⟩ := exists_of_run_bind hgets
    obtain ⟨rest, _, hrest, hlast⟩ := exists_of_run_bind htail
    obtain ⟨rfl, rfl⟩ := (EStateM.Result.ok.injEq ..).mp hlast
    cases e? with
    | none =>
      obtain ⟨records, after, hruns, hends⟩ := ih horderly hrest
      refine ⟨none :: records, after, ?_, hends⟩
      rw [List.mapM_cons, run_bind_ok (runOne_run_of_none hget), run_bind_ok hruns]
      rfl
    | some e =>
      obtain ⟨ended, hrun, hend⟩ := Experiment.exists_run (e := e) (r := e.newRecord) hlimit
        (Scene.orderly_check horderly) (Scene.orderly_stats horderly)
      have horderly' : ∀ i ∈ ended.scene.invocations, i.Orderly f.checker := fun i hi =>
        horderly i (List.mem_of_mem_drop (hend.invocations ▸ hi))
      obtain ⟨records, after, hruns, hends⟩ := ih horderly' hrest
      refine ⟨some ended.record :: records, after, ?_, hend.endInTurn_cons hrun hends⟩
      rw [List.mapM_cons, run_bind_ok (runOne_run_of_some hget hrun), run_bind_ok hruns]
      rfl

theorem runAll_run {cs : List Configuration} {records : List (Option Record)} {after : Scene}
    (h : (cs.mapM f.runOne).run ⟨archive, s⟩ = .ok records ⟨final, after⟩) :
    (f.runAll cs).run ⟨archive, s⟩ = .ok (records.filterMap id) ⟨final, after⟩ := by
  rw [runAll, run_bind_ok h]
  rfl

/-- Whatever a factory and its cache were asked for before, and whatever becomes of the files and the calls: a batch comes
to its end with one record for each configuration that has an experiment, in their order. Every experiment is done or
failed, and its record is as its own fate has it. -/
theorem batch_ends_by_fates (archive : Archive) (history earlier cs : List Configuration) (checker : Checker)
    (keepModels : Bool) (s : Scene) (hlimit : checker.timeout.bind Failure.ofLimit? = none)
    (horderly : ∀ i ∈ s.invocations, i.Orderly checker) :
    ∃ c started answers asked library opened before used experiments final records after,
      Keep.newCache.run archive = .ok c started ∧
      (history.mapM (Keep.getOrBuild c)).run started = .ok answers asked ∧
      (Library.ofCache c).run asked = .ok library opened ∧
      (earlier.mapM (get ⟨library, checker, keepModels⟩)).run opened = .ok before used ∧
      (cs.mapM (get ⟨library, checker, keepModels⟩)).run used = .ok experiments final ∧
      (runAll ⟨library, checker, keepModels⟩ cs).run ⟨used, s⟩ = .ok records ⟨final, after⟩ ∧
      records.length = (experiments.filterMap id).length ∧
      (∀ r ∈ records, r.status = .done ∨ r.status = .failed) ∧
      Experiment.EndInTurn checker s (experiments.filterMap id) records after := by
  obtain ⟨c, started, answers, asked, library, opened, hnew, hanswers, hlibrary, hopened⟩ := exists_opened archive history
  obtain ⟨before, used, hearlier, hused, -⟩ := exists_kept_gets ⟨library, checker, keepModels⟩ hopened earlier
  obtain ⟨experiments, final, hgets, -⟩ := exists_kept_gets ⟨library, checker, keepModels⟩ hused cs
  obtain ⟨records, after, hruns, hends⟩ := exists_mapM_runOne hlimit horderly hgets
  exact ⟨c, started, answers, asked, library, opened, before, used, experiments, final, records.filterMap id, after, hnew,
    hanswers, hlibrary, hearlier, hgets, runAll_run hruns, hends.length_eq, hends.status, hends⟩

/-- The counter with its only property. -/
def counterCheck : Configuration :=
  { query := Query.dummy.name, property := Property.xStaysNull.name, domain := 1, queue := 1,
    domain_pos := Int.zero_lt_one, queue_pos := Int.zero_lt_one }

/-- No checker at first, then one that prints a letter whenever it is called. -/
def lateChecker : Scene :=
  { invocations := [.refused .missing, .started { output := some [79] }, .started { output := some [79] }] }

theorem batch_ends_by_fates_of_lateChecker : ∃ (factory : Factory) (used : Archive) (r r' : Record) (after : Laboratory),
    (factory.runAll [counterCheck, counterCheck]).run ⟨used, lateChecker⟩ = .ok [r, r'] after ∧
      r.status = .failed ∧ r'.status = .done := by
  have horderly : ∀ i ∈ lateChecker.invocations, i.Orderly {} := by
    have hpass : (Invocation.started { output := some [79] }).Orderly {} := ⟨by decide, fun _ => rfl⟩
    intro i hi
    simp only [lateChecker, List.mem_cons, List.not_mem_nil, or_false] at hi
    rcases hi with rfl | rfl | rfl
    · trivial
    · exact hpass
    · exact hpass
  obtain ⟨c, started, answers, asked, library, opened, before, used, experiments, final, records, after, -, -, -, -, hgets,
    hrun, hlength, hstatus, hends⟩ := batch_ends_by_fates {} [] [] [counterCheck, counterCheck] {} false lateChecker rfl
      horderly
  have hcounters : ([counterCheck, counterCheck].mapM (get ⟨library, {}, false⟩)).run used =
    .ok [some ⟨.counter 1 1, .xStaysNull, false⟩, some ⟨.counter 1 1, .xStaysNull, false⟩] used := rfl
  obtain ⟨rfl, rfl⟩ := (EStateM.Result.ok.injEq ..).mp (hgets.symm.trans hcounters)
  obtain _ | ⟨⟨reason, -, rfl⟩, _ | ⟨⟨reason', -, rfl⟩, _ | _⟩⟩ := hends.records
  exact ⟨_, _, _, _, _, hrun, rfl, rfl⟩

end Factory
end StreamCheck.Verification
