import StreamCheck.Proofs.Smv.Texts
import StreamCheck.Proofs.Verification.Fates
import StreamCheck.Verification.Interleaving

/-! Executions in turns: what one turn of one execution does to the files that they share, and from it what any sequence
of turns does. No execution comes near the model file of another one. -/

namespace StreamCheck.Verification

/-! ### Waiting -/

namespace Act
variable {α β : Type} {step : Act α}

def OnlyKills (step : Act α) : Prop := ∀ s : Scene, ∃ k, step.leaves s = { s with kills := k }

theorem onlyKills_pure (a : α) : OnlyKills (pure a) := fun s => ⟨s.kills, rfl⟩

theorem onlyKills_throw (e : Failure) : OnlyKills (throw e : Act α) := fun s => ⟨s.kills, rfl⟩

theorem OnlyKills.bind {next : α → Act β} (h : OnlyKills step) (h' : ∀ a, OnlyKills (next a)) :
    OnlyKills (step >>= next) := by
  intro s
  obtain ⟨k, hk⟩ := h s
  rw [leaves, EStateM.run_bind]
  cases hrun : step.run s with
  | error e t => exact ⟨k, leaves_of_error hrun ▸ hk⟩
  | ok a t =>
    obtain ⟨k', hk'⟩ := h' a t
    obtain rfl := (leaves_of_ok hrun).symm.trans hk
    exact ⟨k', hk'⟩

theorem OnlyKills.anyway {step : Act Unit} (h : OnlyKills step) : OnlyKills step.anyway := by
  intro s
  rw [leaves_of_ok (anyway_run step s)]
  exact h s

end Act

namespace Checker
variable {c : Checker} {b : Batch} {f : FileName} {course : Course} {s : Scene}

theorem onlyKills_kill : Act.OnlyKills (kill course) := by
  intro s
  unfold kill
  split_ifs <;> exact ⟨s.kills + 1, rfl⟩

theorem onlyKills_await : Act.OnlyKills (c.await b f course) := by
  unfold await
  cases c.timeout.bind Failure.ofLimit? with
  | some failure => exact Act.onlyKills_throw failure
  | none =>
    cases c.hasTime with
    | false => exact .bind onlyKills_kill fun _ => Act.onlyKills_pure _
    | true =>
      cases course.waiting with
      | timesOut => exact .bind onlyKills_kill fun _ => Act.onlyKills_pure _
      | cancelled => exact .bind onlyKills_kill.anyway fun _ => Act.onlyKills_throw _
      | ends =>
        have hlast {p : Prop} [Decidable p] (e : Failure) {next : Act Awaited} (h : Act.OnlyKills next) :
            Act.OnlyKills (if p then throw e >>= fun _ : PUnit => next else next) := by
          split_ifs
          · exact .bind (Act.onlyKills_throw e) fun _ => h
          · exact h
        exact hlast _ (hlast _ (Act.onlyKills_pure _))

/-- What a call does after its start is to wait without giving way. -/
theorem finish_run_eq_await : (c.finish b f course).run s = (do
    match ← c.await b f course with
    | .ended run => return run
    | .killed failure => throw failure).run s := by
  rw [finish, await]
  cases c.timeout.bind Failure.ofLimit? with
  | some failure => rfl
  | none =>
    cases c.hasTime with
    | false =>
      cases hgone : course.gone <;> cases hwaiting : course.waiting <;> simp [giveUp, kill_run, hgone, hwaiting]
    | true =>
      cases hwaiting : course.waiting with
      | ends =>
        by_cases hcode : course.code.getD (-1) = 0 <;> by_cases houtput : outputText course = "" <;>
          simp [hcode, houtput]
      | timesOut => cases hgone : course.gone <;> simp [kill_run, hgone]
      | cancelled =>
        simp [run_bind_ok (Act.anyway_run (kill course) s)]
        rfl

end Checker

/-! ### One turn -/

namespace Stage
variable {stage : Stage} {b : Batch} {f : FileName}

theorem file?_of_call? (h : stage.call? = some (b, f)) : stage.file? = some f := by
  cases stage <;> simp_all [call?, file?]

theorem isOver_of_call? (h : stage.call? = some (b, f)) : stage.isOver = false := by
  cases stage <;> simp_all [call?, isOver]

end Stage

theorem WorkDir.swapped_of_steady {d : WorkDir} {f : FileName} {i : Invocation} (h : i.swap? = none) :
    d.swapped f i = d := by
  cases i with
  | refused why => rfl
  | started course =>
    obtain ⟨_, _, _, _, _ | _ | _, _⟩ := course
    · rfl
    · nomatch h
    · nomatch h

theorem Scene.swap?_next {s : Scene} (h : ∀ i ∈ s.invocations, i.swap? = none) : s.next.swap? = none := by
  rw [next]
  cases hs : s.invocations with
  | nil => rfl
  | cons i is => exact h i (hs ▸ List.mem_cons_self)

namespace Task
variable {c : Checker} {t : Task} {s s' : Scene} {b : Batch} {f : FileName} {course : Course} {failure : Failure}
  {r : Running}

theorem fail_eq : t.fail failure f s =
    ({ t with stage := .ended (some failure) (some f) }, t.experiment.discarded f s) := by
  have hrun := t.experiment.discardModel_run f s
  simp only [EStateM.run] at hrun
  rw [fail, hrun]

theorem succeed_eq : t.succeed f s =
    ({ t with record := { t.record with status := .done, completed := true }, stage := .ended none (some f) },
      t.experiment.discarded f s) := by
  have hrun := t.experiment.discardModel_run f s
  simp only [EStateM.run] at hrun
  rw [succeed, hrun]

theorem resume_fresh_of_ok (h : t.stage = .fresh) (hrun : (t.experiment.prepare c).run ⟨s, t.record⟩ = .ok f r) :
    t.resume c s = ({ t with record := r.record, stage := .starting .check f }, r.scene) := by
  simp only [EStateM.run] at hrun
  simp only [resume, h, hrun]

theorem resume_fresh_of_error (h : t.stage = .fresh)
    (hrun : (t.experiment.prepare c).run ⟨s, t.record⟩ = .error failure r) :
    t.resume c s = ({ t with record := r.record, stage := .ended (some failure) none }, r.scene) := by
  simp only [EStateM.run] at hrun
  simp only [resume, h, hrun]

theorem resume_starting_of_ok (h : t.stage = .starting b f) (hrun : (c.start b f).run s = .ok course s') :
    t.resume c s = ({ t with stage := .running b f course }, s') := by
  simp only [EStateM.run] at hrun
  simp only [resume, h, hrun]

theorem resume_starting_of_error (h : t.stage = .starting b f) (hrun : (c.start b f).run s = .error failure s') :
    t.resume c s = t.fail failure f s' := by
  simp only [EStateM.run] at hrun
  simp only [resume, h, hrun]

theorem resume_running_of_ended {run : CheckerRun} (h : t.stage = .running b f course)
    (hrun : (c.await b f course).run s = .ok (.ended run) s') : t.resume c s = t.proceed b f run s' := by
  simp only [EStateM.run] at hrun
  simp only [resume, h, hrun]

theorem resume_running_of_killed (h : t.stage = .running b f course)
    (hrun : (c.await b f course).run s = .ok (.killed failure) s') :
    t.resume c s = ({ t with stage := .reaping b f failure }, s') := by
  simp only [EStateM.run] at hrun
  simp only [resume, h, hrun]

theorem resume_running_of_error (h : t.stage = .running b f course)
    (hrun : (c.await b f course).run s = .error failure s') : t.resume c s = t.fail failure f s' := by
  simp only [EStateM.run] at hrun
  simp only [resume, h, hrun]

theorem resume_ended {failure? : Option Failure} {f? : Option FileName} (h : t.stage = .ended failure? f?) :
    t.resume c s = (t, s) := by
  simp only [resume, h]

theorem resume_reaping (h : t.stage = .reaping b f failure) : t.resume c s = t.fail failure f s := by
  simp only [resume, h]

/-! ### One execution alone -/

theorem resumes_add (k n : Nat) : resumes c (k + n) t s = resumes c n (resumes c k t s).1 (resumes c k t s).2 := by
  induction k generalizing t s with
  | zero => rw [Nat.zero_add, resumes]
  | succ k ih => rw [Nat.succ_add, resumes, resumes, ih]

theorem exists_resumes_call (h : t.stage = .starting b f) : ∃ n, resumes c n t s =
    match (c.run b f).run s with
    | .ok run s' => t.proceed b f run s'
    | .error failure s' => t.fail failure f s' := by
  cases hstart : (c.start b f).run s with
  | error failure u =>
    rw [Checker.run, run_bind_error hstart]
    refine ⟨1, ?_⟩
    rw [resumes, resumes, resume_starting_of_error h hstart]
  | ok course u =>
    have hrunning := resume_starting_of_ok h hstart
    rw [Checker.run, run_bind_ok hstart, Checker.finish_run_eq_await]
    cases hawait : (c.await b f course).run u with
    | error failure v =>
      refine ⟨2, ?_⟩
      rw [resumes, hrunning, resumes, resumes, resume_running_of_error rfl hawait, run_bind_error hawait]
      exact fail_eq.trans fail_eq.symm
    | ok awaited v =>
      rw [run_bind_ok hawait]
      cases awaited with
      | ended run =>
        refine ⟨2, ?_⟩
        rw [resumes, hrunning, resumes, resumes, resume_running_of_ended rfl hawait]
        cases b with
        | check => rfl
        | stats => exact succeed_eq.trans succeed_eq.symm
      | killed failure =>
        refine ⟨3, ?_⟩
        rw [resumes, hrunning, resumes, resume_running_of_killed rfl hawait, resumes, resumes, resume_reaping rfl]
        exact fail_eq.trans fail_eq.symm

/-- An execution that is given all its turns in a row is the one that runs in one go. -/
theorem exists_resumes_execute (c : Checker) (e : Experiment) (s : Scene) (r : Record) :
    ∃ n f?, resumes c n ⟨e, r, .fresh⟩ s =
      match (e.execute c).run ⟨s, r⟩ with
      | .ok _ after => (⟨e, after.record, .ended none f?⟩, after.scene)
      | .error failure after => (⟨e, after.record, .ended (some failure) f?⟩, after.scene) := by
  cases hprepare : (e.prepare c).run ⟨s, r⟩ with
  | error failure after =>
    refine ⟨1, none, ?_⟩
    rw [resumes, resumes, resume_fresh_of_error (t := ⟨e, r, .fresh⟩) rfl hprepare, Experiment.execute, run_bind_error hprepare]
  | ok f prepared =>
    have hfirst := resume_fresh_of_ok (t := ⟨e, r, .fresh⟩) rfl hprepare
    obtain ⟨n, hn⟩ := exists_resumes_call (c := c) (t := ⟨e, prepared.record, .starting .check f⟩) (s := prepared.scene) rfl
    cases hcheck : (c.run .check f).run prepared.scene with
    | error failure u =>
      rw [hcheck] at hn
      have hphases : (Experiment.phases c f).run prepared = .error failure { prepared with scene := u } :=
        run_bind_error (Progress.act_run_of_error hcheck)
      refine ⟨n + 1, some f, ?_⟩
      rw [resumes, hfirst, hn, Experiment.execute_run_of_error hprepare hphases]
      exact fail_eq
    | ok run u =>
      rw [hcheck] at hn
      let checked : Record := { prepared.record with time := run.elapsed }.withCheck run.output
      have hnote : (Experiment.noteCheck run).run { prepared with scene := u } = .ok () ⟨u, checked⟩ := rfl
      have hrest : (Experiment.phases c f).run prepared =
          (Progress.act (c.run .stats f) >>= Experiment.noteStatistics).run ⟨u, checked⟩ := by
        rw [Experiment.phases, run_bind_ok (Progress.act_run_of_ok hcheck), run_bind_ok hnote]
      obtain ⟨k, hk⟩ := exists_resumes_call (c := c) (t := ⟨e, checked, .starting .stats f⟩) (s := u) rfl
      refine ⟨n + k + 1, some f, ?_⟩
      rw [resumes, hfirst, resumes_add, hn]
      refine hk.trans ?_
      cases hstats : (c.run .stats f).run u with
      | error failure v =>
        have hphases : (Experiment.phases c f).run prepared = .error failure ⟨v, checked⟩ :=
          hrest.trans (run_bind_error (Progress.act_run_of_error (r := ⟨u, checked⟩) hstats))
        rw [Experiment.execute_run_of_error hprepare hphases]
        exact fail_eq
      | ok run' v =>
        have hphases : (Experiment.phases c f).run prepared = .ok () ⟨v, checked.withStatistics run'.output⟩ :=
          hrest.trans (run_bind_ok (Progress.act_run_of_ok (r := ⟨u, checked⟩) hstats))
        rw [Experiment.execute_run_of_ok hprepare hphases]
        exact succeed_eq

/-! ### What a turn does to the files -/

/-- The model file of an execution as it should be: with the text of the experiment, or gone when it is over. -/
def Holds (t : Task) (s : Scene) : Prop :=
  ∀ f, t.stage.file? = some f → if t.stage.isOver && !t.experiment.keepModel then s.work.content? f = none
    else s.work.text? f = some t.experiment.text

theorem Holds.text? (h : t.Holds s) (hfile : t.stage.file? = some f)
    (hover : t.stage.isOver = false ∨ t.experiment.keepModel = true) :
    s.work.text? f = some t.experiment.text := by
  have hf := h f hfile
  rwa [if_neg (by rcases hover with hover | hover <;> simp [hover])] at hf

theorem Holds.congr (h : t.Holds s) (hcontent : ∀ f, t.stage.file? = some f → s'.work.content? f = s.work.content? f) :
    t.Holds s' := by
  intro f hf
  rw [hcontent f hf, WorkDir.text?_congr (hcontent f hf)]
  exact h f hf

/-- What a turn of an execution may do to it and to the scene. -/
structure Turned (c : Checker) (t : Task) (s : Scene) (t' : Task) (s' : Scene) : Prop where
  experiment : t'.experiment = t.experiment
  nextModel : s.nextModel ≤ s'.nextModel
  invocations : s'.invocations ⊆ s.invocations
  /-- Only the batch files, the file of the execution itself and one under a new name are touched. -/
  spared : ∀ g ∉ [FileName.check, .stats, .model s.nextModel], t.stage.file? ≠ some g →
    s'.work.content? g = s.work.content? g
  file : ∀ f, t.stage.file? = some f → t'.stage.file? = some f
  named : t.stage.file? = none → ∀ f, t'.stage.file? = some f → f = .model s.nextModel ∧ s.nextModel < s'.nextModel
  holds : t.Holds s → t'.Holds s'
  starts : s'.starts = s.starts ∨ ∃ b f, t.stage.file? = some f ∧ t.stage.isOver = false ∧
    s'.starts = s.starts ++ [⟨c.command b f, s.work.text? f⟩]

/-- What a turn may do before it comes to the files: one attempt to start the checker on the file of the execution. -/
structure Attempted (c : Checker) (t : Task) (s u : Scene) : Prop where
  work : u.work = s.work
  nextModel : u.nextModel = s.nextModel
  invocations : u.invocations ⊆ s.invocations
  starts : u.starts = s.starts ∨ ∃ b f, t.stage.file? = some f ∧ t.stage.isOver = false ∧
    u.starts = s.starts ++ [⟨c.command b f, s.work.text? f⟩]

theorem attempted_refl (c : Checker) (t : Task) (s : Scene) : t.Attempted c s s := ⟨rfl, rfl, fun _ h => h, .inl rfl⟩

theorem attempted_of_onlyKills {α : Type} {step : Act α} (h : step.OnlyKills) : t.Attempted c s (step.leaves s) := by
  obtain ⟨k, hk⟩ := h s
  rw [hk]
  exact ⟨rfl, rfl, fun _ h => h, .inl rfl⟩

theorem attempted_called (hsteady : ∀ i ∈ s.invocations, i.swap? = none) (hfile : t.stage.file? = some f)
    (hover : t.stage.isOver = false) : t.Attempted c s (s.called c b f) where
  work := by
    rw [Scene.called, WorkDir.swapped_of_steady (Scene.swap?_next hsteady)]
  nextModel := rfl
  invocations := fun _ h => List.mem_of_mem_tail h
  starts := .inr ⟨b, f, hfile, hover, rfl⟩

theorem Attempted.turned {u : Scene} (h : t.Attempted c s u) {t' : Task} (he : t'.experiment = t.experiment)
    (hfile : t'.stage.file? = t.stage.file?) (hover : t'.stage.isOver = t.stage.isOver) : t.Turned c s t' u where
  experiment := he
  nextModel := Nat.le_of_eq h.nextModel.symm
  invocations := h.invocations
  spared g _ _ := by rw [h.work]
  file f hf := hfile.trans hf
  named hnone f hf := by rw [hfile, hnone] at hf; nomatch hf
  holds hholds f hf := by
    rw [hover, he, h.work]
    exact hholds f (hfile.symm.trans hf)
  starts := h.starts

theorem Attempted.turned_discarded {u : Scene} (h : t.Attempted c s u) {failure? : Option Failure} {t' : Task}
    (hfile : t.stage.file? = some f) (hover : t.stage.isOver = false) (he : t'.experiment = t.experiment)
    (hstage : t'.stage = .ended failure? (some f)) : t.Turned c s t' (t.experiment.discarded f u) where
  experiment := he
  nextModel := Nat.le_of_eq h.nextModel.symm
  invocations := h.invocations
  spared g _ hg := by
    have hne : g ≠ f := fun heq => hg (heq ▸ hfile)
    rw [Experiment.discarded, ← h.work]
    dsimp only
    split_ifs
    · rfl
    · exact WorkDir.content?_removed_of_ne hne
  file g hg := by rw [hstage, ← hg, hfile]; rfl
  named hnone := absurd (hfile.symm.trans hnone) (Option.some_ne_none f)
  holds hholds g hg := by
    have htext := hholds f hfile
    rw [hstage] at hg ⊢
    obtain rfl : f = g := Option.some.inj hg
    rw [hover, Bool.false_and, if_neg Bool.false_ne_true] at htext
    rw [he, Experiment.discarded, h.work]
    cases t.experiment.keepModel with
    | true => exact htext
    | false => exact WorkDir.content?_removed htext
  starts := h.starts

theorem turned_fresh {u : Scene} {t' : Task} (h : t.stage = .fresh) (he : t'.experiment = t.experiment)
    (hspared : s.SameBut [.check, .stats, .model s.nextModel] u ∨ s.named.SameBut [.check, .stats, .model s.nextModel] u)
    (hnamed : ∀ f, t'.stage.file? = some f → f = .model s.nextModel ∧ s.nextModel < u.nextModel ∧
      t'.stage.isOver = false ∧ u.work.text? f = some t.experiment.text) : t.Turned c s t' u where
  experiment := he
  nextModel := hspared.elim (fun hs => Nat.le_of_eq hs.nextModel.symm)
    fun hs => Nat.le_of_succ_le (Nat.le_of_eq hs.nextModel.symm)
  invocations := hspared.elim (fun hs => hs.invocations ▸ fun _ h => h) fun hs => hs.invocations ▸ fun _ h => h
  spared g hg _ := hspared.elim (fun hs => hs.content g hg) fun hs => hs.content g hg
  file f hf := by rw [h] at hf; nomatch hf
  named _ f hf := ⟨(hnamed f hf).1, (hnamed f hf).2.1⟩
  holds _ f hf := by
    obtain ⟨-, -, hover, htext⟩ := hnamed f hf
    rw [hover, Bool.false_and, if_neg Bool.false_ne_true, he]
    exact htext
  starts := .inl (hspared.elim (fun hs => hs.starts) fun hs => hs.starts)

theorem fresh_turned (h : t.stage = .fresh) : t.Turned c s (t.resume c s).1 (t.resume c s).2 := by
  by_cases hbatches : s.fate.batches
  swap
  · obtain ⟨reason, -, hprepare⟩ := t.experiment.prepare_run_of_not_batches c hbatches
    rw [resume_fresh_of_error h (hprepare _)]
    exact turned_fresh h rfl (.inl (s.sameBut_supplied.mono (by simp))) fun f hf => nomatch hf
  have hprepared := t.experiment.sameBut_prepared s
  by_cases hmodel : s.fate.model
  swap
  · obtain ⟨reason, -, hprepare⟩ := t.experiment.prepare_run_of_not_model c hbatches hmodel
    rw [resume_fresh_of_error h (hprepare _)]
    exact turned_fresh h rfl (.inr hprepared) fun f hf => nomatch hf
  rw [resume_fresh_of_ok h (t.experiment.prepare_run_of_written c hbatches hmodel)]
  refine turned_fresh h rfl (.inr hprepared) fun f hf => ?_
  obtain rfl := Option.some.inj hf
  exact ⟨rfl, Nat.lt_of_lt_of_eq (Nat.lt_succ_self _) hprepared.nextModel.symm, rfl,
    t.experiment.text?_prepared hbatches hmodel⟩

theorem starting_turned (hsteady : ∀ i ∈ s.invocations, i.swap? = none) (h : t.stage = .starting b f) :
    t.Turned c s (t.resume c s).1 (t.resume c s).2 := by
  have hfile : t.stage.file? = some f := h ▸ rfl
  have hover : t.stage.isOver = false := h ▸ rfl
  have hcalled : t.Attempted c s (s.called c b f) := attempted_called hsteady hfile hover
  cases hnext : s.next with
  | started course =>
    rw [resume_starting_of_ok h (Checker.start_run_of_started hnext)]
    exact hcalled.turned rfl hfile.symm hover.symm
  | refused why =>
    obtain ⟨e, -, hrun⟩ := Checker.start_run_of_refused (c := c) (b := b) (f := f) hnext
    rw [resume_starting_of_error h hrun, fail_eq]
    exact hcalled.turned_discarded hfile hover rfl rfl

theorem running_turned (h : t.stage = .running b f course) : t.Turned c s (t.resume c s).1 (t.resume c s).2 := by
  have hfile : t.stage.file? = some f := h ▸ rfl
  have hover : t.stage.isOver = false := h ▸ rfl
  have hawaited : t.Attempted c s ((c.await b f course).leaves s) := attempted_of_onlyKills Checker.onlyKills_await
  cases hrun : (c.await b f course).run s with
  | error failure u =>
    rw [Act.leaves_of_error hrun] at hawaited
    rw [resume_running_of_error h hrun, fail_eq]
    exact hawaited.turned_discarded hfile hover rfl rfl
  | ok awaited u =>
    rw [Act.leaves_of_ok hrun] at hawaited
    cases awaited with
    | killed failure =>
      rw [resume_running_of_killed h hrun]
      exact hawaited.turned rfl hfile.symm hover.symm
    | ended run =>
      rw [resume_running_of_ended h hrun, proceed.eq_def]
      cases b with
      | check => exact hawaited.turned rfl hfile.symm hover.symm
      | stats =>
        dsimp only
        rw [succeed_eq]
        exact hawaited.turned_discarded hfile hover rfl rfl

theorem resume_turned (hsteady : ∀ i ∈ s.invocations, i.swap? = none) :
    t.Turned c s (t.resume c s).1 (t.resume c s).2 := by
  cases h : t.stage with
  | fresh => exact fresh_turned h
  | starting b f => exact starting_turned hsteady h
  | running b f course => exact running_turned h
  | reaping b f failure =>
    rw [resume_reaping h, fail_eq]
    exact (attempted_refl c t s).turned_discarded (h ▸ rfl) (h ▸ rfl) rfl rfl
  | ended failure f? =>
    rw [resume_ended h]
    exact (attempted_refl c t s).turned rfl rfl rfl

theorem cancel_turned (c : Checker) (t : Task) (s : Scene) : t.Turned c s (t.cancel s).1 (t.cancel s).2 := by
  have hrefl := attempted_refl c t s
  cases h : t.stage with
  | fresh =>
    simp only [cancel, h]
    exact turned_fresh h rfl (.inl (.refl _ s)) fun f hf => nomatch hf
  | starting b f =>
    simp only [cancel, h, fail_eq]
    exact hrefl.turned_discarded (h ▸ rfl) (h ▸ rfl) rfl rfl
  | running b f course =>
    have hkill := Act.anyway_run (Checker.kill course) s
    simp only [EStateM.run] at hkill
    simp only [cancel, h, hkill, fail_eq]
    exact (attempted_of_onlyKills Checker.onlyKills_kill).turned_discarded (h ▸ rfl) (h ▸ rfl) rfl rfl
  | reaping b f failure =>
    simp only [cancel, h, fail_eq]
    exact hrefl.turned_discarded (h ▸ rfl) (h ▸ rfl) rfl rfl
  | ended failure f? =>
    simp only [cancel, h]
    exact hrefl.turned rfl rfl rfl

end Task

/-! ### Turns of several executions -/

namespace Ensemble
variable {c : Checker} {m : Ensemble} {s₀ : Scene} {t : Task} {f : FileName}

theorem take_of_none (turn : Turn) (h : m.tasks[turn.index]? = none) : m.take c turn = m := by
  simp only [take, h]

theorem exists_take (hsteady : ∀ i ∈ m.scene.invocations, i.swap? = none) (turn : Turn)
    (ht : m.tasks[turn.index]? = some t) : ∃ t', t.Turned c m.scene t' (m.take c turn).scene ∧
      ∀ k, (m.take c turn).tasks[k]? = if k = turn.index then some t' else m.tasks[k]? := by
  have hlength : turn.index < m.tasks.length := (List.getElem?_eq_some_iff.1 ht).1
  have hset (t' : Task) (k : Nat) :
      (m.tasks.set turn.index t')[k]? = if k = turn.index then some t' else m.tasks[k]? := by
    rw [List.getElem?_set, if_pos hlength]
    simp only [eq_comm]
  cases turn with
  | resume i =>
    refine ⟨(t.resume c m.scene).1, ?_, ?_⟩ <;> simp only [take, ht]
    · exact Task.resume_turned hsteady
    · exact hset _
  | cancel i =>
    refine ⟨(t.cancel m.scene).1, ?_, ?_⟩ <;> simp only [take, ht]
    · exact Task.cancel_turned c t m.scene
    · exact hset _

/-- Executions that keep apart: each at a model file of its own, which is as it should be, and the checker was never
started on anything else. -/
structure Apart (c : Checker) (s₀ : Scene) (m : Ensemble) : Prop where
  steady : ∀ i ∈ m.scene.invocations, i.swap? = none
  named : ∀ (i : Nat) (t : Task) f, m.tasks[i]? = some t → t.stage.file? = some f →
    ∃ n < m.scene.nextModel, f = .model n
  distinct : ∀ (i j : Nat) (t t' : Task) f, m.tasks[i]? = some t → m.tasks[j]? = some t' → t.stage.file? = some f →
    t'.stage.file? = some f → i = j
  holds : ∀ (i : Nat) (t : Task), m.tasks[i]? = some t → t.Holds m.scene
  starts : ∃ new, m.scene.starts = s₀.starts ++ new ∧ ∀ x ∈ new, ∃ (i : Nat) (t : Task) (b : Batch) (f : FileName),
    m.tasks[i]? = some t ∧ t.stage.file? = some f ∧ x = ⟨c.command b f, some t.experiment.text⟩

namespace Apart

theorem content?_take (h : Apart c s₀ m) (turn : Turn) {i : Nat} (ht : m.tasks[i]? = some t)
    (hf : t.stage.file? = some f) (hi : i ≠ turn.index) :
    (m.take c turn).scene.work.content? f = m.scene.work.content? f := by
  cases hturn : m.tasks[turn.index]? with
  | none => rw [take_of_none turn hturn]
  | some other =>
    obtain ⟨t', hturned, -⟩ := exists_take (c := c) h.steady turn hturn
    obtain ⟨n, hn, rfl⟩ := h.named i t f ht hf
    refine hturned.spared _ ?_ fun hother => hi (h.distinct i _ t other _ ht hturn hf hother)
    simp [Nat.ne_of_lt hn]

theorem take (h : Apart c s₀ m) (turn : Turn) : Apart c s₀ (m.take c turn) := by
  cases hturn : m.tasks[turn.index]? with
  | none => rwa [take_of_none turn hturn]
  | some t =>
  obtain ⟨t', hturned, htasks⟩ := exists_take (c := c) h.steady turn hturn
  have hcases : ∀ k x, (m.take c turn).tasks[k]? = some x →
      k = turn.index ∧ x = t' ∨ k ≠ turn.index ∧ m.tasks[k]? = some x := by
    intro k x hx
    rw [htasks] at hx
    split_ifs at hx with hk
    · exact .inl ⟨hk, (Option.some.inj hx).symm⟩
    · exact .inr ⟨hk, hx⟩
  have hfile : ∀ f, t'.stage.file? = some f → t.stage.file? = some f ∨
      f = .model m.scene.nextModel ∧ m.scene.nextModel < (m.take c turn).scene.nextModel := by
    intro f hf
    cases hold : t.stage.file? with
    | none => exact .inr (hturned.named hold f hf)
    | some g => exact .inl ((hturned.file g hold).symm.trans hf)
  have hapart : ∀ k x f, k ≠ turn.index → m.tasks[k]? = some x → x.stage.file? = some f → t'.stage.file? ≠ some f := by
    intro k x f hk hx hf hf'
    obtain hold | ⟨rfl, -⟩ := hfile f hf'
    · exact hk (h.distinct k _ x t f hx hturn hf hold)
    · obtain ⟨n, hn, heq⟩ := h.named k x _ hx hf
      exact Nat.ne_of_gt hn (FileName.model.inj heq)
  refine ⟨fun i hi => h.steady i (hturned.invocations hi), ?_, ?_, ?_, ?_⟩
  · intro k x f hx hf
    obtain ⟨-, rfl⟩ | ⟨-, hx⟩ := hcases k x hx
    · obtain hold | ⟨rfl, hlt⟩ := hfile f hf
      · obtain ⟨n, hn, rfl⟩ := h.named _ t f hturn hold
        exact ⟨n, Nat.lt_of_lt_of_le hn hturned.nextModel, rfl⟩
      · exact ⟨_, hlt, rfl⟩
    · obtain ⟨n, hn, rfl⟩ := h.named k x f hx hf
      exact ⟨n, Nat.lt_of_lt_of_le hn hturned.nextModel, rfl⟩
  · intro k l x y f hx hy hf hf'
    obtain ⟨rfl, rfl⟩ | ⟨hk, hx⟩ := hcases k x hx <;> obtain ⟨rfl, rfl⟩ | ⟨hl, hy⟩ := hcases l y hy
    · rfl
    · exact absurd hf (hapart l y f hl hy hf')
    · exact absurd hf' (hapart k x f hk hx hf)
    · exact h.distinct k l x y f hx hy hf hf'
  · intro k x hx
    obtain ⟨-, rfl⟩ | ⟨hk, hx⟩ := hcases k x hx
    · exact hturned.holds (h.holds _ t hturn)
    · exact (h.holds k x hx).congr fun f hf => h.content?_take turn hx hf hk
  · obtain ⟨new, hnew, hstarted⟩ := h.starts
    have hkeeps : ∀ x, (∃ (i : Nat) (t : Task) (b : Batch) (f : FileName), m.tasks[i]? = some t ∧
        t.stage.file? = some f ∧ x = (⟨c.command b f, some t.experiment.text⟩ : Start)) →
        ∃ (i : Nat) (t : Task) (b : Batch) (f : FileName), (m.take c turn).tasks[i]? = some t ∧
          t.stage.file? = some f ∧ x = ⟨c.command b f, some t.experiment.text⟩ := by
      rintro x ⟨i, y, b, f, hy, hf, rfl⟩
      by_cases hi : i = turn.index
      · subst hi
        obtain rfl := Option.some.inj (hturn.symm.trans hy)
        exact ⟨_, t', b, f, (htasks _).trans (if_pos rfl), hturned.file f hf, by rw [hturned.experiment]⟩
      · exact ⟨i, y, b, f, ((htasks i).trans (if_neg hi)).trans hy, hf, rfl⟩
    obtain hsame | ⟨b, f, hf, hover, happended⟩ := hturned.starts
    · exact ⟨new, hsame.trans hnew, fun x hx => hkeeps x (hstarted x hx)⟩
    · refine ⟨new ++ [⟨c.command b f, m.scene.work.text? f⟩], ?_, fun x hx => hkeeps x ?_⟩
      · rw [happended, hnew, List.append_assoc]
      · obtain hx | hx := List.mem_append.1 hx
        · exact hstarted x hx
        · rw [List.mem_singleton.1 hx, (h.holds _ t hturn).text? hf (.inl hover)]
          exact ⟨_, t, b, f, hturn, hf, rfl⟩

theorem takeAll (h : Apart c s₀ m) (turns : List Turn) : Apart c s₀ (m.takeAll c turns) := by
  induction turns generalizing m with
  | nil => exact h
  | cons turn turns ih => exact ih (h.take turn)

theorem map_experiment_take (h : Apart c s₀ m) (turn : Turn) :
    (m.take c turn).tasks.map Task.experiment = m.tasks.map Task.experiment := by
  cases hturn : m.tasks[turn.index]? with
  | none => rw [take_of_none turn hturn]
  | some t =>
    obtain ⟨t', hturned, htasks⟩ := exists_take (c := c) h.steady turn hturn
    refine List.ext_getElem? fun k => ?_
    rw [List.getElem?_map, List.getElem?_map, htasks]
    split_ifs with hk
    · rw [hk, hturn, Option.map_some, Option.map_some, hturned.experiment]
    · rfl

theorem map_experiment_takeAll (h : Apart c s₀ m) (turns : List Turn) :
    (m.takeAll c turns).tasks.map Task.experiment = m.tasks.map Task.experiment := by
  induction turns generalizing m with
  | nil => rfl
  | cons turn turns ih => exact (ih (h.take turn)).trans (h.map_experiment_take turn)

theorem exists_file_take (h : Apart c s₀ m) (turn : Turn) {i : Nat} (ht : m.tasks[i]? = some t)
    (hf : t.stage.file? = some f) : ∃ t', (m.take c turn).tasks[i]? = some t' ∧ t'.stage.file? = some f := by
  cases hturn : m.tasks[turn.index]? with
  | none => exact ⟨t, by rwa [take_of_none turn hturn], hf⟩
  | some other =>
    obtain ⟨t', hturned, htasks⟩ := exists_take (c := c) h.steady turn hturn
    by_cases hi : i = turn.index
    · subst hi
      obtain rfl := Option.some.inj (ht.symm.trans hturn)
      exact ⟨t', (htasks _).trans (if_pos rfl), hturned.file f hf⟩
    · exact ⟨t, ((htasks i).trans (if_neg hi)).trans ht, hf⟩

theorem exists_file_takeAll (h : Apart c s₀ m) (turns : List Turn) {i : Nat} (ht : m.tasks[i]? = some t)
    (hf : t.stage.file? = some f) : ∃ t', (m.takeAll c turns).tasks[i]? = some t' ∧ t'.stage.file? = some f := by
  induction turns generalizing m t with
  | nil => exact ⟨t, ht, hf⟩
  | cons turn turns ih =>
    obtain ⟨t', ht', hf'⟩ := h.exists_file_take turn ht hf
    exact ih (h.take turn) ht' hf'

end Apart

theorem stage_ofExperiments {es : List (Experiment × Record)} {i : Nat}
    (h : (ofExperiments s₀ es).tasks[i]? = some t) : t.stage = .fresh := by
  obtain ⟨x, -, rfl⟩ := Option.map_eq_some_iff.1 ((List.getElem?_map ..).symm.trans h)
  rfl

theorem apart_ofExperiments (es : List (Experiment × Record)) (hsteady : ∀ i ∈ s₀.invocations, i.swap? = none) :
    Apart c s₀ (ofExperiments s₀ es) where
  steady := hsteady
  named i t f ht hf := by rw [stage_ofExperiments ht] at hf; nomatch hf
  distinct i j t t' f ht _ hf _ := by rw [stage_ofExperiments ht] at hf; nomatch hf
  holds i t ht f hf := by rw [stage_ofExperiments ht] at hf; nomatch hf
  starts := ⟨[], (List.append_nil _).symm, fun x hx => nomatch hx⟩

end Ensemble

namespace Checker
variable {c : Checker}

theorem fileName_of_path {f g : FileName} (h : c.path f = c.path g) : c.fileName f = c.fileName g :=
  (String.append_right_inj _).1 h

theorem path_model_injective (hid : Function.Injective c.idText) : Function.Injective fun n => c.path (.model n) := by
  intro n n' h
  have hname := fileName_of_path h
  exact hid ((String.append_right_inj _).1 ((String.append_left_inj _).1 hname))

theorem path_model_ne (n : Nat) (b : Batch) : c.path (.model n) ≠ c.path b.file := by
  intro h
  have hname := congrArg String.toList (fileName_of_path h)
  cases b <;> simp [fileName, Batch.file] at hname

end Checker

namespace Ensemble

/-- However executions at one checker take turns, fail, time out or are given up: none of them sees the model of another
one. Each calls the checker on a file of its own, with nothing but its own text in it from the start of a call to its end,
and the file is gone when the execution is over. -/
theorem executions_separate (c : Checker) (hid : Function.Injective c.idText) (s : Scene)
    (hsteady : ∀ i ∈ s.invocations, i.swap? = none) (es : List (Experiment × Record)) (turns : List Turn) :
    ((ofExperiments s es).takeAll c turns).tasks.map Task.experiment = es.map Prod.fst ∧
      Separate c s ((ofExperiments s es).takeAll c turns) := by
  have hstart := apart_ofExperiments (c := c) es hsteady
  have hapart := hstart.takeAll turns
  refine ⟨?_, ?_⟩
  · rw [hstart.map_experiment_takeAll, ofExperiments, List.map_map]
    rfl
  · exact {
      calls := fun i t b f ht hcall =>
        (hapart.holds i t ht).text? (Stage.file?_of_call? hcall) (.inl (Stage.isOver_of_call? hcall))
      starts := hapart.starts
      stays := fun i t f more ht hf => hapart.exists_file_takeAll more ht hf
      gone := fun i t f ht hf hover hkeep => by
        have hholds := hapart.holds i t ht f hf
        rwa [hover, hkeep, if_pos (by rfl)] at hholds
      kept := fun i t f ht hf hkeep => (hapart.holds i t ht).text? hf (.inr hkeep)
      spared := fun turn i t f ht hf hi => hapart.content?_take turn ht hf hi
      paths := fun i j t t' f f' ht ht' hf hf' hne hpath => by
        obtain ⟨n, -, rfl⟩ := hapart.named i t f ht hf
        obtain ⟨n', -, rfl⟩ := hapart.named j t' f' ht' hf'
        obtain rfl := Checker.path_model_injective hid hpath
        exact hne (hapart.distinct i j t t' _ ht ht' hf hf')
      batches := fun i t f b ht hf => by
        obtain ⟨n, -, rfl⟩ := hapart.named i t f ht hf
        exact Checker.path_model_ne n b }

/-- Two counters whose calls overlap, the first of which is given up meanwhile. -/
def overlapping : Ensemble :=
  (ofExperiments Experiment.twoReports [(⟨.counter 1 2, .xStaysNull, false⟩, {}), (⟨.counter 1 3, .xStaysNull, false⟩, {})]).takeAll {}
    [.resume 0, .resume 1, .resume 0, .resume 1, .cancel 0]

theorem executions_separate_of_overlapping :
    overlapping.scene.work.text? (.model 1) = some (⟨.counter 1 3, .xStaysNull, false⟩ : Experiment).text ∧
      overlapping.scene.work.content? (.model 0) = none := by
  have hid : Function.Injective fun n : Nat => toString n := fun m n h =>
    Smv.toDigits_injective (by simpa only [Smv.toList_toString_natCast] using congrArg String.toList h)
  have hsteady : ∀ i ∈ Experiment.twoReports.invocations, i.swap? = none := by
    simp [Experiment.twoReports, Invocation.swap?]
  obtain ⟨hexperiments, h⟩ := executions_separate {} hid Experiment.twoReports hsteady
    [(⟨.counter 1 2, .xStaysNull, false⟩, {}), (⟨.counter 1 3, .xStaysNull, false⟩, {})]
    [.resume 0, .resume 1, .resume 0, .resume 1, .cancel 0]
  have hcall : (overlapping.tasks[1]?.bind fun t => t.stage.call?) = some (.check, .model 1) := by decide +kernel
  have hover : (overlapping.tasks[0]?.bind fun t => if t.stage.isOver && !t.experiment.keepModel then t.stage.file?
      else none) = some (.model 0) := by decide +kernel
  obtain ⟨t, ht, hcall⟩ := Option.bind_eq_some_iff.1 hcall
  obtain ⟨t', ht', hover⟩ := Option.bind_eq_some_iff.1 hover
  obtain ⟨hover, hfile⟩ := Option.ite_none_right_eq_some.1 hover
  rw [Bool.and_eq_true, Bool.not_eq_true'] at hover
  have hexperiment : overlapping.tasks[1]?.map Task.experiment = some ⟨.counter 1 3, .xStaysNull, false⟩ :=
    (List.getElem?_map ..).symm.trans (congrArg (·[1]?) hexperiments)
  rw [ht] at hexperiment
  exact ⟨Option.some.inj hexperiment ▸ h.calls 1 t .check (.model 1) ht hcall, h.gone 0 t' (.model 0) ht' hfile hover.1 hover.2⟩

end Ensemble

end StreamCheck.Verification
