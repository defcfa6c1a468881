import Mathlib.Data.Finset.Preimage
import Mathlib.Data.Fintype.EquivFin
import StreamCheck.Proofs.Verification.Interleaving

/-! The batch files: every call of the checker relies on what stands in them, but they are written only where one of
them is missing. So the checker reads its commands unless something else was there from the start. -/

namespace StreamCheck.Verification

/-! ### What stands in the batch files -/

namespace WorkDir
variable {d d' : WorkDir} {f g : FileName}

def Scripted (d : WorkDir) : Prop := ∀ b : Batch, d.text? b.file = some b.commands

/-- Where both batch files are there, they hold their commands: nothing else would be taken for them. -/
def Sound (d : WorkDir) : Prop := d.isFile .check → d.isFile .stats → d.Scripted

theorem isFile_congr (h : d'.content? f = d.content? f) : d'.isFile f = d.isFile f := by
  unfold isFile
  rw [h]

theorem isFile_of_text? {t : String} (h : d.text? f = some t) : d.isFile f = true := by
  rw [isFile, text?_eq_some_iff.1 h]

theorem takes_of_isFile (h : d.isFile f = true) : d.takes f = true := by
  rw [takes_iff]
  refine ⟨?_, fun hdirectory => ?_⟩
  · rintro rfl
    cases h
  · rw [isFile, hdirectory] at h
    cases h

theorem Sound.congr (h : d.Sound) (hcontent : ∀ b : Batch, d'.content? b.file = d.content? b.file) : d'.Sound := by
  intro hcheck hstats b
  have hcheck' : d.isFile .check = true := (isFile_congr (hcontent .check)).symm.trans hcheck
  have hstats' : d.isFile .stats = true := (isFile_congr (hcontent .stats)).symm.trans hstats
  rw [text?_congr (hcontent b)]
  exact h hcheck' hstats' b

theorem content?_swapped_of_ne {i : Invocation} (h : g ≠ f) : (d.swapped f i).content? g = d.content? g := by
  cases i with
  | refused why => rfl
  | started course =>
    obtain ⟨_, _, _, _, _ | _ | _, _⟩ := course
    · rfl
    · exact (content?_erase d f g).trans (if_neg h)
    · exact content?_put_of_ne h

theorem exists_model (d : WorkDir) : ∃ n, d.content? (.model n) = none := by
  cases d with
  | directory files =>
    have hinj : Function.Injective FileName.model := fun _ _ h => FileName.model.inj h
    obtain ⟨n, hn⟩ := Infinite.exists_notMem_finset ((files.map Prod.fst).toFinset.preimage _ hinj.injOn)
    refine ⟨n, List.lookup_eq_none_iff.2 fun x hx => ?_⟩
    rw [Finset.mem_preimage, List.mem_toFinset] at hn
    rw [bne_iff_ne]
    rintro heq
    exact hn (heq ▸ List.mem_map_of_mem hx)
  | _ => exact ⟨0, rfl⟩

end WorkDir

namespace Checker
variable {s s' : Scene}

theorem prerequisites_iff : prerequisites s = true ↔ ∀ b : Batch, s.work.isFile b.file = true := by
  rw [prerequisites, Bool.and_eq_true]
  constructor
  · rintro ⟨hcheck, hstats⟩ (_ | _)
    · exact hcheck
    · exact hstats
  · exact fun h => ⟨h .check, h .stats⟩

theorem prerequisites_of_scripted (h : s.work.Scripted) : prerequisites s = true :=
  prerequisites_iff.2 fun b => WorkDir.isFile_of_text? (h b)

theorem prerequisites_congr (h : ∀ b : Batch, s'.work.content? b.file = s.work.content? b.file) :
    prerequisites s' = prerequisites s := by
  rw [Bool.eq_iff_iff, prerequisites_iff, prerequisites_iff]
  simp only [WorkDir.isFile_congr (h _)]

end Checker

theorem Batch.file_ne_model (b : Batch) (n : Nat) : b.file ≠ .model n := by
  cases b <;> simp [file]

/-! ### Writing them -/

namespace Act
variable {α β : Type} {step : Act α} {next : Act β}

/-- A step that uses up answers of the system, and makes nothing writable that was not. -/
def Modest (step : Act α) : Prop := ∀ s : Scene, (step.leaves s).refusals ⊆ s.refusals ∧
  ∀ f, (step.leaves s).work.takes f → s.work.takes f

theorem Modest.andThen (h : Modest step) (h' : Modest next) : Modest (step >>= fun _ => next) := by
  intro s
  by_cases hs : step.Succeeds s
  · rw [leaves_andThen hs]
    obtain ⟨hrefusals, htakes⟩ := h s
    obtain ⟨hrefusals', htakes'⟩ := h' (step.leaves s)
    exact ⟨fun r hr => hrefusals (hrefusals' hr), fun f hf => htakes f (htakes' f hf)⟩
  · rw [leaves_andThen_of_not hs]
    exact h s

theorem modest_createWork : Modest createWork := by
  intro s
  rw [leaves, createWork_run]
  split_ifs
  · exact ⟨fun _ hr => List.mem_of_mem_tail hr, fun f hf => WorkDir.takes_opened ▸ hf⟩
  · exact ⟨fun _ hr => List.mem_of_mem_tail hr, fun f hf => hf⟩

theorem modest_write (f : FileName) (text : String) : Modest (write f text) := by
  intro s
  rw [leaves, write_run]
  split_ifs with h
  · refine ⟨fun _ hr => List.mem_of_mem_tail hr, fun g hg => ?_⟩
    by_cases heq : g = f
    · exact heq ▸ h.2.2
    · exact (WorkDir.takes_put_of_ne heq).symm.trans hg
  · exact ⟨fun _ hr => List.mem_of_mem_tail hr, fun g hg => hg⟩

end Act

namespace Scene

def Willing (s : Scene) : Prop := ∀ r ∈ s.refusals, r = none

theorem Willing.grants {s : Scene} (h : s.Willing) (answered count : Nat) : s.grants answered count = true := by
  rw [Scene.grants, List.all_eq_true]
  intro r hr
  rw [h r (List.mem_of_mem_drop (List.mem_of_mem_take hr))]
  rfl

end Scene

namespace Checker
variable {s : Scene}

theorem modest_batchWrites : Act.Modest batchWrites :=
  .andThen Act.modest_createWork (.andThen (Act.modest_write _ _) (Act.modest_write _ _))

theorem modest_modelWrites {f : FileName} {text : String} : Act.Modest (modelWrites f text) :=
  .andThen Act.modest_createWork (Act.modest_write _ _)

theorem scripted_batchWrites (h : batchWrites.Succeeds s) : (batchWrites.leaves s).work.Scripted := by
  obtain ⟨hcreate, hwrites⟩ := Act.succeeds_andThen_iff.1 h
  obtain ⟨hcheck, hstats⟩ := Act.succeeds_andThen_iff.1 hwrites
  obtain ⟨files, hfiles⟩ := WorkDir.exists_opened (Act.succeeds_createWork_iff.1 hcreate).2
  rw [batchWrites, Act.leaves_andThen hcreate, Act.leaves_andThen hcheck, Act.leaves_write hstats,
    Act.leaves_write hcheck, Act.leaves_createWork hcreate]
  intro b
  rw [WorkDir.text?_eq_some_iff, Scene.written, Scene.written, Scene.created, hfiles]
  cases b with
  | check => exact (WorkDir.content?_put_of_ne (by decide)).trans ((WorkDir.content?_put _).trans (if_pos rfl))
  | stats => exact (WorkDir.content?_put _).trans (if_pos rfl)

/-- Where the system refuses nothing, writing the batch files fails only over something that is no file. -/
theorem sound_batchWrites (h : s.Willing) : (batchWrites.leaves s).work.Sound := by
  intro hcheck hstats
  obtain ⟨-, htakes⟩ := modest_batchWrites s
  exact scripted_batchWrites (succeeds_batchWrites_iff.2 ⟨h.grants 0 3, htakes _ (WorkDir.takes_of_isFile hcheck),
    htakes _ (WorkDir.takes_of_isFile hstats)⟩)

end Checker

namespace Scene
variable {s : Scene}

theorem refusals_supplied : s.supplied.refusals ⊆ s.refusals := by
  rw [supplied]
  split_ifs
  · exact fun _ h => h
  · exact (Checker.modest_batchWrites s).1

theorem Willing.supplied (h : s.Willing) :
    s.supplied = s ∨ Checker.prerequisites s = false ∧ s.supplied.work.Sound := by
  rw [Scene.supplied]
  cases hready : Checker.prerequisites s with
  | true => exact .inl (if_pos rfl)
  | false => exact .inr ⟨rfl, Checker.sound_batchWrites h⟩

theorem prerequisites_supplied (h : s.fate.batches) : Checker.prerequisites s.supplied = true := by
  rw [supplied]
  split_ifs with hready
  · exact hready
  · exact Checker.prerequisites_of_scripted
      (Checker.scripted_batchWrites ((fate_batches_iff.1 h).resolve_left hready))

end Scene

namespace Experiment
variable {e : Experiment} {s : Scene}

theorem content?_prepared (b : Batch) :
    (e.prepared s).work.content? b.file = s.supplied.work.content? b.file :=
  (Checker.spares_modelWrites s.supplied.named).content b.file (by simpa using b.file_ne_model s.nextModel)

theorem refusals_prepared : (e.prepared s).refusals ⊆ s.refusals :=
  fun _ hr => Scene.refusals_supplied ((Checker.modest_modelWrites s.supplied.named).1 hr)

end Experiment

/-! ### One turn -/

def Stage.batch? : Stage → Option Batch
  | starting b _ | running b _ _ | reaping b _ _ => some b
  | _ => none

namespace Task
variable {c : Checker} {t t' : Task} {s s' : Scene} {b : Batch} {f : FileName} {n : Nat}

/-- What a turn may do to the batch files: nothing, or write both of them where one was missing. -/
structure Tends (t : Task) (s : Scene) (t' : Task) (s' : Scene) : Prop where
  refusals : s'.refusals ⊆ s.refusals
  batches : (∀ b : Batch, s'.work.content? b.file = s.work.content? b.file) ∨
    Checker.prerequisites s = false ∧ s'.work.Sound
  file : ∀ f, t'.stage.file? = some f → ∃ n, f = .model n
  /-- An execution comes to a call with both batch files there. -/
  calls : t'.stage.batch?.isSome → t.stage.batch?.isSome ∨ Checker.prerequisites s'

theorem tends_of_model (hrefusals : s'.refusals = s.refusals)
    (hcontent : ∀ g, g ≠ .model n → s'.work.content? g = s.work.content? g)
    (hfile : t'.stage.file? = some (.model n)) (hcalls : t.stage.batch?.isSome) : t.Tends s t' s' where
  refusals := hrefusals ▸ fun _ h => h
  batches := .inl fun b => hcontent b.file (b.file_ne_model n)
  file _ hf := ⟨n, Option.some.inj (hf.symm.trans hfile)⟩
  calls _ := .inl hcalls

theorem tends_discarded {u : Scene} {failure? : Option Failure} (hrefusals : u.refusals = s.refusals)
    (hcontent : ∀ g, g ≠ .model n → u.work.content? g = s.work.content? g)
    (hstage : t'.stage = .ended failure? (some (.model n))) (hcalls : t.stage.batch?.isSome) :
    t.Tends s t' (t.experiment.discarded (.model n) u) := by
  refine tends_of_model (n := n) hrefusals (fun g hg => ?_) (by rw [hstage]; rfl) hcalls
  rw [← hcontent g hg, Experiment.discarded]
  dsimp only
  split_ifs
  · rfl
  · exact WorkDir.content?_removed_of_ne hg

theorem tends_failed {failure? : Option Failure} (hstage : t'.stage = .ended failure? none)
    (hrefusals : s'.refusals ⊆ s.refusals)
    (hbatches : (∀ b : Batch, s'.work.content? b.file = s.work.content? b.file) ∨
      Checker.prerequisites s = false ∧ s'.work.Sound) : t.Tends s t' s' where
  refusals := hrefusals
  batches := hbatches
  file f hf := by
    rw [hstage] at hf
    cases hf
  calls hcalls := by
    rw [hstage] at hcalls
    cases hcalls

theorem fresh_tends (h : t.stage = .fresh) (hwilling : s.Willing) :
    t.Tends s (t.resume c s).1 (t.resume c s).2 := by
  have hprepared : (∀ b : Batch, (t.experiment.prepared s).work.content? b.file = s.work.content? b.file) ∨
      Checker.prerequisites s = false ∧ (t.experiment.prepared s).work.Sound := by
    obtain hsame | ⟨hmissing, hsound⟩ := hwilling.supplied
    · exact .inl fun b => (Experiment.content?_prepared b).trans (by rw [hsame])
    · exact .inr ⟨hmissing, hsound.congr Experiment.content?_prepared⟩
  by_cases hwritten : s.fate.batches
  swap
  · obtain ⟨reason, -, hprepare⟩ := t.experiment.prepare_run_of_not_batches c hwritten
    rw [resume_fresh_of_error h (hprepare _)]
    exact tends_failed rfl Scene.refusals_supplied (hwilling.supplied.imp (fun hsame b => by rw [hsame]) id)
  by_cases hmodel : s.fate.model
  swap
  · obtain ⟨reason, -, hprepare⟩ := t.experiment.prepare_run_of_not_model c hwritten hmodel
    rw [resume_fresh_of_error h (hprepare _)]
    exact tends_failed rfl Experiment.refusals_prepared hprepared
  rw [resume_fresh_of_ok h (t.experiment.prepare_run_of_written c hwritten hmodel)]
  have hready : Checker.prerequisites (t.experiment.prepared s) = true :=
    (Checker.prerequisites_congr Experiment.content?_prepared).trans (Scene.prerequisites_supplied hwritten)
  exact ⟨Experiment.refusals_prepared, hprepared, fun f hf => ⟨_, (Option.some.inj hf).symm⟩, fun _ => .inr hready⟩

theorem resume_tends (hfile : ∀ f, t.stage.file? = some f → ∃ n, f = .model n) (hwilling : s.Willing) :
    t.Tends s (t.resume c s).1 (t.resume c s).2 := by
  cases h : t.stage with
  | fresh => exact fresh_tends h hwilling
  | starting b f =>
    obtain ⟨n, rfl⟩ := hfile f (h ▸ rfl)
    have hcalls : t.stage.batch?.isSome := h ▸ rfl
    have hcalled (g : FileName) (hg : g ≠ .model n) :
        (s.called c b (.model n)).work.content? g = s.work.content? g := WorkDir.content?_swapped_of_ne hg
    cases hnext : s.next with
    | started course =>
      rw [resume_starting_of_ok h (Checker.start_run_of_started hnext)]
      exact tends_of_model rfl hcalled rfl hcalls
    | refused why =>
      obtain ⟨e, -, hrun⟩ := Checker.start_run_of_refused (c := c) (b := b) (f := .model n) hnext
      rw [resume_starting_of_error h hrun, fail_eq]
      exact tends_discarded (u := s.called c b (.model n)) rfl hcalled rfl hcalls
  | running b f course =>
    obtain ⟨n, rfl⟩ := hfile f (h ▸ rfl)
    have hcalls : t.stage.batch?.isSome := h ▸ rfl
    have honly : (c.await b (.model n) course).OnlyKills := Checker.onlyKills_await
    obtain ⟨k, hk⟩ := honly s
    cases hrun : (c.await b (.model n) course).run s with
    | error failure u =>
      obtain rfl := (Act.leaves_of_error hrun).symm.trans hk
      rw [resume_running_of_error h hrun, fail_eq]
      exact tends_discarded (u := { s with kills := k }) rfl (fun _ _ => rfl) rfl hcalls
    | ok awaited u =>
      obtain rfl := (Act.leaves_of_ok hrun).symm.trans hk
      cases awaited with
      | killed failure =>
        rw [resume_running_of_killed h hrun]
        exact tends_of_model rfl (fun _ _ => rfl) rfl hcalls
      | ended run =>
        rw [resume_running_of_ended h hrun, proceed.eq_def]
        cases b with
        | check => exact tends_of_model rfl (fun _ _ => rfl) rfl hcalls
        | stats =>
          dsimp only
          rw [succeed_eq]
          exact tends_discarded (u := { s with kills := k }) rfl (fun _ _ => rfl) rfl hcalls
  | reaping b f failure =>
    obtain ⟨n, rfl⟩ := hfile f (h ▸ rfl)
    rw [resume_reaping h, fail_eq]
    exact tends_discarded rfl (fun _ _ => rfl) rfl (h ▸ rfl)
  | ended failure f? =>
    rw [resume_ended h]
    exact ⟨fun _ h => h, .inl fun _ => rfl, hfile, .inl⟩

theorem cancel_tends (hfile : ∀ f, t.stage.file? = some f → ∃ n, f = .model n) :
    t.Tends s (t.cancel s).1 (t.cancel s).2 := by
  cases h : t.stage with
  | fresh =>
    simp only [cancel, h]
    exact tends_failed rfl (fun _ h => h) (.inl fun _ => rfl)
  | starting b f =>
    obtain ⟨n, rfl⟩ := hfile f (h ▸ rfl)
    simp only [cancel, h, fail_eq]
    exact tends_discarded rfl (fun _ _ => rfl) rfl (h ▸ rfl)
  | running b f course =>
    obtain ⟨n, rfl⟩ := hfile f (h ▸ rfl)
    have honly : (Checker.kill course).OnlyKills := Checker.onlyKills_kill
    obtain ⟨k, hk⟩ := honly s
    have hkill := Act.anyway_run (Checker.kill course) s
    simp only [EStateM.run, hk] at hkill
    simp only [cancel, h, hkill, fail_eq]
    exact tends_discarded (u := { s with kills := k }) rfl (fun _ _ => rfl) rfl (h ▸ rfl)
  | reaping b f failure =>
    obtain ⟨n, rfl⟩ := hfile f (h ▸ rfl)
    simp only [cancel, h, fail_eq]
    exact tends_discarded rfl (fun _ _ => rfl) rfl (h ▸ rfl)
  | ended failure f? =>
    simp only [cancel, h]
    exact ⟨fun _ h => h, .inl fun _ => rfl, hfile, .inl⟩

end Task

/-! ### Every sequence of turns -/

namespace Ensemble
variable {c : Checker} {m : Ensemble} {s : Scene} {t : Task}

/-- Every execution that calls the checker, or is about to, finds the right commands in the batch file that it names. -/
def Scripted (m : Ensemble) : Prop :=
  ∀ t ∈ m.tasks, ∀ b, t.stage.batch? = some b → m.scene.work.text? b.file = some b.commands

structure Tended (m : Ensemble) : Prop where
  willing : m.scene.Willing
  sound : m.scene.work.Sound
  file : ∀ t ∈ m.tasks, ∀ f, t.stage.file? = some f → ∃ n, f = .model n
  calls : ∀ t ∈ m.tasks, t.stage.batch?.isSome → Checker.prerequisites m.scene

theorem Tended.scripted (h : m.Tended) : m.Scripted := by
  intro t ht b hb
  have hready := Checker.prerequisites_iff.1 (h.calls t ht (by rw [hb]; rfl))
  exact h.sound (hready .check) (hready .stats) b

theorem Tended.set {i : Nat} {t' : Task} {s' : Scene} (h : m.Tended) (ht : t ∈ m.tasks)
    (htends : t.Tends m.scene t' s') : Tended ⟨s', m.tasks.set i t'⟩ := by
  -- Whoever is at a call keeps both batch files from being written again.
  have hready (hcalls : ∃ t ∈ m.tasks, t.stage.batch?.isSome) : Checker.prerequisites s' = true := by
    obtain ⟨t, ht, hcalls⟩ := hcalls
    have hready := h.calls t ht hcalls
    obtain hsame | ⟨hmissing, -⟩ := htends.batches
    · exact (Checker.prerequisites_congr hsame).trans hready
    · exact absurd hready (by simp [hmissing])
  refine ⟨fun r hr => h.willing r (htends.refusals hr), ?_, fun x hx => ?_, fun x hx hcalls => ?_⟩
  · exact htends.batches.elim h.sound.congr And.right
  · obtain hx | rfl := List.mem_or_eq_of_mem_set hx
    · exact h.file x hx
    · exact htends.file
  · obtain hx | rfl := List.mem_or_eq_of_mem_set hx
    · exact hready ⟨x, hx, hcalls⟩
    · exact (htends.calls hcalls).elim (fun hold => hready ⟨t, ht, hold⟩) id

theorem Tended.take (h : m.Tended) (turn : Turn) : (m.take c turn).Tended := by
  cases hturn : m.tasks[turn.index]? with
  | none => rwa [take_of_none turn hturn]
  | some t =>
    have ht : t ∈ m.tasks := List.mem_of_getElem? hturn
    cases turn with
    | resume i =>
      simp only [Ensemble.take, hturn]
      exact h.set ht (Task.resume_tends (h.file t ht) h.willing)
    | cancel i =>
      simp only [Ensemble.take, hturn]
      exact h.set ht (Task.cancel_tends (h.file t ht))

theorem Tended.takeAll (h : m.Tended) (turns : List Turn) : (m.takeAll c turns).Tended := by
  induction turns generalizing m with
  | nil => exact h
  | cons turn turns ih => exact ih (h.take turn)

theorem tended_ofExperiments (es : List (Experiment × Record)) (hwilling : s.Willing) (hsound : s.work.Sound) :
    (ofExperiments s es).Tended := by
  have hfresh : ∀ t ∈ (ofExperiments s es).tasks, t.stage = .fresh := by
    intro t ht
    obtain ⟨i, hi⟩ := List.mem_iff_getElem?.1 ht
    exact stage_ofExperiments hi
  refine ⟨hwilling, hsound, fun t ht f hf => ?_, fun t ht hcalls => ?_⟩
  · rw [hfresh t ht] at hf
    cases hf
  · rw [hfresh t ht] at hcalls
    cases hcalls

theorem takeAll_replicate (n : Nat) : takeAll c ⟨s, [t]⟩ (List.replicate n (.resume 0)) =
    ⟨(t.resumes c n s).2, [(t.resumes c n s).1]⟩ := by
  induction n generalizing s t with
  | zero => rfl
  | succ n ih => exact ih

end Ensemble

namespace Experiment
variable {e : Experiment} {c : Checker} {s : Scene} {r : Record} {course : Course}

theorem first_call (hready : Checker.prerequisites s) (hmodel : s.fate.model) :
    Task.resumes c 1 ⟨e, r, .fresh⟩ s =
      (⟨e, { r with status := .executing }, .starting .check (.model s.nextModel)⟩, e.prepared s) := by
  have hbatches : s.fate.batches := Scene.fate_batches_iff.2 (.inl hready)
  have hprepare : (e.prepare c).run ⟨s, r⟩ = _ := e.prepare_run_of_written c hbatches hmodel
  rw [Task.resumes, Task.resumes, Task.resume_fresh_of_ok (t := ⟨e, r, .fresh⟩) rfl hprepare]

theorem second_call (hready : Checker.prerequisites s) (hmodel : s.fate.model)
    (hlimit : c.timeout.bind Failure.ofLimit? = none) (hnext : s.next = .started course)
    (hpassed : (Invocation.started course).passed? c = some course) :
    ∃ record, Task.resumes c 3 ⟨e, r, .fresh⟩ s =
      (⟨e, record, .starting .stats (.model s.nextModel)⟩,
        (e.prepared s).called c .check (.model s.nextModel)) := by
  have hprepared : (e.prepared s).next = .started course := by
    rw [← hnext, Scene.next, (e.sameBut_prepared s).invocations]
    rfl
  obtain ⟨-, htime, hwaiting, hcode, houtput⟩ := Checker.passed?_started_eq_some_iff.1 hpassed
  have hawait (u : Scene) : (c.await .check (.model s.nextModel) course).run u =
      .ok (.ended ⟨.check, .model s.nextModel, Checker.outputText course, 0, course.elapsed⟩) u := by
    simp [Checker.await, hlimit, htime, hwaiting, hcode, houtput]
  rw [show (3 : Nat) = 1 + 2 from rfl, Task.resumes_add, first_call hready hmodel, Task.resumes,
    Task.resume_starting_of_ok rfl (Checker.start_run_of_started hprepared), Task.resumes,
    Task.resume_running_of_ended rfl (hawait _)]
  exact ⟨_, rfl⟩

theorem content?_prepared_of_ready (hready : Checker.prerequisites s) (b : Batch) :
    (e.prepared s).work.content? b.file = s.work.content? b.file := by
  rw [content?_prepared, Scene.supplied, if_pos hready]

end Experiment

namespace Ensemble

theorem exists_call {d : WorkDir} (hcheck : d.isFile .check) (hstats : d.isFile .stats) (b : Batch) :
    ∃ s es turns, s.work = d ∧ s.Willing ∧ ∃ t ∈ ((ofExperiments s es).takeAll {} turns).tasks,
      t.stage.batch? = some b ∧
      ((ofExperiments s es).takeAll {} turns).scene.work.text? b.file = d.text? b.file := by
  obtain ⟨n, hn⟩ := d.exists_model
  let e : Experiment := ⟨.counter 1 2, .xStaysNull, false⟩
  let s : Scene := { Experiment.twoReports with work := d, nextModel := n }
  have hwilling : s.Willing := fun r hr => absurd hr List.not_mem_nil
  have hready : Checker.prerequisites s = true := by
    rw [Checker.prerequisites, hcheck, hstats]
    rfl
  have hmodel : s.fate.model := by
    have htakes : d.takes (.model n) = true := by
      rw [WorkDir.takes_iff, hn]
      exact ⟨(WorkDir.takes_iff.1 (WorkDir.takes_of_isFile hcheck)).1, nofun⟩
    exact Bool.and_eq_true_iff.2 ⟨hwilling.grants _ _, htakes⟩
  have halone (k : Nat) := takeAll_replicate (c := {}) (s := s) (t := ⟨e, {}, .fresh⟩) k
  cases b with
  | check =>
    refine ⟨s, [(e, {})], List.replicate 1 (.resume 0), rfl, hwilling, ?_⟩
    rw [ofExperiments, List.map_singleton, halone, Experiment.first_call hready hmodel]
    exact ⟨_, List.mem_singleton_self _, rfl, WorkDir.text?_congr (Experiment.content?_prepared_of_ready hready .check)⟩
  | stats =>
    obtain ⟨record, hsecond⟩ := Experiment.second_call (c := {}) (e := e) (r := {}) hready hmodel rfl rfl rfl
    refine ⟨s, [(e, {})], List.replicate 3 (.resume 0), rfl, hwilling, ?_⟩
    rw [ofExperiments, List.map_singleton, halone, hsecond]
    have hswapped := WorkDir.content?_swapped_of_ne (d := (e.prepared s).work) (i := (e.prepared s).next)
      (Batch.stats.file_ne_model n)
    exact ⟨_, List.mem_singleton_self _, rfl,
      WorkDir.text?_congr (hswapped.trans (Experiment.content?_prepared_of_ready hready .stats))⟩

theorem scripted_iff_sound (d : WorkDir) :
    (∀ (c : Checker) (s : Scene) (es : List (Experiment × Record)) (turns : List Turn), s.work = d → s.Willing →
      ((ofExperiments s es).takeAll c turns).Scripted) ↔ d.Sound := by
  constructor
  · intro h hcheck hstats b
    obtain ⟨s, es, turns, hwork, hwilling, t, ht, hb, htext⟩ := exists_call hcheck hstats b
    exact htext.symm.trans (h {} s es turns hwork hwilling t ht b hb)
  · rintro h c s es turns rfl hwilling
    exact ((tended_ofExperiments es hwilling h).takeAll turns).scripted

/-- Batch files that something else has left behind are taken for the checker's own. -/
example : ¬(WorkDir.directory [(.check, .text "quit;"), (.stats, .text "quit;")]).Sound :=
  fun h => absurd (h rfl rfl .check) (by decide)

example : WorkDir.absent.Sound := nofun

end Ensemble

end StreamCheck.Verification
