import StreamCheck.Proofs.Pipeline.Growth
import StreamCheck.Verification.Fate

/-! Files: what the writes and removals of an experiment do to the working directory, and what they leave alone. -/

namespace StreamCheck

namespace Verification

/-! ### One directory -/

namespace WorkDir
variable {d : WorkDir} {f g : FileName} {c : Content} {t : String}

theorem content?_put (files : List (FileName × Content)) :
    ((directory files).put f c).content? g = if g = f then some c else (directory files).content? g := by
  rw [put, content?, content?, List.lookup_append, lookup_filter_ne, lookup_cons_eq_ite, List.lookup_nil]
  by_cases h : g = f
  · rw [if_pos h, if_pos h, if_pos h, Option.none_or]
  · rw [if_neg h, if_neg h, if_neg h, Option.or_none]

theorem content?_put_of_ne (h : g ≠ f) : (d.put f c).content? g = d.content? g := by
  cases d with
  | directory files => rw [content?_put, if_neg h]
  | _ => rfl

theorem content?_erase (d : WorkDir) (f g : FileName) :
    (d.erase f).content? g = if g = f then none else d.content? g := by
  cases d with
  | directory files => exact lookup_filter_ne files f g
  | _ => exact (ite_self none).symm

theorem text?_eq_some_iff : d.text? f = some t ↔ d.content? f = some (.text t) := by
  unfold text?
  cases d.content? f with
  | none => simp
  | some c => cases c <;> simp

theorem text?_congr {d' : WorkDir} (h : d'.content? f = d.content? f) : d'.text? f = d.text? f := by
  unfold text?
  rw [h]

@[simp] theorem put_eq_occupied : d.put f c = occupied ↔ d = occupied := by
  cases d <;> simp [put]

theorem takes_iff : d.takes f = true ↔ d ≠ occupied ∧ d.content? f ≠ some .directory := by
  simp [takes]

def opened : WorkDir → WorkDir
  | absent => directory []
  | d => d

@[simp] theorem content?_opened : d.opened.content? f = d.content? f := by
  cases d <;> rfl

@[simp] theorem opened_eq_occupied : d.opened = occupied ↔ d = occupied := by
  cases d <;> simp [opened]

theorem exists_opened (h : d ≠ occupied) : ∃ files, d.opened = directory files := by
  cases d with
  | absent => exact ⟨[], rfl⟩
  | occupied => exact absurd rfl h
  | directory files => exact ⟨files, rfl⟩

theorem opened_ne_absent : d.opened ≠ absent := by
  cases d <;> simp [opened]

@[simp] theorem takes_opened : d.opened.takes f = d.takes f := by
  rw [Bool.eq_iff_iff, takes_iff, takes_iff, Ne, opened_eq_occupied, content?_opened]

theorem put_ne_absent (h : d ≠ absent) : d.put f c ≠ absent := by
  cases d with
  | absent => exact absurd rfl h
  | _ => simp [put]

theorem takes_put_of_ne (h : g ≠ f) : (d.put f c).takes g = d.takes g := by
  rw [Bool.eq_iff_iff, takes_iff, takes_iff, Ne, put_eq_occupied, content?_put_of_ne h]

def obstacle (d : WorkDir) (f : FileName) : Obstacle :=
  match d with
  | absent => .noDirectory f
  | occupied => .notDirectory f
  | directory _ => .isDirectory f

/-- The directory after an attempt to remove a file; a directory in its place stays. -/
def removed (d : WorkDir) (f : FileName) : WorkDir := if d.takes f then d.erase f else d

theorem isFile_removed : (d.removed f).isFile f = false := by
  unfold removed isFile
  split_ifs with h
  · rw [content?_erase, if_pos rfl]
  · cases d with
    | directory files =>
      have hdirectory : (directory files).content? f = some .directory := by
        by_contra hc
        exact h (takes_iff.2 ⟨by simp, hc⟩)
      rw [hdirectory]
    | _ => rfl

theorem content?_removed (h : d.text? f = some t) : (d.removed f).content? f = none := by
  have hcontent : d.content? f = some (.text t) := text?_eq_some_iff.1 h
  have htakes : d.takes f = true := by
    refine takes_iff.2 ⟨?_, ?_⟩
    · rintro rfl
      nomatch h
    · rw [hcontent]
      exact fun h => nomatch h
  rw [removed, if_pos htakes, content?_erase, if_pos rfl]

theorem content?_removed_of_ne (h : g ≠ f) : (d.removed f).content? g = d.content? g := by
  unfold removed
  split_ifs
  · rw [content?_erase, if_neg h]
  · rfl

end WorkDir

/-! ### What a step leaves alone -/

/-- Two scenes that differ in some files and in what the system is going to answer, and in nothing else. -/
structure Scene.SameBut (fs : List FileName) (s t : Scene) : Prop where
  invocations : t.invocations = s.invocations
  starts : t.starts = s.starts
  kills : t.kills = s.kills
  nextModel : t.nextModel = s.nextModel
  words : t.words = s.words
  occupied : t.work = .occupied ↔ s.work = .occupied
  content : ∀ f ∉ fs, t.work.content? f = s.work.content? f

namespace Scene.SameBut
variable {fs gs : List FileName} {s t u : Scene}

theorem refl (fs : List FileName) (s : Scene) : SameBut fs s s := ⟨rfl, rfl, rfl, rfl, rfl, .rfl, fun _ _ => rfl⟩

theorem trans (h : SameBut fs s t) (h' : SameBut fs t u) : SameBut fs s u where
  invocations := h'.invocations.trans h.invocations
  starts := h'.starts.trans h.starts
  kills := h'.kills.trans h.kills
  nextModel := h'.nextModel.trans h.nextModel
  words := h'.words.trans h.words
  occupied := h'.occupied.trans h.occupied
  content f hf := (h'.content f hf).trans (h.content f hf)

theorem mono (h : SameBut fs s t) (hsub : fs ⊆ gs) : SameBut gs s t where
  invocations := h.invocations
  starts := h.starts
  kills := h.kills
  nextModel := h.nextModel
  words := h.words
  occupied := h.occupied
  content f hf := h.content f fun hmem => hf (hsub hmem)

theorem takes {f : FileName} (h : SameBut fs s t) (hf : f ∉ fs) : t.work.takes f = s.work.takes f := by
  rw [Bool.eq_iff_iff, WorkDir.takes_iff, WorkDir.takes_iff, Ne, h.occupied, h.content f hf]

theorem text? {f : FileName} (h : SameBut fs s t) (hf : f ∉ fs) : t.work.text? f = s.work.text? f :=
  WorkDir.text?_congr (h.content f hf)

end Scene.SameBut

namespace Scene

def refuses (s : Scene) : Bool := (s.refusals.headD none).isSome

def answer (s : Scene) (o : Obstacle) : String := (s.refusals.headD none).getD (s.words o)

/-- What the system says in a scene, now or later, when it refuses to create or to write. -/
def Says (s : Scene) (reason : String) : Prop := some reason ∈ s.refusals ∨ ∃ o, s.words o = reason

def answered (s : Scene) : Scene := { s with refusals := s.refusals.tail }

def created (s : Scene) : Scene := { s.answered with work := s.work.opened }

def written (s : Scene) (f : FileName) (text : String) : Scene := { s.answered with work := s.work.put f (.text text) }

def named (s : Scene) : Scene := { s with nextModel := s.nextModel + 1 }

theorem says_answer (s : Scene) (o : Obstacle) : s.Says (s.answer o) := by
  unfold answer Says
  cases s.refusals with
  | nil => exact .inr ⟨o, rfl⟩
  | cons r rest =>
    cases r with
    | none => exact .inr ⟨o, rfl⟩
    | some reason => exact .inl List.mem_cons_self

theorem says_of_answered {s : Scene} {reason : String} (h : s.answered.Says reason) : s.Says reason :=
  h.imp_left List.mem_of_mem_tail

theorem grants_zero (s : Scene) (skipped : Nat) : s.grants skipped 0 = true := by
  rw [grants, List.take_zero, List.all_nil]

theorem grants_succ (s : Scene) (n : Nat) : s.grants 0 (n + 1) = (!s.refuses && s.answered.grants 0 n) := by
  cases h : s.refusals <;> simp [grants, refuses, answered, h]

end Scene

/-! ### How steps end -/

namespace Act
variable {α β : Type} {fs : List FileName} {s t : Scene} {step : Act α} {next : Act β}

def leaves (step : Act α) (s : Scene) : Scene :=
  match step.run s with
  | .ok _ t => t
  | .error _ t => t

def Succeeds (step : Act α) (s : Scene) : Prop := ∃ a t, step.run s = .ok a t

theorem leaves_of_ok {a : α} (h : step.run s = .ok a t) : step.leaves s = t := by
  rw [leaves, h]

theorem leaves_of_error {e : Failure} (h : step.run s = .error e t) : step.leaves s = t := by
  rw [leaves, h]

theorem succeeds_andThen_iff : (step >>= fun _ => next).Succeeds s ↔ step.Succeeds s ∧ next.Succeeds (step.leaves s) := by
  unfold Succeeds
  rw [EStateM.run_bind]
  cases hrun : step.run s with
  | ok a t => simp [leaves_of_ok hrun]
  | error e t => simp

theorem leaves_andThen (h : step.Succeeds s) : (step >>= fun _ => next).leaves s = next.leaves (step.leaves s) := by
  obtain ⟨a, t, hrun⟩ := h
  rw [leaves, EStateM.run_bind, leaves_of_ok hrun, hrun]
  rfl

theorem leaves_andThen_of_not (h : ¬step.Succeeds s) : (step >>= fun _ => next).leaves s = step.leaves s := by
  rw [leaves, EStateM.run_bind]
  cases hrun : step.run s with
  | ok a t => exact absurd ⟨a, t, hrun⟩ h
  | error e t => exact (leaves_of_error hrun).symm

theorem orElse_run (step : Act α) (failure : Failure → Failure) (s : Scene) : (step.orElse failure).run s =
    match step.run s with
    | .ok a t => .ok a t
    | .error e t => .error (failure e) t := rfl

theorem orElse_run_of_succeeds {step : Act Unit} (failure : Failure → Failure) (h : step.Succeeds s) :
    (step.orElse failure).run s = .ok () (step.leaves s) := by
  obtain ⟨a, t, hrun⟩ := h
  rw [orElse_run, leaves_of_ok hrun, hrun]

theorem orElse_run_of_not (failure : Failure → Failure) (h : ¬step.Succeeds s) :
    ∃ e, step.run s = .error e (step.leaves s) ∧ (step.orElse failure).run s = .error (failure e) (step.leaves s) := by
  cases hrun : step.run s with
  | ok a t => exact absurd ⟨a, t, hrun⟩ h
  | error e t =>
    rw [orElse_run, leaves_of_error hrun, hrun]
    exact ⟨e, rfl, rfl⟩

def Spares (fs : List FileName) (step : Act α) : Prop := ∀ s : Scene, s.SameBut fs (step.leaves s)

theorem Spares.andThen (h : Spares fs step) (h' : Spares fs next) : Spares fs (step >>= fun _ => next) := by
  intro s
  by_cases hs : step.Succeeds s
  · exact leaves_andThen hs ▸ (h s).trans (h' _)
  · exact leaves_andThen_of_not hs ▸ h s

/-- A step that fails with what the system says and with nothing else. -/
structure Blames (step : Act α) : Prop where
  fails : ∀ {s t : Scene} {e : Failure}, step.run s = .error e t → ∃ reason, e = .refused reason ∧ s.Says reason
  earlier : ∀ {s t : Scene} {a : α} {reason : String}, step.run s = .ok a t → t.Says reason → s.Says reason

theorem Blames.andThen (h : Blames step) (h' : Blames next) : Blames (step >>= fun _ => next) where
  fails {s t e} hrun := by
    rw [EStateM.run_bind] at hrun
    cases hstep : step.run s with
    | error e' t' =>
      rw [hstep] at hrun
      cases hrun
      exact h.fails hstep
    | ok a t' =>
      rw [hstep] at hrun
      obtain ⟨reason, he, hsaid⟩ := h'.fails hrun
      exact ⟨reason, he, h.earlier hstep hsaid⟩
  earlier {s t b reason} hrun hsaid := by
    rw [EStateM.run_bind] at hrun
    cases hstep : step.run s with
    | error e' t' =>
      rw [hstep] at hrun
      nomatch hrun
    | ok a t' =>
      rw [hstep] at hrun
      exact h.earlier hstep (h'.earlier hrun hsaid)

/-! ### Creating, writing, removing -/

variable {f : FileName} {text : String}

theorem refused_run (s : Scene) : refused.run s = .ok (s.refusals.headD none) s.answered := by
  obtain ⟨work, refusals, invocations, starts, kills, nextModel, words⟩ := s
  cases refusals <;> rfl

theorem createWork_run (s : Scene) : createWork.run s =
    if s.refuses = false ∧ s.work ≠ .occupied then .ok () s.created
    else .error (.refused (s.answer .fileExists)) s.answered := by
  obtain ⟨work, refusals, invocations, starts, kills, nextModel, words⟩ := s
  rcases refusals with _ | ⟨_ | _, refusals⟩ <;> cases work <;> rfl

theorem write_run (s : Scene) (f : FileName) (text : String) : (write f text).run s =
    if s.refuses = false ∧ s.work ≠ .absent ∧ s.work.takes f then
      .ok () (s.written f text)
    else .error (.refused (s.answer (s.work.obstacle f))) s.answered := by
  obtain ⟨work, refusals, invocations, starts, kills, nextModel, words⟩ := s
  cases work with
  | directory files =>
    by_cases hc : (WorkDir.directory files).content? f = some .directory <;>
      rcases refusals with _ | ⟨_ | _, refusals⟩ <;>
      simp [write, obstructed, refused_run, Scene.refuses, Scene.answered, Scene.answer, Scene.written,
        WorkDir.obstacle, WorkDir.takes, hc]
  | _ => rcases refusals with _ | ⟨_ | _, refusals⟩ <;> rfl

theorem remove_run (s : Scene) (f : FileName) : (remove f).run s =
    if s.work.takes f then .ok () { s with work := s.work.erase f } else .error .system s := by
  obtain ⟨work, refusals, invocations, starts, kills, nextModel, words⟩ := s
  cases work with
  | directory files =>
    by_cases hc : (WorkDir.directory files).content? f = some .directory <;> simp [remove, WorkDir.takes, hc]
  | _ => rfl

theorem succeeds_createWork_iff : createWork.Succeeds s ↔ s.refuses = false ∧ s.work ≠ .occupied := by
  rw [Succeeds, createWork_run]
  split_ifs with h <;> simp [h]

theorem leaves_createWork (h : createWork.Succeeds s) : createWork.leaves s = s.created :=
  leaves_of_ok ((createWork_run s).trans (if_pos (succeeds_createWork_iff.1 h)))

theorem succeeds_write_iff :
    (write f text).Succeeds s ↔ s.refuses = false ∧ s.work ≠ .absent ∧ s.work.takes f := by
  rw [Succeeds, write_run]
  split_ifs with h <;> simp [h]

theorem leaves_write (h : (write f text).Succeeds s) : (write f text).leaves s = s.written f text :=
  leaves_of_ok ((write_run s f text).trans (if_pos (succeeds_write_iff.1 h)))

theorem spares_createWork : Spares fs createWork := by
  intro s
  rw [leaves, createWork_run]
  split_ifs
  · exact ⟨rfl, rfl, rfl, rfl, rfl, WorkDir.opened_eq_occupied, fun _ _ => WorkDir.content?_opened⟩
  · exact ⟨rfl, rfl, rfl, rfl, rfl, .rfl, fun _ _ => rfl⟩

theorem spares_write (hf : f ∈ fs) : Spares fs (write f text) := by
  intro s
  rw [leaves, write_run]
  split_ifs
  · exact ⟨rfl, rfl, rfl, rfl, rfl, WorkDir.put_eq_occupied,
      fun g hg => WorkDir.content?_put_of_ne fun h => hg (h ▸ hf)⟩
  · exact ⟨rfl, rfl, rfl, rfl, rfl, .rfl, fun _ _ => rfl⟩

theorem blames_createWork : Blames createWork where
  fails {s t e} h := by
    rw [createWork_run] at h
    split_ifs at h
    cases h
    exact ⟨_, rfl, s.says_answer _⟩
  earlier {s t a reason} h hsaid := by
    rw [createWork_run] at h
    split_ifs at h
    cases h
    exact Scene.says_of_answered hsaid

theorem blames_write : Blames (write f text) where
  fails {s t e} h := by
    rw [write_run] at h
    split_ifs at h
    cases h
    exact ⟨_, rfl, s.says_answer _⟩
  earlier {s t a reason} h hsaid := by
    rw [write_run] at h
    split_ifs at h
    cases h
    exact Scene.says_of_answered hsaid

theorem anyway_run (step : Act Unit) (s : Scene) : (anyway step).run s = .ok () (step.leaves s) := by
  unfold anyway leaves
  simp only [EStateM.run]
  cases step s <;> rfl

theorem anyway_remove_run (s : Scene) (f : FileName) :
    (anyway (remove f)).run s = .ok () { s with work := s.work.removed f } := by
  have hleaves : (remove f).leaves s = { s with work := s.work.removed f } := by
    rw [leaves, remove_run, WorkDir.removed]
    split_ifs <;> rfl
  rw [anyway_run, hleaves]

theorem succeeds_createWork_andThen_iff : (createWork >>= fun _ => next).Succeeds s ↔
    s.refuses = false ∧ s.work ≠ .occupied ∧ next.Succeeds s.created := by
  rw [succeeds_andThen_iff, ← and_assoc, ← succeeds_createWork_iff]
  exact and_congr_right fun h => by rw [leaves_createWork h]

theorem succeeds_write_andThen_iff (hs : s.work ≠ .absent) : (write f text >>= fun _ => next).Succeeds s ↔
    s.refuses = false ∧ s.work.takes f ∧ next.Succeeds (s.written f text) := by
  rw [succeeds_andThen_iff, ← and_assoc, ← and_iff_right hs (b := s.work.takes f), ← succeeds_write_iff]
  exact and_congr_right fun h => by rw [leaves_write h]

end Act

/-! ### The files of an experiment -/

namespace Checker
variable {s : Scene} (c : Checker) {f : FileName} {text : String}

def batchWrites : Act Unit := do
  Act.createWork
  Act.write .check Batch.check.commands
  Act.write .stats Batch.stats.commands

theorem succeeds_batchWrites_iff :
    batchWrites.Succeeds s ↔ s.grants 0 3 ∧ s.work.takes .check ∧ s.work.takes .stats := by
  have hlast : ((s.created).written .check Batch.check.commands).work.takes .stats = s.work.takes .stats :=
    (WorkDir.takes_put_of_ne (by decide)).trans WorkDir.takes_opened
  have hopen : s.created.work ≠ .absent := WorkDir.opened_ne_absent
  rw [batchWrites, Act.succeeds_createWork_andThen_iff, Act.succeeds_write_andThen_iff hopen, Act.succeeds_write_iff,
    hlast, show s.created.work.takes .check = s.work.takes .check from WorkDir.takes_opened]
  simp only [Scene.grants_succ, Scene.grants_zero, WorkDir.takes_iff, Bool.and_true, Bool.and_eq_true, Bool.not_eq_true']
  constructor
  · rintro ⟨h₀, -, h₁, hcheck, h₂, -, hstats⟩
    exact ⟨⟨h₀, h₁, h₂⟩, hcheck, hstats⟩
  · rintro ⟨⟨h₀, h₁, h₂⟩, hcheck, hstats⟩
    exact ⟨h₀, hcheck.1, h₁, hcheck, h₂, WorkDir.put_ne_absent hopen, hstats⟩

theorem refusals_batchWrites (h : batchWrites.Succeeds s) : (batchWrites.leaves s).refusals = s.refusals.drop 3 := by
  obtain ⟨hcreate, hwrites⟩ := Act.succeeds_andThen_iff.1 h
  obtain ⟨hcheck, hstats⟩ := Act.succeeds_andThen_iff.1 hwrites
  rw [batchWrites, Act.leaves_andThen hcreate, Act.leaves_andThen hcheck, Act.leaves_write hstats, Act.leaves_write hcheck,
    Act.leaves_createWork hcreate]
  simp only [Scene.written, Scene.created, Scene.answered, ← List.drop_one, List.drop_drop]

theorem spares_batchWrites : Act.Spares [.check, .stats] batchWrites :=
  .andThen Act.spares_createWork (.andThen (Act.spares_write (by simp)) (Act.spares_write (by simp)))

theorem writeBatches_run_of_succeeds (h : batchWrites.Succeeds s) :
    c.writeBatches.run s = .ok () (batchWrites.leaves s) :=
  Act.orElse_run_of_succeeds _ h

theorem blames_batchWrites : Act.Blames batchWrites :=
  Act.blames_createWork.andThen (Act.blames_write.andThen Act.blames_write)

theorem writeBatches_run_of_not (h : ¬batchWrites.Succeeds s) : ∃ reason, s.Says reason ∧
    c.writeBatches.run s = .error (.batchNotWritten ⟨c.work, reason⟩) (batchWrites.leaves s) := by
  obtain ⟨e, herror, hwrites⟩ := Act.orElse_run_of_not (fun e => .batchNotWritten ⟨c.work, e.message⟩) h
  obtain ⟨reason, rfl, hsaid⟩ := blames_batchWrites.fails herror
  exact ⟨reason, hsaid, hwrites⟩

def modelWrites (f : FileName) (text : String) : Act Unit := do
  Act.createWork
  Act.write f text

theorem succeeds_modelWrites_iff : (modelWrites f text).Succeeds s ↔ s.grants 0 2 ∧ s.work.takes f := by
  rw [modelWrites, Act.succeeds_createWork_andThen_iff, Act.succeeds_write_iff,
    show s.created.work.takes f = s.work.takes f from WorkDir.takes_opened]
  simp only [Scene.grants_succ, Scene.grants_zero, WorkDir.takes_iff, Bool.and_true, Bool.and_eq_true, Bool.not_eq_true']
  constructor
  · rintro ⟨h₀, -, h₁, -, htakes⟩
    exact ⟨⟨h₀, h₁⟩, htakes⟩
  · rintro ⟨⟨h₀, h₁⟩, htakes⟩
    exact ⟨h₀, htakes.1, h₁, WorkDir.opened_ne_absent, htakes⟩

theorem text?_modelWrites (h : (modelWrites f text).Succeeds s) :
    ((modelWrites f text).leaves s).work.text? f = some text := by
  obtain ⟨hcreate, hwrite⟩ := Act.succeeds_andThen_iff.1 h
  rw [modelWrites, Act.leaves_andThen hcreate, Act.leaves_write hwrite, Act.leaves_createWork hcreate]
  obtain ⟨files, hfiles⟩ := WorkDir.exists_opened (Act.succeeds_createWork_iff.1 hcreate).2
  rw [WorkDir.text?_eq_some_iff, Scene.written, Scene.created, hfiles, WorkDir.content?_put, if_pos rfl]

theorem spares_modelWrites : Act.Spares [f] (modelWrites f text) :=
  .andThen Act.spares_createWork (Act.spares_write (by simp))

theorem blames_modelWrites : Act.Blames (modelWrites f text) := Act.blames_createWork.andThen Act.blames_write

theorem writeModel_run_of_succeeds (h : (modelWrites (.model s.nextModel) text).Succeeds s.named) :
    (c.writeModel text).run s =
      .ok (.model s.nextModel) ((modelWrites (.model s.nextModel) text).leaves s.named) := by
  have hfresh : freshModel.run s = .ok (.model s.nextModel) s.named := rfl
  have hwrites :=
    Act.orElse_run_of_succeeds (fun e => .modelNotWritten ⟨c.path (.model s.nextModel), e.message⟩) h
  rw [modelWrites] at hwrites
  rw [writeModel, run_bind_ok hfresh, run_bind_ok hwrites]
  rfl

theorem writeModel_run_of_not (h : ¬(modelWrites (.model s.nextModel) text).Succeeds s.named) :
    ∃ reason, s.Says reason ∧ (c.writeModel text).run s =
      .error (.modelNotWritten ⟨c.path (.model s.nextModel), reason⟩)
        ((modelWrites (.model s.nextModel) text).leaves s.named) := by
  have hfresh : freshModel.run s = .ok (.model s.nextModel) s.named := rfl
  obtain ⟨e, herror, hwrites⟩ :=
    Act.orElse_run_of_not (fun e => .modelNotWritten ⟨c.path (.model s.nextModel), e.message⟩) h
  obtain ⟨reason, rfl, hsaid⟩ := blames_modelWrites.fails herror
  refine ⟨reason, hsaid, ?_⟩
  rw [modelWrites] at hwrites
  rw [writeModel, run_bind_ok hfresh, run_bind_error hwrites]
  rfl

end Checker
end Verification
end StreamCheck
