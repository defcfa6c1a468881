import StreamCheck.Proofs.Verification.Calls

/-! How single calls of the checker end, whatever the process does and whatever the limit is. A call returns if the process
ends by itself, with the code zero and with some output; every other end is an error of the checker, unless the caller
gives up, the limit is none that can be kept to, or a process that is to be killed is gone or does not end. -/

namespace StreamCheck

namespace Text.Utf8

theorem begin_eq_nil {b : Nat} (h : (begin b).1 = []) : (begin b).2.isSome := by
  unfold begin at h ⊢
  split_ifs at h ⊢
  cases hlead : lead? b with
  | some p => rfl
  | none =>
    rw [hlead] at h
    nomatch h

/-- A byte that completes no character has begun one. -/
theorem accept_eq_nil {pending : Option Pending} {b : Nat} (h : (accept pending b).1 = []) :
    (accept pending b).2.isSome := by
  obtain _ | ⟨bits, _ | ⟨⟨low, high⟩, rest⟩⟩ := pending
  · exact begin_eq_nil h
  · exact begin_eq_nil h
  · rw [accept] at h ⊢
    dsimp only at h ⊢
    split_ifs at h ⊢
    rfl

theorem decodeFrom_eq_nil_iff {pending : Option Pending} {bytes : List UInt8} :
    decodeFrom pending bytes = [] ↔ pending = none ∧ bytes = [] := by
  induction bytes generalizing pending with
  | nil => cases pending <;> simp [decodeFrom]
  | cons b bytes ih =>
    refine iff_of_false (fun h => ?_) fun h => nomatch h.2
    rw [decodeFrom, List.append_eq_nil_iff, ih] at h
    obtain ⟨hout, hnext, -⟩ := h
    -- nothing came of the byte, so it began a character, and then something comes of the rest
    have hsome := accept_eq_nil hout
    rw [hnext] at hsome
    nomatch hsome

theorem decode_eq_empty_iff {bytes : List UInt8} : decode bytes = "" ↔ bytes = [] := by
  have hempty : decode bytes = "" ↔ decodeFrom none bytes = [] := by
    rw [decode, String.ofList_eq_empty_iff]
  rw [hempty, decodeFrom_eq_nil_iff, and_iff_right rfl]

end Text.Utf8

namespace Verification

/-- What gets out of a call, once the process has started, that is no error of the checker. -/
inductive Course.Escapes (c : Checker) (course : Course) : Failure → Prop where
  /-- The limit is none that can be kept to. -/
  | limit {e : Failure} (h : c.timeout.bind Failure.ofLimit? = some e) : Escapes c course e
  /-- The caller gives the call up, or gives up waiting for a process that is killed as there is no time for it. -/
  | cancelled (hlimit : c.timeout.bind Failure.ofLimit? = none) (hwaiting : course.waiting = .cancelled)
      (halive : c.hasTime = false → course.gone = false) : Escapes c course .cancelled
  /-- The time is over, or there was none, and the process is gone when it is to be killed. -/
  | gone (hlimit : c.timeout.bind Failure.ofLimit? = none) (hlate : c.hasTime = true → course.waiting = .timesOut)
      (hgone : course.gone = true) : Escapes c course .system
  /-- There was no time, and the process does not end although it is killed. -/
  | unending (hlimit : c.timeout.bind Failure.ofLimit? = none) (htime : c.hasTime = false)
      (hwaiting : course.waiting = .timesOut) (halive : course.gone = false) : Escapes c course .system

namespace Checker
variable {c : Checker} {b : Batch} {f : FileName} {s s' : Scene} {course : Course} {run : CheckerRun} {e : Failure}

theorem outputText_eq_empty_iff : outputText course = "" ↔ course.output.getD [] = [] := by
  rw [outputText]
  cases course.output with
  | none => exact iff_of_true rfl rfl
  | some bytes => exact Text.Utf8.decode_eq_empty_iff

/-! ### What comes out of a call -/

theorem isCheckerError_of_ofLimit? {limit : Seconds} (h : Failure.ofLimit? limit = some e) : e.isCheckerError = false := by
  unfold Failure.ofLimit? at h
  split at h
  · split_ifs at h
    obtain rfl := Option.some.inj h
    rfl
  · obtain rfl := Option.some.inj h
    rfl
  · nomatch h

theorem isCheckerError_of_escapes (h : course.Escapes c e) : e.isCheckerError = false := by
  cases h with
  | limit h =>
    obtain ⟨limit, -, he⟩ := Option.bind_eq_some_iff.1 h
    exact isCheckerError_of_ofLimit? he
  | cancelled | gone | unending => rfl

theorem finish_run_of_escapes (h : course.Escapes c e) : ∃ s', (c.finish b f course).run s = .error e s' := by
  cases h with
  | limit h => exact ⟨_, finish_run_of_limit h⟩
  | cancelled hlimit hwaiting halive =>
    cases htime : c.hasTime with
    | true => exact ⟨_, finish_run_of_cancelled hlimit htime hwaiting⟩
    | false => exact ⟨_, by rw [finish_run_of_noTime hlimit htime, halive htime, hwaiting]; rfl⟩
  | gone hlimit hlate hgone =>
    cases htime : c.hasTime with
    | true => exact ⟨_, by rw [finish_run_of_timesOut hlimit htime (hlate htime), hgone]; rfl⟩
    | false => exact ⟨_, by rw [finish_run_of_noTime hlimit htime, hgone]; rfl⟩
  | unending hlimit htime hwaiting halive =>
    exact ⟨_, by rw [finish_run_of_noTime hlimit htime, halive, hwaiting]; rfl⟩

theorem finish_run_of_not_endsInTime (h : ¬course.EndsInTime c) : ∃ e s', (c.finish b f course).run s = .error e s' ∧
    (e.isCheckerError = true ∨ course.Escapes c e) := by
  cases hlimit : c.timeout.bind Failure.ofLimit? with
  | some e => exact ⟨_, _, finish_run_of_limit hlimit, .inr (.limit hlimit)⟩
  | none =>
    cases htime : c.hasTime with
    | false =>
      refine ⟨_, _, finish_run_of_noTime hlimit htime, ?_⟩
      have hlate : c.hasTime = true → course.waiting = .timesOut := by rw [htime]; nofun
      cases hgone : course.gone with
      | true => exact .inr (.gone hlimit hlate hgone)
      | false =>
        cases hwaiting : course.waiting with
        | ends => exact .inl rfl
        | timesOut => exact .inr (.unending hlimit htime hwaiting hgone)
        | cancelled => exact .inr (.cancelled hlimit hwaiting fun _ => hgone)
    | true =>
      cases hwaiting : course.waiting with
      | ends => exact absurd ⟨hlimit, htime, hwaiting⟩ h
      | timesOut =>
        refine ⟨_, _, finish_run_of_timesOut hlimit htime hwaiting, ?_⟩
        cases hgone : course.gone with
        | true => exact .inr (.gone hlimit (fun _ => hwaiting) hgone)
        | false => exact .inl rfl
      | cancelled =>
        have halive : c.hasTime = false → course.gone = false := by rw [htime]; nofun
        exact ⟨_, _, finish_run_of_cancelled hlimit htime hwaiting, .inr (.cancelled hlimit hwaiting halive)⟩

theorem finish_run_eq_ok_iff : (c.finish b f course).run s = .ok run s' ↔
    course.EndsInTime c ∧ course.code = some 0 ∧ course.output.getD [] ≠ [] ∧
      run = ⟨b, f, outputText course, 0, course.elapsed⟩ ∧ s' = s := by
  by_cases h : course.EndsInTime c
  · rw [finish_run_of_endsInTime h, and_iff_right h, ← getD_code_eq_zero_iff]
    split_ifs with hne hempty
    · exact iff_of_false nofun fun hok => hne hok.1
    · exact iff_of_false nofun fun hok => hok.2.1 (outputText_eq_empty_iff.1 hempty)
    · rw [not_not] at hne
      rw [hne, and_iff_right rfl, and_iff_right (mt outputText_eq_empty_iff.2 hempty)]
      constructor
      · intro hok
        obtain ⟨rfl, rfl⟩ := EStateM.Result.ok.inj hok
        exact ⟨rfl, rfl⟩
      · rintro ⟨rfl, rfl⟩
        rfl
  · obtain ⟨e, s'', hrun, -⟩ := finish_run_of_not_endsInTime (b := b) (f := f) (s := s) h
    rw [hrun]
    exact iff_of_false nofun fun hok => h hok.1

theorem finish_run_escapes_iff : (∃ s', (c.finish b f course).run s = .error e s' ∧ e.isCheckerError = false) ↔
    course.Escapes c e := by
  constructor
  · rintro ⟨s', hrun, he⟩
    by_cases h : course.EndsInTime c
    · rw [finish_run_of_endsInTime h] at hrun
      split_ifs at hrun
      · obtain ⟨rfl, -⟩ := EStateM.Result.error.inj hrun
        nomatch he
      · obtain ⟨rfl, -⟩ := EStateM.Result.error.inj hrun
        nomatch he
    · obtain ⟨e', s'', hrun', hout⟩ := finish_run_of_not_endsInTime (b := b) (f := f) (s := s) h
      obtain ⟨rfl, -⟩ := EStateM.Result.error.inj (hrun'.symm.trans hrun)
      exact hout.resolve_left (by simp [he])
  · intro h
    obtain ⟨s', hrun⟩ := finish_run_of_escapes (b := b) (f := f) (s := s) h
    exact ⟨s', hrun, isCheckerError_of_escapes h⟩

theorem run_run_of_started (h : s.next = .started course) :
    (c.run b f).run s = (c.finish b f course).run (s.called c b f) := by
  rw [run, run_bind_ok (start_run_of_started h)]

/-- However a call goes, it returns exactly if the process ends in time with the code zero and has printed something; what
gets out that is no error of the checker is told by the process and the limit alone; and an error for another code, or for
none, carries that code and the text that was printed. -/
theorem run_outcomes (c : Checker) (b : Batch) (f : FileName) (s : Scene) :
    (∀ run s', (c.run b f).run s = .ok run s' ↔ ∃ course, s.next = .started course ∧ course.EndsInTime c ∧
      course.code = some 0 ∧ course.output.getD [] ≠ [] ∧ run = ⟨b, f, outputText course, 0, course.elapsed⟩ ∧
      s' = s.called c b f) ∧
    (∀ e, (∃ s', (c.run b f).run s = .error e s' ∧ e.isCheckerError = false) ↔
      ∃ course, s.next = .started course ∧ course.Escapes c e) ∧
    ∀ course, s.next = .started course → course.EndsInTime c → course.code ≠ some 0 →
      ∃ e s', (c.run b f).run s = .error e s' ∧ e.isCheckerError = true ∧ e.exitCode = course.code.getD (-1) ∧
        e.output = outputText course := by
  cases hnext : s.next with
  | refused why =>
    obtain ⟨e, he, hstart⟩ := start_run_of_refused (c := c) (b := b) (f := f) hnext
    have hrun : (c.run b f).run s = .error e (s.called c b f) := run_bind_error hstart
    rw [hrun]
    refine ⟨fun run s' => iff_of_false nofun ?_, fun e' => iff_of_false ?_ ?_, nofun⟩
    · rintro ⟨course, hcourse, -⟩
      nomatch hcourse
    · rintro ⟨s', herror, he'⟩
      obtain ⟨rfl, -⟩ := EStateM.Result.error.inj herror
      rw [he] at he'
      nomatch he'
    · rintro ⟨course, hcourse, -⟩
      nomatch hcourse
  | started course =>
    simp only [run_run_of_started hnext, Invocation.started.injEq, exists_eq_left']
    refine ⟨fun run s' => finish_run_eq_ok_iff, fun e => finish_run_escapes_iff, ?_⟩
    rintro _ rfl h hcode
    have hne : course.code.getD (-1) ≠ 0 := mt getD_code_eq_zero_iff.1 hcode
    exact ⟨.exited (course.code.getD (-1)) (outputText course), s.called c b f,
      by rw [finish_run_of_endsInTime h, if_pos hne], rfl, rfl, rfl⟩

/-- A process that is over its time, and gone when it is to be killed. -/
example : Course.Escapes { timeout := some (.whole 3) } { waiting := .timesOut, gone := true } .system :=
  .gone (by decide +kernel) (fun _ => rfl) rfl

end Checker

end Verification

end StreamCheck
