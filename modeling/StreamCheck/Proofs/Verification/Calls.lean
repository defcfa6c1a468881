import StreamCheck.Proofs.Verification.Files

/-! Calls of the checker: what starting it takes from the scene, and how waiting for it ends. -/

namespace StreamCheck.Verification

namespace Failure

theorem message_ne_empty {f : Failure} (h : f.isOwn = true) : f.message ≠ "" := by
  have happend {s t : String} (h : s ≠ "") : s ++ t ≠ "" := fun he => h (String.append_eq_empty_iff.1 he).1
  cases f with
  | timedOut limit => exact happend (happend (by decide))
  | cannotStart binary reason => exact happend (happend (happend (by decide)))
  | noOutput code =>
    change "NuSMV returned no output" ≠ ""
    decide
  | cancelled | refused _ | system | limitTooLarge | limitSenseless => nomatch h
  | _ => exact happend (by decide)

def isCheckerError : Failure → Bool
  | modelNotWritten _ | checkerMissing _ | cannotStart _ _ | timedOut _ | exited _ _ | noOutput _ => true
  | _ => false

theorem isOwn_of_isCheckerError {f : Failure} (h : f.isCheckerError = true) : f.isOwn = true := by
  cases f <;> first | rfl | nomatch h

end Failure

/-- The directory once a call has started that does something to its model file. -/
def WorkDir.swapped (d : WorkDir) (f : FileName) : Invocation → WorkDir
  | .started { swap := some .removed, .. } => d.erase f
  | .started { swap := some .directory, .. } => d.put f .directory
  | _ => d

/-- The process ends by itself before it is given up. -/
structure Course.EndsInTime (c : Checker) (course : Course) : Prop where
  limit : c.timeout.bind Failure.ofLimit? = none
  hasTime : c.hasTime = true
  ends : course.waiting = .ends

namespace Scene
variable (s : Scene)

def next : Invocation := s.invocations.headD (.refused .missing)

def called (c : Checker) (b : Batch) (f : FileName) : Scene :=
  { s with
    work := s.work.swapped f s.next
    invocations := s.invocations.tail
    starts := s.starts ++ [⟨c.command b f, s.work.text? f⟩] }

end Scene

namespace Checker
variable {c : Checker} {b : Batch} {f : FileName} {s : Scene} {course : Course} {e : Failure}

theorem attempt_run (s : Scene) : (c.attempt ["-source", c.path b.file, c.path f] (some f)).run s =
    .ok s.next (s.called c b f) := by
  obtain ⟨work, refusals, invocations, starts, kills, nextModel⟩ := s
  rcases invocations with _ | ⟨_ | ⟨_, _, _, _, _ | _ | _, _⟩, invocations⟩ <;> rfl

theorem start_run_of_started (h : s.next = .started course) :
    (c.start b f).run s = .ok course (s.called c b f) := by
  rw [start, run_bind_ok (attempt_run s), h]
  rfl

theorem start_run_of_refused {why : StartFault} (h : s.next = .refused why) :
    ∃ e : Failure, e.isCheckerError ∧ (c.start b f).run s = .error e (s.called c b f) := by
  rw [start, run_bind_ok (attempt_run s), h]
  cases why with
  | missing => exact ⟨_, rfl, rfl⟩
  | other reason => exact ⟨_, rfl, rfl⟩

theorem passed?_started_eq_some_iff {course' : Course} : (Invocation.started course).passed? c = some course' ↔
    course = course' ∧ c.hasTime ∧ course.waiting = .ends ∧ course.code = some 0 ∧ outputText course ≠ "" := by
  rw [Invocation.passed?, Option.ite_none_right_eq_some, Option.some_inj, and_comm]

theorem kill_run : (kill course).run s = if course.gone then .error .system { s with kills := s.kills + 1 }
    else .ok () { s with kills := s.kills + 1 } := by
  unfold kill
  split_ifs <;> rfl

theorem kill_run_of_gone (h : course.gone = true) :
    (kill course).run s = .error .system { s with kills := s.kills + 1 } := by
  rw [kill_run, h]
  rfl

theorem kill_run_of_not_gone (h : course.gone = false) :
    (kill course).run s = .ok () { s with kills := s.kills + 1 } := by
  rw [kill_run, h]
  rfl

theorem getD_code_eq_zero_iff : course.code.getD (-1) = 0 ↔ course.code = some 0 := by
  cases course.code with
  | none => decide
  | some code => exact Option.some_inj.symm

/-! ### One end of a process at a time -/

theorem finish_run_of_limit (h : c.timeout.bind Failure.ofLimit? = some e) :
    (c.finish b f course).run s = .error e s := by
  rw [finish, h]
  rfl

section
variable (hlimit : c.timeout.bind Failure.ofLimit? = none)
include hlimit

theorem finish_run_of_noTime (htime : c.hasTime = false) :
    (c.finish b f course).run s = .error (if course.gone then .system else
      match course.waiting with
      | .ends => .timedOut c.timeout
      | .timesOut => .system
      | .cancelled => .cancelled) { s with kills := s.kills + 1 } := by
  rw [finish, hlimit]
  simp only [htime, Bool.not_false, if_true, giveUp]
  cases hgone : course.gone with
  | true =>
    rw [run_bind_error (kill_run_of_gone hgone)]
    rfl
  | false =>
    rw [run_bind_ok (kill_run_of_not_gone hgone)]
    cases course.waiting <;> rfl

theorem finish_run_of_timesOut (htime : c.hasTime = true) (hwaiting : course.waiting = .timesOut) :
    (c.finish b f course).run s =
      .error (if course.gone then .system else .timedOut c.timeout) { s with kills := s.kills + 1 } := by
  rw [finish, hlimit]
  simp only [htime, Bool.not_true, Bool.false_eq_true, if_false, hwaiting]
  cases hgone : course.gone with
  | true =>
    rw [run_bind_error (kill_run_of_gone hgone)]
    rfl
  | false =>
    rw [run_bind_ok (kill_run_of_not_gone hgone)]
    rfl

theorem finish_run_of_cancelled (htime : c.hasTime = true) (hwaiting : course.waiting = .cancelled) :
    (c.finish b f course).run s = .error .cancelled { s with kills := s.kills + 1 } := by
  have hkill : (Act.anyway (kill course)).run s = .ok () { s with kills := s.kills + 1 } := by
    have hrun : (kill course).run s = _ := kill_run
    rw [EStateM.run] at hrun ⊢
    rw [Act.anyway, hrun]
    cases course.gone <;> rfl
  rw [finish, hlimit]
  simp only [htime, Bool.not_true, Bool.false_eq_true, if_false, hwaiting, run_bind_ok hkill]
  rfl

end

theorem finish_run_of_endsInTime (h : course.EndsInTime c) :
    (c.finish b f course).run s =
      if course.code.getD (-1) ≠ 0 then .error (.exited (course.code.getD (-1)) (outputText course)) s
      else if outputText course = "" then .error (.noOutput (course.code.getD (-1))) s
      else .ok ⟨b, f, outputText course, course.code.getD (-1), course.elapsed⟩ s := by
  rw [finish, h.limit]
  simp only [h.hasTime, Bool.not_true, Bool.false_eq_true, if_false, h.ends, String.isEmpty_iff]
  split_ifs <;> rfl

/-! ### Calls that pass and orderly calls that do not -/

theorem finish_run_of_passed (hlimit : c.timeout.bind Failure.ofLimit? = none)
    (h : (Invocation.started course).passed? c = some course) :
    (c.finish b f course).run s = .ok ⟨b, f, outputText course, 0, course.elapsed⟩ s := by
  obtain ⟨-, htime, hends, hcode, houtput⟩ := passed?_started_eq_some_iff.1 h
  rw [finish_run_of_endsInTime ⟨hlimit, htime, hends⟩, hcode, if_neg houtput]
  rfl

theorem finish_run_of_not (hlimit : c.timeout.bind Failure.ofLimit? = none)
    (horderly : (Invocation.started course).Orderly c) (h : (Invocation.started course).passed? c = none) :
    ∃ (e : Failure) (k : Nat), e.isOwn ∧ (c.finish b f course).run s = .error e { s with kills := k } := by
  rw [Invocation.Orderly] at horderly
  cases htime : c.hasTime with
  | false =>
    rw [htime, if_neg Bool.false_ne_true] at horderly
    obtain ⟨hends, hgone⟩ := horderly
    exact ⟨.timedOut c.timeout, s.kills + 1, rfl, by rw [finish_run_of_noTime hlimit htime, hgone, hends]; rfl⟩
  | true =>
    rw [htime, if_pos rfl] at horderly
    cases hwaiting : course.waiting with
    | timesOut =>
      have hrun := finish_run_of_timesOut (b := b) (f := f) (s := s) hlimit htime hwaiting
      exact ⟨.timedOut c.timeout, s.kills + 1, rfl, by rw [hrun, horderly.2 hwaiting]; rfl⟩
    | cancelled => exact absurd hwaiting horderly.1
    | ends =>
      rw [finish_run_of_endsInTime ⟨hlimit, htime, hwaiting⟩]
      split_ifs with hcode houtput
      · exact ⟨_, s.kills, rfl, rfl⟩
      · exact ⟨_, s.kills, rfl, rfl⟩
      · have hzero := getD_code_eq_zero_iff.1 (not_not.1 hcode)
        rw [passed?_started_eq_some_iff.2 ⟨rfl, htime, hwaiting, hzero, houtput⟩] at h
        nomatch h

theorem run_run_of_passed (hlimit : c.timeout.bind Failure.ofLimit? = none) (h : s.next.passed? c = some course) :
    (c.run b f).run s = .ok ⟨b, f, outputText course, 0, course.elapsed⟩ (s.called c b f) := by
  cases hnext : s.next with
  | refused why => rw [hnext] at h; nomatch h
  | started course' =>
    rw [hnext] at h
    obtain ⟨rfl, -⟩ := passed?_started_eq_some_iff.1 h
    rw [run, run_bind_ok (start_run_of_started hnext), finish_run_of_passed hlimit h]

theorem run_run_of_not (hlimit : c.timeout.bind Failure.ofLimit? = none) (horderly : s.next.Orderly c)
    (h : s.next.passed? c = none) :
    ∃ (e : Failure) (k : Nat), e.isOwn ∧ (c.run b f).run s = .error e { s.called c b f with kills := k } := by
  cases hnext : s.next with
  | refused why =>
    obtain ⟨e, he, hrun⟩ := start_run_of_refused (c := c) (b := b) (f := f) hnext
    exact ⟨e, s.kills, Failure.isOwn_of_isCheckerError he, run_bind_error hrun⟩
  | started course =>
    rw [hnext] at horderly h
    obtain ⟨e, k, hown, hrun⟩ := finish_run_of_not (b := b) (f := f) (s := s.called c b f) hlimit horderly h
    exact ⟨e, k, hown, (run_bind_ok (start_run_of_started hnext)).trans hrun⟩

end Checker

end StreamCheck.Verification
