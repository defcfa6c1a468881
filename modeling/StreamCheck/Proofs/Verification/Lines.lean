import Mathlib.Data.List.Basic
import StreamCheck.Verification.Statistics

/-! Reports are read line by line. Neither a figure nor the words of a verdict reach over the end of a line, so what is
read of a report is put together from what is read of its lines. -/

namespace StreamCheck.Verification
open Text

variable {words cs a b rest : List Char}

/-! ### Where figures stand -/

theorem after?_eq_some_iff : after? words cs = some rest ↔ cs = words ++ rest := by
  unfold after?
  split_ifs with h
  · obtain ⟨rest', rfl⟩ := List.isPrefixOf_iff_prefix.1 h
    rw [List.drop_left, Option.some_inj, List.append_cancel_left_eq]
  · refine ⟨nofun, ?_⟩
    rintro rfl
    exact absurd (List.isPrefixOf_iff_prefix.2 (List.prefix_append words rest)) h

theorem isSome_takeSome_iff {p : Char → Bool} : (takeSome p cs).isSome ↔ ∃ d rest, cs = d :: rest ∧ p d := by
  unfold takeSome
  cases cs with
  | nil => simp
  | cons d rest => by_cases hd : p d = true <;> simp [hd]

namespace FigureForm

theorem begins_power_cons_iff {c : Char} : Begins .power (c :: cs) ↔
    (c = '^' ∧ ∃ d rest, cs = d :: rest ∧ isNumeral d) ∨ (c ≠ '\n' ∧ Begins .power cs) := by
  constructor
  · rintro ⟨gap, d, rest, hchars, hgap, hd⟩
    cases gap with
    | nil =>
      obtain ⟨rfl, rfl⟩ := List.cons.inj hchars
      exact .inl ⟨rfl, d, rest, rfl, hd⟩
    | cons g gap =>
      obtain ⟨rfl, rfl⟩ := List.cons.inj hchars
      exact .inr ⟨(List.ne_of_not_mem_cons hgap).symm, gap, d, rest, rfl, List.not_mem_of_not_mem_cons hgap, hd⟩
  · rintro (⟨rfl, d, rest, rfl, hd⟩ | ⟨hc, gap, d, rest, rfl, hgap, hd⟩)
    · exact ⟨[], d, rest, rfl, List.not_mem_nil, hd⟩
    · exact ⟨c :: gap, d, rest, rfl, List.not_mem_cons_of_ne_of_not_mem hc.symm hgap, hd⟩

theorem isSome_powerIn_iff : (powerIn cs).isSome ↔ Begins .power cs := by
  induction cs with
  | nil => simp [powerIn, Begins]
  | cons c cs ih =>
    rw [begins_power_cons_iff, ← ih, ← isSome_takeSome_iff, powerIn]
    by_cases hc : c = '^'
    · subst hc
      rw [if_pos rfl]
      cases takeSome isNumeral cs <;> simp
    · by_cases hn : c = '\n' <;> simp [hc, hn]

theorem isSome_stepIn_iff : (stepIn cs).isSome ↔ Begins .step cs := by
  constructor
  · intro h
    unfold stepIn at h
    split at h
    · nomatch h
    next run hrun =>
    split at h
    · next rest hrest =>
      rw [Option.isSome_map] at h
      obtain ⟨d, rest, rfl, hd⟩ := isSome_takeSome_iff.1 h
      refine ⟨cs.takeWhile isDigit, d, rest, ?_, ?_, fun c hc => ?_, hd⟩
      · rw [← hrest, List.takeWhile_append_dropWhile]
      · intro hnil
        simp [takeSome, hnil] at hrun
      · exact List.all_eq_true.1 List.all_takeWhile c hc
    · nomatch h
  · rintro ⟨run, d, rest, rfl, hrun, hdigits, hd⟩
    have hwhile : (run ++ '.' :: d :: rest).takeWhile isDigit = run := by
      rw [List.takeWhile_append_of_pos hdigits, List.takeWhile_cons_of_neg (by decide), List.append_nil]
    have hdrop : (run ++ '.' :: d :: rest).dropWhile isDigit = '.' :: d :: rest := by
      rw [List.dropWhile_append_of_pos hdigits, List.dropWhile_cons_of_neg (by decide)]
    have hsome : takeSome isDigit (run ++ '.' :: d :: rest) = some run := by
      rw [takeSome, hwhile]
      cases run with
      | nil => exact absurd rfl hrun
      | cons c run => rfl
    rw [stepIn, hsome, hdrop]
    simpa using isSome_takeSome_iff.2 ⟨d, rest, rfl, hd⟩

theorem isSome_read_iff {form : FigureForm} : (form.read cs).isSome ↔ form.Begins cs := by
  cases form with
  | count => exact isSome_takeSome_iff
  | power => exact isSome_powerIn_iff
  | step => exact isSome_stepIn_iff

end FigureForm

namespace Figure
variable {f : Figure}

theorem here_nil (f : Figure) : f.here [] = none := by
  rw [here, after?]
  split_ifs
  · rw [List.drop_nil, Option.bind_some]
    cases f.form <;> rfl
  · rfl

theorem first_nil (f : Figure) : f.first [] = none := f.here_nil

theorem first_cons (f : Figure) (c : Char) (cs : List Char) :
    f.first (c :: cs) = (f.here (c :: cs)).or (f.first cs) := by
  rw [first]
  cases f.here (c :: cs) <;> rfl

theorem isSome_here_iff : (f.here cs).isSome ↔ ∃ rest, cs = f.words.toList ++ rest ∧ f.form.Begins rest := by
  rw [here, Option.isSome_bind, Option.any_eq_true]
  exact exists_congr fun rest => and_congr after?_eq_some_iff FigureForm.isSome_read_iff

theorem isSome_first_iff :
    (f.first cs).isSome ↔ ∃ front rest, cs = front ++ (f.words.toList ++ rest) ∧ f.form.Begins rest := by
  induction cs with
  | nil =>
    rw [first, isSome_here_iff]
    constructor
    · rintro ⟨rest, h, hbegins⟩
      exact ⟨[], rest, h, hbegins⟩
    · rintro ⟨front, rest, h, hbegins⟩
      obtain ⟨-, h⟩ := List.append_eq_nil_iff.1 h.symm
      exact ⟨rest, h.symm, hbegins⟩
  | cons c cs ih =>
    rw [first_cons, Option.isSome_or, Bool.or_eq_true, isSome_here_iff, ih]
    constructor
    · rintro (⟨rest, h, hbegins⟩ | ⟨front, rest, rfl, hbegins⟩)
      · exact ⟨[], rest, h, hbegins⟩
      · exact ⟨c :: front, rest, rfl, hbegins⟩
    · rintro ⟨front, rest, h, hbegins⟩
      cases front with
      | nil => exact .inl ⟨rest, h, hbegins⟩
      | cons c' front => exact .inr ⟨front, rest, (List.cons.inj h).2, hbegins⟩

theorem isSome_first_iff_standsIn {report : String} : (f.first report.toList).isSome ↔ f.StandsIn report :=
  isSome_first_iff

end Figure

/-! ### The end of a line -/

theorem takeWhile_append_newline {p : Char → Bool} (h : p '\n' = false) :
    (a ++ '\n' :: b).takeWhile p = a.takeWhile p := by
  induction a with
  | nil => rw [List.nil_append, List.takeWhile_cons_of_neg (by simp [h]), List.takeWhile_nil]
  | cons c a ih => rw [List.cons_append, List.takeWhile_cons, List.takeWhile_cons, ih]

theorem dropWhile_append_newline {p : Char → Bool} (h : p '\n' = false) :
    (a ++ '\n' :: b).dropWhile p = a.dropWhile p ++ '\n' :: b := by
  induction a with
  | nil => rw [List.nil_append, List.dropWhile_cons_of_neg (by simp [h]), List.dropWhile_nil, List.nil_append]
  | cons c a ih =>
    rw [List.cons_append, List.dropWhile_cons, List.dropWhile_cons, ih]
    split_ifs <;> rfl

theorem takeSome_append_newline {p : Char → Bool} (h : p '\n' = false) :
    takeSome p (a ++ '\n' :: b) = takeSome p a := by
  rw [takeSome, takeSome, takeWhile_append_newline h]

theorem after?_append_newline (h : '\n' ∉ words) :
    after? words (a ++ '\n' :: b) = (after? words a).map (· ++ '\n' :: b) := by
  ext rest
  rw [after?_eq_some_iff, Option.map_eq_some_iff, List.append_eq_append_iff]
  simp only [after?_eq_some_iff]
  constructor
  · rintro (⟨beyond, rfl, hbeyond⟩ | ⟨rest, rfl, rfl⟩)
    -- words that reach beyond the first text go on with the line feed, which none of them holds
    · cases beyond with
      | nil => exact ⟨[], by simp, hbeyond⟩
      | cons c beyond =>
        obtain ⟨rfl, -⟩ := List.cons.inj hbeyond
        exact absurd (List.mem_append_right a List.mem_cons_self) h
    · exact ⟨rest, rfl, rfl⟩
  · rintro ⟨rest, rfl, rfl⟩
    exact .inr ⟨rest, rfl, rfl⟩

theorem powerIn_append_newline : powerIn (a ++ '\n' :: b) = powerIn a := by
  induction a with
  | nil => rfl
  | cons c a ih =>
    rw [List.cons_append, powerIn, powerIn, ih, takeSome_append_newline (by decide)]

theorem stepIn_append_newline : stepIn (a ++ '\n' :: b) = stepIn a := by
  rw [stepIn, stepIn, takeSome_append_newline (by decide), dropWhile_append_newline (by decide)]
  cases takeSome isDigit a with
  | none => rfl
  | some run =>
    rcases a.dropWhile isDigit with _ | ⟨c, rest⟩
    · rfl
    · by_cases hc : c = '.'
      · subst hc
        exact congrArg (Option.map _) (takeSome_append_newline (by decide))
      · simp [hc]

theorem FigureForm.read_append_newline (form : FigureForm) : form.read (a ++ '\n' :: b) = form.read a := by
  cases form with
  | count => exact takeSome_append_newline (by decide)
  | power => exact powerIn_append_newline
  | step => exact stepIn_append_newline

namespace Figure
variable {f : Figure}

theorem here_append_newline (h : '\n' ∉ f.words.toList) : f.here (a ++ '\n' :: b) = f.here a := by
  rw [here, here, after?_append_newline h, Option.bind_map]
  exact congrArg _ (funext fun rest => f.form.read_append_newline)

theorem here_newline (h : '\n' ∉ f.words.toList) : f.here ('\n' :: b) = none :=
  (here_append_newline (a := []) h).trans f.here_nil

theorem first_append_newline (h : '\n' ∉ f.words.toList) :
    f.first (a ++ '\n' :: b) = (f.first a).or (f.first b) := by
  induction a with
  | nil => rw [List.nil_append, first_cons, here_newline h, first_nil]
  | cons c a ih =>
    have hhere : f.here (c :: (a ++ '\n' :: b)) = f.here (c :: a) := here_append_newline (a := c :: a) h
    rw [List.cons_append, first_cons, first_cons, hhere, ih, Option.or_assoc]

theorem first_intercalate (h : '\n' ∉ f.words.toList) (lines : List (List Char)) :
    f.first (['\n'].intercalate lines) = lines.findSome? f.first := by
  induction lines with
  | nil => exact f.first_nil
  | cons line lines ih =>
    rw [List.findSome?_cons, ← ih]
    -- the last line has no line feed behind it
    cases lines with
    | nil =>
      rw [List.intercalate_singleton, List.intercalate_nil, first_nil]
      cases f.first line <;> rfl
    | cons line' lines =>
      rw [List.intercalate_cons_cons, List.append_assoc, List.singleton_append, first_append_newline h]
      cases f.first line <;> rfl

theorem count_append_newline (h : '\n' ∉ f.words.toList) :
    f.count (a ++ '\n' :: b) = f.count a + f.count b := by
  induction a with
  | nil => simp [count, here_newline h, here_nil]
  | cons c a ih =>
    have hhere : f.here (c :: (a ++ '\n' :: b)) = f.here (c :: a) := here_append_newline (a := c :: a) h
    rw [List.cons_append, count, count, hhere, ih, Nat.add_assoc]

end Figure

theorem isPrefixOf_append_newline (h : '\n' ∉ words) :
    words.isPrefixOf (a ++ '\n' :: b) = words.isPrefixOf a := by
  have hsome {cs : List Char} : words.isPrefixOf cs = (after? words cs).isSome := by
    rw [after?]
    split_ifs with hstarts <;> simp [hstarts]
  rw [hsome, hsome, after?_append_newline h, Option.isSome_map]

theorem mentions_append_newline (h : '\n' ∉ words) :
    mentions words (a ++ '\n' :: b) = (mentions words a || mentions words b) := by
  induction a with
  | nil =>
    have hseam : words.isPrefixOf ('\n' :: b) = words.isPrefixOf [] := isPrefixOf_append_newline (a := []) h
    rw [List.nil_append, mentions, mentions, hseam]
    cases words <;> rfl
  | cons c a ih =>
    have hhere : words.isPrefixOf (c :: (a ++ '\n' :: b)) = words.isPrefixOf (c :: a) :=
      isPrefixOf_append_newline (a := c :: a) h
    rw [List.cons_append, mentions, mentions, ih, hhere, Bool.or_assoc]

/-! ### Reports put together -/

namespace Report
variable {f : Figure}

theorem toList_append_newline (a b : String) : (a ++ "\n" ++ b).toList = a.toList ++ '\n' :: b.toList := by
  rw [String.toList_append, String.toList_append, List.append_assoc]
  rfl

theorem newline_not_mem_words : ∀ f ∈ Figure.statistics, '\n' ∉ f.words.toList := by decide

theorem first_of_standsIn {a : String} (h : '\n' ∉ f.words.toList) (ha : f.StandsIn a) (b : String) :
    f.first (a ++ "\n" ++ b).toList = f.first a.toList := by
  obtain ⟨run, hrun⟩ := Option.isSome_iff_exists.1 (Figure.isSome_first_iff_standsIn.2 ha)
  rw [toList_append_newline, Figure.first_append_newline h, hrun, Option.some_or]

theorem first_of_not_standsIn {a : String} (h : '\n' ∉ f.words.toList) (ha : ¬f.StandsIn a) (b : String) :
    f.first (a ++ "\n" ++ b).toList = f.first b.toList := by
  have hnone := Option.not_isSome_iff_eq_none.1 (mt Figure.isSome_first_iff_standsIn.1 ha)
  rw [toList_append_newline, Figure.first_append_newline h, hnone, Option.none_or]

/-- What is read of two texts, of which the second begins on a line of its own, is put together from what is read of
each: a figure comes from the first text if it stands there, even if it is no number, and else from the second; witnesses
add up; and that the property fails in one text counts more than that it holds in the other. -/
theorem read_lines (a b : String) :
    (∀ f ∈ Figure.statistics,
      (f.StandsIn a → whole f (a ++ "\n" ++ b) = whole f a ∧ real f (a ++ "\n" ++ b) = real f a) ∧
      (¬f.StandsIn a → whole f (a ++ "\n" ++ b) = whole f b ∧ real f (a ++ "\n" ++ b) = real f b)) ∧
    witnessLength (a ++ "\n" ++ b) = witnessLength a + witnessLength b ∧
    verdict (a ++ "\n" ++ b) =
      if verdict a = .fails ∨ verdict b = .fails then .fails
      else if verdict a = .holds ∨ verdict b = .holds then .holds
      else .unknown := by
  refine ⟨fun f hf => ?_, ?_, ?_⟩
  · have hwords := newline_not_mem_words f hf
    refine ⟨fun ha => ?_, fun ha => ?_⟩
    · rw [whole, whole, real, real, first_of_standsIn hwords ha]
      exact ⟨rfl, rfl⟩
    · rw [whole, whole, real, real, first_of_not_standsIn hwords ha]
      exact ⟨rfl, rfl⟩
  · rw [witnessLength, toList_append_newline, Figure.count_append_newline (by decide)]
    rfl
  · rw [verdict, verdict, verdict, toList_append_newline, mentions_append_newline (by decide),
      mentions_append_newline (by decide)]
    generalize mentions "is false".toList a.toList = failsA, mentions "is false".toList b.toList = failsB,
      mentions "is true".toList a.toList = holdsA, mentions "is true".toList b.toList = holdsB
    revert failsA failsB holdsA holdsB
    decide

end Report

end StreamCheck.Verification
