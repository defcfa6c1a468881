import StreamCheck.Proofs.Decimal.Numerals
import StreamCheck.Proofs.Verification.Lines

/-! Reading statistics back. Each figure is read off the line that was printed for it, whatever the order of the lines and
whatever the others say, since neither the words of another figure nor a number that is printed holds its words. -/

namespace StreamCheck.Verification
open Text

variable {f : Figure} {words cs a b run : List Char}

/-! ### Words that are not there -/

namespace Figure

theorem first_eq_none (h : ¬f.words.toList <:+: cs) : f.first cs = none := by
  refine Option.not_isSome_iff_eq_none.1 fun hsome => h ?_
  obtain ⟨front, rest, rfl, -⟩ := isSome_first_iff.1 hsome
  exact List.infix_append' front f.words.toList rest

theorem first_words_append (h : f.form.read cs = some run) : f.first (f.words.toList ++ cs) = some run := by
  have hhere : f.here (f.words.toList ++ cs) = some run := by
    rw [here, after?_eq_some_iff.2 rfl, Option.bind_some, h]
  cases hcs : f.words.toList ++ cs with
  | nil => rwa [hcs] at hhere
  | cons c rest =>
    rw [hcs] at hhere
    rw [first_cons, hhere, Option.some_or]

theorem first_append_of_not_mem {c : Char} (hwords : f.words.toList.head? = some c) (ha : c ∉ a) :
    f.first (a ++ cs) = f.first cs := by
  obtain ⟨words, hwords⟩ := List.head?_eq_some_iff.1 hwords
  induction a with
  | nil => rfl
  | cons d a ih =>
    have hd : c ≠ d := List.ne_of_not_mem_cons ha
    have hhere : f.here (d :: (a ++ cs)) = none := by
      have hafter : after? f.words.toList (d :: (a ++ cs)) = none := by
        refine Option.eq_none_iff_forall_ne_some.2 fun rest hrest => ?_
        rw [after?_eq_some_iff, hwords] at hrest
        exact hd (List.cons.inj hrest).1.symm
      rw [here, hafter, Option.bind_none]
    rw [List.cons_append, first_cons, hhere, Option.none_or, ih (List.not_mem_of_not_mem_cons ha)]

end Figure

/-! ### Numbers that are there -/

theorem isDigit_of_char {c : Char} (h : c.isDigit = true) : isDigit c = true := by
  rw [isDigit, digitValue?_of_isDigit h]
  rfl

theorem takeSome_append {p : Char → Bool} (hrun : ∀ c ∈ run, p c = true) (hne : run ≠ []) (hcs : cs.takeWhile p = []) :
    takeSome p (run ++ cs) = some run := by
  rw [takeSome, List.takeWhile_append_of_pos hrun, hcs, List.append_nil]
  cases run with
  | nil => exact absurd rfl hne
  | cons c run => rfl

theorem powerIn_append {gap : List Char} (hgap : ∀ c ∈ gap, c ≠ '^' ∧ c ≠ '\n') (hrun : ∀ c ∈ run, isNumeral c = true)
    (hne : run ≠ []) (hcs : cs.takeWhile isNumeral = []) : powerIn (gap ++ '^' :: (run ++ cs)) = some run := by
  induction gap with
  | nil => rw [List.nil_append, powerIn, if_pos rfl, takeSome_append hrun hne hcs]
  | cons c gap ih =>
    obtain ⟨hc, hgap⟩ := List.forall_mem_cons.1 hgap
    rw [List.cons_append, powerIn, if_neg hc.1, if_neg hc.2, ih hgap]

theorem digits_of_number (n : Nat) : (∀ c ∈ (toString n).toList, c.isDigit = true) ∧ (toString n).toList ≠ [] := by
  rw [Smv.toList_toString_natCast]
  exact ⟨fun _ => Smv.isDigit_of_mem_toDigits, Nat.toDigits_ne_nil⟩

theorem takeSome_number (n : Nat) : takeSome isDigit (toString n).toList = some (toString n).toList := by
  obtain ⟨hdigits, hne⟩ := digits_of_number n
  have hrun : takeSome isDigit ((toString n).toList ++ []) = some (toString n).toList :=
    takeSome_append (fun c hc => isDigit_of_char (hdigits c hc)) hne rfl
  rwa [List.append_nil] at hrun

namespace StateCount
variable (n : StateCount)

theorem powerIn_text (rest : List Char) : powerIn (n.text.toList ++ rest) = some n.power.chars := by
  have hgap : ∀ c ∈ n.size.toList ++ " (2".toList, c ≠ '^' ∧ c ≠ '\n' := by
    have hplain : ∀ c ∈ "0123456789.e+".toList, c ≠ '^' ∧ c ≠ '\n' := forall_mem_of_all (by decide)
    rw [List.forall_mem_append]
    exact ⟨fun c hc => hplain c (n.plain c hc), forall_mem_of_all (by decide)⟩
  have hrun : ∀ c ∈ n.power.chars, isNumeral c = true := by
    have hnumeral : ∀ c ∈ "0123456789.".toList, isNumeral c = true := forall_mem_of_all (by decide)
    exact fun c hc => hnumeral c (n.power.mem_of_mem_chars c hc)
  have hne : n.power.chars ≠ [] := by
    obtain ⟨c, rest, hchars, -⟩ := n.power.exists_chars_eq_cons
    exact hchars ▸ List.cons_ne_nil c rest
  have hcs : (')' :: rest).takeWhile isNumeral = [] := List.takeWhile_cons_of_neg (by decide)
  have hchars : n.text.toList ++ rest = (n.size.toList ++ " (2".toList) ++ '^' :: (n.power.chars ++ ')' :: rest) := by
    simp [text]
  rw [hchars]
  exact powerIn_append hgap hrun hne hcs

theorem mem_of_mem_text : ∀ c ∈ n.text.toList, c ∈ "0123456789.e+ (2^)".toList := by
  have hplain : ∀ c ∈ "0123456789.e+".toList, c ∈ "0123456789.e+ (2^)".toList := forall_mem_of_all (by decide)
  have hnumeral : ∀ c ∈ "0123456789.".toList, c ∈ "0123456789.e+ (2^)".toList := forall_mem_of_all (by decide)
  simp only [text, String.toList_append, String.toList_ofList, List.forall_mem_append]
  exact ⟨⟨⟨fun c hc => hplain c (n.plain c hc), forall_mem_of_all (by decide)⟩,
    fun c hc => hnumeral c (n.power.mem_of_mem_chars c hc)⟩, forall_mem_of_all (by decide)⟩

end StateCount

/-! ### The lines that are printed -/

namespace Statistics
variable {p : Statistics} {n : Whole}

theorem getLast?_words : ∀ f ∈ Figure.statistics, f.words.toList.getLast? = some ' ' := by decide

theorem toList_countLine (f : Figure) (n : Whole) :
    (countLine f n).toList = f.words.toList ++ (toString n.number).toList := by
  rw [countLine, String.toList_append]

theorem first_countLine (hf : f.form = .count) : f.first (countLine f n).toList = some (toString n.number).toList := by
  rw [toList_countLine]
  refine Figure.first_words_append ?_
  rw [hf]
  exact takeSome_number n.number

theorem first_countLine_of_ne {g : Figure} (hf : f ∈ Figure.statistics) (hg : g ∈ Figure.counts) (hne : f ≠ g) :
    f.first (countLine g n).toList = none := by
  have hwords : ∀ f ∈ Figure.statistics, ∀ g ∈ Figure.counts, f ≠ g → ¬f.words.toList <:+: g.words.toList := by
    decide +kernel
  refine Figure.first_eq_none fun h => hwords f hf g hg hne ?_
  rw [toList_countLine] at h
  refine isInfix_of_append h (getLast?_words f hf) fun hspace => ?_
  exact absurd ((digits_of_number n.number).1 _ hspace) (by decide)

variable {states : StateCount × StateCount}

theorem toList_stateLine (states : StateCount × StateCount) : (stateLine states).toList =
    "reachable states: ".toList ++ (states.1.text.toList ++ (" out of ".toList ++ states.2.text.toList)) := by
  have hparts (a b c d : String) : (a ++ b ++ c ++ d).toList = a.toList ++ (b.toList ++ (c.toList ++ d.toList)) := by
    simp only [String.toList_append, List.append_assoc]
  exact hparts ..

theorem first_reachableStates :
    Figure.reachableStates.first (stateLine states).toList = some states.1.power.chars := by
  rw [toList_stateLine]
  exact Figure.first_words_append (states.1.powerIn_text _)

/-- What comes before the words for all states does not hold their first letter. -/
theorem first_totalStates : Figure.totalStates.first (stateLine states).toList = some states.2.power.chars := by
  have hchars : (stateLine states).toList =
      ("reachable states: ".toList ++ states.1.text.toList ++ [' ']) ++
        (Figure.totalStates.words.toList ++ states.2.text.toList) := by
    have hspace : " out of ".toList = ' ' :: Figure.totalStates.words.toList := by decide
    have hparts (a b c d : List Char) : a ++ (b ++ (' ' :: c ++ d)) = (a ++ b ++ [' ']) ++ (c ++ d) := by simp
    rw [toList_stateLine, hspace]
    exact hparts ..
  have hfront : 'o' ∉ "reachable states: ".toList ++ states.1.text.toList ++ [' '] := by
    have htext : 'o' ∉ states.1.text.toList := fun h => absurd (states.1.mem_of_mem_text _ h) (by decide)
    simp only [List.mem_append, not_or]
    exact ⟨⟨by decide, htext⟩, by decide⟩
  rw [hchars, Figure.first_append_of_not_mem (by decide) hfront]
  refine Figure.first_words_append ?_
  have hread := states.2.powerIn_text []
  rwa [List.append_nil] at hread

/-- The words of a figure that is counted out end in a colon, and the only colon of the line is in front. -/
theorem first_stateLine_of_count (hf : f ∈ Figure.counts) : f.first (stateLine states).toList = none := by
  have hcolon : ∀ f ∈ Figure.counts, f.words.toList.dropLast.getLast? = some ':' ∧
      ¬f.words.toList.dropLast <:+: "reachable states: ".toList := by
    decide +kernel
  obtain ⟨hlast, hwords⟩ := hcolon f hf
  refine Figure.first_eq_none fun h => hwords ?_
  rw [toList_stateLine] at h
  refine isInfix_of_append ((List.dropLast_prefix _).isInfix.trans h) hlast ?_
  have htext (n : StateCount) : ':' ∉ n.text.toList := fun h => absurd (n.mem_of_mem_text _ h) (by decide)
  simp only [List.mem_append, not_or]
  exact ⟨htext _, by decide, htext _⟩

/-! ### What is shown of them -/

theorem noted_display (r : Record) :
    ∀ x ∈ p.fields, (p.noted r).display.lookup x.1 = some (.text Record.unknownText) ↔ x.2 = false := by
  have hwhole (n : Option Whole) : some (Record.showWhole (n.elim notObserved fun n => n.number)) =
      some (.text Record.unknownText) ↔ n.isSome = false := by
    cases n with
    | none => exact iff_of_true rfl rfl
    | some n =>
      have hne : (n.number : Int) ≠ notObserved := by
        rw [notObserved]
        omega
      rw [Option.elim_some, Record.showWhole, if_neg hne]
      exact iff_of_false nofun nofun
  have hreal (n : Option (StateCount × StateCount)) (power : StateCount × StateCount → Decimal.Numeral) :
      some (Record.showReal (n.elim (-1.0) fun n => (power n).value)) = some (.text Record.unknownText) ↔
        n.isSome = false := by
    cases n with
    | none =>
      have hunknown : ((-1.0 : Float) == -1.0) = true := by decide +kernel
      rw [Option.elim_none, Record.showReal, if_pos hunknown]
      exact iff_of_true rfl rfl
    | some n =>
      have hne : ((power n).value == -1.0) = false :=
        Decimal.beq_neg_one_of_isUnsigned (Decimal.isUnsigned_ofScaled ..)
      rw [Option.elim_some, Record.showReal, hne]
      exact iff_of_false nofun nofun
  simp only [fields, List.forall_mem_cons, List.not_mem_nil, false_implies, implies_true, and_true]
  exact ⟨hwhole p.memory, hwhole p.totalNodes, hwhole p.liveNodes, hwhole p.diameter,
    hreal p.states fun n => n.1.power, hreal p.states fun n => n.2.power⟩

/-! ### What is read of the lines -/

theorem forall_mem_lines {P : String → Prop} : (∀ line ∈ p.lines, P line) ↔
    (∀ x ∈ p.counts, ∀ n, x.2 = some n → P (countLine x.1 n)) ∧
      ∀ states, p.states = some states → P (stateLine states) := by
  simp only [lines, List.forall_mem_append, List.forall_mem_flatMap, List.forall_mem_map, Option.mem_toList]

theorem countLine_mem_lines (hf : (f, some n) ∈ p.counts) : countLine f n ∈ p.lines :=
  List.mem_append_left _ (List.mem_flatMap_of_mem hf (by simp))

theorem stateLine_mem_lines (h : p.states = some states) : stateLine states ∈ p.lines :=
  List.mem_append_right _ (by simp [h])

section
variable {lines others : List String} (horder : lines.Perm (p.lines ++ others))
  (hothers : ∀ line ∈ others, ∀ f ∈ Figure.statistics, ¬f.words.toList <:+: line.toList)

include horder hothers

theorem first_lines (hf : f ∈ Figure.statistics) {o : Option (List Char)}
    (h : ∀ line ∈ p.lines, f.first line.toList = none ∨ f.first line.toList = o)
    (hsome : o.isSome → ∃ line ∈ p.lines, f.first line.toList = o) : f.first ("\n".intercalate lines).toList = o := by
  have hnewline : "\n".toList = ['\n'] := by decide
  rw [String.toList_intercalate, hnewline, Figure.first_intercalate (Report.newline_not_mem_words f hf),
    List.findSome?_map]
  refine findSome?_eq (fun line hline => ?_) fun ho => ?_
  · obtain hline | hline := List.mem_append.1 (horder.subset hline)
    · exact h line hline
    · exact .inl (Figure.first_eq_none (hothers line hline f hf))
  · obtain ⟨line, hline, hfirst⟩ := hsome ho
    exact ⟨line, horder.symm.subset (List.mem_append_left _ hline), hfirst⟩

theorem whole_lines {f : Figure} {n : Option Whole} (hf : (f, n) ∈ p.counts) :
    Report.whole f ("\n".intercalate lines) = n.elim notObserved fun n => n.number := by
  have hkeys : p.counts.map Prod.fst = Figure.counts := rfl
  have hmem {x : Figure × Option Whole} (hx : x ∈ p.counts) : x.1 ∈ Figure.counts := hkeys ▸ List.mem_map_of_mem hx
  have hforms : ∀ f ∈ Figure.counts, f.form = .count := by decide
  have hnodup : (p.counts.map Prod.fst).Nodup := by
    rw [hkeys]
    decide
  have hfirst : f.first ("\n".intercalate lines).toList = n.map fun n => (toString n.number).toList := by
    refine first_lines horder hothers (List.mem_append_left _ (hmem hf)) ?_ fun hn => ?_
    · refine forall_mem_lines.2 ⟨fun x hx m hm => ?_, fun states _ => .inl (first_stateLine_of_count (hmem hf))⟩
      -- a figure has one line at most, since each stands once among those that are counted
      obtain heq | hne := eq_or_ne f x.1
      · obtain rfl : (f, n) = x := List.inj_on_of_nodup_map hnodup hf hx heq
        obtain rfl : n = some m := hm
        exact .inr (first_countLine (hforms f (hmem hf)))
      · exact .inl (first_countLine_of_ne (List.mem_append_left _ (hmem hf)) (hmem hx) hne)
    · rw [Option.isSome_map] at hn
      obtain ⟨m, rfl⟩ := Option.isSome_iff_exists.1 hn
      exact ⟨_, countLine_mem_lines hf, first_countLine (hforms f (hmem hf))⟩
  rw [Report.whole, hfirst]
  cases n with
  | none => rfl
  | some n => rw [Option.map_some, Option.bind_some, Decimal.natural?_toString n.short]; rfl

theorem real_lines {f : Figure} {power : StateCount × StateCount → Decimal.Numeral} (hf : f ∈ Figure.statistics)
    (hcounts : f ∉ Figure.counts) (hstates : ∀ states, f.first (stateLine states).toList = some (power states).chars) :
    Report.real f ("\n".intercalate lines) = p.states.elim (-1.0) fun n => (power n).value := by
  have hfirst : f.first ("\n".intercalate lines).toList = p.states.map fun n => (power n).chars := by
    refine first_lines horder hothers hf ?_ fun hn => ?_
    · refine forall_mem_lines.2 ⟨fun x hx m _ => .inl ?_, fun states hs => .inr ?_⟩
      · have hx : x.1 ∈ Figure.counts := List.mem_map_of_mem hx
        exact first_countLine_of_ne hf hx (ne_of_mem_of_not_mem hx hcounts).symm
      · rw [hstates states, hs]
        rfl
    · rw [Option.isSome_map] at hn
      obtain ⟨states, hs⟩ := Option.isSome_iff_exists.1 hn
      exact ⟨_, stateLine_mem_lines hs, by rw [hstates, hs]; rfl⟩
  rw [Report.real, hfirst]
  cases p.states with
  | none => rfl
  | some n => rw [Option.map_some, Option.bind_some, (power n).real?_chars]; rfl

/-- Whatever the order of the lines, and whatever lines are among them that hold none of the words, what was printed is
noted, and a report shows as not observed just what was not printed. -/
theorem withStatistics_eq_noted (r : Record) :
    r.withStatistics ("\n".intercalate lines) = p.noted r ∧
      ∀ x ∈ p.fields, (r.withStatistics ("\n".intercalate lines)).display.lookup x.1 =
        some (.text Record.unknownText) ↔ x.2 = false := by
  have hcount {f : Figure} {n : Option Whole} (hf : (f, n) ∈ p.counts) := whole_lines horder hothers hf
  have hmemory := hcount (f := .memory) (n := p.memory) (by simp [counts])
  have htotal := hcount (f := .totalNodes) (n := p.totalNodes) (by simp [counts])
  have hlive := hcount (f := .liveNodes) (n := p.liveNodes) (by simp [counts])
  have hdiameter := hcount (f := .diameter) (n := p.diameter) (by simp [counts])
  have hreachable := real_lines horder hothers (by decide) (by decide) fun _ => first_reachableStates
  have hall := real_lines horder hothers (by decide) (by decide) fun _ => first_totalStates
  have hnoted : r.withStatistics ("\n".intercalate lines) = p.noted r := by
    rw [Record.withStatistics, hmemory, htotal, hlive, hdiameter, hreachable, hall]
    rfl
  exact ⟨hnoted, hnoted ▸ noted_display r⟩

end

theorem withStatistics_eq_noted_of_shuffled :
    let p : Statistics :=
      { memory := some ⟨129, by decide⟩, diameter := some ⟨4, by decide⟩,
        states := some (⟨"15", ⟨[3], [9], by decide⟩, forall_mem_of_all (by decide)⟩,
          ⟨"1.6e+01", ⟨[4], [], by decide⟩, forall_mem_of_all (by decide)⟩) }
    let report := "\n".intercalate
      ["system diameter: 4", "######", "reachable states: 15 (2^3.9) out of 1.6e+01 (2^4)", "Memory in use: 129"]
    (default : Record).withStatistics report = p.noted default ∧
      ∀ x ∈ p.fields, ((default : Record).withStatistics report).display.lookup x.1 =
        some (.text Record.unknownText) ↔ x.2 = false :=
  @withStatistics_eq_noted _ _ ["######"] (by decide +kernel) (by decide +kernel) default

end Statistics

end StreamCheck.Verification
