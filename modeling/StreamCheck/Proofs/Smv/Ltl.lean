import StreamCheck.Proofs.Smv.Texts
import StreamCheck.Smv.Ltl
import StreamCheck.Smv.Run

/-! Reading what was written: a statement in which every operand binds more tightly than its operator, or stands
in brackets, is read back from its text as it was meant. -/

namespace StreamCheck.Smv
namespace Ltl
variable {cs cs' word : List Char} {ts ts' : List Token} {a b : Ltl} {level level' : Nat}

/-! ### Words and signs -/

/-- The word in front ends where a text goes on like this. -/
def Breaks (rest : List Char) : Prop := ∀ c ∈ rest.head?, isWordChar c = false ∧ c ≠ '>'

theorem scan?_append (h : ∀ c ∈ cs, isWordChar c = true) (word rest : List Char) :
    scan? word (cs ++ rest) = scan? (word ++ cs) rest := by
  induction cs generalizing word with
  | nil => rw [List.nil_append, List.append_nil]
  | cons c cs ih =>
    obtain ⟨hc, hcs⟩ := List.forall_mem_cons.1 h
    rw [List.cons_append, scan?, if_pos hc, ih hcs, List.append_assoc, List.singleton_append]

theorem scan?_of_breaks {rest : List Char} (h : word? word = some ts) (hrest : Breaks rest) :
    scan? word rest = (scan? [] rest).map (ts ++ ·) := by
  cases rest with
  | nil => simpa [scan?, word?] using h
  | cons c cs =>
    obtain ⟨hc, harrow⟩ := hrest c rfl
    have hends (w : List Char) : scan? w (c :: cs) = if c = ';' then if cs = [] then word? w else none else
        (word? w).bind fun read => (sign? c).bind fun sign => (scan? [] cs).bind fun rest =>
          some (read ++ sign ++ rest) := by
      rw [scan?, if_neg (by simp [hc]), if_neg harrow]
      rfl
    rw [hends, hends, h]
    split_ifs with hstop hend
    · simp [word?]
    · rfl
    · cases sign? c with
      | none => rfl
      | some sign => cases scan? [] cs <;> simp [word?]

/-- A text is scanned as words and signs, whatever comes behind it. -/
def Scans (cs : List Char) (ts : List Token) : Prop :=
  ∀ rest, Breaks rest → scan? [] (cs ++ rest) = (scan? [] rest).map (ts ++ ·)

theorem scans_word {c : Char} (hc : c.isAlpha = true) (hcs : (c :: cs).all isWordChar = true) :
    Scans (c :: cs) [.ofWord (c :: cs)] := by
  intro rest hrest
  rw [scan?_append (List.all_eq_true.1 hcs), List.nil_append]
  exact scan?_of_breaks (by rw [word?, if_pos hc]) hrest

theorem scan?_of_sign {c : Char} (hc : isWordChar c = false) (harrow : c ≠ '>') (hstop : c ≠ ';')
    (hsign : sign? c = some ts) (rest : List Char) : scan? [] (c :: rest) = (scan? [] rest).map (ts ++ ·) := by
  rw [scan?, if_neg (by simp [hc]), if_neg harrow, if_neg hstop, hsign]
  cases scan? [] rest <;> rfl

theorem scan?_blank (rest : List Char) : scan? [] (' ' :: rest) = scan? [] rest := by
  rw [scan?_of_sign (by decide) (by decide) (by decide) rfl]
  cases scan? [] rest <;> rfl

theorem Scans.bracket (h : Scans cs ts) : Scans ('(' :: (cs ++ [')'])) (.opening :: (ts ++ [.closing])) := by
  intro rest _
  have hclosing : Breaks (')' :: rest) := by
    rintro _ ⟨⟩
    decide
  rw [List.cons_append, List.append_assoc, scan?_of_sign (by decide) (by decide) (by decide) rfl,
    List.singleton_append, h _ hclosing, scan?_of_sign (by decide) (by decide) (by decide) rfl]
  cases scan? [] rest <;> simp

theorem Scans.modal (h : Scans cs ts) (m : Modality) : Scans (m.letter :: ' ' :: cs) (.modal m :: ts) := by
  intro rest hrest
  have hblank : Breaks (' ' :: (cs ++ rest)) := by
    rintro _ ⟨⟩
    decide
  have hletter : Scans [m.letter] [.modal m] := by
    cases m <;> exact scans_word (by decide) (by decide)
  rw [List.cons_append, List.cons_append, ← List.singleton_append, hletter _ hblank, scan?_blank, h _ hrest]
  cases scan? [] rest <;> rfl

theorem scan?_connective {op : BinaryOp} (hop : op ∈ connectives) (rest : List Char) :
    scan? [] (' ' :: (op.text.toList ++ ' ' :: rest)) = (scan? [] rest).map (.binary op :: ·) := by
  rw [scan?_blank]
  simp only [connectives, List.mem_cons, List.not_mem_nil, or_false] at hop
  obtain rfl | rfl | rfl | rfl := hop
  · change scan? [] ('=' :: ' ' :: rest) = _
    rw [scan?_of_sign (by decide) (by decide) (by decide) rfl, scan?_blank]
    rfl
  · change scan? [] ('&' :: ' ' :: rest) = _
    rw [scan?_of_sign (by decide) (by decide) (by decide) rfl, scan?_blank]
    rfl
  · change scan? [] ('|' :: ' ' :: rest) = _
    rw [scan?_of_sign (by decide) (by decide) (by decide) rfl, scan?_blank]
    rfl
  · change scan? [] ('-' :: '>' :: ' ' :: rest) = _
    rw [scan?, if_pos (by decide), scan?, if_neg (by decide), if_pos rfl, List.nil_append, if_pos rfl, scan?_blank]

theorem Scans.binary {op : BinaryOp} (hop : op ∈ connectives) (h : Scans cs ts) (h' : Scans cs' ts') :
    Scans (cs ++ ' ' :: (op.text.toList ++ ' ' :: cs')) (ts ++ .binary op :: ts') := by
  intro rest hrest
  have hblank (x : List Char) : Breaks (' ' :: x) := by
    rintro _ ⟨⟩
    decide
  have hsplit : (cs ++ ' ' :: (op.text.toList ++ ' ' :: cs')) ++ rest =
      cs ++ ' ' :: (op.text.toList ++ ' ' :: (cs' ++ rest)) := by simp
  rw [hsplit, h _ (hblank _), scan?_connective hop, h' _ hrest]
  cases scan? [] rest <;> simp

/-! ### Operands and operators -/

/-- What waits in front would not take an operand away from an operator of the given level. -/
def Waits (level : Nat) : List Pending → Prop
  | .modal _ :: _ => 8 ≤ level
  | .left _ op :: _ => op.rightLevel ≤ level
  | _ => True

theorem Waits.mono {ps : List Pending} (h : Waits level ps) (hlevel : level ≤ level') : Waits level' ps := by
  match ps with
  | [] => trivial
  | .bracket :: _ => trivial
  | .modal _ :: _ => exact Nat.le_trans h hlevel
  | .left _ _ :: _ => exact Nat.le_trans h hlevel

/-- Words and signs are taken as an operand: it goes to an operator behind it that binds no more tightly than the
level as the given statement would. -/
def Takes (level : Nat) (ts : List Token) (a : Ltl) : Prop := ∀ ps, Waits level ps →
  ∃ ps' a', ts.foldlM take? (ps, none) = some (ps', some a') ∧ ∀ l ≤ level, settle l ps' a' = settle l ps a

theorem takes_operand (a : Ltl) (level : Nat) : Takes level [.operand a] a :=
  fun ps _ => ⟨ps, a, rfl, fun _ _ => rfl⟩

theorem Takes.bracket (h : Takes level ts a) (level' : Nat) : Takes level' (.opening :: (ts ++ [.closing])) a := by
  intro ps _
  obtain ⟨ps', a', htaken, hsettle⟩ := h (.bracket :: ps) trivial
  refine ⟨ps, a, ?_, fun _ _ => rfl⟩
  have hopening : take? (ps, none) .opening = some (.bracket :: ps, none) := rfl
  have hclosing : take? (ps', some a') .closing = some (ps, some a) := by
    rw [take?, hsettle 0 (Nat.zero_le _)]
    rfl
  rw [List.foldlM_cons, hopening, Option.bind_eq_bind, Option.bind_some, List.foldlM_append, htaken]
  simp [hclosing]

theorem Takes.modal (h : Takes level ts a) (hlevel : 8 ≤ level) (m : Modality) :
    Takes 8 (.modal m :: ts) (.modal m a) := by
  intro ps _
  obtain ⟨ps', a', htaken, hsettle⟩ := h (.modal m :: ps) hlevel
  refine ⟨ps', a', ?_, fun l hl => hsettle l (Nat.le_trans hl hlevel)⟩
  have hletter : take? (ps, none) (.modal m) = some (.modal m :: ps, none) := rfl
  rw [List.foldlM_cons, hletter, Option.bind_eq_bind, Option.bind_some, htaken]

theorem settle_of_waits {ps : List Pending} {op : BinaryOp} (h : Waits op.level ps) (a : Ltl) :
    settle op.leftLevel ps a = (ps, a) := by
  match ps with
  | [] => rfl
  | .bracket :: _ => rfl
  | .modal _ :: _ =>
    have hlevel : op.level < 8 := by cases op <;> decide
    exact absurd h (Nat.not_le_of_lt hlevel)
  | .left b op' :: ps =>
    have hloose : ¬ op.leftLevel ≤ op'.level := by
      change op'.rightLevel ≤ op.level at h
      cases op' <;> cases op <;> revert h <;> decide
    rw [settle, if_neg hloose]

theorem Takes.binary {op : BinaryOp} (h : Takes level ts a) (hlevel : op.leftLevel ≤ level)
    (h' : Takes level' ts' b) (hlevel' : op.rightLevel ≤ level') :
    Takes op.level (ts ++ .binary op :: ts') (.binary op a b) := by
  intro ps hps
  have hleft : op.level ≤ op.leftLevel := by cases op <;> decide
  have hright : op.level ≤ op.rightLevel := by cases op <;> decide
  obtain ⟨ps₁, a', htaken, hsettle⟩ := h ps (hps.mono (Nat.le_trans hleft hlevel))
  obtain ⟨ps₂, b', htaken', hsettle'⟩ := h' (.left a op :: ps) hlevel'
  refine ⟨ps₂, b', ?_, fun l hl => ?_⟩
  · have hop : take? (ps₁, some a') (.binary op) = some (.left a op :: ps, none) := by
      rw [take?, hsettle _ hlevel, settle_of_waits hps]
    rw [List.foldlM_append, htaken, Option.bind_eq_bind, Option.bind_some, List.foldlM_cons, hop,
      Option.bind_eq_bind, Option.bind_some, htaken']
  · rw [hsettle' l (Nat.le_trans hl (Nat.le_trans hright hlevel')), settle, if_pos hl]

/-! ### Texts -/

/-- A text is that of a statement whose outermost operator binds so tightly. -/
def Written (level : Nat) (cs : List Char) (a : Ltl) : Prop := ∃ ts, Scans cs ts ∧ Takes level ts a

theorem Written.bracket (h : Written level cs a) (level' : Nat) : Written level' ('(' :: (cs ++ [')'])) a := by
  obtain ⟨ts, hscans, htakes⟩ := h
  exact ⟨_, hscans.bracket, htakes.bracket level'⟩

theorem Written.modal (h : Written level cs a) (hlevel : 8 ≤ level) (m : Modality) :
    Written 8 (m.letter :: ' ' :: cs) (.modal m a) := by
  obtain ⟨ts, hscans, htakes⟩ := h
  exact ⟨_, hscans.modal m, htakes.modal hlevel m⟩

theorem Written.binary {op : BinaryOp} (hop : op ∈ connectives) (h : Written level cs a)
    (hlevel : op.leftLevel ≤ level) (h' : Written level' cs' b) (hlevel' : op.rightLevel ≤ level') :
    Written op.level (cs ++ ' ' :: (op.text.toList ++ ' ' :: cs')) (.binary op a b) := by
  obtain ⟨ts, hscans, htakes⟩ := h
  obtain ⟨ts', hscans', htakes'⟩ := h'
  exact ⟨_, hscans.binary hop hscans', htakes.binary hlevel htakes' hlevel'⟩

theorem Takes.parse? (h : Takes level ts a) : Ltl.parse? ts = some a := by
  obtain ⟨ps, a', htaken, hsettle⟩ := h [] trivial
  have hwhole : settle 0 ps a' = ([], a) := hsettle 0 (Nat.zero_le _)
  simp only [Ltl.parse?, htaken, hwhole]

theorem exists_of_bind_binary {op : BinaryOp} {x y : Option Ltl} {φ : Ltl}
    (h : (x.bind fun α => y.map (.binary op α)) = some φ) : ∃ α β, x = some α ∧ y = some β ∧ φ = .binary op α β := by
  obtain ⟨α, hα, h⟩ := Option.bind_eq_some_iff.1 h
  obtain ⟨β, hβ, rfl⟩ := Option.map_eq_some_iff.1 h
  exact ⟨α, β, hα, hβ, rfl⟩

theorem Written.read?_eq {s : String} (h : Written level s.toList a) :
    read? s = some a ∧ read? (s ++ ";") = some a := by
  obtain ⟨ts, hscans, htakes⟩ := h
  have hscan (rest : List Char) (hrest : Breaks rest) (hnone : scan? [] rest = some []) :
      scan? [] (s.toList ++ rest) = some ts := by
    rw [hscans rest hrest, hnone, Option.map_some, List.append_nil]
  constructor
  · have hwhole := hscan [] (by rintro _ ⟨⟩) rfl
    rw [List.append_nil] at hwhole
    rw [read?, hwhole, Option.bind_some, htakes.parse?]
  · have hstop : Breaks [';'] := by
      rintro _ ⟨⟩
      decide
    rw [read?, String.toList_append]
    change (scan? [] (s.toList ++ [';'])).bind _ = _
    rw [hscan _ hstop (by decide), Option.bind_some, htakes.parse?]

example : read? "G ob_1 = ob_2 & TRUE -> X ib_-3 -> FALSE" = some (.binary .implies
    (.binary .and (.binary .eq (.modal .always (.name "ob_1")) (.name "ob_2")) (.truth true))
    (.binary .implies (.modal .next (.name "ib_-3")) (.truth false))) := by decide +kernel

end Ltl

/-! ### Expressions and temporal statements -/

open Ltl

namespace Name
variable {x : Name} {φ : Ltl}

theorem exists_stem_eq_cons (h : x.IsOrdinary) : ∃ c cs, x.stem.toList = c :: cs ∧ c.isLower = true := by
  have hhead : x.stem.toList.head?.any Char.isLower = true := by
    cases x with
    | other s => exact h.elim
    | _ => simp only [stem]; decide
  obtain ⟨c, hc, hlower⟩ := (Option.any_eq_true _ _).1 hhead
  obtain ⟨cs, hcs⟩ := List.head?_eq_some_iff.1 hc
  exact ⟨c, cs, hcs, hlower⟩

theorem ofWord_of_isLower {c : Char} {cs : List Char} (h : c.isLower = true) :
    Token.ofWord (c :: cs) = .operand (.name (String.ofList (c :: cs))) := by
  have hcapital {d : Char} {ds : List Char} (hd : d.isLower = false) : c :: cs ≠ d :: ds := by
    rintro ⟨⟩
    rw [h] at hd
    nomatch hd
  rw [Token.ofWord]
  all_goals exact hcapital (by decide)

theorem ltl?_eq_some (h : x.ltl? = some φ) : x.IsOrdinary ∧ φ = .name x.text := by
  cases x with
  | other s => nomatch h
  | _ => exact ⟨trivial, (Option.some.inj h).symm⟩

theorem written (h : x.ltl? = some φ) : Written 9 x.text.toList φ := by
  obtain ⟨hx, rfl⟩ := ltl?_eq_some h
  obtain ⟨c, cs, hstem, hlower⟩ := exists_stem_eq_cons hx
  have htext : x.text.toList = c :: (cs ++ x.suffix.toList) := by
    rw [text_eq, String.toList_append, hstem, List.cons_append]
  have hword : x.text.toList.all isWordChar = true := by
    rw [List.all_eq_true]
    intro d hd
    have hname := isNameChar_of_mem_text hx d hd
    simp only [isNameChar, isNumeral, Bool.or_eq_true] at hname
    simp only [isWordChar, Char.isAlphanum, Bool.or_eq_true]
    tauto
  have hoperand : Token.ofWord x.text.toList = .operand (.name x.text) := by
    rw [htext, ofWord_of_isLower hlower, ← htext, String.ofList_toList]
  refine ⟨[.operand (.name x.text)], ?_, takes_operand _ 9⟩
  have halpha : (c.isUpper || c.isLower) = true := by rw [hlower, Bool.or_true]
  rw [← hoperand, htext]
  exact scans_word halpha (htext ▸ hword)

end Name

theorem Expr.written {e : Expr} {φ : Ltl} (h : e.isBracketed = true) (hφ : e.ltl? = some φ) :
    Written e.level e.text.toList φ := by
  induction e generalizing φ with
  | bool b =>
    obtain rfl := Option.some.inj hφ
    cases b <;> exact ⟨_, scans_word (by decide) (by decide), takes_operand _ 9⟩
  | var r =>
    obtain ⟨_ | ⟨k, path⟩, x⟩ := r
    · rw [text, Ref.toList_text_nil]
      exact Name.written hφ
    · nomatch hφ
  | paren e ih =>
    rw [text, String.toList_append, String.toList_append]
    exact (ih h hφ).bracket 9
  | binary op a b iha ihb =>
    rw [ltl?] at hφ
    split_ifs at hφ with hop
    obtain ⟨α, β, hα, hβ, rfl⟩ := exists_of_bind_binary hφ
    simp only [isBracketed, Bool.and_eq_true, decide_eq_true_eq] at h
    obtain ⟨⟨⟨hleft, hright⟩, ha⟩, hb⟩ := h
    have htext : (binary op a b).text.toList = a.text.toList ++ ' ' :: (op.text.toList ++ ' ' :: b.text.toList) := by
      simp [text, String.toList_append]
    rw [htext]
    exact (iha ha hα).binary hop hleft (ihb hb hβ) hright
  | num _ | slot _ _ | not _ _ | choose _ _ _ _ _ _ => nomatch hφ

namespace Temporal
variable {t : Temporal} {φ : Ltl}

theorem written_binary (op : BinaryOp) (hop : op ∈ connectives) {a b : Temporal}
    (ha : ∀ {α}, a.isBracketed = true → a.ltl? = some α → Written a.level a.text.toList α)
    (hb : ∀ {β}, b.isBracketed = true → b.ltl? = some β → Written b.level b.text.toList β)
    (h : (op.leftLevel ≤ a.level && op.rightLevel ≤ b.level && a.isBracketed && b.isBracketed) = true)
    (hφ : (a.ltl?.bind fun α => b.ltl?.map (.binary op α)) = some φ) :
    Written op.level (a.text.toList ++ ' ' :: (op.text.toList ++ ' ' :: b.text.toList)) φ := by
  obtain ⟨α, β, hα, hβ, rfl⟩ := exists_of_bind_binary hφ
  simp only [Bool.and_eq_true, decide_eq_true_eq] at h
  obtain ⟨⟨⟨hleft, hright⟩, ha'⟩, hb'⟩ := h
  exact (ha ha' hα).binary hop hleft (hb hb' hβ) hright

theorem written_modal {m : Modality} (ht : ∀ {α}, t.isBracketed = true → t.ltl? = some α → Written t.level t.text.toList α)
    (h : (8 ≤ t.level && t.isBracketed) = true) (hφ : t.ltl?.map (.modal m) = some φ) :
    Written 8 (m.letter :: ' ' :: t.text.toList) φ := by
  obtain ⟨α, hα, rfl⟩ := Option.map_eq_some_iff.1 hφ
  simp only [Bool.and_eq_true, decide_eq_true_eq] at h
  exact (ht h.2 hα).modal h.1 m

theorem written (h : t.isBracketed = true) (hφ : t.ltl? = some φ) : Written t.level t.text.toList φ := by
  induction t generalizing φ with
  | now e => exact Expr.written h hφ
  | paren t ih =>
    rw [text, String.toList_append, String.toList_append]
    exact (ih h hφ).bracket 9
  | and a b iha ihb =>
    rw [text, String.toList_append, String.toList_append, List.append_assoc]
    exact written_binary .and (by decide) iha ihb h hφ
  | or a b iha ihb =>
    rw [text, String.toList_append, String.toList_append, List.append_assoc]
    exact written_binary .or (by decide) iha ihb h hφ
  | implies a b iha ihb =>
    rw [text, String.toList_append, String.toList_append, List.append_assoc]
    exact written_binary .implies (by decide) iha ihb h hφ
  | next t ih =>
    rw [text, String.toList_append]
    exact written_modal (m := .next) ih h hφ
  | eventually t ih =>
    rw [text, String.toList_append]
    exact written_modal (m := .eventually) ih h hφ
  | always t ih =>
    rw [text, String.toList_append]
    exact written_modal (m := .always) ih h hφ
  | not _ _ | possibly _ _ | invariably _ _ => nomatch hφ

end Temporal

/-! ### Meaning -/

theorem Expr.value_of_ltl? {e : Expr} {φ : Ltl} (h : e.ltl? = some φ) (σ : Record) (n : Nat) :
    φ.value σ n = e.eval (State.ofTexts (σ n)) := by
  induction e generalizing φ with
  | bool b =>
    obtain rfl := Option.some.inj h
    rfl
  | var r =>
    obtain ⟨_ | ⟨k, path⟩, x⟩ := r
    · obtain ⟨-, rfl⟩ := Name.ltl?_eq_some h
      have htext : (Ref.mk [] x).text = x.text := String.toList_injective (Ref.toList_text_nil x)
      rw [eval, State.ofTexts, htext, Ltl.value]
    · nomatch h
  | paren e ih => exact ih h
  | binary op a b iha ihb =>
    rw [ltl?] at h
    split_ifs at h
    obtain ⟨α, β, hα, hβ, rfl⟩ := exists_of_bind_binary h
    rw [Ltl.value, eval, iha hα, ihb hβ]
  | num _ | slot _ _ | not _ _ | choose _ _ _ _ _ _ => nomatch h

theorem Ltl.isTrue_value_modal {m : Modality} {a : Ltl} {σ : Record} {p : Nat → Prop}
    (h : ∀ u, (a.value σ u).isTrue = true ↔ p u) (n : Nat) : ((modal m a).value σ n).isTrue = true ↔ m.Over p n := by
  have hmoments : (fun u => (a.value σ u).isTrue = true) = p := funext fun u => propext (h u)
  rw [value, hmoments]
  classical exact decide_eq_true_iff

theorem Temporal.isTrue_value_of_ltl? {t : Temporal} {φ : Ltl} (h : t.ltl? = some φ) {runs : Trace → Prop}
    (σ : Record) (n : Nat) :
    (φ.value σ n).isTrue = true ↔ t.Holds runs (fun u => State.ofTexts (σ u)) n := by
  induction t generalizing φ n with
  | now e => rw [Expr.value_of_ltl? h, Holds]
  | paren t ih => exact ih h n
  | and a b iha ihb =>
    obtain ⟨α, β, hα, hβ, rfl⟩ := exists_of_bind_binary h
    rw [Holds, ← iha hα, ← ihb hβ]
    exact Bool.and_eq_true_iff
  | or a b iha ihb =>
    obtain ⟨α, β, hα, hβ, rfl⟩ := exists_of_bind_binary h
    rw [Holds, ← iha hα, ← ihb hβ]
    exact Bool.or_eq_true_iff
  | implies a b iha ihb =>
    obtain ⟨α, β, hα, hβ, rfl⟩ := exists_of_bind_binary h
    rw [Holds, ← iha hα, ← ihb hβ]
    change (!(α.value σ n).isTrue || (β.value σ n).isTrue) = true ↔ _
    cases (α.value σ n).isTrue <;> simp
  | next t ih =>
    obtain ⟨α, hα, rfl⟩ := Option.map_eq_some_iff.1 h
    exact Ltl.isTrue_value_modal (fun u => ih hα u) n
  | eventually t ih =>
    obtain ⟨α, hα, rfl⟩ := Option.map_eq_some_iff.1 h
    exact Ltl.isTrue_value_modal (fun u => ih hα u) n
  | always t ih =>
    obtain ⟨α, hα, rfl⟩ := Option.map_eq_some_iff.1 h
    exact Ltl.isTrue_value_modal (fun u => ih hα u) n
  | not _ _ | possibly _ _ | invariably _ _ => nomatch h

end StreamCheck.Smv
