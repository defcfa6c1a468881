import StreamCheck.Proofs.Basic
import StreamCheck.Smv.Module

/-! Texts of names: what is written tells what was meant. A name is letters and then a number, so its text can be
taken apart again, and so can the chains of instances in front of it and the brackets around it. -/

namespace StreamCheck.Smv

/-! ### Numbers -/

def isNumeral (c : Char) : Bool := c.isDigit || c == '-'

theorem isDigit_of_mem_toDigits {n : Nat} {c : Char} (h : c ∈ Nat.toDigits 10 n) : c.isDigit = true :=
  Nat.isDigit_of_mem_toDigits (by decide) (by decide) h

theorem toDigits_injective {m n : Nat} (h : Nat.toDigits 10 m = Nat.toDigits 10 n) : m = n := by
  rw [← Nat.ofDigitChars_ten_toDigits (n := m), h, Nat.ofDigitChars_ten_toDigits]

theorem toList_toString_natCast (n : Nat) : (toString n).toList = Nat.toDigits 10 n := Nat.toList_repr

theorem toList_toString (n : Int) : (toString n).toList =
    if n < 0 then '-' :: Nat.toDigits 10 n.natAbs else Nat.toDigits 10 n.natAbs := by
  cases n with
  | ofNat m =>
    rw [if_neg (by simp)]
    exact Nat.toList_repr
  | negSucc m =>
    rw [if_pos (Int.negSucc_lt_zero m)]
    have htext : toString (Int.negSucc m) = "-" ++ (m + 1).repr := rfl
    rw [htext, String.toList_append, Nat.toList_repr]
    rfl

theorem isNumeral_of_mem_toString {n : Int} : ∀ c ∈ (toString n).toList, isNumeral c = true := by
  intro c hc
  rw [toList_toString] at hc
  have hdigits : c ∈ Nat.toDigits 10 n.natAbs → isNumeral c = true := fun h => by
    rw [isNumeral, isDigit_of_mem_toDigits h, Bool.true_or]
  split at hc
  · obtain rfl | hc := List.mem_cons.1 hc
    · rfl
    · exact hdigits hc
  · exact hdigits hc

theorem toString_injective : Function.Injective (toString : Int → String) := by
  intro m n h
  have hchars := congrArg String.toList h
  rw [toList_toString, toList_toString] at hchars
  have hsign {k : Nat} {ds : List Char} (heq : '-' :: ds = Nat.toDigits 10 k) : False := by
    have := isDigit_of_mem_toDigits (heq ▸ List.mem_cons_self)
    exact absurd this (by decide)
  split at hchars <;> split at hchars
  · have := toDigits_injective (List.cons.inj hchars).2
    omega
  · exact (hsign hchars).elim
  · exact (hsign hchars.symm).elim
  · have := toDigits_injective hchars
    omega

/-! ### Names -/

namespace Name

def stem : Name → String
  | inValue _ => "inc_"
  | inFire _ => "inb_"
  | outValue _ => "outc_"
  | outFire _ => "outb_"
  | queueValues _ => "qc"
  | queueFlags _ => "qb"
  | available _ => "avail_"
  | front _ => "front_"
  | ready => "ready"
  | counter => "cnt"
  | accumulator => "acc"
  | started => "started"
  | window => "win"
  | pipeInValue _ => "ic_"
  | pipeInFire _ => "ib_"
  | pipeOutValue _ => "oc_"
  | pipeOutFire _ => "ob_"
  | part _ => "pr_"
  | other t => t

def number? : Name → Option Int
  | inValue j | inFire j | outValue j | outFire j | queueValues j | queueFlags j | available j | front j | part j =>
    some j
  | pipeInValue n | pipeInFire n | pipeOutValue n | pipeOutFire n => some n
  | _ => none

def ofStem (letters : String) (n : Int) : Name :=
  match letters with
  | "inc_" => inValue n.toNat
  | "inb_" => inFire n.toNat
  | "outc_" => outValue n.toNat
  | "outb_" => outFire n.toNat
  | "qc" => queueValues n.toNat
  | "qb" => queueFlags n.toNat
  | "avail_" => available n.toNat
  | "front_" => front n.toNat
  | "ready" => ready
  | "cnt" => counter
  | "acc" => accumulator
  | "started" => started
  | "win" => window
  | "ic_" => pipeInValue n
  | "ib_" => pipeInFire n
  | "oc_" => pipeOutValue n
  | "ob_" => pipeOutFire n
  | "pr_" => part n.toNat
  | t => other t

def IsOrdinary : Name → Prop
  | other _ => False
  | _ => True

def suffix (x : Name) : String := x.number?.elim "" toString

variable {x y : Name}

theorem text_eq (x : Name) : x.text = x.stem ++ x.suffix := by
  cases x <;> first | rfl | exact String.append_empty.symm

theorem ofStem_stem (h : x.IsOrdinary) : ofStem x.stem (x.number?.getD 0) = x := by
  cases x with
  | other t => exact h.elim
  | _ => rfl

theorem not_isNumeral_of_mem_stem (h : x.IsOrdinary) : ∀ c ∈ x.stem.toList, (!isNumeral c) = true := by
  rw [← List.all_eq_true]
  cases x with
  | other t => exact h.elim
  | _ => simp only [stem]; decide

theorem isNumeral_of_mem_suffix : ∀ c ∈ x.suffix.toList, isNumeral c = true := by
  rw [suffix]
  cases x.number? with
  | none => exact fun _ hc => nomatch hc
  | some n => exact isNumeral_of_mem_toString

theorem not_of_mem_head?_suffix : ∀ c ∈ x.suffix.toList.head?, (!isNumeral c) = false := by
  intro c hc
  rw [isNumeral_of_mem_suffix c (List.mem_of_mem_head? hc)]
  rfl

theorem number?_eq_of_suffix_eq (h : x.suffix = y.suffix) : x.number?.getD 0 = y.number?.getD 0 := by
  have hne (n : Int) : toString n ≠ "" := by
    intro hnil
    have hchars := congrArg String.toList hnil
    rw [toList_toString] at hchars
    split at hchars
    · nomatch hchars
    · exact Nat.toDigits_ne_nil hchars
  rw [suffix, suffix] at h
  cases hx : x.number? <;> cases hy : y.number? <;> rw [hx, hy] at h
  · exact absurd h.symm (hne _)
  · exact absurd h (hne _)
  · exact toString_injective h

theorem text_injective (hx : x.IsOrdinary) (hy : y.IsOrdinary) (h : x.text = y.text) : x = y := by
  rw [text_eq, text_eq] at h
  have hchars := congrArg String.toList h
  rw [String.toList_append, String.toList_append] at hchars
  obtain ⟨hstem, hsuffix⟩ := append_inj_of_break (not_isNumeral_of_mem_stem hx) (not_isNumeral_of_mem_stem hy)
    not_of_mem_head?_suffix not_of_mem_head?_suffix hchars
  rw [← ofStem_stem hx, ← ofStem_stem hy, String.toList_injective hstem,
    number?_eq_of_suffix_eq (String.toList_injective hsuffix)]

def isNameChar (c : Char) : Bool := c.isAlpha || c == '_' || isNumeral c

theorem isNameChar_of_mem_stem (h : x.IsOrdinary) : ∀ c ∈ x.stem.toList, isNameChar c = true := by
  rw [← List.all_eq_true]
  cases x with
  | other t => exact h.elim
  | _ => simp only [stem]; decide

theorem isNameChar_of_mem_text (h : x.IsOrdinary) : ∀ c ∈ x.text.toList, isNameChar c = true := by
  intro c hc
  rw [text_eq, String.toList_append] at hc
  obtain hc | hc := List.mem_append.1 hc
  · exact isNameChar_of_mem_stem h c hc
  · rw [isNameChar, isNumeral_of_mem_suffix c hc, Bool.or_true]

end Name

/-! ### Chains of instances -/

namespace Ref

theorem toList_text_cons (k : Nat) (path : List Nat) (x : Name) :
    (Ref.mk (k :: path) x).text.toList = (Name.part k).text.toList ++ '.' :: (Ref.mk path x).text.toList := by
  have htext : (Ref.mk (k :: path) x).text = (Name.part k).text ++ "." ++ (Ref.mk path x).text := by
    rw [text, text, List.map_cons, String.join_cons, String.append_assoc]
  rw [htext, String.toList_append, String.toList_append, List.append_assoc]
  rfl

theorem toList_text_nil (x : Name) : (Ref.mk [] x).text.toList = x.text.toList := by
  simp [text]

theorem text_injective {r r' : Ref} (h : r.name.IsOrdinary) (h' : r'.name.IsOrdinary) (heq : r.text = r'.text) :
    r = r' := by
  obtain ⟨path, x⟩ := r
  obtain ⟨path', x'⟩ := r'
  have hx : x.IsOrdinary := h
  have hx' : x'.IsOrdinary := h'
  have hchars := congrArg String.toList heq
  clear heq h h'
  have hpoint {y : Name} {k : Nat} {path : List Nat} {x : Name} (hy : y.IsOrdinary)
      (heq : y.text.toList = (Ref.mk (k :: path) x).text.toList) : False := by
    have hmem : '.' ∈ y.text.toList := by
      rw [heq, toList_text_cons]
      exact List.mem_append_right _ List.mem_cons_self
    exact absurd (Name.isNameChar_of_mem_text hy _ hmem) (by decide)
  induction path generalizing path' with
  | nil =>
    rw [toList_text_nil] at hchars
    cases path' with
    | nil =>
      rw [toList_text_nil] at hchars
      rw [Name.text_injective hx hx' (String.toList_injective hchars)]
    | cons k' path' => exact (hpoint hx hchars).elim
  | cons k path ih =>
    cases path' with
    | nil =>
      rw [toList_text_nil] at hchars
      exact (hpoint hx' hchars.symm).elim
    | cons k' path' =>
      rw [toList_text_cons, toList_text_cons] at hchars
      obtain ⟨hpart, hrest⟩ := append_inj_of_break (Name.isNameChar_of_mem_text (x := .part k) trivial)
        (Name.isNameChar_of_mem_text (x := .part k') trivial) (by simp; decide) (by simp; decide) hchars
      have hk : Name.part k = .part k' := Name.text_injective trivial trivial (String.toList_injective hpart)
      obtain ⟨rfl, rfl⟩ := Ref.mk.inj (ih path' (List.cons.inj hrest).2)
      rw [Name.part.inj hk]

end Ref

/-! ### Targets of assignments -/

namespace Cell
variable {a b : Cell}

def brackets : Option Nat → List Char
  | none => []
  | some i => '[' :: ((toString i).toList ++ [']'])

theorem toList_text (c : Cell) : c.text.toList = c.name.text.toList ++ brackets c.slot := by
  obtain ⟨x, _ | i⟩ := c
  · exact (List.append_nil _).symm
  · simp [text, brackets, String.toList_append]

theorem text_injective (ha : a.name.IsOrdinary) (hb : b.name.IsOrdinary) (h : a.text = b.text) : a = b := by
  have hhead (slot : Option Nat) : ∀ c ∈ (brackets slot).head?, Name.isNameChar c = false := by
    cases slot with
    | none => exact fun _ hc => nomatch hc
    | some i => simp [brackets]; decide
  have hchars := congrArg String.toList h
  rw [toList_text, toList_text] at hchars
  obtain ⟨hname, hslot⟩ := append_inj_of_break (Name.isNameChar_of_mem_text ha) (Name.isNameChar_of_mem_text hb)
    (hhead _) (hhead _) hchars
  have hx := Name.text_injective ha hb (String.toList_injective hname)
  obtain ⟨x, _ | i⟩ := a <;> obtain ⟨y, _ | j⟩ := b
  · exact congrArg (Cell.mk · none) hx
  · nomatch hslot
  · nomatch hslot
  · have hdigits := List.append_cancel_right (List.cons.inj hslot).2
    rw [toList_toString_natCast, toList_toString_natCast] at hdigits
    rw [toDigits_injective hdigits]
    exact congrArg (Cell.mk · _) hx

theorem not_mem_text (ha : a.name.IsOrdinary) : '(' ∉ a.text.toList := by
  rw [toList_text]
  intro hmem
  obtain hmem | hmem := List.mem_append.1 hmem
  · exact absurd (Name.isNameChar_of_mem_text ha _ hmem) (by decide)
  · obtain ⟨x, _ | i⟩ := a
    · nomatch hmem
    · simp only [brackets, toList_toString_natCast, List.mem_cons, List.mem_append, List.not_mem_nil, or_false] at hmem
      rcases hmem with h | h | h
      · exact absurd h (by decide)
      · exact absurd (isDigit_of_mem_toDigits h) (by decide)
      · exact absurd h (by decide)

end Cell

namespace Assign
variable {a b : Assign}

def wordOf : Timing → List Char
  | .always => []
  | .first => ['i', 'n', 'i', 't', '(']
  | .after => ['n', 'e', 'x', 't', '(']

theorem toList_target (a : Assign) : a.target.toList =
    wordOf a.timing ++ a.cell.text.toList ++ if a.timing = .always then [] else [')'] := by
  obtain ⟨_ | _ | _, c, u⟩ := a
  · exact (List.append_nil _).symm
  · simp [target, wordOf, String.toList_append]
  · simp [target, wordOf, String.toList_append]

theorem target_injective (ha : a.cell.name.IsOrdinary) (hb : b.cell.name.IsOrdinary) (h : a.target = b.target) :
    a.timing = b.timing ∧ a.cell = b.cell := by
  have hchars := congrArg String.toList h
  rw [toList_target, toList_target] at hchars
  have hbracket {c : Cell} (hc : c.name.IsOrdinary) (word : List Char) {rest : List Char}
      (heq : c.text.toList = word ++ '(' :: rest) : False :=
    Cell.not_mem_text hc (heq ▸ List.mem_append_right _ List.mem_cons_self)
  cases htiming : a.timing <;> cases htiming' : b.timing <;>
    simp [htiming, htiming', wordOf] at hchars
  case always.always | first.first | after.after => exact ⟨rfl, Cell.text_injective ha hb (String.toList_injective hchars)⟩
  case always.first => exact (hbracket ha ['i', 'n', 'i', 't'] hchars).elim
  case always.after => exact (hbracket ha ['n', 'e', 'x', 't'] hchars).elim
  case first.always => exact (hbracket hb ['i', 'n', 'i', 't'] hchars.symm).elim
  case after.always => exact (hbracket hb ['n', 'e', 'x', 't'] hchars.symm).elim

end Assign

/-! ### Names of modules -/

namespace ModuleName

theorem text_ne_main (label : String) (id : Nat) : (node label id).text ≠ main.text := by
  intro h
  have hmem : '_' ∈ (node label id).text.toList := by simp [text, String.toList_append]
  rw [h] at hmem
  exact absurd hmem (by decide)

theorem id_eq_of_text_eq {label label' : String} {id id' : Nat} (h : (node label id).text = (node label' id').text) :
    id = id' := by
  have hreverse (label : String) (id : Nat) : (node label id).text.toList.reverse =
      (Nat.toDigits 10 id).reverse ++ '_' :: label.toList.reverse := by
    simp [text, String.toList_append]
  have hchars := congrArg (List.reverse ∘ String.toList) h
  simp only [Function.comp, hreverse] at hchars
  have hdigits (id : Nat) : ∀ c ∈ (Nat.toDigits 10 id).reverse, c.isDigit = true := fun c hc =>
    isDigit_of_mem_toDigits (List.mem_reverse.1 hc)
  obtain ⟨hid, -⟩ := append_inj_of_break (hdigits id) (hdigits id') (by simp) (by simp) hchars
  exact toDigits_injective (List.reverse_injective hid)

end ModuleName
end StreamCheck.Smv
