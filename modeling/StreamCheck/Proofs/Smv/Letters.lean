import StreamCheck.Proofs.Smv.Texts
import StreamCheck.Subject.Discovery

/-! What is read off the texts of names is what the names stand for: a number as it was written, the pipes of a
main module, and the flags declared in a model. -/

namespace StreamCheck

/-! ### Numbers read back -/

theorem toNat_of_isDigit {c : Char} (h : c.isDigit = true) : 48 ≤ c.toNat ∧ c.toNat < 58 := by
  simp only [Char.isDigit, Bool.and_eq_true, decide_eq_true_eq, UInt32.le_iff_toNat_le] at h
  have hhigh : c.val.toNat ≤ 57 := h.2
  exact ⟨h.1, Nat.lt_succ_of_le hhigh⟩

namespace Text

theorem digitValue?_of_isDigit {c : Char} (h : c.isDigit = true) : digitValue? c = some (c.toNat - 48) := by
  have hbounds := toNat_of_isDigit h
  rw [digitValue?, digitZeros, List.find?_cons_of_pos]
  · rfl
  · simpa using hbounds

theorem isBlank_of_isDigit {c : Char} (h : c.isDigit = true) : isBlank c = false := by
  have hbounds := toNat_of_isDigit h
  simp only [isBlank, Bool.or_eq_false_iff, Bool.and_eq_false_iff, decide_eq_false_iff_not, beq_eq_false_iff_ne]
  omega

theorem isBlank_of_isNumeral {c : Char} (h : Smv.isNumeral c = true) : isBlank c = false := by
  rw [Smv.isNumeral, Bool.or_eq_true] at h
  obtain hdigit | hminus := h
  · exact isBlank_of_isDigit hdigit
  · obtain rfl := eq_of_beq hminus
    decide

theorem stripBlanks_eq_self {cs : List Char} (h : ∀ c ∈ cs, isBlank c = false) : stripBlanks cs = cs := by
  have hkept {ds : List Char} (hds : ∀ c ∈ ds, isBlank c = false) : ds.dropWhile isBlank = ds := by
    cases ds with
    | nil => rfl
    | cons c ds => rw [List.dropWhile_cons_of_neg (by simp [hds c List.mem_cons_self])]
  rw [stripBlanks, hkept h, hkept fun c hc => h c (List.mem_reverse.1 hc), List.reverse_reverse]

end Text

namespace Decimal

theorem takeDigits_append {cs rest : List Char} (h : ∀ c ∈ cs, c.isDigit = true)
    (hrest : ∀ follows, takeDigits follows rest = ([], rest)) (follows : Bool) :
    takeDigits follows (cs ++ rest) = (cs.map fun c => c.toNat - 48, rest) := by
  induction cs generalizing follows with
  | nil => exact hrest follows
  | cons c cs ih =>
    obtain ⟨hc, hcs⟩ := List.forall_mem_cons.1 h
    rw [List.cons_append, takeDigits, Text.digitValue?_of_isDigit hc, ih hcs]
    rfl

theorem takeDigits_of_isDigit {cs : List Char} (h : ∀ c ∈ cs, c.isDigit = true) (follows : Bool) :
    takeDigits follows cs = (cs.map fun c => c.toNat - 48, []) := by
  have hall : takeDigits follows (cs ++ []) = (cs.map fun c => c.toNat - 48, []) :=
    takeDigits_append h (fun _ => rfl) follows
  rwa [List.append_nil] at hall

theorem ofDigits_toDigits (n : Nat) : ofDigits ((Nat.toDigits 10 n).map fun c => c.toNat - 48) = n := by
  rw [ofDigits, List.foldl_map]
  exact Nat.ofDigitChars_ten_toDigits

theorem integer?_toString (n : Int) : integer? (toString n).toList = some n := by
  have hdigits (m : Nat) : takeDigits false (Nat.toDigits 10 m) = ((Nat.toDigits 10 m).map fun c => c.toNat - 48, []) :=
    takeDigits_of_isDigit (fun _ => Smv.isDigit_of_mem_toDigits) false
  have hsome (m : Nat) : ((Nat.toDigits 10 m).map fun c => c.toNat - 48).isEmpty = false := by
    rw [List.isEmpty_map, List.isEmpty_eq_false_iff]
    exact Nat.toDigits_ne_nil
  have hsign (m : Nat) : takeSign (Nat.toDigits 10 m) = (false, Nat.toDigits 10 m) := by
    cases hcs : Nat.toDigits 10 m with
    | nil => rfl
    | cons c cs =>
      have hdigit : c.isDigit = true := Smv.isDigit_of_mem_toDigits (hcs ▸ List.mem_cons_self)
      rw [takeSign]
      · rintro _ ⟨rfl, -⟩
        exact absurd hdigit (by decide)
      · rintro _ ⟨rfl, -⟩
        exact absurd hdigit (by decide)
  have hstrip : Text.stripBlanks (toString n).toList = (toString n).toList :=
    Text.stripBlanks_eq_self fun c hc => Text.isBlank_of_isNumeral (Smv.isNumeral_of_mem_toString c hc)
  rw [integer?, hstrip, Smv.toList_toString]
  by_cases hn : n < 0
  · rw [if_pos hn]
    simp only [takeSign, hdigits, hsome, ofDigits_toDigits, List.isEmpty_nil, Bool.not_true, Bool.or_false,
      Bool.false_eq_true, if_false, if_true, Option.some.injEq]
    omega
  · rw [if_neg hn]
    simp only [hsign, hdigits, hsome, ofDigits_toDigits, List.isEmpty_nil, Bool.not_true, Bool.or_false,
      Bool.false_eq_true, if_false, Option.some.injEq]
    omega

end Decimal

/-! ### Names told by their first letters -/

theorem isPrefixOf_append {s rest letters : List Char} (hletters : ∀ c ∈ letters, Smv.isNumeral c = false)
    (hrest : ∀ c ∈ rest, Smv.isNumeral c = true) : letters.isPrefixOf (s ++ rest) = letters.isPrefixOf s := by
  induction letters generalizing s with
  | nil => rfl
  | cons c letters ih =>
    obtain ⟨hc, hletters⟩ := List.forall_mem_cons.1 hletters
    cases s with
    | nil =>
      cases rest with
      | nil => rfl
      | cons d rest =>
        have hne : (c == d) = false := by
          refine beq_false_of_ne fun heq => ?_
          rw [heq, hrest d List.mem_cons_self] at hc
          nomatch hc
        change (c == d && letters.isPrefixOf rest) = false
        rw [hne, Bool.false_and]
    | cons d s => rw [List.cons_append, List.isPrefixOf_cons_cons, List.isPrefixOf_cons_cons, ih hletters]

namespace Smv

theorem Name.startsWith_eq {letters : String} (hletters : letters.toList.any isNumeral = false) (x : Name) :
    x.startsWith letters = letters.toList.isPrefixOf x.stem.toList := by
  have hletter : ∀ c ∈ letters.toList, isNumeral c = false := by
    simpa only [Bool.not_eq_true] using List.any_eq_false.1 hletters
  rw [startsWith, text_eq, String.toList_append]
  exact isPrefixOf_append hletter isNumeral_of_mem_suffix

def Name.inputPipe? : Name → Option Int
  | pipeInValue n => some n
  | _ => none

def Name.outputPipe? : Name → Option Int
  | pipeOutValue n => some n
  | _ => none

def Name.Tells (letters : String) (pipe? : Name → Option Int) : Prop := ∀ x : Name, x.IsOrdinary →
  (x.startsWith letters = true ∧ ∃ n, pipe? x = some n ∧ x.text = letters ++ toString n) ∨
    x.startsWith letters = false ∧ pipe? x = none

theorem Name.inputLetters_tells : Name.Tells inputLetters Name.inputPipe? := by
  intro x hx
  rw [startsWith_eq (by decide)]
  cases x with
  | other t => exact hx.elim
  | pipeInValue n => exact .inl ⟨by simp only [stem]; decide, n, rfl, rfl⟩
  | _ => exact .inr ⟨by simp only [stem]; decide, rfl⟩

theorem Name.outputLetters_tells : Name.Tells outputLetters Name.outputPipe? := by
  intro x hx
  rw [startsWith_eq (by decide)]
  cases x with
  | other t => exact hx.elim
  | pipeOutValue n => exact .inl ⟨by simp only [stem]; decide, n, rfl, rfl⟩
  | _ => exact .inr ⟨by simp only [stem]; decide, rfl⟩

theorem Model.pipeNumbers?_eq {m : Model} (hm : ∀ v ∈ m.main.declarations, v.name.IsOrdinary) {letters : String}
    {pipe? : Name → Option Int} (h : Name.Tells letters pipe?) (counts : VarType → Bool) :
    m.pipeNumbers? letters counts =
      some (m.main.declarations.filterMap fun v => if counts v.type then pipe? v.name else none) := by
  refine mapM_filter_eq_some fun v hv => ?_
  obtain ⟨hstarts, n, hn, htext⟩ | ⟨hstarts, hnone⟩ := h v.name (hm v hv)
  · have hread : Decimal.integer? (v.name.text.toList.drop letters.length) = some n := by
      rw [htext, String.toList_append, ← String.length_toList, List.drop_left, Decimal.integer?_toString]
    cases counts v.type with
    | false => simp [hstarts]
    | true => simp [hstarts, hread, hn]
  · simp [hstarts, hnone]

theorem VarType.text_eq_boolean_iff {t : VarType} : t.text = "boolean" ↔ t = .scalar .boolean := by
  constructor
  · intro h
    have hchars := congrArg String.toList h
    cases t with
    | scalar s =>
      cases s with
      | boolean => rfl
      | upTo last =>
        rw [text, Scalar.text, String.toList_append] at hchars
        exact absurd (congrArg List.head? hchars) (by simp)
    | array size s =>
      rw [text, String.append_assoc, String.append_assoc, String.toList_append] at hchars
      exact absurd (congrArg List.head? hchars) (by simp)
    | part m args =>
      have hmem : '(' ∈ "boolean".toList := by
        rw [← hchars, text]
        simp
      exact absurd hmem (by decide)
  · rintro rfl
    rfl

end Smv

namespace CompiledGraph
open Smv
variable {c : CompiledGraph} (h : ∀ v ∈ c.model.main.declarations, v.name.IsOrdinary)
include h

theorem portIds_eq : c.inputPortIds? = some c.inputs ∧ c.outputPortIds? = some c.outputs ∧
    c.booleanOutputIds? = some c.booleanOutputs := by
  rw [inputPortIds?, outputPortIds?, booleanOutputIds?, Model.pipeNumbers?_eq h Name.inputLetters_tells,
    Model.pipeNumbers?_eq h Name.outputLetters_tells, Model.pipeNumbers?_eq h Name.outputLetters_tells]
  refine ⟨congrArg (some ∘ List.eraseDups) (List.filterMap_congr fun v _ => ?_),
    congrArg (some ∘ List.eraseDups) (List.filterMap_congr fun v _ => ?_),
    congrArg (some ∘ List.eraseDups) (List.filterMap_congr fun v _ => ?_)⟩
  · cases v.name <;> rfl
  · cases v.name <;> rfl
  · have htype : (v.type.text == "boolean") = decide (v.type = .scalar .boolean) := by
      rw [Bool.eq_iff_iff, beq_iff_eq, decide_eq_true_eq]
      exact VarType.text_eq_boolean_iff
    rw [htype]
    cases v.name <;> simp [Name.outputPipe?]

end CompiledGraph

/-! ### Flags -/

namespace Smv

def Name.isFlags : Name → Bool
  | queueFlags _ => true
  | _ => false

theorem Name.startsWith_flagLetters {x : Name} (hx : x.IsOrdinary) : x.startsWith flagLetters = x.isFlags := by
  rw [startsWith_eq (by decide)]
  cases x with
  | other t => exact hx.elim
  | _ => simp only [stem, isFlags]; decide

theorem Ref.text_own (x : Name) : (Ref.own x).text = x.text := String.toList_injective (toList_text_nil x)

theorem Ref.text_under (id : Nat) (r : Ref) : (r.under id).text = (Name.part id).text ++ "." ++ r.text := by
  refine String.toList_injective ?_
  rw [under, toList_text_cons, String.toList_append, String.toList_append, List.append_assoc]
  rfl

theorem Ref.under_injective (id : Nat) : Function.Injective (Ref.under id) := by
  rintro ⟨path, x⟩ ⟨path', x'⟩ h
  obtain ⟨hpath, hname⟩ := Ref.mk.inj h
  exact congrArg₂ Ref.mk (List.cons.inj hpath).2 hname

def flagEntriesAmong (path : String) (ds : List (Ref × VarType)) : List (String × Int) :=
  (ds.filter (·.1.name.isFlags)).map fun x => (path ++ x.1.text, x.2.size)

theorem flagEntriesAmong_append (path : String) (ds ds' : List (Ref × VarType)) :
    flagEntriesAmong path (ds ++ ds') = flagEntriesAmong path ds ++ flagEntriesAmong path ds' := by
  rw [flagEntriesAmong, List.filter_append, List.map_append]
  rfl

theorem flagEntriesAmong_under (path : String) (id : Nat) (ds : List (Ref × VarType)) :
    flagEntriesAmong path (ds.map fun (r, t) => (r.under id, t)) =
      flagEntriesAmong (path ++ (Name.part id).text ++ ".") ds := by
  rw [flagEntriesAmong, flagEntriesAmong, List.filter_map, List.map_map]
  refine List.map_congr_left fun x _ => ?_
  rw [Function.comp_apply, Ref.text_under, ← String.append_assoc, ← String.append_assoc]

theorem Module.flagEntries_eq {m : Module} (hm : ∀ v ∈ m.declarations, v.name.IsOrdinary) (path : String) :
    m.flagEntries path = flagEntriesAmong path (m.declarations.map fun v => (.own v.name, v.type)) := by
  rw [flagEntries, flagEntriesAmong, List.filter_map, List.map_map]
  have hflags : m.declarations.filter (fun v => v.name.startsWith flagLetters) =
      m.declarations.filter ((fun x : Ref × VarType => x.1.name.isFlags) ∘ fun v => (.own v.name, v.type)) :=
    List.filter_congr fun v hv => Name.startsWith_flagLetters (hm v hv)
  rw [hflags]
  refine List.map_congr_left fun v _ => ?_
  rw [Function.comp_apply, Ref.text_own]

namespace Instance

mutual

theorem flagEntries_eq (path : String) : ∀ i : Instance, (∀ x ∈ i.declarations, x.1.name.IsOrdinary) →
    i.flagEntries path = flagEntriesAmong path i.declarations
  | mk id args m parts, h => by
    rw [declarations, List.forall_mem_append, List.forall_mem_map, List.forall_mem_map] at h
    have hown : m.declarations.map (fun v => ((⟨[id], v.name⟩ : Ref), v.type)) =
        (m.declarations.map fun v => (Ref.own v.name, v.type)).map fun (r, t) => (r.under id, t) := by
      rw [List.map_map]
      rfl
    rw [flagEntries, declarations, hown, flagEntriesAmong_append, flagEntriesAmong_under, flagEntriesAmong_under,
      Module.flagEntries_eq h.1, flagEntriesOfAll_eq _ parts h.2]

theorem flagEntriesOfAll_eq (path : String) : ∀ is : List Instance, (∀ x ∈ declarationsOfAll is, x.1.name.IsOrdinary) →
    flagEntriesOfAll path is = flagEntriesAmong path (declarationsOfAll is)
  | [], _ => rfl
  | i :: is, h => by
    rw [declarationsOfAll, List.forall_mem_append] at h
    rw [flagEntriesOfAll, declarationsOfAll, flagEntriesAmong_append, flagEntries_eq path i h.1,
      flagEntriesOfAll_eq path is h.2]

end

end Instance

theorem Model.flagEntries_eq {m : Model} (h : ∀ x ∈ m.declarations, x.1.name.IsOrdinary) :
    m.flagEntries = flagEntriesAmong "" m.declarations := by
  rw [declarations, List.forall_mem_append, List.forall_mem_map] at h
  rw [flagEntries, declarations, flagEntriesAmong_append, Module.flagEntries_eq h.1,
    Instance.flagEntriesOfAll_eq "" m.parts h.2]

end Smv

namespace CompiledGraph
open Smv
variable {c : CompiledGraph}

theorem queueFlags_eq (c : CompiledGraph) : c.queueFlags =
    ((c.model.declarations.filter (·.1.name.isFlags)).map fun x => ⟨x.1, x.2.size⟩ : List QueueFlags).eraseDups := by
  rw [← List.filterMap_eq_filter, List.map_filterMap]
  refine congrArg List.eraseDups (List.filterMap_congr ?_)
  rintro ⟨⟨path, x⟩, t⟩ -
  cases x <;> rfl

theorem queueFlags_eq_of_nodup (hnodup : (c.model.declarations.map Prod.fst).Nodup) : c.queueFlags =
    (c.model.declarations.filter (·.1.name.isFlags)).map fun x => ⟨x.1, x.2.size⟩ := by
  rw [queueFlags_eq]
  refine eraseDups_of_nodup (List.Nodup.of_map QueueFlags.name ?_)
  rw [List.map_map]
  exact hnodup.sublist (List.filter_sublist.map Prod.fst)

theorem queueVariables_eq (h : ∀ x ∈ c.model.declarations, x.1.name.IsOrdinary)
    (hnodup : (c.model.declarations.map Prod.fst).Nodup) :
    c.queueVariables = c.model.flagEntries ∧ c.queueVariables = c.queueFlags.map (fun f => (f.name.text, f.size)) ∧
      (c.queueVariables.map Prod.fst).Nodup := by
  have hrefs : ((c.model.declarations.filter (·.1.name.isFlags)).map Prod.fst).Nodup :=
    hnodup.sublist (List.filter_sublist.map Prod.fst)
  have hfound := queueFlags_eq_of_nodup hnodup
  have hentries : c.model.flagEntries = c.queueFlags.map fun f => (f.name.text, f.size) := by
    rw [Model.flagEntries_eq h, hfound, flagEntriesAmong, List.map_map]
    exact List.map_congr_left fun x _ => by rw [String.empty_append]; rfl
  have hnames : (c.model.flagEntries.map Prod.fst).Nodup := by
    rw [hentries, hfound, List.map_map, List.map_map]
    refine List.Nodup.map_on ?_ (List.Nodup.of_map _ hrefs)
    intro x hx y hy htext
    have hrefsEq : x.1 = y.1 := Ref.text_injective (h x (List.mem_of_mem_filter hx)) (h y (List.mem_of_mem_filter hy)) htext
    exact List.inj_on_of_nodup_map hrefs hx hy hrefsEq
  have hlost : c.queueVariables = c.model.flagEntries := eraseDups_of_nodup (List.Nodup.of_map _ hnames)
  exact ⟨hlost, hlost.trans hentries, hlost ▸ hnames⟩

end CompiledGraph

end StreamCheck
