import StreamCheck.Proofs.Markup.Keys
import StreamCheck.Proofs.Settings.Filling

/-! Which value each setting takes where a document and variables give some: the variable of a place fills in what the
document leaves out, and only two of them replace what it says. -/

namespace StreamCheck.Settings
open Input Markup

variable {env : Environment} {fields fields' : List (String × Datum)} {temporary : String} {taken : List String}
  {name : String} {s : Settings} {foreign : Bool} {p : Place} {S : Sources}

theorem Sources.resolve_eq_ok_iff : S.resolve temporary taken env ⟨.mapping fields, foreign⟩ = .ok s ↔
    ∃ d, replaceAll env (.mapping fields) = .ok d ∧ ∃ fields', d = .mapping fields' ∧
      ¬(foreign || fields'.any fun f => taken.contains f.1) ∧
        ∃ m, S.fill env d = .ok m ∧ Settings.read temporary m = .ok s := by
  have hstart : (if Document.isNothing ⟨.mapping fields, foreign⟩ then .mapping [] else Datum.mapping fields) =
      .mapping fields := by
    cases fields with
    | nil => exact ite_self _
    | cons f rest => rfl
  rw [resolve, hstart, bind_eq_ok_iff]
  refine exists_congr fun d => and_congr_right fun _ => ?_
  cases d with
  | mapping fields' =>
    by_cases hwrong : (foreign || fields'.any fun f => taken.contains f.1) = true
    · simp only [hwrong, if_true]
      constructor
      · intro h
        cases h
      · rintro ⟨_, hd, hright, -⟩
        cases hd
        exact absurd hwrong hright
    · simp only [hwrong, Bool.false_eq_true, if_false, bind_eq_ok_iff]
      constructor
      · rintro ⟨m, hm, h⟩
        refine ⟨fields', rfl, hwrong, m, hm, ?_⟩
        cases hr : Settings.read temporary m with
        | ok s' =>
          rw [hr] at h
          cases h
          rfl
        | error issues =>
          rw [hr] at h
          cases h
      · rintro ⟨_, hd, -, m, hm, h⟩
        cases hd
        exact ⟨m, hm, by rw [h]; rfl⟩
  | _ =>
    constructor
    · intro h
      cases h
    · rintro ⟨_, hd, -⟩
      cases hd

/-- The value that counts at a place, where the timeout's variable is a number. -/
def counting (env : Environment) (fields : List (String × Datum)) (p : Place) : Option Datum :=
  ((entries env p).or (p.said (.mapping fields))).or ((env.lookup p.variableName).map .text)

theorem nonempty?_of_lookup {t : String} (h : env.lookup name = some t) :
    nonempty? env name = if t = "" then none else some t := by
  rw [nonempty?, h]
  by_cases ht : t = ""
  · rw [if_pos ht, ht]
    rfl
  · rw [if_neg ht]
    split
    · next heq => exact absurd (Option.some.inj heq) ht
    · rfl

theorem lookup_of_nonempty? {t : String} (h : nonempty? env name = some t) : env.lookup name = some t ∧ t ≠ "" := by
  cases ht : env.lookup name with
  | none =>
    rw [nonempty?_eq_none ht] at h
    cases h
  | some t' =>
    rw [nonempty?_of_lookup ht] at h
    split_ifs at h with hempty
    cases h
    exact ⟨rfl, hempty⟩

theorem entries_of_not_replacing (h : p ∉ Place.replacing) : entries env p = none := by
  simp only [Place.replacing, List.mem_cons, List.not_mem_nil, or_false, not_or] at h
  rw [entries, entry, entry, if_neg h.2, if_neg h.1, Option.none_or]

theorem entries_level : entries env .level = (nonempty? env Place.level.variableName).map .text := by
  rw [entries, entry, entry, if_pos rfl, if_neg (by decide), Option.or_none]

theorem entries_timeout : entries env .timeout = (nonempty? env Place.timeout.variableName).map numberOf := by
  rw [entries, entry, entry, if_neg (by decide), if_pos rfl, Option.none_or]

theorem entries_of_empty (h : nonempty? env p.variableName = none) : entries env p = none := by
  by_cases hp : p ∈ Place.replacing
  · simp only [Place.replacing, List.mem_cons, List.not_mem_nil, or_false] at hp
    obtain rfl | rfl := hp
    · rw [entries_timeout, h, Option.map_none]
    · rw [entries_level, h, Option.map_none]
  · exact entries_of_not_replacing hp

theorem entered_of_ne_timeout (h : p ≠ .timeout) (t : String) :
    p.entered temporary t = p.meaning temporary (some (.text t)) := if_neg h

theorem entered_timeout {t : String} (h : (Decimal.real? t).isSome) :
    Place.timeout.entered temporary t = Place.timeout.meaning temporary (some (numberOf t)) := by
  obtain ⟨x, hx⟩ := Option.isSome_iff_exists.1 h
  have hreal : (Check.optional Check.real).orElse none (some (numberOf t)) = .ok (some x) := by
    rw [numberOf, hx]
    rfl
  rw [Place.entered, if_pos rfl, hx, Place.meaning, if_neg (by decide), if_neg (by decide), if_pos rfl, hreal]
  rfl

theorem timeout_empty (temporary : String) (x : Setting) : Place.timeout.entered temporary "" ≠ .ok x ∧
    Place.timeout.meaning temporary (some (.text "")) ≠ .ok x := by
  have hnone : Decimal.real? "" = none := Option.isNone_iff_eq_none.1 (by decide +kernel)
  have hentered : Place.timeout.entered temporary "" = .error .noRealText := by
    rw [Place.entered, if_pos rfl, hnone]
    rfl
  have hunread : Decimal.enteredReal? "" = none := Option.isNone_iff_eq_none.1 (by decide +kernel)
  have hreal : Check.real (.text "") = .error .noRealText := by
    have hentered : Check.real (.text "") = (Decimal.enteredReal? "").elim (.error .noRealText) .ok := rfl
    rw [hentered, hunread]
    rfl
  have hmeaning : Place.timeout.meaning temporary (some (.text "")) = .error .noRealText := by
    rw [Place.meaning, if_neg (by decide), if_neg (by decide), if_pos rfl, Check.orElse, Check.optional, hreal]
    · rfl
    · intro hnull
      cases hnull
  simp [hentered, hmeaning]

section Settled
variable {d : Datum} {t : String} {v : Datum}

theorem settled_of_unset (h : env.lookup p.variableName = none) :
    p.settled temporary env d = p.meaning temporary (p.said d) := by
  rw [Place.settled, h]

theorem settled_of_silent (h : env.lookup p.variableName = some t) (hd : p.said d = none) :
    p.settled temporary env d = p.entered temporary t := by
  rw [Place.settled, h, hd]

theorem settled_of_said (h : env.lookup p.variableName = some t) (hd : p.said d = some v) :
    p.settled temporary env d =
      if t ≠ "" ∧ p ∈ Place.replacing then p.entered temporary t else p.meaning temporary (some v) := by
  rw [Place.settled, h, hd]

end Settled

theorem counting_of_empty {t : String} (h : env.lookup p.variableName = some t)
    (hempty : ¬(t ≠ "" ∧ p ∈ Place.replacing)) :
    counting env fields p = (p.said (.mapping fields)).or (some (.text t)) := by
  have hentries : entries env p = none := by
    by_cases hp : p ∈ Place.replacing
    · have ht : t = "" := by_contra fun hne => hempty ⟨hne, hp⟩
      have hnone := nonempty?_of_lookup h
      rw [if_pos ht] at hnone
      exact entries_of_empty hnone
    · exact entries_of_not_replacing hp
  rw [counting, hentries, h, Option.none_or, Option.map_some]

theorem meaning_counting
    (hnumber : ∀ t, nonempty? env Place.timeout.variableName = some t → (Decimal.real? t).isSome) (x : Setting) :
    p.meaning temporary (counting env fields p) = .ok x ↔ p.settled temporary env (.mapping fields) = .ok x := by
  cases ht : env.lookup p.variableName with
  | none =>
    rw [settled_of_unset ht, counting, ht, entries_of_empty (nonempty?_eq_none ht), Option.none_or, Option.map_none,
      Option.or_none]
  | some t =>
    by_cases hreplaces : t ≠ "" ∧ p ∈ Place.replacing
    · -- The variable replaces whatever the document says.
      have hset : nonempty? env p.variableName = some t := by
        rw [nonempty?_of_lookup ht, if_neg hreplaces.1]
      have hsettled : p.settled temporary env (.mapping fields) = p.entered temporary t := by
        cases hd : p.said (.mapping fields) with
        | none => exact settled_of_silent ht hd
        | some v => rw [settled_of_said ht hd, if_pos hreplaces]
      rw [hsettled, counting]
      have hp := hreplaces.2
      simp only [Place.replacing, List.mem_cons, List.not_mem_nil, or_false] at hp
      obtain rfl | rfl := hp
      · rw [entries_timeout, hset, Option.map_some, Option.some_or, Option.some_or, entered_timeout (hnumber t hset)]
      · rw [entries_level, hset, Option.map_some, Option.some_or, Option.some_or,
          entered_of_ne_timeout (by decide)]
    · rw [counting_of_empty ht hreplaces]
      cases hd : p.said (.mapping fields) with
      | some v => rw [settled_of_said ht hd, if_neg hreplaces, Option.some_or]
      | none =>
        rw [settled_of_silent ht hd, Option.none_or]
        by_cases hp : p = .timeout
        · subst hp
          have hempty : t = "" := by_contra fun hne => hreplaces ⟨hne, List.mem_cons_self⟩
          obtain ⟨hentered, hmeaning⟩ := timeout_empty temporary x
          rw [hempty]
          exact ⟨fun h => absurd h hmeaning, fun h => absurd h hentered⟩
        · rw [entered_of_ne_timeout hp]

theorem orderly_nil : Orderly [] where
  settable := rfl
  once := List.nodup_nil
  places := fun v hv => by cases hv

/-! ### What is relied on -/

namespace Sources

def Takes (S : Sources) (fields : List (String × Datum)) : Prop :=
  Plain fields ∧ ∃ m, S.fill [] (.mapping fields) = .ok m

/-- What settings rely on. -/
structure Layered (S : Sources) : Prop where
  /-- A document that is read has each key of a section once. -/
  distinct : ∀ {text d fields name inner}, S.read text = .ok d → d.value = .mapping fields →
    fields.lookup name = some (.mapping inner) → Datum.Distinct (.mapping inner)
  /-- Without variables, no section becomes a mapping that is none in the document. -/
  sectioned : ∀ {fields m}, Plain fields → S.fill [] (.mapping fields) = .ok m → m.Sectioned Place.sections →
    (Datum.mapping fields).Sectioned Place.sections
  /-- Whether a document is taken in depends on what it says outside of its sections. -/
  outside : ∀ {fields fields'}, S.Takes fields → Plain fields' →
    (∀ name ∉ Place.sections, fields'.lookup name = fields.lookup name) → S.Takes fields'
  /-- What a document says counts before what variables say, and both are taken together key by key. -/
  merged : ∀ {env fields}, Orderly env → S.Takes fields → Ready fields → ∃ m, S.fill env (.mapping fields) = .ok m ∧
    m.Sectioned Place.sections ∧
    ∀ p ∈ Place.all, p.said m = (p.said (.mapping fields)).or ((env.lookup p.variableName).map .text)

end Sources

theorem sources_read : sources.read = Document.read := by rw [sources]

theorem layered_sources : sources.Layered where
  distinct hread hvalue hname := by
    rw [sources_read] at hread
    exact Document.distinct_of_read hread hvalue hname
  sectioned {fields m} hplain hm hsections := by
    obtain ⟨m', hm', hlookup⟩ := fill_eq orderly_nil hplain (fillable_of_fill hm)
    obtain rfl : m = m' := Except.ok.inj (hm.symm.trans hm')
    exact sectioned_of_together hlookup hsections
  outside {fields fields'} htakes hplain' hsame := by
    obtain ⟨hplain, m, hm⟩ := htakes
    obtain ⟨m', hm', -⟩ := fill_eq orderly_nil hplain' ((fillable_of_fill hm).congr hsame)
    exact ⟨hplain', m', hm'⟩
  merged {env fields} he htakes hready := by
    obtain ⟨hplain, m, hm⟩ := htakes
    obtain ⟨m', hm', hlookup⟩ := fill_eq he hplain (fillable_of_fill hm)
    exact ⟨m', hm', said_together he hready hlookup⟩

theorem Sources.Layered.ready_of_resolve (hS : S.Layered) (hplain : Plain fields)
    (hdistinct : ∀ name inner, fields.lookup name = some (.mapping inner) → Datum.Distinct (.mapping inner))
    (h : S.resolve temporary taken [] ⟨.mapping fields, foreign⟩ = .ok s) :
    Ready fields ∧ S.Takes fields ∧ foreign = false ∧ ∀ f ∈ fields, f.1 ∉ taken := by
  obtain ⟨d, hd, fields', rfl, hright, m, hm, hread⟩ := resolve_eq_ok_iff.1 h
  have hsame : replaceAll [] (.mapping fields) = .ok (.mapping fields) := rfl
  obtain rfl : fields = fields' := by
    rw [hsame] at hd
    cases hd
    rfl
  have hsections := hS.sectioned hplain hm (read_eq_ok_iff.1 hread).1
  simp only [Bool.or_eq_true, List.any_eq_true, List.contains_iff_mem, not_or, not_exists, not_and] at hright
  refine ⟨⟨fun name hname => ?_, hplain.small⟩, ⟨hplain, m, hm⟩, Bool.eq_false_iff.2 hright.1, hright.2⟩
  obtain ⟨inner, hinner⟩ := hsections name hname
  refine ⟨inner, hinner, ?_⟩
  rw [Datum.field?_mapping] at hinner
  cases hv : fields.lookup name with
  | none =>
    rw [hv] at hinner
    cases hinner
    exact List.nodup_nil
  | some v =>
    rw [hv, Option.getD_some] at hinner
    exact hdistinct name inner (hinner ▸ hv)

theorem Overlaid.plain {laid : Place → Option Datum} (h : Overlaid laid fields fields') (hplain : Plain fields) :
    Plain fields' where
  small := h.ready.small
  usual := (variableForm_congr h.outside).trans hplain.usual

theorem Overlaid.untaken {laid : Place → Option Datum} (h : Overlaid laid fields fields')
    (hsections : ∀ name ∈ Place.sections, name ∉ taken) (hfields : ∀ f ∈ fields, f.1 ∉ taken) :
    ¬(fields'.any fun f => taken.contains f.1) := by
  simp only [List.any_eq_true, List.contains_iff_mem, not_exists, not_and]
  intro f hf
  obtain hname | ⟨g, hg, hgf⟩ := h.names f hf
  · exact hsections f.1 hname
  · exact hgf ▸ hfields g hg

theorem settled_timeout_ne_ok {d : Datum} {t : String} (ht : nonempty? env Place.timeout.variableName = some t)
    (hnumber : Decimal.real? t = none) (x : Setting) : Place.timeout.settled temporary env d ≠ .ok x := by
  obtain ⟨hset, hne⟩ := lookup_of_nonempty? ht
  have hentered : Place.timeout.entered temporary t = .error .noRealText := by
    rw [Place.entered, if_pos rfl, hnumber]
    rfl
  have hsettled : Place.timeout.settled temporary env d = .error .noRealText := by
    cases hd : Place.timeout.said d with
    | none => rw [settled_of_silent hset hd, hentered]
    | some v => rw [settled_of_said hset hd, if_pos ⟨hne, List.mem_cons_self⟩, hentered]
  rw [hsettled]
  intro h
  cases h

theorem exists_number_of_settled {d : Datum} {x : Setting} (h : Place.timeout.settled temporary env d = .ok x) :
    ∀ t, nonempty? env Place.timeout.variableName = some t → (Decimal.real? t).isSome := by
  intro t ht
  by_contra hnone
  exact settled_timeout_ne_ok ht (by simpa using hnone) x h

theorem Sources.Layered.resolve_eq_ok_iff (hS : S.Layered) (he : Orderly env) (hready : Ready fields)
    (htakes : S.Takes fields) (htaken : ∀ f ∈ fields, f.1 ∉ taken) (hsections : ∀ name ∈ Place.sections, name ∉ taken) :
    S.resolve temporary taken env ⟨.mapping fields, false⟩ = .ok s ↔
      ∀ p ∈ Place.all, p.settled temporary env (.mapping fields) = .ok (s.valueOf p) := by
  by_cases hnumber : ∀ t, nonempty? env Place.timeout.variableName = some t → (Decimal.real? t).isSome
  · obtain ⟨fields', hreplace, hover⟩ := overlaid_replaceAll he hready hnumber
    obtain ⟨m, hm, hsectioned, hsaid⟩ :=
      hS.merged he (hS.outside htakes (hover.plain htakes.1) hover.outside) hover.ready
    have hcounting (p : Place) (hp : p ∈ Place.all) : p.said m = counting env fields p := by
      rw [hsaid p hp, hover.said p hp, counting]
    have hread : S.resolve temporary taken env ⟨.mapping fields, false⟩ = .ok s ↔
        Settings.read temporary m = .ok s := by
      rw [Sources.resolve_eq_ok_iff]
      constructor
      · rintro ⟨d, hd, _, -, -, m', hm', hread⟩
        rw [hreplace] at hd
        cases hd
        rw [hm] at hm'
        cases hm'
        exact hread
      · intro hread
        exact ⟨_, hreplace, fields', rfl, by simpa using hover.untaken hsections htaken, m, hm, hread⟩
    rw [hread, read_eq_ok_iff]
    constructor
    · rintro ⟨-, h⟩ p hp
      rw [← meaning_counting hnumber, ← hcounting p hp]
      exact h p hp
    · intro h
      refine ⟨hsectioned, fun p hp => ?_⟩
      rw [hcounting p hp, meaning_counting hnumber]
      exact h p hp
  · -- The variable of the timeout is no number: neither side comes to settings.
    push Not at hnumber
    obtain ⟨t, ht, hnone⟩ := hnumber
    have hnumber : Decimal.real? t = none := by simpa using hnone
    constructor
    · intro h
      obtain ⟨d, hd, -⟩ := Sources.resolve_eq_ok_iff.1 h
      exact absurd hd (replaceAll_ne_ok he ht hnumber _ d)
    · intro h
      exact absurd (h .timeout (by decide)) (settled_timeout_ne_ok ht hnumber _)

theorem exists_settings_of_settled (h : ∀ p ∈ Place.all, ∃ x, p.settled temporary env (.mapping fields) = .ok x) :
    ∃ s : Settings, ∀ p ∈ Place.all, p.settled temporary env (.mapping fields) = .ok (s.valueOf p) := by
  obtain ⟨x, hx⟩ := h .timeout (by decide)
  have hnumber := exists_number_of_settled hx
  have hmeaning (p : Place) (hp : p ∈ Place.all) : ∃ y, p.meaning temporary (counting env fields p) = .ok y := by
    obtain ⟨y, hy⟩ := h p hp
    exact ⟨y, (meaning_counting hnumber y).2 hy⟩
  obtain ⟨s, hs⟩ := exists_valueOf hmeaning
  exact ⟨s, fun p hp => (meaning_counting hnumber _).1 (hs p hp)⟩

theorem Sources.load_eq_resolve {text : String} {d : Document} (henv : env.fault? = none) (h : S.read text = .ok d) :
    S.load temporary taken env (some text) = S.resolve temporary taken env d := by
  unfold Sources.load
  rw [henv]
  simp only [h]

theorem load_eq_resolve {text : String} {d : Document} (henv : env.fault? = none) (h : Document.read text = .ok d) :
    load temporary taken env (some text) = sources.resolve temporary taken env d := by
  rw [← sources_read] at h
  exact sources.load_eq_resolve henv h

/-- Wherever documents and variables come from: as long as both are taken together key by key, a document that is
valid by itself is loaded to the settings that its places and variables are settled to. -/
theorem Sources.Layered.load_eq_ok_iff (hS : S.Layered) {text : String} {alone : Settings}
    (hread : S.read text = .ok ⟨.mapping fields, foreign⟩) (hplain : Plain fields)
    (halone : S.load temporary taken [] (some text) = .ok alone)
    (hsections : ∀ name ∈ Place.sections, name ∉ taken) (henv : Orderly env) (s : Settings) :
    S.load temporary taken env (some text) = .ok s ↔
      ∀ p ∈ Place.all, p.settled temporary env (.mapping fields) = .ok (s.valueOf p) := by
  rw [S.load_eq_resolve rfl hread] at halone
  obtain ⟨hready, htakes, rfl, htaken⟩ := hS.ready_of_resolve hplain (fun _ _ h => hS.distinct hread rfl h) halone
  rw [S.load_eq_resolve henv.settable hread]
  exact hS.resolve_eq_ok_iff henv hready htakes htaken hsections

/-- Where a document is valid by itself, variables fill in what it leaves out. Of what it says, they replace the timeout
and the level only. -/
theorem load_eq_ok_iff_settled {text : String} {alone : Settings}
    (hread : Document.read text = .ok ⟨.mapping fields, foreign⟩) (hplain : Plain fields)
    (halone : load temporary taken [] (some text) = .ok alone)
    (hsections : ∀ name ∈ Place.sections, name ∉ taken) (henv : Orderly env) :
    (∀ s, load temporary taken env (some text) = .ok s ↔
      ∀ p ∈ Place.all, p.settled temporary env (.mapping fields) = .ok (s.valueOf p)) ∧
    ((∀ p ∈ Place.all, ∃ x, p.settled temporary env (.mapping fields) = .ok x) →
      ∃ s, load temporary taken env (some text) = .ok s) := by
  rw [← sources_read] at hread
  have hload := layered_sources.load_eq_ok_iff hread hplain halone hsections henv
  refine ⟨hload, fun h => ?_⟩
  obtain ⟨s, hs⟩ := exists_settings_of_settled h
  exact ⟨s, (hload s).2 hs⟩

/-- The text of a document with one section. -/
def loggingText : String := "logging:\n  level: INFO\n  format: console\n"

def loggingFields : List (String × Datum) :=
  [("logging", .mapping [("level", .text "INFO"), ("format", .text "console")])]

/-- Variables for a key that the document leaves out, and for two that it gives. -/
def threeVariables : Environment :=
  [("HOME", "/root"), ("PIPEBENCH_CHECKER__BINARY_PATH", "/opt/NuSMV"), ("PIPEBENCH_LOGGING__LEVEL", "DEBUG"),
    ("PIPEBENCH_LOGGING__FORMAT", "json")]

theorem load_eq_ok_iff_settled_of_threeVariables :
    Document.read loggingText = .ok ⟨.mapping loggingFields, false⟩ ∧ Plain loggingFields ∧
      (∃ alone, load "/tmp" [] [] (some loggingText) = .ok alone) ∧ Orderly threeVariables ∧
      load "/tmp" [] threeVariables (some loggingText) =
        .ok ⟨⟨"/opt/NuSMV", Text.normalPath "/tmp", none, false⟩, ⟨"DEBUG", "console"⟩⟩ := by
  have htokens : Token.ofText loggingText = ([.blockMapping, .key, .scalar "logging" .plain, .value,
      .blockMapping, .key, .scalar "level" .plain, .value, .scalar "INFO" .plain, .key, .scalar "format" .plain,
      .value, .scalar "console" .plain, .blockEnd, .blockEnd, .textEnd], none) := by decide +kernel
  have hnode : Node.ofText loggingText = .ok (some (.mapping .mapping [(.scalar .text "logging", .mapping .mapping
      [(.scalar .text "level", .scalar .text "INFO"), (.scalar .text "format", .scalar .text "console")])])) := by
    rw [Node.ofText, htokens]
    rfl
  have hread : Document.read loggingText = .ok ⟨.mapping loggingFields, false⟩ := by
    have hlines : Text.plainLines loggingText = loggingText := by decide +kernel
    have hadmitted : loggingText.toList.all Document.isAdmitted = true := by decide +kernel
    simp only [Document.read, hlines, hadmitted, hnode]
    rfl
  have hplain : Plain loggingFields := ⟨by decide +kernel, rfl⟩
  have halone : load "/tmp" [] [] (some loggingText) =
      .ok ⟨⟨"NuSMV", Text.normalPath "/tmp", none, false⟩, ⟨"INFO", "console"⟩⟩ := by
    rw [load_eq_resolve rfl hread]
    rfl
  have horderly : Orderly threeVariables :=
    ⟨by simp [threeVariables, Environment.fault?, variableFault?], by decide +kernel, by decide +kernel⟩
  refine ⟨hread, hplain, ⟨_, halone⟩, horderly, ?_⟩
  refine ((load_eq_ok_iff_settled hread hplain halone (by simp) horderly).1 _).2 fun p hp => ?_
  simp only [Place.all, List.mem_cons, List.not_mem_nil, or_false] at hp
  obtain rfl | rfl | rfl | rfl | rfl | rfl := hp
  · exact settled_of_silent (by decide +kernel) rfl
  · exact settled_of_unset (by decide +kernel)
  · exact settled_of_unset (by decide +kernel)
  · exact settled_of_unset (by decide +kernel)
  · exact settled_of_said (v := .text "INFO") (t := "DEBUG") (by decide +kernel) rfl
  · exact settled_of_said (v := .text "console") (t := "json") (by decide +kernel) rfl

end StreamCheck.Settings
