import Mathlib.Data.List.Find
import StreamCheck.Proofs.Settings.Overlay
import StreamCheck.Proofs.Settings.Variables

/-! A document with its sections filled in: what it leaves out at a place is taken from the place's variable. -/

namespace StreamCheck.Settings
open Input

variable {env : Environment} {fields fields' : List (String × Datum)} {name : String}

def given (env : Environment) (name : String) : Option Datum :=
  ((VariableForm.sectionOf {} (VariableForm.byName {} env) name (Place.keysOf name)).toOption).join

theorem given_spec (h : Orderly env) (hname : name ∈ Place.sections) :
    VariableForm.sectionOf {} (VariableForm.byName {} env) name (Place.keysOf name) = .ok (given env name) ∧
      (∀ v, given env name = some v → ∃ inner, v = .mapping inner) ∧
      ∀ p ∈ Place.all, p.sectionName = name →
        (given env name).bind (Datum.field? p.key) = (env.lookup p.variableName).map .text := by
  obtain ⟨inner, hinner, hlookup⟩ := VariableForm.exists_sectionOf h hname
  have hgiven : given env name = if inner.isEmpty then none else some (.mapping inner) := by
    rw [given, hinner]
    rfl
  refine ⟨by rw [hinner, hgiven], fun v hv => ?_, fun p hp hpn => ?_⟩
  · rw [hgiven] at hv
    split_ifs at hv
    exact ⟨inner, (Option.some.inj hv).symm⟩
  · rw [← hlookup p hp hpn, hgiven]
    cases inner with
    | nil => rfl
    | cons f rest => rfl

def together (env : Environment) (d : Datum) (name : String) : Option Datum :=
  (d.field? name).elim (given env name) fun v => some ((given env name).elim v fun old => Datum.merge old v)

theorem sectionsOf_eq (hsmall : ∀ f ∈ fields, Text.inSmall f.1 ∈ Place.sections → f.1 ∈ Place.sections) :
    sectionsOf (.mapping fields) =
      .mapping (Place.sections.filterMap fun name => (fields.lookup name).map fun v => (name, v)) := by
  have hself : ∀ name ∈ Place.sections, Text.inSmall name = name := by decide +kernel
  rw [sectionsOf]
  congr 1
  refine List.filterMap_congr fun name hname => ?_
  have hfind : (fields.find? fun f => Text.inSmall f.1 == name) = fields.find? (·.1 == name) := by
    refine List.find?_congr fun f hf => ?_
    rw [Bool.eq_iff_iff, beq_iff_eq, beq_iff_eq]
    constructor
    · intro heq
      have hsection := hsmall f hf (heq ▸ hname)
      rw [← hself f.1 hsection, heq]
    · intro heq
      rw [heq, hself name hname]
  rw [Datum.fields, hfind, lookup_eq_find?, Option.map_map]
  rfl

theorem variableForm_congr (h : ∀ name ∉ Place.sections, fields'.lookup name = fields.lookup name) :
    variableForm (.mapping fields') = variableForm (.mapping fields) := by
  have hparting : partingOf (.mapping fields') = partingOf (.mapping fields) := by
    simp only [partingOf, Datum.field?_mapping, h "_env_nested_max_split" (by decide +kernel)]
  have hstarts : startsNames (.mapping fields') = startsNames (.mapping fields) := by
    simp only [startsNames, Datum.field?_mapping, h "_env_prefix_target" (by decide +kernel)]
  have hstart (usual : String) : startOf (.mapping fields') usual = startOf (.mapping fields) usual := by
    simp only [startOf, Datum.field?_mapping, h "_env_prefix" (by decide +kernel), hstarts]
  have hseparator (usual : Option String) :
      separatorOf (.mapping fields') usual = separatorOf (.mapping fields) usual := by
    simp only [separatorOf, Datum.field?_mapping, h "_env_nested_delimiter" (by decide +kernel)]
  have hodd : isOddSeparator (.mapping fields') = isOddSeparator (.mapping fields) := by
    simp only [isOddSeparator, Datum.field?_mapping, h "_env_nested_delimiter" (by decide +kernel)]
  have hcase : saysYes (.mapping fields') "_case_sensitive" = saysYes (.mapping fields) "_case_sensitive" := by
    simp only [saysYes, Datum.field?_mapping, h "_case_sensitive" (by decide +kernel)]
  have hempty : saysYes (.mapping fields') "_env_ignore_empty" = saysYes (.mapping fields) "_env_ignore_empty" := by
    simp only [saysYes, Datum.field?_mapping, h "_env_ignore_empty" (by decide +kernel)]
  rw [variableForm, variableForm]
  simp only [hparting, hstart, hseparator, hodd, hcase, hempty, Datum.field?_mapping,
    h "_env_parse_none_str" (by decide +kernel)]

/-- What a document must say about files and words for its sections to be filled in. -/
def Fillable (d : Datum) : Prop := namesFiles d "_env_file" ∧ hasWords d ∧ namesFiles d "_secrets_dir"

theorem Fillable.congr (hd : Fillable (.mapping fields))
    (h : ∀ name ∉ Place.sections, fields'.lookup name = fields.lookup name) : Fillable (.mapping fields') := by
  have hfile := h "_env_file" (by decide +kernel)
  have hwords := h "_cli_parse_args" (by decide +kernel)
  have hsecrets := h "_secrets_dir" (by decide +kernel)
  simpa only [Fillable, namesFiles, hasWords, Datum.field?_mapping, hfile, hwords, hsecrets] using hd

def readSection (env : Environment) (form : VariableForm) (name : String) :
    Except SettingsFault (Option (String × Datum)) :=
  match form.sectionOf (form.byName env) name (Place.keysOf name) with
  | .error fault => throw (.ofSection fault)
  | .ok value => pure (value.map fun v => (name, v))

theorem fill_eq_ite (d : Datum) : fill env d =
    if namesFiles d "_env_file" then do
      let form ← variableForm d
      if hasWords d then do
        let given ← Place.sections.mapM (readSection env form)
        if namesFiles d "_secrets_dir" then
          .ok (Datum.merge (.mapping (given.filterMap id)) (sectionsOf d))
        else .error .wrongKind
      else .error .environment
    else .error .wrongKind := by
  cases hfile : namesFiles d "_env_file" <;> cases hwords : hasWords d <;>
    cases hsecrets : namesFiles d "_secrets_dir" <;> simp only [fill, hfile, hwords, hsecrets] <;> rfl

theorem fillable_of_fill {d m : Datum} (h : fill env d = .ok m) : Fillable d := by
  rw [fill_eq_ite] at h
  by_cases hfile : namesFiles d "_env_file"
  · rw [if_pos hfile] at h
    obtain ⟨form, -, h⟩ := bind_eq_ok_iff.1 h
    by_cases hwords : hasWords d
    · rw [if_pos hwords] at h
      obtain ⟨given, -, h⟩ := bind_eq_ok_iff.1 h
      by_cases hsecrets : namesFiles d "_secrets_dir"
      · exact ⟨hfile, hwords, hsecrets⟩
      · rw [if_neg hsecrets] at h
        cases h
    · rw [if_neg hwords] at h
      cases h
  · rw [if_neg hfile] at h
    cases h

theorem fill_eq (he : Orderly env) (hplain : Plain fields) (hfill : Fillable (.mapping fields)) :
    ∃ m, fill env (.mapping fields) = .ok m ∧
      ∀ name ∈ Place.sections, m.field? name = together env (.mapping fields) name := by
  obtain ⟨hfile, hwords, hsecrets⟩ := hfill
  have hgiven : Place.sections.mapM (readSection env {}) =
      .ok (Place.sections.map fun name => (given env name).map fun v => (name, v)) := by
    refine mapM_eq_map fun name hname => ?_
    rw [readSection, (given_spec he hname).1]
    rfl
  have hdistinct : Datum.Distinct (.mapping (Place.sections.filterMap fun name =>
      (fields.lookup name).map fun v => (name, v))) :=
    nodup_filterMap _ (by decide +kernel)
  obtain ⟨m, hm, hlookup⟩ := Datum.field?_mergeFields
    (Place.sections.filterMap fun name => (given env name).map fun v => (name, v)) hdistinct
  refine ⟨.mapping m, ?_, fun name hname => ?_⟩
  · rw [fill_eq_ite, if_pos hfile, hplain.usual, ok_bind, if_pos hwords, hgiven, ok_bind, if_pos hsecrets,
      List.filterMap_map, sectionsOf_eq hplain.small, ← hm, Datum.merge]
    rfl
  · rw [Datum.field?_mapping, hlookup, lookup_filterMap _ hname, lookup_filterMap _ hname]
    rfl

theorem merge_eq_mapping {old v : Datum} {inner : List (String × Datum)} (h : Datum.merge old v = .mapping inner) :
    ∃ inner', v = .mapping inner' := by
  cases v with
  | mapping inner' => exact ⟨inner', rfl⟩
  | _ =>
    rw [Datum.merge] at h
    · cases h
    · intro fields hfields
      cases hfields

theorem merge_text (t : String) (v : Datum) : Datum.merge (.text t) v = v := by
  cases v <;> simp [Datum.merge]

theorem sectioned_of_together {m : Datum}
    (hm : ∀ name ∈ Place.sections, m.field? name = together env (.mapping fields) name)
    (h : m.Sectioned Place.sections) : (Datum.mapping fields).Sectioned Place.sections := by
  intro name hname
  obtain ⟨inner, hinner⟩ := h name hname
  rw [hm name hname, together, Datum.field?_mapping] at hinner
  rw [Datum.field?_mapping]
  cases hv : fields.lookup name with
  | none => exact ⟨[], rfl⟩
  | some v =>
    rw [hv, Option.elim_some, Option.getD_some] at hinner
    cases hg : given env name with
    | none =>
      rw [hg] at hinner
      exact ⟨inner, hinner⟩
    | some old =>
      rw [hg] at hinner
      exact merge_eq_mapping hinner

theorem exists_merge (inner : List (String × Datum)) {own : List (String × Datum)}
    (hown : Datum.Distinct (.mapping own)) :
    ∃ merged, Datum.merge (.mapping inner) (.mapping own) = .mapping merged ∧ ∀ key, ∀ t : Option String,
      inner.lookup key = t.map .text → merged.lookup key = (own.lookup key).or (inner.lookup key) := by
  obtain ⟨merged, hmerged, hlookup⟩ := Datum.field?_mergeFields inner hown
  refine ⟨merged, by simpa [Datum.merge] using hmerged, fun key t ht => ?_⟩
  rw [hlookup, ht]
  cases own.lookup key with
  | none => rfl
  | some w =>
    cases t with
    | none => rfl
    | some t =>
      rw [Option.elim_some, Option.map_some, Option.elim_some, merge_text]
      rfl

theorem exists_together (he : Orderly env) (h : Ready fields) (hname : name ∈ Place.sections) :
    ∃ inner, (together env (.mapping fields) name).getD (.mapping []) = .mapping inner ∧
      ∀ p ∈ Place.all, p.sectionName = name →
        inner.lookup p.key = (p.said (.mapping fields)).or ((env.lookup p.variableName).map .text) := by
  obtain ⟨-, hmapping, hgiven⟩ := given_spec he hname
  obtain ⟨own, hown, hdistinct⟩ := h.sections name hname
  have hsaid (p : Place) (hp : p.sectionName = name) : p.said (.mapping fields) = own.lookup p.key := by
    rw [Place.said, hp, Datum.under_eq_lookup (d := .mapping fields) hown]
  rw [together, Datum.field?_mapping]
  cases hv : fields.lookup name with
  | none =>
    rw [hv] at hown
    cases hown
    cases hg : given env name with
    | none =>
      refine ⟨[], rfl, fun p hp hpn => ?_⟩
      rw [hsaid p hpn, ← hgiven p hp hpn, hg]
      rfl
    | some v =>
      obtain ⟨inner, rfl⟩ := hmapping v hg
      refine ⟨inner, rfl, fun p hp hpn => ?_⟩
      rw [hsaid p hpn, ← hgiven p hp hpn, hg]
      rfl
  | some v =>
    rw [hv, Option.getD_some] at hown
    subst hown
    cases hg : given env name with
    | none =>
      refine ⟨own, rfl, fun p hp hpn => ?_⟩
      rw [hsaid p hpn, ← hgiven p hp hpn, hg, Option.bind_none, Option.or_none]
    | some v =>
      obtain ⟨inner, rfl⟩ := hmapping v hg
      obtain ⟨merged, hmerged, hlookup⟩ := exists_merge inner hdistinct
      refine ⟨merged, hmerged, fun p hp hpn => ?_⟩
      have htext : inner.lookup p.key = (env.lookup p.variableName).map .text := by
        rw [← hgiven p hp hpn, hg]
        rfl
      rw [hlookup p.key _ htext, hsaid p hpn, htext]

theorem said_together {m : Datum} (he : Orderly env) (h : Ready fields)
    (hm : ∀ name ∈ Place.sections, m.field? name = together env (.mapping fields) name) :
    m.Sectioned Place.sections ∧ ∀ p ∈ Place.all, p.said m =
      (p.said (.mapping fields)).or ((env.lookup p.variableName).map .text) := by
  constructor
  · intro name hname
    obtain ⟨inner, hinner, -⟩ := exists_together he h hname
    exact ⟨inner, hm name hname ▸ hinner⟩
  · intro p hp
    have hsection := mem_sections hp
    obtain ⟨inner, hinner, hlookup⟩ := exists_together he h hsection
    rw [Place.said, Datum.under_eq_lookup (hm _ hsection ▸ hinner), hlookup p hp rfl]

end StreamCheck.Settings
