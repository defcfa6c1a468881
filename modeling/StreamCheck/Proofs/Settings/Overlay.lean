import StreamCheck.Proofs.Input.Data
import StreamCheck.Proofs.Settings.Reading

/-! A document after the variables that replace what it says: other values at their places, and nothing else. -/

namespace StreamCheck.Settings
open Input

/-- The sections of a document are mappings with each key once, and are named in small letters. -/
structure Ready (fields : List (String × Datum)) : Prop where
  sections : ∀ name ∈ Place.sections, ∃ inner, (fields.lookup name).getD (.mapping []) = .mapping inner ∧
    Datum.Distinct (.mapping inner)
  small : ∀ f ∈ fields, Text.inSmall f.1 ∈ Place.sections → f.1 ∈ Place.sections

structure Overlaid (laid : Place → Option Datum) (fields fields' : List (String × Datum)) : Prop where
  ready : Ready fields'
  said : ∀ p ∈ Place.all, p.said (.mapping fields') = (laid p).or (p.said (.mapping fields))
  outside : ∀ name ∉ Place.sections, fields'.lookup name = fields.lookup name
  names : ∀ f ∈ fields', f.1 ∈ Place.sections ∨ ∃ g ∈ fields, g.1 = f.1

variable {laid laid' : Place → Option Datum} {fields fields' fields'' : List (String × Datum)} {p : Place}
  {env : Environment} {name : String} {v : Datum}

theorem Overlaid.refl (h : Ready fields) : Overlaid (fun _ => none) fields fields where
  ready := h
  said := fun _ _ => rfl
  outside := fun _ _ => rfl
  names := fun f hf => .inr ⟨f, hf, rfl⟩

theorem Overlaid.trans (h : Overlaid laid fields fields') (h' : Overlaid laid' fields' fields'') :
    Overlaid (fun p => (laid' p).or (laid p)) fields fields'' where
  ready := h'.ready
  said := fun p hp => by rw [h'.said p hp, h.said p hp, Option.or_assoc]
  outside := fun name hname => by rw [h'.outside name hname, h.outside name hname]
  names := fun f hf => by
    obtain hname | ⟨g, hg, hgf⟩ := h'.names f hf
    · exact .inl hname
    · rw [← hgf]
      exact h.names g hg

theorem mem_sections (hp : p ∈ Place.all) : p.sectionName ∈ Place.sections :=
  List.mem_eraseDups.2 (List.mem_map_of_mem hp)

theorem put_eq {inner : List (String × Datum)}
    (h : (fields.lookup p.sectionName).getD (.mapping []) = .mapping inner) :
    put p v (.mapping fields) =
      .ok ((Datum.mapping fields).insert p.sectionName ((Datum.mapping inner).insert p.key v)) := by
  rw [put]
  cases hs : fields.lookup p.sectionName with
  | none =>
    rw [hs] at h
    cases h
    rw [Datum.insert_of_not_mem (lookup_eq_none_iff_not_mem.1 hs)]
    simp [hs]
    rfl
  | some w =>
    rw [hs] at h
    have hw : w = .mapping inner := h
    simp [hs, hw]

theorem overlaid_put (h : Ready fields) (hp : p ∈ Place.all) (v : Datum) :
    ∃ fields', put p v (.mapping fields) = .ok (.mapping fields') ∧
      Overlaid (fun q => if q = p then some v else none) fields fields' := by
  obtain ⟨inner, hinner, hdistinct⟩ := h.sections p.sectionName (mem_sections hp)
  obtain ⟨inner', hinner'⟩ := Datum.exists_insert inner p.key v
  obtain ⟨fields', hfields'⟩ := Datum.exists_insert fields p.sectionName (.mapping inner')
  have hlookup (name : String) : fields'.lookup name =
      if name = p.sectionName then some (.mapping inner') else fields.lookup name := by
    rw [← Datum.field?_mapping, ← hfields', Datum.field?_insert]
  have hmem (f : String × Datum) (hf : f ∈ fields') : f.1 = p.sectionName ∨ f ∈ fields := by
    obtain hf | hf := Datum.mem_insert hfields' hf
    · exact .inl (by rw [hf])
    · exact .inr hf
  refine ⟨fields', by rw [put_eq hinner, hinner', hfields'],
    ⟨⟨fun name hname => ?_, fun f hf hsmall => ?_⟩, ?_, ?_, ?_⟩⟩
  · rw [hlookup]
    by_cases heq : name = p.sectionName
    · rw [if_pos heq]
      exact ⟨inner', rfl, hinner' ▸ Datum.distinct_insert hdistinct p.key v⟩
    · rw [if_neg heq]
      exact h.sections name hname
  · obtain heq | hf := hmem f hf
    · exact heq ▸ mem_sections hp
    · exact h.small f hf hsmall
  · intro q hq
    by_cases hsection : q.sectionName = p.sectionName
    · have hold : q.said (.mapping fields) = inner.lookup q.key := by
        rw [Place.said, hsection, Datum.under_eq_lookup (d := .mapping fields) hinner]
      have hnew : q.said (.mapping fields') = inner'.lookup q.key := by
        have hsome : (fields'.lookup p.sectionName).getD (.mapping []) = .mapping inner' := by
          rw [hlookup, if_pos rfl, Option.getD_some]
        rw [Place.said, hsection, Datum.under_eq_lookup (d := .mapping fields') hsome]
      rw [hnew, hold, ← Datum.field?_mapping, ← hinner', Datum.field?_insert]
      have hsame : q = p ↔ q.key = p.key := by
        cases q
        cases p
        simp_all
      simp only [hsame]
      by_cases hkey : q.key = p.key
      · simp [hkey]
      · simp [hkey]
    · have hne : q ≠ p := fun heq => hsection (by rw [heq])
      rw [if_neg hne, Option.none_or, Place.said, Place.said, Datum.under, Datum.under, Datum.field?_mapping, hlookup,
        if_neg hsection, Datum.field?_mapping]
  · intro name hname
    rw [hlookup, if_neg]
    rintro rfl
    exact hname (mem_sections hp)
  · intro f hf
    obtain heq | hf := hmem f hf
    · exact .inl (heq ▸ mem_sections hp)
    · exact .inr ⟨f, hf, rfl⟩

/-- What a variable that is set and not empty lays over a place. -/
def entry (env : Environment) (name : String) (value : String → Datum) (p q : Place) : Option Datum :=
  if q = p then (nonempty? env name).map value else none

theorem overlaid_replace (h : Ready fields) (hp : p ∈ Place.all) {read : String → Except SettingsFault Datum}
    {value : String → Datum} (hread : ∀ t, nonempty? env name = some t → read t = .ok (value t)) :
    ∃ fields', replace env name p read (.mapping fields) = .ok (.mapping fields') ∧
      Overlaid (entry env name value p) fields fields' := by
  cases ht : nonempty? env name with
  | none =>
    refine ⟨fields, by rw [replace, ht], ?_⟩
    have hnone : entry env name value p = fun _ => none := by
      funext q
      rw [entry, ht]
      exact ite_self none
    rw [hnone]
    exact Overlaid.refl h
  | some t =>
    obtain ⟨fields', hput, hover⟩ := overlaid_put h hp (value t)
    have hbind : replace env name p read (.mapping fields) = read t >>= fun v => put p v (.mapping fields) := by
      rw [replace, ht]
    refine ⟨fields', ?_, ?_⟩
    · rw [hbind, hread t ht]
      exact hput
    · have hsome : entry env name value p = fun q => if q = p then some (value t) else none := by
        funext q
        rw [entry, ht, Option.map_some]
      rw [hsome]
      exact hover

def numberOf (text : String) : Datum := .real ((Decimal.real? text).getD 0)

def entries (env : Environment) (p : Place) : Option Datum :=
  (entry env Place.level.variableName .text .level p).or (entry env Place.timeout.variableName numberOf .timeout p)

theorem Orderly.lookup_eq_none (h : Orderly env) (hstart : "pipebench_".toList <+: (Text.inSmall name).toList)
    (hname : ∀ p ∈ Place.all, name ≠ p.variableName) : env.lookup name = none := by
  rw [lookup_eq_none_iff_not_mem]
  intro hmem
  obtain ⟨x, hx, rfl⟩ := List.mem_map.1 hmem
  obtain ⟨p, hp, heq⟩ := h.places x hx hstart
  exact hname p hp heq

theorem nonempty?_eq_none (h : env.lookup name = none) : nonempty? env name = none := by
  rw [nonempty?, h]

theorem replaceAll_eq (he : Orderly env) (d : Datum) : replaceAll env d =
    replace env Place.timeout.variableName .timeout number d >>=
      replace env Place.level.variableName .level fun s => .ok (.text s) := by
  have hbinary : nonempty? env binaryVariable = none :=
    nonempty?_eq_none (he.lookup_eq_none (by decide +kernel) (by decide +kernel))
  have hworkDir : nonempty? env workDirVariable = none :=
    nonempty?_eq_none (he.lookup_eq_none (by decide +kernel) (by decide +kernel))
  have hnone (name : String) (p : Place) (read : String → Except SettingsFault Datum)
      (hname : nonempty? env name = none) : replace env name p read d = .ok d := by
    rw [replace, hname]
  rw [replaceAll, hnone _ _ _ hbinary, ok_bind, hnone _ _ _ hworkDir, ok_bind]

theorem overlaid_replaceAll (he : Orderly env) (h : Ready fields)
    (hnumber : ∀ t, nonempty? env Place.timeout.variableName = some t → (Decimal.real? t).isSome) :
    ∃ fields', replaceAll env (.mapping fields) = .ok (.mapping fields') ∧ Overlaid (entries env) fields fields' := by
  have htimeout (t : String) (ht : nonempty? env Place.timeout.variableName = some t) :
      number t = .ok (numberOf t) := by
    obtain ⟨x, hx⟩ := Option.isSome_iff_exists.1 (hnumber t ht)
    rw [number, numberOf, hx]
    rfl
  have hlevel (t : String) (_ : nonempty? env Place.level.variableName = some t) :
      (fun s => (.ok (.text s) : Except SettingsFault Datum)) t = .ok (Datum.text t) := rfl
  obtain ⟨fields₁, h₁, hover₁⟩ := overlaid_replace (p := .timeout) h (by decide) htimeout
  obtain ⟨fields₂, h₂, hover₂⟩ := overlaid_replace (p := .level) hover₁.ready (by decide) hlevel
  exact ⟨fields₂, by rw [replaceAll_eq he, h₁, ok_bind, h₂], hover₁.trans hover₂⟩

/-- A timeout that is no number stops the whole. -/
theorem replaceAll_ne_ok (he : Orderly env) {t : String} (ht : nonempty? env Place.timeout.variableName = some t)
    (hnumber : Decimal.real? t = none) (d d' : Datum) : replaceAll env d ≠ .ok d' := by
  have hreplace : replace env Place.timeout.variableName .timeout number d =
      number t >>= fun v => put .timeout v d := by
    rw [replace, ht]
  have herror : number t = .error (.noNumber t) := by
    rw [number, hnumber]
    rfl
  rw [replaceAll_eq he, hreplace, herror]
  intro h
  cases h

end StreamCheck.Settings
