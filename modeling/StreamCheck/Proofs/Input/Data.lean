import Mathlib.Data.List.Induction
import StreamCheck.Input.Datum
import StreamCheck.Proofs.Basic

/-! Mappings by what stands under their keys: after one value is put in, after many are, and after two mappings are
taken together. -/

namespace StreamCheck.Input.Datum

def Distinct (d : Datum) : Prop := (d.fields.map Prod.fst).Nodup

variable {d base : Datum} {fields : List (String × Datum)} {key name : String} {v : Datum}

@[simp] theorem field?_mapping : (mapping fields).field? key = fields.lookup key := rfl

theorem insert_of_not_mem (h : key ∉ fields.map Prod.fst) :
    (mapping fields).insert key v = mapping (fields ++ [(key, v)]) := by
  have hany : fields.any (·.1 == key) = false := by
    rw [List.any_eq_false]
    intro f hf heq
    exact h (beq_iff_eq.1 heq ▸ List.mem_map_of_mem hf)
  simp [insert, hany]

theorem insert_of_mem (h : key ∈ fields.map Prod.fst) (v : Datum) :
    (mapping fields).insert key v = mapping (fields.map fun f => if f.1 == key then (key, v) else f) := by
  obtain ⟨f, hf, rfl⟩ := List.mem_map.1 h
  have hany : fields.any (·.1 == f.1) = true := List.any_eq_true.2 ⟨f, hf, beq_self_eq_true _⟩
  simp [insert, hany]

theorem exists_insert (fields : List (String × Datum)) (key : String) (v : Datum) :
    ∃ fs, (mapping fields).insert key v = mapping fs := by
  by_cases h : key ∈ fields.map Prod.fst
  · exact ⟨_, insert_of_mem h v⟩
  · exact ⟨_, insert_of_not_mem h⟩

theorem lookup_replaced (fields : List (String × Datum)) (key name : String) (v : Datum) :
    (fields.map fun f => if f.1 == key then (key, v) else f).lookup name =
      if name = key then (fields.lookup name).map fun _ => v else fields.lookup name := by
  induction fields with
  | nil => simp
  | cons f rest ih =>
    rw [List.map_cons, lookup_cons_eq_ite, lookup_cons_eq_ite, ih]
    by_cases hname : name = key <;> by_cases hf : f.1 = key
    · simp [hname, hf]
    · simp [hname, hf, Ne.symm hf]
    · simp [hname, hf]
    · simp [hname, hf]

theorem field?_insert (fields : List (String × Datum)) (key name : String) (v : Datum) :
    ((mapping fields).insert key v).field? name = if name = key then some v else fields.lookup name := by
  by_cases h : key ∈ fields.map Prod.fst
  · rw [insert_of_mem h, field?_mapping, lookup_replaced]
    by_cases hname : name = key
    · have hsome : fields.lookup key ≠ none := fun hnone => lookup_eq_none_iff_not_mem.1 hnone h
      obtain ⟨old, hold⟩ := Option.ne_none_iff_exists'.1 hsome
      simp [hname, hold]
    · simp [hname]
  · rw [insert_of_not_mem h, field?_mapping, List.lookup_append, lookup_cons_eq_ite, List.lookup_nil]
    by_cases hname : name = key
    · simp [hname, lookup_eq_none_iff_not_mem.2 h]
    · simp [hname]

theorem distinct_insert (h : Distinct (mapping fields)) (key : String) (v : Datum) :
    Distinct ((mapping fields).insert key v) := by
  by_cases hkey : key ∈ fields.map Prod.fst
  · have hsame : (fields.map fun f => if f.1 == key then (key, v) else f).map Prod.fst = fields.map Prod.fst := by
      rw [List.map_map]
      refine List.map_congr_left fun f _ => ?_
      by_cases hf : f.1 = key <;> simp [hf]
    rw [insert_of_mem hkey, Distinct, Datum.fields, hsame]
    exact h
  · rw [insert_of_not_mem hkey, Distinct, Datum.fields, List.map_append]
    exact List.Nodup.append h (List.nodup_singleton key) (by simpa using hkey)

theorem mem_insert {fields' : List (String × Datum)} (h : (mapping fields).insert key v = mapping fields')
    {f : String × Datum} (hf : f ∈ fields') : f = (key, v) ∨ f ∈ fields := by
  by_cases hkey : key ∈ fields.map Prod.fst
  · rw [insert_of_mem hkey] at h
    rw [← mapping.inj h] at hf
    obtain ⟨g, hg, rfl⟩ := List.mem_map.1 hf
    by_cases heq : g.1 = key
    · exact .inl (by simp [heq])
    · exact .inr (by simpa [heq] using hg)
  · rw [insert_of_not_mem hkey] at h
    rw [← mapping.inj h] at hf
    simpa [or_comm] using hf

theorem ofFields_concat (fields : List (String × Datum)) (f : String × Datum) :
    ofFields (fields ++ [f]) = (ofFields fields).insert f.1 f.2 := by
  rw [ofFields, List.foldl_append]
  rfl

/-- What many values put in one after another make: under each key stands the last one. -/
theorem exists_ofFields (fields : List (String × Datum)) :
    ∃ fs, ofFields fields = mapping fs ∧ Distinct (mapping fs) ∧ (∀ f ∈ fs, f ∈ fields) ∧
      ∀ key, fs.lookup key = fields.reverse.lookup key := by
  induction fields using List.reverseRecOn with
  | nil => exact ⟨[], rfl, List.nodup_nil, fun f hf => hf, fun _ => rfl⟩
  | append_singleton fields f ih =>
    obtain ⟨fs, hfs, hdistinct, hmem, hlookup⟩ := ih
    obtain ⟨fs', hfs'⟩ := exists_insert fs f.1 f.2
    rw [ofFields_concat, hfs, hfs']
    refine ⟨fs', rfl, hfs' ▸ distinct_insert hdistinct f.1 f.2, fun g hg => ?_, fun key => ?_⟩
    · obtain rfl | hg := mem_insert hfs' hg
      · simp
      · exact List.mem_append_left _ (hmem g hg)
    · rw [← field?_mapping, ← hfs', field?_insert, hlookup, List.reverse_append, List.reverse_singleton,
        List.singleton_append, lookup_cons_eq_ite]

theorem ofFields_of_distinct (h : Distinct (mapping fields)) : ofFields fields = mapping fields := by
  induction fields using List.reverseRecOn with
  | nil => rfl
  | append_singleton fields f ih =>
    rw [Distinct, Datum.fields, List.map_append] at h
    obtain ⟨hfields, -, hnew⟩ := List.nodup_append'.1 h
    have hf : f.1 ∉ fields.map Prod.fst := by simpa using hnew
    rw [ofFields_concat, ih hfields, insert_of_not_mem hf]

theorem field?_mergeFields (base : List (String × Datum)) (h : Distinct (mapping fields)) :
    ∃ fs, mergeFields (mapping base) fields = mapping fs ∧ ∀ key, fs.lookup key =
      (fields.lookup key).elim (base.lookup key) fun v =>
        some ((base.lookup key).elim v fun old => merge old v) := by
  induction fields generalizing base with
  | nil => exact ⟨base, by rw [mergeFields], fun _ => rfl⟩
  | cons f rest ih =>
    obtain ⟨hf, hrest⟩ := List.nodup_cons.1 h
    let w := (base.lookup f.1).elim f.2 fun old => merge old f.2
    obtain ⟨base', hbase'⟩ := exists_insert base f.1 w
    obtain ⟨fs, hfs, hlookup⟩ := ih base' hrest
    refine ⟨fs, by rw [mergeFields, field?_mapping, hbase', hfs], fun key => ?_⟩
    have hkeep : base'.lookup key = if key = f.1 then some w else base.lookup key := by
      rw [← field?_mapping, ← hbase', field?_insert]
    rw [hlookup, hkeep, lookup_cons_eq_ite]
    by_cases hkey : key = f.1
    · simp [hkey, lookup_eq_none_iff_not_mem.2 hf, w]
    · simp [hkey]

end StreamCheck.Input.Datum
