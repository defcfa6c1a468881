import StreamCheck.Markup.Document
import StreamCheck.Proofs.Input.Data

/-! No key of a mapping stands twice in what a text holds. -/

namespace StreamCheck.Markup
open Input

theorem Node.scalarValue_ne_mapping (t : Tag) (s : String) (fields : List (String × Datum)) :
    scalarValue t s ≠ .ok (.mapping fields) := by
  intro h
  cases t with
  | truth =>
    simp only [scalarValue, truth] at h
    split_ifs at h <;> cases h
  | whole =>
    rw [scalarValue] at h
    cases hn : Number.whole s <;> rw [hn] at h <;> cases h
  | real =>
    rw [scalarValue] at h
    cases hn : Number.real s <;> rw [hn] at h <;> cases h
  | timestamp =>
    rw [scalarValue, moment] at h
    cases ht : Timestamp.read? s with
    | none => rw [ht] at h; cases h
    | some t =>
      rw [ht] at h
      cases hf : t.fault? <;> simp [hf] at h
  | binary =>
    rw [scalarValue] at h
    cases hb : Binary.decode? s <;> rw [hb] at h <;> cases h
  | _ => cases h

theorem Node.scalar_ne_mapping (t : Tag) (text : Option String) (fields : List (String × Datum)) :
    (text.bind fun s => (scalarValue t s).toOption).getD .null ≠ .mapping fields := by
  intro h
  cases text with
  | none => cases h
  | some s =>
    rw [Option.bind_some] at h
    cases hv : scalarValue t s with
    | error f =>
      rw [hv] at h
      cases h
    | ok v =>
      rw [hv] at h
      exact scalarValue_ne_mapping t s fields (hv.trans (congrArg Except.ok h))

theorem Node.distinct_of_datum {depth : Nat} {n : Node} {fields : List (String × Datum)}
    (h : n.datum depth = .mapping fields) :
    Datum.Distinct (.mapping fields) ∧ ∀ f ∈ fields, ∃ m : Node, ∃ d, m.datum d = f.2 := by
  cases depth with
  | zero =>
    rw [datum] at h
    cases h
  | succ depth =>
    rw [datum.eq_def] at h
    simp only at h
    split at h
    · cases h
    · obtain ⟨fs, hfs, hdistinct, hmem, -⟩ := Datum.exists_ofFields _
      rw [hfs] at h
      obtain rfl := Datum.mapping.inj h
      refine ⟨hdistinct, fun f hf => ?_⟩
      obtain ⟨p, -, hp⟩ := List.mem_filterMap.1 (hmem f hf)
      split at hp
      · obtain rfl := Option.some.inj hp
        exact ⟨p.2, depth, rfl⟩
      · cases hp
    · cases h
    · cases h
    · cases h
    · exact absurd h (scalar_ne_mapping _ _ _)

theorem Document.datum_of_read {text : String} {d : Document} {fields : List (String × Datum)}
    (h : read text = .ok d) (hd : d.value = .mapping fields) :
    ∃ n : Node, ∃ depth, n.datum depth = .mapping fields := by
  simp only [read] at h
  split_ifs at h
  · cases h
  · cases hn : Node.ofText (Text.plainLines text) with
    | error f =>
      rw [hn] at h
      cases h
    | ok n? =>
      rw [hn] at h
      cases n? with
      | none =>
        cases h
        cases hd
      | some n =>
        have hnode : ofNode n = .ok d := h
        rw [ofNode] at hnode
        cases hf : n.fault? with
        | some f =>
          rw [hf] at hnode
          cases hnode
        | none =>
          rw [hf] at hnode
          cases hnode
          exact ⟨n, n.size, hd⟩

theorem Document.distinct_of_read {text : String} {d : Document} {fields inner : List (String × Datum)} {name : String}
    (h : read text = .ok d) (hd : d.value = .mapping fields) (hname : fields.lookup name = some (.mapping inner)) :
    Datum.Distinct (.mapping inner) := by
  obtain ⟨n, depth, hn⟩ := datum_of_read h hd
  obtain ⟨l₁, l₂, hl, -⟩ := List.lookup_eq_some_iff.1 hname
  obtain ⟨m, depth', hm⟩ := (Node.distinct_of_datum hn).2 (name, .mapping inner) (by simp [hl])
  exact (Node.distinct_of_datum hm).1

end StreamCheck.Markup
