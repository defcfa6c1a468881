import StreamCheck.Smv.Reference

/-! Resolving references: where one ends is unique, and how one at an instance goes on is decided by that
instance alone. -/

namespace StreamCheck.Smv

def Instance.argument? (i : Instance) (n : Name) : Option Ref :=
  (i.module.parameters.zip i.arguments).lookup n

theorem findSome?_declaration {parts : List Instance} {k : Nat} {i : Instance}
    (h : parts.find? (·.id == k) = some i) :
    (parts.map Instance.declaration).findSome? (·.arguments? k) = some i.arguments := by
  induction parts with
  | nil => nomatch h
  | cons i' parts ih =>
    rw [List.map_cons, List.findSome?_cons]
    by_cases hk : i'.id = k
    · rw [List.find?_cons_of_pos (by simpa using hk)] at h
      obtain rfl := Option.some.inj h
      simp [Instance.declaration, Declaration.arguments?, hk]
    · rw [List.find?_cons_of_neg (by simpa using hk)] at h
      simpa [Instance.declaration, Declaration.arguments?, hk] using ih h

theorem Instance.passed?_of_lookup {i : Instance} {n : Name} {r : Ref} (hparts : i.parts ≠ [])
    (h : i.module.defines.lookup n = some (.var r)) : i.passed? n = some r := by
  have hsome : i.parts.isEmpty = false := by simpa using hparts
  simp [passed?, hsome, h]

theorem Instance.inside?_append (parts : List Instance) (path path' : List Nat) :
    inside? parts (path ++ path') = (inside? parts path).bind (inside? · path') := by
  induction path generalizing parts with
  | nil => rfl
  | cons k path ih =>
    rw [List.cons_append, inside?, inside?]
    cases parts.find? (·.id == k) with
    | none => rfl
    | some i => exact ih i.parts

namespace Model
variable {m : Model} {r t t' : Ref} {path : List Nat} {k : Nat} {n : Name} {i : Instance}

theorem Resolves.unique (h : m.Resolves r t) (h' : m.Resolves r t') : t = t' := by
  induction h with
  | done hr =>
    cases h' with
    | done _ => rfl
    | step hr' _ =>
      rw [hr] at hr'
      nomatch hr'
  | step hr _ ih =>
    cases h' with
    | done hr' =>
      rw [hr] at hr'
      nomatch hr'
    | step hr' ht' =>
      rw [hr] at hr'
      obtain rfl := Option.some.inj hr'
      exact ih ht'

theorem arguments?_append (hi : m.instance? path k = some i) (k' : Nat) :
    m.arguments? (path ++ [k]) k' = i.module.arguments? k' := by
  simp [arguments?, hi]

theorem standsFor?_argument (hi : m.instance? path k = some i)
    (hargs : m.arguments? path k = some i.arguments) {a : Ref} (ha : i.argument? n = some a) :
    m.standsFor? ⟨path ++ [k], n⟩ = some (a.beneath path) := by
  rw [Instance.argument?] at ha
  simp [standsFor?, hi, hargs, ha]

theorem standsFor?_passed (hi : m.instance? path k = some i)
    (hargs : m.arguments? path k = some i.arguments) (ha : i.argument? n = none) :
    m.standsFor? ⟨path ++ [k], n⟩ = (i.passed? n).map (.beneath (path ++ [k])) := by
  rw [Instance.argument?] at ha
  simp [standsFor?, hi, hargs, ha]

end Model

end StreamCheck.Smv
