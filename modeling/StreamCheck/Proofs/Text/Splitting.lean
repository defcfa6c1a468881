import Mathlib.Data.String.Basic

/-! Splitting a text at double underscores, where it has none. -/

namespace StreamCheck.Text
open String

theorem atEnd_append_cons (l : List Char) (c : Char) (rest : List Char) :
    Pos.Raw.atEnd (ofList (l ++ c :: rest)) ⟨utf8Len l⟩ = false := by
  rw [Bool.eq_false_iff]
  intro hend
  exact List.cons_ne_nil c rest ((atEnd_of_valid l (c :: rest)).1 hend)

theorem next_append_cons (l : List Char) (c : Char) (rest : List Char) :
    Pos.Raw.next (ofList (l ++ c :: rest)) ⟨utf8Len l⟩ = ⟨utf8Len (l ++ [c])⟩ := by
  rw [next_of_valid, utf8Len_append, utf8Len_cons, utf8Len_nil, Nat.zero_add]

theorem splitOnAux_atEnd (l : List Char) (j : Pos.Raw) :
    splitOnAux (ofList l) "__" 0 ⟨utf8Len l⟩ j [] = [ofList l] := by
  have hend : Pos.Raw.atEnd (ofList l) ⟨utf8Len l⟩ = true := by simp
  rw [splitOnAux, if_pos hend]
  simpa using extract_of_valid [] l []

theorem splitOnAux_of_ne {s : String} {l rest : List Char} {c : Char} {i j : Pos.Raw}
    (hs : s = ofList (l ++ c :: rest)) (hi : i.unoffsetBy j = ⟨utf8Len l⟩) (hend : Pos.Raw.atEnd s i = false)
    (hne : Pos.Raw.get s i ≠ Pos.Raw.get "__" j) :
    splitOnAux s "__" 0 i j [] = splitOnAux s "__" 0 ⟨utf8Len (l ++ [c])⟩ 0 [] := by
  rw [splitOnAux, if_neg (Bool.eq_false_iff.1 hend), if_neg (by simpa using hne), hi, hs, next_append_cons]

theorem splitOnAux_eq_self (l r : List Char) (h : ¬['_', '_'] <:+: r) :
    splitOnAux (ofList (l ++ r)) "__" 0 ⟨utf8Len l⟩ 0 [] = [ofList (l ++ r)] := by
  induction r generalizing l with
  | nil =>
    rw [List.append_nil]
    exact splitOnAux_atEnd l 0
  | cons c rest ih =>
    have hrest : ¬['_', '_'] <:+: rest := fun hin => h (hin.trans (List.suffix_cons c rest).isInfix)
    have hstep := ih (l ++ [c]) hrest
    rw [List.append_assoc, List.singleton_append] at hstep
    have hend := atEnd_append_cons l c rest
    have hget : Pos.Raw.get (ofList (l ++ c :: rest)) ⟨utf8Len l⟩ = c := get_of_valid l (c :: rest)
    by_cases hc : c = '_'
    · -- One underscore has been passed: the text ends here, or goes on with another character.
      subst hc
      have hpassed : splitOnAux (ofList (l ++ '_' :: rest)) "__" 0 ⟨utf8Len l⟩ 0 [] =
          splitOnAux (ofList (l ++ '_' :: rest)) "__" 0 ⟨utf8Len (l ++ ['_'])⟩ ⟨1⟩ [] := by
        rw [splitOnAux, if_neg (Bool.eq_false_iff.1 hend), if_pos (by rw [hget]; rfl), next_append_cons]
        rfl
      rw [hpassed]
      cases rest with
      | nil => exact splitOnAux_atEnd (l ++ ['_']) ⟨1⟩
      | cons c' rest =>
        have hc' : c' ≠ '_' := by
          rintro rfl
          exact h ⟨[], rest, rfl⟩
        have hback : Pos.Raw.unoffsetBy ⟨utf8Len (l ++ ['_'])⟩ ⟨1⟩ = ⟨utf8Len l⟩ := by
          rw [utf8Len_append]
          exact Pos.Raw.ext (Nat.add_sub_cancel (utf8Len l) 1)
        have hends := atEnd_append_cons (l ++ ['_']) c' rest
        have hgets := get_of_valid (l ++ ['_']) (c' :: rest)
        rw [List.append_assoc, List.singleton_append] at hends hgets
        rw [splitOnAux_of_ne rfl hback hends (by rw [hgets]; exact hc'), hstep]
    · rw [splitOnAux_of_ne rfl rfl hend (by rw [hget]; exact hc), hstep]

theorem splitOn_eq_self {s : String} (h : ¬['_', '_'] <:+: s.toList) : s.splitOn "__" = [s] := by
  have hself := splitOnAux_eq_self [] s.toList h
  rw [List.nil_append, ofList_toList] at hself
  rw [splitOn, if_neg (by decide)]
  exact hself

end StreamCheck.Text
