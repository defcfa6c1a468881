import Mathlib.Data.Finset.Card
import Mathlib.Data.List.Forall2
import Mathlib.Data.List.Nodup

/-! General facts on lists, on tables that are read by key, and on runs in `Except` and `EStateM`. -/

namespace StreamCheck

section Lists
variable {α β γ δ : Type}

theorem forall_mem_of_all {p : α → Prop} [DecidablePred p] {l : List α} (h : l.all (fun a => decide (p a)) = true) :
    ∀ a ∈ l, p a :=
  fun a ha => of_decide_eq_true (List.all_eq_true.1 h a ha)

theorem map_eq_self {f : α → α} {l : List α} (h : ∀ a ∈ l, f a = a) : l.map f = l :=
  (List.map_congr_left h).trans (List.map_id l)

theorem find?_eq_some_of_unique {l : List α} {p : α → Bool} {a : α} (ha : a ∈ l)
    (hp : p a = true) (hu : ∀ b ∈ l, p b = true → b = a) : l.find? p = some a := by
  cases hf : l.find? p with
  | none => exact absurd hp (List.find?_eq_none.mp hf a ha)
  | some b => rw [hu b (List.mem_of_find?_eq_some hf) (List.find?_some hf)]

theorem findSome?_eq {g : α → Option β} {o : Option β} {l : List α} (h : ∀ a ∈ l, g a = none ∨ g a = o)
    (hsome : o.isSome → ∃ a ∈ l, g a = o) : l.findSome? g = o := by
  cases hfound : l.findSome? g with
  | none =>
    rw [List.findSome?_eq_none_iff] at hfound
    cases o with
    | none => rfl
    | some b =>
      obtain ⟨a, ha, hb⟩ := hsome rfl
      rw [hfound a ha] at hb
      nomatch hb
  | some b =>
    obtain ⟨a, ha, hb⟩ := List.exists_of_findSome?_eq_some hfound
    obtain hnone | ho := h a ha
    · rw [hb] at hnone
      nomatch hnone
    · rw [← hb, ho]

theorem mapM_filter_eq_some {l : List α} {p : α → Bool} {read g : α → Option β}
    (h : ∀ a ∈ l, if p a = true then read a = g a ∧ (g a).isSome = true else g a = none) :
    (l.filter p).mapM read = some (l.filterMap g) := by
  induction l with
  | nil => rfl
  | cons a l ih =>
    obtain ⟨ha, hl⟩ := List.forall_mem_cons.1 h
    cases hp : p a with
    | false =>
      rw [hp] at ha
      rw [List.filter_cons_of_neg (by simp [hp]), List.filterMap_cons_none ha, ih hl]
    | true =>
      rw [hp, if_pos rfl] at ha
      obtain ⟨b, hb⟩ := Option.isSome_iff_exists.1 ha.2
      rw [List.filter_cons_of_pos hp, List.mapM_cons, ha.1, hb, ih hl, List.filterMap_cons_some hb]
      rfl

theorem countP_range_lt {k q : Nat} (h : k ≤ q) :
    (List.range q).countP (fun i => decide (i < k)) = k := by
  obtain ⟨m, rfl⟩ := Nat.exists_eq_add_of_le h
  induction m with
  | zero => simp [List.countP_eq_length.mpr]
  | succ m ih =>
    rw [← Nat.add_assoc, List.range_succ, List.countP_append, ih (Nat.le_add_right k m)]
    simp

/-- There is one way to break a list where its elements stop to be of some sort. -/
theorem append_inj_of_break {p : α → Bool} {a a' b b' : List α} (ha : ∀ x ∈ a, p x = true)
    (ha' : ∀ x ∈ a', p x = true) (hb : ∀ x ∈ b.head?, p x = false) (hb' : ∀ x ∈ b'.head?, p x = false)
    (h : a ++ b = a' ++ b') : a = a' ∧ b = b' := by
  have hwhile {c d : List α} (hc : ∀ x ∈ c, p x = true) (hd : ∀ x ∈ d.head?, p x = false) :
      (c ++ d).takeWhile p = c := by
    rw [List.takeWhile_append_of_pos hc]
    cases d with
    | nil => exact List.append_nil c
    | cons x d => rw [List.takeWhile_cons_of_neg (by simp [hd x rfl]), List.append_nil]
  have hfirst : a = a' := by rw [← hwhile ha hb, h, hwhile ha' hb']
  exact ⟨hfirst, List.append_cancel_left (hfirst ▸ h)⟩

theorem isInfix_of_append {l a b : List α} {last : α} (h : l <:+: a ++ b) (hlast : l.getLast? = some last)
    (hb : last ∉ b) : l <:+: a := by
  have hmem {l : List α} (hl : l.getLast? = some last) : last ∈ l := List.mem_of_getLast? hl
  obtain ha | hb' | ⟨front, rest, rfl, hfront, hrest⟩ := List.infix_append_iff.1 h
  · exact ha
  · exact absurd (hb'.subset (hmem hlast)) hb
  -- what reaches over the seam has its last element behind it, unless nothing does
  · obtain rfl | hne := eq_or_ne rest []
    · rw [List.append_nil]
      exact hfront.isInfix
    · rw [List.getLast?_append_of_ne_nil _ hne] at hlast
      exact absurd (hrest.subset (hmem hlast)) hb

theorem exists_intercalate_eq {separator t : String} {ts : List String} (h : t ∈ ts) :
    ∃ before after, separator.intercalate ts = before ++ t ++ after := by
  induction ts with
  | nil => nomatch h
  | cons u us ih =>
    cases us with
    | nil =>
      obtain rfl := List.mem_singleton.1 h
      exact ⟨"", "", by rw [String.intercalate_singleton, String.empty_append, String.append_empty]⟩
    | cons v vs =>
      rw [String.intercalate_cons_cons]
      obtain rfl | h := List.mem_cons.1 h
      · exact ⟨"", separator ++ separator.intercalate (v :: vs), by rw [String.empty_append, String.append_assoc]⟩
      · obtain ⟨before, after, heq⟩ := ih h
        exact ⟨u ++ separator ++ before, after, by rw [heq]; simp only [String.append_assoc]⟩

theorem nodup_flatMap_of {l : List α} {f : α → List β} (hl : l.Nodup) (hf : ∀ a ∈ l, (f a).Nodup)
    (hapart : ∀ a ∈ l, ∀ a' ∈ l, ∀ b, b ∈ f a → b ∈ f a' → a = a') : (l.flatMap f).Nodup := by
  refine List.nodup_flatMap.2 ⟨hf, hl.imp_of_mem fun {a a'} ha ha' hne b hb hb' => hne ?_⟩
  exact hapart a ha a' ha' b hb hb'

theorem nodup_pairs {l : List α} {c d : α → β} (hl : l.Nodup) (hc : Function.Injective c)
    (hd : Function.Injective d) (hne : ∀ a a', c a ≠ d a') : (l.flatMap fun a => [c a, d a]).Nodup := by
  refine nodup_flatMap_of hl (fun a _ => List.nodup_cons.2 ⟨?_, List.nodup_singleton _⟩) ?_
  · exact fun hmem => hne a a (List.mem_singleton.1 hmem)
  · intro a _ a' _ b hb hb'
    rcases List.mem_pair.1 hb with rfl | rfl <;> rcases List.mem_pair.1 hb' with heq | heq
    · exact hc heq
    · exact absurd heq (hne a a')
    · exact absurd heq.symm (hne a' a)
    · exact hd heq

theorem eraseDups_of_nodup [BEq α] [LawfulBEq α] {l : List α} (h : l.Nodup) : l.eraseDups = l := by
  induction l with
  | nil => rfl
  | cons a l ih =>
    obtain ⟨ha, hl⟩ := List.nodup_cons.1 h
    have hkept : l.filter (fun b => !b == a) = l := by
      refine List.filter_eq_self.2 fun b hb => ?_
      rw [Bool.not_eq_true', beq_eq_false_iff_ne]
      rintro rfl
      exact ha hb
    rw [List.eraseDups_cons, hkept, ih hl]

theorem eraseDups_map [BEq α] [LawfulBEq α] [BEq β] [LawfulBEq β] {f : α → β} (hf : Function.Injective f)
    (l : List α) : (l.map f).eraseDups = l.eraseDups.map f := by
  induction hk : l.length using Nat.strongRecOn generalizing l with
  | _ k ih =>
    cases l with
    | nil => rfl
    | cons a l =>
      have hkept : (l.map f).filter (fun b => !b == f a) = (l.filter fun b => !b == a).map f := by
        rw [List.filter_map]
        refine congrArg (List.map f) (List.filter_congr fun b _ => ?_)
        rw [Function.comp_apply, Bool.eq_iff_iff]
        simp [hf.eq_iff]
      have hlt : (l.filter fun b => !b == a).length < k := by
        have hle := List.length_filter_le (fun b => !b == a) l
        rw [List.length_cons] at hk
        omega
      rw [List.map_cons, List.eraseDups_cons, List.eraseDups_cons, List.map_cons, hkept, ih _ hlt _ rfl]

theorem eraseDups_filterMap_map [BEq γ] [LawfulBEq γ] [BEq δ] [LawfulBEq δ] {move : α → β}
    {read : α → Option γ} {read' : β → Option δ} {f : γ → δ} (hf : Function.Injective f)
    (h : ∀ a, read' (move a) = (read a).map f) (l : List α) :
    ((l.map move).filterMap read').eraseDups = (l.filterMap read).eraseDups.map f := by
  rw [← eraseDups_map hf, List.filterMap_map, List.map_filterMap]
  exact congrArg List.eraseDups (List.filterMap_congr fun a _ => h a)

theorem card_toFinset_map [DecidableEq β] [DecidableEq γ] {f : α → β} {g : α → γ} {xs : List α}
    (h : ∀ x ∈ xs, ∀ y ∈ xs, f x = f y ↔ g x = g y) : (xs.map f).toFinset.card = (xs.map g).toFinset.card := by
  induction xs with
  | nil => rfl
  | cons x xs ih =>
    have hrest := ih fun y hy z hz => h y (List.mem_cons_of_mem _ hy) z (List.mem_cons_of_mem _ hz)
    have hseen : f x ∈ (xs.map f).toFinset ↔ g x ∈ (xs.map g).toFinset := by
      rw [List.mem_toFinset, List.mem_toFinset, List.mem_map, List.mem_map]
      exact exists_congr fun y => and_congr_right fun hy => h y (List.mem_cons_of_mem _ hy) x List.mem_cons_self
    rw [List.map_cons, List.map_cons, List.toFinset_cons, List.toFinset_cons, Finset.card_insert_eq_ite,
      Finset.card_insert_eq_ite, hrest]
    exact if_congr hseen rfl rfl

end Lists

section Tables
variable {α β γ δ : Type} [BEq α] [LawfulBEq α] [BEq γ] [LawfulBEq γ] {l : List (α × β)} {k : α} {v : β}

theorem mem_of_lookup_eq_some (h : l.lookup k = some v) : (k, v) ∈ l := by
  obtain ⟨l₁, l₂, rfl, -⟩ := List.lookup_eq_some_iff.1 h
  exact List.mem_append_right _ List.mem_cons_self

theorem lookup_cons_eq_ite [DecidableEq α] (x : α × β) (l : List (α × β)) (k : α) :
    (x :: l).lookup k = if k = x.1 then some x.2 else l.lookup k := by
  rw [List.lookup_cons]
  by_cases h : k = x.1
  · simp [h]
  · rw [beq_false_of_ne h, if_neg h]

theorem lookup_eq_none_iff_not_mem : l.lookup k = none ↔ k ∉ l.map Prod.fst := by
  rw [List.lookup_eq_none_iff]
  constructor
  · intro h hmem
    obtain ⟨x, hx, rfl⟩ := List.mem_map.1 hmem
    simpa using h x hx
  · intro h x hx
    have hne : k ≠ x.1 := fun heq => h (heq ▸ List.mem_map_of_mem hx)
    simpa using hne

theorem lookup_isSome_of_mem (h : (k, v) ∈ l) : (l.lookup k).isSome = true := by
  rw [← Bool.not_eq_false, Option.isSome_eq_false_iff, Option.isNone_iff_eq_none, lookup_eq_none_iff_not_mem]
  exact not_not_intro (List.mem_map_of_mem (f := Prod.fst) h)

theorem lookup_eq_some_of_mem (hnodup : (l.map Prod.fst).Nodup) (h : (k, v) ∈ l) : l.lookup k = some v := by
  classical
  induction l with
  | nil => nomatch h
  | cons x xs ih =>
    obtain ⟨hx, hxs⟩ := List.nodup_cons.1 hnodup
    rw [lookup_cons_eq_ite]
    obtain rfl | h := List.mem_cons.1 h
    · exact if_pos rfl
    · have hne : k ≠ x.1 := fun heq => hx (heq ▸ List.mem_map_of_mem (f := Prod.fst) h)
      rw [if_neg hne, ih hxs h]

theorem lookup_zip_of_mem {ks : List α} {vs : List β} (hnodup : ks.Nodup) (h : (k, v) ∈ ks.zip vs) :
    (ks.zip vs).lookup k = some v := by
  refine lookup_eq_some_of_mem ?_ h
  rw [List.zip_eq_zip_take_min, List.map_fst_zip (by rw [List.length_take, List.length_take]; omega)]
  exact hnodup.sublist (List.take_sublist _ _)

theorem lookup_filter_ne [DecidableEq α] (l : List (α × β)) (k k' : α) :
    (l.filter fun x => x.1 != k).lookup k' = if k' = k then none else l.lookup k' := by
  induction l with
  | nil => exact (ite_self none).symm
  | cons x l ih =>
    by_cases hx : x.1 = k
    · rw [List.filter_cons_of_neg (by simpa using hx), ih, lookup_cons_eq_ite]
      by_cases hk : k' = k
      · rw [if_pos hk, if_pos hk]
      · rw [if_neg hk, if_neg hk, if_neg (hx ▸ hk)]
    · rw [List.filter_cons_of_pos (by simpa using hx), lookup_cons_eq_ite, lookup_cons_eq_ite, ih]
      by_cases hk : k' = x.1
      · rw [if_pos hk, if_pos hk, hk, if_neg hx]
      · rw [if_neg hk, if_neg hk]

theorem lookup_reverse (h : (l.map Prod.fst).Nodup) : l.reverse.lookup k = l.lookup k := by
  classical
  induction l with
  | nil => rfl
  | cons x xs ih =>
    obtain ⟨hx, hxs⟩ := List.nodup_cons.1 h
    rw [List.reverse_cons, List.lookup_append, ih hxs, lookup_cons_eq_ite, lookup_cons_eq_ite, List.lookup_nil]
    by_cases hk : k = x.1
    · rw [hk, lookup_eq_none_iff_not_mem.2 hx, Option.none_or]
    · rw [if_neg hk, if_neg hk, Option.or_none]

theorem lookup_eq_find? (l : List (α × β)) (k : α) : l.lookup k = (l.find? (·.1 == k)).map Prod.snd := by
  classical
  induction l with
  | nil => rfl
  | cons x xs ih =>
    rw [lookup_cons_eq_ite, List.find?_cons, ih]
    by_cases hk : x.1 = k
    · simp [hk]
    · rw [if_neg (Ne.symm hk), beq_false_of_ne hk]

/-- A lookup under other names, where the names that are one are those of one key. -/
theorem lookup_map (name : α → γ) (value : β → δ) (h : ∀ x ∈ l, name x.1 = name k → x.1 = k) :
    (l.map fun x => (name x.1, value x.2)).lookup (name k) = (l.lookup k).map value := by
  classical
  induction l with
  | nil => rfl
  | cons x xs ih =>
    rw [List.map_cons, lookup_cons_eq_ite, lookup_cons_eq_ite, ih fun y hy => h y (List.mem_cons_of_mem x hy)]
    by_cases hk : k = x.1
    · rw [hk, if_pos rfl, if_pos rfl, Option.map_some]
    · have hname : name k ≠ name x.1 := fun heq => hk (h x List.mem_cons_self heq.symm).symm
      rw [if_neg hname, if_neg hk]

theorem lookup_filterMap {keys : List α} (value : α → Option β) (h : k ∈ keys) :
    (keys.filterMap fun a => (value a).map fun b => (a, b)).lookup k = value k := by
  classical
  induction keys with
  | nil => cases h
  | cons a rest ih =>
    have hrest (hk : k ≠ a) := ih (List.mem_of_ne_of_mem hk h)
    cases hv : value a with
    | some b =>
      rw [List.filterMap_cons, hv, Option.map_some, lookup_cons_eq_ite]
      by_cases hk : k = a
      · rw [if_pos hk, hk, hv]
      · rw [if_neg hk, hrest hk]
    | none =>
      rw [List.filterMap_cons, hv, Option.map_none]
      by_cases hk : k = a
      · rw [hk, hv, lookup_eq_none_iff_not_mem]
        intro hmem
        obtain ⟨x, hx, hxa⟩ := List.mem_map.1 hmem
        obtain ⟨a', -, ha'⟩ := List.mem_filterMap.1 hx
        obtain ⟨b, hb, rfl⟩ := Option.map_eq_some_iff.1 ha'
        rw [show a' = a from hxa, hv] at hb
        cases hb
      · exact hrest hk

omit [BEq α] [LawfulBEq α] in
theorem nodup_filterMap {keys : List α} (value : α → Option β) (h : keys.Nodup) :
    ((keys.filterMap fun a => (value a).map fun b => (a, b)).map Prod.fst).Nodup := by
  have hsub : ((keys.filterMap fun a => (value a).map fun b => (a, b)).map Prod.fst).Sublist keys := by
    clear h
    induction keys with
    | nil => exact .slnil
    | cons a rest ih =>
      cases hv : value a with
      | none =>
        rw [List.filterMap_cons, hv, Option.map_none]
        exact ih.cons a
      | some b =>
        rw [List.filterMap_cons, hv, Option.map_some]
        exact ih.cons_cons a
  exact h.sublist hsub

end Tables

section Except
variable {ε α α' β β' : Type}

theorem ok_bind (a : α) (f : α → Except ε β) : (.ok a >>= f) = f a := rfl

theorem bind_eq_ok_iff {x : Except ε α} {f : α → Except ε β} {b : β} :
    (x >>= f) = .ok b ↔ ∃ a, x = .ok a ∧ f a = .ok b := by
  cases x with
  | error e => exact ⟨fun h => (nomatch h), fun ⟨_, h, _⟩ => (nomatch h)⟩
  | ok a => exact ⟨fun h => ⟨a, rfl, h⟩, fun ⟨_, ha, h⟩ => Except.ok.inj ha ▸ h⟩

theorem bind_eq_error_iff {x : Except ε α} {f : α → Except ε β} {e : ε} :
    (x >>= f) = .error e ↔ x = .error e ∨ ∃ a, x = .ok a ∧ f a = .error e := by
  cases x with
  | error e' =>
    refine ⟨fun h => .inl (congrArg Except.error (Except.error.inj h)), ?_⟩
    rintro (h | ⟨_, h, -⟩)
    · exact congrArg Except.error (Except.error.inj h)
    · nomatch h
  | ok a =>
    refine ⟨fun h => .inr ⟨a, rfl, h⟩, ?_⟩
    rintro (h | ⟨_, ha, h⟩)
    · nomatch h
    · obtain rfl := Except.ok.inj ha
      exact h

theorem exists_eq_ok {x : Except ε α} (h : x.isOk = true) : ∃ a, x = .ok a := by
  cases x with
  | error e => nomatch h
  | ok a => exact ⟨a, rfl⟩

theorem map_eq_ok_iff {x : Except ε α} {f : α → β} {b : β} :
    f <$> x = .ok b ↔ ∃ a, x = .ok a ∧ f a = b := by
  cases x with
  | ok a =>
    have hmap : f <$> (.ok a : Except ε α) = .ok (f a) := rfl
    simp [hmap]
  | error e =>
    have hmap : f <$> (.error e : Except ε α) = .error e := rfl
    simp [hmap]

theorem exists_map_eq_ok_iff {x : Except ε α} {f : α → β} :
    (∃ b, f <$> x = .ok b) ↔ ∃ a, x = .ok a := by
  simp only [map_eq_ok_iff]
  exact ⟨fun ⟨_, a, ha, _⟩ => ⟨a, ha⟩, fun ⟨a, ha⟩ => ⟨f a, a, ha, rfl⟩⟩

theorem mapM_eq_ok {f : α → Except ε β} {l : List α} {l' : List β} (h : l.mapM f = .ok l') :
    List.Forall₂ (fun a b => f a = .ok b) l l' := by
  induction l generalizing l' with
  | nil =>
    obtain rfl := Except.ok.inj h
    exact .nil
  | cons a l ih =>
    rw [List.mapM_cons] at h
    obtain ⟨b, hb, h⟩ := bind_eq_ok_iff.1 h
    obtain ⟨bs, hbs, h⟩ := bind_eq_ok_iff.1 h
    obtain rfl := Except.ok.inj h
    exact .cons hb (ih hbs)

theorem exists_of_mem_mapM {f : α → Except ε β} {l : List α} {l' : List β} (h : l.mapM f = .ok l') {b : β}
    (hb : b ∈ l') : ∃ a ∈ l, f a = .ok b := by
  have hall := mapM_eq_ok h
  clear h
  induction hall with
  | nil => nomatch hb
  | @cons a b' l l' ha _ ih =>
    rcases List.mem_cons.1 hb with rfl | hb
    · exact ⟨a, List.mem_cons_self, ha⟩
    · obtain ⟨a', ha', hf⟩ := ih hb
      exact ⟨a', List.mem_cons_of_mem _ ha', hf⟩

theorem exists_mapM_eq_ok {f : α → Except ε β} {l : List α} :
    (∃ bs, l.mapM f = .ok bs) ↔ ∀ a ∈ l, ∃ b, f a = .ok b := by
  induction l with
  | nil => exact ⟨fun _ => List.forall_mem_nil _, fun _ => ⟨[], rfl⟩⟩
  | cons a l ih =>
    rw [List.forall_mem_cons, ← ih, List.mapM_cons]
    constructor
    · rintro ⟨bs, h⟩
      obtain ⟨b, hb, h⟩ := bind_eq_ok_iff.1 h
      obtain ⟨bs', hbs, -⟩ := bind_eq_ok_iff.1 h
      exact ⟨⟨b, hb⟩, bs', hbs⟩
    · rintro ⟨⟨b, hb⟩, bs, hbs⟩
      exact ⟨b :: bs, bind_eq_ok_iff.2 ⟨b, hb, bind_eq_ok_iff.2 ⟨bs, hbs, rfl⟩⟩⟩

theorem exists_of_mapM_eq_error {f : α → Except ε β} {l : List α} {e : ε}
    (h : l.mapM f = .error e) : ∃ a ∈ l, f a = .error e := by
  induction l with
  | nil => nomatch h
  | cons a l ih =>
    rw [List.mapM_cons] at h
    obtain h | ⟨b, -, h⟩ := bind_eq_error_iff.1 h
    · exact ⟨a, List.mem_cons_self, h⟩
    · obtain h | ⟨bs, -, h⟩ := bind_eq_error_iff.1 h
      · obtain ⟨a', ha', h⟩ := ih h
        exact ⟨a', List.mem_cons_of_mem _ ha', h⟩
      · nomatch h

theorem mapM_eq_map {f : α → Except ε β} {g : α → β} {l : List α} (h : ∀ a ∈ l, f a = .ok (g a)) :
    l.mapM f = .ok (l.map g) := by
  induction l with
  | nil => rfl
  | cons a l ih =>
    rw [List.mapM_cons, h a List.mem_cons_self, ok_bind, ih fun b hb => h b (List.mem_cons_of_mem a hb)]
    rfl

theorem mapM_congr {f f' : α → Except ε β} {l : List α} (h : ∀ a ∈ l, f a = f' a) : l.mapM f = l.mapM f' := by
  induction l with
  | nil => rfl
  | cons a l ih =>
    rw [List.mapM_cons, List.mapM_cons, h a List.mem_cons_self, ih fun b hb => h b (List.mem_cons_of_mem _ hb)]

theorem mapM_map_eq_ok {f : α → Except ε β} {f' : α' → Except ε β'} {move : α → α'} {move' : β → β'} {l : List α}
    {l' : List β} (hl : l.mapM f = .ok l') (h : ∀ a ∈ l, ∀ b, f a = .ok b → f' (move a) = .ok (move' b)) :
    (l.map move).mapM f' = .ok (l'.map move') := by
  have hall := mapM_eq_ok hl
  clear hl
  induction hall with
  | nil => rfl
  | @cons a b l l' hab htail ih =>
    rw [List.map_cons, List.mapM_cons, h a List.mem_cons_self b hab, ih fun a' ha' => h a' (List.mem_cons_of_mem _ ha')]
    rfl

theorem forM_eq_ok_iff {f : α → Except ε Unit} {l : List α} : l.forM f = .ok () ↔ ∀ a ∈ l, f a = .ok () := by
  induction l with
  | nil => exact ⟨fun _ => List.forall_mem_nil _, fun _ => rfl⟩
  | cons a l ih =>
    rw [List.forall_mem_cons, ← ih, List.forM, bind_eq_ok_iff]
    exact ⟨fun ⟨_, ha, hl⟩ => ⟨ha, hl⟩, fun ⟨ha, hl⟩ => ⟨(), ha, hl⟩⟩

theorem exists_of_forM_eq_error {f : α → Except ε Unit} {l : List α} {e : ε}
    (h : l.forM f = .error e) : ∃ a ∈ l, f a = .error e := by
  induction l with
  | nil => nomatch h
  | cons a l ih =>
    obtain h | ⟨_, -, h⟩ := bind_eq_error_iff.1 h
    · exact ⟨a, List.mem_cons_self, h⟩
    · obtain ⟨a', ha', h⟩ := ih h
      exact ⟨a', List.mem_cons_of_mem _ ha', h⟩

theorem forM_congr {f f' : α → Except ε Unit} {l : List α} (h : ∀ a ∈ l, f a = f' a) : l.forM f = l.forM f' := by
  induction l with
  | nil => rfl
  | cons a l ih =>
    rw [List.forM, List.forM, h a List.mem_cons_self, ih fun b hb => h b (List.mem_cons_of_mem _ hb)]

theorem foldlM_concat_of_ok {step : β → α → Except ε β} {l : List α} {b₀ b : β}
    (h : l.foldlM step b₀ = .ok b) (a : α) : (l ++ [a]).foldlM step b₀ = step b a := by
  rw [List.foldlM_append, h]
  exact bind_pure (step b a)

end Except

section EStateM
variable {ε σ α β : Type} {x : EStateM ε σ α} {g : α → EStateM ε σ β} {s s' : σ}

theorem run_bind_ok {a : α} (h : x.run s = .ok a s') : (x >>= g).run s = (g a).run s' := by
  rw [EStateM.run_bind, h]

theorem run_bind_error {e : ε} (h : x.run s = .error e s') : (x >>= g).run s = .error e s' := by
  rw [EStateM.run_bind, h]

theorem exists_of_run_bind {b : β} (h : (x >>= g).run s = .ok b s') :
    ∃ a t, x.run s = .ok a t ∧ (g a).run t = .ok b s' := by
  rw [EStateM.run_bind] at h
  cases hx : x.run s with
  | ok a t => exact ⟨a, t, rfl, by rwa [hx] at h⟩
  | error e t => simp [hx] at h

variable {f : α → EStateM ε σ β} {xs : List α} {kind : σ → Prop}

/-- Steps that end well from every state of a kind, and stay within it, end well in a row. What one of them achieves is
not undone by those that follow. -/
theorem exists_mapM_run (leads : σ → σ → Prop) (achieves : σ → α → β → Prop) (hrefl : ∀ s, leads s s)
    (htrans : ∀ s t u, leads s t → leads t u → leads s u)
    (hkeep : ∀ s t a b, leads s t → achieves s a b → achieves t a b)
    (hstep : ∀ a ∈ xs, ∀ s, kind s → ∃ b t, (f a).run s = .ok b t ∧ kind t ∧ leads s t ∧ achieves t a b)
    (hs : kind s) : ∃ bs t, (xs.mapM f).run s = .ok bs t ∧ kind t ∧ leads s t ∧ List.Forall₂ (achieves t) xs bs := by
  induction xs generalizing s with
  | nil => exact ⟨[], s, rfl, hs, hrefl s, .nil⟩
  | cons a xs ih =>
    obtain ⟨b, t, hrun, ht, hlead, hachieved⟩ := hstep a List.mem_cons_self s hs
    obtain ⟨bs, u, hruns, hu, hlead', hall⟩ := ih (fun x hx => hstep x (List.mem_cons_of_mem _ hx)) ht
    refine ⟨b :: bs, u, ?_, hu, htrans s t u hlead hlead', .cons (hkeep t u a b hlead' hachieved) hall⟩
    rw [List.mapM_cons, run_bind_ok hrun]
    exact run_bind_ok hruns

theorem exists_mapM_run_of_step {achieves : α → β → Prop}
    (hstep : ∀ a ∈ xs, ∀ s, kind s → ∃ b t, (f a).run s = .ok b t ∧ kind t ∧ achieves a b) (hs : kind s) :
    ∃ bs t, (xs.mapM f).run s = .ok bs t ∧ kind t ∧ List.Forall₂ achieves xs bs := by
  have hstep' : ∀ a ∈ xs, ∀ s, kind s → ∃ b t, (f a).run s = .ok b t ∧ kind t ∧ True ∧ achieves a b := by
    intro a ha s hs
    obtain ⟨b, t, hrun, ht, hachieved⟩ := hstep a ha s hs
    exact ⟨b, t, hrun, ht, trivial, hachieved⟩
  obtain ⟨bs, t, hruns, ht, -, hall⟩ := exists_mapM_run (fun _ _ => True) (fun _ => achieves) (fun _ => trivial)
    (fun _ _ _ _ _ => trivial) (fun _ _ _ _ _ => id) hstep' hs
  exact ⟨bs, t, hruns, ht, hall⟩

end EStateM

end StreamCheck
