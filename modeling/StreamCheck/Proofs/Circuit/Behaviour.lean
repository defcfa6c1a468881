import StreamCheck.Proofs.Circuit.Settled

/-! What each kind of node does with its events is settled, and keeps to names of its own. -/

namespace StreamCheck.Network
open Smv

namespace Circuit
open Queue

theorem settled_register {n : Name} (hn : n.rank = 0) (type : Scalar) (v : Int) (u : Update) :
    ({ declarations := [⟨n, .scalar type⟩]
       assigns := [starts ⟨n, none⟩ (.num v), becomes ⟨n, none⟩ u] } : Circuit).Settled where
  define_unique _ hd := absurd hd List.not_mem_nil
  assign_unique := by simp [starts, becomes]
  timed := by simp [starts, becomes]
  define_rank _ hd := absurd hd List.not_mem_nil
  assign_rank := by simp [starts, becomes, hn]
  graded _ hd := absurd hd List.not_mem_nil
  first_constant := by
    intro a ha hfirst s s'
    simp only [List.mem_cons, List.not_mem_nil, or_false] at ha
    rcases ha with rfl | rfl
    · rfl
    · cases hfirst

theorem settled_countUpTo (last : Int) : (countUpTo last).Settled := settled_register rfl _ 0 _

theorem settled_countModulo (limit : Int) : (countModulo limit).Settled := settled_register rfl _ 0 _

theorem settled_cumulate (s : Sizes) (f : Fold) : (cumulate s f).Settled where
  define_unique := by simp [cumulate, output]
  assign_unique := by simp [cumulate, starts, becomes]
  timed := by simp [cumulate, starts, becomes]
  define_rank := by simp [cumulate, output, Name.rank]
  assign_rank := by simp [cumulate, starts, becomes, Name.rank]
  graded := by
    simp [cumulate, output, Fold.combine, front, ready, Name.rank]
  first_constant := by
    intro a ha hfirst s s'
    simp only [cumulate, List.mem_cons, List.not_mem_nil, or_false] at ha
    rcases ha with rfl | rfl | rfl | rfl
    · rfl
    · rfl
    · cases hfirst
    · cases hfirst

theorem below_combine {f : Fold} {d : Int} {a b : Expr} {k : Nat} :
    (f.combine d a b).Below k ↔ a.Below k ∧ b.Below k := by
  simp [Fold.combine]

theorem below_foldl_combine {f : Fold} {d : Int} {es : List Expr} {e : Expr} {k : Nat} (he : e.Below k)
    (hes : ∀ e ∈ es, e.Below k) : (es.foldl (f.combine d) e).Below k := by
  induction es generalizing e with
  | nil => exact he
  | cons x xs ih =>
    obtain ⟨hx, hxs⟩ := List.forall_mem_cons.1 hes
    exact ih (below_combine.2 ⟨he, hx⟩) hxs

theorem front_below (j : Nat) : (front j).Below 3 := by
  simp [front, Name.rank]

theorem ready_below : ready.Below 3 := by
  simp [ready, Name.rank]

theorem readyAt_below (i : Int) : (readyAt i).Below 3 := by
  simp [readyAt, both, ready, counter, Name.rank]

theorem mem_assigns_windowSlots {kept : Nat} {a : Assign} :
    a ∈ (List.range kept).flatMap (fun i => [starts ⟨.window, some i⟩ (.num 0),
        becomes ⟨.window, some i⟩ (nextWindowSlot kept i)]) ↔
      ∃ i < kept, a = starts ⟨.window, some i⟩ (.num 0) ∨
        a = becomes ⟨.window, some i⟩ (nextWindowSlot kept i) := by
  simp only [List.mem_flatMap, List.mem_range, List.mem_cons, List.not_mem_nil, or_false]

theorem settled_windowSlots (kept : Nat) :
    ({ assigns := (List.range kept).flatMap fun i => [starts ⟨.window, some i⟩ (.num 0),
        becomes ⟨.window, some i⟩ (nextWindowSlot kept i)] } : Circuit).Settled where
  define_unique _ hd := absurd hd List.not_mem_nil
  assign_unique := by
    intro a ha b hb hcell htiming
    obtain ⟨i, -, rfl | rfl⟩ := mem_assigns_windowSlots.mp ha <;>
      obtain ⟨i', -, rfl | rfl⟩ := mem_assigns_windowSlots.mp hb <;> simp_all [starts, becomes]
  timed := by
    intro a ha
    obtain ⟨i, -, rfl | rfl⟩ := mem_assigns_windowSlots.mp ha <;> simp [starts, becomes]
  define_rank _ hd := absurd hd List.not_mem_nil
  assign_rank := by
    intro a ha
    obtain ⟨i, -, rfl | rfl⟩ := mem_assigns_windowSlots.mp ha <;> rfl
  graded _ hd := absurd hd List.not_mem_nil
  first_constant := by
    intro a ha hfirst s s'
    obtain ⟨i, -, rfl | rfl⟩ := mem_assigns_windowSlots.mp ha
    · rfl
    · cases hfirst

theorem names_countUpTo {last : Int} {n : Name} (h : n ∈ (countUpTo last).names) : n = .counter := by
  simpa [names, countUpTo, starts, becomes, counterCell] using h

theorem names_output {p : Nat} {value fire : Expr} {n : Name}
    (h : n ∈ ({ defines := output p value fire } : Circuit).names) :
    n = .outValue p ∨ n = .outFire p := by
  simpa [names, output] using h

theorem names_windowSlots {kept : Nat} {n : Name}
    (h : n ∈ ({ assigns := (List.range kept).flatMap fun i => [starts ⟨.window, some i⟩ (.num 0),
        becomes ⟨.window, some i⟩ (nextWindowSlot kept i)] } : Circuit).names) : n = .window := by
  obtain ⟨a, ha, rfl⟩ := List.mem_map.mp h
  obtain ⟨i, -, rfl | rfl⟩ := mem_assigns_windowSlots.mp ha <;> rfl

theorem settled_declarations (ds : List Declaration) :
    ({ declarations := ds } : Circuit).Settled := by
  constructor <;> exact fun _ h => absurd h List.not_mem_nil

theorem settled_window (s : Sizes) (f : Fold) (width : Nat) : (window s f width).Settled := by
  unfold window
  split
  · exact settled_output (front_below 0) ready_below
  · have hslot (i : Nat) : (windowSlot i).Below 3 := by simp [windowSlot, Name.rank]
    have hfolded : (((List.range (width - 1 - 1)).map (fun i => windowSlot (i + 1)) ++
        [front 0]).foldl (f.combine s.domain) (windowSlot 0)).Below 3 := by
      refine below_foldl_combine (hslot 0) fun e he => ?_
      obtain he | he := List.mem_append.1 he
      · obtain ⟨i, -, rfl⟩ := List.mem_map.1 he
        exact hslot (i + 1)
      · obtain rfl := List.mem_singleton.1 he
        exact front_below 0
    -- the counter, the slots and the output have no name in common
    refine Settled.append (Settled.append (Settled.append (settled_declarations _)
      (settled_countUpTo _) ?_) (settled_windowSlots _) ?_) (settled_output hfolded (readyAt_below _)) ?_
    · simp [names]
    · intro n hn hw
      obtain rfl := names_windowSlots hw
      rcases (names_append _ _ _).mp hn with h | h
      · simp [names] at h
      · cases names_countUpTo h
    · intro n hn ho
      rcases (names_append _ _ _).mp hn with h | h
      · rcases (names_append _ _ _).mp h with h | h
        · simp [names] at h
        · obtain rfl := names_countUpTo h
          simpa using names_output ho
      · obtain rfl := names_windowSlots h
        simpa using names_output ho

theorem names_window {s : Sizes} {f : Fold} {width : Nat} {n : Name}
    (h : n ∈ (window s f width).names) :
    n = .outValue 0 ∨ n = .outFire 0 ∨ n = .counter ∨ n = .window := by
  unfold window at h
  split at h
  · rcases names_output h with rfl | rfl <;> simp
  · rcases (names_append _ _ _).mp h with h | h
    · rcases (names_append _ _ _).mp h with h | h
      · rcases (names_append _ _ _).mp h with h | h
        · simp [names] at h
        · simp [names_countUpTo h]
      · simp [names_windowSlots h]
    · rcases names_output h with rfl | rfl <;> simp

theorem determined_register (n : Name) (type : Scalar) (e : Expr) (u : Update) :
    ({ declarations := [⟨n, .scalar type⟩]
       assigns := [starts ⟨n, none⟩ e, becomes ⟨n, none⟩ u] } : Circuit).Determined := by
  intro d hd x hx timing ht
  obtain rfl := List.mem_singleton.mp hd
  obtain rfl := List.mem_singleton.mp hx
  rcases ht with rfl | rfl
  · exact ⟨_, List.mem_cons_self, rfl, rfl⟩
  · exact ⟨_, List.mem_cons_of_mem _ List.mem_cons_self, rfl, rfl⟩

theorem determined_window (s : Sizes) (f : Fold) (width : Nat) : (window s f width).Determined := by
  unfold window
  split
  · exact determined_of_declarations_nil rfl
  · -- the declaration of the slots stands in front of the counter, their assignments behind it
    intro d hd x hx timing ht
    rcases List.mem_cons.mp hd with rfl | hd
    · obtain ⟨i, hi, rfl⟩ := List.mem_map.mp hx
      have hi : i < width - 1 := List.mem_range.mp hi
      rcases ht with rfl | rfl
      · exact ⟨_, List.mem_append_left _ (List.mem_append_right _
          (mem_assigns_windowSlots.mpr ⟨i, hi, .inl rfl⟩)), rfl, rfl⟩
      · exact ⟨_, List.mem_append_left _ (List.mem_append_right _
          (mem_assigns_windowSlots.mpr ⟨i, hi, .inr rfl⟩)), rfl, rfl⟩
    · obtain ⟨a, ha, hcell⟩ := determined_register .counter _ _ _ d hd x hx timing ht
      exact ⟨a, List.mem_append_left _ (List.mem_append_left _ (List.mem_append_right _ ha)), hcell⟩

theorem settled_fork (n : Nat) :
    ({ defines := (List.range n).flatMap fun p => output p (front 0) ready } : Circuit).Settled := by
  refine settled_defines ?_ ?_ ?_
  · rw [List.map_flatMap, List.nodup_flatMap]
    refine ⟨by simp [output], (List.nodup_range).imp ?_⟩
    intro p p' hne x hx hx'
    simp only [output, List.map_cons, List.map_nil, List.mem_cons, List.not_mem_nil, or_false] at hx hx'
    rcases hx with rfl | rfl <;> simp_all
  · intro d hd
    obtain ⟨p, -, hd⟩ := List.mem_flatMap.mp hd
    simp only [output, List.mem_cons, List.not_mem_nil, or_false] at hd
    rcases hd with rfl | rfl <;> simp [Name.rank]
  · intro d hd
    obtain ⟨p, -, hd⟩ := List.mem_flatMap.mp hd
    simp only [output, List.mem_cons, List.not_mem_nil, or_false] at hd
    rcases hd with rfl | rfl
    · exact front_below 0
    · exact ready_below

theorem settled_behaviour {s : Sizes} {k : Kind} {b : Circuit} (h : behaviour s k = .ok b) :
    b.Settled := by
  cases k with
  | bare _ _ | group _ _ _ => cases h
  | passthrough _ =>
    cases h
    exact settled_output (front_below 0) ready_below
  | filter _ =>
    cases h
    refine settled_output (front_below 0) ?_
    simp [both, ready, front, Name.rank]
  | trim count _ =>
    cases h
    exact (settled_countUpTo _).append (settled_output (front_below 0) (readyAt_below _))
      (by simp [names, countUpTo, output, starts, becomes, counterCell])
  | decimate interval _ _ =>
    cases h
    exact (settled_countModulo _).append (settled_output (front_below 0) (readyAt_below _))
      (by simp [names, countModulo, output, starts, becomes, counterCell])
  | fork n _ _ =>
    cases h
    exact settled_fork n
  | constant v _ =>
    obtain ⟨e, he, rfl⟩ := behaviour_constant_eq_ok.mp h
    obtain ⟨b, rfl⟩ | ⟨n, rfl⟩ := literal_eq_ok he <;>
      exact settled_output (by simp) ready_below
  | apply op _ =>
    cases h
    refine settled_output ?_ ready_below
    cases op <;> simp [Operator.combine, Fold.combine, front, Name.rank]
  | cumulate f => cases h; exact settled_cumulate s f
  | window _ f width _ => cases h; exact settled_window s f width

theorem owner_of_mem_names {s : Sizes} {k : Kind} {b : Circuit} (h : behaviour s k = .ok b)
    {n : Name} (hn : n ∈ b.names) : n.owner = .behaviour := by
  have houtput : ∀ {p value fire}, n ∈ ({ defines := output p value fire } : Circuit).names →
      n.owner = .behaviour := by
    intro p value fire hn
    rcases names_output hn with rfl | rfl <;> rfl
  cases k with
  | bare _ _ | group _ _ _ => cases h
  | passthrough _ | filter _ | apply _ _ =>
    cases h
    exact houtput hn
  | trim count _ =>
    cases h
    rcases (names_append _ _ n).mp hn with hn | hn
    · rw [names_countUpTo hn]
      rfl
    · exact houtput hn
  | decimate interval _ _ =>
    cases h
    rcases (names_append _ _ n).mp hn with hn | hn
    · obtain rfl : n = .counter := by
        simpa [names, countModulo, starts, becomes, counterCell] using hn
      rfl
    · exact houtput hn
  | fork arity _ _ =>
    cases h
    rw [names, List.map_nil, List.append_nil, List.map_flatMap] at hn
    obtain ⟨p, -, hn⟩ := List.mem_flatMap.mp hn
    simp only [output, List.map_cons, List.map_nil, List.mem_cons, List.not_mem_nil, or_false] at hn
    rcases hn with rfl | rfl <;> rfl
  | constant v _ =>
    obtain ⟨e, he, rfl⟩ := behaviour_constant_eq_ok.mp h
    exact houtput hn
  | cumulate f =>
    cases h
    simp only [names, cumulate, output, starts, becomes, List.map_cons, List.map_nil,
      List.cons_append, List.nil_append, List.mem_cons, List.not_mem_nil, or_false] at hn
    rcases hn with rfl | rfl | rfl | rfl | rfl | rfl <;> rfl
  | window _ f width _ =>
    cases h
    rcases names_window hn with rfl | rfl | rfl | rfl <;> rfl

theorem determined_behaviour {s : Sizes} {k : Kind} {b : Circuit} (h : behaviour s k = .ok b) :
    b.Determined := by
  cases k with
  | bare _ _ | group _ _ _ => cases h
  | passthrough _ | filter _ | apply _ _ | fork _ _ _ =>
    cases h
    exact determined_of_declarations_nil rfl
  | trim count _ | decimate interval _ _ =>
    cases h
    exact (determined_register _ _ _ _).append (determined_of_declarations_nil rfl)
  | constant v _ =>
    obtain ⟨e, he, rfl⟩ := behaviour_constant_eq_ok.mp h
    exact determined_of_declarations_nil rfl
  | cumulate f =>
    cases h
    intro d hd x hx timing ht
    simp only [cumulate, List.mem_cons, List.not_mem_nil, or_false] at hd
    rcases hd with rfl | rfl <;> obtain rfl := List.mem_singleton.mp hx <;>
      rcases ht with rfl | rfl <;> simp [cumulate, starts, becomes]
  | window _ f width _ =>
    cases h
    exact determined_window s f width

end Circuit

end StreamCheck.Network
