import Mathlib.Data.List.Nodup
import StreamCheck.Network.Compilable
import StreamCheck.Proofs.Network.Producers

/-! Nesting ends where no graph contains itself: on the way to a nested graph no graph is met twice, so
there are no more levels than graphs. -/

namespace StreamCheck.Network
open Workspace

namespace Workspace
variable {w : Workspace} {g mid inner : GraphId} {place place' : List Node} {group : Node} {height : Nat}

/-! ### Places one after the other -/

theorem Within.trans (h : w.Within g place mid) (h' : w.Within mid place' inner) :
    w.Within g (place' ++ place) inner := by
  induction h' with
  | top => exact h
  | inside _ hmem hinner ih => exact ih.inside hmem hinner

theorem Within.split (h : w.Within g (place' ++ place) inner) :
    ∃ mid, w.Within g place mid ∧ w.Within mid place' inner := by
  induction place' generalizing inner with
  | nil => exact ⟨inner, h, .top⟩
  | cons group place' ih =>
    cases h with
    | inside h hmem hinner =>
      obtain ⟨mid, hmid, hrest⟩ := ih h
      exact ⟨mid, hmid, hrest.inside hmem hinner⟩

theorem Within.outermost (h : w.Within g place inner) : place = [] ∧ inner = g ∨
    ∃ place' group mid, place = place' ++ [group] ∧ group ∈ (w.graph g).nodes ∧
      group.inner? = some mid ∧ w.Within mid place' inner := by
  obtain rfl | ⟨place', group, rfl⟩ := List.eq_nil_or_concat place
  · cases h with
    | top => exact .inl ⟨rfl, rfl⟩
  · rw [List.concat_eq_append] at h ⊢
    obtain ⟨mid, hmid, hrest⟩ := h.split
    cases hmid with
    | inside htop hmem hinner =>
      cases htop with
      | top => exact .inr ⟨place', group, mid, rfl, hmem, hinner, hrest⟩

theorem Within.through (hmem : group ∈ (w.graph g).nodes) (hinner : group.inner? = some mid)
    (h : w.Within mid place inner) : w.Within g (place ++ [group]) inner :=
  (Within.inside .top hmem hinner).trans h

theorem Within.exists_of_mem (h : w.Within g place inner) (hgroup : group ∈ place) :
    ∃ above below mid, group.inner? = some mid ∧
      w.Within g (group :: above) mid ∧ w.Within mid below inner := by
  obtain ⟨below, above, rfl⟩ := List.append_of_mem hgroup
  obtain ⟨mid, hmid, hrest⟩ := h.split
  cases hmid with
  | inside hmid hmem hinner => exact ⟨above, below, mid, hinner, hmid.inside hmem hinner, hrest⟩

/-! ### No graph is met twice -/

theorem Grounded.inside (h : w.Grounded g) (hplace : w.Within g place mid) : w.Grounded mid :=
  fun _ inner hinner => h _ inner (hplace.trans hinner)

theorem Grounded.nodup (h : w.Grounded g) (hplace : w.Within g place inner) :
    (place.map Node.inner?).Nodup := by
  induction hplace with
  | top => exact List.nodup_nil
  | @inside place around inner group hplace hmem hinner ih =>
    refine List.nodup_cons.2 ⟨fun hmet => ?_, ih⟩
    obtain ⟨n, hn, heq⟩ := List.mem_map.1 hmet
    -- the graph in the group was entered before, so the way from there on is a circle
    obtain ⟨above, below, mid, hmid, habove, hbelow⟩ := hplace.exists_of_mem hn
    obtain rfl : mid = inner := Option.some.inj (hmid.symm.trans (heq.trans hinner))
    exact h _ mid habove ⟨group, below, hbelow.inside hmem hinner⟩

end Workspace

namespace Session
variable {s : Session} {g inner : GraphId} {place : List Node}

theorem Numbered.within_lt (h : s.Numbered) (hg : g < s.workspace.graphs.length)
    (hplace : s.workspace.Within g place inner) : inner < s.workspace.graphs.length := by
  cases hplace with
  | top => exact hg
  | inside hplace hmem hinner => exact h.inner_lt _ (h.member _ _ hmem) _ hinner

theorem Numbered.length_le (h : s.Numbered) (hg : s.workspace.Grounded g)
    (hplace : s.workspace.Within g place inner) : place.length ≤ s.workspace.graphs.length := by
  have hsubset : place.map Node.inner? ⊆ (List.range s.workspace.graphs.length).map some := by
    intro inner? hinner?
    obtain ⟨n, hn, rfl⟩ := List.mem_map.1 hinner?
    obtain ⟨above, below, mid, hmid, habove, -⟩ := hplace.exists_of_mem hn
    cases habove with
    | inside _ hmem hinner =>
      rw [hinner]
      exact List.mem_map_of_mem (List.mem_range.2 (h.inner_lt _ (h.member _ _ hmem) _ hinner))
  simpa using (hg.nodup hplace).length_le_of_subset hsubset

theorem Numbered.nestsWithin (h : s.Numbered) (hg : s.workspace.Grounded g) :
    s.workspace.NestsWithin s.workspace.depth g := by
  suffices hbelow : ∀ height place inner, s.workspace.Within g place inner →
      s.workspace.depth ≤ place.length + height → s.workspace.NestsWithin height inner from
    hbelow _ [] g .top (by simp)
  intro height
  induction height with
  | zero =>
    intro place inner hplace hdepth
    have hlength := h.length_le hg hplace
    rw [Workspace.depth] at hdepth
    omega
  | succ height ih =>
    intro place inner hplace hdepth n hn inner' hinner'
    exact ih _ inner' (hplace.inside hn hinner') (by rw [List.length_cons]; omega)

end Session

namespace Workspace
variable {w : Workspace} {g inner : GraphId} {place : List Node} {height : Nat}

/-! ### Nesting of a known height -/

theorem NestsWithin.length_lt (h : w.NestsWithin height g) (hplace : w.Within g place inner) :
    place.length < height := by
  suffices hheight : ∃ height', w.NestsWithin height' inner ∧ height = height' + place.length by
    obtain ⟨height', hinner, rfl⟩ := hheight
    cases height' with
    | zero => exact absurd hinner id
    | succ height' => omega
  induction hplace with
  | top => exact ⟨height, h, rfl⟩
  | inside _ hmem hinner ih =>
    obtain ⟨height', haround, rfl⟩ := ih
    cases height' with
    | zero => exact absurd haround id
    | succ height' => exact ⟨height', haround _ hmem _ hinner, by rw [List.length_cons]; omega⟩

/-- A circle could be gone round more often than there are levels. -/
theorem NestsWithin.grounded (h : w.NestsWithin height g) : w.Grounded g := by
  rintro place inner hplace ⟨group, circle, hcircle⟩
  have hrounds : ∀ k, ∃ place', w.Within g place' inner ∧ k ≤ place'.length := by
    intro k
    induction k with
    | zero => exact ⟨place, hplace, Nat.zero_le _⟩
    | succ k ih =>
      obtain ⟨place', hplace', hk⟩ := ih
      exact ⟨_, hplace'.trans hcircle, by simp; omega⟩
  obtain ⟨place', hplace', hlength⟩ := hrounds height
  exact Nat.not_lt_of_le hlength (h.length_lt hplace')

end Workspace
end StreamCheck.Network
