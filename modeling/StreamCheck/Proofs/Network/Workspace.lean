import Mathlib.Data.List.GetD
import Mathlib.Data.List.Perm.Basic
import StreamCheck.Network.Workspace

/-! Changes of a workspace, and how what holds of all its graphs outlasts them. -/

namespace StreamCheck.Network.Workspace
open scoped List

theorem graph_modify {w : Workspace} {g : GraphId} (h : g < w.graphs.length) (f : Graph → Graph) :
    (w.modify g f).graph g = f (w.graph g) := by
  simp [graph, modify, List.getD_eq_getElem?_getD, h]

@[simp] theorem length_modify (w : Workspace) (g : GraphId) (f : Graph → Graph) :
    (w.modify g f).graphs.length = w.graphs.length := by
  rw [modify, List.length_modify]

theorem modify_modify (w : Workspace) (g : GraphId) (f f' : Graph → Graph) :
    (w.modify g f).modify g f' = w.modify g (f' ∘ f) := by
  simp [modify, List.modify_modify_eq]

theorem lt_of_contains {w : Workspace} {g : GraphId} {n : Node} (h : (w.graph g).contains n = true) :
    g < w.graphs.length := by
  rcases Nat.lt_or_ge g w.graphs.length with hg | hg
  · exact hg
  · rw [graph, List.getD_eq_default _ _ hg] at h
    exact absurd h (by simp [Graph.contains, default])

variable {w : Workspace} {P : GraphId → Graph → Prop}

theorem forall_graph_modify {g : GraphId} {f : Graph → Graph} (h : ∀ g, P g (w.graph g))
    (hf : P g (w.graph g) → P g (f (w.graph g))) (g' : GraphId) : P g' ((w.modify g f).graph g') := by
  by_cases hg : g = g'
  · subst hg
    by_cases hlt : g < w.graphs.length
    · rw [graph_modify hlt]
      exact hf (h g)
    · rw [Workspace.modify, List.modify_eq_self (Nat.le_of_not_lt hlt)]
      exact h g
  · have hgraph : (w.modify g f).graph g' = w.graph g' := by
      rw [graph, graph, Workspace.modify, List.getD_eq_getElem?_getD, List.getD_eq_getElem?_getD,
        List.getElem?_modify_ne _ _ hg]
    rw [hgraph]
    exact h g'

theorem forall_graph_append {new : Graph} (h : ∀ g, g ≠ w.graphs.length → P g (w.graph g))
    (hnew : P w.graphs.length new) (g : GraphId) :
    P g ({ w with graphs := w.graphs ++ [new] }.graph g) := by
  by_cases hg : g = w.graphs.length
  · subst hg
    simpa [graph] using hnew
  · have hgraph : { w with graphs := w.graphs ++ [new] }.graph g = w.graph g := by
      rw [graph, graph, List.getD_eq_getElem?_getD, List.getD_eq_getElem?_getD]
      obtain hlt | hgt := Nat.lt_or_gt_of_ne hg
      · rw [List.getElem?_append_left hlt]
      · rw [List.getElem?_eq_none (Nat.le_of_lt hgt), List.getElem?_eq_none]
        rwa [List.length_append, List.length_singleton]
    rw [hgraph]
    exact h g hg

theorem flatMap_modify_congr {α : Type} (g : GraphId) {f : Graph → Graph} (graphs : List Graph)
    {read : Graph → List α} (hf : ∀ graph, read (f graph) = read graph) :
    (graphs.modify g f).flatMap read = graphs.flatMap read := by
  induction graphs generalizing g with
  | nil => simp
  | cons graph graphs ih =>
    cases g with
    | zero => simp [hf]
    | succ g => simp [ih]

theorem flatMap_modify_perm {α : Type} {g : GraphId} {f : Graph → Graph} (hg : g < w.graphs.length)
    {read : Graph → List α} {a : α} (hf : read (f (w.graph g)) ~ a :: read (w.graph g)) :
    (w.modify g f).graphs.flatMap read ~ a :: w.graphs.flatMap read := by
  rw [graph, List.getD_eq_getElem _ _ hg] at hf
  have hsplit : w.graphs = w.graphs.take g ++ w.graphs[g] :: w.graphs.drop (g + 1) := by
    rw [List.getElem_cons_drop, List.take_append_drop]
  calc (w.modify g f).graphs.flatMap read
      _ = (w.graphs.take g).flatMap read ++
          (read (f w.graphs[g]) ++ (w.graphs.drop (g + 1)).flatMap read) := by
        rw [Workspace.modify, List.modify_eq_take_cons_drop hg, List.flatMap_append,
          List.flatMap_cons]
      _ ~ (w.graphs.take g).flatMap read ++
          (a :: (read w.graphs[g] ++ (w.graphs.drop (g + 1)).flatMap read)) :=
        .append_left _ (hf.append_right _)
      _ ~ a :: ((w.graphs.take g).flatMap read ++
          (read w.graphs[g] ++ (w.graphs.drop (g + 1)).flatMap read)) := List.perm_middle
      _ = a :: w.graphs.flatMap read := by
        rw [← List.flatMap_cons, ← List.flatMap_append, ← hsplit]

theorem freezeWithin_induction {Q : Workspace → Prop}
    (step : ∀ w g, Q w → Q (w.modify g fun graph => { graph with frozen := true })) (fuel : Nat)
    (g : GraphId) (h : Q w) : Q (freezeWithin fuel g w) := by
  induction fuel generalizing g w with
  | zero => exact h
  | succ fuel ih =>
    rw [freezeWithin]
    exact List.foldlRecOn _ _ (step w g h) fun w' h' inner _ => ih inner h'

theorem freeze_induction {Q : Workspace → Prop}
    (step : ∀ w g, Q w → Q (w.modify g fun graph => { graph with frozen := true })) (h : Q w)
    (g : GraphId) : Q (w.freeze g) :=
  freezeWithin_induction step w.depth g h

end StreamCheck.Network.Workspace
