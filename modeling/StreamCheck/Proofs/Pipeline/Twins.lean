import StreamCheck.Proofs.Pipeline.Feasibility
import StreamCheck.Proofs.Pipeline.Verdicts

/-! Pipelines set against themselves. Where a query has one section, both groups of the model consist of it, each
with numbers of its own, and in every run they put out the same. -/

namespace StreamCheck.Smv

def Model.groups (m : Model) : List Nat := (m.parts.filter fun i => !i.parts.isEmpty).map Instance.id

end StreamCheck.Smv

namespace StreamCheck.Network.Workspace
open Smv
variable {w : Workspace} {s : Sizes} {g : GraphId}

theorem instances_ne_nil {fuel : Nat} {supply : Supply} {parts : List Instance}
    (h : instances w s fuel g supply = .ok parts) (hnodes : (w.graph g).nodes ≠ []) : parts ≠ [] := by
  cases fuel with
  | zero => nomatch h
  | succ fuel =>
    rintro rfl
    exact hnodes (List.forall₂_nil_right_iff.1 (mapM_eq_ok h))

theorem groups_compile {m : Model} (hm : w.compile s g = .ok m)
    (hnodes : ∀ n ∈ (w.graph g).nodes, ∀ inner, n.inner? = some inner → (w.graph inner).nodes ≠ []) :
    m.groups = ((w.graph g).nodes.filter fun n => n.inner?.isSome).map Node.id := by
  have hparts := (compile_eq_ok hm).2.1
  rw [Model.groups]
  generalize m.parts = parts at hparts
  cases hdepth : w.depth with
  | zero =>
    rw [hdepth] at hparts
    nomatch hparts
  | succ fuel =>
    rw [hdepth] at hparts
    have hall : List.Forall₂ (fun n i => instanceOf w s fuel (w.graph g) (pipeSupply (w.graph g)) n = .ok i)
        (w.graph g).nodes parts := mapM_eq_ok hparts
    -- the instances stand in the order of their nodes, so the two lists are filtered side by side
    generalize (w.graph g).nodes = nodes at hnodes hall
    clear hparts
    induction hall with
    | nil => rfl
    | @cons n i ns is hi _ ih =>
      obtain ⟨hid, -, -, hleaf, hgroup⟩ := instanceOf_eq_ok hi
      have hrest := ih fun n hn => hnodes n (List.mem_cons_of_mem _ hn)
      cases hinner : n.inner? with
      | none => simp [hinner, hleaf hinner, hrest]
      | some inner =>
        have hne := instances_ne_nil (hgroup inner hinner).1 (hnodes n List.mem_cons_self inner hinner)
        simp [hinner, hne, hid, hrest]

end StreamCheck.Network.Workspace

namespace StreamCheck.Pipeline
open Network Smv

theorem Junction.Stands.groups {w : Workspace} {s : Sizes} {g : GraphId} {J : Junction} {domain queue : Nat}
    {hd : 0 < domain} {hq : 0 < queue} {pipe : PipeId} {wiring : Wiring} {P Q : Plan} {b b' : Nat} {m : Model}
    (h : Stands w g J hd hq pipe wiring P Q b b') (hm : w.compile s g = .ok m) : m.groups = [J.left, J.right] := by
  rw [Workspace.groups_compile hm, h.outer]
  · cases wiring <;> rfl
  · intro n hn inner hinner
    rw [h.outer] at hn
    rcases inner?_cases hn hinner with ⟨rfl, rfl⟩ | ⟨rfl, rfl⟩
    · rw [h.left, (Plan.shows_enclosed _).nodes, ne_eq, List.map_eq_nil_iff]
      exact List.ne_nil_of_mem P.entry_member.1
    · rw [h.right, (Plan.shows_enclosed _).nodes, ne_eq, List.map_eq_nil_iff]
      exact List.ne_nil_of_mem Q.entry_member.1

section
variable {c : Configuration} {P : Plan} {w : Workspace} {compiled : CompiledGraph}

theorem IsModel.twins (h : IsModel c P P w compiled) {wiring : Wiring} (hwiring : c.wiring? = some wiring) :
    ∃ left right, compiled.model.groups = [left, right] ∧ left ≠ right ∧
      ∀ σ, compiled.model.IsRun σ → (σ.inside left).output 0 = (σ.inside right).output 0 := by
  have hstands : Junction.Stands _ _ _ _ _ _ _ P P _ _ := IsModel.stands (c := c) (w := w) wiring
  have hm := h.compile_eq hwiring
  refine ⟨_, _, hstands.groups hm, Junction.left_ne_right _, fun σ hσ => ?_⟩
  obtain ⟨hleft, houtl⟩ := hstands.left_course c.queue_pos hm hσ
  obtain ⟨hright, houtr⟩ := hstands.right_course c.queue_pos hm hσ
  rw [houtl, houtr]
  exact hleft.out_unique c.queue_pos hright

end

/-- A query with one section is equivalent to itself: under either equivalence the formula is true of its model,
and in every run the two groups of the model put out the same at every moment. -/
theorem plain_equivalent (c : Configuration) (hplain : isComparisonQuery c.query = false)
    (hproperty : c.property = Property.stepEquivalence.name ∨ c.property = Property.sequenceEquivalence.name)
    (hfeasible : Catalog.Feasible c) : Decides c True ∧
      ∀ archive archive' compiled, (modelOf c).run archive = .ok (some (.network compiled)) archive' →
        ∃ left right, compiled.model.groups = [left, right] ∧ left ≠ right ∧
          ∀ σ, compiled.model.IsRun σ → (σ.inside left).output 0 = (σ.inside right).output 0 := by
  obtain ⟨q, P, Q, hquery, hP, hQ⟩ := hfeasible.exists_plans
  rw [isComparisonQuery, hquery] at hplain
  obtain rfl : P = Q := by
    rw [Query.counterpart_eq_blueprint hplain, hP] at hQ
    exact Option.some.inj hQ
  have hsame : P.StepEquivalent P (sizesOf c) := Plan.stepEquivalent_self c.queue_pos P
  constructor
  · exact decides_of_stepEquivalent hquery hP hQ hsame hproperty
  · intro archive archive' compiled hrun
    obtain ⟨_, compiled', hrun', h⟩ := exists_isModel hquery hP hQ archive
    obtain ⟨rfl, -⟩ : compiled = compiled' ∧ _ := by
      rw [hrun'] at hrun
      cases hrun
      exact ⟨rfl, trivial⟩
    rcases hproperty with hstep | hsequence
    · exact h.twins (wiring?_stepEquivalence hstep)
    · exact h.twins (wiring?_sequenceEquivalence hsequence)

/-- The product of the first of every two events, against itself, with queues of one slot that drop events. -/
def lossyTwins : Configuration where
  query := Query.productOfFirst.name
  domain := 3
  queue := 1
  k := some 2
  property := Property.stepEquivalence.name
  domain_pos := Creator.pos_three
  queue_pos := Int.one_pos

theorem plain_equivalent_of_lossyTwins : isComparisonQuery lossyTwins.query = false ∧
    Catalog.Feasible lossyTwins ∧ Decides lossyTwins True ∧
      ∀ archive archive' compiled, (modelOf lossyTwins).run archive = .ok (some (.network compiled)) archive' →
        ∃ left right, compiled.model.groups = [left, right] ∧ left ≠ right ∧
          ∀ σ, compiled.model.IsRun σ → (σ.inside left).output 0 = (σ.inside right).output 0 := by
  have hfeasible : Catalog.Feasible lossyTwins :=
    Catalog.feasible_iff.2 ⟨.productOfFirst, by decide, rfl, by decide⟩
  exact ⟨rfl, hfeasible, plain_equivalent lossyTwins rfl (.inl rfl) hfeasible⟩

end StreamCheck.Pipeline
