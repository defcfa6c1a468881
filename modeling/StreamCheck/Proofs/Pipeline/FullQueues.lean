import StreamCheck.Proofs.Pipeline.Fullness
import StreamCheck.Proofs.Pipeline.Sums

/-! In which pipelines a queue can get full: in the product of the first events of every so many, which falls
further and further behind, and in the sums of trimmed streams if their queues have one slot. -/

namespace StreamCheck.Pipeline
open Network Creator

theorem Query.name_injective : Function.Injective Query.name := by
  intro q q' h
  have hsame := congrArg Query.ofName? h
  rw [Query.ofName?_name, Query.ofName?_name] at hsame
  exact Option.some.inj hsame

section
variable {q : Query} {domain : Nat} {shape : Option Int} {s : Sizes} {P Q : Plan}

theorem Query.Draft.roomy (h : q.Draft domain shape P) (hq : 0 < s.queue)
    (hfirst : q = .productOfFirst → effective shape defaultShape = 1)
    (hsums : q = .compareWindowSum2 ∨ q = .compareWindowSum3 → 1 < s.queue) : P.Roomy s := by
  cases h with
  | trimSum2 => exact Plan.roomy_trimSum2 (hsums (.inl rfl))
  | trimSum3 => exact Plan.roomy_trimSum3 (hsums (.inr rfl))
  | productOfFirst => exact Plan.roomy_of_isSteady hq (Plan.isSteady_productOfFirst (hfirst rfl))
  | sumOfOnes => exact Plan.roomy_of_isSteady hq Plan.isSteady_sumOfOnes
  | sumOfDoubles => exact Plan.roomy_of_isSteady hq Plan.isSteady_sumOfDoubles
  | outputIfSmaller => exact Plan.roomy_of_isSteady hq Plan.isSteady_outputIfSmaller
  | _ => exact Plan.roomy_of_isSteady hq Plan.isSteady_single

theorem Query.cramped_counterpart (hd : 0 < s.domain) (hq : 0 < s.queue) (hQ : q.counterpart domain shape = some Q)
    (h : (q = productOfFirst ∧ 2 ≤ effective shape defaultShape) ∨
      ((q = compareWindowSum2 ∨ q = compareWindowSum3) ∧ s.queue = 1)) : Q.Cramped s := by
  rcases h with ⟨rfl, htwo⟩ | ⟨rfl | rfl, hone⟩ <;> obtain rfl := Option.some.inj hQ
  · exact Plan.cramped_productOfFirst hd hq htwo
  · exact Plan.cramped_trimSum2 hd hone
  · exact Plan.cramped_trimSum3 hd hone

end

/-- In the pipeline of a configuration no queue is ever full, unless it is that of the product of the first
events of every `k`, with `k` at least two, or of a comparison of window sums with queues of one slot. -/
theorem noFullQueues_decided (c : Configuration) (hproperty : c.property = Property.noFullQueues.name)
    (hfeasible : Catalog.Feasible c) : Decides c
      (¬ (c.query = Query.productOfFirst.name ∧ 2 ≤ effective c.shape defaultShape) ∧
        ¬ ((c.query = Query.compareWindowSum2.name ∨ c.query = Query.compareWindowSum3.name) ∧ c.queue = 1)) := by
  obtain ⟨q, P, Q, hquery, hP, hQ⟩ := hfeasible.exists_plans
  rw [← Query.name_of_ofName? hquery]
  simp only [Query.name_injective.eq_iff]
  -- a stream that fills a queue in the exceptions, room for every stream otherwise
  by_cases hcramped : (q = .productOfFirst ∧ 2 ≤ effective c.shape defaultShape) ∨
      ((q = .compareWindowSum2 ∨ q = .compareWindowSum3) ∧ c.queue = 1)
  · refine (decides_of_cramped hquery hP hQ hproperty ?_).congr ?_
    · exact Query.cramped_counterpart (s := sizesOf c) c.domain_pos c.queue_pos hQ hcramped
    · rw [← not_or]
      exact (iff_false_intro (not_not_intro hcramped)).symm
  · have hfirst (hq : q = .productOfFirst) : effective c.shape defaultShape = 1 := by
      have hpos := effective_pos c.shape defaultShape_pos
      have hsmall : ¬ 2 ≤ effective c.shape defaultShape := fun htwo => hcramped (.inl ⟨hq, htwo⟩)
      omega
    have hsums (hq : q = .compareWindowSum2 ∨ q = .compareWindowSum3) : 1 < c.queue := by
      have hpos := c.queue_pos
      have hmany : c.queue ≠ 1 := fun hone => hcramped (.inr ⟨hq, hone⟩)
      omega
    refine (decides_of_roomy hquery hP hQ hproperty ?_ ?_).congr ?_
    · exact (Query.draft_of_blueprint hP).roomy (s := sizesOf c) c.queue_pos hfirst hsums
    · exact (Query.draft_of_counterpart hQ).roomy (s := sizesOf c) c.queue_pos hfirst hsums
    · rw [← not_or]
      exact (iff_true_intro hcramped).symm

/-- A comparison of window sums over two numbers, with queues of one slot. -/
def narrowSums : Configuration where
  query := Query.compareWindowSum2.name
  domain := 2
  queue := 1
  domain_pos := pos_two
  queue_pos := Int.one_pos

theorem noFullQueues_decided_of_narrowSums : narrowSums.property = Property.noFullQueues.name ∧
    Catalog.Feasible narrowSums ∧ Decides narrowSums False := by
  have hfeasible : Catalog.Feasible narrowSums :=
    Catalog.feasible_iff.2 ⟨.compareWindowSum2, by decide, rfl, by decide⟩
  exact ⟨rfl, hfeasible, (noFullQueues_decided narrowSums rfl hfeasible).congr (by decide)⟩

end StreamCheck.Pipeline
