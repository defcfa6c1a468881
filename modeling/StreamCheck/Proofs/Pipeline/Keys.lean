import StreamCheck.Proofs.Pipeline.Feasibility

/-! Keys of pipelines: configurations whose keys match have the same pipeline built for them. -/

namespace StreamCheck.Pipeline
open Network

theorem wiring?_eq_none {query property : String} (h : isComparisonStyle query property = false) :
    wiring? query property = none := by
  rw [isComparisonStyle, Bool.or_eq_false_iff] at h
  have hstep : property ≠ Property.stepEquivalence.name := by
    rintro rfl
    exact absurd h.1 (by decide)
  have hsequence : property ≠ Property.sequenceEquivalence.name := by
    rintro rfl
    exact absurd h.1 (by decide)
  rw [wiring?, if_neg hstep, if_neg hsequence, h.2, if_neg Bool.false_ne_true]

namespace Catalog
variable {a b : Configuration}

theorem exists_assemble_run (c : Configuration) (node : NodeId) (pipe : PipeId) (count : Nat) :
    ∃ (r : Option Assembly) (node' : NodeId) (pipe' : PipeId) (new : List Graph), ∀ graphs : List Graph,
      graphs.length = count → (assemble c).run ⟨node, pipe, graphs⟩ = .ok r ⟨node', pipe', graphs ++ new⟩ := by
  obtain ⟨q, P, Q, hquery, hP, hQ⟩ | hnone := exists_plans_or_none c
  · obtain ⟨node', pipe', new, hbuilt⟩ := built_congr node pipe count (domain_toNat_pos c) (queue_toNat_pos c) P Q
      c.wiring?
    refine ⟨some ⟨c.query, count, shapeOf P Q c.wiring?, c.wiring?⟩, node', pipe', new, fun graphs hcount => ?_⟩
    rw [assemble_run hquery hP hQ, hbuilt graphs hcount, hcount]
  · obtain ⟨taken, new, hrun⟩ := assemble_run_none hnone
    exact ⟨none, node + taken, pipe, new, fun graphs _ => hrun ⟨node, pipe, graphs⟩⟩

theorem assemble_congr (hquery : a.query = b.query) (hdomain : a.domain = b.domain) (hqueue : a.queue = b.queue)
    (hshape : a.shape = b.shape) (hwiring : a.wiring? = b.wiring?) : assemble a = assemble b := by
  unfold assemble
  rw [hquery, hdomain, hqueue, hshape, hwiring]

end Catalog

namespace Key
variable {a b : Configuration} {k k' : Key}

theorem matches?_iff : k.matches? k' = true ↔
    (k.query = k'.query ∧ k.queue = k'.queue ∧ k.domain = k'.domain ∧ k.shape = k'.shape) ∧
      (k.comparisonStyle = true ∨ k'.comparisonStyle = true → k.property = k'.property) := by
  rw [matches?]
  cases k.comparisonStyle <;> cases k'.comparisonStyle <;> simp [and_assoc]

theorem wiring?_congr (h : k.matches? k' = true) :
    wiring? k.query k.property = wiring? k'.query k'.property := by
  obtain ⟨⟨hquery, -⟩, hproperty⟩ := matches?_iff.1 h
  -- a key leaves the property out only where it does not bear on the wiring
  cases hk : k.comparisonStyle with
  | true => rw [hquery, hproperty (.inl hk)]
  | false =>
    cases hk' : k'.comparisonStyle with
    | true => rw [hquery, hproperty (.inr hk')]
    | false => rw [wiring?_eq_none hk, wiring?_eq_none hk']

theorem wiring?_eq_of_matches (h : (ofConfiguration a).matches? (ofConfiguration b) = true) :
    a.wiring? = b.wiring? :=
  wiring?_congr h

theorem assemble_eq_of_matches (h : (ofConfiguration a).matches? (ofConfiguration b) = true) :
    Catalog.assemble a = Catalog.assemble b := by
  obtain ⟨⟨hquery, hqueue, hdomain, hshape⟩, -⟩ := matches?_iff.1 h
  exact Catalog.assemble_congr hquery hdomain hqueue hshape (wiring?_eq_of_matches h)

/-- Configurations whose keys match need the same wiring, and from the same numbers on the same is built for
both: nothing, or graphs that are the same in every part. -/
theorem assemble_of_matches (h : (ofConfiguration a).matches? (ofConfiguration b) = true) :
    a.wiring? = b.wiring? ∧ ∀ (node : NodeId) (pipe : PipeId) (count : Nat),
      ∃ (r : Option Assembly) (node' : NodeId) (pipe' : PipeId) (new : List Graph),
        ∀ graphs graphs' : List Graph, graphs.length = count → graphs'.length = count →
          (Catalog.assemble a).run ⟨node, pipe, graphs⟩ = .ok r ⟨node', pipe', graphs ++ new⟩ ∧
            (Catalog.assemble b).run ⟨node, pipe, graphs'⟩ = .ok r ⟨node', pipe', graphs' ++ new⟩ := by
  refine ⟨wiring?_eq_of_matches h, fun node pipe count => ?_⟩
  obtain ⟨r, node', pipe', new, hrun⟩ := Catalog.exists_assemble_run a node pipe count
  refine ⟨r, node', pipe', new, fun graphs graphs' hcount hcount' => ⟨hrun graphs hcount, ?_⟩⟩
  rw [← assemble_eq_of_matches h]
  exact hrun graphs' hcount'

/-- A product over two numbers, under some property. -/
def smallProduct (p : Property) : Configuration where
  query := Query.product.name
  domain := 2
  queue := 1
  property := p.name
  domain_pos := Creator.pos_two
  queue_pos := Int.one_pos

/-- A plain pipeline that was built for one property serves for another one. -/
theorem assemble_of_matches_of_smallProduct :
    (ofConfiguration (smallProduct .noFullQueues)).matches? (ofConfiguration (smallProduct .liveness)) = true ∧
      (smallProduct .noFullQueues).wiring? = (smallProduct .liveness).wiring? ∧
      ∀ (node : NodeId) (pipe : PipeId) (count : Nat),
        ∃ (r : Option Assembly) (node' : NodeId) (pipe' : PipeId) (new : List Graph),
          ∀ graphs graphs' : List Graph, graphs.length = count → graphs'.length = count →
            (Catalog.assemble (smallProduct .noFullQueues)).run ⟨node, pipe, graphs⟩ =
                .ok r ⟨node', pipe', graphs ++ new⟩ ∧
              (Catalog.assemble (smallProduct .liveness)).run ⟨node, pipe, graphs'⟩ =
                .ok r ⟨node', pipe', graphs' ++ new⟩ :=
  ⟨by decide, assemble_of_matches (a := smallProduct .noFullQueues) (b := smallProduct .liveness) (by decide)⟩

end Key
end StreamCheck.Pipeline
