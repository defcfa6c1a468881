import Mathlib.Data.Set.Card
import Mathlib.Order.Bounds.Basic
import StreamCheck.Proofs.Verification.Counting

/-! What a summary of the models says, told by the set of the records alone: how many classes of keys there are, and the
least and the greatest of the numbers that occur. -/

namespace StreamCheck.Verification
open Pipeline

namespace Summary

def occurring {α : Type} (kind : Record → α) (records : Set Record) : Set α :=
  kind '' {r ∈ records | ofPipeline r = true}

def keyClass (r : Record) : Key.Class := ⟦key r⟧

end Summary

open Summary

/-- A summary is one of some records, of which at least one is about a pipeline. -/
structure ModelSummary.Sums (m : ModelSummary) (records : Set Record) : Prop where
  minProcessors : IsLeast (occurring Record.processorCount records) m.minProcessors
  maxProcessors : IsGreatest (occurring Record.processorCount records) m.maxProcessors
  maxVariables : IsGreatest (occurring Record.variableCount records) m.maxVariables
  maxModules : IsGreatest (occurring Record.moduleCount records) m.maxModules
  maxQueueSize : IsGreatest (occurring Record.queueSize records) m.maxQueueSize
  maxDomainSize : IsGreatest (occurring Record.domainSize records) m.maxDomainSize
  modelCount : m.modelCount = (occurring keyClass records).ncard

theorem ModelSummary.Sums.eq {m m' : ModelSummary} {records : Set Record} (h : m.Sums records) (h' : m'.Sums records) :
    m = m' := by
  cases m
  cases m'
  rw [ModelSummary.mk.injEq]
  exact ⟨h.minProcessors.unique h'.minProcessors, h.maxProcessors.unique h'.maxProcessors,
    h.maxVariables.unique h'.maxVariables, h.maxModules.unique h'.maxModules, h.maxQueueSize.unique h'.maxQueueSize,
    h.maxDomainSize.unique h'.maxDomainSize, h.modelCount.trans h'.modelCount.symm⟩

namespace Summary
variable {number : Record → Int} {r : Record} {rs xs ys : List Record}

/-! ### Least and greatest numbers -/

theorem image_concat (number : Record → Int) (xs : List Record) (r : Record) :
    number '' {x | x ∈ xs ++ [r]} = insert (number r) (number '' {x | x ∈ xs}) := by
  rw [← Set.image_insert_eq]
  congr 1
  ext x
  simp [or_comm]

theorem isGreatest_greatest : IsGreatest (number '' {x | x ∈ r :: rs}) (greatest number r rs) := by
  induction rs using List.reverseRecOn with
  | nil =>
    simp [greatest]
  | append_singleton rs x ih =>
    rw [greatest, List.foldl_concat, max_comm, ← List.cons_append, image_concat]
    exact ih.insert (number x)

theorem isLeast_least : IsLeast (number '' {x | x ∈ r :: rs}) (least number r rs) := by
  induction rs using List.reverseRecOn with
  | nil =>
    simp [least]
  | append_singleton rs x ih =>
    rw [least, List.foldl_concat, min_comm, ← List.cons_append, image_concat]
    exact ih.insert (number x)

/-! ### Sets of records -/

theorem occurring_eq_image_filter {α : Type} (kind : Record → α) (xs : List Record) :
    occurring kind {r | r ∈ xs} = kind '' {r | r ∈ xs.filter ofPipeline} := by
  simp only [occurring, List.mem_filter, Set.mem_ofPred_eq]

theorem ncard_occurring_keyClass (xs : List Record) : (occurring keyClass {r | r ∈ xs}).ncard = (models xs).modelCount := by
  have hset : occurring keyClass {r | r ∈ xs} =
      (((xs.filter ofPipeline).map key).map (Quotient.mk Key.setoid)).toFinset := by
    ext k
    rw [occurring_eq_image_filter, List.map_map, List.coe_toFinset]
    simp [keyClass]
  rw [hset, Set.ncard_coe_finset, modelCount_models]

theorem sums_models (h : ∃ r ∈ xs, ofPipeline r = true) : (models xs).Sums {r | r ∈ xs} := by
  have hcount := (ncard_occurring_keyClass xs).symm
  cases hxs : xs.filter ofPipeline with
  | nil =>
    obtain ⟨r, hr, hpipeline⟩ := h
    exact absurd hpipeline (List.filter_eq_nil_iff.1 hxs r hr)
  | cons r rs =>
    have hoccurring (number : Record → Int) : occurring number {r | r ∈ xs} = number '' {x | x ∈ r :: rs} := by
      rw [occurring_eq_image_filter, hxs]
    have hmodels : models xs = ⟨least Record.processorCount r rs, greatest Record.processorCount r rs,
        greatest Record.variableCount r rs, greatest Record.moduleCount r rs, greatest Record.queueSize r rs,
        greatest Record.domainSize r rs, (models xs).modelCount⟩ := by
      rw [models, hxs]
    rw [hmodels]
    constructor
    · exact hoccurring _ ▸ isLeast_least
    all_goals first | exact hcount | exact hoccurring _ ▸ isGreatest_greatest

theorem models_of_forall (h : ∀ r ∈ xs, ofPipeline r = false) : models xs = {} := by
  have hnone : xs.filter ofPipeline = [] := List.filter_eq_nil_iff.2 fun r hr => by rw [h r hr]; nofun
  rw [models, hnone]

/-- Two lists of the same records, in any order and however often each stands there, have one summary. If some are about
pipelines, it says how many classes of keys these have, and the least and the greatest of their numbers; if none is,
there is nothing but zeros in it. -/
theorem models_eq_of_mem_iff (h : ∀ r, r ∈ xs ↔ r ∈ ys) : models xs = models ys ∧
    ((∃ r ∈ xs, ofPipeline r = true) → (models xs).Sums {r | r ∈ xs}) ∧
    ((∀ r ∈ xs, ofPipeline r = false) → models xs = {}) := by
  refine ⟨?_, sums_models, models_of_forall⟩
  have hsame : {r | r ∈ xs} = {r | r ∈ ys} := Set.ext h
  by_cases hsome : ∃ r ∈ xs, ofPipeline r = true
  · have hys : ∃ r ∈ ys, ofPipeline r = true := hsome.imp fun r hr => hr.imp_left (h r).1
    exact (sums_models hsome).eq (hsame ▸ sums_models hys)
  · simp only [not_exists, not_and, Bool.not_eq_true] at hsome
    rw [models_of_forall hsome, models_of_forall fun r hr => hsome r ((h r).2 hr)]

theorem models_eq_of_mem_iff_of_repeated :
    let a : Record := { query := "Passthrough", property := "No full queues", queueSize := 1, processorCount := 1 }
    let b : Record := { query := "Passthrough", property := "Step equivalence", queueSize := 3, processorCount := 4 }
    let dummy : Record := { query := "Dummy" }
    models [a, b, dummy] = models [b, dummy, a, b] ∧
      ((∃ r ∈ [a, b, dummy], ofPipeline r = true) → (models [a, b, dummy]).Sums {r | r ∈ [a, b, dummy]}) ∧
      ((∀ r ∈ [a, b, dummy], ofPipeline r = false) → models [a, b, dummy] = {}) :=
  models_eq_of_mem_iff fun r => by
    simp only [List.mem_cons, List.not_mem_nil, or_false]
    tauto

end Summary

end StreamCheck.Verification
