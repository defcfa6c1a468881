import StreamCheck.Proofs.Circuit.Accumulating
import StreamCheck.Proofs.Pipeline.Fullness

/-! The section that lets an event through as long as its number is at most `k`. It counts with an accumulator,
which starts again from zero after the last number of the domain, so that events pass again then. -/

namespace StreamCheck.Network
open Smv

/-- The events of a stream whose number, wrapped around the domain `0..d-1`, is at most `k`. -/
def Stream.threshold (x : Stream) (d k : Int) : Stream :=
  fun t => (x.value t, .truth (x.fires t && decide ((((x.events t).length + 1 : Nat) : Int) % d ≤ k)))

namespace Plan
variable {s : Sizes} {k : Int} {x : Stream} {σ : NodeId → Trace} (hq : 0 < s.queue)
include hq

theorem Course.outputIfSmaller_count (hd : 1 < s.domain) (hσ : (outputIfSmaller k).Course s x σ) (t : Nat) :
    ((σ 4).output 0).value t = .number ((((x.events t).length + 1 : Nat) : Int) % s.domain) := by
  have hone : (Kind.constant (.number 1) .integer).Runs s (σ 3) := hσ.node 3 rfl
  have hcount : (Kind.cumulate .addition).Runs s (σ 4) := hσ.node 4 rfl
  have hstep := hσ.inStep hq isSteady_outputIfSmaller
  have hturn : (σ 4).input 0 = (σ 3).output 0 := hσ.wire 3 rfl
  have hfires : ((σ 4).input 0).fires = x.fires :=
    hstep _ (List.mem_of_getElem? (show (outputIfSmaller k).nodes[4]? = some _ from rfl)) 0 Nat.one_pos
  have hvalue (t : Nat) : ((σ 4).input 0).value t = .number 1 := by
    rw [hturn, hone.constant_output hq]
    rfl
  have hevents : ((σ 4).input 0).events t = List.replicate (x.events t).length (.number 1) := by
    rw [Stream.events_eq_replicate (fun t _ => hvalue t) t, Stream.length_events_congr hfires]
  rw [hcount.cumulate_output hq]
  change Fold.addition.over s.domain (((σ 4).input 0).events t ++ [((σ 4).input 0).value t]) = _
  rw [hevents, hvalue, ← List.replicate_succ']
  exact Fold.over_replicate_one hd _

theorem Course.out_outputIfSmaller (hd : 1 < s.domain) (hσ : (outputIfSmaller k).Course s x σ) :
    (outputIfSmaller k).out σ = x.threshold s.domain k := by
  have hfork : (Kind.fork 3 (Nat.succ_pos 2) .integer).Runs s (σ 0) := hσ.node 0 rfl
  have hfilter : (Kind.filter .integer).Runs s (σ 1) := hσ.node 1 rfl
  have hturn : (Kind.constant (.number k) .integer).Runs s (σ 2) := hσ.node 2 rfl
  have hgte : (Kind.apply .isGreaterOrEqual .integer).Runs s (σ 5) := hσ.node 5 rfl
  have hentry : (σ 0).input 0 = x := hσ.entered
  have hpassed : (σ 1).input 0 = (σ 0).output 0 := hσ.wire 0 rfl
  have hbound : (σ 5).input 0 = (σ 2).output 0 := hσ.wire 4 rfl
  have hnumber : (σ 5).input 1 = (σ 4).output 0 := hσ.wire 5 rfl
  have hverdict : (σ 1).input 1 = (σ 5).output 0 := hσ.wire 6 rfl
  have hstep := hσ.inStep hq isSteady_outputIfSmaller
  have hstep1 : Queue.InStep (σ 1) 2 x.fires :=
    hstep _ (List.mem_of_getElem? (show (outputIfSmaller k).nodes[1]? = some _ from rfl))
  have hstep5 : Queue.InStep (σ 5) 2 x.fires :=
    hstep _ (List.mem_of_getElem? (show (outputIfSmaller k).nodes[5]? = some _ from rfl))
  change (σ 1).output 0 = _
  rw [hfilter.filter_output hq hstep1, hpassed, hverdict, hfork.fork_output hq (by decide), hentry,
    hgte.isGreaterOrEqual_output hq hstep5, hbound, hnumber, hturn.constant_output hq]
  funext t
  refine Prod.ext rfl ?_
  change Value.truth (x.fires t && decide ((((σ 4).output 0).value t).toInt ≤ k)) = _
  rw [hσ.outputIfSmaller_count hq hd]
  rfl

end Plan
end StreamCheck.Network

namespace StreamCheck.Pipeline
open Network Smv Creator

section
variable {c : Configuration} {P Q : Plan} {w : Workspace} {compiled : CompiledGraph} {σ : Trace}

theorem IsModel.plain_outgoing (h : IsModel c P Q w compiled) (hwiring : c.wiring? = none)
    (hσ : compiled.model.IsRun σ) : (outgoing (w.nextPipe + 1 : Nat)).stream σ = P.out (plainPart w σ) := by
  rw [IsModel, hwiring] at h
  have houtputs := (Workspace.courses_of_isRun (Catalog.orderly_built none) h hσ).2.2
  rw [Catalog.graph_built, Plan.outputs_exposed] at houtputs
  exact houtputs _ List.mem_cons_self

theorem IsModel.exists_course (h : IsModel c P P w compiled) (hwiring : c.wiring? ≠ some .sequence)
    (hσ : compiled.model.IsRun σ) {o : Int} (ho : o ∈ compiled.outputs) : ∃ τ,
      P.Course (sizesOf c) ((incoming w.nextPipe).stream σ) τ ∧ (outgoing o).stream σ = P.out τ := by
  have houtputs := h.outputs_eq
  cases hplain : c.wiring? with
  | none =>
    simp only [hplain] at houtputs
    rw [houtputs] at ho
    obtain rfl := List.mem_singleton.1 ho
    exact ⟨_, h.course hplain hσ, h.plain_outgoing hplain hσ⟩
  | some wiring =>
    cases wiring with
    | sequence => exact absurd hplain hwiring
    | stepwise =>
      simp only [hplain] at houtputs
      rw [houtputs] at ho
      obtain ⟨hleft, hright⟩ := h.courses hplain hσ
      obtain ⟨hfirst, hsecond⟩ := (IsModel.stands .stepwise).stepwise_outgoing c.queue_pos (h.compile_eq hplain) hσ
      rcases List.mem_pair.1 ho with rfl | rfl
      · exact ⟨_, hleft, hfirst⟩
      · exact ⟨_, hright, hsecond⟩

theorem IsModel.mem_outputs (h : IsModel c P Q w compiled) : ((w.nextPipe + 1 : Nat) : Int) ∈ compiled.outputs := by
  rw [h.outputs_eq]
  rcases c.wiring? with _ | _ | _ <;> exact List.mem_cons_self

theorem wiring?_outputIfSmaller (hquery : c.query = Query.outputIfSmaller.name)
    (hproperty : c.property ≠ Property.sequenceEquivalence.name) : c.wiring? ≠ some .sequence := by
  have hplain : isComparisonQuery Query.outputIfSmaller.name = false := rfl
  rw [Configuration.wiring?, wiring?, hquery, hplain, if_neg hproperty, if_neg Bool.false_ne_true]
  split_ifs <;> decide

end

/-- In the pipeline that lets an event through as long as its number is at most `k`, an event passes, in the same
step and unchanged, exactly if its number modulo the size of the domain is at most `k`. So in some run an event
passes whose number is larger. -/
theorem outputIfSmaller_wraps (c : Configuration) (hquery : c.query = Query.outputIfSmaller.name)
    (hproperty : c.property ≠ Property.sequenceEquivalence.name)
    (hdomain : effective c.shape defaultShape < c.domain) (archive : Archive) : ∃ archive' compiled,
      (modelOf c).run archive = .ok (some (.network compiled)) archive' ∧ RunsOver c.domain compiled ∧
      (∀ σ, compiled.model.IsRun σ → ∀ i ∈ compiled.inputs, ∀ o ∈ compiled.outputs, ∀ t,
        let x := (incoming i).stream σ
        let y := (outgoing o).stream σ
        (y.fires t = true ↔ x.fires t = true ∧
          (((x.events t).length + 1 : Nat) : Int) % c.domain ≤ effective c.shape defaultShape) ∧
            y.value t = x.value t) ∧
      ∃ σ, compiled.model.IsRun σ ∧ ∃ i ∈ compiled.inputs, ∃ o ∈ compiled.outputs, ∃ t,
        effective c.shape defaultShape < ((((incoming i).stream σ).events t).length + 1 : Nat) ∧
          ((outgoing o).stream σ).fires t = true := by
  have hk := effective_pos c.shape defaultShape_pos
  generalize hbound : effective c.shape defaultShape = k at hdomain hk
  have hqueue : 0 < (sizesOf c).queue := c.queue_pos
  have hd : 1 < (sizesOf c).domain := show 1 < c.domain by omega
  have hP : Query.outputIfSmaller.blueprint c.domain.toNat c.shape = some (.outputIfSmaller k) := by
    have hlarge : ¬ (c.domain.toNat : Int) ≤ effective c.shape defaultShape := by
      rw [hbound]
      omega
    rw [← hbound]
    exact if_neg hlarge
  obtain ⟨archive', compiled, hrun, hmodel⟩ := exists_isModel (q := .outputIfSmaller)
    (by rw [hquery]; rfl) hP hP archive
  -- what leaves is the stream of the events that the section lets through
  have hthreshold {σ : Trace} (hσ : compiled.model.IsRun σ) {o : Int} (ho : o ∈ compiled.outputs) :
      (outgoing o).stream σ = ((incoming archive.workspace.nextPipe).stream σ).threshold c.domain k := by
    obtain ⟨τ, hτ, hout⟩ := hmodel.exists_course (wiring?_outputIfSmaller hquery hproperty) hσ ho
    rw [hout]
    exact hτ.out_outputIfSmaller hqueue hd
  refine ⟨archive', compiled, hrun, hmodel.runsOver, ?_, ?_⟩
  · intro σ hσ i hi o ho t
    rw [hmodel.inputs_eq] at hi
    obtain rfl := List.mem_singleton.1 hi
    simp only [hthreshold hσ ho]
    refine ⟨?_, rfl⟩
    change (_ && decide _) = true ↔ _
    rw [Bool.and_eq_true, decide_eq_true_eq]
  · obtain ⟨σ, hσ, hinput⟩ := hmodel.runsOver _ (Plan.over_zeros (s := sizesOf c) c.domain_pos)
    have hstream := hinput archive.workspace.nextPipe (hmodel.inputs_eq ▸ List.mem_cons_self)
    have hlength := Stream.length_events_of_fires (x := Stream.always fun _ => .number 0) (fun _ => rfl)
    refine ⟨σ, hσ, _, hmodel.inputs_eq ▸ List.mem_cons_self, _, hmodel.mem_outputs, c.domain.toNat - 1, ?_, ?_⟩
    · rw [hstream, hlength]
      omega
    · -- the last number of the domain and one more are zero again
      have hzero : ((c.domain.toNat - 1 + 1 : Nat) : Int) % c.domain = 0 := by
        rw [show ((c.domain.toNat - 1 + 1 : Nat) : Int) = c.domain by omega, Int.emod_self]
      rw [hthreshold hσ hmodel.mem_outputs, hstream]
      change (true && decide _) = true
      rw [hlength, hzero, decide_eq_true (Int.le_of_lt hk), Bool.and_self]

/-- The first event passes, of three numbers. -/
def firstOfThree : Configuration where
  query := Query.outputIfSmaller.name
  domain := 3
  queue := 1
  k := some 1
  domain_pos := pos_three
  queue_pos := Int.one_pos

theorem outputIfSmaller_wraps_of_firstOfThree : firstOfThree.query = Query.outputIfSmaller.name ∧
    firstOfThree.property ≠ Property.sequenceEquivalence.name ∧
    effective firstOfThree.shape defaultShape < firstOfThree.domain ∧
    ∃ archive compiled, (modelOf firstOfThree).run default = .ok (some (.network compiled)) archive ∧
      ∃ σ, compiled.model.IsRun σ ∧ ∃ i ∈ compiled.inputs, ∃ o ∈ compiled.outputs, ∃ t,
        (1 : Int) < ((((incoming i).stream σ).events t).length + 1 : Nat) ∧
          ((outgoing o).stream σ).fires t = true := by
  obtain ⟨archive, compiled, hrun, -, -, hpasses⟩ :=
    outputIfSmaller_wraps firstOfThree rfl (by decide) (by decide) default
  exact ⟨rfl, by decide, by decide, archive, compiled, hrun, hpasses⟩

end StreamCheck.Pipeline
