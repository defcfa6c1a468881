import Mathlib.Algebra.Ring.Int.Parity
import StreamCheck.Proofs.Circuit.Accumulating
import StreamCheck.Proofs.Pipeline.Comparisons
import StreamCheck.Proofs.Pipeline.Thresholds
import StreamCheck.Proofs.Verification.Applicability

/-! Even numbers: what the sum of doubles puts out. Doubling and adding both wrap around the domain, which keeps
even numbers even exactly if the size of the domain is even itself. -/

namespace StreamCheck.Fold
open Smv

theorem toInt_multiplication_emod_two {d : Int} (hd : 2 ∣ d) (a : Value) {b : Value} (hb : b.toInt % 2 = 0) :
    (multiplication.value d a b).toInt % 2 = 0 := by
  change a.toInt * b.toInt % d % 2 = 0
  rw [Int.emod_emod_of_dvd _ hd, Int.mul_emod, hb, Int.mul_zero]
  rfl

theorem toInt_value_emod_two (f : Fold) {d : Int} (hd : 2 ∣ d) {a b : Value} (ha : a.toInt % 2 = 0)
    (hb : b.toInt % 2 = 0) : (f.value d a b).toInt % 2 = 0 := by
  cases f with
  | addition =>
    change (a.toInt + b.toInt) % d % 2 = 0
    rw [Int.emod_emod_of_dvd _ hd, Int.add_emod, ha, hb]
    rfl
  | multiplication => exact toInt_multiplication_emod_two hd a hb

theorem toInt_over_emod_two (f : Fold) {d : Int} (hd : 2 ∣ d) {vs : List Value} (hvs : vs ≠ [])
    (heven : ∀ v ∈ vs, v.toInt % 2 = 0) : (f.over d vs).toInt % 2 = 0 := by
  induction vs using List.reverseRecOn with
  | nil => exact absurd rfl hvs
  | append_singleton vs v ih =>
    have hlast : v.toInt % 2 = 0 := heven v (List.mem_append_right _ List.mem_cons_self)
    cases vs with
    | nil => exact hlast
    | cons u us =>
      have hne : u :: us ≠ [] := List.cons_ne_nil u us
      rw [over_concat f d hne]
      exact f.toInt_value_emod_two hd (ih hne fun v hv => heven v (List.mem_append_left _ hv)) hlast

end StreamCheck.Fold

namespace StreamCheck.Network
open Smv

namespace Stream

theorem mem_events {x : Stream} {t : Nat} {v : Value} (hv : v ∈ x.events t) :
    ∃ u, x.fires u = true ∧ x.value u = v := by
  induction t with
  | zero => nomatch hv
  | succ t ih =>
    cases hx : x.fires t with
    | false =>
      rw [events_succ_of_not_fires hx] at hv
      exact ih hv
    | true =>
      rw [events_succ_of_fires hx] at hv
      obtain hv | hv := List.mem_append.1 hv
      · exact ih hv
      · exact ⟨t, hx, (List.mem_singleton.1 hv).symm⟩

def doubled (x : Stream) (d : Int) : Stream :=
  fun t => (Fold.multiplication.value d (x.value t) (.number 2), .truth (x.fires t))

def summed (x : Stream) (d : Int) : Stream :=
  fun t => (Fold.addition.over d (x.events t ++ [x.value t]), .truth (x.fires t))

theorem summed_doubled_even {d : Int} (hd : 2 ∣ d) (x : Stream) (t : Nat) :
    (((x.doubled d).summed d).value t).toInt % 2 = 0 := by
  have hdouble (u : Nat) : ((x.doubled d).value u).toInt % 2 = 0 :=
    Fold.toInt_multiplication_emod_two hd _ rfl
  refine Fold.addition.toInt_over_emod_two hd (List.append_ne_nil_of_right_ne_nil _ (List.cons_ne_nil _ _)) ?_
  intro v hv
  obtain hv | hv := List.mem_append.1 hv
  · obtain ⟨u, -, rfl⟩ := mem_events hv
    exact hdouble u
  · obtain rfl := List.mem_singleton.1 hv
    exact hdouble t

/-- Of an odd size of the domain, the double of the larger half is one. -/
theorem summed_doubled_half {d : Int} (hd : 1 < d) (hodd : d % 2 = 1) :
    (((always fun _ => .number ((d + 1) / 2)).doubled d).summed d).value 0 = .number 1 := by
  change Value.number ((d + 1) / 2 * 2 % d) = .number 1
  have hhalf : (d + 1) / 2 * 2 = 1 + d := by omega
  rw [hhalf, Int.add_emod_right, Int.emod_eq_of_lt Int.one_nonneg hd]

end Stream

namespace Plan
variable {s : Sizes} {x : Stream} {σ : NodeId → Trace}

theorem Course.out_sumOfDoubles (hq : 0 < s.queue) (hσ : sumOfDoubles.Course s x σ) :
    sumOfDoubles.out σ = (x.doubled s.domain).summed s.domain := by
  have hfork : (Kind.fork 2 Nat.zero_lt_two .integer).Runs s (σ 0) := hσ.node 0 rfl
  have hmul : (Kind.apply .multiplication .integer).Runs s (σ 1) := hσ.node 1 rfl
  have htwo : (Kind.constant (.number 2) .integer).Runs s (σ 2) := hσ.node 2 rfl
  have htotal : (Kind.cumulate .addition).Runs s (σ 3) := hσ.node 3 rfl
  have hentry : (σ 0).input 0 = x := hσ.entered
  have hnumber : (σ 1).input 0 = (σ 0).output 0 := hσ.wire 0 rfl
  have hfactor : (σ 1).input 1 = (σ 2).output 0 := hσ.wire 2 rfl
  have hproduct : (σ 3).input 0 = (σ 1).output 0 := hσ.wire 3 rfl
  have hstep : Queue.InStep (σ 1) 2 x.fires := hσ.inStep hq isSteady_sumOfDoubles _
    (List.mem_of_getElem? (show sumOfDoubles.nodes[1]? = some _ from rfl))
  have hdoubled : (σ 1).output 0 = x.doubled s.domain := by
    rw [hmul.multiplication_output hq hstep, hnumber, hfactor, htwo.constant_output hq,
      hfork.fork_output hq Nat.zero_lt_two, hentry]
    rfl
  change (σ 3).output 0 = _
  rw [htotal.cumulate_output hq, hproduct, hdoubled]
  rfl

end Plan
end StreamCheck.Network

namespace StreamCheck.Pipeline
open Network Smv

section
variable {c : Configuration} {P Q : Plan} {w : Workspace} {compiled : CompiledGraph}

theorem IsModel.overGraph?_outputAlwaysEven (h : IsModel c P Q w compiled) (hwiring : c.wiring? = none) :
    Property.outputAlwaysEven.overGraph? compiled = some (.outputAlwaysEven [((w.nextPipe + 1 : Nat) : Int)]) := by
  have houtputs := h.outputs_eq
  simp only [hwiring] at houtputs
  have hnone : compiled.booleanOutputs = [] := by
    by_contra hsome
    have hsequence := h.booleanOutputs_ne_nil_iff.1 hsome
    rw [hwiring] at hsequence
    nomatch hsequence
  simp [Property.overGraph?, unlessEmpty, hnone, houtputs]

theorem IsModel.outputAlwaysEven_trueOf_iff (h : IsModel c .sumOfDoubles .sumOfDoubles w compiled)
    (hwiring : c.wiring? = none) (hd : 3 ≤ c.domain) :
    (Formula.outputAlwaysEven [((w.nextPipe + 1 : Nat) : Int)]).TrueOf compiled.model ↔ Even c.domain := by
  have hout {σ : Trace} (hσ : compiled.model.IsRun σ) : (outgoing (w.nextPipe + 1 : Nat)).stream σ =
      (((incoming w.nextPipe).stream σ).doubled c.domain).summed c.domain := by
    rw [h.plain_outgoing hwiring hσ]
    exact (h.course hwiring hσ).out_sumOfDoubles c.queue_pos
  rw [Formula.outputAlwaysEven_trueOf_iff]
  constructor
  · intro hall
    by_contra hodd
    rw [Int.not_even_iff] at hodd
    -- over an odd domain, the larger half that comes first leaves as a one
    let half : Stream := .always fun _ => .number ((c.domain + 1) / 2)
    have hover : half.Over c.domain := Stream.over_always fun _ => ⟨by omega, by omega⟩
    obtain ⟨σ, hσ, hinput⟩ := h.runsOver half hover
    have hstream := hinput w.nextPipe (h.inputs_eq ▸ List.mem_cons_self)
    have hfirst := hall σ hσ 0
    rw [hout hσ, hstream, Stream.summed_doubled_half (by omega) hodd] at hfirst
    nomatch hfirst rfl
  · intro heven σ hσ t _
    rw [hout hσ]
    exact Stream.summed_doubled_even heven.two_dvd _ t

end

/-- The sum of doubles puts out even numbers only, in every run, exactly if the size of the domain is even. -/
theorem sumOfDoubles_even_decided (c : Configuration) (hd : 3 ≤ c.domain) :
    Decides (c.asking .sumOfDoubles .outputAlwaysEven) (Even c.domain) := by
  have hP : Query.sumOfDoubles.blueprint (c.asking .sumOfDoubles .outputAlwaysEven).domain.toNat
      (c.asking .sumOfDoubles .outputAlwaysEven).shape = some .sumOfDoubles := by
    refine if_neg ?_
    change ¬ c.domain.toNat < 3
    omega
  refine decides_of_isModel (c.ofName?_asking .sumOfDoubles .outputAlwaysEven) hP hP fun w compiled h => ?_
  refine ⟨_, ?_, h.outputAlwaysEven_trueOf_iff rfl hd⟩
  exact (named?_name .outputAlwaysEven (.network compiled)).trans (h.overGraph?_outputAlwaysEven rfl)

/-- Of three numbers an odd one can leave, of four none. -/
theorem sumOfDoubles_even_decided_of_three : 3 ≤ firstOfThree.domain ∧
    Decides (firstOfThree.asking .sumOfDoubles .outputAlwaysEven) False ∧
    Decides (Configuration.asking { firstOfThree with domain := 4, domain_pos := by decide }
      .sumOfDoubles .outputAlwaysEven) True := by
  have hthree : ¬ Even firstOfThree.domain := by decide
  have hfour : Even (4 : Int) := by decide
  exact ⟨by decide, (sumOfDoubles_even_decided firstOfThree (by decide)).congr (iff_false_intro hthree),
    (sumOfDoubles_even_decided _ (by decide)).congr (iff_true_intro hfour)⟩

end StreamCheck.Pipeline
