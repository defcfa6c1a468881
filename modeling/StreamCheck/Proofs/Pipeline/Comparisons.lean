import StreamCheck.Proofs.Pipeline.Feasibility
import StreamCheck.Proofs.Pipeline.Sums
import StreamCheck.Proofs.Pipeline.Verdicts

/-! The verdicts of the queries that compare: window sums are the sums of trimmed streams, and a stream is not
its delay, nor are its events unless there is one number only. -/

namespace StreamCheck.Network.Plan
open Smv
variable {s : Sizes} {x : Stream} {σ τ : NodeId → Trace}

theorem stepEquivalent_trimSum2 (hq : 0 < s.queue) (hwidth : (0 : Int) < 2) (shape : Option Int) :
    (window .addition 2 hwidth shape).StepEquivalent trimSum2 s :=
  Sums.stepEquivalent (sums_window hq) (sums_trimSum2 hq)

theorem stepEquivalent_trimSum3 (hq : 0 < s.queue) (hwidth : (0 : Int) < 3) (shape : Option Int) :
    (window .addition 3 hwidth shape).StepEquivalent trimSum3 s :=
  Sums.stepEquivalent (sums_window hq) (sums_trimSum3 hq)

/-! ### Delays -/

theorem Course.out_passthrough (hq : 0 < s.queue) (hσ : passthrough.Course s x σ) : passthrough.out σ = x.clean := by
  have hruns : (Kind.passthrough .integer).Runs s (σ 0) := hσ.node 0 rfl
  have hentry : (σ 0).input 0 = x := hσ.entered
  rw [← hentry]
  exact hruns.passthrough_output hq

theorem Course.out_delay (hq : 0 < s.queue) {k : Int} (hσ : (delay k).Course s x σ) :
    (delay k).out σ = x.drop k.toNat := by
  have hruns : (Kind.trim k.toNat .integer).Runs s (σ 0) := hσ.node 0 rfl
  have hentry : (σ 0).input 0 = x := hσ.entered
  rw [← hentry]
  exact hruns.trim_output hq

theorem Course.not_agree_delay (hq : 0 < s.queue) {k : Int} (hk : 0 < k) (hx : x.fires 0 = true)
    (hσ : passthrough.Course s x σ) (hτ : (delay k).Course s x τ) :
    ¬ (passthrough.out σ).Agree ((delay k).out τ) := by
  intro hagree
  have hfirst := (hagree 0).1
  have hlate : ¬ k.toNat ≤ (x.events 0).length := by
    change ¬ k.toNat ≤ 0
    omega
  rw [hσ.out_passthrough hq, hτ.out_delay hq, Stream.fires_clean, Stream.fires_drop, decide_eq_false hlate,
    Bool.and_false, hx] at hfirst
  nomatch hfirst

/-- Over one number a comparison cannot tell a stream from its delay. -/
theorem sequenceEquivalent_delay_of_one (hq : 0 < s.queue) {k : Int} (hd : s.domain = 1) :
    passthrough.SequenceEquivalent (delay k) s := by
  intro x hx σ τ ρ hσ hτ hρ hfirst hsecond t hfires
  -- zero is the only number there, also between the events
  have hzero (t : Nat) : x.value t = .number 0 := by
    have hfits := (hx t).1
    rw [hd] at hfits
    cases hvalue : x.value t with
    | truth b =>
      rw [hvalue] at hfits
      exact hfits.elim
    | number n =>
      rw [hvalue] at hfits
      obtain ⟨hle, hge⟩ : 0 ≤ n ∧ n ≤ 1 - 1 := hfits
      congr 1
      omega
  have hconstant : ∀ j < 2, ∀ t, (ρ.input j).fires t = true → (ρ.input j).value t = .number 0 := by
    intro j hj t _
    obtain rfl | rfl : j = 0 ∨ j = 1 := by omega
    · rw [hfirst, hσ.out_passthrough hq]
      exact hzero t
    · rw [hsecond, hτ.out_delay hq]
      exact hzero t
  rw [hρ.equals_output_of_constant hq hconstant hfires]
  rfl

/-- A zero with only ones behind it. -/
def zeroThenOnes (t : Nat) : Value := .number (if t = 0 then 0 else 1)

theorem over_zeroThenOnes {d : Int} (hd : 1 < d) : (Stream.always zeroThenOnes).Over d := by
  refine Stream.over_always fun t => ?_
  rw [zeroThenOnes]
  split
  · exact ⟨Int.le_refl 0, by omega⟩
  · exact ⟨by omega, by omega⟩

/-- Over two numbers it can: a zero meets a one. -/
theorem not_sequenceEquivalent_delay (hq : 0 < s.queue) {k : Int} (hk : 0 < k) {ρ : Trace} (hd : 1 < s.domain)
    (hσ : passthrough.Course s (Stream.always zeroThenOnes) σ)
    (hτ : (delay k).Course s (Stream.always zeroThenOnes) τ) (hρ : (Kind.apply .equals .integer).Runs s ρ)
    (hfirst : ρ.input 0 = passthrough.out σ) (hsecond : ρ.input 1 = (delay k).out τ) :
    ¬ passthrough.SequenceEquivalent (delay k) s := by
  intro hsame
  have hclean : ρ.input 0 = Stream.always zeroThenOnes := by
    rw [hfirst, hσ.out_passthrough hq]
    rfl
  obtain ⟨hfires, hvalue⟩ := hρ.equals_apart hq hclean (hsecond.trans (hτ.out_delay hq))
  have hlate : k.toNat ≠ 0 := by omega
  have htrue := hsame _ (over_zeroThenOnes hd) σ τ ρ hσ hτ hρ hfirst hsecond _ hfires
  rw [hvalue, zeroThenOnes, zeroThenOnes, if_pos rfl, if_neg hlate] at htrue
  nomatch htrue

end StreamCheck.Network.Plan

namespace StreamCheck.Pipeline
open Network Creator Smv

def Configuration.asking (c : Configuration) (q : Query) (p : Property) : Configuration :=
  { c with query := q.name, property := p.name }

section
variable (c : Configuration)

theorem Configuration.ofName?_asking (q : Query) (p : Property) : Query.ofName? (c.asking q p).query = some q :=
  Query.ofName?_name q

theorem decides_windowSum2 {p : Property} (hp : p = .stepEquivalence ∨ p = .sequenceEquivalence) :
    Decides (c.asking .compareWindowSum2 p) True := by
  have hsame := Plan.stepEquivalent_trimSum2 (s := sizesOf c) c.queue_pos pos_two none
  exact decides_of_stepEquivalent (c.ofName?_asking .compareWindowSum2 p) rfl rfl hsame
    (hp.imp (congrArg Property.name) (congrArg Property.name))

theorem decides_windowSum3 {p : Property} (hp : p = .stepEquivalence ∨ p = .sequenceEquivalence) :
    Decides (c.asking .compareWindowSum3 p) True := by
  have hsame := Plan.stepEquivalent_trimSum3 (s := sizesOf c) c.queue_pos pos_three none
  exact decides_of_stepEquivalent (c.ofName?_asking .compareWindowSum3 p) rfl rfl hsame
    (hp.imp (congrArg Property.name) (congrArg Property.name))

theorem decides_delay_stepEquivalence :
    Decides (c.asking .comparePassthroughDelay .stepEquivalence) False := by
  have hquery := c.ofName?_asking .comparePassthroughDelay .stepEquivalence
  have hk := effective_pos c.shape defaultDelay_pos
  refine (decides_stepEquivalent hquery rfl rfl rfl).congr (iff_false_intro fun hsame => ?_)
  have hzeros := Plan.over_zeros (s := sizesOf c) c.domain_pos
  obtain ⟨σ, τ, -, hσ, hτ, -⟩ := exists_comparison hquery rfl rfl hzeros
  exact Plan.Course.not_agree_delay c.queue_pos hk rfl hσ hτ (hsame _ hzeros σ τ hσ hτ)

theorem decides_delay_sequenceEquivalence :
    Decides (c.asking .comparePassthroughDelay .sequenceEquivalence) (c.domain = 1) := by
  have hquery := c.ofName?_asking .comparePassthroughDelay .sequenceEquivalence
  have hk := effective_pos c.shape defaultDelay_pos
  refine (decides_sequenceEquivalent hquery rfl rfl rfl).congr ⟨fun hsame => ?_, fun hone => ?_⟩
  · by_contra hmany
    have hd : 1 < (sizesOf c).domain := by
      have hpos := c.domain_pos
      change 1 < c.domain
      omega
    obtain ⟨σ, τ, ρ, hσ, hτ, hρ, hfirst, hsecond⟩ :=
      exists_comparison hquery rfl rfl (Plan.over_zeroThenOnes hd)
    exact Plan.not_sequenceEquivalent_delay c.queue_pos hk hd hσ hτ hρ hfirst hsecond hsame
  · exact Plan.sequenceEquivalent_delay_of_one c.queue_pos hone

end

/-- Whatever the sizes and the shape: a window sum is equivalent to the sum of trimmed streams, step by step and
event by event; a stream is not equivalent to its delay step by step, and event by event only over one number. -/
theorem comparisons_decided (c : Configuration) :
    (Decides (c.asking .compareWindowSum2 .stepEquivalence) True ∧
      Decides (c.asking .compareWindowSum2 .sequenceEquivalence) True) ∧
    (Decides (c.asking .compareWindowSum3 .stepEquivalence) True ∧
      Decides (c.asking .compareWindowSum3 .sequenceEquivalence) True) ∧
    Decides (c.asking .comparePassthroughDelay .stepEquivalence) False ∧
      Decides (c.asking .comparePassthroughDelay .sequenceEquivalence) (c.domain = 1) :=
  ⟨⟨decides_windowSum2 c (.inl rfl), decides_windowSum2 c (.inr rfl)⟩,
    ⟨decides_windowSum3 c (.inl rfl), decides_windowSum3 c (.inr rfl)⟩,
    decides_delay_stepEquivalence c, decides_delay_sequenceEquivalence c⟩

end StreamCheck.Pipeline
