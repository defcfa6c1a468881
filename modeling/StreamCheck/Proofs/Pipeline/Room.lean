import StreamCheck.Proofs.Pipeline.Sections
import StreamCheck.Proofs.Queue.Lagging

/-! Which plans have room for all that comes in. A plan in which every node but the last puts out an event for
each that comes in stores nothing; the product of the first events of every so many stores more and more. -/

namespace StreamCheck.Network.Plan
open Smv
variable {P : Plan} {s : Sizes} {x : Stream} {σ : NodeId → Trace}

def Clear (P : Plan) (s : Sizes) (σ : NodeId → Trace) : Prop :=
  ∀ n ∈ P.nodes, ∀ j < n.inputArity, ∀ t, Queue.load (σ n.id) s.queue.toNat j t ≠ s.queue.toNat

def Roomy (P : Plan) (s : Sizes) : Prop :=
  ∀ x : Stream, x.Over s.domain → ∀ σ, P.Course s x σ → P.Clear s σ

def Cramped (P : Plan) (s : Sizes) : Prop :=
  ∃ x : Stream, x.Over s.domain ∧ ∀ σ, P.Course s x σ → ¬ P.Clear s σ

theorem over_zeros (hd : 0 < s.domain) : (Stream.always fun _ => .number 0).Over s.domain :=
  Stream.over_always fun _ => ⟨Int.le_refl 0, by omega⟩

/-! ### Steady plans -/

theorem roomy_of_isSteady (hq : 0 < s.queue) (hP : P.IsSteady) : P.Roomy s := by
  intro x _ σ hσ n hn j hj t hload
  rw [hσ.load_eq_zero hq hP hn hj t] at hload
  omega

theorem isSteady_single {n : Node} {size : Nat} {shape : Option Int} {hleaf : n.inner? = none}
    {hinputs : n.kind.inputs = [.integer]} {houtputs : n.kind.outputs = [.integer]} :
    (single n size shape hleaf hinputs houtputs).IsSteady :=
  fun _ hc => absurd hc List.not_mem_nil

theorem isSteady_sumOfOnes {k : Int} {hk : 0 < k} : (sumOfOnes k hk).IsSteady := by
  simp [IsSteady, sumOfOnes, make, Kind.isPrompt]

theorem isSteady_sumOfDoubles : sumOfDoubles.IsSteady := by
  simp [IsSteady, sumOfDoubles, make, Kind.isPrompt]

theorem isSteady_outputIfSmaller {k : Int} : (outputIfSmaller k).IsSteady := by
  simp [IsSteady, outputIfSmaller, make, Kind.isPrompt]

theorem isSteady_productOfFirst {k : Int} {hk : 0 < k} (hone : k = 1) : (productOfFirst k hk).IsSteady := by
  subst hone
  simp [IsSteady, productOfFirst, make, Kind.isPrompt]

/-! ### The first events of every so many -/

theorem Course.productOfFirst_inputs (hq : 0 < s.queue) {k : Int} {hk : 0 < k}
    (hσ : (productOfFirst k hk).Course s x σ) : (Kind.apply .multiplication .integer).Runs s (σ 1) ∧
      (σ 1).input 0 = x.clean ∧ (σ 1).input 1 = x.every k.toNat := by
  have hfork : (Kind.fork 2 Nat.zero_lt_two .integer).Runs s (σ 0) := hσ.node 0 rfl
  have hdec : (Kind.decimate k.toNat (by omega) .integer).Runs s (σ 2) := hσ.node 2 rfl
  have hentry : (σ 0).input 0 = x := hσ.entered
  have hfirst : (σ 1).input 0 = (σ 0).output 0 := hσ.wire 0 rfl
  have hbehind : (σ 2).input 0 = (σ 0).output 1 := hσ.wire 1 rfl
  have hsecond : (σ 1).input 1 = (σ 2).output 0 := hσ.wire 2 rfl
  refine ⟨hσ.node 1 rfl, ?_, ?_⟩
  · rw [hfirst, hfork.fork_output hq Nat.zero_lt_two, hentry]
  · rw [hsecond, hdec.decimate_output hq, hbehind, hfork.fork_output hq Nat.one_lt_two, hentry, Stream.every_clean]

theorem Course.product_queues (hq : 0 < s.queue) {k : Int} {hk : 0 < k} (hσ : (productOfFirst k hk).Course s x σ) :
    (Queue.circuits s [.integer, .integer]).Obeyed (σ 1) := by
  obtain ⟨b, -, hqueues, -⟩ := (hσ.productOfFirst_inputs hq).1
  exact hqueues

theorem Course.product_lags (hq : 0 < s.queue) {k : Int} {hk : 0 < k} (hσ : (productOfFirst k hk).Course s x σ) :
    Queue.Lags (σ 1) k.toNat := by
  obtain ⟨-, hfirst, hsecond⟩ := hσ.productOfFirst_inputs hq
  rw [Queue.Lags, hfirst, hsecond, Stream.every_clean]

/-- With an event at every moment the product falls behind until its queue is full. -/
theorem cramped_productOfFirst (hd : 0 < s.domain) (hq : 0 < s.queue) {k : Int} {hk : 0 < k} (htwo : 2 ≤ k) :
    (productOfFirst k hk).Cramped s := by
  refine ⟨_, over_zeros hd, fun σ hσ hclear => ?_⟩
  have hevents (t : Nat) : (((σ 1).input 0).events t).length = t := by
    rw [(hσ.productOfFirst_inputs hq).2.1, Stream.events_clean]
    exact Stream.length_events_of_fires (fun _ => rfl) t
  -- not when the queue is full first, only that it is some time
  have hfull : Queue.load (σ 1) s.queue.toNat 0 (s.queue.toNat * 2) = s.queue.toNat := by
    rw [← Queue.length_held, Queue.length_held_of_lags (hσ.product_queues hq) hq (hσ.product_lags hq) rfl
      (toNat_pos hk), hevents]
    exact min_eq_left (le_backlog_mul_two (by omega) _)
  exact hclear _ (List.mem_cons_of_mem _ List.mem_cons_self) 0 Nat.zero_lt_two _ hfull

end StreamCheck.Network.Plan
