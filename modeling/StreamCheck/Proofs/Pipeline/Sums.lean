import StreamCheck.Proofs.Circuit.Sliding
import StreamCheck.Proofs.Pipeline.Room

/-! Sums of the last two or three events, by a window or by adding the stream to itself without its first
events. Both slide over the stream. A sum of the second kind stores one event, so a queue of one slot gets full
and no larger one does. -/

namespace StreamCheck.Network.Plan
open Smv
variable {P Q : Plan} {s : Sizes} {x : Stream} {σ : NodeId → Trace}

def Sums (P : Plan) (s : Sizes) (width : Nat) : Prop :=
  ∀ x : Stream, x.Over s.domain → ∀ σ, P.Course s x σ → Slides .addition s.domain width x (P.out σ)

theorem Sums.stepEquivalent {width : Nat} (hP : P.Sums s width) (hQ : Q.Sums s width) : P.StepEquivalent Q s :=
  fun x hx σ τ hσ hτ => (hP x hx σ hσ).agree (hQ x hx τ hτ)

theorem sums_window (hq : 0 < s.queue) {width : Int} {hwidth : 0 < width} {shape : Option Int} :
    (window .addition width hwidth shape).Sums s width.toNat := by
  intro x _ σ hσ
  have hwindow : (Kind.window 0 .addition width.toNat (by omega)).Runs s (σ 1) := hσ.node 0 rfl
  have hslides := hwindow.window_slides hq
  have hentry : (σ 1).input 0 = x := hσ.entered
  rw [hentry] at hslides
  exact hslides

/-! ### What the nodes of the sums get -/

section
variable (hq : 0 < s.queue)
include hq

theorem Course.trimSum2_adds (hσ : trimSum2.Course s x σ) : Adds s 0 x (σ 2) := by
  have hfork : (Kind.fork 2 Nat.zero_lt_two .integer).Runs s (σ 0) := hσ.node 0 rfl
  have htrim : (Kind.trim 1 .integer).Runs s (σ 1) := hσ.node 1 rfl
  have hentry : (σ 0).input 0 = x := hσ.entered
  have hfirst : (σ 2).input 0 = (σ 0).output 0 := hσ.wire 0 rfl
  have hbehind : (σ 1).input 0 = (σ 0).output 1 := hσ.wire 1 rfl
  have hsecond : (σ 2).input 1 = (σ 1).output 0 := hσ.wire 2 rfl
  refine ⟨hσ.node 2 rfl, ?_, ?_⟩
  · rw [hfirst, hfork.fork_output hq Nat.zero_lt_two, hentry]
    exact slides_clean _ _ x
  · rw [hsecond, htrim.trim_output hq, hbehind, hfork.fork_output hq Nat.one_lt_two, hentry, Stream.drop_clean]

theorem Course.trimSum3_adds (hσ : trimSum3.Course s x σ) : Adds s 0 x (σ 2) ∧ Adds s 1 x (σ 4) := by
  have hfork : (Kind.fork 3 (Nat.succ_pos 2) .integer).Runs s (σ 0) := hσ.node 0 rfl
  have htrim1 : (Kind.trim 1 .integer).Runs s (σ 1) := hσ.node 1 rfl
  have htrim2 : (Kind.trim 2 .integer).Runs s (σ 3) := hσ.node 3 rfl
  have hentry : (σ 0).input 0 = x := hσ.entered
  have hthread {p : Nat} (hp : p < 3) : (σ 0).output p = x.clean := by
    rw [hfork.fork_output hq hp, hentry]
  have hfirst1 : (σ 2).input 0 = (σ 0).output 0 := hσ.wire 0 rfl
  have hbehind1 : (σ 1).input 0 = (σ 0).output 1 := hσ.wire 1 rfl
  have hsecond1 : (σ 2).input 1 = (σ 1).output 0 := hσ.wire 2 rfl
  have hbehind2 : (σ 3).input 0 = (σ 0).output 2 := hσ.wire 3 rfl
  have hfirst2 : (σ 4).input 0 = (σ 2).output 0 := hσ.wire 4 rfl
  have hsecond2 : (σ 4).input 1 = (σ 3).output 0 := hσ.wire 5 rfl
  have hadds : Adds s 0 x (σ 2) := by
    refine ⟨hσ.node 2 rfl, ?_, ?_⟩
    · rw [hfirst1, hthread (by decide)]
      exact slides_clean _ _ x
    · rw [hsecond1, htrim1.trim_output hq, hbehind1, hthread (by decide), Stream.drop_clean]
  refine ⟨hadds, hσ.node 4 rfl, ?_, ?_⟩
  · rw [hfirst2]
    exact hadds.slides hq
  · rw [hsecond2, htrim2.trim_output hq, hbehind2, hthread (by decide), Stream.drop_clean]

/-! ### What they put out -/

theorem sums_trimSum2 : trimSum2.Sums s 2 := fun _ _ _ hσ => (hσ.trimSum2_adds hq).slides hq

theorem sums_trimSum3 : trimSum3.Sums s 3 := fun _ _ _ hσ => (hσ.trimSum3_adds hq).2.slides hq

end

/-! ### What they store -/

section
variable {n : Node} {j : Nat}

theorem load_ne_of_single (hq : 0 < s.queue) {τ : Trace} (h : n.kind.Runs s τ) (hn : n.kind.inputs.length = 1)
    (hj : j < n.inputArity) (t : Nat) : Queue.load τ s.queue.toNat j t ≠ s.queue.toNat := by
  rw [h.load_eq_zero hq (hn ▸ Kind.inStep_single τ) hj t]
  omega

theorem load_ne_of_adds (hq : 1 < s.queue) {k : Nat} {τ : Trace} (h : Adds s k x τ) (hj : j < 2) (t : Nat) :
    Queue.load τ s.queue.toNat j t ≠ s.queue.toNat := by
  have hle := h.load_le_one (by omega) hj t
  omega

end

theorem roomy_trimSum2 (hq : 1 < s.queue) : trimSum2.Roomy s := by
  have hpos : 0 < s.queue := by omega
  intro x _ σ hσ n hn j hj t
  have hruns := hσ.runs n hn
  simp only [trimSum2, make, List.mem_cons, List.not_mem_nil, or_false] at hn
  rcases hn with rfl | rfl | rfl
  · exact load_ne_of_single hpos hruns rfl hj t
  · exact load_ne_of_single hpos hruns rfl hj t
  · exact load_ne_of_adds hq (hσ.trimSum2_adds hpos) hj t

theorem roomy_trimSum3 (hq : 1 < s.queue) : trimSum3.Roomy s := by
  have hpos : 0 < s.queue := by omega
  intro x _ σ hσ n hn j hj t
  have hruns := hσ.runs n hn
  simp only [trimSum3, make, List.mem_cons, List.not_mem_nil, or_false] at hn
  rcases hn with rfl | rfl | rfl | rfl | rfl
  · exact load_ne_of_single hpos hruns rfl hj t
  · exact load_ne_of_single hpos hruns rfl hj t
  · exact load_ne_of_adds hq (hσ.trimSum3_adds hpos).1 hj t
  · exact load_ne_of_single hpos hruns rfl hj t
  · exact load_ne_of_adds hq (hσ.trimSum3_adds hpos).2 hj t

/-- A queue of one slot is full as soon as the sum of the first two events waits for the second one. -/
theorem cramped_of_adds (hd : 0 < s.domain) (hone : s.queue = 1) {n : Node} (hn : n ∈ P.nodes)
    (hkind : 0 < n.inputArity) (hadds : ∀ x σ, P.Course s x σ → Adds s 0 x (σ n.id)) : P.Cramped s := by
  refine ⟨_, over_zeros hd, fun σ hσ hclear => hclear n hn 0 hkind 1 ?_⟩
  rw [(hadds _ σ hσ).load_eq_one (by omega) rfl, hone]
  rfl

theorem cramped_trimSum2 (hd : 0 < s.domain) (hone : s.queue = 1) : trimSum2.Cramped s :=
  cramped_of_adds hd hone (List.mem_of_getElem? (show trimSum2.nodes[2]? = some _ from rfl)) Nat.zero_lt_two
    fun _ _ hσ => hσ.trimSum2_adds (by omega)

theorem cramped_trimSum3 (hd : 0 < s.domain) (hone : s.queue = 1) : trimSum3.Cramped s :=
  cramped_of_adds hd hone (List.mem_of_getElem? (show trimSum3.nodes[2]? = some _ from rfl)) Nat.zero_lt_two
    fun _ _ hσ => (hσ.trimSum3_adds (by omega)).1

end StreamCheck.Network.Plan
