import Mathlib.Data.Nat.Nth
import StreamCheck.Proofs.Circuit.Ranks
import StreamCheck.Proofs.Pipeline.Thresholds
import StreamCheck.Proofs.Queue.Lagging

/-! The product of each event with the first of every `k`, over a queue of `q` slots. The first events come faster
than they are needed: until they outgrow the queue, the factors of each output are those that their ranks say, and
the first event of all that is lost is known by its rank. -/

namespace StreamCheck.Network
open Smv

namespace Stream
variable {x y : Stream} {e : Nat → Int} {k t : Nat}

theorem Carries.getElem?_events (h : x.Carries e) {i : Nat} (hi : i < (x.events t).length) :
    (x.events t)[i]? = some (.number (e (i + 1))) := by
  rw [h.events_eq t, List.getElem?_map, List.getElem?_range' hi, Nat.one_mul, Nat.add_comm]
  rfl

theorem Over.exists_carries {d : Int} (h : x.Over d) : ∃ e, x.Carries e := by
  classical
  refine ⟨fun r => (x.value (Nat.nth (fun u => x.fires u = true) (r - 1))).toInt, fun t hx => ?_⟩
  have hfits := (h t).1
  have hplace : Nat.nth (fun u => x.fires u = true) (x.rank t - 1) = t := by
    rw [rank, Nat.count_succ, if_pos hx, Nat.add_sub_cancel]
    exact Nat.nth_count hx
  change x.value t = .number (x.value (Nat.nth _ (x.rank t - 1))).toInt
  rw [hplace]
  cases hvalue : x.value t with
  | truth b =>
    rw [hvalue] at hfits
    exact hfits.elim
  | number n => rfl

/-- The event of rank `n` among the first of every `k` has the rank `(n - 1) * k + 1` among all. -/
theorem rank_of_fires_every (hk : 0 < k) (hfires : y.fires = (x.every k).fires) (hy : y.fires t = true) :
    x.rank t = (y.rank t - 1) * k + 1 := by
  have hfirst := hy
  rw [hfires, fires_every, Bool.and_eq_true, decide_eq_true_eq] at hfirst
  obtain ⟨a, ha⟩ := Nat.dvd_of_mod_eq_zero hfirst.2
  have hceil : k * a ⌈/⌉ k = a := smul_ceilDiv hk a
  rw [rank_of_fires hfirst.1, rank_of_fires hy, length_events_congr hfires, length_events_every hk, ha, hceil,
    Nat.add_sub_cancel, Nat.mul_comm]

/-- A stream puts out products of the numbers that another one carries. They come with the arrivals of the ranks `1`,
`k + 1`, `2 * k + 1` and so on; the `n`-th is that of the arrival with the `n`-th of all, if the backlog of `n` events
is at most `q`. -/
structure Multiplies (d : Int) (k q : Nat) (x : Stream) (e : Nat → Int) (y : Stream) : Prop where
  fires_iff : ∀ t, y.fires t = true ↔ x.fires t = true ∧ ∃ i, x.rank t = i * k + 1
  rank_eq : ∀ t, y.fires t = true → x.rank t = (y.rank t - 1) * k + 1
  value_eq : ∀ t, y.fires t = true → backlog k (y.rank t) ≤ q →
    y.value t = .number (e (y.rank t) * e ((y.rank t - 1) * k + 1) % d)

end Stream

namespace Plan
variable {s : Sizes} {x : Stream} {σ : NodeId → Trace} (hq : 0 < s.queue) {k : Int} {hk : 0 < k}
  (hσ : (productOfFirst k hk).Course s x σ)
include hq hσ

theorem Course.fires_product (t : Nat) : Queue.fires (σ 1) t = ((productOfFirst k hk).out σ).fires t := by
  change _ = ((σ 1).output 0).fires t
  rw [(hσ.productOfFirst_inputs hq).1.apply_output hq]
  rfl

theorem Course.fires_productOfFirst : ((productOfFirst k hk).out σ).fires = (x.every k.toNat).fires := by
  funext t
  rw [← hσ.fires_product hq, Queue.fires_of_lags (hσ.product_queues hq) hq (hσ.product_lags hq) rfl,
    (hσ.productOfFirst_inputs hq).2.1, Stream.events_clean]
  rfl

theorem Course.productOfFirst_multiplies {e : Nat → Int} (he : x.Carries e) :
    x.Multiplies s.domain k.toNat s.queue.toNat e ((productOfFirst k hk).out σ) := by
  have hpos := toNat_pos hk
  obtain ⟨hmul, hfirst, hsecond⟩ := hσ.productOfFirst_inputs hq
  have hqueues := hσ.product_queues hq
  have hlags := hσ.product_lags hq
  have hfires := hσ.fires_productOfFirst hq
  have hrank (t : Nat) := Stream.rank_of_fires_every hpos hfires (t := t)
  refine ⟨fun t => ?_, hrank, fun t hout hroom => ?_⟩
  · rw [hfires]
    exact Stream.fires_every_iff x k.toNat t
  · have hx : x.fires t = true := by
      rw [hfires, Stream.fires_every, Bool.and_eq_true] at hout
      exact hout.1
    have hready := hσ.fires_product hq
    have hplace : Queue.firings (σ 1) t + 1 = ((productOfFirst k hk).out σ).rank t := by
      rw [Stream.rank_of_fires hout, Queue.firings_eq_length_events hready]
    -- the first factor has waited in its queue, the second one has just come
    have hwaited : (Queue.front 0).eval (σ 1 t) = .number (e (((productOfFirst k hk).out σ).rank t)) := by
      have hoffer := Queue.getElem?_events_of_lags hqueues hq hlags rfl hpos ((hready t).trans hout) (hplace ▸ hroom)
      have hlt := (List.getElem?_eq_some_iff.1 hoffer).1
      rw [hfirst, Stream.events_clean] at hoffer hlt
      rw [he.getElem?_events hlt, hplace] at hoffer
      exact (Option.some.inj hoffer).symm
    have hcame : (Queue.front 1).eval (σ 1 t) = .number (e (x.rank t)) := by
      rw [Queue.front_of_held_eq_nil hqueues hq Nat.one_lt_two (Queue.held_second_of_lags hqueues hq hlags rfl t),
        hsecond]
      exact he t hx
    change ((σ 1).output 0).value t = _
    rw [hmul.apply_output hq, ← hrank t hout]
    change Fold.multiplication.value s.domain ((Queue.front 0).eval (σ 1 t)) ((Queue.front 1).eval (σ 1 t)) = _
    rw [hwaited, hcame, Fold.value_number]
    rfl

theorem Course.eq_of_loses {n : Node} (hn : n ∈ (productOfFirst k hk).nodes) {j : Nat} (hj : j < n.inputArity)
    {t : Nat} (hloses : Queue.Loses (σ n.id) s.queue.toNat j t) : n.id = 1 ∧ j = 0 := by
  have hsingle (hn : n ∈ (productOfFirst k hk).nodes) (hone : n.kind.inputs.length = 1) : False := by
    refine Queue.not_loses_of_held_eq_nil hq ?_ hloses
    rw [← List.length_eq_zero_iff, Queue.length_held]
    exact (hσ.runs n hn).load_eq_zero hq (hone ▸ Kind.inStep_single _) hj t
  have hnodes := hn
  simp only [productOfFirst, make, List.mem_cons, List.not_mem_nil, or_false] at hnodes
  rcases hnodes with rfl | rfl | rfl
  · exact (hsingle hn rfl).elim
  · obtain rfl | rfl : j = 0 ∨ j = 1 := by
      have hj : j < 2 := hj
      omega
    · exact ⟨rfl, rfl⟩
    · have hheld := Queue.held_second_of_lags (hσ.product_queues hq) hq (hσ.product_lags hq) rfl t
      exact (Queue.not_loses_of_held_eq_nil hq hheld hloses).elim
  · exact (hsingle hn rfl).elim

theorem Course.productOfFirst_first_loss_iff (t : Nat) : (Queue.Loses (σ 1) s.queue.toNat 0 t ∧
    ∀ u < t, ¬ Queue.Loses (σ 1) s.queue.toNat 0 u) ↔
      x.fires t = true ∧ IsLeast {n | backlog k.toNat n = s.queue.toNat + 1} (x.rank t) := by
  rw [Queue.first_loss_iff (hσ.product_queues hq) hq (hσ.product_lags hq) rfl (toNat_pos hk),
    (hσ.productOfFirst_inputs hq).2.1, Stream.events_clean, Stream.fires_clean]
  refine and_congr_right fun hx => ?_
  rw [Stream.rank_of_fires hx]

theorem Course.productOfFirst_not_loses (hone : k = 1) (t : Nat) : ¬ Queue.Loses (σ 1) s.queue.toNat 0 t := by
  rw [Queue.loses_iff_of_lags (hσ.product_queues hq) hq (hσ.product_lags hq) rfl (toNat_pos hk), hone]
  rintro ⟨-, hmod, -⟩
  exact hmod (Nat.mod_one _)

end Plan
end StreamCheck.Network

namespace StreamCheck
open Network Smv

def QueueFlags.Loses (f : QueueFlags) (σ : Trace) (t : Nat) : Prop :=
  ∃ j, f.name.name = .queueFlags j ∧ Queue.Loses (σ.at f.name.path) f.size.toNat j t

end StreamCheck

namespace StreamCheck.Pipeline
open Network Smv Creator

section
variable {c : Configuration} {P Q : Plan} {w : Workspace} {compiled : CompiledGraph} (h : IsModel c P Q w compiled)
  (hwiring : c.wiring? = none)
include h hwiring

theorem IsModel.mem_queueFlags_iff {f : QueueFlags} : f ∈ compiled.queueFlags ↔
    ∃ n ∈ P.nodes, ∃ j < n.inputArity, f = ⟨⟨[w.nextNode + n.id], .queueFlags j⟩, c.queue⟩ := by
  have hshows := shows_plain c P Q w
  rw [IsModel, hwiring] at h
  rw [Workspace.mem_queueFlags_compile (Catalog.orderly_built none).wiredThroughout h]
  constructor
  · rintro ⟨path, n, j, hn, hj, rfl⟩
    obtain ⟨m, hm, rfl, rfl⟩ := hshows.leaf_iff.1 hn
    rw [Node.inputArity_shift] at hj
    exact ⟨m, hm, j, hj, rfl⟩
  · rintro ⟨m, hm, j, hj, rfl⟩
    refine ⟨_, m.shift w.nextNode, j, hshows.leaf_iff.2 ⟨m, hm, rfl, rfl⟩, ?_, rfl⟩
    rwa [Node.inputArity_shift]

theorem IsModel.exists_part {n : Node} (hn : n ∈ P.nodes) : ∃ part ∈ compiled.model.parts,
    part.id = w.nextNode + n.id ∧ (n.shift w.nextNode).leafModule (sizesOf c) = .ok part.module := by
  have hshows := shows_plain c P Q w
  rw [IsModel, hwiring] at h
  have hmem := hshows.nodes ▸ List.mem_map_of_mem hn
  obtain ⟨part, hpart, hinstance⟩ :=
    Workspace.exists_instance (Workspace.compile_eq_ok h).2.1 (Catalog.orderly_built none).fed.distinct hmem
  have hleaf : (n.shift w.nextNode).inner? = none := by
    rw [Node.inner?_shift]
    exact P.leaf n hn
  exact ⟨part, hpart, (Workspace.instanceOf_eq_ok hinstance).1, Workspace.leafModule_instanceOf hinstance hleaf⟩

end

/-- The first event that a pipeline loses, in any of its queues. -/
def FirstLoss (compiled : CompiledGraph) (σ : Trace) (f : QueueFlags) (t : Nat) : Prop :=
  f.Loses σ t ∧ ∀ f' ∈ compiled.queueFlags, ∀ u < t, ¬ f'.Loses σ u

section
variable {c : Configuration} {w : Workspace} {compiled : CompiledGraph} {σ : Trace} {f : QueueFlags} {k : Int}
  {hk : 0 < k} (h : IsModel c (.productOfFirst k hk) (.productOfFirst k hk) w compiled) (hwiring : c.wiring? = none)
  (hσ : compiled.model.IsRun σ) (hf : f ∈ compiled.queueFlags) (t : Nat)
include h hwiring hσ hf

theorem IsModel.productOfFirst_loses_iff : f.Loses σ t ↔
    f = ⟨⟨[w.nextNode + 1], .queueFlags 0⟩, c.queue⟩ ∧ Queue.Loses (plainPart w σ 1) c.queue.toNat 0 t := by
  have hcourse := h.course hwiring hσ
  constructor
  · rintro ⟨j, hname, hloses⟩
    obtain ⟨n, hn, j', hj, rfl⟩ := (h.mem_queueFlags_iff hwiring).1 hf
    obtain rfl : j' = j := Name.queueFlags.inj hname
    obtain ⟨hid, rfl⟩ := hcourse.eq_of_loses c.queue_pos hn hj hloses
    rw [hid]
    exact ⟨rfl, hid ▸ hloses⟩
  · rintro ⟨rfl, hloses⟩
    exact ⟨0, rfl, hloses⟩

theorem IsModel.productOfFirst_firstLoss_iff : FirstLoss compiled σ f t ↔
    f = ⟨⟨[w.nextNode + 1], .queueFlags 0⟩, c.queue⟩ ∧ ((incoming w.nextPipe).stream σ).fires t = true ∧
      IsLeast {n | backlog k.toNat n = c.queue.toNat + 1} (((incoming w.nextPipe).stream σ).rank t) := by
  have hcourse := h.course hwiring hσ
  have hloses {f : QueueFlags} (hf : f ∈ compiled.queueFlags) (t : Nat) :=
    h.productOfFirst_loses_iff hwiring hσ hf t
  have hfirst := hcourse.productOfFirst_first_loss_iff c.queue_pos
  rw [FirstLoss, hloses hf]
  constructor
  · rintro ⟨⟨rfl, hlost⟩, hnone⟩
    exact ⟨rfl, (hfirst t).1 ⟨hlost, fun u hu hearlier => hnone _ hf u hu ((hloses hf u).2 ⟨rfl, hearlier⟩)⟩⟩
  · rintro ⟨rfl, hleast⟩
    obtain ⟨hlost, hnone⟩ := (hfirst t).2 hleast
    exact ⟨⟨rfl, hlost⟩, fun f' hf' u hu hearlier => hnone u hu ((hloses hf' u).1 hearlier).2⟩

end

/-- In the product of the first of every `k` with each event, over queues of `q` slots: the outputs come with the
events of the ranks `1`, `k + 1`, `2 * k + 1` and so on, and the `n`-th is the product of that event with the `n`-th
of all, if the backlog of `n` events is at most `q`. The first event that is lost at all is that of the least rank
with a backlog of `q + 1`, and it is lost on the first input of the product. For `k = 1`, none is. -/
theorem productOfFirst_over_ranks (c : Configuration) (hquery : c.query = Query.productOfFirst.name)
    (hwiring : c.wiring? = none) (archive : Archive) : ∃ archive' compiled i o product first,
      (modelOf c).run archive = .ok (some (.network compiled)) archive' ∧ RunsOver c.domain compiled ∧
      compiled.inputs = [i] ∧ compiled.outputs = [o] ∧
      (∃ part ∈ compiled.model.parts, part.id = product ∧
        (Node.mk product (.apply .multiplication .integer)).leafModule (sizesOf c) = .ok part.module) ∧
      first ∈ compiled.queueFlags ∧ first.name = ⟨[product], .queueFlags 0⟩ ∧
      let k := (effective c.shape defaultShape).toNat
      let q := c.queue.toNat
      (2 ≤ k → ∃ n, IsLeast {n | backlog k n = q + 1} n) ∧
      ∀ σ, compiled.model.IsRun σ →
        let x := (incoming i).stream σ
        let y := (outgoing o).stream σ
        (∃ e, x.Carries e) ∧ (∀ e, x.Carries e → x.Multiplies c.domain k q e y) ∧
        (∀ f ∈ compiled.queueFlags, ∀ t, FirstLoss compiled σ f t ↔
          f = first ∧ x.fires t = true ∧ IsLeast {n | backlog k n = q + 1} (x.rank t)) ∧
        (k = 1 → ∀ f ∈ compiled.queueFlags, ∀ t, ¬ f.Loses σ t) := by
  have hk := effective_pos c.shape defaultShape_pos
  have hP : Query.productOfFirst.blueprint c.domain.toNat c.shape = some (.productOfFirst _ hk) := rfl
  obtain ⟨archive', compiled, hrun, h⟩ := exists_isModel (q := .productOfFirst) (by rw [hquery]; rfl) hP hP archive
  have houtputs := h.outputs_eq
  simp only [hwiring] at houtputs
  have hproduct : (⟨1, .apply .multiplication .integer⟩ : Node) ∈ (Plan.productOfFirst _ hk).nodes :=
    List.mem_of_getElem? (show (Plan.productOfFirst _ hk).nodes[1]? = some _ from rfl)
  have hfirst := (h.mem_queueFlags_iff hwiring).2 ⟨_, hproduct, 0, Nat.zero_lt_two, rfl⟩
  refine ⟨archive', compiled, _, _, _, _, hrun, h.runsOver, h.inputs_eq, houtputs, h.exists_part hwiring hproduct,
    hfirst, rfl, fun hk => exists_isLeast_backlog hk _, fun σ hσ => ?_⟩
  have hcourse := h.course hwiring hσ
  refine ⟨?_, fun e he => ?_, fun f hf t => h.productOfFirst_firstLoss_iff hwiring hσ hf t, fun hone f hf t hloses => ?_⟩
  · exact (h.over hσ).exists_carries
  · rw [h.plain_outgoing hwiring hσ]
    exact hcourse.productOfFirst_multiplies c.queue_pos he
  · have hone : effective c.shape defaultShape = 1 := by omega
    exact hcourse.productOfFirst_not_loses c.queue_pos hone t
      ((h.productOfFirst_loses_iff hwiring hσ hf t).1 hloses).2

/-- The product of each event with every second one, over queues of one slot. -/
def everySecond : Configuration where
  query := Query.productOfFirst.name
  domain := 5
  queue := 1
  k := some 2
  domain_pos := by decide
  queue_pos := Int.one_pos

/-- Of the events `1, 2, 3, 4` the second product is that of `2` and `3`, and the `4` is lost. -/
theorem productOfFirst_over_ranks_of_everySecond : everySecond.query = Query.productOfFirst.name ∧
    everySecond.wiring? = none ∧ ∃ archive compiled o first σ,
      (modelOf everySecond).run default = .ok (some (.network compiled)) archive ∧ compiled.model.IsRun σ ∧
      ((outgoing o).stream σ).fires 2 = true ∧ ((outgoing o).stream σ).value 2 = .number (2 * 3 % 5) ∧
      FirstLoss compiled σ first 3 := by
  obtain ⟨archive, compiled, i, o, product, first, hrun, hover, hinputs, -, -, hfirst, -, -, hranks⟩ :=
    productOfFirst_over_ranks everySecond rfl (by decide) default
  have hcounted : (Stream.always fun t => .number (((t + 1 : Nat) : Int) % 5)).Over everySecond.domain :=
    Stream.over_always fun t => ⟨Int.emod_nonneg _ (by decide), Int.le_sub_one_of_lt (Int.emod_lt_of_pos _ everySecond.domain_pos)⟩
  obtain ⟨σ, hσ, hinput⟩ := hover _ hcounted
  have hstream := hinput i (hinputs ▸ List.mem_cons_self)
  obtain ⟨-, hmultiplies, hlosses, -⟩ := hranks σ hσ
  rw [hstream] at hmultiplies hlosses
  have hrank (t : Nat) : (Stream.always fun t => .number (((t + 1 : Nat) : Int) % 5)).rank t = t + 1 := by
    rw [Stream.rank_of_fires rfl, Stream.length_events_of_fires fun _ => rfl]
  have hcarries : (Stream.always fun t => .number (((t + 1 : Nat) : Int) % 5)).Carries fun r => (r : Int) % 5 := by
    intro t _
    rw [hrank]
    rfl
  have hm := hmultiplies _ hcarries
  have hout : ((outgoing o).stream σ).fires 2 = true := (hm.fires_iff 2).2 ⟨rfl, 1, hrank 2⟩
  have hplace : ((outgoing o).stream σ).rank 2 = 2 := by
    have heq := hm.rank_eq 2 hout
    have hpos : 0 < ((outgoing o).stream σ).rank 2 := Stream.rank_of_fires hout ▸ Nat.succ_pos _
    rw [hrank] at heq
    change 3 = (_ - 1) * 2 + 1 at heq
    omega
  have hroom : backlog 2 (((outgoing o).stream σ).rank 2) ≤ 1 := by
    rw [hplace]
    decide
  have hvalue := hm.value_eq 2 hout hroom
  rw [hplace] at hvalue
  refine ⟨rfl, by decide, archive, compiled, o, first, σ, hrun, hσ, hout, hvalue, ?_⟩
  exact (hlosses first hfirst 3).2 ⟨rfl, rfl, (isLeast_backlog_iff Nat.zero_lt_two).2 (by decide)⟩

end StreamCheck.Pipeline
