import StreamCheck.Proofs.Formula.Typing
import StreamCheck.Proofs.Network.Discovery
import StreamCheck.Subject.Applicable

/-! The order in which pipes and queues are listed does not show in the text of a formula. -/

namespace StreamCheck
open Smv Network

namespace Formula

theorem pairwise_ascending (pipes : List Int) : (ascending pipes).Pairwise (· ≤ ·) := by
  refine (List.pairwise_mergeSort ?_ ?_ pipes).imp of_decide_eq_true
  · intro a b c hab hbc
    exact decide_eq_true (Int.le_trans (of_decide_eq_true hab) (of_decide_eq_true hbc))
  · intro a b
    rw [Bool.or_eq_true, decide_eq_true_eq, decide_eq_true_eq]
    exact Int.le_total a b

theorem ascending_congr {pipes pipes' : List Int} (h : pipes.Perm pipes') : ascending pipes = ascending pipes' :=
  List.Perm.eq_of_pairwise (fun _ _ _ _ => Int.le_antisymm) (pairwise_ascending pipes) (pairwise_ascending pipes')
    ((List.mergeSort_perm pipes _).trans (h.trans (List.mergeSort_perm pipes' _).symm))

theorem pairwise_byName (flags : List QueueFlags) : (byName flags).Pairwise fun a b => a.name.text ≤ b.name.text := by
  have hle (a b : QueueFlags) : (!decide (b.name.text < a.name.text)) = true ↔ a.name.text ≤ b.name.text := by
    rw [Bool.not_eq_true', decide_eq_false_iff_not, String.not_lt]
  refine (List.pairwise_mergeSort (fun a b c hab hbc => ?_) (fun a b => ?_) flags).imp fun h => (hle _ _).1 h
  · exact (hle a c).2 (String.le_trans ((hle a b).1 hab) ((hle b c).1 hbc))
  · rw [Bool.or_eq_true, hle, hle]
    exact String.le_total _ _

theorem byName_congr {flags flags' : List QueueFlags} (h : flags.Perm flags')
    (hnames : (flags.map (·.name.text)).Nodup) : byName flags = byName flags' := by
  refine List.Perm.eq_of_pairwise (fun a b ha hb hab hba => ?_) (pairwise_byName flags) (pairwise_byName flags')
    ((List.mergeSort_perm flags _).trans (h.trans (List.mergeSort_perm flags' _).symm))
  have hb' : b ∈ flags := h.mem_iff.2 (mem_byName.1 hb)
  exact List.inj_on_of_nodup_map hnames (mem_byName.1 ha) hb' (String.le_antisymm hab hba)

theorem text_congr {f f' : Formula} (h : f.statement? = f'.statement?) : f.text = f'.text := by
  rw [text, text, h]

end Formula

namespace Inventory
variable {i j : Inventory}

theorem map_unlessEmpty_congr {α β γ : Type} {xs ys : List α} (h : xs.Perm ys) {f : β → γ} {a b : β} (hab : f a = f b) :
    (unlessEmpty xs a).map f = (unlessEmpty ys b).map f := by
  rw [unlessEmpty, unlessEmpty, h.isEmpty_eq]
  split_ifs
  · rfl
  · exact congrArg some hab

theorem SameUpToOrder.text?_eq (h : i.SameUpToOrder j) (hnames : (i.flags.map (·.name.text)).Nodup) (name : String) :
    i.text? name = j.text? name := by
  have hinputs := Formula.ascending_congr h.inputs
  have houtputs := Formula.ascending_congr h.outputs
  have hbooleans := Formula.ascending_congr h.booleans
  have hintegers := Formula.ascending_congr h.integers
  rw [text?, text?]
  cases hp : Property.ofName? name with
  | none => rfl
  | some p =>
    rw [Option.bind_some, Option.bind_some]
    cases p with
    | xStaysNull => rfl
    | noFullQueues =>
      refine congrArg some (Formula.text_congr ?_)
      simp only [Formula.statement?, Formula.byName_congr h.flags hnames]
    | liveness | boundedLiveness =>
      refine map_unlessEmpty_congr h.outputs (Formula.text_congr ?_)
      simp only [Formula.statement?, Formula.whenever, hinputs, houtputs]
    | outputAlwaysEven =>
      refine map_unlessEmpty_congr h.integers (Formula.text_congr ?_)
      simp only [Formula.statement?, hintegers]
    | outputAlwaysTrue | sequenceEquivalence =>
      refine map_unlessEmpty_congr h.booleans (Formula.text_congr ?_)
      simp only [Formula.statement?, hbooleans]
    | stepEquivalence =>
      refine congrArg some (Formula.text_congr ?_)
      simp only [Formula.statement?, houtputs]

theorem text?_inventory (c : CompiledGraph) (name : String) :
    c.inventory.text? name = (Formula.named? name (.network c)).map Formula.text := by
  rw [text?, Formula.named?]
  refine congrArg (Option.map Formula.text) (Option.bind_congr fun p _ => ?_)
  cases p <;> rfl

end Inventory

namespace Network.Session
open Workspace

theorem nodup_names_queueFlags {s : Session} (hs : s.Sound) {name : String} {z : Sizes} {g : GraphId}
    {shape : Option Int} {c : CompiledGraph} (hc : CompiledGraph.compile s.workspace name z g shape = .ok c) :
    (c.queueFlags.map (·.name.text)).Nodup := by
  obtain ⟨hnodup, -, hordinary⟩ := declared_compile (hs.wiredThroughout g) (hs.nodup_pipes g) (CompiledGraph.compile_eq_ok hc)
  obtain ⟨-, hentries, hnames⟩ := CompiledGraph.queueVariables_eq hordinary hnodup
  rw [hentries, List.map_map] at hnames
  exact hnames

/-- After any calls, the formulas of a graph that compiles have one text each, in whatever order its queues and pipes
are listed. -/
theorem text?_eq_of_sameUpToOrder (cs : List Call) (name : String) (z : Sizes) (g : GraphId) (shape : Option Int)
    {c : CompiledGraph} (hc : CompiledGraph.compile (({} : Session).performAll cs).workspace name z g shape = .ok c)
    {i j : Inventory} (hi : i.SameUpToOrder c.inventory) (hj : j.SameUpToOrder c.inventory) (property : String) :
    i.text? property = j.text? property ∧
      i.text? property = (Formula.named? property (.network c)).map Formula.text := by
  have hnames : (c.queueFlags.map (·.name.text)).Nodup := nodup_names_queueFlags (sound_performAll cs) hc
  have hown {k : Inventory} (hk : k.SameUpToOrder c.inventory) : k.text? property = c.inventory.text? property :=
    hk.text?_eq ((hk.flags.map _).nodup_iff.2 hnames) property
  rw [hown hi, hown hj]
  exact ⟨rfl, Inventory.text?_inventory c property⟩

/-- The two queues of the relay may be listed from either end. -/
theorem text?_eq_of_sameUpToOrder_of_relay :
    ∃ c, CompiledGraph.compile (({} : Session).performAll relay).workspace "relay" ⟨4, 2⟩ 0 none = .ok c ∧
      c.queueFlags.reverse ≠ c.queueFlags ∧
      { c.inventory with flags := c.queueFlags.reverse }.text? "No full queues" = c.inventory.text? "No full queues" := by
  obtain ⟨c, hc⟩ := exists_eq_ok
    (x := CompiledGraph.compile (({} : Session).performAll relay).workspace "relay" ⟨4, 2⟩ 0 none) (by decide +kernel)
  have hdiffer : (CompiledGraph.compile (({} : Session).performAll relay).workspace "relay" ⟨4, 2⟩ 0 none).toOption.all
      (fun c => decide (c.queueFlags.reverse ≠ c.queueFlags)) = true := by decide +kernel
  rw [hc] at hdiffer
  have hown : c.inventory.SameUpToOrder c.inventory := ⟨.refl _, .refl _, .refl _, .refl _, .refl _⟩
  have hreversed : { c.inventory with flags := c.queueFlags.reverse }.SameUpToOrder c.inventory :=
    ⟨List.reverse_perm _, .refl _, .refl _, .refl _, .refl _⟩
  exact ⟨c, hc, of_decide_eq_true hdiffer,
    (text?_eq_of_sameUpToOrder relay "relay" ⟨4, 2⟩ 0 none hc hreversed hown "No full queues").1⟩

end Network.Session
end StreamCheck
