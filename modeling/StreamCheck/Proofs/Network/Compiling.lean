import StreamCheck.Network.Compilable
import StreamCheck.Proofs.Network.Courses
import StreamCheck.Proofs.Network.Nesting

/-! Graphs that compile: those that leave nothing open, in themselves and in their groups. Validity and the
search for what feeds an input ask different things of a graph; together they ask for what is listed in
`Compilable`. -/

namespace StreamCheck.Network
open Smv

/-! ### What feeds an input -/

namespace Graph
variable {g : Graph} {around : List Node} {side : Side} {n : Node} {j : Nat}

theorem isBound_of_mem {slot : Slot} (h : slot ∈ (g.bindings side).map Prod.fst) :
    g.isBound side slot = true := by
  obtain ⟨⟨slot, b⟩, hb, rfl⟩ := List.mem_map.1 h
  exact lookup_isSome_of_mem hb

theorem exists_feed_iff (supply : Supply) : (∃ wire, Workspace.feed g supply n j = .ok wire) ↔
    (∃ c, g.binding? .input (n.id, j) = some (.connection c)) ∨ (supply.lookup (n.id, j)).isSome = true := by
  rw [Workspace.feed, incoming?_eq]
  cases hwire : supply.lookup (n.id, j) with
  | none => cases g.binding? .input (n.id, j) with
    | none => simp
    | some b => cases b <;> simp
  | some wire => cases g.binding? .input (n.id, j) with
    | none => simp
    | some b => cases b <;> simp

theorem Fed.pipeSupply_isSome_iff (h : g.Fed around) (slot : Slot) :
    ((Workspace.pipeSupply g).lookup slot).isSome = true ↔
      ∃ e, g.binding? .input slot = some (.external e) := by
  constructor
  · intro hsome
    obtain ⟨wire, hwire⟩ := Option.isSome_iff_exists.1 hsome
    obtain ⟨e, he, heq⟩ := List.mem_map.1 (mem_of_lookup_eq_some hwire)
    obtain ⟨rfl, -⟩ := Prod.mk.inj heq
    exact ⟨e, (h.wired .input).binding?_eq_some (external_mem_uses around .input he)⟩
  · rintro ⟨e, hbinding⟩
    obtain ⟨p, rfl, hu⟩ := (h.wired .input).exists_use hbinding
    obtain ⟨he, rfl⟩ := mem_uses.1 hu
    exact lookup_isSome_of_mem (List.mem_map.2 ⟨e, he, rfl⟩)

theorem Fed.groupSupply_isSome_iff (h : g.Fed around) (slot : Slot) :
    ((Workspace.groupSupply g).lookup slot).isSome = true ↔
      ∃ group, g.binding? .input slot = some (.association group) := by
  constructor
  · intro hsome
    obtain ⟨wire, hwire⟩ := Option.isSome_iff_exists.1 hsome
    obtain ⟨a, ha, heq⟩ := List.mem_map.1 (mem_of_lookup_eq_some hwire)
    obtain ⟨rfl, -⟩ := Prod.mk.inj heq
    cases around with
    | nil =>
      rw [show g.entries = [] from h.inside rfl .input] at ha
      nomatch ha
    | cons group around =>
      exact ⟨group, (h.wired .input).binding?_eq_some
        (association_mem_uses .input (List.mem_cons_self) ha)⟩
  · rintro ⟨group, hbinding⟩
    obtain ⟨p, rfl, hu⟩ := (h.wired .input).exists_use hbinding
    obtain ⟨-, i, hi⟩ := mem_uses.1 hu
    exact lookup_isSome_of_mem (List.mem_map.2 ⟨(i, p), hi, rfl⟩)

theorem Fed.exists_feed_pipes (h : g.Fed around) : (∃ wire, Workspace.feed g (Workspace.pipeSupply g) n j = .ok wire) ↔
    g.isBound .input (n.id, j) = true ∧ ∀ group, g.binding? .input (n.id, j) ≠ some (.association group) := by
  rw [exists_feed_iff, h.pipeSupply_isSome_iff, isBound]
  cases g.binding? .input (n.id, j) with
  | none => simp
  | some b => cases b <;> simp

theorem Fed.exists_feed_group (h : g.Fed around) : (∃ wire, Workspace.feed g (Workspace.groupSupply g) n j = .ok wire) ↔
    g.isBound .input (n.id, j) = true ∧ ∀ e, g.binding? .input (n.id, j) ≠ some (.external e) := by
  rw [exists_feed_iff, h.groupSupply_isSome_iff, isBound]
  cases g.binding? .input (n.id, j) with
  | none => simp
  | some b => cases b <;> simp

end Graph

/-- The kinds that have a behaviour, and what a constant must be to have one. -/
theorem Node.exists_behaviour_iff {n : Node} {z : Sizes} :
    (n.inner? = none → ∃ b, Circuit.behaviour z n.kind = .ok b) ↔ (∀ ins outs, n.kind ≠ .bare ins outs) ∧
      ∀ v input, n.kind = .constant (.number v) input → 0 ≤ v ∧ v < z.domain := by
  cases hkind : n.kind with
  | bare ins outs => simp [Node.inner?, hkind, Circuit.behaviour]
  | group inner ins outs => simp [Node.inner?, hkind]
  | constant v input =>
    cases v with
    | truth b => simp [Circuit.behaviour, Circuit.literal, Except.map]
    | number v =>
      by_cases hv : 0 ≤ v ∧ v < z.domain
      · simp [Circuit.behaviour, Circuit.literal, Except.map, hv]
      · simp [Node.inner?, hkind, Circuit.behaviour, Circuit.literal, Except.map, hv]
  | _ => simp [Circuit.behaviour]

namespace Workspace
variable {w : Workspace} {z : Sizes} {height fuel : Nat} {g : GraphId} {around : List Node} {supply : Supply}

/-! ### At every depth -/

theorem forall_holds_iff {P : GraphId → Node → Prop} : (∀ around n, w.Holds g around n → P around n) ↔
    ∀ n ∈ (w.graph g).nodes, P g n ∧
      ∀ inner, n.inner? = some inner → ∀ around m, w.Holds inner around m → P around m := by
  constructor
  · intro h n hn
    refine ⟨h g n ⟨[], .top, hn⟩, ?_⟩
    rintro inner hinner around m ⟨place, hplace, hm⟩
    exact h around m ⟨_, hplace.through hn hinner, hm⟩
  · rintro h around n ⟨place, hplace, hn⟩
    obtain ⟨-, rfl⟩ | ⟨place', group, mid, -, hgroup, hmid, hrest⟩ := hplace.outermost
    · exact (h n hn).1
    · exact (h group hgroup).2 mid hmid around n ⟨place', hrest, hn⟩

theorem forall_of_holds {P : Node → Prop} (h : ∀ graph ∈ w.graphs, ∀ n ∈ graph.nodes, P n) {around : GraphId}
    {n : Node} (hn : w.Holds g around n) : P n := by
  obtain ⟨place, -, hn⟩ := hn
  have hlt : around < w.graphs.length := lt_of_contains (n := n) (Graph.contains_iff.2 (List.mem_map_of_mem hn))
  rw [graph, List.getD_eq_getElem _ _ hlt] at hn
  exact h _ (List.getElem_mem hlt) n hn

theorem checkFed_eq_ok_iff {graph : Graph} {n : Node} : checkFed graph n = .ok () ↔
    ∀ j < n.inputArity, graph.isBound .input (n.id, j) = true := by
  rw [checkFed, forM_eq_ok_iff]
  refine forall_congr' fun j => ?_
  rw [List.mem_range]
  cases graph.isBound .input (n.id, j) <;> simp

theorem checkAssociated_eq_ok_iff {inner : Graph} {n : Node} {side : Side} :
    checkAssociated inner n side = .ok () ↔
      ∀ i < n.arity side, ((inner.associations side).lookup i).isSome = true := by
  rw [checkAssociated, forM_eq_ok_iff]
  refine forall_congr' fun i => ?_
  rw [List.mem_range]
  cases ((inner.associations side).lookup i).isSome <;> simp

theorem NestsWithin.validateWithin_eq_ok_iff (h : w.NestsWithin height g) (hfuel : height ≤ fuel) :
    w.validateWithin fuel g = .ok () ↔ w.Valid g := by
  have hvalid : w.Valid g ↔ ∀ around n, w.Holds g around n →
      checkFed (w.graph around) n = .ok () ∧ ∀ inner, n.inner? = some inner →
        ∀ side, checkAssociated (w.graph inner) n side = .ok () := by
    simp only [checkFed_eq_ok_iff, checkAssociated_eq_ok_iff]
    exact ⟨fun hv around n hn => ⟨hv.fed around n hn, hv.associated around n hn⟩,
      fun hv => ⟨fun around n hn => (hv around n hn).1, fun around n hn => (hv around n hn).2⟩⟩
  rw [hvalid]
  clear hvalid
  induction height generalizing fuel g with
  | zero => exact absurd h id
  | succ height ih =>
    obtain ⟨fuel, rfl⟩ := Nat.exists_eq_succ_of_ne_zero (by omega : fuel ≠ 0)
    rw [validateWithin, forM_eq_ok_iff, forall_holds_iff]
    refine forall₂_congr fun n hn => ?_
    rw [bind_eq_ok_iff]
    cases hinner : n.inner? with
    | none =>
      constructor
      · rintro ⟨_, hfed, -⟩
        exact ⟨⟨hfed, fun _ hsome => nomatch hsome⟩, fun _ hsome => nomatch hsome⟩
      · rintro ⟨⟨hfed, -⟩, -⟩
        exact ⟨(), hfed, rfl⟩
    | some inner =>
      have hinside := ih (h n hn inner hinner) (Nat.le_of_succ_le_succ hfuel)
      constructor
      · rintro ⟨_, hfed, hrest⟩
        obtain ⟨_, hinput, hrest⟩ := bind_eq_ok_iff.1 hrest
        obtain ⟨_, houtput, hrest⟩ := bind_eq_ok_iff.1 hrest
        refine ⟨⟨hfed, ?_⟩, ?_⟩
        · intro inner' hinner' side
          obtain rfl := Option.some.inj hinner'
          cases side with
          | input => exact hinput
          | output => exact houtput
        · intro inner' hinner'
          obtain rfl := Option.some.inj hinner'
          exact hinside.1 hrest
      · rintro ⟨⟨hfed, hassociated⟩, hrest⟩
        exact ⟨(), hfed, bind_eq_ok_iff.2 ⟨(), hassociated inner rfl .input,
          bind_eq_ok_iff.2 ⟨(), hassociated inner rfl .output, hinside.2 (hrest inner rfl)⟩⟩⟩

/-! ### Instances -/

theorem exists_arguments_iff {graph : Graph} {n : Node} : (∃ args, arguments graph supply n = .ok args) ↔
    ∀ j < n.inputArity, ∃ wire, feed graph supply n j = .ok wire := by
  have hmapM := exists_mapM_eq_ok (f := feed graph supply n) (l := List.range n.inputArity)
  simp only [List.mem_range] at hmapM
  rw [← hmapM]
  constructor
  · rintro ⟨args, h⟩
    obtain ⟨wires, hwires, -⟩ := bind_eq_ok_iff.1 h
    exact ⟨wires, hwires⟩
  · rintro ⟨wires, hwires⟩
    exact ⟨_, bind_eq_ok_iff.2 ⟨wires, hwires, rfl⟩⟩

/-- What the instance of a node asks for, besides what feeds the node. -/
structure Instantiable (w : Workspace) (z : Sizes) (n : Node) : Prop where
  leaf : n.inner? = none → ∃ b, Circuit.behaviour z n.kind = .ok b
  inside : ∀ inner, n.inner? = some inner → ∀ m ∈ (w.graph inner).nodes, ∀ j < m.inputArity,
    ∃ wire, feed (w.graph inner) (groupSupply (w.graph inner)) m j = .ok wire

theorem NestsWithin.exists_instances_iff (h : w.NestsWithin height g) (hfuel : height ≤ fuel) :
    (∃ parts, instances w z fuel g supply = .ok parts) ↔
      (∀ n ∈ (w.graph g).nodes, ∀ j < n.inputArity, ∃ wire, feed (w.graph g) supply n j = .ok wire) ∧
        ∀ around n, w.Holds g around n → w.Instantiable z n := by
  induction height generalizing fuel g supply with
  | zero => exact absurd h id
  | succ height ih =>
    obtain ⟨fuel, rfl⟩ := Nat.exists_eq_succ_of_ne_zero (by omega : fuel ≠ 0)
    rw [instances, exists_mapM_eq_ok, forall_holds_iff, ← forall₂_and]
    refine forall₂_congr fun n hn => ?_
    cases hinner : n.inner? with
    | none =>
      rw [← exists_arguments_iff]
      constructor
      · rintro ⟨i, hi⟩
        obtain ⟨c, hc, hi⟩ := bind_eq_ok_iff.1 hi
        obtain ⟨args, hargs, -⟩ := bind_eq_ok_iff.1 hi
        refine ⟨⟨args, hargs⟩, ⟨fun _ => ?_, fun _ hsome => nomatch hinner.symm.trans hsome⟩, fun _ hsome => nomatch hsome⟩
        cases hb : Circuit.behaviour z n.kind with
        | ok b => exact ⟨b, rfl⟩
        | error e =>
          rw [Circuit.ofKind, hb] at hc
          nomatch hc
      · rintro ⟨⟨args, hargs⟩, ⟨hleaf, -⟩, -⟩
        obtain ⟨b, hb⟩ := hleaf hinner
        have hcircuit : Circuit.ofKind z n.kind = .ok (Queue.circuits z n.kind.inputs ++ b) := by
          rw [Circuit.ofKind, hb]
          rfl
        exact ⟨_, bind_eq_ok_iff.2 ⟨_, hcircuit, bind_eq_ok_iff.2 ⟨args, hargs, rfl⟩⟩⟩
    | some inner =>
      have hinside : (∃ parts, instances w z fuel inner (groupSupply (w.graph inner)) = .ok parts) ↔ _ :=
        ih (h n hn inner hinner) (Nat.le_of_succ_le_succ hfuel)
      rw [← exists_arguments_iff]
      constructor
      · rintro ⟨i, hi⟩
        obtain ⟨parts, hparts, hi⟩ := bind_eq_ok_iff.1 hi
        obtain ⟨args, hargs, -⟩ := bind_eq_ok_iff.1 hi
        obtain ⟨hfeed, hrest⟩ := hinside.1 ⟨parts, hparts⟩
        refine ⟨⟨args, hargs⟩, ⟨fun hnone => (nomatch hinner.symm.trans hnone), fun inner' hinner' => ?_⟩, ?_⟩
        · obtain rfl := Option.some.inj (hinner.symm.trans hinner')
          exact hfeed
        · intro inner' hinner'
          obtain rfl := Option.some.inj hinner'
          exact hrest
      · rintro ⟨⟨args, hargs⟩, ⟨-, hfeed⟩, hrest⟩
        obtain ⟨parts, hparts⟩ := hinside.2 ⟨hfeed inner hinner, hrest inner rfl⟩
        exact ⟨_, bind_eq_ok_iff.2 ⟨parts, hparts, bind_eq_ok_iff.2 ⟨args, hargs, rfl⟩⟩⟩

/-! ### Models -/

structure WiredThroughout (w : Workspace) (g : GraphId) (around : List Node) : Prop where
  top : (w.graph g).Fed around
  inside : ∀ around n, w.Holds g around n → ∀ inner, n.inner? = some inner → (w.graph inner).Fed [n]

theorem WiredThroughout.within (h : w.WiredThroughout g around) {n : Node} (hn : n ∈ (w.graph g).nodes) {inner : GraphId}
    (hinner : n.inner? = some inner) : w.WiredThroughout inner [n] := by
  refine ⟨h.inside g n ⟨[], .top, hn⟩ inner hinner, ?_⟩
  rintro mid m ⟨place, hplace, hm⟩
  exact h.inside mid m ⟨_, hplace.through hn hinner, hm⟩

theorem exists_compile_iff : (∃ m, w.compile z g = .ok m) ↔
    w.validateWithin w.depth g = .ok () ∧ ∃ parts, w.instances z w.depth g (pipeSupply (w.graph g)) = .ok parts := by
  constructor
  · rintro ⟨m, hm⟩
    obtain ⟨hvalid, hparts, -⟩ := compile_eq_ok hm
    exact ⟨hvalid, m.parts, hparts⟩
  · rintro ⟨hvalid, parts, hparts⟩
    exact ⟨_, bind_eq_ok_iff.2 ⟨(), hvalid, bind_eq_ok_iff.2 ⟨parts, hparts, rfl⟩⟩⟩

theorem NestsWithin.exists_compile_iff (h : w.NestsWithin height g) (hdepth : height ≤ w.depth)
    (hw : w.WiredThroughout g around) : (∃ m, w.compile z g = .ok m) ↔ w.Compilable g z := by
  rw [Workspace.exists_compile_iff, h.validateWithin_eq_ok_iff hdepth, h.exists_instances_iff hdepth]
  constructor
  · rintro ⟨hvalid, hfeed, hnodes⟩
    have hmeant (around : GraphId) (n : Node) (hn : w.Holds g around n) :=
      Node.exists_behaviour_iff.1 (hnodes around n hn).leaf
    refine ⟨hvalid, fun around n hn => (hmeant around n hn).1, fun around n hn => (hmeant around n hn).2,
      fun n hn j hj => ?_, ?_⟩
    · exact (hw.top.exists_feed_pipes.1 (hfeed n hn j hj)).2
    · intro around group hgroup inner hinner n hn j hj
      have hfed := hw.inside around group hgroup inner hinner
      exact (hfed.exists_feed_group.1 ((hnodes around group hgroup).inside inner hinner n hn j hj)).2
  · intro hg
    refine ⟨hg.toValid, fun n hn j hj => ?_, fun around n hn => ⟨?_, fun inner hinner m hm j hj => ?_⟩⟩
    · exact hw.top.exists_feed_pipes.2 ⟨hg.fed g n ⟨[], .top, hn⟩ j hj, hg.outermost n hn j hj⟩
    · exact Node.exists_behaviour_iff.2 ⟨hg.behaving around n hn, hg.constants around n hn⟩
    · have hfed := hw.inside around n hn inner hinner
      obtain ⟨place, hplace, hmem⟩ := hn
      exact hfed.exists_feed_group.2 ⟨hg.fed inner m ⟨_, hplace.inside hmem hinner, hm⟩ j hj,
        hg.enclosed around n ⟨place, hplace, hmem⟩ inner hinner m hm j hj⟩

/-! ### Graphs that are complete level by level -/

/-- A graph nested no deeper than so many levels that leaves nothing open: every input is bound, every leaf
behaves in some way, every port of a group stands for one inside, and nothing inside a group is exposed. -/
inductive Complete (w : Workspace) (s : Sizes) : Nat → GraphId → Prop
  | intro {depth : Nat} {g : GraphId}
    (bound : ∀ n ∈ (w.graph g).nodes, ∀ j < n.inputArity, (w.graph g).isBound .input (n.id, j) = true)
    (leaf : ∀ n ∈ (w.graph g).nodes, n.inner? = none → ∃ b, Circuit.behaviour s n.kind = .ok b)
    (associated : ∀ n ∈ (w.graph g).nodes, ∀ inner, n.inner? = some inner → ∀ side, ∀ i < n.arity side,
      (((w.graph inner).associations side).lookup i).isSome = true)
    (enclosed : ∀ n ∈ (w.graph g).nodes, ∀ inner, n.inner? = some inner → (w.graph inner).inputs = [])
    (inside : ∀ n ∈ (w.graph g).nodes, ∀ inner, n.inner? = some inner → Complete w s depth inner) :
    Complete w s (depth + 1) g

theorem Complete.nestsWithin (h : w.Complete z height g) : w.NestsWithin height g := by
  induction h with
  | intro _ _ _ _ _ ih => exact fun n hn inner hinner => ih n hn inner hinner

theorem Complete.exists_of_holds {around : GraphId} {n : Node} (h : w.Complete z height g)
    (hn : w.Holds g around n) : n ∈ (w.graph around).nodes ∧ ∃ height', w.Complete z height' around := by
  obtain ⟨place, hplace, hn⟩ := hn
  refine ⟨hn, ?_⟩
  clear hn
  induction hplace with
  | top => exact ⟨height, h⟩
  | inside _ hmem hinner ih =>
    obtain ⟨height', haround⟩ := ih
    cases haround with
    | intro _ _ _ _ inside => exact ⟨_, inside _ hmem _ hinner⟩

theorem Orderly.exists_within (h : w.Orderly g around) {place : List Node} {inner : GraphId}
    (hplace : w.Within g place inner) : ∃ groups, w.Orderly inner groups := by
  induction hplace with
  | top => exact ⟨around, h⟩
  | inside _ hmem hinner ih =>
    obtain ⟨groups, hgroups⟩ := ih
    cases hgroups with
    | intro _ _ _ inside => exact ⟨_, inside _ hmem _ hinner⟩

theorem Orderly.wiredThroughout (h : w.Orderly g around) : w.WiredThroughout g around := by
  refine ⟨h.fed, ?_⟩
  rintro mid n ⟨place, hplace, hn⟩ inner hinner
  obtain ⟨groups, hgroups⟩ := h.exists_within hplace
  cases hgroups with
  | intro _ _ _ inside => exact (inside n hn inner hinner).fed

theorem Complete.valid (h : w.Complete z height g) : w.Valid g := by
  refine ⟨fun around n hn => ?_, fun around n hn => ?_⟩
  · obtain ⟨hmem, _, haround⟩ := h.exists_of_holds hn
    cases haround with
    | intro bound => exact bound n hmem
  · obtain ⟨hmem, _, haround⟩ := h.exists_of_holds hn
    cases haround with
    | intro _ _ associated => exact associated n hmem

theorem Complete.validate_eq_ok (h : w.Complete z height g) (hdepth : height ≤ w.depth) :
    w.validate g = .ok () :=
  (h.nestsWithin.validateWithin_eq_ok_iff hdepth).2 h.valid

theorem Complete.compilable (h : w.Complete z height g) (hw : w.WiredThroughout g []) : w.Compilable g z := by
  have hleaves (around : GraphId) (n : Node) (hn : w.Holds g around n) (hleaf : n.inner? = none) :
      ∃ b, Circuit.behaviour z n.kind = .ok b := by
    obtain ⟨hmem, _, haround⟩ := h.exists_of_holds hn
    cases haround with
    | intro _ leaf => exact leaf n hmem hleaf
  have hmeant (around : GraphId) (n : Node) (hn : w.Holds g around n) :=
    Node.exists_behaviour_iff.1 (hleaves around n hn)
  refine ⟨h.valid, fun around n hn => (hmeant around n hn).1, fun around n hn => (hmeant around n hn).2,
    fun n hn j hj group hbinding => ?_, fun around group hgroup inner hinner n hn j hj e hbinding => ?_⟩
  · obtain ⟨p, -, hu⟩ := (hw.top.wired .input).exists_use hbinding
    exact absurd (Graph.mem_uses.1 hu).1 List.not_mem_nil
  · have hfed := hw.inside around group hgroup inner hinner
    obtain ⟨p, -, hu⟩ := (hfed.wired .input).exists_use hbinding
    obtain ⟨hmem, _, haround⟩ := h.exists_of_holds hgroup
    cases haround with
    | intro _ _ _ enclosed =>
      have he := (Graph.mem_uses.1 hu).1
      rw [Graph.externals, enclosed group hmem inner hinner] at he
      exact absurd he List.not_mem_nil

theorem Complete.exists_compile (h : w.Complete z height g) (hdepth : height ≤ w.depth) (hw : w.Orderly g []) :
    ∃ m, w.compile z g = .ok m :=
  (h.nestsWithin.exists_compile_iff hdepth hw.wiredThroughout).2 (h.compilable hw.wiredThroughout)

end Workspace

theorem Session.Sound.wiredThroughout {s : Session} (h : s.Sound) (g : GraphId) :
    s.workspace.WiredThroughout g (s.groupsAround g) := by
  refine ⟨h.fed g, ?_⟩
  rintro around n ⟨place, hplace, hn⟩ inner hinner
  rw [← h.groupsAround_eq (hplace.inside hn hinner)]
  exact h.fed inner

end StreamCheck.Network
