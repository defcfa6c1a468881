import Mathlib.Algebra.BigOperators.Group.Finset.Piecewise
import Mathlib.Algebra.BigOperators.Ring.Finset
import Mathlib.Tactic.Ring
import StreamCheck.Proofs.Network.Discovery
import StreamCheck.Proofs.Network.Sealing

/-! The facts that are reported of a compiled model, counted off its graph: what a node adds to each of them is
added up over all places where nodes stand. -/

namespace StreamCheck

theorem CompiledGraph.processors_eq {w : Network.Workspace} {name : String} {s : Network.Sizes} {g : Network.GraphId}
    {shape : Option Int} {c : CompiledGraph} (h : CompiledGraph.compile w name s g shape = .ok c) :
    c.processors = w.count g := by
  have hm := CompiledGraph.compile_eq_ok h
  rw [CompiledGraph.compile, hm] at h
  exact (congrArg CompiledGraph.processors (Except.ok.inj h)).symm

namespace Network
open Smv

/-! ### Leaves -/

namespace Kind

def registers : Kind → Nat
  | trim .. | decimate .. => 1
  | cumulate _ => 2
  | window _ _ width _ => if width = 1 then 0 else 2
  | _ => 0

def isWindow : Kind → Bool
  | window .. => true
  | _ => false

end Kind

namespace Circuit
variable {s : Sizes} {k : Kind} {b : Circuit}

theorem declarations_join {cs : List Circuit} : (join cs).declarations = cs.flatMap Circuit.declarations := by
  induction cs with
  | nil => rfl
  | cons c cs ih => exact congrArg (c.declarations ++ ·) ih

theorem length_declarations_behaviour (h : behaviour s k = .ok b) : b.declarations.length = k.registers := by
  cases k with
  | bare _ _ | group _ _ _ => nomatch h
  | passthrough _ | filter _ | apply _ _ | fork _ _ _ | trim _ _ | decimate _ _ _ | cumulate _ =>
    obtain rfl := Except.ok.inj h
    rfl
  | constant v _ =>
    obtain ⟨e, -, rfl⟩ := behaviour_constant_eq_ok.1 h
    rfl
  | window _ f width _ =>
    obtain rfl := Except.ok.inj h
    rw [window, Kind.registers]
    split_ifs <;> rfl

theorem countP_flags_behaviour (h : behaviour s k = .ok b) : b.declarations.countP (·.name.isFlags) = 0 := by
  rw [List.countP_eq_zero]
  rintro ⟨x, t⟩ hd hflags
  cases x with
  | queueFlags j => exact not_mem_declarations_behaviour h j t hd
  | _ => nomatch hflags

end Circuit

namespace Queue
variable {s : Sizes} {types : List PortType}

theorem declarations_circuits : (circuits s types).declarations =
    types.zipIdx.flatMap fun x => (circuit s x.2 x.1).declarations := by
  change (Circuit.join _).declarations ++ [] = _
  rw [List.append_nil, Circuit.declarations_join, List.flatMap_map]

theorem length_declarations_circuits : (circuits s types).declarations.length = 2 * types.length := by
  rw [declarations_circuits, List.length_flatMap]
  change (types.zipIdx.map fun _ => 2).sum = _
  rw [List.map_const', List.sum_replicate_nat, List.length_zipIdx, Nat.mul_comm]

theorem countP_flags_circuits : (circuits s types).declarations.countP (·.name.isFlags) = types.length := by
  rw [declarations_circuits, List.countP_flatMap]
  change (types.zipIdx.map fun _ => 1).sum = _
  rw [List.map_const', List.sum_replicate_nat, List.length_zipIdx, Nat.mul_one]

end Queue

namespace Node

def addedVariables (n : Node) : Nat := 1 + if n.inner? = none then 2 * n.inputArity + n.kind.registers else 0

def addedQueues (n : Node) : Nat := if n.inner? = none then n.inputArity else 0

end Node

theorem Node.counts_leafModule {n : Node} {s : Sizes} {m : Module} (hm : n.leafModule s = .ok m) :
    m.declarations.length = 2 * n.inputArity + n.kind.registers ∧
      m.declarations.countP (·.name.isFlags) = n.inputArity := by
  obtain ⟨b, hb, rfl⟩ := Node.leafModule_eq_ok.1 hm
  change ((Queue.circuits s n.kind.inputs).declarations ++ b.declarations).length = _ ∧
    ((Queue.circuits s n.kind.inputs).declarations ++ b.declarations).countP _ = _
  rw [List.length_append, List.countP_append, Queue.length_declarations_circuits, Queue.countP_flags_circuits,
    Circuit.length_declarations_behaviour hb, Circuit.countP_flags_behaviour hb]
  exact ⟨rfl, rfl⟩

namespace Workspace
variable {w w' : Workspace} {s : Sizes} {fuel height : Nat} {g : GraphId} {supply : Supply} {around : List Node}

/-! ### Places of nodes -/

/-- The nodes of a graph and of those nested in it, each as often as it stands somewhere and with the groups around
it there, as far down as the fuel lasts. -/
def occurrences (w : Workspace) : Nat → GraphId → List (List Node × Node)
  | 0, _ => []
  | fuel + 1, g => (w.graph g).nodes.flatMap fun n => ([], n) ::
      match n.inner? with
      | none => []
      | some inner => (occurrences w fuel inner).map fun x => (x.1 ++ [n], x.2)

theorem mem_occurrences (h : w.NestsWithin fuel g) {x : List Node × Node} :
    x ∈ w.occurrences fuel g ↔ ∃ around, w.Within g x.1 around ∧ x.2 ∈ (w.graph around).nodes := by
  induction fuel generalizing g x with
  | zero => exact absurd h id
  | succ fuel ih =>
    rw [occurrences, List.mem_flatMap]
    constructor
    · rintro ⟨n, hn, hx⟩
      obtain rfl | hx := List.mem_cons.1 hx
      · exact ⟨g, .top, hn⟩
      · cases hinner : n.inner? with
        | none =>
          rw [hinner] at hx
          nomatch hx
        | some inner =>
          rw [hinner] at hx
          obtain ⟨y, hy, rfl⟩ := List.mem_map.1 hx
          obtain ⟨around, hplace, hmem⟩ := (ih (h n hn inner hinner)).1 hy
          exact ⟨around, hplace.through hn hinner, hmem⟩
    · rintro ⟨around, hplace, hmem⟩
      obtain ⟨place, n⟩ := x
      obtain ⟨rfl, rfl⟩ | ⟨place', group, mid, rfl, hgroup, hmid, hrest⟩ := hplace.outermost
      · exact ⟨n, hmem, List.mem_cons_self⟩
      · refine ⟨group, hgroup, List.mem_cons_of_mem _ ?_⟩
        rw [hmid]
        exact List.mem_map.2 ⟨(place', n), (ih (h group hgroup mid hmid)).2 ⟨around, hrest, hmem⟩, rfl⟩

/-- No place is listed twice: the outermost group tells which node of the graph it belongs to. -/
theorem nodup_occurrences (hw : w.WiredThroughout g around) : (w.occurrences fuel g).Nodup := by
  induction fuel generalizing g around with
  | zero => exact List.nodup_nil
  | succ fuel ih =>
    have hroot {n : Node} {x : List Node × Node} (hx : x ∈ ([], n) ::
        match n.inner? with
        | none => []
        | some inner => (w.occurrences fuel inner).map fun x => (x.1 ++ [n], x.2)) : x.1.getLast?.getD x.2 = n := by
      obtain rfl | hx := List.mem_cons.1 hx
      · rfl
      · cases hinner : n.inner? with
        | none =>
          rw [hinner] at hx
          nomatch hx
        | some inner =>
          rw [hinner] at hx
          obtain ⟨y, -, rfl⟩ := List.mem_map.1 hx
          rw [List.getLast?_concat, Option.getD_some]
    refine nodup_flatMap_of (List.Nodup.of_map _ hw.top.distinct) (fun n hn => ?_) fun n _ n' _ x hx hx' =>
      (hroot hx).symm.trans (hroot hx')
    cases hinner : n.inner? with
    | none => exact List.nodup_singleton _
    | some inner =>
      refine List.nodup_cons.2 ⟨fun hmem => ?_, (ih (hw.within hn hinner)).map fun x y heq => ?_⟩
      · obtain ⟨y, -, heq⟩ := List.mem_map.1 hmem
        exact absurd (congrArg Prod.fst heq) (List.append_ne_nil_of_right_ne_nil _ (List.cons_ne_nil _ _))
      · obtain ⟨hplace, hnode⟩ := Prod.mk.inj heq
        exact Prod.ext (List.append_cancel_right hplace) hnode

theorem occurrences_congr (h : ∀ place inner, w.Within g place inner → (w'.graph inner).nodes = (w.graph inner).nodes) :
    w'.occurrences fuel g = w.occurrences fuel g := by
  induction fuel generalizing g with
  | zero => rfl
  | succ fuel ih =>
    rw [occurrences, occurrences, h [] g .top]
    refine List.flatMap_congr fun n hn => ?_
    cases hinner : n.inner? with
    | none => rfl
    | some inner =>
      have hinside : w'.occurrences fuel inner = w.occurrences fuel inner :=
        ih fun place inner' hplace => h _ inner' (hplace.through hn hinner)
      simp only [hinside]

def weigh (w : Workspace) (weight : Node → Nat) (fuel : Nat) (g : GraphId) : Nat :=
  ((w.occurrences fuel g).map fun x => weight x.2).sum

theorem weigh_succ (weight : Node → Nat) : w.weigh weight (fuel + 1) g =
    ((w.graph g).nodes.map fun n => weight n + n.inner?.elim 0 (w.weigh weight fuel)).sum := by
  rw [weigh, occurrences, List.map_flatMap, List.flatMap_def, List.sum_flatten, List.map_map]
  refine congrArg List.sum (List.map_congr_left fun n _ => ?_)
  rw [Function.comp_apply, List.map_cons, List.sum_cons]
  cases n.inner? with
  | none => rfl
  | some inner =>
    rw [List.map_map]
    rfl

/-! ### What is counted on the way through a graph -/

theorem processors_of_inner? {n : Node} {inner : GraphId} (h : n.inner? = some inner) : n.processors = [] := by
  rw [Node.processors]
  rw [Node.inner?] at h
  cases hkind : n.kind with
  | window _ _ _ _ => simp [hkind] at h
  | _ => rfl

theorem NestsWithin.total_countWithin (h : w.NestsWithin height g) (hfuel : height ≤ fuel) :
    total ((w.graph g).nodes.map (w.countWithin fuel)) = w.weigh (fun n => 1 + n.processors.length) height g := by
  induction height generalizing fuel g with
  | zero => exact absurd h id
  | succ height ih =>
    obtain ⟨fuel, rfl⟩ := Nat.exists_eq_succ_of_ne_zero (by omega : fuel ≠ 0)
    rw [weigh_succ]
    refine congrArg List.sum (List.map_congr_left fun n hn => ?_)
    rw [countWithin, children, Nat.add_assoc]
    cases hinner : n.inner? with
    | none =>
      have hprocessors : n.processors.map (w.countWithin fuel) = n.processors.map fun _ => 1 :=
        List.map_congr_left fun m hm => countWithin_processor w fuel hm
      change 1 + total (n.processors.map (w.countWithin fuel)) = _
      rw [hprocessors, List.map_const']
      exact congrArg (1 + ·) (List.sum_replicate_nat.trans (Nat.mul_one _))
    | some inner =>
      have hprocessors : n.processors = [] := processors_of_inner? hinner
      change 1 + total ((w.graph inner).nodes.map (w.countWithin fuel)) = _
      rw [ih (h n hn inner hinner) (Nat.le_of_succ_le_succ hfuel), hprocessors]
      exact congrArg (1 + ·) (Nat.zero_add _).symm

/-! ### What is counted in instances -/

theorem nestsWithin_of_instances {parts : List Instance} (hparts : instances w s fuel g supply = .ok parts) :
    w.NestsWithin fuel g := by
  induction fuel generalizing g supply parts with
  | zero => nomatch hparts
  | succ fuel ih =>
    intro n hn inner hinner
    obtain ⟨i, hi⟩ : ∃ i, instanceOf w s fuel (w.graph g) supply n = .ok i :=
      exists_mapM_eq_ok.1 ⟨parts, hparts⟩ n hn
    exact ih ((instanceOf_eq_ok hi).2.2.2.2 inner hinner).1

/-- What is counted in instances one by one is a weight of their nodes, if each counts its node's weight and what is
counted inside of it. -/
theorem eq_weigh_of_instances (measure : List Instance → Nat) (one : Instance → Nat) {weight : Node → Nat}
    (hsum : ∀ is, measure is = (is.map one).sum)
    (hone : ∀ {fuel graph supply n i}, instanceOf w s fuel graph supply n = .ok i → one i = weight n + measure i.parts)
    {parts : List Instance} (hparts : instances w s fuel g supply = .ok parts) :
    measure parts = w.weigh weight fuel g := by
  induction fuel generalizing g supply parts with
  | zero => nomatch hparts
  | succ fuel ih =>
    have hall : List.Forall₂ (fun n i => instanceOf w s fuel (w.graph g) supply n = .ok i) (w.graph g).nodes parts :=
      mapM_eq_ok hparts
    have heach (n : Node) (i : Instance) (hi : instanceOf w s fuel (w.graph g) supply n = .ok i) :
        weight n + n.inner?.elim 0 (w.weigh weight fuel) = one i := by
      obtain ⟨-, -, -, hleaf, hgroup⟩ := instanceOf_eq_ok hi
      rw [hone hi]
      cases hinner : n.inner? with
      | none =>
        rw [hleaf hinner, hsum]
        rfl
      | some inner => exact congrArg (weight n + ·) (ih (hgroup inner hinner).1).symm
    rw [hsum, weigh_succ]
    refine congrArg List.sum ?_
    generalize (w.graph g).nodes = nodes at hall
    clear hparts
    induction hall with
    | nil => rfl
    | cons hi _ ih' => rw [List.map_cons, List.map_cons, ih', heach _ _ hi]

theorem length_modules (i : Instance) : i.modules.length = 1 + (Instance.modulesOfAll i.parts).length := by
  rw [Instance.modules_eq, List.length_append, List.length_singleton, Nat.add_comm]

theorem length_declarations_instanceOf {graph : Graph} {n : Node} {i : Instance}
    (hi : instanceOf w s fuel graph supply n = .ok i) :
    1 + i.declarations.length = n.addedVariables + (i.parts.length + (Instance.declarationsOfAll i.parts).length) := by
  obtain ⟨-, -, -, hleaf, hgroup⟩ := instanceOf_eq_ok hi
  rw [Instance.declarations_eq, List.length_append, List.length_map, List.length_map, Node.addedVariables]
  cases hinner : n.inner? with
  | none =>
    rw [(Node.counts_leafModule (leafModule_instanceOf hi hinner)).1, hleaf hinner, if_pos rfl]
    rfl
  | some inner =>
    rw [(hgroup inner hinner).2, if_neg (by simp)]
    simp only [groupModule, List.length_map]

theorem countP_flags_instanceOf {graph : Graph} {n : Node} {i : Instance}
    (hi : instanceOf w s fuel graph supply n = .ok i) : i.declarations.countP (·.1.name.isFlags) =
      n.addedQueues + (Instance.declarationsOfAll i.parts).countP (·.1.name.isFlags) := by
  obtain ⟨-, -, -, hleaf, hgroup⟩ := instanceOf_eq_ok hi
  rw [Instance.declarations_eq, List.countP_append, List.countP_map, List.countP_map, Node.addedQueues]
  refine congrArg₂ (· + ·) ?_ rfl
  cases hinner : n.inner? with
  | none =>
    rw [if_pos rfl, ← (Node.counts_leafModule (leafModule_instanceOf hi hinner)).2]
    rfl
  | some inner =>
    rw [(hgroup inner hinner).2, if_neg (by simp), List.countP_eq_zero]
    intro v hv
    obtain ⟨i', -, rfl⟩ := List.mem_map.1 hv
    exact Bool.false_ne_true

/-! ### Compiled models -/

section
variable {m : Model} (hm : w.compile s g = .ok m)
include hm

theorem length_modules_compile : m.modules.length = w.weigh (fun _ => 1) w.depth g := by
  refine eq_weigh_of_instances (fun is => (Instance.modulesOfAll is).length) (fun i => i.modules.length) (fun is => ?_)
    (fun _ => length_modules _) (compile_eq_ok hm).2.1
  rw [Instance.modulesOfAll_eq, List.length_flatMap]

theorem length_declarations_compile : m.declarations.length =
    2 * ((w.graph g).inputs.length + (w.graph g).outputs.length) + w.weigh Node.addedVariables w.depth g := by
  obtain ⟨-, hparts, hmain⟩ := compile_eq_ok hm
  have hinside : m.parts.length + (Instance.declarationsOfAll m.parts).length = w.weigh Node.addedVariables w.depth g := by
    refine eq_weigh_of_instances (fun is => is.length + (Instance.declarationsOfAll is).length)
      (fun i => 1 + i.declarations.length) (fun is => ?_) length_declarations_instanceOf hparts
    rw [Instance.declarationsOfAll_eq, List.length_flatMap, List.sum_map_add, List.map_const', List.sum_replicate_nat,
      Nat.mul_one]
  have hpipes {es : List External} {f : External → List Declaration} (hf : ∀ e, (f e).length = 2) :
      (es.flatMap f).length = 2 * es.length := by
    rw [List.length_flatMap, List.map_congr_left fun e _ => hf e, List.map_const', List.sum_replicate_nat, Nat.mul_comm]
  have hown : m.main.declarations.length =
      2 * ((w.graph g).inputs.length + (w.graph g).outputs.length) + m.parts.length := by
    rw [hmain, mainModule]
    simp only [List.length_append, List.length_map]
    rw [hpipes fun e => by rfl, hpipes fun e => by rfl]
    omega
  rw [Model.declarations, List.length_append, List.length_map, hown, Nat.add_assoc, hinside]

theorem countP_flags_compile : m.declarations.countP (·.1.name.isFlags) = w.weigh Node.addedQueues w.depth g := by
  obtain ⟨-, hparts, hmain⟩ := compile_eq_ok hm
  have hown : (m.main.declarations.map fun v => (Ref.own v.name, v.type)).countP (·.1.name.isFlags) = 0 := by
    rw [List.countP_map, List.countP_eq_zero]
    intro d hd
    rw [hmain] at hd
    rcases mem_declarations_mainModule hd with ⟨e, -, rfl | rfl⟩ | ⟨i, -, rfl⟩ | ⟨e, -, rfl | rfl⟩ <;>
      exact Bool.false_ne_true
  rw [Model.declarations, List.countP_append, hown, Nat.zero_add]
  refine eq_weigh_of_instances (fun is => (Instance.declarationsOfAll is).countP (·.1.name.isFlags))
    (fun i => i.declarations.countP (·.1.name.isFlags)) (fun is => ?_) countP_flags_instanceOf hparts
  rw [Instance.declarationsOfAll_eq, List.countP_flatMap]
  rfl

end

def places (w : Workspace) (g : GraphId) : Finset (List Node × Node) := (w.occurrences w.depth g).toFinset

theorem mem_places (h : w.NestsWithin w.depth g) {x : List Node × Node} :
    x ∈ w.places g ↔ ∃ around, w.Within g x.1 around ∧ x.2 ∈ (w.graph around).nodes := by
  rw [places, List.mem_toFinset, mem_occurrences h]

theorem weigh_eq_sum (hw : w.WiredThroughout g around) (weight : Node → Nat) :
    w.weigh weight w.depth g = ∑ x ∈ w.places g, weight x.2 :=
  (List.sum_toFinset _ (nodup_occurrences hw)).symm

theorem card_places (hw : w.WiredThroughout g around) : (w.places g).card = w.weigh (fun _ => 1) w.depth g := by
  rw [weigh_eq_sum hw, Finset.card_eq_sum_ones]

theorem length_processors (n : Node) : n.processors.length = if n.kind.isWindow = true then 1 else 0 := by
  rw [Node.processors]
  cases n.kind <;> rfl

theorem count_eq (h : w.NestsWithin w.depth g) (hw : w.WiredThroughout g around) :
    w.count g = (w.places g).card + ((w.places g).filter fun x => x.2.kind.isWindow = true).card := by
  rw [count, h.total_countWithin (Nat.le_succ _), weigh_eq_sum hw, Finset.sum_add_distrib, ← Finset.card_eq_sum_ones,
    Finset.card_filter]
  simp only [length_processors]

theorem count_congr (h : w.NestsWithin w.depth g) (hdepth : w.depth ≤ w'.depth)
    (hsame : ∀ place inner, w.Within g place inner → (w'.graph inner).nodes = (w.graph inner).nodes) :
    w'.count g = w.count g := by
  rw [count, count, (h.congr hsame).total_countWithin (Nat.le_succ_of_le hdepth), h.total_countWithin (Nat.le_succ _),
    weigh, weigh, occurrences_congr hsame]

theorem sum_addedVariables : ∑ x ∈ w.places g, x.2.addedVariables = (w.places g).card +
    ∑ x ∈ w.places g with x.2.inner? = none, (2 * x.2.inputArity + x.2.kind.registers) := by
  rw [Finset.sum_filter, Finset.card_eq_sum_ones, ← Finset.sum_add_distrib]
  rfl

theorem sum_addedQueues : ∑ x ∈ w.places g, x.2.addedQueues =
    ∑ x ∈ w.places g with x.2.inner? = none, x.2.inputArity := by
  rw [Finset.sum_filter]
  rfl

end Workspace

/-! ### Every session -/

namespace Session
open Workspace

/-- After any calls, the facts of a compiled graph count its nodes at all places where they stand: a module for each
and the main one; each node, and what a window holds; a queue for each input of a leaf; and as variables the pipes,
the instances, the queues and the registers, no two of them under one name. The nodes may be counted at any later
time as long as they have not changed. -/
theorem compile_facts (cs : List Call) (name : String) (z : Sizes) (g : GraphId) (shape : Option Int) {c : CompiledGraph}
    (hc : CompiledGraph.compile (({} : Session).performAll cs).workspace name z g shape = .ok c) :
    let w := (({} : Session).performAll cs).workspace
    ∃ nodes : Finset (List Node × Node),
      (∀ x, x ∈ nodes ↔ ∃ around, w.Within g x.1 around ∧ x.2 ∈ (w.graph around).nodes) ∧
      c.facts.moduleCount = 1 + nodes.card ∧
      c.facts.processorCount = nodes.card + (nodes.filter fun x => x.2.kind.isWindow = true).card ∧
      c.facts.queueVariableCount = ∑ x ∈ nodes with x.2.inner? = none, (x.2.inputArity : Int) ∧
      c.facts.variableCount = 2 * ((w.graph g).inputs.length + (w.graph g).outputs.length) + nodes.card +
        ∑ x ∈ nodes with x.2.inner? = none, (2 * x.2.inputArity + x.2.kind.registers : Int) ∧
      (c.model.declarations.map fun x => x.1.text).Nodup ∧
      ∀ more : List Call, let w' := (({} : Session).performAll (cs ++ more)).workspace
        (∀ place inner, w.Within g place inner → (w'.graph inner).nodes = (w.graph inner).nodes) →
          c.facts.processorCount = w'.count g := by
  intro w
  have hsound : (({} : Session).performAll cs).Sound := sound_performAll cs
  have hcompile : w.compile z g = .ok c.model := CompiledGraph.compile_eq_ok hc
  have hw : w.WiredThroughout g ((({} : Session).performAll cs).groupsAround g) := hsound.wiredThroughout g
  have hnests : w.NestsWithin w.depth g := nestsWithin_of_instances (Workspace.compile_eq_ok hcompile).2.1
  obtain ⟨hnodup, -, hordinary⟩ := declared_compile hw (hsound.nodup_pipes g) hcompile
  have hprocessors : c.processors = w.count g := CompiledGraph.processors_eq hc
  refine ⟨w.places g, fun x => mem_places hnests, ?_, ?_, ?_, ?_, ?_, ?_⟩
  · have hmodules : c.model.modules.length = (w.places g).card :=
      (length_modules_compile hcompile).trans (card_places hw).symm
    rw [CompiledGraph.facts, hmodules]
  · rw [CompiledGraph.facts, hprocessors, count_eq hnests hw]
    exact Nat.cast_add _ _
  · have hflags : c.queueFlags.length = ∑ x ∈ w.places g with x.2.inner? = none, x.2.inputArity := by
      rw [CompiledGraph.queueFlags_eq_of_nodup hnodup, List.length_map, ← List.countP_eq_length_filter,
        countP_flags_compile hcompile, weigh_eq_sum hw, sum_addedQueues]
    rw [CompiledGraph.facts, hflags]
    exact Nat.cast_sum _ _
  · have hvariables : c.variableCount = 2 * ((w.graph g).inputs.length + (w.graph g).outputs.length) +
        ((w.places g).card + ∑ x ∈ w.places g with x.2.inner? = none, (2 * x.2.inputArity + x.2.kind.registers)) := by
      rw [CompiledGraph.variableCount, eraseDups_of_nodup (List.Nodup.of_map _ hnodup),
        length_declarations_compile hcompile, weigh_eq_sum hw, sum_addedVariables]
    rw [CompiledGraph.facts, hvariables]
    push_cast
    ring
  · refine List.Nodup.map_on (fun x hx y hy htext => ?_) (List.Nodup.of_map _ hnodup)
    have hrefs : x.1 = y.1 := Ref.text_injective (hordinary x hx) (hordinary y hy) htext
    exact List.inj_on_of_nodup_map hnodup hx hy hrefs
  · intro more w' hsame
    have hmore : ({} : Session).performAll (cs ++ more) = (({} : Session).performAll cs).performAll more :=
      List.foldl_append
    have hdepth : w.depth ≤ w'.depth := by
      refine Nat.succ_le_succ ?_
      change _ ≤ (({} : Session).performAll (cs ++ more)).workspace.graphs.length
      rw [hmore]
      exact (keepsFrozen_performAll _ more).length_le
    rw [CompiledGraph.facts, hprocessors, count_congr hnests hdepth hsame]

/-- A window inside a group, with a graph around it. -/
def enclosedWindow : List Call :=
  let group : Node := ⟨1, .group 1 1 1⟩
  let processor : Node := ⟨2, .cumulate .addition⟩
  let window : Node := ⟨3, .window 2 .addition 3 (by decide)⟩
  [.newGraph 4 2, .create (.group 4 2 1 1), .create (.cumulate .addition), .create (.window processor 3),
    .add 1 [window], .associate group .input 0 window 0, .associate group .output 0 window 0, .add 0 [group],
    .expose 0 .input group 0, .expose 0 .output group 0]

/-- Two nodes are counted: the group, and in it the window, whose processor has no module of its own. -/
theorem compile_facts_of_enclosedWindow :
    ∃ c, CompiledGraph.compile (({} : Session).performAll enclosedWindow).workspace "window" ⟨4, 2⟩ 0 none = .ok c ∧
      (c.facts.moduleCount, c.facts.processorCount, c.facts.queueVariableCount, c.facts.variableCount) = (3, 3, 1, 10) ∧
      ∃ nodes : Finset (List Node × Node), c.facts.moduleCount = 1 + nodes.card ∧
        ([⟨1, .group 1 1 1⟩], ⟨3, .window 2 .addition 3 (by decide)⟩) ∈ nodes := by
  obtain ⟨c, hc⟩ := exists_eq_ok (x := CompiledGraph.compile (({} : Session).performAll enclosedWindow).workspace
    "window" ⟨4, 2⟩ 0 none) (by decide +kernel)
  have hfacts : (CompiledGraph.compile (({} : Session).performAll enclosedWindow).workspace "window" ⟨4, 2⟩ 0
      none).toOption.all (fun c => decide ((c.facts.moduleCount, c.facts.processorCount, c.facts.queueVariableCount,
        c.facts.variableCount) = (3, 3, 1, 10))) = true := by decide +kernel
  rw [hc] at hfacts
  obtain ⟨nodes, hnodes, hmodules, -⟩ := compile_facts enclosedWindow "window" ⟨4, 2⟩ 0 none hc
  refine ⟨c, hc, of_decide_eq_true hfacts, nodes, hmodules, (hnodes _).2 ⟨1, ?_, by decide +kernel⟩⟩
  exact Within.top.inside (by decide +kernel) rfl

end Session
end Network
end StreamCheck
