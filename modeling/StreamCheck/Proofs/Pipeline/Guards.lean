import StreamCheck.Pipeline.Answer
import StreamCheck.Proofs.Network.Outcomes
import StreamCheck.Proofs.Pipeline.Feasibility
import StreamCheck.Proofs.Pipeline.Models

/-! The catalog answers every configuration: without a graph exactly where a constant that the query needs lies
outside the domain, and else with one in which nothing is left open. -/

namespace StreamCheck.Network
open Smv

/-! ### Cycles -/

theorem Graph.acyclic_of_rank {g : Graph} (rank : NodeId → Nat)
    (h : ∀ c ∈ g.connections, rank c.source.node.id < rank c.destination.node.id) : g.Acyclic := by
  have hlt {i j : NodeId} (hchain : Relation.TransGen g.Leads i j) : rank i < rank j := by
    induction hchain with
    | single hstep =>
      obtain ⟨c, hc, rfl, rfl⟩ := hstep
      exact h c hc
    | tail _ hstep ih =>
      obtain ⟨c, hc, rfl, rfl⟩ := hstep
      exact Nat.lt_trans ih (h c hc)
  exact fun i hchain => Nat.lt_irrefl _ (hlt hchain)

namespace Workspace
variable {w : Workspace} {g : GraphId} {around : List Node}

theorem Orderly.acyclic (h : w.Orderly g around) {place : List Node} {inner : GraphId}
    (hplace : w.Within g place inner) : (w.graph inner).Acyclic := by
  obtain ⟨groups, hgroups⟩ := h.exists_within hplace
  cases hgroups with
  | intro _ rank forward _ => exact Graph.acyclic_of_rank rank forward

theorem exists_holds_iff {F : GraphId → Node → Prop} : (∃ around n, w.Holds g around n ∧ F around n) ↔
    ∃ n ∈ (w.graph g).nodes, F g n ∨
      ∃ inner, n.inner? = some inner ∧ ∃ around m, w.Holds inner around m ∧ F around m := by
  have hnone := forall_holds_iff (w := w) (g := g) (P := fun around n => ¬ F around n)
  rw [← not_iff_not]
  push Not
  exact hnone

end Workspace

/-! ### Nodes of plans -/

@[simp] theorem Kind.numbers_shift (b : Nat) (k : Kind) : (k.shift b).numbers = k.numbers := by
  cases k <;> rfl

namespace Plan.Shows
variable {P : Plan} {w : Workspace} {g : GraphId} {b : Nat}

theorem exists_holds_iff (hg : Shows (w.graph g) P b) {F : GraphId → Node → Prop} :
    (∃ around n, w.Holds g around n ∧ F around n) ↔ ∃ n ∈ P.nodes, F g (n.shift b) := by
  rw [Workspace.exists_holds_iff, hg.nodes]
  constructor
  · rintro ⟨m, hm, hF | ⟨inner, hinner, -⟩⟩
    · obtain ⟨n, hn, rfl⟩ := List.mem_map.1 hm
      exact ⟨n, hn, hF⟩
    · rw [inner?_of_mem_shift hm] at hinner
      nomatch hinner
  · rintro ⟨n, hn, hF⟩
    exact ⟨n.shift b, List.mem_map_of_mem hn, .inl hF⟩

end Plan.Shows
end StreamCheck.Network

namespace StreamCheck.Pipeline
open Network Creator

namespace Query
variable {q : Query} {domain : Nat} {shape : Option Int} {P Q : Plan}

theorem controls_shift {b : Nat} {connections : List Connection} {n : Node} :
    q.Controls (connections.map (Connection.shift b)) (n.shift b) ↔ q.Controls connections n := by
  have hkind {k : Kind} : k.shift b = .apply .isGreaterOrEqual .integer ↔ k = .apply .isGreaterOrEqual .integer := by
    cases k <;> simp [Kind.shift]
  cases q with
  | outputIfSmaller =>
    simp only [Controls, List.mem_map, exists_exists_and_eq_and]
    refine exists_congr fun c => and_congr_right fun _ => ?_
    exact and_congr Nat.add_right_inj (and_congr_right fun _ => hkind)
  | productOfFirst | productWindow | sumOfOnes | comparePassthroughDelay =>
    cases n with
    | mk id kind => cases kind <;> rfl
  | _ => exact Iff.rfl

theorem Draft.shape_eq_some_iff (h : q.Draft domain shape P) {k : Int} :
    P.shape = some k ↔ ∃ n ∈ P.nodes, q.Controls P.connections n ∧ k ∈ n.kind.numbers := by
  have hk := effective_pos shape defaultShape_pos
  have hk' := effective_pos shape defaultDelay_pos
  cases h with
  | productOfFirst => simpa [Plan.productOfFirst, Plan.make, Controls, Kind.numbers, hk.le] using eq_comm
  | productWindow => simpa [Plan.window, Plan.single, Plan.make, Controls, Kind.numbers, hk.le] using eq_comm
  | sumOfOnes => simpa [Plan.sumOfOnes, Plan.make, Controls, Kind.numbers, hk.le] using eq_comm
  | outputIfSmaller => simpa [Plan.outputIfSmaller, Plan.make, Controls, Kind.numbers] using eq_comm
  | delayed => simpa [Plan.delay, Plan.single, Plan.make, Controls, Kind.numbers, hk'.le] using eq_comm
  | _ =>
    -- the others have no shape, and their queries control none of their nodes
    simp [Plan.passthrough, Plan.product, Plan.window, Plan.sumOfDoubles, Plan.trimSum2, Plan.trimSum3, Plan.single,
      Plan.make, Controls]

/-- Of two plans that a query compares, the first has a shape only if both are the same. -/
theorem shape_orElse_eq_some_iff (hP : q.blueprint domain shape = some P) (hQ : q.counterpart domain shape = some Q)
    {k : Int} : (P.shape <|> Q.shape) = some k ↔ P.shape = some k ∨ Q.shape = some k := by
  have hagree : P.shape = none ∨ P.shape = Q.shape := by
    cases hcomparison : q.isComparison with
    | false =>
      rw [counterpart_eq_blueprint hcomparison, hP] at hQ
      exact .inr (congrArg Plan.shape (Option.some.inj hQ))
    | true =>
      cases q with
      | compareWindowSum2 | compareWindowSum3 | comparePassthroughDelay =>
        obtain rfl := Option.some.inj hP
        exact .inl rfl
      | _ => nomatch hcomparison
  obtain h | h := hagree
  · simp [h]
  · simp [h]

theorem Draft.shape_cases (h : q.Draft domain shape P) {k : Int} (hk : 0 < k) (hshape : shape = some k) :
    P.shape = none ∨ P.shape = some k := by
  have heffective (otherwise : Int) : effective shape otherwise = k := by
    rw [hshape, effective, if_pos hk]
  cases h with
  | productOfFirst | productWindow | sumOfOnes | outputIfSmaller | delayed =>
    exact .inr (congrArg some (heffective _))
  | _ => exact .inl rfl

theorem leastDomain_le_iff {d : Int} (hd : 0 < d) :
    q.leastDomain shape ≤ d ↔ ∀ v ∈ q.constants shape, 0 ≤ v ∧ v < d := by
  have hk := effective_pos shape defaultShape_pos
  cases q <;> simp only [leastDomain, constants, List.mem_singleton, forall_eq, List.not_mem_nil, false_imp_iff,
    implies_true, iff_true] <;> omega

theorem Draft.numbers_cases (h : q.Draft domain shape P) : ∀ n ∈ P.nodes, ∀ v ∈ n.kind.numbers,
    (0 ≤ v ∧ v ≤ 3) ∨ v = effective shape defaultShape ∨ v = effective shape defaultDelay := by
  have hk := effective_pos shape defaultShape_pos
  have hk' := effective_pos shape defaultDelay_pos
  cases h with
  | sumOfOnes => simp [Plan.sumOfOnes, Plan.make, Kind.numbers, hk.le]
  | sumOfDoubles => simp [Plan.sumOfDoubles, Plan.make, Kind.numbers]
  | outputIfSmaller => simp [Plan.outputIfSmaller, Plan.make, Kind.numbers]
  | _ =>
    simp [Plan.passthrough, Plan.product, Plan.productOfFirst, Plan.window, Plan.delay, Plan.trimSum2, Plan.trimSum3,
      Plan.single, Plan.make, Kind.numbers, hk.le, hk'.le]

theorem Draft.isWritable_numbers (h : q.Draft domain shape P)
    (hshape : ∀ k ∈ shape, Smv.isWritable k = true) :
    ∀ n ∈ P.nodes, ∀ v ∈ n.kind.numbers, Smv.isWritable v = true := by
  intro n hn v hv
  have hthree : Smv.isWritable 3 = true := by decide +kernel
  have hsmall {v : Int} (hv : 0 ≤ v ∧ v ≤ 3) : Smv.isWritable v = true := Smv.isWritable_of_le hthree hv.1 hv.2
  have heffective {otherwise : Int} (hotherwise : 0 ≤ otherwise ∧ otherwise ≤ 3) :
      Smv.isWritable (effective shape otherwise) = true := by
    unfold effective
    split
    · split
      · exact hshape _ rfl
      · exact hsmall hotherwise
    · exact hsmall hotherwise
  obtain h | rfl | rfl := h.numbers_cases n hn v hv
  · exact hsmall h
  · exact heffective (by decide)
  · exact heffective (by decide)

end Query

namespace Junction
variable {J : Junction} {w : Workspace} {g : GraphId} {domain queue : Nat} {hd : 0 < domain} {hq : 0 < queue}
  {pipe : PipeId} {wiring : Wiring} {P Q : Plan} {b b' : Nat}

theorem Stands.exists_holds_iff (h : Stands w g J hd hq pipe wiring P Q b b') {F : GraphId → Node → Prop}
    (hnone : ∀ n ∈ (J.joined hd hq pipe wiring).nodes, ¬ F g n) :
    (∃ around n, w.Holds g around n ∧ F around n) ↔
      (∃ n ∈ P.nodes, F J.leftInner (n.shift b)) ∨ ∃ n ∈ Q.nodes, F J.rightInner (n.shift b') := by
  have hleft : Plan.Shows (w.graph J.leftInner) P b := h.left ▸ Plan.shows_enclosed _
  have hright : Plan.Shows (w.graph J.rightInner) Q b' := h.right ▸ Plan.shows_enclosed _
  rw [Workspace.exists_holds_iff, h.outer, ← hleft.exists_holds_iff, ← hright.exists_holds_iff]
  constructor
  · rintro ⟨n, hn, hF | ⟨inner, hinner, hF⟩⟩
    · exact absurd hF (hnone n hn)
    · obtain ⟨-, rfl⟩ | ⟨-, rfl⟩ := inner?_cases hn hinner
      · exact .inl hF
      · exact .inr hF
  · have hgroups : J.leftNode ∈ (J.joined hd hq pipe wiring).nodes ∧ J.rightNode ∈ (J.joined hd hq pipe wiring).nodes := by
      rw [nodes_joined]
      simp
    rintro (hF | hF)
    · exact ⟨J.leftNode, hgroups.1, .inr ⟨J.leftInner, rfl, hF⟩⟩
    · exact ⟨J.rightNode, hgroups.2, .inr ⟨J.rightInner, rfl, hF⟩⟩

theorem kind_joined {n : Node} (hn : n ∈ (J.joined hd hq pipe wiring).nodes) :
    n.kind = .fork 2 Nat.zero_lt_two .integer ∨ n.kind = .apply .equals .integer ∨
      ∃ inner, n.kind = .group inner 1 1 := by
  rw [nodes_joined] at hn
  cases wiring <;> simp only [List.cons_append, List.nil_append, List.mem_cons, List.not_mem_nil, or_false] at hn
  · rcases hn with rfl | rfl | rfl
    · exact .inl rfl
    · exact .inr (.inr ⟨_, rfl⟩)
    · exact .inr (.inr ⟨_, rfl⟩)
  · rcases hn with rfl | rfl | rfl | rfl
    · exact .inl rfl
    · exact .inr (.inr ⟨_, rfl⟩)
    · exact .inr (.inr ⟨_, rfl⟩)
    · exact .inr (.inl rfl)

theorem numbers_joined {n : Node} (hn : n ∈ (J.joined hd hq pipe wiring).nodes) : n.kind.numbers = [] := by
  obtain h | h | ⟨inner, h⟩ := kind_joined hn <;> rw [h] <;> rfl

end Junction

namespace Catalog
variable {w : Workspace} {domain queue : Nat} {hd : 0 < domain} {hq : 0 < queue} {P Q : Plan} {wiring? : Option Wiring}
  {c : Configuration} {q : Query}

theorem exists_holds_built_iff {F : List Connection → Node → Prop}
    (hshift : ∀ b connections n, F (connections.map (Connection.shift b)) (n.shift b) ↔ F connections n)
    (hnumber : ∀ connections n, F connections n → n.kind.numbers ≠ []) :
    (∃ around n, (built w hd hq P Q wiring?).Holds w.graphs.length around n ∧
        F ((built w hd hq P Q wiring?).graph around).connections n) ↔
      (∃ n ∈ P.nodes, F P.connections n) ∨ wiring?.isSome = true ∧ ∃ n ∈ Q.nodes, F Q.connections n := by
  cases wiring? with
  | none =>
    have hshows : Plan.Shows ((built w hd hq P Q none).graph w.graphs.length) P w.nextNode :=
      graph_built ▸ Plan.shows_exposed _
    rw [hshows.exists_holds_iff]
    simp only [hshows.connections, hshift, Option.isSome_none, Bool.false_eq_true, false_and, or_false]
  | some wiring =>
    have hstands : Junction.Stands (built w hd hq P Q (some wiring)) _ _ hd hq _ _ P Q _ _ := stands_built wiring
    rw [hstands.exists_holds_iff fun n hn hF => hnumber _ n hF (Junction.numbers_joined hn), hstands.left, hstands.right]
    simp only [(Plan.shows_enclosed _).connections, hshift, Option.isSome_some, true_and]

theorem writable_built (hP : q.blueprint c.domain.toNat c.shape = some P)
    (hQ : q.counterpart c.domain.toNat c.shape = some Q) (h : c.IsWritable) :
    (built w (domain_toNat_pos c) (queue_toNat_pos c) P Q wiring?).Writable w.graphs.length ⟨c.domain, c.queue⟩ := by
  have hdomain := h c.domain List.mem_cons_self
  have hqueue := h c.queue (List.mem_cons_of_mem _ List.mem_cons_self)
  have hshape : ∀ k ∈ c.shape, Smv.isWritable k = true := by
    intro k hk
    exact h k (List.mem_cons_of_mem _ (List.mem_cons_of_mem _ (Option.mem_toList.2 (Option.mem_filter_iff.1 hk).1)))
  have hd := c.domain_pos
  have hq := c.queue_pos
  refine ⟨?_, fun around n hn v hv => ?_⟩
  · simp only [List.forall_mem_cons, List.not_mem_nil, false_imp_iff, implies_true, and_true]
    exact ⟨hdomain, Smv.isWritable_of_le hdomain (by omega) (by omega), hqueue,
      Smv.isWritable_of_le hqueue (by omega) (by omega)⟩
  · by_contra hunwritable
    have hsome := (exists_holds_built_iff (F := fun _ n => ∃ v ∈ n.kind.numbers, ¬ Smv.isWritable v = true)
      (fun b _ n => by rw [Node.shift, Kind.numbers_shift])
      (fun _ n h hnone => by simp [hnone] at h)).1 ⟨around, n, hn, v, hv, hunwritable⟩
    rcases hsome with ⟨m, hm, u, hu, hfalse⟩ | ⟨-, m, hm, u, hu, hfalse⟩
    · exact hfalse ((Query.draft_of_blueprint hP).isWritable_numbers hshape m hm u hu)
    · exact hfalse ((Query.draft_of_counterpart hQ).isWritable_numbers hshape m hm u hu)

theorem shape_built (hquery : Query.ofName? c.query = some q) (hP : q.blueprint c.domain.toNat c.shape = some P)
    (hQ : q.counterpart c.domain.toNat c.shape = some Q) {k : Int} :
    shapeOf P Q wiring? = some k ↔ ∃ (q : Query) (around : GraphId) (n : Node), c.query = q.name ∧
      (built w hd hq P Q wiring?).Holds w.graphs.length around n ∧
        q.Controls ((built w hd hq P Q wiring?).graph around).connections n ∧ k ∈ n.kind.numbers := by
  have hname : q.name = c.query := Query.name_of_ofName? hquery
  have hcontrols : (∃ around n, (built w hd hq P Q wiring?).Holds w.graphs.length around n ∧
      q.Controls ((built w hd hq P Q wiring?).graph around).connections n ∧ k ∈ n.kind.numbers) ↔ _ :=
    exists_holds_built_iff (F := fun connections n => q.Controls connections n ∧ k ∈ n.kind.numbers)
      (fun b connections n => by rw [Query.controls_shift, Node.shift, Kind.numbers_shift])
      (fun _ n h hnone => by simp [hnone] at h)
  have hsame : shapeOf P Q wiring? = some k ↔ P.shape = some k ∨ wiring?.isSome = true ∧ Q.shape = some k := by
    cases wiring? with
    | none => simp [shapeOf]
    | some wiring =>
      rw [shapeOf, Query.shape_orElse_eq_some_iff hP hQ]
      simp only [Option.isSome_some, true_and]
  rw [hsame, (Query.draft_of_blueprint hP).shape_eq_some_iff,
    (Query.draft_of_counterpart hQ).shape_eq_some_iff, ← hcontrols]
  constructor
  · rintro ⟨around, n, hn, hF⟩
    exact ⟨q, around, n, hname.symm, hn, hF⟩
  · rintro ⟨q', around, n, hname', hn, hF⟩
    rw [hname', Query.ofName?_name] at hquery
    obtain rfl := Option.some.inj hquery
    exact ⟨around, n, hn, hF⟩

theorem asked_built (hP : q.blueprint c.domain.toNat c.shape = some P)
    (hQ : q.counterpart c.domain.toNat c.shape = some Q) {k : Int} (hk : c.shape = some k) :
    shapeOf P Q wiring? = none ∨ shapeOf P Q wiring? = some k := by
  have hpos : 0 < k := of_decide_eq_true (Option.mem_filter_iff.1 hk).2
  have hfirst := (Query.draft_of_blueprint hP).shape_cases hpos hk
  have hsecond := (Query.draft_of_counterpart hQ).shape_cases hpos hk
  cases wiring? with
  | none => exact hfirst
  | some wiring => rcases hfirst with h | h <;> simp [shapeOf, h, hsecond]

theorem answers_built (hquery : Query.ofName? c.query = some q) (hP : q.blueprint c.domain.toNat c.shape = some P)
    (hQ : q.counterpart c.domain.toNat c.shape = some Q) :
    (⟨c.query, w.graphs.length, shapeOf P Q c.wiring?, c.wiring?⟩ : Assembly).Answers c
      (built w (domain_toNat_pos c) (queue_toNat_pos c) P Q c.wiring?) := by
  obtain ⟨hbehaves, hbehaves'⟩ := plans_behave hP hQ
  have hcomplete : (built w (domain_toNat_pos c) (queue_toNat_pos c) P Q c.wiring?).Complete ⟨c.domain, c.queue⟩ 2
      w.graphs.length := complete_built hbehaves hbehaves' c.wiring?
  have horderly : (built w (domain_toNat_pos c) (queue_toNat_pos c) P Q c.wiring?).Orderly w.graphs.length [] :=
    orderly_built c.wiring?
  have hdepth : 2 ≤ (built w (domain_toNat_pos c) (queue_toNat_pos c) P Q c.wiring?).depth := two_le_depth_built c.wiring?
  obtain ⟨m, hm⟩ := hcomplete.exists_compile hdepth horderly
  obtain ⟨port, hinputs, htype⟩ := inputs_built w (domain_toNat_pos c) (queue_toNat_pos c) P Q c.wiring?
  exact {
    valid := hcomplete.validate_eq_ok hdepth
    acyclic := fun _ _ hplace => horderly.acyclic hplace
    compiles := ⟨m, hm, fun h => ⟨writable_built hP hQ h, (writable_built hP hQ h).compile hm⟩⟩
    input := ⟨_, hinputs, htype⟩
    wiring := rfl
    outputs := outputTypes_built _ _ _ P Q c.wiring?
    asked := fun _ hk => asked_built hP hQ hk
    shape := fun _ => shape_built hquery hP hQ }

theorem feasible_iff_fits : Feasible c ↔ c.Fits := by
  rw [feasible_iff]
  exact exists_congr fun q => and_congr_right fun _ => and_congr_right fun _ => Query.leastDomain_le_iff c.domain_pos

/-- The catalog answers every configuration, without a graph exactly if the query is unknown or a constant that
it needs lies outside the domain. Else the graph is valid and free of cycles at every depth and compiles at the
sizes of the configuration, with one input and the outputs that the wiring asks for, and the shape is the number
of the node that it controls. -/
theorem assemble_answers (c : Configuration) (w : Workspace) : ∃ answer w', (assemble c).run w = .ok answer w' ∧
    (answer = none ↔ ¬ c.Fits) ∧ ∀ a, answer = some a → a.Answers c w' := by
  rw [← feasible_iff_fits]
  obtain ⟨q, P, Q, hquery, hP, hQ⟩ | hnone := exists_plans_or_none c
  · have hrun := assemble_run (w := w) hquery hP hQ
    refine ⟨_, _, hrun, iff_of_false (nomatch ·) (not_not_intro ⟨w, _, _, hrun⟩), fun a ha => ?_⟩
    obtain rfl := Option.some.inj ha
    exact answers_built hquery hP hQ
  · obtain ⟨taken, new, hrun⟩ := assemble_run_none hnone
    exact ⟨none, _, hrun w, iff_of_true rfl (not_feasible hnone), fun a ha => nomatch ha⟩

end Catalog
end StreamCheck.Pipeline
