import StreamCheck.Proofs.Network.Flags
import StreamCheck.Proofs.Pipeline.Feasibility
import StreamCheck.Proofs.Pipeline.Room
import StreamCheck.Proofs.Pipeline.Verdicts

/-! Where the queues of a model are full. Its leaves are the nodes of its plans and a fork, and the fork has
one input and stores nothing. -/

namespace StreamCheck.Network
open Smv

theorem Workspace.noFullQueues_trueOf_iff {w : Workspace} {s : Sizes} {g : GraphId} {compiled : CompiledGraph}
    (hw : w.Orderly g []) (hc : w.compile s g = .ok compiled.model) (hq : 0 < s.queue) :
    (Formula.noFullQueues compiled.queueFlags).TrueOf compiled.model ↔
      ∀ σ, compiled.model.IsRun σ → ∀ path n, w.Leaf g path n → ∀ j < n.inputArity, ∀ t,
        Queue.load (σ.at path) s.queue.toNat j t ≠ s.queue.toNat := by
  rw [Formula.noFullQueues_trueOf_iff]
  constructor
  · intro hall σ hσ path n hn j hj t hload
    have hcourses := (courses_of_isRun hw hc hσ).1
    exact hall σ hσ t _ ((mem_queueFlags_compile hw.wiredThroughout hc).2 ⟨path, n, j, hn, hj, rfl⟩)
      ((hn.full_iff hcourses hq hj t).2 hload)
  · intro hall σ hσ t f hf hfull
    have hcourses := (courses_of_isRun hw hc hσ).1
    obtain ⟨path, n, j, hn, hj, rfl⟩ := (mem_queueFlags_compile hw.wiredThroughout hc).1 hf
    exact hall σ hσ path n hn j hj t ((hn.full_iff hcourses hq hj t).1 hfull)

namespace Plan
variable {P : Plan} {s : Sizes} {w : Workspace} {g : GraphId} {b : Nat} {path : List Nat} {n : Node}

theorem Shows.leaf_iff (h : Shows (w.graph g) P b) :
    w.Leaf g path n ↔ ∃ m ∈ P.nodes, path = [b + m.id] ∧ n = m.shift b := by
  have hnodes : n ∈ (w.graph g).nodes ↔ ∃ m ∈ P.nodes, m.shift b = n := by
    rw [h.nodes, List.mem_map]
  constructor
  · intro hleaf
    cases hleaf with
    | here hn hnone =>
      obtain ⟨m, hm, rfl⟩ := hnodes.1 hn
      exact ⟨m, hm, rfl, rfl⟩
    | inside hgroup hinner hleaf =>
      rw [h.nodes] at hgroup
      obtain ⟨m, hm, rfl⟩ := List.mem_map.1 hgroup
      rw [Node.inner?_shift, P.leaf m hm] at hinner
      nomatch hinner
  · rintro ⟨m, hm, rfl, rfl⟩
    refine .here (hnodes.2 ⟨m, hm, rfl⟩) ?_
    rw [Node.inner?_shift]
    exact P.leaf m hm

theorem clear_iff {σ : Trace} : P.Clear s (fun i => σ.inside (b + i)) ↔
    ∀ m ∈ P.nodes, ∀ j < (m.shift b).inputArity, ∀ t,
      Queue.load (σ.at [b + m.id]) s.queue.toNat j t ≠ s.queue.toNat := by
  simp only [Node.inputArity_shift]
  rfl

end Plan
end StreamCheck.Network

namespace StreamCheck.Pipeline
open Network Smv

namespace Junction
variable {w : Workspace} {g : GraphId} {J : Junction} {domain queue : Nat} {hd : 0 < domain} {hq : 0 < queue}
  {pipe : PipeId} {wiring : Wiring} {P Q : Plan} {b b' : Nat} {path : List Nat} {n : Node}

theorem Stands.leaf_iff (h : Stands w g J hd hq pipe .stepwise P Q b b') : w.Leaf g path n ↔
    (path = [J.fork] ∧ n = J.forkNode) ∨ (∃ m ∈ P.nodes, path = [J.left, b + m.id] ∧ n = m.shift b) ∨
      ∃ m ∈ Q.nodes, path = [J.right, b' + m.id] ∧ n = m.shift b' := by
  have hnodes : (w.graph g).nodes = [J.forkNode, J.leftNode, J.rightNode] := by
    rw [h.outer, nodes_joined, List.append_nil]
  have hleft : Plan.Shows (w.graph J.leftInner) P b := by
    rw [h.left]
    exact Plan.shows_enclosed _
  have hright : Plan.Shows (w.graph J.rightInner) Q b' := by
    rw [h.right]
    exact Plan.shows_enclosed _
  constructor
  · intro hleaf
    cases hleaf with
    | here hn hnone =>
      rw [hnodes] at hn
      simp only [List.mem_cons, List.not_mem_nil, or_false] at hn
      rcases hn with rfl | rfl | rfl
      · exact .inl ⟨rfl, rfl⟩
      · nomatch hnone
      · nomatch hnone
    | inside hgroup hinner hleaf =>
      rw [h.outer] at hgroup
      rcases inner?_cases hgroup hinner with ⟨rfl, rfl⟩ | ⟨rfl, rfl⟩
      · obtain ⟨m, hm, rfl, rfl⟩ := hleft.leaf_iff.1 hleaf
        exact .inr (.inl ⟨m, hm, rfl, rfl⟩)
      · obtain ⟨m, hm, rfl, rfl⟩ := hright.leaf_iff.1 hleaf
        exact .inr (.inr ⟨m, hm, rfl, rfl⟩)
  · rintro (⟨rfl, rfl⟩ | ⟨m, hm, rfl, rfl⟩ | ⟨m, hm, rfl, rfl⟩)
    · exact .here (hnodes ▸ List.mem_cons_self) rfl
    · have hmem : J.leftNode ∈ (w.graph g).nodes := hnodes ▸ List.mem_cons_of_mem _ List.mem_cons_self
      exact .inside hmem rfl (hleft.leaf_iff.2 ⟨m, hm, rfl, rfl⟩)
    · have hmem : J.rightNode ∈ (w.graph g).nodes :=
        hnodes ▸ List.mem_cons_of_mem _ (List.mem_cons_of_mem _ List.mem_cons_self)
      exact .inside hmem rfl (hright.leaf_iff.2 ⟨m, hm, rfl, rfl⟩)

end Junction

section
variable {c : Configuration} {q : Query} {P Q : Plan} {w : Workspace} {compiled : CompiledGraph}

def plainPart (w : Workspace) (σ : Trace) : NodeId → Trace := fun i => σ.inside (w.nextNode + i)

theorem shows_plain (c : Configuration) (P Q : Plan) (w : Workspace) : Plan.Shows
    ((Catalog.built w (Catalog.domain_toNat_pos c) (Catalog.queue_toNat_pos c) P Q none).graph w.graphs.length)
    P w.nextNode := by
  rw [Catalog.graph_built]
  exact Plan.shows_exposed _

theorem IsModel.course (h : IsModel c P Q w compiled) (hwiring : c.wiring? = none) {σ : Trace}
    (hσ : compiled.model.IsRun σ) :
    P.Course (sizesOf c) ((incoming w.nextPipe).stream σ) (plainPart w σ) := by
  rw [IsModel, hwiring] at h
  obtain ⟨hcourses, hinputs, -⟩ := Workspace.courses_of_isRun (Catalog.orderly_built none) h hσ
  rw [Catalog.graph_built, Plan.inputs_exposed] at hinputs
  exact Plan.course_of_courses (shows_plain c P Q w) hcourses (hinputs _ List.mem_cons_self)

theorem IsModel.noFullQueues_trueOf_iff_of_plain (h : IsModel c P Q w compiled) (hwiring : c.wiring? = none) :
    (Formula.noFullQueues compiled.queueFlags).TrueOf compiled.model ↔
      ∀ σ, compiled.model.IsRun σ → P.Clear (sizesOf c) (plainPart w σ) := by
  rw [IsModel, hwiring] at h
  have hshows := shows_plain c P Q w
  rw [Workspace.noFullQueues_trueOf_iff (Catalog.orderly_built none) h c.queue_pos]
  refine forall_congr' fun σ => forall_congr' fun hσ => ?_
  refine Iff.trans ?_ Plan.clear_iff.symm
  constructor
  · intro hall m hm
    exact hall _ _ (hshows.leaf_iff.2 ⟨m, hm, rfl, rfl⟩)
  · intro hclear path n hn
    obtain ⟨m, hm, rfl, rfl⟩ := hshows.leaf_iff.1 hn
    exact hclear m hm

theorem IsModel.noFullQueues_trueOf_iff_of_stepwise (h : IsModel c P Q w compiled)
    (hwiring : c.wiring? = some .stepwise) :
    (Formula.noFullQueues compiled.queueFlags).TrueOf compiled.model ↔
      ∀ σ, compiled.model.IsRun σ → P.Clear (sizesOf c) (leftPart w σ) ∧ Q.Clear (sizesOf c) (rightPart w P σ) := by
  have hstands : Junction.Stands _ _ _ _ _ _ _ P Q _ _ := IsModel.stands (c := c) (w := w) .stepwise
  rw [Workspace.noFullQueues_trueOf_iff hstands.orderly (h.compile_eq hwiring) c.queue_pos]
  refine forall_congr' fun σ => forall_congr' fun hσ => ?_
  refine Iff.trans ?_ (and_congr Plan.clear_iff Plan.clear_iff).symm
  constructor
  · intro hall
    exact ⟨fun m hm => hall _ _ (hstands.leaf_iff.2 (.inr (.inl ⟨m, hm, rfl, rfl⟩))),
      fun m hm => hall _ _ (hstands.leaf_iff.2 (.inr (.inr ⟨m, hm, rfl, rfl⟩)))⟩
  · rintro ⟨hleft, hright⟩ path n hn
    rcases hstands.leaf_iff.1 hn with ⟨rfl, rfl⟩ | ⟨m, hm, rfl, rfl⟩ | ⟨m, hm, rfl, rfl⟩
    · intro j hj t
      obtain rfl := Nat.lt_one_iff.1 hj
      have hload := (hstands.fork_runs (h.compile_eq hwiring) hσ).load_eq_zero c.queue_pos (Kind.inStep_single _)
        Nat.one_pos t
      exact fun hfull => Nat.ne_of_lt (Catalog.queue_toNat_pos c) (hload.symm.trans hfull)
    · exact hleft m hm
    · exact hright m hm

/-! ### Configurations -/

theorem wiring?_noFullQueues (hquery : Query.ofName? c.query = some q)
    (hproperty : c.property = Property.noFullQueues.name) :
    c.wiring? = if q.isComparison then some .stepwise else none := by
  rw [Configuration.wiring?, hproperty, ← Query.name_of_ofName? hquery]
  cases q <;> rfl

theorem named?_noFullQueues (hproperty : c.property = Property.noFullQueues.name) :
    Formula.named? c.property (.network compiled) = some (.noFullQueues compiled.queueFlags) := by
  rw [hproperty, named?_name]
  rfl

variable (hquery : Query.ofName? c.query = some q) (hP : q.blueprint c.domain.toNat c.shape = some P)
  (hQ : q.counterpart c.domain.toNat c.shape = some Q) (hproperty : c.property = Property.noFullQueues.name)
include hquery hP hQ hproperty

/-- Where both plans have room for every stream, no queue is ever full. -/
theorem decides_of_roomy (hfirst : P.Roomy (sizesOf c)) (hsecond : Q.Roomy (sizesOf c)) : Decides c True := by
  refine decides_of_isModel hquery hP hQ fun w compiled h =>
    ⟨_, named?_noFullQueues hproperty, iff_true_intro ?_⟩
  have hwiring := wiring?_noFullQueues hquery hproperty
  cases hcomparison : q.isComparison with
  | false =>
    rw [hcomparison, if_neg Bool.false_ne_true] at hwiring
    exact (h.noFullQueues_trueOf_iff_of_plain hwiring).2 fun σ hσ => hfirst _ (h.over hσ) _ (h.course hwiring hσ)
  | true =>
    rw [hcomparison, if_pos rfl] at hwiring
    refine (h.noFullQueues_trueOf_iff_of_stepwise hwiring).2 fun σ hσ => ?_
    obtain ⟨hleft, hright⟩ := h.courses hwiring hσ
    exact ⟨hfirst _ (h.over hσ) _ hleft, hsecond _ (h.over hσ) _ hright⟩

/-- Where some stream fills a queue of the second plan, which of a query that does not compare is the first one
again, some queue gets full. -/
theorem decides_of_cramped (hcramped : Q.Cramped (sizesOf c)) : Decides c False := by
  obtain ⟨x, hx, hfull⟩ := hcramped
  refine decides_of_isModel hquery hP hQ fun w compiled h =>
    ⟨_, named?_noFullQueues hproperty, iff_false_intro ?_⟩
  have hwiring := wiring?_noFullQueues hquery hproperty
  cases hcomparison : q.isComparison with
  | false =>
    rw [hcomparison, if_neg Bool.false_ne_true] at hwiring
    rw [Query.counterpart_eq_blueprint hcomparison, hP] at hQ
    obtain rfl := Option.some.inj hQ
    intro htrue
    obtain ⟨σ, hσ, hinput⟩ := h.runsOver x hx
    have hcourse := h.course hwiring hσ
    rw [hinput _ (h.inputs_eq ▸ List.mem_cons_self)] at hcourse
    exact hfull _ hcourse ((h.noFullQueues_trueOf_iff_of_plain hwiring).1 htrue σ hσ)
  | true =>
    rw [hcomparison, if_pos rfl] at hwiring
    intro htrue
    obtain ⟨σ, hσ, -, hright⟩ := h.exists_courses hwiring hx
    exact hfull _ hright ((h.noFullQueues_trueOf_iff_of_stepwise hwiring).1 htrue σ hσ).2

end
end StreamCheck.Pipeline
