import StreamCheck.Proofs.Circuit.Names
import StreamCheck.Proofs.Network.Compiling
import StreamCheck.Proofs.Network.Runs
import StreamCheck.Proofs.Queue.Streams
import StreamCheck.Subject.Basic

/-! The queues of a compiled model: there is one for each input of each leaf, at any depth of nesting, and
what its last flag shows is what the leaf's own queue stores. -/

namespace StreamCheck.Smv

def Trace.at (σ : Trace) : List Nat → Trace
  | [] => σ
  | k :: path => (σ.inside k).at path

theorem Trace.at_apply (σ : Trace) (path : List Nat) (t : Nat) (r : Ref) (i : Option Int) :
    σ.at path t ⟨r, i⟩ = σ t ⟨⟨path ++ r.path, r.name⟩, i⟩ := by
  induction path generalizing σ with
  | nil => rfl
  | cons k path ih => exact ih (σ.inside k)

namespace Instance

theorem declarationsOfAll_eq (is : List Instance) : declarationsOfAll is = is.flatMap declarations := by
  induction is with
  | nil => rfl
  | cons i is ih => rw [declarationsOfAll, ih, List.flatMap_cons]

theorem declarations_eq (i : Instance) : i.declarations = i.module.declarations.map (fun v => (⟨[i.id], v.name⟩, v.type)) ++
    (declarationsOfAll i.parts).map fun (r, t) => (r.under i.id, t) := by
  cases i
  rw [declarations]
  rfl

theorem map_fst_declarations (i : Instance) : i.declarations.map Prod.fst =
    (i.module.declarations.map Declaration.name).map (Ref.mk [i.id]) ++
      ((declarationsOfAll i.parts).map Prod.fst).map (Ref.under i.id) := by
  rw [declarations_eq, List.map_append]
  simp only [List.map_map]
  rfl

theorem mem_declarationsOfAll {is : List Instance} {x : Ref × VarType} :
    x ∈ declarationsOfAll is ↔ ∃ i ∈ is, x ∈ i.declarations := by
  rw [declarationsOfAll_eq, List.mem_flatMap]

theorem mem_declarations {i : Instance} {x : Ref × VarType} : x ∈ i.declarations ↔
    (∃ v ∈ i.module.declarations, (⟨[i.id], v.name⟩, v.type) = x) ∨
      ∃ y ∈ declarationsOfAll i.parts, (y.1.under i.id, y.2) = x := by
  rw [declarations_eq, List.mem_append, List.mem_map, List.mem_map]

end Instance
end StreamCheck.Smv

namespace StreamCheck.Network
open Smv

theorem Queue.mem_declarations_circuits {s : Sizes} {types : List PortType} {j : Nat} {t : VarType} :
    ⟨.queueFlags j, t⟩ ∈ (circuits s types).declarations ↔
      j < types.length ∧ t = .array s.queue .boolean := by
  have hdeclarations : (circuits s types).declarations =
      (Circuit.join (types.zipIdx.map fun x => circuit s x.2 x.1)).declarations := List.append_nil _
  rw [hdeclarations, Circuit.mem_declarations_join]
  constructor
  · rintro ⟨c, hc, hd⟩
    obtain ⟨⟨type, j'⟩, hj', rfl⟩ := List.mem_map.1 hc
    obtain ⟨hlt, -⟩ := List.getElem?_eq_some_iff.1 (List.mk_mem_zipIdx_iff_getElem?.1 hj')
    rcases List.mem_pair.1 hd with heq | heq
    · cases heq
    · obtain ⟨hname, rfl⟩ := Declaration.mk.inj heq
      obtain rfl := Name.queueFlags.inj hname
      exact ⟨hlt, rfl⟩
  · rintro ⟨hlt, rfl⟩
    refine ⟨_, List.mem_map.2 ⟨(types[j], j), ?_, rfl⟩, List.mem_cons_of_mem _ List.mem_cons_self⟩
    exact List.mk_mem_zipIdx_iff_getElem?.2 (List.getElem?_eq_getElem hlt)

theorem Circuit.not_mem_declarations_behaviour {s : Sizes} {k : Kind} {b : Circuit}
    (h : behaviour s k = .ok b) (j : Nat) (t : VarType) : ⟨.queueFlags j, t⟩ ∉ b.declarations :=
  fun hd => nomatch (declares_behaviour h _ hd).1

theorem Node.mem_declarations_leafModule {n : Node} {s : Sizes} {m : Module} (hm : n.leafModule s = .ok m)
    {j : Nat} {t : VarType} : ⟨.queueFlags j, t⟩ ∈ m.declarations ↔
      j < n.inputArity ∧ t = .array s.queue .boolean := by
  obtain ⟨b, hb, rfl⟩ := Node.leafModule_eq_ok.1 hm
  rw [Node.inputArity, ← Queue.mem_declarations_circuits]
  constructor
  · intro hd
    exact (List.mem_append.1 hd).resolve_right (Circuit.not_mem_declarations_behaviour hb j t)
  · exact fun hd => List.mem_append_left _ hd

namespace Workspace
variable {w : Workspace} {s : Sizes} {fuel : Nat} {g : GraphId} {supply : Supply} {path : List Nat} {n : Node}
  {around : List Node}

/-- A leaf of a graph or of its groups, with the chain of instances that leads to it. -/
inductive Leaf (w : Workspace) : GraphId → List Nat → Node → Prop
  | here {g : GraphId} {n : Node} (hn : n ∈ (w.graph g).nodes) (hleaf : n.inner? = none) : Leaf w g [n.id] n
  | inside {g inner : GraphId} {group n : Node} {path : List Nat} (hgroup : group ∈ (w.graph g).nodes)
    (hinner : group.inner? = some inner) (h : Leaf w inner path n) : Leaf w g (group.id :: path) n

theorem Leaf.runs (h : w.Leaf g path n) {τ : Trace} (hτ : Courses w s g τ) :
    n.kind.Runs s (τ.at path) := by
  induction h generalizing τ with
  | here hn hleaf =>
    cases hτ with
    | intro leaf connection group entry exit =>
      obtain ⟨m, hm, hobeyed⟩ := leaf _ hn hleaf
      exact Node.runs_of_obeyed hm hobeyed
  | inside hgroup hinner h ih =>
    cases hτ with
    | intro leaf connection group entry exit => exact ih (group _ hgroup _ hinner)

theorem mem_declarations_leaf {graph : Graph} {i : Instance}
    (hi : instanceOf w s fuel graph supply n = .ok i) (hleaf : n.inner? = none) {j : Nat} {t : VarType} :
    (⟨path, .queueFlags j⟩, t) ∈ i.declarations ↔
      path = [n.id] ∧ j < n.inputArity ∧ t = .array s.queue .boolean := by
  obtain ⟨hid, -, -, hparts, -⟩ := instanceOf_eq_ok hi
  rw [Instance.mem_declarations, hid, hparts hleaf, ← Node.mem_declarations_leafModule (leafModule_instanceOf hi hleaf)]
  constructor
  · rintro (⟨⟨x, type⟩, hv, heq⟩ | ⟨y, hy, -⟩)
    · obtain ⟨hr, rfl⟩ := Prod.mk.inj heq
      obtain ⟨rfl, rfl⟩ := Ref.mk.inj hr
      exact ⟨rfl, hv⟩
    · nomatch hy
  · rintro ⟨rfl, hv⟩
    exact .inl ⟨_, hv, rfl⟩

theorem mem_declarations_group {graph : Graph} {i : Instance} {inner : GraphId}
    (hi : instanceOf w s fuel graph supply n = .ok i) (hinner : n.inner? = some inner) {j : Nat}
    {t : VarType} : (⟨path, .queueFlags j⟩, t) ∈ i.declarations ↔
      ∃ path', path = n.id :: path' ∧ (⟨path', .queueFlags j⟩, t) ∈ Instance.declarationsOfAll i.parts := by
  obtain ⟨hid, -, -, -, hgroup⟩ := instanceOf_eq_ok hi
  rw [Instance.mem_declarations, hid, (hgroup inner hinner).2]
  constructor
  · rintro (⟨v, hv, heq⟩ | ⟨⟨⟨path', x⟩, type⟩, hy, heq⟩)
    · -- a group's own declarations are instances
      obtain ⟨i', -, rfl⟩ := List.mem_map.1 hv
      nomatch (Ref.mk.inj (Prod.mk.inj heq).1).2
    · obtain ⟨hr, rfl⟩ := Prod.mk.inj heq
      obtain ⟨rfl, rfl⟩ := Ref.mk.inj hr
      exact ⟨path', rfl, hy⟩
  · rintro ⟨path', rfl, hy⟩
    exact .inr ⟨_, hy, rfl⟩

theorem mem_declarations_instances {parts : List Instance} (hw : w.WiredThroughout g around)
    (hparts : instances w s fuel g supply = .ok parts) {j : Nat} {t : VarType} :
    (⟨path, .queueFlags j⟩, t) ∈ Instance.declarationsOfAll parts ↔
      ∃ n, w.Leaf g path n ∧ j < n.inputArity ∧ t = .array s.queue .boolean := by
  induction fuel generalizing g supply parts path around with
  | zero => nomatch hparts
  | succ fuel ih =>
    rw [Instance.mem_declarationsOfAll]
    constructor
    · rintro ⟨i, hi, hx⟩
      obtain ⟨n, hn, hcompiled⟩ := (exists_node hparts).2 i hi
      cases hinner : n.inner? with
      | none =>
        obtain ⟨rfl, hflags⟩ := (mem_declarations_leaf hcompiled hinner).1 hx
        exact ⟨n, .here hn hinner, hflags⟩
      | some inner =>
        obtain ⟨path', rfl, hy⟩ := (mem_declarations_group hcompiled hinner).1 hx
        have hinside := ((instanceOf_eq_ok hcompiled).2.2.2.2 inner hinner).1
        obtain ⟨n', hn', hflags⟩ := (ih (hw.within hn hinner) hinside).1 hy
        exact ⟨n', .inside hn hinner hn', hflags⟩
    · rintro ⟨n, hn, hflags⟩
      cases hn with
      | here hn hleaf =>
        obtain ⟨i, hi, hcompiled⟩ := exists_instance hparts hw.top.distinct hn
        exact ⟨i, hi, (mem_declarations_leaf hcompiled hleaf).2 ⟨rfl, hflags⟩⟩
      | inside hgroup hinner hn =>
        obtain ⟨i, hi, hcompiled⟩ := exists_instance hparts hw.top.distinct hgroup
        have hinside := ((instanceOf_eq_ok hcompiled).2.2.2.2 _ hinner).1
        have hy := (ih (hw.within hgroup hinner) hinside).2 ⟨n, hn, hflags⟩
        exact ⟨i, hi, (mem_declarations_group hcompiled hinner).2 ⟨_, rfl, hy⟩⟩

theorem mem_declarations_model {m : Model} (hm : w.compile s g = .ok m) {j : Nat} {t : VarType} :
    (⟨path, .queueFlags j⟩, t) ∈ m.declarations ↔
      (⟨path, .queueFlags j⟩, t) ∈ Instance.declarationsOfAll m.parts := by
  rw [Model.declarations, List.mem_append, or_iff_right]
  intro hx
  obtain ⟨d, hd, heq⟩ := List.mem_map.1 hx
  have hname : d.name = .queueFlags j := congrArg (·.1.name) heq
  rw [(compile_eq_ok hm).2.2] at hd
  rcases mem_declarations_mainModule hd with ⟨e, -, rfl | rfl⟩ | ⟨i, -, rfl⟩ | ⟨e, -, rfl | rfl⟩ <;>
    nomatch hname

theorem mem_queueFlags {c : CompiledGraph} {f : QueueFlags} : f ∈ c.queueFlags ↔
    ∃ path j t, (⟨path, .queueFlags j⟩, t) ∈ c.model.declarations ∧ f = ⟨⟨path, .queueFlags j⟩, t.size⟩ := by
  rw [CompiledGraph.queueFlags, List.mem_eraseDups, List.mem_filterMap]
  constructor
  · rintro ⟨⟨⟨path, x⟩, t⟩, hx, heq⟩
    cases x with
    | queueFlags j => exact ⟨path, j, t, hx, (Option.some.inj heq).symm⟩
    | _ => nomatch heq
  · rintro ⟨path, j, t, hx, rfl⟩
    exact ⟨_, hx, rfl⟩

theorem mem_queueFlags_compile {c : CompiledGraph} (hw : w.WiredThroughout g around)
    (hc : w.compile s g = .ok c.model) {f : QueueFlags} : f ∈ c.queueFlags ↔
      ∃ path n j, w.Leaf g path n ∧ j < n.inputArity ∧ f = ⟨⟨path, .queueFlags j⟩, s.queue⟩ := by
  have hparts := (compile_eq_ok hc).2.1
  rw [mem_queueFlags]
  constructor
  · rintro ⟨path, j, t, hx, rfl⟩
    rw [mem_declarations_model hc, mem_declarations_instances hw hparts] at hx
    obtain ⟨n, hn, hj, rfl⟩ := hx
    exact ⟨path, n, j, hn, hj, rfl⟩
  · rintro ⟨path, n, j, hn, hj, rfl⟩
    refine ⟨path, j, .array s.queue .boolean, ?_, rfl⟩
    rw [mem_declarations_model hc, mem_declarations_instances hw hparts]
    exact ⟨n, hn, hj, rfl⟩

theorem Leaf.full_iff (h : w.Leaf g path n) {σ : Trace} (hσ : Courses w s g σ) (hq : 0 < s.queue) {j : Nat}
    (hj : j < n.inputArity) (t : Nat) :
    ((QueueFlags.mk ⟨path, .queueFlags j⟩ s.queue).full.eval (σ t)).isTrue = true ↔
      Queue.load (σ.at path) s.queue.toNat j t = s.queue.toNat := by
  obtain ⟨b, -, hqueues, -⟩ := h.runs hσ
  have hmarks := Queue.marks_load (Queue.circuit_obeyed hqueues hj) t
  have hlast : s.queue - 1 = ((s.queue.toNat - 1 : Nat) : Int) := by omega
  have hflag : (QueueFlags.mk ⟨path, .queueFlags j⟩ s.queue).full.eval (σ t) =
      (Queue.flag j (s.queue.toNat - 1)).eval (σ.at path t) := by
    rw [QueueFlags.full, hlast]
    change _ = σ.at path t ⟨.own (.queueFlags j), some _⟩
    rw [Trace.at_apply, Ref.own, List.append_nil]
    rfl
  rw [hflag, hmarks.2 _ (by omega)]
  have := hmarks.1
  simp only [Value.isTrue, decide_eq_true_eq]
  omega

end Workspace
end StreamCheck.Network
