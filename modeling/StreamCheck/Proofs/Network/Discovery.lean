import StreamCheck.Proofs.Network.Closed
import StreamCheck.Proofs.Network.Pipes
import StreamCheck.Proofs.Smv.Letters

/-! What is found in the names of a compiled model is what its graph has: the exposed ports, and a queue for each
input of each leaf. -/

namespace StreamCheck

theorem CompiledGraph.compile_eq_ok {w : Network.Workspace} {name : String} {s : Network.Sizes} {g : Network.GraphId}
    {shape : Option Int} {c : CompiledGraph} (h : CompiledGraph.compile w name s g shape = .ok c) :
    w.compile s g = .ok c.model := by
  rw [CompiledGraph.compile] at h
  cases hm : w.compile s g with
  | error e =>
    rw [hm] at h
    nomatch h
  | ok m =>
    rw [hm] at h
    obtain rfl := Except.ok.inj h
    rfl

namespace Network
open Smv

namespace Workspace
variable {w : Workspace} {s : Sizes} {fuel : Nat} {g : GraphId} {supply : Supply} {around : List Node} {n : Node}

/-! ### Everything that is declared -/

theorem declared_instanceOf {graph : Graph} {i : Instance} (hi : instanceOf w s fuel graph supply n = .ok i)
    (hdistinct : ∀ inner, n.inner? = some inner → ((w.graph inner).nodes.map Node.id).Nodup) :
    (i.module.declarations.map Declaration.name).Nodup ∧ ∀ v ∈ i.module.declarations, v.name.IsOrdinary := by
  cases hinner : n.inner? with
  | none =>
    obtain ⟨b, hb, hmodule⟩ := Node.leafModule_eq_ok.1 (leafModule_instanceOf hi hinner)
    obtain ⟨htidy, -, howner⟩ := Circuit.names_ofKind hb
    rw [← hmodule]
    exact ⟨htidy.declared, fun v hv =>
      Name.isOrdinary_of_owner (howner _ (List.mem_append_left _ (List.mem_map_of_mem hv)))⟩
  | some inner =>
    obtain ⟨hparts, hmodule⟩ := (instanceOf_eq_ok hi).2.2.2.2 inner hinner
    have hnames : (i.parts.map Instance.declaration).map Declaration.name = i.parts.map fun i => Name.part i.id :=
      List.map_map
    rw [hmodule]
    refine ⟨hnames ▸ nodup_parts (hdistinct inner hinner) hparts, fun v hv => ?_⟩
    obtain ⟨i', -, rfl⟩ := List.mem_map.1 hv
    trivial

theorem declared_instances (hw : w.WiredThroughout g around) {parts : List Instance}
    (hparts : instances w s fuel g supply = .ok parts) :
    ((Instance.declarationsOfAll parts).map Prod.fst).Nodup ∧
      ∀ x ∈ Instance.declarationsOfAll parts, x.1.name.IsOrdinary ∧ x.1.path ≠ [] := by
  induction fuel generalizing g around supply parts with
  | zero => cases hparts
  | succ fuel ih =>
    have hpartIds : (parts.map Instance.id).Nodup := (exists_node hparts).1 ▸ hw.top.distinct
    have hmodule : ∀ i ∈ parts, (i.module.declarations.map Declaration.name).Nodup ∧
        ∀ v ∈ i.module.declarations, v.name.IsOrdinary := by
      intro i hi
      obtain ⟨n, hn, hcompiled⟩ := (exists_node hparts).2 i hi
      exact declared_instanceOf hcompiled fun inner hinner => (hw.within hn hinner).top.distinct
    have hinside : ∀ i ∈ parts, ((Instance.declarationsOfAll i.parts).map Prod.fst).Nodup ∧
        ∀ x ∈ Instance.declarationsOfAll i.parts, x.1.name.IsOrdinary ∧ x.1.path ≠ [] := by
      intro i hi
      obtain ⟨n, hn, hcompiled⟩ := (exists_node hparts).2 i hi
      obtain ⟨-, -, -, hleaf, hgroup⟩ := instanceOf_eq_ok hcompiled
      cases hinner : n.inner? with
      | none =>
        rw [hleaf hinner]
        exact ⟨List.nodup_nil, fun x hx => absurd hx List.not_mem_nil⟩
      | some inner => exact ih (hw.within hn hinner) (hgroup inner hinner).1
    have hstart : ∀ i ∈ parts, ∀ r ∈ i.declarations.map Prod.fst, r.path.head? = some i.id := by
      intro i hi r hr
      obtain ⟨x, hx, rfl⟩ := List.mem_map.1 hr
      obtain ⟨v, -, rfl⟩ | ⟨y, -, rfl⟩ := Instance.mem_declarations.1 hx
      · rfl
      · rfl
    constructor
    · rw [Instance.declarationsOfAll_eq, List.map_flatMap]
      refine nodup_flatMap_of (List.Nodup.of_map _ hpartIds) (fun i hi => ?_) fun i hi i' hi' r hr hr' => ?_
      · rw [Instance.map_fst_declarations]
        refine List.nodup_append.2 ⟨(hmodule i hi).1.map fun _ _ h => (Ref.mk.inj h).2,
          (hinside i hi).1.map (Ref.under_injective i.id), ?_⟩
        rintro r hr _ hr' rfl
        obtain ⟨x, -, rfl⟩ := List.mem_map.1 hr
        obtain ⟨r', hr', heq⟩ := List.mem_map.1 hr'
        obtain ⟨y, hy, rfl⟩ := List.mem_map.1 hr'
        exact ((hinside i hi).2 y hy).2 (List.cons.inj (Ref.mk.inj heq).1).2
      · have hids := (hstart i hi r hr).symm.trans (hstart i' hi' r hr')
        exact List.inj_on_of_nodup_map hpartIds hi hi' (Option.some.inj hids)
    · intro x hx
      obtain ⟨i, hi, hx⟩ := Instance.mem_declarationsOfAll.1 hx
      obtain ⟨v, hv, rfl⟩ | ⟨y, hy, rfl⟩ := Instance.mem_declarations.1 hx
      · exact ⟨(hmodule i hi).2 v hv, List.cons_ne_nil _ _⟩
      · exact ⟨((hinside i hi).2 y hy).1, List.cons_ne_nil _ _⟩

theorem declared_compile (hw : w.WiredThroughout g around)
    (hpipes : ∀ side, (((w.graph g).externals side).map External.pipe).Nodup) {m : Model}
    (hm : w.compile s g = .ok m) :
    (m.declarations.map Prod.fst).Nodup ∧ (∀ v ∈ m.main.declarations, v.name.IsOrdinary) ∧
      ∀ x ∈ m.declarations, x.1.name.IsOrdinary := by
  obtain ⟨-, hparts, hmain⟩ := compile_eq_ok hm
  obtain ⟨hnodup, hordinary⟩ := declared_instances hw hparts
  have hnames : m.main.names = m.main.declarations.map Declaration.name := by
    rw [hmain]
    exact List.append_nil _
  have hmainNodup : (m.main.declarations.map Declaration.name).Nodup := by
    rw [← hnames, hmain]
    exact nodup_names_mainModule hpipes (nodup_parts hw.top.distinct hparts)
  have hmainOrdinary : ∀ v ∈ m.main.declarations, v.name.IsOrdinary := by
    intro v hv
    have hv : v.name ∈ m.main.names := hnames ▸ List.mem_map_of_mem hv
    rw [hmain] at hv
    exact mem_names_mainModule hv
  refine ⟨?_, hmainOrdinary, List.forall_mem_append.2 ⟨fun x hx => ?_, fun x hx => (hordinary x hx).1⟩⟩
  · have hown : (m.main.declarations.map fun v => (Ref.own v.name, v.type)).map Prod.fst =
        (m.main.declarations.map Declaration.name).map Ref.own := by
      rw [List.map_map, List.map_map]
      rfl
    rw [Model.declarations, List.map_append, hown]
    refine List.nodup_append.2 ⟨hmainNodup.map fun _ _ h => (Ref.mk.inj h).2, hnodup, ?_⟩
    rintro r hr _ hr' rfl
    obtain ⟨x, -, rfl⟩ := List.mem_map.1 hr
    obtain ⟨y, hy, heq⟩ := List.mem_map.1 hr'
    exact (hordinary y hy).2 (congrArg Ref.path heq)
  · obtain ⟨v, hv, rfl⟩ := List.mem_map.1 hx
    exact hmainOrdinary v hv

/-! ### Leaves and their places -/

theorem Within.leaf {place : List Node} {mid : GraphId} {path : List Nat} (h : w.Within g place mid)
    (hleaf : w.Leaf mid path n) : w.Leaf g (address place ++ path) n := by
  induction h generalizing path with
  | top => exact hleaf
  | inside _ hmem hinner ih =>
    rw [address_cons, List.append_assoc]
    exact ih (.inside hmem hinner hleaf)

theorem leaf_iff_within {path : List Nat} : w.Leaf g path n ↔ ∃ place mid, w.Within g place mid ∧
    n ∈ (w.graph mid).nodes ∧ n.inner? = none ∧ path = address place ++ [n.id] := by
  constructor
  · intro h
    induction h with
    | here hn hleaf => exact ⟨[], _, .top, hn, hleaf, rfl⟩
    | @inside g inner group n path hgroup hinner _ ih =>
      obtain ⟨place, mid, hplace, hn, hleaf, rfl⟩ := ih
      have haddress : address (place ++ [group]) = group.id :: address place := by
        rw [address, List.map_append, List.reverse_append]
        rfl
      exact ⟨place ++ [group], mid, hplace.through hgroup hinner, hn, hleaf, by rw [haddress]; rfl⟩
  · rintro ⟨place, mid, hplace, hn, hleaf, rfl⟩
    exact hplace.leaf (.here hn hleaf)

theorem Within.place_injective
    (hids : ∀ h h' a b, a ∈ (w.graph h).nodes → b ∈ (w.graph h').nodes → a.id = b.id → a = b)
    {place place' : List Node} {mid mid' : GraphId} (h : w.Within g place mid) (h' : w.Within g place' mid')
    (haddress : address place = address place') : place = place' := by
  induction h generalizing place' mid' with
  | top =>
    cases h' with
    | top => rfl
    | inside =>
      rw [address_cons] at haddress
      exact absurd haddress.symm (List.append_ne_nil_of_right_ne_nil _ (List.cons_ne_nil _ _))
  | inside _ hmem _ ih =>
    cases h' with
    | top =>
      rw [address_cons] at haddress
      exact absurd haddress (List.append_ne_nil_of_right_ne_nil _ (List.cons_ne_nil _ _))
    | inside h' hmem' _ =>
      rw [address_cons, address_cons] at haddress
      obtain ⟨hplace, hid⟩ := List.append_inj' haddress rfl
      rw [ih h' hplace, hids _ _ _ _ hmem hmem' (List.singleton_inj.1 hid)]

theorem mem_booleanOutputs_compile {c : CompiledGraph} (hc : w.compile s g = .ok c.model) {p : Int} :
    p ∈ c.booleanOutputs ↔ ∃ e ∈ (w.graph g).outputs, p = e.pipe ∧ w.typeOf .output e.port = .boolean := by
  have hscalar (t : PortType) : s.scalar t = .boolean ↔ t = .boolean := by
    cases t with
    | integer => exact iff_of_false Scalar.noConfusion PortType.noConfusion
    | boolean => exact iff_of_true rfl rfl
  rw [CompiledGraph.booleanOutputs, List.mem_eraseDups, List.mem_filterMap]
  constructor
  · rintro ⟨d, hd, heq⟩
    rw [(compile_eq_ok hc).2.2] at hd
    rcases mem_declarations_mainModule hd with ⟨e, -, rfl | rfl⟩ | ⟨i, -, rfl⟩ | ⟨e, he, rfl | rfl⟩
    · cases heq
    · cases heq
    · cases heq
    · obtain ⟨htype, hp⟩ := Option.ite_none_right_eq_some.1 heq
      exact ⟨e, he, (Option.some.inj hp).symm, (hscalar _).1 (VarType.scalar.inj htype)⟩
    · cases heq
  · rintro ⟨e, he, rfl, htype⟩
    refine ⟨⟨.pipeOutValue e.pipe, w.pipeType s .output e⟩, ?_, if_pos ?_⟩
    · rw [(compile_eq_ok hc).2.2]
      exact List.mem_append_right _ (List.mem_flatMap.2 ⟨e, he, List.mem_cons_self⟩)
    · exact congrArg VarType.scalar ((hscalar _).2 htype)

end Workspace

/-! ### Every session -/

namespace Session
open Workspace

/-- After any calls, what is found in the names of a compiled model is what its graph has: the pipes that lead in,
those that lead out and among them those of truth values, and, without any loss, one queue under a name of its own
for each input of each leaf at any depth. -/
theorem compile_discovery (cs : List Call) (name : String) (z : Sizes) (g : GraphId) (shape : Option Int)
    {c : CompiledGraph} (hc : CompiledGraph.compile (({} : Session).performAll cs).workspace name z g shape = .ok c) :
    let w := (({} : Session).performAll cs).workspace
    (c.inputPortIds? = some c.inputs ∧ ∀ p, p ∈ c.inputs ↔ ∃ e ∈ (w.graph g).inputs, p = e.pipe) ∧
    (c.outputPortIds? = some c.outputs ∧ ∀ p, p ∈ c.outputs ↔ ∃ e ∈ (w.graph g).outputs, p = e.pipe) ∧
    (c.booleanOutputIds? = some c.booleanOutputs ∧ ∀ p, p ∈ c.booleanOutputs ↔
      ∃ e ∈ (w.graph g).outputs, p = e.pipe ∧ w.typeOf .output e.port = .boolean) ∧
    (c.queueVariables = c.model.flagEntries ∧ (c.queueVariables.map Prod.fst).Nodup ∧
      c.queueVariables = c.queueFlags.map fun f => (f.name.text, f.size)) ∧
    (∀ f, f ∈ c.queueVariables ↔ ∃ place around n j, w.Within g place around ∧ n ∈ (w.graph around).nodes ∧
      n.inner? = none ∧ j < n.inputArity ∧ f = ((Ref.mk (address place ++ [n.id]) (.queueFlags j)).text, z.queue)) ∧
    ∀ place around n j place' around' n' j', w.Within g place around → n ∈ (w.graph around).nodes →
      w.Within g place' around' → n' ∈ (w.graph around').nodes →
      (Ref.mk (address place ++ [n.id]) (.queueFlags j)).text =
        (Ref.mk (address place' ++ [n'.id]) (.queueFlags j')).text → place = place' ∧ n = n' ∧ j = j' := by
  have hsound : (({} : Session).performAll cs).Sound := sound_performAll cs
  generalize (({} : Session).performAll cs) = s at hsound hc
  intro w
  have hcompile : w.compile z g = .ok c.model := CompiledGraph.compile_eq_ok hc
  have hw : w.WiredThroughout g (s.groupsAround g) := hsound.wiredThroughout g
  obtain ⟨hnodup, hmain, hordinary⟩ := declared_compile hw (hsound.nodup_pipes g) hcompile
  obtain ⟨hinputs, houtputs, hbooleans⟩ := CompiledGraph.portIds_eq hmain
  obtain ⟨hlost, hentries, hnames⟩ := CompiledGraph.queueVariables_eq hordinary hnodup
  refine ⟨⟨hinputs, fun p => mem_inputs_compile hcompile⟩, ⟨houtputs, fun p => mem_outputs_compile hcompile⟩,
    ⟨hbooleans, fun p => mem_booleanOutputs_compile hcompile⟩, ⟨hlost, hnames, hentries⟩, fun f => ?_, ?_⟩
  · rw [hentries, List.mem_map]
    constructor
    · rintro ⟨q, hq, rfl⟩
      obtain ⟨path, n, j, hleaf, hj, rfl⟩ := (mem_queueFlags_compile hw hcompile).1 hq
      obtain ⟨place, mid, hplace, hn, hnone, rfl⟩ := leaf_iff_within.1 hleaf
      exact ⟨place, mid, n, j, hplace, hn, hnone, hj, rfl⟩
    · rintro ⟨place, mid, n, j, hplace, hn, hnone, hj, rfl⟩
      have hleaf : w.Leaf g (address place ++ [n.id]) n := leaf_iff_within.2 ⟨place, mid, hplace, hn, hnone, rfl⟩
      exact ⟨_, (mem_queueFlags_compile hw hcompile).2 ⟨_, n, j, hleaf, hj, rfl⟩, rfl⟩
  · intro place mid n j place' mid' n' j' hplace hn hplace' hn' htext
    obtain ⟨hpath, hname⟩ := Ref.mk.inj (Ref.text_injective (by trivial) (by trivial) htext)
    obtain ⟨haddress, hid⟩ := List.append_inj' hpath rfl
    exact ⟨hplace.place_injective (fun _ _ _ _ => hsound.eq_of_id_eq) hplace' haddress,
      hsound.eq_of_id_eq hn hn' (List.singleton_inj.1 hid),
      Name.queueFlags.inj hname⟩

/-- The relay takes one pipe in and one out, and the inner one of its two queues is found behind its group. -/
theorem compile_discovery_of_relay :
    ∃ c, CompiledGraph.compile (({} : Session).performAll relay).workspace "relay" ⟨4, 2⟩ 0 none = .ok c ∧
      (0 : Int) ∈ c.inputs ∧ (1 : Int) ∈ c.outputs ∧ ("pr_1.pr_2.qb0", 2) ∈ c.queueVariables := by
  obtain ⟨c, hc⟩ := exists_eq_ok
    (x := CompiledGraph.compile (({} : Session).performAll relay).workspace "relay" ⟨4, 2⟩ 0 none) (by decide +kernel)
  obtain ⟨⟨-, hinputs⟩, ⟨-, houtputs⟩, -, -, hqueues, -⟩ := compile_discovery relay "relay" ⟨4, 2⟩ 0 none hc
  refine ⟨c, hc, (hinputs 0).2 ?_, (houtputs 1).2 ?_, (hqueues _).2 ?_⟩
  · exact ⟨⟨0, ⟨⟨1, .group 1 1 1⟩, 0⟩⟩, by decide +kernel, rfl⟩
  · exact ⟨⟨1, ⟨⟨3, .passthrough .integer⟩, 0⟩⟩, by decide +kernel, rfl⟩
  · exact ⟨[⟨1, .group 1 1 1⟩], 1, ⟨2, .passthrough .integer⟩, 0, Within.top.inside (by decide +kernel) rfl,
      by decide +kernel, rfl, by decide, by decide +kernel⟩

end Session
end Network
end StreamCheck
