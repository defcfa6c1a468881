import StreamCheck.Proofs.Circuit.Names
import StreamCheck.Proofs.Network.Outcomes
import StreamCheck.Proofs.Network.Routes

/-! Compiled models are well formed: the modules are told apart by their names, and each looks only at what it
is given, says itself, or finds in the modules of its instances. -/

namespace StreamCheck

namespace Smv

theorem Update.sees_iff {P : Spot → Prop} {u : Update} : u.Sees P ↔ ∀ p ∈ u.reads, P p := by
  cases u with
  | value e => rfl
  | cases bs =>
    simp only [Sees, Expr.Sees, reads, List.mem_flatMap, List.mem_append]
    constructor
    · rintro h p ⟨b, hb, hp | hp⟩
      · exact (h b hb).1 p hp
      · exact (h b hb).2 p hp
    · exact fun h b hb => ⟨fun p hp => h p ⟨b, hb, .inl hp⟩, fun p hp => h p ⟨b, hb, .inr hp⟩⟩

end Smv

namespace Network
open Smv

theorem Workspace.mem_parameters {arity : Nat} {x : Name} :
    x ∈ parameters arity ↔ ∃ j < arity, x = .inValue j ∨ x = .inFire j := by
  simp only [parameters, List.mem_flatMap, List.mem_range, List.mem_pair]

/-! ### Leaves -/

theorem Node.closed_leafModule {n : Node} {s : Sizes} {m : Module} (hq : 0 < s.queue) (hm : n.leafModule s = .ok m)
    (modules : List Module) : m.Closed modules := by
  obtain ⟨b, hb, rfl⟩ := leafModule_eq_ok.1 hm
  obtain ⟨htidy, hnodup, howner⟩ := Circuit.names_ofKind hb
  have hsees := Circuit.sees_ofKind hq hb
  have hplain : ∀ d ∈ (Queue.circuits s n.kind.inputs ++ b).declarations, ∀ callee args, d.type ≠ .part callee args := by
    intro d hd
    obtain hd | hd := List.mem_append.1 hd
    · exact (Queue.declares_circuits d hd).2.2
    · exact (Circuit.declares_behaviour hb d hd).2.2
  have hparameters : ∀ x ∈ Workspace.parameters n.inputArity, x.owner = .outside ∧ x.IsOrdinary := by
    intro x hx
    obtain ⟨j, -, rfl | rfl⟩ := Workspace.mem_parameters.1 hx
    · exact ⟨rfl, trivial⟩
    · exact ⟨rfl, trivial⟩
  have hshows : ∀ p, (Queue.circuits s n.kind.inputs ++ b).Says p ∨ InputSpot n.kind.inputs.length p →
      (Workspace.circuitModule n (Queue.circuits s n.kind.inputs ++ b)).Shows modules p := by
    rintro p ((⟨d, hd, rfl⟩ | ⟨d, hd, x, hx, rfl⟩) | ⟨j, hj, hp⟩)
    · exact .define (List.mem_map_of_mem hd)
    · exact Module.shows_cell hd hx
    · rcases hp with rfl | rfl
      · exact .parameter (Workspace.mem_parameters.2 ⟨j, hj, .inl rfl⟩)
      · exact .parameter (Workspace.mem_parameters.2 ⟨j, hj, .inr rfl⟩)
  refine ⟨?_, ?_, htidy.assigned, fun d hd callee args htype => absurd htype (hplain d hd callee args), ?_⟩
  · refine Module.nodup_map_text (List.nodup_append.2 ⟨Workspace.parameters_nodup _, hnodup, ?_⟩) ?_
    · rintro x hx _ hx' rfl
      exact howner x hx' (hparameters x hx).1
    · intro x hx
      obtain hx | hx := List.mem_append.1 hx
      · exact (hparameters x hx).2
      · exact Name.isOrdinary_of_owner (howner x hx)
  · refine Module.nodup_map_target htidy.targets fun a ha => Name.isOrdinary_of_owner ?_
    exact howner _ (List.mem_append_left _ (htidy.name_mem ha))
  · intro p hp
    obtain hp | hp := List.mem_append.1 hp
    · obtain hp | hp := List.mem_append.1 hp
      · obtain ⟨⟨x, t⟩, hd, hp⟩ := List.mem_flatMap.1 hp
        cases t with
        | scalar _ | array _ _ => nomatch hp
        | part callee args => exact absurd rfl (hplain _ hd callee args)
      · obtain ⟨d, hd, hp⟩ := List.mem_flatMap.1 hp
        exact hshows p (hsees.defines d hd p hp)
    · obtain ⟨a, ha, hp⟩ := List.mem_flatMap.1 hp
      exact hshows p (Update.sees_iff.1 (hsees.assigns a ha) p hp)

/-! ### Instances in a module -/

namespace Workspace
variable {w : Workspace} {s : Sizes} {fuel : Nat} {g : GraphId} {supply : Supply} {around : List Node} {n : Node}

theorem length_arguments {graph : Graph} {i : Instance} (hi : instanceOf w s fuel graph supply n = .ok i) :
    i.arguments.length = i.module.parameters.length := by
  obtain ⟨-, hargs, hparameters, -⟩ := instanceOf_eq_ok hi
  obtain ⟨wires, hwires, hflat⟩ := bind_eq_ok_iff.1 hargs
  have hlength : (List.range n.inputArity).length = wires.length := (mapM_eq_ok hwires).length_eq
  rw [hparameters, ← Except.ok.inj hflat, parameters]
  simp only [List.length_flatMap, List.length_cons, List.length_nil, List.map_const', List.sum_replicate_nat]
  rw [hlength]

theorem mem_defines_instanceOf {graph : Graph} {i : Instance} (hi : instanceOf w s fuel graph supply n = .ok i)
    (hexits : ∀ inner, n.inner? = some inner → ∀ index < n.outputArity, ∃ p, (w.graph inner).exits.lookup index = some p)
    {p : Nat} (hp : p < n.outputArity) :
    .outValue p ∈ i.module.defines.map Prod.fst ∧ .outFire p ∈ i.module.defines.map Prod.fst := by
  cases hinner : n.inner? with
  | none =>
    obtain ⟨b, hb, hmodule⟩ := Node.leafModule_eq_ok.1 (leafModule_instanceOf hi hinner)
    rw [← hmodule]
    have hmem : ∀ x ∈ [Name.outValue p, .outFire p], x ∈ (Queue.circuits s n.kind.inputs ++ b).defines.map Prod.fst := by
      intro x hx
      have hdefined : x ∈ b.defines.map Prod.fst := by
        rw [Circuit.defined_behaviour hb]
        exact List.mem_flatMap.2 ⟨p, List.mem_range.2 hp, hx⟩
      obtain ⟨d, hd, rfl⟩ := List.mem_map.1 hdefined
      exact List.mem_map_of_mem (List.mem_append_right _ hd)
    exact ⟨hmem _ List.mem_cons_self, hmem _ (List.mem_cons_of_mem _ List.mem_cons_self)⟩
  | some inner =>
    obtain ⟨q, hq⟩ := hexits inner hinner p hp
    obtain ⟨hvalue, hfire⟩ := lookup_groupOutputs (w.graph inner).exits (List.mem_range.2 hp) hq
    rw [((instanceOf_eq_ok hi).2.2.2.2 inner hinner).2]
    exact ⟨List.mem_map_of_mem (mem_of_lookup_eq_some hvalue), List.mem_map_of_mem (mem_of_lookup_eq_some hfire)⟩

theorem nodup_parts (hdistinct : ((w.graph g).nodes.map Node.id).Nodup) {parts : List Instance}
    (hparts : instances w s fuel g supply = .ok parts) : (parts.map fun i => Name.part i.id).Nodup := by
  cases fuel with
  | zero => nomatch hparts
  | succ fuel =>
    have hids : (parts.map Instance.id).Nodup := (exists_node hparts).1 ▸ hdistinct
    have hnames : parts.map (fun i => Name.part i.id) = (parts.map Instance.id).map Name.part := List.map_map.symm
    rw [hnames]
    exact hids.map fun _ _ => Name.part.inj

structure Surrounds (w : Workspace) (s : Sizes) (fuel : Nat) (g : GraphId) (around : List Node) (supply : Supply)
    (parts : List Instance) (m : Module) : Prop where
  fed : (w.graph g).Fed around
  valid : w.validateWithin (fuel + 1) g = .ok ()
  compiled : instances w s (fuel + 1) g supply = .ok parts
  declared : ∀ i ∈ parts, i.declaration ∈ m.declarations
  supplied : ∀ e ∈ supply, ∀ modules, m.Shows modules ⟨e.2.1, none⟩ ∧ m.Shows modules ⟨e.2.2, none⟩

section
variable {parts : List Instance} {m : Module} (h : Surrounds w s fuel g around supply parts m)
include h

theorem Surrounds.shows_output {p : Port} (hp : p.node ∈ (w.graph g).nodes ∧ p.index < p.node.outputArity) :
    m.Shows (Instance.modulesOfAll parts) ⟨(outputWire p).1, none⟩ ∧
      m.Shows (Instance.modulesOfAll parts) ⟨(outputWire p).2, none⟩ := by
  obtain ⟨i, hi, hcompiled⟩ := exists_instance h.compiled h.fed.distinct hp.1
  have hid : i.id = p.node.id := (instanceOf_eq_ok hcompiled).1
  have hdeclaration : ⟨.part p.node.id, .part i.module.name i.arguments⟩ ∈ m.declarations := by
    rw [← hid]
    exact h.declared i hi
  have hmodule : i.module ∈ Instance.modulesOfAll parts :=
    Instance.mem_modulesOfAll.2 ⟨i, hi, Instance.mem_modules.2 (.inr rfl)⟩
  obtain ⟨hvalue, hfire⟩ := mem_defines_instanceOf hcompiled
    (fun inner hinner => (validateWithin_group h.valid hp.1 hinner).1) hp.2
  exact ⟨.output hdeclaration hmodule (.inl rfl) hvalue, .output hdeclaration hmodule (.inr rfl) hfire⟩

theorem Surrounds.shows_argument {i : Instance} (hi : i ∈ parts) {a : Ref} (ha : a ∈ i.arguments) :
    m.Shows (Instance.modulesOfAll parts) ⟨a, none⟩ := by
  obtain ⟨n, -, hcompiled⟩ := (exists_node h.compiled).2 i hi
  obtain ⟨j, -, wire, hfeed, hends⟩ := exists_wire (instanceOf_eq_ok hcompiled).2.1 ha
  have hwire : m.Shows (Instance.modulesOfAll parts) ⟨wire.1, none⟩ ∧
      m.Shows (Instance.modulesOfAll parts) ⟨wire.2, none⟩ := by
    obtain ⟨c, hc, rfl⟩ | hlookup := feed_eq_ok hfeed
    · have hmem := ((h.fed.wired .input).incoming?_eq_some hc).1
      exact h.shows_output ((h.fed.wired .output).member _ (Graph.connection_mem_uses around .output hmem))
    · exact h.supplied _ (mem_of_lookup_eq_some hlookup) _
  rcases hends with rfl | rfl
  · exact hwire.1
  · exact hwire.2

theorem Surrounds.callee {i : Instance} (hi : i ∈ parts) {callee : ModuleName} {args : List Ref}
    (htype : i.declaration.type = .part callee args) : ∃ m' ∈ Instance.modulesOfAll parts, m'.name = callee ∧
      args.length = m'.parameters.length := by
  obtain ⟨n, -, hcompiled⟩ := (exists_node h.compiled).2 i hi
  obtain ⟨rfl, rfl⟩ := VarType.part.inj htype
  exact ⟨i.module, Instance.mem_modulesOfAll.2 ⟨i, hi, Instance.mem_modules.2 (.inr rfl)⟩, rfl,
    length_arguments hcompiled⟩

theorem Surrounds.nodup_parts : (parts.map fun i => Name.part i.id).Nodup :=
  Workspace.nodup_parts h.fed.distinct h.compiled

end

/-! ### Groups -/

theorem nodup_groupOutputs (inner : Graph) (arity : Nat) : ((groupOutputs inner arity).map Prod.fst).Nodup := by
  rw [groupOutputs, List.map_flatMap]
  refine nodup_flatMap_of List.nodup_range (fun index _ => ?_) fun index _ index' _ x hx hx' => ?_
  · cases inner.exits.lookup index with
    | none => exact List.nodup_nil
    | some p => simp
  · cases hexit : inner.exits.lookup index with
    | none =>
      rw [hexit] at hx
      exact absurd hx List.not_mem_nil
    | some p =>
      cases hexit' : inner.exits.lookup index' with
      | none =>
        rw [hexit'] at hx'
        exact absurd hx' List.not_mem_nil
      | some p' =>
        rw [hexit] at hx
        rw [hexit'] at hx'
        rcases List.mem_pair.1 hx with rfl | rfl <;> rcases List.mem_pair.1 hx' with heq | heq
        · exact Name.outValue.inj heq
        · cases heq
        · cases heq
        · exact Name.outFire.inj heq

theorem surrounds_groupModule {inner : GraphId} {parts : List Instance} (hfed : (w.graph inner).Fed [n])
    (hvalid : w.validateWithin (fuel + 1) inner = .ok ())
    (hparts : instances w s (fuel + 1) inner (groupSupply (w.graph inner)) = .ok parts) :
    Surrounds w s fuel inner [n] (groupSupply (w.graph inner)) parts (groupModule n (w.graph inner) parts) := by
  refine ⟨hfed, hvalid, hparts, fun i hi => List.mem_map_of_mem hi, fun e he modules => ?_⟩
  obtain ⟨a, ha, rfl⟩ := List.mem_map.1 he
  have hlt : a.1 < n.inputArity := hfed.declared n List.mem_cons_self .input a ha
  exact ⟨.parameter (mem_parameters.2 ⟨a.1, hlt, .inl rfl⟩), .parameter (mem_parameters.2 ⟨a.1, hlt, .inr rfl⟩)⟩

theorem closed_groupModule {inner : GraphId} {parts : List Instance}
    (h : Surrounds w s fuel inner [n] (groupSupply (w.graph inner)) parts (groupModule n (w.graph inner) parts)) :
    (groupModule n (w.graph inner) parts).Closed (Instance.modulesOfAll parts) := by
  have hparts : (parts.map Instance.declaration).map Declaration.name = parts.map fun i => Name.part i.id := List.map_map
  have hdefined : ∀ x ∈ (groupOutputs (w.graph inner) n.outputArity).map Prod.fst,
      ∃ p, x = .outValue p ∨ x = .outFire p := by
    intro x hx
    obtain ⟨d, hd, rfl⟩ := List.mem_map.1 hx
    obtain ⟨p, -, -, -, rfl | rfl⟩ := mem_groupOutputs hd
    · exact ⟨p, .inl rfl⟩
    · exact ⟨p, .inr rfl⟩
  refine ⟨Module.nodup_map_text ?_ fun x hx => ?_, List.nodup_nil, fun a ha => (nomatch ha), ?_, fun p hp => ?_⟩
  · refine List.nodup_append.2 ⟨parameters_nodup _, List.nodup_append.2 ⟨?_, nodup_groupOutputs _ _, ?_⟩, ?_⟩
    · exact hparts ▸ h.nodup_parts
    · rintro x hx _ hx' rfl
      obtain ⟨i, -, rfl⟩ := List.mem_map.1 (hparts ▸ hx)
      obtain ⟨p, heq | heq⟩ := hdefined _ hx' <;> nomatch heq
    · rintro x hx _ hx' rfl
      obtain ⟨j, -, hj⟩ := mem_parameters.1 hx
      obtain hx' | hx' := List.mem_append.1 hx'
      · obtain ⟨i, -, rfl⟩ := List.mem_map.1 (hparts ▸ hx')
        rcases hj with heq | heq <;> nomatch heq
      · obtain ⟨p, rfl | rfl⟩ := hdefined _ hx' <;> rcases hj with heq | heq <;> nomatch heq
  · obtain hx | hx := List.mem_append.1 hx
    · obtain ⟨j, -, rfl | rfl⟩ := mem_parameters.1 hx <;> trivial
    · obtain hx | hx := List.mem_append.1 hx
      · obtain ⟨i, -, rfl⟩ := List.mem_map.1 (hparts ▸ hx)
        trivial
      · obtain ⟨p, rfl | rfl⟩ := hdefined _ hx <;> trivial
  · intro d hd callee args htype
    obtain ⟨i, hi, rfl⟩ := List.mem_map.1 hd
    exact h.callee hi htype
  · obtain hp | hp := List.mem_append.1 hp
    · obtain hp | hp := List.mem_append.1 hp
      · obtain ⟨d, hd, hp⟩ := List.mem_flatMap.1 hp
        obtain ⟨i, hi, rfl⟩ := List.mem_map.1 hd
        obtain ⟨a, ha, rfl⟩ := List.mem_map.1 hp
        exact h.shows_argument hi ha
      · obtain ⟨d, hd, hp⟩ := List.mem_flatMap.1 hp
        obtain ⟨index, -, q, hq, hd⟩ := mem_groupOutputs hd
        have hmember := (h.fed.wired .output).member _
          (Graph.association_mem_uses .output (List.mem_singleton_self n) (mem_of_lookup_eq_some hq))
        obtain ⟨hvalue, hfire⟩ := h.shows_output hmember
        obtain rfl | rfl := hd
        · obtain rfl := List.mem_singleton.1 hp
          exact hvalue
        · obtain rfl := List.mem_singleton.1 hp
          exact hfire
    · nomatch hp

theorem closed_instances (hq : 0 < s.queue) (hw : w.WiredThroughout g around)
    (hvalid : w.validateWithin fuel g = .ok ()) {parts : List Instance}
    (hparts : instances w s fuel g supply = .ok parts) :
    ∀ m ∈ Instance.modulesOfAll parts, m.Closed (Instance.modulesOfAll parts) := by
  induction fuel generalizing g around supply parts with
  | zero => nomatch hparts
  | succ fuel ih =>
    intro m hm
    obtain ⟨i, hi, hmi⟩ := Instance.mem_modulesOfAll.1 hm
    have hinside : i.modules ⊆ Instance.modulesOfAll parts := fun x hx => Instance.mem_modulesOfAll.2 ⟨i, hi, hx⟩
    obtain ⟨n, hn, hcompiled⟩ := (exists_node hparts).2 i hi
    obtain ⟨-, -, -, hleaf, hgroup⟩ := instanceOf_eq_ok hcompiled
    rw [Instance.mem_modules] at hmi
    cases hinner : n.inner? with
    | none =>
      rw [hleaf hinner] at hmi
      obtain rfl := hmi.resolve_left fun hmi => nomatch hmi
      exact Node.closed_leafModule hq (leafModule_instanceOf hcompiled hinner) _
    | some inner =>
      obtain ⟨hinstances, hmodule⟩ := hgroup inner hinner
      have hwired := hw.within hn hinner
      have hvalid' := (validateWithin_group hvalid hn hinner).2
      have hbelow : Instance.modulesOfAll i.parts ⊆ Instance.modulesOfAll parts := fun x hx =>
        hinside (Instance.mem_modules.2 (.inl hx))
      refine Module.Closed.mono hbelow ?_
      obtain hmi | rfl := hmi
      · exact ih hwired hvalid' hinstances m hmi
      · cases fuel with
        | zero => nomatch hinstances
        | succ fuel =>
          rw [hmodule]
          exact closed_groupModule (surrounds_groupModule hwired.top hvalid' hinstances)

/-! ### The main module -/

theorem surrounds_mainModule {parts : List Instance} (hfed : (w.graph g).Fed around)
    (hvalid : w.validateWithin (fuel + 1) g = .ok ())
    (hparts : instances w s (fuel + 1) g (pipeSupply (w.graph g)) = .ok parts) :
    Surrounds w s fuel g around (pipeSupply (w.graph g)) parts (w.mainModule s (w.graph g) parts) := by
  refine ⟨hfed, hvalid, hparts, fun i hi => ?_, fun e he modules => ?_⟩
  · exact List.mem_append_left _ (List.mem_append_right _ (List.mem_map_of_mem hi))
  · obtain ⟨x, hx, rfl⟩ := List.mem_map.1 he
    have hpipes : ∀ d ∈ [⟨.pipeInValue x.pipe, w.pipeType s .input x⟩, ⟨.pipeInFire x.pipe, .scalar .boolean⟩],
        d ∈ (w.mainModule s (w.graph g) parts).declarations := fun d hd =>
      List.mem_append_left _ (List.mem_append_left _ (List.mem_flatMap.2 ⟨x, hx, hd⟩))
    exact ⟨.variable (hpipes _ List.mem_cons_self), .variable (hpipes _ (List.mem_cons_of_mem _ List.mem_cons_self))⟩

theorem names_mainModule (s : Sizes) (graph : Graph) (parts : List Instance) :
    (w.mainModule s graph parts).names =
      ((graph.inputs.map External.pipe).flatMap fun p : PipeId => [.pipeInValue p, .pipeInFire p]) ++
        parts.map (fun i => .part i.id) ++
        (graph.outputs.map External.pipe).flatMap fun p : PipeId => [.pipeOutValue p, .pipeOutFire p] := by
  have hparts : (parts.map Instance.declaration).map Declaration.name = parts.map fun i => Name.part i.id := List.map_map
  simp only [Module.names, mainModule, List.nil_append, List.map_nil, List.append_nil, List.map_append, hparts,
    List.map_flatMap, List.flatMap_map, List.map_cons]

theorem mem_names_mainModule {graph : Graph} {parts : List Instance} {x : Name}
    (hx : x ∈ (w.mainModule s graph parts).names) : x.IsOrdinary := by
  rw [names_mainModule] at hx
  obtain hx | hx := List.mem_append.1 hx
  · obtain hx | hx := List.mem_append.1 hx
    · obtain ⟨p, -, hx⟩ := List.mem_flatMap.1 hx
      rcases List.mem_pair.1 hx with rfl | rfl <;> trivial
    · obtain ⟨i, -, rfl⟩ := List.mem_map.1 hx
      trivial
  · obtain ⟨p, -, hx⟩ := List.mem_flatMap.1 hx
    rcases List.mem_pair.1 hx with rfl | rfl <;> trivial

theorem nodup_outputNames {pipes : List PipeId} (hpipes : pipes.Nodup) :
    (pipes.flatMap fun p : PipeId => [Name.pipeOutValue p, .pipeOutFire p]).Nodup :=
  nodup_pairs hpipes (fun _ _ h => Int.ofNat_inj.1 (Name.pipeOutValue.inj h))
    (fun _ _ h => Int.ofNat_inj.1 (Name.pipeOutFire.inj h)) fun _ _ => Name.noConfusion

theorem nodup_names_mainModule {graph : Graph} {parts : List Instance}
    (hpipes : ∀ side, ((graph.externals side).map External.pipe).Nodup)
    (hparts : (parts.map fun i => Name.part i.id).Nodup) : (w.mainModule s graph parts).names.Nodup := by
  have hinputs : ((graph.inputs.map External.pipe).flatMap fun p : PipeId => [Name.pipeInValue p, .pipeInFire p]).Nodup :=
    nodup_pairs (hpipes .input) (fun _ _ h => Int.ofNat_inj.1 (Name.pipeInValue.inj h))
      (fun _ _ h => Int.ofNat_inj.1 (Name.pipeInFire.inj h)) fun _ _ => Name.noConfusion
  rw [names_mainModule]
  refine List.nodup_append.2 ⟨List.nodup_append.2 ⟨hinputs, hparts, ?_⟩, nodup_outputNames (hpipes .output), ?_⟩
  · rintro x hx _ hx' rfl
    obtain ⟨i, -, rfl⟩ := List.mem_map.1 hx'
    obtain ⟨p, -, hx⟩ := List.mem_flatMap.1 hx
    rcases List.mem_pair.1 hx with heq | heq <;> nomatch heq
  · rintro x hx _ hx' rfl
    obtain ⟨p, -, hx'⟩ := List.mem_flatMap.1 hx'
    obtain hx | hx := List.mem_append.1 hx
    · obtain ⟨p', -, hx⟩ := List.mem_flatMap.1 hx
      rcases List.mem_pair.1 hx with rfl | rfl <;> rcases List.mem_pair.1 hx' with heq | heq <;> nomatch heq
    · obtain ⟨i, -, rfl⟩ := List.mem_map.1 hx
      rcases List.mem_pair.1 hx' with heq | heq <;> nomatch heq

theorem closed_mainModule {parts : List Instance}
    (hpipes : ∀ side, (((w.graph g).externals side).map External.pipe).Nodup)
    (h : Surrounds w s fuel g around (pipeSupply (w.graph g)) parts (w.mainModule s (w.graph g) parts)) :
    (w.mainModule s (w.graph g) parts).Closed (Instance.modulesOfAll parts) := by
  have hordinary : ∀ a ∈ (w.mainModule s (w.graph g) parts).assigns, a.cell.name.IsOrdinary := by
    intro a ha
    obtain ⟨e, -, rfl | rfl⟩ := mem_assigns_mainModule ha <;> trivial
  refine ⟨Module.nodup_map_text (nodup_names_mainModule hpipes h.nodup_parts) fun _ => mem_names_mainModule,
    Module.nodup_map_target ?_ hordinary, fun a ha => ?_, fun d hd callee args htype => ?_, fun p hp => ?_⟩
  · have htargets : ((w.mainModule s (w.graph g) parts).assigns.map fun a => (a.timing, a.cell)).map (·.2.name) =
        ((w.graph g).outputs.map External.pipe).flatMap fun p : PipeId => [.pipeOutValue p, .pipeOutFire p] := by
      simp only [mainModule, List.map_flatMap, List.flatMap_map, List.map_cons, List.map_nil]
    exact List.Nodup.of_map _ (htargets ▸ nodup_outputNames (hpipes .output))
  · obtain ⟨e, he, ha⟩ := mem_assigns_mainModule ha
    have hmem : ∀ d ∈ [⟨.pipeOutValue e.pipe, w.pipeType s .output e⟩, ⟨.pipeOutFire e.pipe, .scalar .boolean⟩],
        d ∈ (w.mainModule s (w.graph g) parts).declarations := fun d hd =>
      List.mem_append_right _ (List.mem_flatMap.2 ⟨e, he, hd⟩)
    obtain rfl | rfl := ha
    · exact ⟨_, hmem _ List.mem_cons_self, _, List.mem_cons_self, rfl⟩
    · exact ⟨_, hmem _ (List.mem_cons_of_mem _ List.mem_cons_self), _, List.mem_cons_self, rfl⟩
  · rcases mem_declarations_mainModule hd with ⟨e, -, rfl | rfl⟩ | ⟨i, hi, rfl⟩ | ⟨e, -, rfl | rfl⟩
    · cases htype
    · cases htype
    · exact h.callee hi htype
    · cases htype
    · cases htype
  · obtain hp | hp := List.mem_append.1 hp
    · obtain hp | hp := List.mem_append.1 hp
      · obtain ⟨d, hd, hp⟩ := List.mem_flatMap.1 hp
        rcases mem_declarations_mainModule hd with ⟨e, -, rfl | rfl⟩ | ⟨i, hi, rfl⟩ | ⟨e, -, rfl | rfl⟩
        · cases hp
        · cases hp
        · obtain ⟨a, ha, rfl⟩ := List.mem_map.1 hp
          exact h.shows_argument hi ha
        · cases hp
        · cases hp
      · cases hp
    · obtain ⟨a, ha, hp⟩ := List.mem_flatMap.1 hp
      obtain ⟨e, he, ha⟩ := mem_assigns_mainModule ha
      obtain ⟨hvalue, hfire⟩ := h.shows_output ((h.fed.wired .output).member _ (Graph.external_mem_uses around .output he))
      obtain rfl | rfl := ha
      · obtain rfl := List.mem_singleton.1 hp
        exact hvalue
      · obtain rfl := List.mem_singleton.1 hp
        exact hfire

/-! ### The names of the modules -/

theorem exists_place {parts : List Instance} (hparts : instances w s fuel g supply = .ok parts) {i : Instance}
    (hi : i ∈ parts) : ∃ n ∈ (w.graph g).nodes, i.id = n.id ∧ i.module.name = moduleName n ∧ ∀ x ∈ i.modules,
      ∃ m place inner below, x.name = moduleName m ∧ w.Within g place inner ∧ m ∈ (w.graph inner).nodes ∧
        m :: place = below ++ [n] := by
  induction fuel generalizing g supply parts i with
  | zero => nomatch hparts
  | succ fuel ih =>
    obtain ⟨n, hn, hcompiled⟩ := (exists_node hparts).2 i hi
    obtain ⟨hid, -, -, hleaf, hgroup⟩ := instanceOf_eq_ok hcompiled
    have hname : i.module.name = moduleName n := by
      cases hinner : n.inner? with
      | none =>
        obtain ⟨b, -, hmodule⟩ := Node.leafModule_eq_ok.1 (leafModule_instanceOf hcompiled hinner)
        rw [← hmodule]
        rfl
      | some inner =>
        rw [(hgroup inner hinner).2]
        rfl
    refine ⟨n, hn, hid, hname, fun x hx => ?_⟩
    obtain hx | rfl := Instance.mem_modules.1 hx
    · cases hinner : n.inner? with
      | none =>
        rw [hleaf hinner] at hx
        nomatch hx
      | some inner =>
        obtain ⟨i', hi', hx⟩ := Instance.mem_modulesOfAll.1 hx
        obtain ⟨n', -, -, -, hmodules⟩ := ih (hgroup inner hinner).1 hi'
        obtain ⟨m, place, mid, below, hm, hplace, hmem, -⟩ := hmodules x hx
        exact ⟨m, place ++ [n], mid, m :: place, hm, hplace.through hn hinner, hmem, rfl⟩
    · exact ⟨n, [], g, [], hname, .top, hn, rfl⟩

theorem OccursOnce.within (h : w.OccursOnce g) (hn : n ∈ (w.graph g).nodes) {inner : GraphId}
    (hinner : n.inner? = some inner) : w.OccursOnce inner := by
  intro place place' around around' m hplace hm hplace' hm'
  have hsame := h _ _ _ _ m (hplace.through hn hinner) hm (hplace'.through hn hinner) hm'
  exact List.append_cancel_right hsame

theorem nodup_moduleNames (hids : ∀ h h' a b, a ∈ (w.graph h).nodes → b ∈ (w.graph h').nodes → a.id = b.id → a = b)
    (hw : w.WiredThroughout g around) (honce : w.OccursOnce g) {parts : List Instance}
    (hparts : instances w s fuel g supply = .ok parts) :
    ((Instance.modulesOfAll parts).map (·.name.text)).Nodup := by
  induction fuel generalizing g around supply parts with
  | zero => nomatch hparts
  | succ fuel ih =>
    have hpartIds : (parts.map Instance.id).Nodup := (exists_node hparts).1 ▸ hw.top.distinct
    have hsame : ∀ h h' a b, a ∈ (w.graph h).nodes → b ∈ (w.graph h').nodes →
        (moduleName a).text = (moduleName b).text → a = b := fun h h' a b ha hb htext =>
      hids h h' a b ha hb (ModuleName.id_eq_of_text_eq htext)
    rw [Instance.modulesOfAll_eq, List.map_flatMap]
    refine nodup_flatMap_of (List.Nodup.of_map _ hpartIds) (fun i hi => ?_) fun i hi i' hi' b hb hb' => ?_
    · obtain ⟨n, hn, hcompiled⟩ := (exists_node hparts).2 i hi
      obtain ⟨n', hn', hid', hname, -⟩ := exists_place hparts hi
      obtain ⟨hid, -, -, hleaf, hgroup⟩ := instanceOf_eq_ok hcompiled
      obtain rfl : n = n' := hids g g n n' hn hn' (hid.symm.trans hid')
      rw [Instance.modules_eq, List.map_append]
      cases hinner : n.inner? with
      | none =>
        rw [hleaf hinner]
        exact List.nodup_singleton _
      | some inner =>
        have hinstances := (hgroup inner hinner).1
        refine List.nodup_append.2 ⟨ih (hw.within hn hinner) (honce.within hn hinner) hinstances,
          List.nodup_singleton _, ?_⟩
        rintro b hb _ hb' rfl
        obtain ⟨x, hx, rfl⟩ := List.mem_map.1 hb
        obtain ⟨i', hi', hx⟩ := Instance.mem_modulesOfAll.1 hx
        obtain ⟨n', -, -, -, hmodules⟩ := exists_place hinstances hi'
        obtain ⟨m, place, mid, -, hm, hplace, hmem, -⟩ := hmodules x hx
        -- the node would stand both in the graph and inside of itself
        have htext : x.name.text = i.module.name.text := List.mem_singleton.1 hb'
        rw [hm, hname] at htext
        obtain rfl := hsame _ _ _ _ hmem hn htext
        have hplaces := honce _ _ _ _ m (hplace.through hn hinner) hmem .top hn
        exact List.append_ne_nil_of_right_ne_nil _ (List.cons_ne_nil _ _) hplaces
    · obtain ⟨x, hx, rfl⟩ := List.mem_map.1 hb
      obtain ⟨x', hx', htext⟩ := List.mem_map.1 hb'
      obtain ⟨n, hn, hid, -, hmodules⟩ := exists_place hparts hi
      obtain ⟨n', hn', hid', -, hmodules'⟩ := exists_place hparts hi'
      obtain ⟨m, place, mid, below, hm, hplace, hmem, hchain⟩ := hmodules x hx
      obtain ⟨m', place', mid', below', hm', hplace', hmem', hchain'⟩ := hmodules' x' hx'
      rw [hm, hm'] at htext
      obtain rfl := hsame _ _ _ _ hmem' hmem htext
      obtain rfl := honce _ _ _ _ _ hplace hmem hplace' hmem'
      have hlast : n = n' := (List.append_inj' (hchain.symm.trans hchain') rfl).2 |> List.singleton_inj.1
      refine List.inj_on_of_nodup_map hpartIds hi hi' ?_
      rw [hid, hid', hlast]

end Workspace

/-! ### Every session -/

namespace Session
open Workspace

/-- After any calls, a graph in which no node stands at two places compiles to a well-formed model, if it
compiles at all. -/
theorem compile_wellFormed (cs : List Call) (z : Sizes) (hqueue : 1 ≤ z.queue) (g : GraphId)
    (honce : (({} : Session).performAll cs).workspace.OccursOnce g) {m : Model}
    (hm : (({} : Session).performAll cs).workspace.compile z g = .ok m) : m.WellFormed := by
  have hsound : (({} : Session).performAll cs).Sound := sound_performAll cs
  generalize (({} : Session).performAll cs) = s at hsound honce hm
  obtain ⟨hvalid, hparts, hmain⟩ := compile_eq_ok hm
  have hw := hsound.wiredThroughout g
  refine ⟨?_, nodup_moduleNames (fun _ _ _ _ => hsound.eq_of_id_eq) hw honce hparts, fun x hx => ?_,
    List.forall_mem_cons.2 ⟨?_, ?_⟩⟩
  · rw [hmain]
    rfl
  · obtain ⟨i, hi, hx⟩ := Instance.mem_modulesOfAll.1 hx
    obtain ⟨n, -, -, -, hmodules⟩ := exists_place hparts hi
    obtain ⟨n', place, inner, below, hn, -⟩ := hmodules x hx
    rw [hn]
    exact ModuleName.text_ne_main _ _
  · rw [hmain]
    exact closed_mainModule (hsound.nodup_pipes g) (surrounds_mainModule hw.top hvalid hparts)
  · exact closed_instances hqueue hw hvalid hparts

/-- The relay and its group hold different nodes, and the relay's model is well formed. -/
theorem compile_wellFormed_of_relay :
    let w := (({} : Session).performAll relay).workspace
    (1 : Int) ≤ 2 ∧ w.OccursOnce 0 ∧ ∃ m, w.compile ⟨4, 2⟩ 0 = .ok m ∧ m.WellFormed := by
  intro w
  have hgroups : ∀ n ∈ (w.graph 0).nodes, ∀ inner ∈ n.inner?, n = ⟨1, .group 1 1 1⟩ ∧ inner = 1 := by decide +kernel
  have hleaves : ∀ n ∈ (w.graph 1).nodes, n.inner? = none := by decide +kernel
  have hapart : ∀ n ∈ (w.graph 0).nodes, n ∉ (w.graph 1).nodes := by decide +kernel
  have hplaces : ∀ place inner, w.Within 0 place inner →
      place = [] ∧ inner = 0 ∨ place = [⟨1, .group 1 1 1⟩] ∧ inner = 1 := by
    intro place inner hplace
    induction hplace with
    | top => exact .inl ⟨rfl, rfl⟩
    | inside _ hmem hinner ih =>
      obtain ⟨rfl, rfl⟩ | ⟨rfl, rfl⟩ := ih
      · obtain ⟨rfl, rfl⟩ := hgroups _ hmem _ hinner
        exact .inr ⟨rfl, rfl⟩
      · nomatch (hleaves _ hmem).symm.trans hinner
  have honce : w.OccursOnce 0 := by
    intro place place' around around' n hplace hn hplace' hn'
    obtain ⟨rfl, rfl⟩ | ⟨rfl, rfl⟩ := hplaces _ _ hplace <;>
      obtain ⟨rfl, rfl⟩ | ⟨rfl, rfl⟩ := hplaces _ _ hplace'
    · rfl
    · exact absurd hn' (hapart n hn)
    · exact absurd hn (hapart n hn')
    · rfl
  obtain ⟨m, hm⟩ := exists_eq_ok (x := w.compile ⟨4, 2⟩ 0) (by decide +kernel)
  exact ⟨by decide, honce, m, hm, compile_wellFormed relay ⟨4, 2⟩ (by decide) 0 honce hm⟩

end Session
end Network
end StreamCheck
