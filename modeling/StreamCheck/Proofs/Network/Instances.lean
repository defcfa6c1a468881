import StreamCheck.Network.Route
import StreamCheck.Proofs.Basic
import StreamCheck.Proofs.Smv.Resolution

/-! The instances that a graph is compiled to: one for each node, given the wires that feed the node's
inputs in their order, and the module of a group passes on the outputs of the instances inside. -/

namespace StreamCheck.Network
open Smv

theorem exists_find?_of_forall₂ {R : Node → Instance → Prop} {ns : List Node} {is : List Instance}
    (h : List.Forall₂ R ns is) (hid : ∀ n i, R n i → i.id = n.id) (hnodup : (ns.map Node.id).Nodup)
    {n : Node} (hn : n ∈ ns) : ∃ i, is.find? (·.id == n.id) = some i ∧ R n i := by
  induction h with
  | nil => nomatch hn
  | @cons m i ns is hmi htail ih =>
    rw [List.map_cons, List.nodup_cons] at hnodup
    obtain rfl | hn := List.mem_cons.1 hn
    · exact ⟨i, by rw [List.find?_cons_of_pos]; simpa using hid _ _ hmi, hmi⟩
    · obtain ⟨i', hi', hR⟩ := ih hnodup.2 hn
      refine ⟨i', ?_, hR⟩
      rw [List.find?_cons_of_neg, hi']
      rw [hid _ _ hmi, beq_iff_eq]
      exact fun heq => hnodup.1 (heq ▸ List.mem_map_of_mem hn)

namespace Workspace
variable {w : Workspace} {s : Sizes} {fuel : Nat} {g : GraphId} {supply : Supply} {n : Node}

def instanceOf (w : Workspace) (s : Sizes) (fuel : Nat) (graph : Graph) (supply : Supply) (n : Node) :
    Except Fault Instance := do
  match n.inner? with
  | none =>
    let c ← Circuit.ofKind s n.kind
    return .mk n.id (← arguments graph supply n) (circuitModule n c) []
  | some inner =>
    let parts ← instances w s fuel inner (groupSupply (w.graph inner))
    return .mk n.id (← arguments graph supply n) (groupModule n (w.graph inner) parts) parts

theorem instanceOf_eq_ok {graph : Graph} {i : Instance}
    (h : instanceOf w s fuel graph supply n = .ok i) :
    i.id = n.id ∧ arguments graph supply n = .ok i.arguments ∧
      i.module.parameters = parameters n.inputArity ∧
      (n.inner? = none → i.parts = []) ∧
      ∀ inner, n.inner? = some inner →
        instances w s fuel inner (groupSupply (w.graph inner)) = .ok i.parts ∧
          i.module = groupModule n (w.graph inner) i.parts := by
  unfold instanceOf at h
  cases hinner : n.inner? with
  | none =>
    simp only [hinner] at h
    obtain ⟨c, -, h⟩ := bind_eq_ok_iff.1 h
    obtain ⟨args, hargs, h⟩ := bind_eq_ok_iff.1 h
    obtain rfl := Except.ok.inj h
    exact ⟨rfl, hargs, rfl, fun _ => rfl, fun inner hsome => nomatch hsome⟩
  | some inner =>
    simp only [hinner] at h
    obtain ⟨parts, hparts, h⟩ := bind_eq_ok_iff.1 h
    obtain ⟨args, hargs, h⟩ := bind_eq_ok_iff.1 h
    obtain rfl := Except.ok.inj h
    refine ⟨rfl, hargs, rfl, (fun hnone => nomatch hnone), fun inner' hinner' => ?_⟩
    obtain rfl := Option.some.inj hinner'
    exact ⟨hparts, rfl⟩

/-! ### Arguments -/

theorem lookup_arguments {F : Nat → Except Fault Wire} {js : List Nat} {wires : List Wire}
    (h : List.Forall₂ (fun j wire => F j = .ok wire) js wires) {j : Nat} (hj : j ∈ js) :
    ∃ wire, F j = .ok wire ∧
      ((js.flatMap fun j => [Name.inValue j, .inFire j]).zip
        (wires.flatMap fun (value, fire) => [value, fire])).lookup (.inValue j) = some wire.1 ∧
      ((js.flatMap fun j => [Name.inValue j, .inFire j]).zip
        (wires.flatMap fun (value, fire) => [value, fire])).lookup (.inFire j) = some wire.2 := by
  induction h with
  | nil => nomatch hj
  | @cons k wire js wires hk htail ih =>
    simp only [List.flatMap_cons, List.cons_append, List.nil_append, List.zip_cons_cons]
    -- the values and the firings of the inputs take turns among the parameters
    by_cases hkj : j = k
    · subst hkj
      refine ⟨wire, hk, List.lookup_cons_self, ?_⟩
      rw [lookup_cons_eq_ite, if_neg (by simp), List.lookup_cons_self]
    · obtain ⟨wire', hwire', hvalue, hfire⟩ := ih ((List.mem_cons.1 hj).resolve_left hkj)
      refine ⟨wire', hwire', ?_, ?_⟩
      · rwa [lookup_cons_eq_ite, if_neg (by simpa using hkj), lookup_cons_eq_ite, if_neg (by simp)]
      · rwa [lookup_cons_eq_ite, if_neg (by simp), lookup_cons_eq_ite, if_neg (by simpa using hkj)]

theorem feed_eq_ok {graph : Graph} {j : Nat} {wire : Wire} (h : feed graph supply n j = .ok wire) :
    (∃ c, graph.incoming? n j = some c ∧ outputWire c.source = wire) ∨
      supply.lookup (n.id, j) = some wire := by
  unfold feed at h
  cases hc : graph.incoming? n j with
  | some c =>
    simp only [hc] at h
    exact .inl ⟨c, rfl, Except.ok.inj h⟩
  | none =>
    simp only [hc] at h
    cases hwire : supply.lookup (n.id, j) with
    | some wire' =>
      simp only [hwire] at h
      exact .inr (congrArg some (Except.ok.inj h))
    | none =>
      simp only [hwire] at h
      nomatch h

theorem argument?_input {graph : Graph} {i : Instance} (h : instanceOf w s fuel graph supply n = .ok i)
    {j : Nat} (hj : j < n.inputArity) :
    ∃ wire, feed graph supply n j = .ok wire ∧ i.argument? (.inValue j) = some wire.1 ∧
      i.argument? (.inFire j) = some wire.2 := by
  obtain ⟨-, hargs, hparams, -⟩ := instanceOf_eq_ok h
  obtain ⟨wires, hwires, hargs⟩ := bind_eq_ok_iff.1 hargs
  rw [Instance.argument?, Instance.argument?, hparams, ← Except.ok.inj hargs]
  exact lookup_arguments (mapM_eq_ok hwires) (List.mem_range.2 hj)

theorem argument?_output {graph : Graph} {i : Instance} (h : instanceOf w s fuel graph supply n = .ok i)
    (p : Nat) : i.argument? (.outValue p) = none ∧ i.argument? (.outFire p) = none := by
  obtain ⟨-, -, hparams, -⟩ := instanceOf_eq_ok h
  have hnames : ∀ x ∈ i.module.parameters, ∃ j, x = .inValue j ∨ x = .inFire j := by
    rw [hparams, parameters]
    intro x hx
    obtain ⟨j, -, hx⟩ := List.mem_flatMap.1 hx
    exact ⟨j, by simpa using hx⟩
  constructor
  · refine List.lookup_eq_none_iff.2 fun e he => ?_
    obtain ⟨j, hx | hx⟩ := hnames e.1 (List.of_mem_zip he).1 <;> rw [hx] <;> rfl
  · refine List.lookup_eq_none_iff.2 fun e he => ?_
    obtain ⟨j, hx | hx⟩ := hnames e.1 (List.of_mem_zip he).1 <;> rw [hx] <;> rfl

/-! ### Outputs of groups -/

theorem lookup_groupOutputs (exits : List (Nat × Port)) {indices : List Nat} {index : Nat} {p : Port}
    (hindex : index ∈ indices) (hp : exits.lookup index = some p) :
    let outputs := indices.flatMap fun index =>
      match exits.lookup index with
      | none => []
      | some p => [(Name.outValue index, Expr.var (outputWire p).1), (.outFire index, .var (outputWire p).2)]
    outputs.lookup (.outValue index) = some (.var (outputWire p).1) ∧
      outputs.lookup (.outFire index) = some (.var (outputWire p).2) := by
  induction indices with
  | nil => nomatch hindex
  | cons k indices ih =>
    simp only [List.flatMap_cons]
    by_cases hk : index = k
    · subst hk
      rw [hp]
      refine ⟨List.lookup_cons_self, ?_⟩
      rw [List.cons_append, lookup_cons_eq_ite, if_neg (by simp)]
      exact List.lookup_cons_self
    · obtain ⟨hvalue, hfire⟩ := ih ((List.mem_cons.1 hindex).resolve_left hk)
      cases exits.lookup k with
      | none => exact ⟨hvalue, hfire⟩
      | some q =>
        simp only [List.cons_append, List.nil_append]
        constructor
        · rwa [lookup_cons_eq_ite, if_neg (by simpa using hk), lookup_cons_eq_ite, if_neg (by simp)]
        · rwa [lookup_cons_eq_ite, if_neg (by simp), lookup_cons_eq_ite, if_neg (by simpa using hk)]

theorem passed?_output {graph : Graph} {i : Instance} (h : instanceOf w s fuel graph supply n = .ok i)
    {inner : GraphId} (hinner : n.inner? = some inner) (hparts : i.parts ≠ []) {index : Nat} {p : Port}
    (hindex : index < n.outputArity) (hp : (w.graph inner).exits.lookup index = some p) :
    i.passed? (.outValue index) = some (outputWire p).1 ∧
      i.passed? (.outFire index) = some (outputWire p).2 := by
  obtain ⟨-, -, -, -, hgroup⟩ := instanceOf_eq_ok h
  obtain ⟨-, hmodule⟩ := hgroup inner hinner
  have hdefines : i.module.defines = groupOutputs (w.graph inner) n.outputArity := by
    rw [hmodule]
    rfl
  obtain ⟨hvalue, hfire⟩ := lookup_groupOutputs (w.graph inner).exits (List.mem_range.2 hindex) hp
  rw [groupOutputs] at hdefines
  exact ⟨Instance.passed?_of_lookup hparts (hdefines ▸ hvalue),
    Instance.passed?_of_lookup hparts (hdefines ▸ hfire)⟩

theorem passed?_leaf {graph : Graph} {i : Instance} (h : instanceOf w s fuel graph supply n = .ok i)
    (hinner : n.inner? = none) (x : Name) : i.passed? x = none := by
  obtain ⟨-, -, -, hleaf, -⟩ := instanceOf_eq_ok h
  rw [Instance.passed?, hleaf hinner]
  rfl

/-! ### The main module -/

theorem compile_eq_ok {m : Model} (h : w.compile s g = .ok m) :
    w.validate g = .ok () ∧ w.instances s w.depth g (pipeSupply (w.graph g)) = .ok m.parts ∧
      m.main = w.mainModule s (w.graph g) m.parts := by
  obtain ⟨_, hvalid, h⟩ := bind_eq_ok_iff.1 h
  obtain ⟨parts, hparts, h⟩ := bind_eq_ok_iff.1 h
  obtain rfl := Except.ok.inj h
  exact ⟨hvalid, hparts, rfl⟩

theorem arguments?_main {m : Model} {graph : Graph} (h : m.main = w.mainModule s graph m.parts)
    {k : Nat} {i : Instance} (hi : m.parts.find? (·.id == k) = some i) :
    m.main.arguments? k = some i.arguments := by
  rw [Module.arguments?, h, mainModule, List.append_assoc, List.findSome?_append,
    List.findSome?_append, findSome?_declaration hi, Option.some_or]
  have hpipes : (graph.inputs.flatMap fun e => [Declaration.mk (.pipeInValue e.pipe)
      (w.pipeType s .input e), ⟨.pipeInFire e.pipe, .scalar .boolean⟩]).findSome?
        (·.arguments? k) = none := by
    refine List.findSome?_eq_none_iff.2 fun d hd => ?_
    obtain ⟨e, -, hd⟩ := List.mem_flatMap.1 hd
    obtain rfl | rfl : d = _ ∨ d = _ := by simpa using hd
    · rfl
    · rfl
  rw [hpipes, Option.none_or]

theorem assigned?_output {m : Model} {graph : Graph} (h : m.main = w.mainModule s graph m.parts)
    (hnodup : (graph.outputs.map External.pipe).Nodup) {e : External} (he : e ∈ graph.outputs) :
    m.assigned? (.pipeOutValue e.pipe) = some (outputWire e.port).1 ∧
      m.assigned? (.pipeOutFire e.pipe) = some (outputWire e.port).2 := by
  rw [Model.assigned?, Model.assigned?, h, mainModule]
  generalize graph.outputs = outputs at hnodup he
  induction outputs with
  | nil => nomatch he
  | cons e' outputs ih =>
    rw [List.map_cons, List.nodup_cons] at hnodup
    simp only [List.flatMap_cons, List.cons_append, List.nil_append, List.findSome?_cons]
    obtain rfl | he := List.mem_cons.1 he
    · simp
    · have hpipe : (e'.pipe : Int) ≠ e.pipe := fun heq =>
        hnodup.1 (Int.ofNat_inj.1 heq ▸ List.mem_map_of_mem he)
      simpa [hpipe] using ih hnodup.2 he

theorem assigned?_eq_none {m : Model} {graph : Graph} (h : m.main = w.mainModule s graph m.parts)
    {x : Name} (hvalue : ∀ p, x ≠ .pipeOutValue p) (hfire : ∀ p, x ≠ .pipeOutFire p) :
    m.assigned? x = none := by
  rw [Model.assigned?, h, mainModule, List.findSome?_eq_none_iff]
  intro a ha
  obtain ⟨e, -, ha⟩ := List.mem_flatMap.1 ha
  obtain rfl | rfl : a = _ ∨ a = _ := by simpa using ha
  · simpa using (hvalue e.pipe).symm
  · simpa using (hfire e.pipe).symm

/-! ### Validity -/

theorem checkAssociated_eq_ok {inner : Graph} {side : Side} (h : checkAssociated inner n side = .ok ())
    {i : Nat} (hi : i < n.arity side) : ∃ p, (inner.associations side).lookup i = some p := by
  have hi' := forM_eq_ok_iff.1 h i (List.mem_range.2 hi)
  rw [← Option.isSome_iff_exists]
  by_contra hnone
  rw [if_neg hnone] at hi'
  nomatch hi'

theorem validateWithin_group (h : w.validateWithin (fuel + 1) g = .ok ()) (hn : n ∈ (w.graph g).nodes)
    {inner : GraphId} (hinner : n.inner? = some inner) :
    (∀ index, index < n.outputArity → ∃ p, (w.graph inner).exits.lookup index = some p) ∧
      w.validateWithin fuel inner = .ok () := by
  have hnode := forM_eq_ok_iff.1 h n hn
  obtain ⟨_, -, hnode⟩ := bind_eq_ok_iff.1 hnode
  simp only [hinner] at hnode
  obtain ⟨_, -, hnode⟩ := bind_eq_ok_iff.1 hnode
  obtain ⟨_, houtputs, hnode⟩ := bind_eq_ok_iff.1 hnode
  exact ⟨fun index hindex => checkAssociated_eq_ok houtputs hindex, hnode⟩

end Workspace
end StreamCheck.Network
