import StreamCheck.Proofs.Circuit.Runs
import StreamCheck.Proofs.Network.Courses

/-! Runs of compiled models: where no connection leads back, a compiled model has a run for everything that
its pipes may bring in. -/

namespace StreamCheck.Network
open Smv

namespace Workspace
variable {w : Workspace} {s : Sizes} {fuel : Nat} {g : GraphId} {supply : Supply} {around : List Node}

theorem parameters_nodup (arity : Nat) : (parameters arity).Nodup := by
  rw [parameters, List.nodup_flatMap]
  refine ⟨by simp, List.nodup_range.imp ?_⟩
  intro j j' hne x hx hx'
  rcases List.mem_pair.1 hx with rfl | rfl <;> rcases List.mem_pair.1 hx' with heq | heq
  · exact hne (Name.inValue.inj heq)
  · exact Name.noConfusion heq
  · exact Name.noConfusion heq
  · exact hne (Name.inFire.inj heq)

def Supply.IsOwn (P : Name → Prop) (supply : Supply) : Prop :=
  ∀ e ∈ supply, (e.2.1.path = [] ∧ P e.2.1.name) ∧ e.2.2.path = [] ∧ P e.2.2.name

theorem pipeSupply_isOwn (graph : Graph) :
    Supply.IsOwn (fun n => ∃ p : Int, n = .pipeInValue p ∨ n = .pipeInFire p) (pipeSupply graph) := by
  intro e he
  obtain ⟨x, -, rfl⟩ := List.mem_map.1 he
  exact ⟨⟨rfl, x.pipe, .inl rfl⟩, rfl, x.pipe, .inr rfl⟩

theorem groupSupply_isOwn (graph : Graph) :
    Supply.IsOwn (fun n => ∃ j, n = .inValue j ∨ n = .inFire j) (groupSupply graph) := by
  intro e he
  obtain ⟨x, -, rfl⟩ := List.mem_map.1 he
  exact ⟨⟨rfl, x.1, .inl rfl⟩, rfl, x.1, .inr rfl⟩

theorem exists_node {parts : List Instance} (hparts : instances w s (fuel + 1) g supply = .ok parts) :
    parts.map Instance.id = (w.graph g).nodes.map Node.id ∧
      ∀ i ∈ parts, ∃ n ∈ (w.graph g).nodes, instanceOf w s fuel (w.graph g) supply n = .ok i := by
  refine ⟨?_, fun i hi => exists_of_mem_mapM hparts hi⟩
  have hall : List.Forall₂ (fun n i => instanceOf w s fuel (w.graph g) supply n = .ok i)
      (w.graph g).nodes parts := mapM_eq_ok hparts
  clear hparts
  generalize (w.graph g).nodes = nodes at hall ⊢
  induction hall with
  | nil => rfl
  | cons hi _ ih => rw [List.map_cons, List.map_cons, ih, (instanceOf_eq_ok hi).1]

theorem exists_wire {graph : Graph} {n : Node} {args : List Ref} (h : arguments graph supply n = .ok args) {a : Ref}
    (ha : a ∈ args) : ∃ j < n.inputArity, ∃ wire, feed graph supply n j = .ok wire ∧ (a = wire.1 ∨ a = wire.2) := by
  obtain ⟨wires, hwires, hflat⟩ := bind_eq_ok_iff.1 h
  rw [← Except.ok.inj hflat] at ha
  obtain ⟨wire, hwire, ha⟩ := List.mem_flatMap.1 ha
  obtain ⟨j, hj, hfeed⟩ := exists_of_mem_mapM hwires hwire
  exact ⟨j, List.mem_range.1 hj, wire, hfeed, List.mem_pair.1 ha⟩

theorem arguments_cases {n : Node} {i : Instance} {P : Name → Prop} {rank : NodeId → Nat}
    (hfed : (w.graph g).Fed around)
    (hrank : ∀ c ∈ (w.graph g).connections, rank c.source.node.id < rank c.destination.node.id)
    (hsupply : Supply.IsOwn P supply) (hi : instanceOf w s fuel (w.graph g) supply n = .ok i)
    {a : Ref} (ha : a ∈ i.arguments) :
    (a.path = [] ∧ P a.name) ∨ ∃ k, a.path = [k] ∧ rank k < rank i.id := by
  obtain ⟨hid, hargs, -⟩ := instanceOf_eq_ok hi
  obtain ⟨j, -, wire, hfeed, hends⟩ := exists_wire hargs ha
  rcases feed_eq_ok hfeed with ⟨c, hc, rfl⟩ | hlookup
  · obtain ⟨hmem, hslot⟩ := (hfed.wired .input).incoming?_eq_some hc
    have hdestination : c.destination.node.id = i.id := (congrArg Prod.fst hslot).trans hid.symm
    have hlt := hrank c hmem
    rw [hdestination] at hlt
    right
    exact ⟨c.source.node.id, by rcases hends with rfl | rfl <;> rfl, hlt⟩
  · obtain ⟨hvalue, hfire⟩ := hsupply _ (mem_of_lookup_eq_some hlookup)
    left
    rcases hends with rfl | rfl
    · exact hvalue
    · exact hfire

section
variable {P : Name → Prop} {rank : NodeId → Nat} {parts : List Instance} (hfed : (w.graph g).Fed around)
  (hrank : ∀ c ∈ (w.graph g).connections, rank c.source.node.id < rank c.destination.node.id)
  (hsupply : Supply.IsOwn P supply) (hparts : instances w s (fuel + 1) g supply = .ok parts)
include hfed hrank hsupply hparts

theorem forward_of_instances : ∀ i ∈ parts, i.Forward rank := by
  intro i hi
  obtain ⟨n, -, hn⟩ := (exists_node hparts).2 i hi
  obtain ⟨-, -, hparams, -⟩ := instanceOf_eq_ok hn
  refine ⟨hparams ▸ parameters_nodup _, fun a ha => ?_⟩
  rcases arguments_cases hfed hrank hsupply hn ha with ⟨hpath, -⟩ | hpath
  · exact .inl hpath
  · exact .inr hpath

theorem argument_of_instances {i : Instance} (hi : i ∈ parts) {a : Ref} (ha : a ∈ i.arguments)
    (hpath : a.path = []) : P a.name := by
  obtain ⟨n, -, hn⟩ := (exists_node hparts).2 i hi
  rcases arguments_cases hfed hrank hsupply hn ha with ⟨-, hname⟩ | ⟨k, hk, -⟩
  · exact hname
  · rw [hpath] at hk
    nomatch hk

end

theorem receptive_leaf {n : Node} {graph : Graph} {i : Instance}
    (hi : instanceOf w s fuel graph supply n = .ok i) (hinner : n.inner? = none) : i.Receptive := by
  intro given
  obtain ⟨-, -, hparams, hleaf, -⟩ := instanceOf_eq_ok hi
  obtain ⟨τ, hτ, hinputs⟩ := Node.exists_run (leafModule_instanceOf hi hinner) (fun j => given (.inValue j))
    (fun j => given (.inFire j))
  refine ⟨τ, fun x hx t => ?_, hτ, ?_⟩
  · rw [hparams] at hx
    obtain ⟨j, -, hx⟩ := List.mem_flatMap.1 hx
    rcases List.mem_pair.1 hx with rfl | rfl
    · exact (hinputs j t).1
    · exact (hinputs j t).2
  · rw [hleaf hinner]
    exact Instance.allObeyed_iff.2 fun i hi => nomatch hi

def passedOn (inner : Graph) (arity : Nat) (n : Name) : Option Ref :=
  match (groupOutputs inner arity).lookup n with
  | some (.var r) => some r
  | _ => none

theorem mem_groupOutputs {inner : Graph} {arity : Nat} {d : Name × Expr} (hd : d ∈ groupOutputs inner arity) :
    ∃ index < arity, ∃ p, inner.exits.lookup index = some p ∧
      (d = (.outValue index, .var (outputWire p).1) ∨ d = (.outFire index, .var (outputWire p).2)) := by
  obtain ⟨index, hindex, hd⟩ := List.mem_flatMap.1 hd
  refine ⟨index, List.mem_range.1 hindex, ?_⟩
  cases hp : inner.exits.lookup index with
  | none =>
    rw [hp] at hd
    nomatch hd
  | some p =>
    rw [hp] at hd
    exact ⟨p, rfl, List.mem_pair.1 hd⟩

theorem passedOn_eq_some {inner : Graph} {arity : Nat} {n : Name} {r : Ref}
    (h : passedOn inner arity n = some r) :
    ∃ index p, (n = .outValue index ∧ r = (outputWire p).1) ∨
      (n = .outFire index ∧ r = (outputWire p).2) := by
  unfold passedOn at h
  cases hn : (groupOutputs inner arity).lookup n with
  | none => rw [hn] at h; nomatch h
  | some e =>
    obtain ⟨index, -, p, -, hd⟩ := mem_groupOutputs (mem_of_lookup_eq_some hn)
    rcases hd with hd | hd
    · obtain ⟨rfl, rfl⟩ := Prod.mk.inj hd
      rw [hn] at h
      exact ⟨index, p, .inl ⟨rfl, (Option.some.inj h).symm⟩⟩
    · obtain ⟨rfl, rfl⟩ := Prod.mk.inj hd
      rw [hn] at h
      exact ⟨index, p, .inr ⟨rfl, (Option.some.inj h).symm⟩⟩

theorem exists_passedOn {inner : Graph} {arity : Nat} {d : Name × Expr}
    (hd : d ∈ groupOutputs inner arity) : ∃ r, d.2 = .var r ∧ passedOn inner arity d.1 = some r := by
  obtain ⟨index, hindex, p, hp, hd⟩ := mem_groupOutputs hd
  have hlookup := lookup_groupOutputs inner.exits (List.mem_range.2 hindex) hp
  have hvalue : (groupOutputs inner arity).lookup (.outValue index) = _ := hlookup.1
  have hfire : (groupOutputs inner arity).lookup (.outFire index) = _ := hlookup.2
  rcases hd with rfl | rfl
  · exact ⟨_, rfl, by rw [passedOn, hvalue]⟩
  · exact ⟨_, rfl, by rw [passedOn, hfire]⟩

theorem cells_declaration (i : Instance) : i.declaration.cells = [] := by
  cases i
  rfl

theorem passedOn_input {inner : Graph} {arity : Nat} {n : Name}
    (h : ∃ j, n = .inValue j ∨ n = .inFire j) : passedOn inner arity n = none := by
  rw [Option.eq_none_iff_forall_ne_some]
  intro r hr
  obtain ⟨index, p, ⟨rfl, -⟩ | ⟨rfl, -⟩⟩ := passedOn_eq_some hr
  · obtain ⟨j, hj | hj⟩ := h <;> nomatch hj
  · obtain ⟨j, hj | hj⟩ := h <;> nomatch hj

theorem receptive_group {n : Node} {graph : Graph} {i : Instance} {inner : GraphId}
    (hi : instanceOf w s (fuel + 1) graph supply n = .ok i) (hinner : n.inner? = some inner)
    (hw : w.Orderly inner [n]) (hparts : ∀ i' ∈ i.parts, i'.Receptive) : i.Receptive := by
  obtain ⟨-, -, hparams, -, hgroup⟩ := instanceOf_eq_ok hi
  obtain ⟨hinside, hmodule⟩ := hgroup inner hinner
  obtain ⟨hids, -⟩ := exists_node hinside
  cases hw with
  | intro fed rank forward inside =>
    have hforward := forward_of_instances fed forward (groupSupply_isOwn _) hinside
    have hargs : ∀ i' ∈ i.parts, ∀ a ∈ i'.arguments, a.path = [] →
        passedOn (w.graph inner) n.outputArity a.name = none := by
      intro i' hi' a ha hpath
      exact passedOn_input (argument_of_instances fed forward (groupSupply_isOwn _) hinside hi' ha hpath)
    have hpath : ∀ x r, passedOn (w.graph inner) n.outputArity x = some r → r.path ≠ [] := by
      intro x r hr
      obtain ⟨index, p, ⟨-, rfl⟩ | ⟨-, rfl⟩⟩ := passedOn_eq_some hr <;> exact List.cons_ne_nil _ _
    intro given
    obtain ⟨σ, hσ, hpassed, hgiven⟩ := Instance.exists_passing (hids ▸ fed.distinct) hparts hforward
      (fun t p => given p.ref.name t) hargs hpath
    refine ⟨σ, fun x hx t => ?_, ⟨fun d hd t => ?_, ?_, ?_⟩, hσ⟩
    · rw [hparams] at hx
      obtain ⟨j, -, hx⟩ := List.mem_flatMap.1 hx
      exact hgiven x (passedOn_input ⟨j, List.mem_pair.1 hx⟩) t
    · rw [hmodule] at hd
      obtain ⟨r, hvar, hr⟩ := exists_passedOn hd
      rw [hvar]
      exact hpassed d.1 r hr t
    · rw [hmodule]
      exact fun a ha => nomatch ha
    · -- all that a group declares are instances, which are no cells
      rw [hmodule]
      intro d hd x hx
      obtain ⟨i', -, rfl⟩ := List.mem_map.1 hd
      rw [cells_declaration] at hx
      nomatch hx

theorem receptive_of_instances {parts : List Instance} (hw : w.Orderly g around)
    (hparts : instances w s fuel g supply = .ok parts) : ∀ i ∈ parts, i.Receptive := by
  induction fuel generalizing g around supply parts with
  | zero => nomatch hparts
  | succ fuel ih =>
    cases hw with
    | intro fed rank forward inside =>
      intro i hi
      obtain ⟨n, hn, hcompiled⟩ := (exists_node hparts).2 i hi
      cases hinner : n.inner? with
      | none => exact receptive_leaf hcompiled hinner
      | some inner =>
        have hworks := inside n hn inner hinner
        have hinside := ((instanceOf_eq_ok hcompiled).2.2.2.2 inner hinner).1
        cases fuel with
        | zero => nomatch hinside
        | succ fuel => exact receptive_group hcompiled hinner hworks (ih hworks hinside)

def pipeValues (outside : PipeId → Stream) : Trace := fun t p =>
  match p.ref.name with
  | .pipeInValue n => (outside n.toNat t).1
  | .pipeInFire n => (outside n.toNat t).2
  | _ => default

def Admits (w : Workspace) (s : Sizes) (g : GraphId) (outside : PipeId → Stream) : Prop :=
  ∀ e ∈ (w.graph g).inputs, ∀ t, ((outside e.pipe).value t).Fits (s.scalar (w.typeOf .input e.port)) ∧
    (outside e.pipe t).2.Fits .boolean

theorem mem_assigns_mainModule {graph : Graph} {parts : List Instance} {a : Assign}
    (ha : a ∈ (w.mainModule s graph parts).assigns) : ∃ e ∈ graph.outputs,
      a = ⟨.always, ⟨.pipeOutValue e.pipe, none⟩, .value (.var (outputWire e.port).1)⟩ ∨
        a = ⟨.always, ⟨.pipeOutFire e.pipe, none⟩, .value (.var (outputWire e.port).2)⟩ := by
  obtain ⟨e, he, ha⟩ := List.mem_flatMap.1 ha
  exact ⟨e, he, List.mem_pair.1 ha⟩

theorem mem_declarations_mainModule {graph : Graph} {parts : List Instance} {d : Declaration}
    (hd : d ∈ (w.mainModule s graph parts).declarations) :
    (∃ e ∈ graph.inputs, d = ⟨.pipeInValue e.pipe, w.pipeType s .input e⟩ ∨
        d = ⟨.pipeInFire e.pipe, .scalar .boolean⟩) ∨
      (∃ i ∈ parts, d = i.declaration) ∨
      ∃ e ∈ graph.outputs, d = ⟨.pipeOutValue e.pipe, w.pipeType s .output e⟩ ∨
        d = ⟨.pipeOutFire e.pipe, .scalar .boolean⟩ := by
  rw [mainModule] at hd
  rcases List.mem_append.1 hd with hd | hd
  · rcases List.mem_append.1 hd with hd | hd
    · obtain ⟨e, he, hd⟩ := List.mem_flatMap.1 hd
      exact .inl ⟨e, he, List.mem_pair.1 hd⟩
    · obtain ⟨i, hi, rfl⟩ := List.mem_map.1 hd
      exact .inr (.inl ⟨i, hi, rfl⟩)
  · obtain ⟨e, he, hd⟩ := List.mem_flatMap.1 hd
    exact .inr (.inr ⟨e, he, List.mem_pair.1 hd⟩)

theorem path_of_assigned? {m : Model} {graph : Graph} (hmain : m.main = w.mainModule s graph m.parts)
    {x : Name} {r : Ref} (h : m.assigned? x = some r) : r.path ≠ [] := by
  obtain ⟨a, ha, heq⟩ := List.exists_of_findSome?_eq_some h
  rw [hmain] at ha
  obtain ⟨e, -, rfl | rfl⟩ := mem_assigns_mainModule ha
  all_goals
    simp only [Option.ite_none_right_eq_some, Option.some.injEq] at heq
    rw [← heq.2]
    exact List.cons_ne_nil _ _

theorem mainModule_obeyed {m : Model} {σ : Trace} (hmain : m.main = w.mainModule s (w.graph g) m.parts)
    (hpipes : ((w.graph g).outputs.map External.pipe).Nodup)
    (hpassed : ∀ x r, m.assigned? x = some r → ∀ t, σ t ⟨.own x, none⟩ = σ t ⟨r, none⟩)
    {outside : PipeId → Stream} (houtside : w.Admits s g outside)
    (hinput : ∀ p, Wire.stream (.own (.pipeInValue (p : PipeId)), .own (.pipeInFire p)) σ = outside p) :
    m.main.Obeyed σ := by
  refine ⟨?_, ?_, ?_⟩
  · rw [hmain]
    exact fun d hd => nomatch hd
  · rw [hmain]
    intro a ha
    obtain ⟨e, he, rfl | rfl⟩ := mem_assigns_mainModule ha
    · exact hpassed _ _ (assigned?_output hmain hpipes he).1
    · exact hpassed _ _ (assigned?_output hmain hpipes he).2
  · intro d hd x hx t hfree
    rw [hmain] at hd
    rcases mem_declarations_mainModule hd with ⟨e, he, hd⟩ | ⟨i, -, rfl⟩ | ⟨e, he, hd⟩
    · have hstream := congrFun (hinput e.pipe) t
      obtain ⟨hvalue, hfire⟩ := houtside e he t
      rcases hd with rfl | rfl
      · obtain rfl := List.mem_singleton.1 hx
        have heq : σ t ⟨.own (.pipeInValue e.pipe), none⟩ = (outside e.pipe).value t :=
          congrArg Prod.fst hstream
        rw [← heq] at hvalue
        exact hvalue
      · obtain rfl := List.mem_singleton.1 hx
        have heq : σ t ⟨.own (.pipeInFire e.pipe), none⟩ = (outside e.pipe t).2 :=
          congrArg Prod.snd hstream
        rw [← heq] at hfire
        exact hfire
    · rw [cells_declaration] at hx
      nomatch hx
    · -- what leaves is assigned in every state
      have hmem (a : Assign) (ha : a ∈ (w.mainModule s (w.graph g) m.parts).assigns)
          (htiming : a.timing = .always) (hcell : a.cell = x.1) : False :=
        hfree ⟨a, hmain ▸ ha, hcell, .inl htiming⟩
      rcases hd with rfl | rfl
      · obtain rfl := List.mem_singleton.1 hx
        exact (hmem _ (List.mem_flatMap.2 ⟨e, he, List.mem_cons_self⟩) rfl rfl).elim
      · obtain rfl := List.mem_singleton.1 hx
        exact (hmem _ (List.mem_flatMap.2 ⟨e, he, List.mem_cons_of_mem _ List.mem_cons_self⟩)
          rfl rfl).elim

theorem exists_isRun {m : Model} (hw : w.Orderly g [])
    (hpipes : ((w.graph g).outputs.map External.pipe).Nodup) (hm : w.compile s g = .ok m)
    {outside : PipeId → Stream} (houtside : w.Admits s g outside) :
    ∃ σ, m.IsRun σ ∧ ∀ e ∈ (w.graph g).inputs,
      Wire.stream (.own (.pipeInValue e.pipe), .own (.pipeInFire e.pipe)) σ = outside e.pipe := by
  obtain ⟨-, hparts, hmain⟩ := compile_eq_ok hm
  have hreceptive := receptive_of_instances hw hparts
  rw [depth] at hparts
  obtain ⟨hids, -⟩ := exists_node hparts
  have hincoming (n : Name) (hn : ∃ p, n = .pipeInValue p ∨ n = .pipeInFire p) :
      m.assigned? n = none := by
    obtain ⟨p, rfl | rfl⟩ := hn <;>
      exact assigned?_eq_none hmain (fun _ => Name.noConfusion) fun _ => Name.noConfusion
  cases hw with
  | intro fed rank forward inside =>
    have hforward := forward_of_instances fed forward (pipeSupply_isOwn _) hparts
    have hargs : ∀ i ∈ m.parts, ∀ a ∈ i.arguments, a.path = [] → m.assigned? a.name = none := by
      intro i hi a ha hpath
      exact hincoming a.name (argument_of_instances fed forward (pipeSupply_isOwn _) hparts hi ha hpath)
    obtain ⟨σ, hσ, hpassed, hgiven⟩ := Instance.exists_passing (hids ▸ fed.distinct) hreceptive hforward
      (pipeValues outside) hargs fun x r hr => path_of_assigned? hmain hr
    have hinput (p : PipeId) :
        Wire.stream (.own (.pipeInValue p), .own (.pipeInFire p)) σ = outside p := by
      funext t
      have hvalue := hgiven (.pipeInValue p) (hincoming _ ⟨p, .inl rfl⟩) t
      have hfire := hgiven (.pipeInFire p) (hincoming _ ⟨p, .inr rfl⟩) t
      exact Prod.ext hvalue hfire
    exact ⟨σ, ⟨mainModule_obeyed hmain hpipes hpassed houtside hinput, hσ⟩, fun e _ => hinput e.pipe⟩

end Workspace
end StreamCheck.Network
