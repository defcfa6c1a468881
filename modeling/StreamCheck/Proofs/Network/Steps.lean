import StreamCheck.Network.Build
import StreamCheck.Proofs.Network.Workspace

/-! The steps of building: what each leaves behind when it succeeds, and that one which fails has changed
no graph. Only a failing `add` keeps some nodes, and only a failing `expose` uses up a pipe. -/

namespace StreamCheck.Network

def Port.slot (p : Port) : Slot := (p.node.id, p.index)

theorem Port.ext_of_node_of_index {p q : Port} (hnode : p.node = q.node)
    (hindex : (p.index : Int) = q.index) : p = q := by
  obtain ⟨n, i⟩ := p
  obtain ⟨m, j⟩ := q
  simp only at hnode hindex
  rw [hnode, Int.ofNat_inj.1 hindex]

def Connection.endpoint (c : Connection) : Side → Port
  | .input => c.destination
  | .output => c.source

namespace Graph

def externals (g : Graph) : Side → List External
  | .input => g.inputs
  | .output => g.outputs

def wire (g : Graph) (c : Connection) : Graph :=
  let bound := (g.bind .output c.source.slot (.connection c)).bind .input c.destination.slot
    (.connection c)
  { bound with connections := bound.connections ++ [c] }

def publish (g : Graph) (side : Side) (e : External) : Graph :=
  (g.bind side e.port.slot (.external e)).expose side e

def attach (g : Graph) (group : Node) (side : Side) (index : Nat) (p : Port) : Graph :=
  (g.bind side p.slot (.association group)).associate side index p

def extend (g : Graph) (ns : List Node) : Graph := { g with nodes := g.nodes ++ ns }

def blank {domain queue : Nat} (hd : 0 < domain) (hq : 0 < queue) : Graph :=
  { domain := domain, queue := queue, domain_pos := hd, queue_pos := hq }

theorem extend_nil (g : Graph) : g.extend [] = g := by
  simp [extend]

theorem extend_extend (g : Graph) (ns ms : List Node) :
    (g.extend ns).extend ms = g.extend (ns ++ ms) := by
  simp [extend]

structure Extensible (g : Graph) (ns : List Node) : Prop where
  nodup : (ns.map Node.id).Nodup
  fresh : ∀ n ∈ ns, g.contains n = false

theorem Extensible.nil (g : Graph) : g.Extensible [] := ⟨by simp, by simp⟩

theorem Extensible.cons {g : Graph} {n : Node} {ns : List Node} (h : (g.extend [n]).Extensible ns)
    (hn : g.contains n = false) : g.Extensible (n :: ns) := by
  have hfresh := h.fresh
  simp only [contains, extend, List.any_append, Bool.or_eq_false_iff, List.any_cons, List.any_nil,
    Bool.or_false, beq_eq_false_iff_ne] at hfresh
  constructor
  · rw [List.map_cons, List.nodup_cons, List.mem_map]
    refine ⟨?_, h.nodup⟩
    rintro ⟨m, hm, hid⟩
    exact (hfresh m hm).2 hid.symm
  · rw [List.forall_mem_cons]
    exact ⟨hn, fun m hm => (hfresh m hm).1⟩

theorem contains_iff {g : Graph} {n : Node} : g.contains n = true ↔ n.id ∈ g.nodes.map Node.id := by
  rw [contains, List.any_eq_true, List.mem_map]
  simp only [beq_iff_eq]

end Graph

namespace Workspace

theorem modify_extend_nil (w : Workspace) (g : GraphId) : w.modify g (·.extend []) = w := by
  have hid : (fun graph : Graph => graph.extend []) = id := funext Graph.extend_nil
  rw [hid, modify, List.modify_id]

theorem port?_eq_ok_iff {n : Node} {side : Side} {port : Int} {p : Port} :
    port? n side port = .ok p ↔ p.node = n ∧ (p.index : Int) = port ∧ p.index < n.arity side := by
  unfold port?
  constructor
  · intro h
    split at h
    · obtain rfl := Except.ok.inj h
      refine ⟨rfl, ?_⟩
      simp only
      omega
    · nomatch h
  · rintro ⟨rfl, rfl, hlt⟩
    rw [if_pos (by omega), Int.toNat_natCast]

/-- A port of a member of an unfrozen graph that nothing is bound to. -/
structure Bindable (w : Workspace) (g : GraphId) (side : Side) (p : Port) : Prop where
  unfrozen : (w.graph g).frozen = false
  member : (w.graph g).contains p.node = true
  index_lt : p.index < p.node.arity side
  free : (w.graph g).isBound side p.slot = false

theorem Bindable.bind_output {w : Workspace} {g : GraphId} {p : Port} (h : Bindable w g .input p)
    (slot : Slot) (b : Binding) : Bindable (w.modify g (·.bind .output slot b)) g .input p := by
  have hgraph := graph_modify (lt_of_contains h.member) (·.bind .output slot b)
  refine ⟨?_, ?_, h.index_lt, ?_⟩
  · rw [hgraph]
    exact h.unfrozen
  · rw [hgraph]
    exact h.member
  · rw [hgraph]
    exact h.free

end Workspace

namespace Build
open Workspace
variable {w : Workspace} {g : GraphId}

@[simp] theorem throw_run {α : Type} (e : Fault) : (throw e : Build α).run w = .error e w := rfl

@[simp] theorem map_run {α β : Type} (f : α → β) (x : Build α) :
    (f <$> x).run w =
      match x.run w with
      | .ok a w' => .ok (f a) w'
      | .error e w' => .error e w' := by
  rw [← bind_pure_comp, EStateM.run_bind]
  cases x.run w <;> rfl

@[simp] theorem discard_run {α : Type} (x : Build α) :
    (discard x).run w =
      match x.run w with
      | .ok _ w' => .ok ⟨⟩ w'
      | .error e w' => .error e w' := by
  rw [Functor.discard, map_const]
  exact map_run (Function.const α PUnit.unit) x

@[simp] theorem ask_run {α : Type} (question : Workspace → Except Fault α) :
    (ask question).run w =
      match question w with
      | .ok a => .ok a w
      | .error e => .error e w := by
  rw [ask, EStateM.run_bind, EStateM.run_get]
  cases h : question w <;> simp [h]

@[simp] theorem graph_run : (graph g).run w = .ok (w.graph g) w := rfl

@[simp] theorem update_run (f : Graph → Graph) : (update g f).run w = .ok ⟨⟩ (w.modify g f) := rfl

@[simp] theorem pipe_run : pipe.run w = .ok w.nextPipe { w with nextPipe := w.nextPipe + 1 } := rfl

@[simp] theorem portType_run (n : Node) (side : Side) (port : Int) :
    (portType n side port).run w =
      match port? n side port with
      | .ok p => .ok (w.typeOf side p) w
      | .error e => .error e w := by
  rw [portType, ask_run, type?]
  cases port? n side port <;> rfl

@[simp] theorem ensureMutable_run :
    (ensureMutable g).run w = if (w.graph g).frozen then .error .frozen w else .ok ⟨⟩ w := by
  cases h : (w.graph g).frozen <;> simp [ensureMutable, h]

@[simp] theorem ensureMember_run (n : Node) :
    (ensureMember g n).run w =
      if (w.graph g).contains n then .ok ⟨⟩ w else .error (.notMember n) w := by
  cases h : (w.graph g).contains n <;> simp [ensureMember, h]

theorem bindPort_run {side : Side} {p : Port} (h : Bindable w g side p) (b : Port → Binding) :
    (bindPort g side p.node p.index b).run w =
      .ok p (w.modify g (·.bind side p.slot (b p))) := by
  have hport : port? p.node side p.index = .ok p := port?_eq_ok_iff.2 ⟨rfl, rfl, h.index_lt⟩
  have hfree := h.free
  rw [Port.slot] at hfree
  simp [bindPort, h.unfrozen, h.member, hport, hfree, Port.slot]

theorem bindPort_run_of_not {side : Side} {n : Node} {port : Int} (b : Port → Binding)
    (h : ¬ ∃ p, p.node = n ∧ (p.index : Int) = port ∧ Bindable w g side p) :
    ∃ e, (bindPort g side n port b).run w = .error e w := by
  cases hfrozen : (w.graph g).frozen with
  | true => exact ⟨.frozen, by simp [bindPort, hfrozen]⟩
  | false =>
  cases hmember : (w.graph g).contains n with
  | false =>
    exact ⟨.notMember n, by simp [bindPort, hfrozen, hmember]⟩
  | true =>
  cases hport : port? n side port with
  | error e =>
    exact ⟨e, by simp [bindPort, hfrozen, hmember, hport]⟩
  | ok p =>
    obtain ⟨rfl, rfl, hlt⟩ := port?_eq_ok_iff.1 hport
    have hbound : (w.graph g).isBound side p.slot = true := by
      rw [← Bool.not_eq_false]
      exact fun hfree => h ⟨p, rfl, rfl, hfrozen, hmember, hlt, hfree⟩
    rw [Port.slot] at hbound
    exact ⟨.alreadyConnected side p.index p.node, by
      simp [bindPort, hfrozen, hmember, hport, hbound]⟩

structure Connectable (w : Workspace) (g : GraphId) (c : Connection) : Prop where
  source : Bindable w g .output c.source
  destination : Bindable w g .input c.destination
  type_eq : w.typeOf .output c.source = w.typeOf .input c.destination

theorem connect_run {c : Connection} (h : Connectable w g c) :
    (connect g c.source.node c.source.index c.destination.node c.destination.index).run w =
      .ok c (w.modify g (·.wire c)) := by
  have hs : port? c.source.node .output c.source.index = .ok c.source :=
    port?_eq_ok_iff.2 ⟨rfl, rfl, h.source.index_lt⟩
  have hd : port? c.destination.node .input c.destination.index = .ok c.destination :=
    port?_eq_ok_iff.2 ⟨rfl, rfl, h.destination.index_lt⟩
  have hfree := h.destination.free
  rw [Port.slot] at hfree
  rw [connect]
  simp [hs, hd, h.source.unfrozen, h.source.member,
    h.destination.member, h.type_eq, hfree, bindPort_run h.source,
    bindPort_run (h.destination.bind_output c.source.slot (.connection c)), modify_modify]
  rfl

theorem connect_run_of_frozen (hfrozen : (w.graph g).frozen = true) (source : Node) (output : Int)
    (destination : Node) (input : Int) :
    (connect g source output destination input).run w = .error .frozen w := by
  simp [connect, hfrozen]

theorem connect_run_of_not {source destination : Node} {output input : Int}
    (h : ¬ ∃ c, c.source.node = source ∧ (c.source.index : Int) = output ∧
      c.destination.node = destination ∧ (c.destination.index : Int) = input ∧ Connectable w g c) :
    ∃ e, (connect g source output destination input).run w = .error e w := by
  cases hfrozen : (w.graph g).frozen with
  | true => exact ⟨.frozen, connect_run_of_frozen hfrozen ..⟩
  | false =>
  cases hs : (w.graph g).contains source with
  | false => exact ⟨.notMember source, by simp [connect, hfrozen, hs]⟩
  | true =>
  cases hd : (w.graph g).contains destination with
  | false => exact ⟨.notMember destination, by simp [connect, hfrozen, hs, hd]⟩
  | true =>
  cases hp : port? source .output output with
  | error e => exact ⟨e, by simp [connect, hfrozen, hs, hd, hp]⟩
  | ok p =>
  cases hq : port? destination .input input with
  | error e => exact ⟨e, by simp [connect, hfrozen, hs, hd, hp, hq]⟩
  | ok q =>
  obtain ⟨rfl, rfl, hplt⟩ := port?_eq_ok_iff.1 hp
  obtain ⟨rfl, rfl, hqlt⟩ := port?_eq_ok_iff.1 hq
  by_cases htype : w.typeOf .output p = w.typeOf .input q
  · cases hq' : (w.graph g).isBound .input q.slot with
    | true =>
      rw [Port.slot] at hq'
      exact ⟨.alreadyConnected .input q.index q.node, by
        simp [connect, hfrozen, hs, hd, hp, hq, htype, hq']⟩
    | false =>
      -- the only check left is the one that binding the source makes, before anything is written
      have hbind : ¬ ∃ p', p'.node = p.node ∧ (p'.index : Int) = p.index ∧ Bindable w g .output p' := by
        rintro ⟨p', hnode, hindex, hp'⟩
        obtain rfl := Port.ext_of_node_of_index hnode hindex
        exact h ⟨⟨p', q⟩, rfl, rfl, rfl, rfl, hp', ⟨hfrozen, hd, hqlt, hq'⟩, htype⟩
      obtain ⟨e, he⟩ := bindPort_run_of_not (fun _ => .connection ⟨p, q⟩) hbind
      rw [Port.slot] at hq'
      exact ⟨e, by
        simp [connect, hfrozen, hs, hd, hp, hq, htype, hq', he]⟩
  · exact ⟨.typeMismatch p.node p.index (w.typeOf .output p) q.node q.index (w.typeOf .input q), by
      simp [connect, hfrozen, hs, hd, hp, hq, htype]⟩

theorem expose_run {side : Side} {p : Port} (h : Bindable w g side p) :
    (expose g side p.node p.index).run w =
      .ok w.nextPipe
        ({ w with nextPipe := w.nextPipe + 1 }.modify g (·.publish side ⟨w.nextPipe, p⟩)) := by
  have hport : port? p.node side p.index = .ok p := port?_eq_ok_iff.2 ⟨rfl, rfl, h.index_lt⟩
  have hbind : Bindable { w with nextPipe := w.nextPipe + 1 } g side p :=
    ⟨h.unfrozen, h.member, h.index_lt, h.free⟩
  simp [expose, hport, h.unfrozen, bindPort_run hbind, modify_modify]
  rfl

theorem expose_run_of_frozen (hfrozen : (w.graph g).frozen = true) (side : Side) (n : Node) (port : Int) :
    (expose g side n port).run w = .error .frozen w := by
  simp [expose, hfrozen]

theorem expose_run_of_not {side : Side} {n : Node} {port : Int}
    (h : ¬ ∃ p, p.node = n ∧ (p.index : Int) = port ∧ Bindable w g side p) :
    ∃ e, (expose g side n port).run w = .error e w ∨
      (expose g side n port).run w = .error e { w with nextPipe := w.nextPipe + 1 } := by
  cases hfrozen : (w.graph g).frozen with
  | true => exact ⟨.frozen, .inl (expose_run_of_frozen hfrozen ..)⟩
  | false =>
  cases hp : port? n side port with
  | error e => exact ⟨e, .inl (by simp [expose, hfrozen, hp])⟩
  | ok p =>
    have hbind : ¬ ∃ p, p.node = n ∧ (p.index : Int) = port ∧
        Bindable { w with nextPipe := w.nextPipe + 1 } g side p :=
      fun ⟨p, hnode, hindex, hp⟩ => h ⟨p, hnode, hindex, hp.unfrozen, hp.member, hp.index_lt, hp.free⟩
    obtain ⟨e, he⟩ := bindPort_run_of_not (fun _ => .external ⟨w.nextPipe, n, port.toNat⟩) hbind
    exact ⟨e, .inr (by simp [expose, hfrozen, hp, he])⟩

structure Attachable (w : Workspace) (group : Node) (g : GraphId) (side : Side) (index : Nat)
    (p : Port) : Prop where
  inner : group.inner? = some g
  index_lt : index < group.arity side
  unassociated : ((w.graph g).associations side).lookup index = none
  port : Bindable w g side p

theorem associate_run {group : Node} {side : Side} {index : Nat} {p : Port}
    (h : Attachable w group g side index p) :
    (associate group side index p.node p.index).run w =
      .ok ⟨⟩ (w.modify g (·.attach group side index p)) := by
  have hport : port? group side index = .ok ⟨group, index⟩ :=
    port?_eq_ok_iff.2 ⟨rfl, rfl, h.index_lt⟩
  simp [associate, inside, h.inner, hport, h.unassociated, bindPort_run h.port, modify_modify]
  rfl

theorem associate_run_of_not {group n : Node} {side : Side} {index port : Int}
    (h : ¬ ∃ (g : GraphId) (i : Nat) (p : Port), p.node = n ∧ (p.index : Int) = port ∧
      (i : Int) = index ∧ Attachable w group g side i p) :
    ∃ e, (associate group side index n port).run w = .error e w := by
  cases hg : group.inner? with
  | none => exact ⟨.notGroup group, by simp [associate, inside, hg]⟩
  | some g =>
  cases hi : port? group side index with
  | error e => exact ⟨e, by simp [associate, inside, hg, hi]⟩
  | ok outer =>
  obtain ⟨hnode, rfl, hlt⟩ := port?_eq_ok_iff.1 hi
  cases hfree : ((w.graph g).associations side).lookup outer.index with
  | some q =>
    exact ⟨.alreadyAssociated group side outer.index, by simp [associate, inside, hg, hi, hfree]⟩
  | none =>
    have hbind : ¬ ∃ p, p.node = n ∧ (p.index : Int) = port ∧ Bindable w g side p :=
      fun ⟨p, hn, hindex, hp⟩ => h ⟨g, outer.index, p, hn, hindex, rfl, hg, hlt, hfree, hp⟩
    obtain ⟨e, he⟩ := bindPort_run_of_not (fun _ => .association group) hbind
    exact ⟨e, by simp [associate, inside, hg, hi, hfree, he]⟩

theorem associate_run_of_frozen {group : Node} (hgroup : group.inner? = some g)
    (hfrozen : (w.graph g).frozen = true) (side : Side) (index : Int) (n : Node) (port : Int) :
    ∃ e, e.isGraphError = true ∧ (associate group side index n port).run w = .error e w := by
  cases hi : port? group side index with
  | error e =>
    refine ⟨e, ?_, by simp [associate, inside, hgroup, hi]⟩
    rw [port?] at hi
    split at hi
    · nomatch hi
    · rw [← Except.error.inj hi]
      rfl
  | ok outer =>
    cases hfree : ((w.graph g).associations side).lookup outer.index with
    | some q =>
      exact ⟨.alreadyAssociated group side index, rfl, by simp [associate, inside, hgroup, hi, hfree]⟩
    | none => exact ⟨.frozen, rfl, by simp [associate, inside, hgroup, hi, hfree, bindPort, hfrozen]⟩

/-! ### Adding nodes -/

theorem addOne_run_of_contains {n : Node} (h : (w.graph g).contains n = true) :
    (addOne g n).run w = .error (.alreadyMember n) w := by
  simp [addOne, h]

theorem addOne_run {n : Node} (h : (w.graph g).contains n = false) :
    (addOne g n).run w = .ok ⟨⟩ (w.modify g (·.extend [n])) := by
  simp [addOne, h]
  rfl

theorem forM_addOne_run (hg : g < w.graphs.length) (ns : List Node) :
    ∃ added, (w.graph g).Extensible added ∧
      ((ns = added ∧ (ns.forM (addOne g)).run w = .ok ⟨⟩ (w.modify g (·.extend added))) ∨
        ∃ n rest, ns = added ++ n :: rest ∧ ((w.graph g).extend added).contains n = true ∧
          (ns.forM (addOne g)).run w = .error (.alreadyMember n) (w.modify g (·.extend added))) := by
  -- the nodes in front are added first, so the rest is checked against the graph with them in it
  induction ns generalizing w with
  | nil => exact ⟨[], .nil _, .inl ⟨rfl, by rw [modify_extend_nil]; rfl⟩⟩
  | cons n ns ih =>
    cases hn : (w.graph g).contains n with
    | true =>
      refine ⟨[], .nil _, .inr ⟨n, ns, rfl, ?_, ?_⟩⟩
      · rw [Graph.extend_nil]
        exact hn
      · rw [modify_extend_nil, List.forM, EStateM.run_bind, addOne_run_of_contains hn]
    | false =>
      obtain ⟨added, hadded, hrun⟩ := ih (w := w.modify g (·.extend [n]))
        (by rwa [length_modify])
      rw [graph_modify hg] at hadded hrun
      rw [List.forM, EStateM.run_bind, addOne_run hn]
      simp only [modify_modify, Function.comp_def, Graph.extend_extend, List.singleton_append]
        at hrun ⊢
      refine ⟨n :: added, hadded.cons hn, ?_⟩
      obtain ⟨rfl, hrun⟩ | ⟨m, rest, rfl, hm, hrun⟩ := hrun
      · exact .inl ⟨rfl, hrun⟩
      · exact .inr ⟨m, rest, rfl, hm, hrun⟩

theorem add_run (hg : g < w.graphs.length) (hfrozen : (w.graph g).frozen = false) (ns : List Node) :
    ∃ added, (w.graph g).Extensible added ∧
      ((ns = added ∧ (add g ns).run w = .ok ⟨⟩ (w.modify g (·.extend added))) ∨
        ∃ n rest, ns = added ++ n :: rest ∧ ((w.graph g).extend added).contains n = true ∧
          (add g ns).run w = .error (.alreadyMember n) (w.modify g (·.extend added))) := by
  have hadd : (add g ns).run w = (ns.forM (addOne g)).run w := by simp [add, hfrozen]
  rw [hadd]
  exact forM_addOne_run hg ns

theorem add_run_of_frozen (hfrozen : (w.graph g).frozen = true) (ns : List Node) :
    (add g ns).run w = .error .frozen w := by
  simp [add, hfrozen]

/-! ### Making nodes and graphs -/

theorem newGraph_run (w : Workspace) (domain queue : Int) :
    (∃ (hd : 0 < domain.toNat) (hq : 0 < queue.toNat), (newGraph domain queue).run w =
      .ok w.graphs.length { w with graphs := w.graphs ++ [.blank hd hq] }) ∨
    ∃ e, (newGraph domain queue).run w = .error e w := by
  by_cases hd : 0 < domain
  · by_cases hq : 0 < queue
    · exact .inl ⟨by omega, by omega, by simp [newGraph, hd, hq, Graph.blank]⟩
    · exact .inr ⟨.emptyQueue, by simp [newGraph, hd, hq]⟩
  · exact .inr ⟨.emptyDomain, by simp [newGraph, hd]⟩

theorem node_run (k : Kind) :
    (node k).run w = .ok ⟨w.nextNode, k⟩ { w with nextNode := w.nextNode + 1 } := rfl

end Build
end StreamCheck.Network
