import StreamCheck.Proofs.Circuit.Outputs
import StreamCheck.Proofs.Network.Courses

/-! Plans: sections of pipelines as they are before they stand in a graph, with their nodes numbered from
zero. In a graph they stand with all numbers moved up, and what comes in decides what goes out. -/

namespace StreamCheck.Network
open Smv

/-! ### Numbers moved up -/

def Kind.shift (b : Nat) : Kind → Kind
  | .window processor f width h => .window (b + processor) f width h
  | k => k

def Node.shift (b : Nat) (n : Node) : Node := ⟨b + n.id, n.kind.shift b⟩

def Port.shift (b : Nat) (p : Port) : Port := ⟨p.node.shift b, p.index⟩

def Connection.shift (b : Nat) (c : Connection) : Connection := ⟨c.source.shift b, c.destination.shift b⟩

@[simp] theorem Kind.inputs_shift (b : Nat) (k : Kind) : (k.shift b).inputs = k.inputs := by
  cases k <;> rfl

@[simp] theorem Kind.outputs_shift (b : Nat) (k : Kind) : (k.shift b).outputs = k.outputs := by
  cases k <;> rfl

theorem Circuit.behaviour_shift (s : Sizes) (b : Nat) (k : Kind) : behaviour s (k.shift b) = behaviour s k := by
  cases k <;> rfl

theorem Kind.runs_shift {s : Sizes} {b : Nat} {k : Kind} {τ : Trace} :
    (k.shift b).Runs s τ ↔ k.Runs s τ := by
  rw [Runs, Runs, Circuit.behaviour_shift, inputs_shift]

@[simp] theorem Node.inner?_shift (b : Nat) (n : Node) : (n.shift b).inner? = n.inner? := by
  cases n with
  | mk id kind => cases kind <;> rfl

@[simp] theorem Node.arity_shift (b : Nat) (n : Node) (side : Side) : (n.shift b).arity side = n.arity side := by
  cases side
  · exact congrArg List.length (Kind.inputs_shift b n.kind)
  · exact congrArg List.length (Kind.outputs_shift b n.kind)

@[simp] theorem Node.inputArity_shift (b : Nat) (n : Node) : (n.shift b).inputArity = n.inputArity :=
  n.arity_shift b .input

theorem Workspace.declared_shift (b : Nat) (n : Node) (side : Side) : declared (n.shift b) side = declared n side := by
  cases side
  · exact Kind.inputs_shift b n.kind
  · exact Kind.outputs_shift b n.kind

theorem slot_shift_injective (b : Nat) : Function.Injective fun s : Slot => (b + s.1, s.2) := by
  rintro ⟨i, j⟩ ⟨i', j'⟩ h
  obtain ⟨hi, hj⟩ := Prod.mk.inj h
  exact Prod.ext (Nat.add_left_cancel hi) hj

@[simp] theorem Connection.endpoint_shift (b : Nat) (c : Connection) (side : Side) :
    (c.shift b).endpoint side = (c.endpoint side).shift b := by
  cases side <;> rfl

/-! ### Plans -/

def Port.declaredType (p : Port) (side : Side) : PortType :=
  (Workspace.declared p.node side).getD p.index .integer

/-- A network of leaves from the first input of one node to the first output of another, in which every
input gets its events from one place and no connection leads back. -/
structure Plan where
  nodes : List Node
  connections : List Connection
  entry : Node
  exit : Node
  /-- How many numbers the nodes take up, those inside windows included. -/
  size : Nat
  shape : Option Int := none
  rank : NodeId → Nat
  distinct : (nodes.map Node.id).Nodup
  leaf : ∀ n ∈ nodes, n.inner? = none
  entered : ((⟨entry, 0⟩ :: connections.map (·.endpoint .input)).map Port.slot).Nodup
  left : ((⟨exit, 0⟩ :: connections.map (·.endpoint .output)).map Port.slot).Nodup
  member : ∀ c ∈ connections, ∀ side,
    (c.endpoint side).node ∈ nodes ∧ (c.endpoint side).index < (c.endpoint side).node.arity side
  entry_member : entry ∈ nodes ∧ 0 < entry.arity .input
  exit_member : exit ∈ nodes ∧ 0 < exit.arity .output
  entry_type : (⟨entry, 0⟩ : Port).declaredType .input = .integer
  exit_type : (⟨exit, 0⟩ : Port).declaredType .output = .integer
  type_eq : ∀ c ∈ connections, c.source.declaredType .output = c.destination.declaredType .input
  fed : ∀ n ∈ nodes, ∀ j < n.inputArity,
    (n.id, j) ∈ (⟨entry, 0⟩ :: connections.map (·.endpoint .input)).map Port.slot
  forward : ∀ c ∈ connections, rank c.source.node.id < rank c.destination.node.id

namespace Plan
variable {P : Plan} {s : Sizes} {x : Stream} {σ τ : NodeId → Trace}

theorem induction (P : Plan) {motive : Node → Prop} (step : ∀ n ∈ P.nodes,
    (∀ c ∈ P.connections, c.destination.node = n → motive c.source.node) → motive n) :
    ∀ n ∈ P.nodes, motive n := by
  intro n hn
  induction hk : P.rank n.id using Nat.strongRecOn generalizing n with
  | _ k ih =>
    refine step n hn fun c hc hdestination => ?_
    have hlt := P.forward c hc
    rw [hdestination, hk] at hlt
    exact ih _ hlt c.source.node (P.member c hc .output).1 rfl

theorem eq_of_id_eq (P : Plan) {n m : Node} (hn : n ∈ P.nodes) (hm : m ∈ P.nodes) (h : n.id = m.id) : n = m :=
  List.inj_on_of_nodup_map P.distinct hn hm h

theorem fed_cases (P : Plan) {n : Node} (hn : n ∈ P.nodes) {j : Nat} (hj : j < n.inputArity) :
    (P.entry = n ∧ j = 0) ∨ ∃ c ∈ P.connections, c.destination = ⟨n, j⟩ := by
  have hfed := P.fed n hn j hj
  rw [List.map_cons, List.map_map] at hfed
  rcases List.mem_cons.1 hfed with heq | hmem
  · obtain ⟨hid, hindex⟩ := Prod.mk.inj heq
    exact .inl ⟨P.eq_of_id_eq P.entry_member.1 hn hid.symm, hindex⟩
  · obtain ⟨c, hc, heq⟩ := List.mem_map.1 hmem
    obtain ⟨hid, hindex⟩ := Prod.mk.inj heq
    have hnode : c.destination.node = n := P.eq_of_id_eq (P.member c hc .input).1 hn hid
    exact .inr ⟨c, hc, Port.ext_of_node_of_index hnode (congrArg Int.ofNat hindex)⟩

/-- What the nodes of a plan do when a stream comes in. -/
structure Course (P : Plan) (s : Sizes) (x : Stream) (σ : NodeId → Trace) : Prop where
  runs : ∀ n ∈ P.nodes, n.kind.Runs s (σ n.id)
  connected : ∀ c ∈ P.connections,
    (σ c.destination.node.id).input c.destination.index = (σ c.source.node.id).output c.source.index
  entered : (σ P.entry.id).input 0 = x

theorem Course.node (h : P.Course s x σ) (i : Nat) {n : Node} (hn : P.nodes[i]? = some n) :
    n.kind.Runs s (σ n.id) :=
  h.runs n (List.mem_of_getElem? hn)

theorem Course.wire (h : P.Course s x σ) (i : Nat) {c : Connection} (hc : P.connections[i]? = some c) :
    (σ c.destination.node.id).input c.destination.index = (σ c.source.node.id).output c.source.index :=
  h.connected c (List.mem_of_getElem? hc)

def out (P : Plan) (σ : NodeId → Trace) : Stream := (σ P.exit.id).output 0

theorem Course.output_unique (hq : 0 < s.queue) (hσ : P.Course s x σ) (hτ : P.Course s x τ) :
    ∀ n ∈ P.nodes, ∀ p < n.outputArity, (σ n.id).output p = (τ n.id).output p := by
  refine P.induction fun n hn ih p hp => ?_
  have hinputs (j : Nat) (hj : j < n.inputArity) : (σ n.id).input j = (τ n.id).input j := by
    rcases P.fed_cases hn hj with ⟨rfl, rfl⟩ | ⟨c, hc, hdestination⟩
    · rw [hσ.entered, hτ.entered]
    · have hsource := ih c hc (congrArg Port.node hdestination) c.source.index (P.member c hc .output).2
      rw [← hσ.connected c hc, ← hτ.connected c hc, hdestination] at hsource
      exact hsource
  have houtputs := (hσ.runs n hn).output_unique hq (hτ.runs n hn) (p := p)
    (fun j hj t => Prod.mk.inj (congrFun (hinputs j hj) t)) hp
  funext t
  exact Prod.ext (houtputs t).1 (houtputs t).2

theorem Course.out_unique (hq : 0 < s.queue) (hσ : P.Course s x σ) (hτ : P.Course s x τ) :
    P.out σ = P.out τ :=
  hσ.output_unique hq hτ P.exit P.exit_member.1 0 P.exit_member.2

theorem Course.clean_out (hq : 0 < s.queue) (hσ : P.Course s x σ) : (P.out σ).clean = P.out σ :=
  (hσ.runs P.exit P.exit_member.1).clean_output hq P.exit_member.2

/-- A plan in which every node but the last puts out an event for each that comes in. -/
def IsSteady (P : Plan) : Prop := ∀ c ∈ P.connections, c.source.node.kind.isPrompt = true

theorem Course.inStep (hq : 0 < s.queue) (hP : P.IsSteady) (hσ : P.Course s x σ) :
    ∀ n ∈ P.nodes, Queue.InStep (σ n.id) n.inputArity x.fires := by
  refine P.induction fun n hn ih j hj => ?_
  rcases P.fed_cases hn hj with ⟨rfl, rfl⟩ | ⟨c, hc, hdestination⟩
  · rw [hσ.entered]
  · obtain ⟨hsource, hindex⟩ := P.member c hc .output
    have hfires : ((σ c.source.node.id).output c.source.index).fires = x.fires :=
      (hσ.runs _ hsource).fires_output_of_isPrompt hq (hP c hc)
        (ih c hc (congrArg Port.node hdestination)) hindex
    rw [← hσ.connected c hc, hdestination] at hfires
    exact hfires

theorem Course.load_eq_zero (hq : 0 < s.queue) (hP : P.IsSteady) (hσ : P.Course s x σ) {n : Node}
    (hn : n ∈ P.nodes) {j : Nat} (hj : j < n.inputArity) (t : Nat) :
    Queue.load (σ n.id) s.queue.toNat j t = 0 :=
  (hσ.runs n hn).load_eq_zero hq (hσ.inStep hq hP n hn) hj t

/-! ### Equivalent plans -/

section
variable {Q : Plan}

/-- Two plans make the same of every stream of numbers of the domain. -/
def StepEquivalent (P Q : Plan) (s : Sizes) : Prop :=
  ∀ x : Stream, x.Over s.domain → ∀ σ τ, P.Course s x σ → Q.Course s x τ → (P.out σ).Agree (Q.out τ)

/-- Of no stream of numbers of the domain a comparison tells that the plans make different events of it. -/
def SequenceEquivalent (P Q : Plan) (s : Sizes) : Prop :=
  ∀ x : Stream, x.Over s.domain → ∀ σ τ ρ, P.Course s x σ → Q.Course s x τ →
    (Kind.apply .equals .integer).Runs s ρ → ρ.input 0 = P.out σ → ρ.input 1 = Q.out τ →
      ∀ t, (ρ.output 0).fires t = true → ((ρ.output 0).value t).isTrue = true

theorem StepEquivalent.sequenceEquivalent (hq : 0 < s.queue) (h : P.StepEquivalent Q s) :
    P.SequenceEquivalent Q s := by
  intro x hx σ τ ρ hσ hτ hρ hfirst hsecond t hfires
  have hagree := h x hx σ τ hσ hτ
  rw [← hfirst, ← hsecond] at hagree
  rw [hρ.equals_output hq hagree hfires]
  rfl

theorem stepEquivalent_self (hq : 0 < s.queue) (P : Plan) : P.StepEquivalent P s := by
  intro x _ σ τ hσ hτ t
  rw [hσ.out_unique hq hτ]
  exact ⟨rfl, fun _ => rfl⟩

end

/-! ### Plans in graphs -/

structure Shows (g : Graph) (P : Plan) (b : Nat) : Prop where
  nodes : g.nodes = P.nodes.map (Node.shift b)
  connections : g.connections = P.connections.map (Connection.shift b)

theorem course_of_courses {w : Workspace} {g : GraphId} {b : Nat} {τ : Trace} (hg : Shows (w.graph g) P b)
    (h : Workspace.Courses w s g τ)
    (hx : (Workspace.inputWire ((⟨P.entry, 0⟩ : Port).shift b)).stream τ = x) :
    P.Course s x fun i => τ.inside (b + i) := by
  cases h with
  | intro leaf connection group entry exit =>
    rw [hg.nodes] at leaf
    rw [hg.connections] at connection
    refine ⟨fun n hn => ?_, fun c hc => connection _ (List.mem_map_of_mem hc), hx⟩
    have hleaf : (n.shift b).inner? = none := by
      rw [Node.inner?_shift]
      exact P.leaf n hn
    obtain ⟨m, hm, hobeyed⟩ := leaf _ (List.mem_map_of_mem hn) hleaf
    exact Kind.runs_shift.1 (Node.runs_of_obeyed hm hobeyed)

end Plan
end StreamCheck.Network
