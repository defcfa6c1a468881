import StreamCheck.Pipeline.Section
import StreamCheck.Proofs.Pipeline.Drawing

/-! The plan of each section: what is built into an empty graph, unless the domain is too small for it. -/

namespace StreamCheck.Network
open Smv

namespace Plan

/-- A plan from its nodes and connections, by what can be checked of their numbers and types. -/
def make (nodes : List Node) (connections : List Connection) (entry exit : Node) (size : Nat)
    (shape : Option Int) (rank : NodeId → Nat)
    (hchecked : (nodes.map Node.id).Nodup ∧ (∀ n ∈ nodes, n.inner? = none) ∧
      ((⟨entry, 0⟩ :: connections.map Connection.destination).map Port.slot).Nodup ∧
      ((⟨exit, 0⟩ :: connections.map Connection.source).map Port.slot).Nodup ∧
      (∀ c ∈ connections, c.source.index < c.source.node.outputArity ∧
        c.destination.index < c.destination.node.inputArity) ∧
      0 < entry.inputArity ∧ 0 < exit.outputArity ∧
      (⟨entry, 0⟩ : Port).declaredType .input = .integer ∧
      (⟨exit, 0⟩ : Port).declaredType .output = .integer ∧
      (∀ c ∈ connections, c.source.declaredType .output = c.destination.declaredType .input) ∧
      (∀ n ∈ nodes, ∀ j < n.inputArity,
        (n.id, j) ∈ (⟨entry, 0⟩ :: connections.map Connection.destination).map Port.slot) ∧
      ∀ c ∈ connections, rank c.source.node.id < rank c.destination.node.id)
    (hmember : entry ∈ nodes ∧ exit ∈ nodes ∧
      ∀ c ∈ connections, c.source.node ∈ nodes ∧ c.destination.node ∈ nodes) : Plan where
  nodes := nodes
  connections := connections
  entry := entry
  exit := exit
  size := size
  shape := shape
  rank := rank
  distinct := hchecked.1
  leaf := hchecked.2.1
  entered := hchecked.2.2.1
  left := hchecked.2.2.2.1
  member := by
    rintro c hc (_ | _)
    · exact ⟨(hmember.2.2 c hc).2, (hchecked.2.2.2.2.1 c hc).2⟩
    · exact ⟨(hmember.2.2 c hc).1, (hchecked.2.2.2.2.1 c hc).1⟩
  entry_member := ⟨hmember.1, hchecked.2.2.2.2.2.1⟩
  exit_member := ⟨hmember.2.1, hchecked.2.2.2.2.2.2.1⟩
  entry_type := hchecked.2.2.2.2.2.2.2.1
  exit_type := hchecked.2.2.2.2.2.2.2.2.1
  type_eq := hchecked.2.2.2.2.2.2.2.2.2.1
  fed := hchecked.2.2.2.2.2.2.2.2.2.2.1
  forward := hchecked.2.2.2.2.2.2.2.2.2.2.2

theorem toNat_pos {k : Int} (h : 0 < k) : 0 < k.toNat := Int.pos_iff_toNat_pos.1 h

def single (n : Node) (size : Nat) (shape : Option Int) (hleaf : n.inner? = none)
    (hinputs : n.kind.inputs = [.integer]) (houtputs : n.kind.outputs = [.integer]) : Plan :=
  make [n] [] n n size shape id
    (by simp [hleaf, hinputs, houtputs, Port.slot, Port.declaredType, Workspace.declared, Node.inputArity,
      Node.outputArity])
    (by simp)

def passthrough : Plan := single ⟨0, .passthrough .integer⟩ 1 none rfl rfl rfl

def product : Plan := single ⟨0, .cumulate .multiplication⟩ 1 none rfl rfl rfl

def window (f : Fold) (width : Int) (hwidth : 0 < width) (shape : Option Int) : Plan :=
  single ⟨1, .window 0 f width.toNat (toNat_pos hwidth)⟩ 2 shape rfl rfl rfl

def delay (k : Int) : Plan := single ⟨0, .trim k.toNat .integer⟩ 1 (some k) rfl rfl rfl

def productOfFirst (k : Int) (hk : 0 < k) : Plan :=
  let fork : Node := ⟨0, .fork 2 Nat.zero_lt_two .integer⟩
  let mul : Node := ⟨1, .apply .multiplication .integer⟩
  let dec : Node := ⟨2, .decimate k.toNat (toNat_pos hk) .integer⟩
  make [fork, mul, dec] [⟨⟨fork, 0⟩, ⟨mul, 0⟩⟩, ⟨⟨fork, 1⟩, ⟨dec, 0⟩⟩, ⟨⟨dec, 0⟩, ⟨mul, 1⟩⟩]
    fork mul 3 (some k) (fun i => [0, 2, 1].getD i 0) (of_decide_eq_true rfl) (by simp)

def sumOfOnes (k : Int) (hk : 0 < k) : Plan :=
  let one : Node := ⟨0, .constant (.number 1) .integer⟩
  let total : Node := ⟨1, .cumulate .addition⟩
  let win : Node := ⟨3, .window 2 .multiplication k.toNat (toNat_pos hk)⟩
  make [one, total, win] [⟨⟨one, 0⟩, ⟨total, 0⟩⟩, ⟨⟨total, 0⟩, ⟨win, 0⟩⟩]
    one win 4 (some k) id (of_decide_eq_true rfl) (by simp)

def sumOfDoubles : Plan :=
  let fork : Node := ⟨0, .fork 2 Nat.zero_lt_two .integer⟩
  let mul : Node := ⟨1, .apply .multiplication .integer⟩
  let two : Node := ⟨2, .constant (.number 2) .integer⟩
  let total : Node := ⟨3, .cumulate .addition⟩
  make [fork, mul, two, total]
    [⟨⟨fork, 0⟩, ⟨mul, 0⟩⟩, ⟨⟨fork, 1⟩, ⟨two, 0⟩⟩, ⟨⟨two, 0⟩, ⟨mul, 1⟩⟩, ⟨⟨mul, 0⟩, ⟨total, 0⟩⟩]
    fork total 4 none (fun i => [0, 2, 1, 3].getD i 0) (of_decide_eq_true rfl) (by simp)

def outputIfSmaller (k : Int) : Plan :=
  let fork : Node := ⟨0, .fork 3 (Nat.succ_pos 2) .integer⟩
  let filt : Node := ⟨1, .filter .integer⟩
  let turnK : Node := ⟨2, .constant (.number k) .integer⟩
  let turn1 : Node := ⟨3, .constant (.number 1) .integer⟩
  let count : Node := ⟨4, .cumulate .addition⟩
  let gte : Node := ⟨5, .apply .isGreaterOrEqual .integer⟩
  make [fork, filt, turnK, turn1, count, gte]
    [⟨⟨fork, 0⟩, ⟨filt, 0⟩⟩, ⟨⟨fork, 1⟩, ⟨turnK, 0⟩⟩, ⟨⟨fork, 2⟩, ⟨turn1, 0⟩⟩, ⟨⟨turn1, 0⟩, ⟨count, 0⟩⟩,
      ⟨⟨turnK, 0⟩, ⟨gte, 0⟩⟩, ⟨⟨count, 0⟩, ⟨gte, 1⟩⟩, ⟨⟨gte, 0⟩, ⟨filt, 1⟩⟩]
    fork filt 6 (some k) (fun i => [0, 4, 1, 1, 2, 3].getD i 0) (of_decide_eq_true rfl) (by simp)

def trimSum2 : Plan :=
  let fork : Node := ⟨0, .fork 2 Nat.zero_lt_two .integer⟩
  let trim1 : Node := ⟨1, .trim 1 .integer⟩
  let add1 : Node := ⟨2, .apply .addition .integer⟩
  make [fork, trim1, add1] [⟨⟨fork, 0⟩, ⟨add1, 0⟩⟩, ⟨⟨fork, 1⟩, ⟨trim1, 0⟩⟩, ⟨⟨trim1, 0⟩, ⟨add1, 1⟩⟩]
    fork add1 3 none id (of_decide_eq_true rfl) (by simp)

def trimSum3 : Plan :=
  let fork : Node := ⟨0, .fork 3 (Nat.succ_pos 2) .integer⟩
  let trim1 : Node := ⟨1, .trim 1 .integer⟩
  let add1 : Node := ⟨2, .apply .addition .integer⟩
  let trim2 : Node := ⟨3, .trim 2 .integer⟩
  let add2 : Node := ⟨4, .apply .addition .integer⟩
  make [fork, trim1, add1, trim2, add2]
    [⟨⟨fork, 0⟩, ⟨add1, 0⟩⟩, ⟨⟨fork, 1⟩, ⟨trim1, 0⟩⟩, ⟨⟨trim1, 0⟩, ⟨add1, 1⟩⟩, ⟨⟨fork, 2⟩, ⟨trim2, 0⟩⟩,
      ⟨⟨add1, 0⟩, ⟨add2, 0⟩⟩, ⟨⟨trim2, 0⟩, ⟨add2, 1⟩⟩]
    fork add2 5 none id (of_decide_eq_true rfl) (by simp)

end Plan
end StreamCheck.Network

namespace StreamCheck.Pipeline
open Network

/-- The plan of a section over a domain, for the shape that is asked for. -/
abbrev Blueprint := Nat → Option Int → Option Plan

namespace Creator

/-- Into an empty graph, a section is built as its plan says, or nothing happens if there is no plan. -/
def Draws (create : Creator) (blueprint : Blueprint) : Prop :=
  ∀ (w : Workspace) (g : GraphId) {domain queue : Nat} (hd : 0 < domain) (hq : 0 < queue)
    (shape : Option Int), g < w.graphs.length → w.graph g = .blank hd hq →
    (create g shape).run w =
      match blueprint domain shape with
      | none => .ok none w
      | some P => .ok (some ⟨P.entry.shift w.nextNode, P.exit.shift w.nextNode, P.shape⟩)
        ({ w with nextNode := w.nextNode + P.size }.modify g (·.draw P w.nextNode))

theorem defaultShape_pos : 0 < defaultShape := by decide

theorem defaultDelay_pos : 0 < defaultDelay := by decide

theorem pos_two : (0 : Int) < 2 := by decide

theorem pos_three : (0 : Int) < 3 := by decide

theorem effective_pos (shape : Option Int) {otherwise : Int} (h : 0 < otherwise) :
    0 < effective shape otherwise := by
  unfold effective
  split
  · split <;> assumption
  · exact h

def place (g : GraphId) (P : Plan) (b : Nat) : Build (Option Section) := do
  Build.add g (P.nodes.map (Node.shift b))
  Build.connectAll g (P.connections.map (Connection.shift b))
  return some ⟨P.entry.shift b, P.exit.shift b, P.shape⟩

theorem run_eq_of_place {create : Creator} {w : Workspace} {g : GraphId} {domain queue : Nat} {hd : 0 < domain}
    {hq : 0 < queue} {shape : Option Int} (hg : g < w.graphs.length) (hblank : w.graph g = .blank hd hq)
    (P : Plan) (h : (create g shape).run w =
      (place g P w.nextNode).run { w with nextNode := w.nextNode + P.size }) :
    (create g shape).run w = .ok (some ⟨P.entry.shift w.nextNode, P.exit.shift w.nextNode, P.shape⟩)
      ({ w with nextNode := w.nextNode + P.size }.modify g (·.draw P w.nextNode)) :=
  h.trans (P.draw_run (w := { w with nextNode := w.nextNode + P.size }) w.nextNode hg hblank _)

section
variable (w : Workspace) (type : PortType)

theorem fork_run {arity : Int} (h : 0 < arity) : (Build.fork arity type).run w =
    .ok ⟨w.nextNode, .fork arity.toNat (Plan.toNat_pos h) type⟩ { w with nextNode := w.nextNode + 1 } := by
  rw [Build.fork, dif_pos h]
  rfl

theorem decimate_run {interval : Int} (h : 0 < interval) : (Build.decimate interval type).run w =
    .ok ⟨w.nextNode, .decimate interval.toNat (Plan.toNat_pos h) type⟩ { w with nextNode := w.nextNode + 1 } := by
  rw [Build.decimate, dif_pos h]
  rfl

theorem trim_run {count : Int} (h : 0 ≤ count) : (Build.trim count type).run w =
    .ok ⟨w.nextNode, .trim count.toNat type⟩ { w with nextNode := w.nextNode + 1 } := by
  rw [Build.trim, if_pos h]
  rfl

theorem cumulate_run {op : Operator} {f : Fold} (h : op.fold? = some f) : (Build.cumulate op).run w =
    .ok ⟨w.nextNode, .cumulate f⟩ { w with nextNode := w.nextNode + 1 } := by
  rw [Build.cumulate, h]
  rfl

theorem fold?_addition : Operator.addition.fold? = some .addition := rfl

theorem fold?_multiplication : Operator.multiplication.fold? = some .multiplication := rfl

theorem window_run (processor : NodeId) (f : Fold) {width : Int} (h : 0 < width) :
    (Build.window ⟨processor, .cumulate f⟩ width).run w =
      .ok ⟨w.nextNode, .window processor f width.toNat (Plan.toNat_pos h)⟩ { w with nextNode := w.nextNode + 1 } := by
  rw [Build.window]
  simp only [dif_pos h]
  rfl

end

section
variable {w : Workspace} {g : GraphId} {domain queue : Nat} {hd : 0 < domain} {hq : 0 < queue} {shape : Option Int}

theorem draws_passthrough : Draws passthrough fun _ _ => some .passthrough := by
  intro w g domain queue hd hq shape hg hblank
  exact run_eq_of_place hg hblank _ rfl

theorem draws_product : Draws product fun _ _ => some .product := by
  intro w g domain queue hd hq shape hg hblank
  exact run_eq_of_place hg hblank _ rfl

theorem draws_productOfFirst : Draws productOfFirst fun _ shape =>
    some (.productOfFirst (effective shape defaultShape) (effective_pos shape defaultShape_pos)) := by
  intro w g domain queue hd hq shape hg hblank
  have hk := effective_pos shape defaultShape_pos
  refine run_eq_of_place hg hblank _ ?_
  simp only [productOfFirst, EStateM.run_bind, fork_run _ _ pos_two, Build.apply,
    Build.node_run, decimate_run _ _ hk, place, Build.connectAll, Plan.productOfFirst, Plan.make, List.map_cons,
    List.map_nil, bind_assoc, pure_bind]
  rfl

theorem draws_productWindow : Draws productWindow fun _ shape =>
    some (.window .multiplication (effective shape defaultShape) (effective_pos shape defaultShape_pos)
      (some (effective shape defaultShape))) := by
  intro w g domain queue hd hq shape hg hblank
  have hk := effective_pos shape defaultShape_pos
  refine run_eq_of_place hg hblank _ ?_
  simp only [productWindow, EStateM.run_bind, cumulate_run _ fold?_multiplication, window_run _ _ _ hk]
  rfl

theorem draws_of_guard {create : Creator} {tooSmall : Nat → Option Int → Prop}
    [∀ domain shape, Decidable (tooSmall domain shape)] {plan : Option Int → Plan}
    (hnone : ∀ (w : Workspace) (g : GraphId) {domain queue : Nat} (hd : 0 < domain) (hq : 0 < queue) (shape : Option Int),
      w.graph g = .blank hd hq → tooSmall domain shape → (create g shape).run w = .ok none w)
    (hsome : ∀ (w : Workspace) (g : GraphId) {domain queue : Nat} (hd : 0 < domain) (hq : 0 < queue) (shape : Option Int),
      w.graph g = .blank hd hq → ¬ tooSmall domain shape → (create g shape).run w =
        (place g (plan shape) w.nextNode).run { w with nextNode := w.nextNode + (plan shape).size }) :
    Draws create fun domain shape => if tooSmall domain shape then none else some (plan shape) := by
  intro w g domain queue hd hq shape hg hblank
  by_cases hsmall : tooSmall domain shape
  · rw [hnone w g hd hq shape hblank hsmall]
    simp only [if_pos hsmall]
  · simp only [if_neg hsmall]
    exact run_eq_of_place hg hblank _ (hsome w g hd hq shape hblank hsmall)

theorem draws_sumOfOnes : Draws sumOfOnes fun domain shape =>
    if domain < 2 then none
    else some (.sumOfOnes (effective shape defaultShape) (effective_pos shape defaultShape_pos)) := by
  refine draws_of_guard ?_ ?_ <;> intro w g domain queue hd hq shape hblank hsmall
  · simp only [sumOfOnes, EStateM.run_bind, Build.graph_run, hblank, Graph.blank, if_pos hsmall]
    rfl
  · have hk := effective_pos shape defaultShape_pos
    simp only [sumOfOnes, EStateM.run_bind, Build.graph_run, hblank, Graph.blank, if_neg hsmall, Build.constant,
      Build.node_run, cumulate_run _ fold?_addition, cumulate_run _ fold?_multiplication,
      window_run _ _ _ hk, place, Build.connectAll, Plan.sumOfOnes, Plan.make, List.map_cons, List.map_nil,
      bind_assoc, pure_bind]
    rfl

theorem draws_sumOfDoubles : Draws sumOfDoubles fun domain _ =>
    if domain < 3 then none else some .sumOfDoubles := by
  refine draws_of_guard ?_ ?_ <;> intro w g domain queue hd hq shape hblank hsmall
  · simp only [sumOfDoubles, EStateM.run_bind, Build.graph_run, hblank, Graph.blank, if_pos hsmall]
    rfl
  · simp only [sumOfDoubles, EStateM.run_bind, Build.graph_run, hblank, Graph.blank, if_neg hsmall, Build.constant,
      Build.apply, Build.node_run, fork_run _ _ pos_two, cumulate_run _ fold?_addition,
      place, Build.connectAll, Plan.sumOfDoubles, Plan.make, List.map_cons, List.map_nil, bind_assoc, pure_bind]
    rfl

theorem draws_outputIfSmaller : Draws outputIfSmaller fun domain shape =>
    if (domain : Int) ≤ effective shape defaultShape then none
    else some (.outputIfSmaller (effective shape defaultShape)) := by
  refine draws_of_guard ?_ ?_ <;> intro w g domain queue hd hq shape hblank hsmall
  · simp only [outputIfSmaller, EStateM.run_bind, Build.graph_run, hblank, Graph.blank, if_pos hsmall]
    rfl
  · simp only [outputIfSmaller, EStateM.run_bind, Build.graph_run, hblank, Graph.blank, if_neg hsmall,
      Build.constant, Build.apply, Build.filter, Build.node_run, fork_run _ _ pos_three,
      cumulate_run _ fold?_addition, place, Build.connectAll, Plan.outputIfSmaller, Plan.make, List.map_cons,
      List.map_nil, bind_assoc, pure_bind]
    rfl

theorem draws_windowSum {width : Int} (hwidth : 0 < width) :
    Draws (windowSum width) fun _ _ => some (.window .addition width hwidth none) := by
  intro w g domain queue hd hq shape hg hblank
  refine run_eq_of_place hg hblank _ ?_
  simp only [windowSum, EStateM.run_bind, cumulate_run _ fold?_addition, window_run _ _ _ hwidth]
  rfl

theorem draws_trimSum2 : Draws trimSum2 fun _ _ => some .trimSum2 := by
  intro w g domain queue hd hq shape hg hblank
  refine run_eq_of_place hg hblank _ ?_
  simp only [trimSum2, EStateM.run_bind, fork_run _ _ pos_two,
    trim_run _ _ (show 0 ≤ (1 : Int) by decide), Build.apply, Build.node_run, place, Build.connectAll,
    Plan.trimSum2, Plan.make, List.map_cons, List.map_nil, bind_assoc, pure_bind]
  rfl

theorem draws_trimSum3 : Draws trimSum3 fun _ _ => some .trimSum3 := by
  intro w g domain queue hd hq shape hg hblank
  refine run_eq_of_place hg hblank _ ?_
  simp only [trimSum3, EStateM.run_bind, fork_run _ _ pos_three,
    trim_run _ _ (show 0 ≤ (1 : Int) by decide), trim_run _ _ (show 0 ≤ (2 : Int) by decide), Build.apply,
    Build.node_run, place, Build.connectAll, Plan.trimSum3, Plan.make, List.map_cons, List.map_nil, bind_assoc,
    pure_bind]
  rfl

theorem draws_delay : Draws delay fun _ shape => some (.delay (effective shape defaultDelay)) := by
  intro w g domain queue hd hq shape hg hblank
  have hk := effective_pos shape defaultDelay_pos
  refine run_eq_of_place hg hblank _ ?_
  simp only [delay, EStateM.run_bind, trim_run _ _ (Int.le_of_lt hk)]
  rfl

end

end Creator
end StreamCheck.Pipeline
