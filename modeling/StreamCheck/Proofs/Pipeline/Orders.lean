import StreamCheck.Proofs.Network.Renumbering
import StreamCheck.Proofs.Pipeline.Provenance

/-! Orders of requests. What is built for a configuration is always the same network, moved up to the numbers that
come next; so the order in which a library is asked for its models does not matter but for these numbers. -/

namespace StreamCheck.Network
open Smv
variable {o : Origin}

/-! ### Graphs that are moved -/

namespace Graph
variable {g : Graph}

theorem blank_move {domain queue : Nat} (hd : 0 < domain) (hq : 0 < queue) : (blank hd hq).move o = blank hd hq := rfl

theorem extend_move (ns : List Node) : (g.extend ns).move o = (g.move o).extend (ns.map (Node.move o)) := by
  simp only [extend, move, List.map_append]

theorem wire_move (c : Connection) : (g.wire c).move o = (g.move o).wire (c.move o) := by
  simp only [wire, move, bind, List.map_append]
  rfl

theorem wires_move (cs : List Connection) : (g.wires cs).move o = (g.move o).wires (cs.map (Connection.move o)) := by
  induction cs generalizing g with
  | nil => rfl
  | cons c cs ih =>
    rw [List.map_cons]
    exact (ih (g := g.wire c)).trans (congrArg (fun g' : Graph => g'.wires _) (wire_move c))

theorem publish_move (side : Side) (e : External) :
    (g.publish side e).move o = (g.move o).publish side (e.move o) := by
  cases side <;> simp only [publish, expose, bind, move, List.map_append] <;> rfl

theorem attach_move (group : Node) (side : Side) (index : Nat) (p : Port) :
    (g.attach group side index p).move o = (g.move o).attach (group.move o) side index (p.move o) := by
  cases side <;> simp only [attach, associate, bind, move, List.map_append] <;> rfl

end Graph

/-! ### Plans -/

theorem Node.shift_move {n : Node} (hleaf : n.inner? = none) (b : Nat) : (n.shift b).move o = n.shift (o.node + b) := by
  obtain ⟨id, kind⟩ := n
  cases kind with
  | group inner ins outs => nomatch hleaf
  | _ => simp only [move, shift, Kind.move, Kind.shift, Nat.add_assoc]

namespace Plan
variable {domain queue : Nat} (P : Plan) (hd : 0 < domain) (hq : 0 < queue)

theorem port_shift_move (b : Nat) (side : Side) :
    ((P.port side).shift b).move o = (P.port side).shift (o.node + b) :=
  congrArg (Port.mk · _) (Node.shift_move (P.leaf _ (P.port_member side).1) b)

theorem draw_move (b : Nat) : ((Graph.blank hd hq).draw P b).move o = (Graph.blank hd hq).draw P (o.node + b) := by
  have hnodes : (P.nodes.map (Node.shift b)).map (Node.move o) = P.nodes.map (Node.shift (o.node + b)) := by
    rw [List.map_map]
    exact List.map_congr_left fun n hn => Node.shift_move (P.leaf n hn) b
  have hconnections : (P.connections.map (Connection.shift b)).map (Connection.move o) =
      P.connections.map (Connection.shift (o.node + b)) := by
    rw [List.map_map]
    refine List.map_congr_left fun c hc => ?_
    have hend (side : Side) : ((c.endpoint side).shift b).move o = (c.endpoint side).shift (o.node + b) :=
      congrArg (Port.mk · _) (Node.shift_move (P.leaf _ (P.member c hc side).1) b)
    exact congrArg₂ Connection.mk (hend .output) (hend .input)
  rw [Graph.draw, Graph.wires_move, Graph.extend_move, Graph.blank_move, hnodes, hconnections]
  rfl

theorem exposed_move (b : Nat) (pipe : PipeId) :
    (P.exposed hd hq b pipe).move o = P.exposed hd hq (o.node + b) (o.pipe + pipe) := by
  rw [exposed, Graph.publish_move, Graph.publish_move, draw_move, External.move, External.move, port_shift_move,
    port_shift_move]
  rfl

theorem enclosed_move (b : Nat) (group : Node) :
    (P.enclosed hd hq b group).move o = P.enclosed hd hq (o.node + b) (group.move o) := by
  rw [enclosed, Graph.attach_move, Graph.attach_move, draw_move, port_shift_move, port_shift_move]
  rfl

end Plan
end StreamCheck.Network

namespace StreamCheck
open Smv

/-- A counter like another, or a compiled graph with the model of another but for the numbers of nodes and pipes. -/
inductive Subject.SameButNumbers : Subject → Subject → Prop
  | counter (queue domain : Int) : SameButNumbers (.counter queue domain) (.counter queue domain)
  | network {c c' : CompiledGraph} (model : c.model.SameButNumbers c'.model) : SameButNumbers (.network c) (.network c')

/-- Two subjects have the same facts, as many pipes and queues, and models that are the same but for numbers. -/
structure Subject.Agrees (m m' : Subject) : Prop where
  facts : m.facts = m'.facts
  inputs : m.inputs.length = m'.inputs.length
  outputs : m.outputs.length = m'.outputs.length
  booleanOutputs : m.booleanOutputs.length = m'.booleanOutputs.length
  queueFlags : m.queueFlags.length = m'.queueFlags.length
  model : m.SameButNumbers m'

theorem CompiledGraph.agrees_of_renumber {c c' base : CompiledGraph} {r r' : Renumbering} (hfacts : c.facts = c'.facts)
    (h : c.model = base.model.renumber r) (h' : c'.model = base.model.renumber r') :
    (Subject.network c).Agrees (.network c') where
  facts := hfacts
  inputs := by
    change c.inputs.length = c'.inputs.length
    rw [inputs_renumber h, inputs_renumber h', List.length_map, List.length_map]
  outputs := by
    change c.outputs.length = c'.outputs.length
    rw [outputs_renumber h, outputs_renumber h', List.length_map, List.length_map]
  booleanOutputs := by
    change c.booleanOutputs.length = c'.booleanOutputs.length
    rw [booleanOutputs_renumber h, booleanOutputs_renumber h', List.length_map, List.length_map]
  queueFlags := by
    change c.queueFlags.length = c'.queueFlags.length
    rw [queueFlags_renumber h, queueFlags_renumber h', List.length_map, List.length_map]
  model := .network ⟨base.model, r, r', h, h'⟩

end StreamCheck

namespace StreamCheck.Pipeline
open Network Smv

namespace Junction
variable {o : Origin}

def move (o : Origin) (J : Junction) : Junction where
  left := o.node + J.left
  right := o.node + J.right
  fork := o.node + J.fork
  leftInner := o.graph + J.leftInner
  rightInner := o.graph + J.rightInner
  left_lt := Nat.add_lt_add_left J.left_lt _
  right_lt := Nat.add_lt_add_left J.right_lt _

theorem joined_move {domain queue : Nat} (J : Junction) (hd : 0 < domain) (hq : 0 < queue) (pipe : PipeId)
    (wiring : Wiring) : (J.joined hd hq pipe wiring).move o = (J.move o).joined hd hq (o.pipe + pipe) wiring := by
  cases wiring <;> rfl

end Junction

/-! ### What is built -/

namespace Catalog
variable {domain queue : Nat}

def ground : Workspace := ⟨0, 0, []⟩

theorem moved_grow (w : Workspace) (node node' : NodeId) (pipe pipe' : PipeId) (new : List Graph) :
    (ground.grow node pipe new).Moved w.origin (w.grow node' pipe' (new.map (Graph.move w.origin))) := by
  intro g
  have hground : (ground.grow node pipe new).graph g = new.getD g default := by
    have hgrow : (ground.grow node pipe new).graph (ground.graphs.length + g) = new.getD g default :=
      Workspace.graph_grow g
    rwa [show ground.graphs.length + g = g from Nat.zero_add g] at hgrow
  rw [hground]
  refine (Workspace.graph_grow g).trans ?_
  exact List.getD_map _ (d := default) (f := Graph.move w.origin)

theorem junction_move (w : Workspace) (P Q : Plan) : junction w P Q = (junction ground P Q).move w.origin := by
  simp only [junction, Junction.move, Workspace.origin, ground, List.length_nil, Nat.add_assoc, Nat.zero_add,
    Nat.add_zero]

theorem moved_built (w : Workspace) (hd : 0 < domain) (hq : 0 < queue) (P Q : Plan) (wiring? : Option Wiring) :
    (built ground hd hq P Q wiring?).Moved w.origin (built w hd hq P Q wiring?) := by
  cases wiring? with
  | none =>
    have hgraph : [P.exposed hd hq w.nextNode w.nextPipe] =
        [P.exposed hd hq ground.nextNode ground.nextPipe].map (Graph.move w.origin) :=
      congrArg (fun g => [g]) (P.exposed_move (o := w.origin) hd hq ground.nextNode ground.nextPipe).symm
    rw [built, built, hgraph]
    exact moved_grow w _ _ _ _ _
  | some wiring =>
    have houter : ((junction ground P Q).joined hd hq ground.nextPipe wiring).move w.origin =
        (junction w P Q).joined hd hq w.nextPipe wiring := by
      rw [Junction.joined_move, ← junction_move]
      rfl
    have hleft : (P.enclosed hd hq (ground.nextNode + 1) (junction ground P Q).leftNode).move w.origin =
        P.enclosed hd hq (w.nextNode + 1) (junction w P Q).leftNode := by
      rw [Plan.enclosed_move, junction_move w]
      rfl
    have hnode : w.origin.node + (ground.nextNode + 1 + P.size + 1) = w.nextNode + 1 + P.size + 1 := by
      simp only [Workspace.origin, ground, Nat.add_assoc, Nat.zero_add]
    have hright : (Q.enclosed hd hq (ground.nextNode + 1 + P.size + 1) (junction ground P Q).rightNode).move w.origin =
        Q.enclosed hd hq (w.nextNode + 1 + P.size + 1) (junction w P Q).rightNode := by
      rw [Plan.enclosed_move, hnode, junction_move w]
      rfl
    have hgraphs : (junction w P Q).joined hd hq w.nextPipe wiring :: branches w hd hq P Q =
        ((junction ground P Q).joined hd hq ground.nextPipe wiring :: branches ground hd hq P Q).map
          (Graph.move w.origin) := by
      rw [branches, branches, List.map_cons, List.map_cons, List.map_cons, houter, hleft, hright]
      rfl
    rw [built, built, hgraphs]
    exact moved_grow w _ _ _ _ _

end Catalog

/-! ### Two models of one configuration -/

section
variable {c : Configuration} {w : Workspace} {P Q : Plan} {compiled : CompiledGraph}

theorem Configuration.Compiles.query_ne (h : c.Compiles w P Q compiled) : c.query ≠ Query.dummy.name := by
  intro hname
  obtain ⟨q, hquery, hP, -⟩ := h.plans
  rw [hname, show Query.ofName? Query.dummy.name = some .dummy from rfl] at hquery
  obtain rfl := Option.some.inj hquery
  nomatch hP

theorem Configuration.Compiles.feasible (h : c.Compiles w P Q compiled) : Catalog.Feasible c := by
  obtain ⟨q, hquery, hP, hQ⟩ := h.plans
  exact ⟨w, _, _, Catalog.assemble_run hquery hP hQ⟩

theorem Configuration.Compiles.exists_base (h : c.Compiles w P Q compiled) : ∃ base : CompiledGraph,
    ∀ w' P' Q' compiled', c.Compiles w' P' Q' compiled' → compiled'.facts = base.facts ∧
      compiled'.model = base.model.renumber w'.origin.renumbering := by
  obtain ⟨q, hquery, hP, hQ⟩ := h.plans
  let built := Catalog.built Catalog.ground (Catalog.domain_toNat_pos c) (Catalog.queue_toNat_pos c) P Q c.wiring?
  obtain ⟨hbehaves, hbehaves'⟩ := Catalog.plans_behave hP hQ
  have hcomplete : built.Complete ⟨c.domain, c.queue⟩ 2 0 := Catalog.complete_built hbehaves hbehaves' c.wiring?
  have hdepth : 2 ≤ built.depth := Catalog.two_le_depth_built c.wiring?
  have horderly : built.Orderly 0 [] := Catalog.orderly_built c.wiring?
  obtain ⟨m, hm⟩ := hcomplete.exists_compile hdepth horderly
  refine ⟨⟨c.query, ⟨c.domain, c.queue⟩, Catalog.shapeOf P Q c.wiring?, 0, built.count 0, m⟩, ?_⟩
  intro w' P' Q' compiled' h'
  obtain ⟨q', hquery', hP', hQ'⟩ := h'.plans
  obtain rfl : q = q' := Option.some.inj (hquery.symm.trans hquery')
  obtain rfl : P = P' := Option.some.inj (hP.symm.trans hP')
  obtain rfl : Q = Q' := Option.some.inj (hQ.symm.trans hQ')
  have hmoved := Catalog.moved_built w' (Catalog.domain_toNat_pos c) (Catalog.queue_toNat_pos c) P Q c.wiring?
  have hdepth' : 2 ≤ (Catalog.built w' (Catalog.domain_toNat_pos c) (Catalog.queue_toNat_pos c) P Q c.wiring?).depth :=
    Catalog.two_le_depth_built c.wiring?
  have halike {fuel fuel' : Nat} (hfuel : 2 ≤ fuel) (hfuel' : 2 ≤ fuel') : built.Alike built fuel fuel' 0 :=
    hcomplete.nestsWithin.alike hfuel hfuel' fun _ _ _ => rfl
  have hmodel : compiled'.model = m.renumber w'.origin.renumbering :=
    hmoved.compile_move c.queue_pos (halike hdepth hdepth') horderly.wiredThroughout hm h'.model
  have hcount := hmoved.count_move (halike (Nat.le_succ_of_le hdepth) (Nat.le_succ_of_le hdepth'))
  exact ⟨CompiledGraph.facts_renumber hmodel h'.name h'.sizes h'.shape (h'.processors.trans hcount), hmodel⟩

theorem Configuration.Yields.agrees {m m' : Option Subject} (h : c.Yields m) (h' : c.Yields m') :
    Option.Rel Subject.Agrees m m' := by
  cases h with
  | counter dummy =>
    cases h' with
    | counter => exact .some ⟨rfl, rfl, rfl, rfl, rfl, .counter c.queue c.domain⟩
    | nothing query => exact absurd dummy query
    | network compiles => exact absurd dummy compiles.query_ne
  | nothing query infeasible =>
    cases h' with
    | counter dummy => exact absurd dummy query
    | nothing => exact .none
    | network compiles => exact absurd compiles.feasible infeasible
  | network compiles =>
    cases h' with
    | counter dummy => exact absurd dummy compiles.query_ne
    | nothing query infeasible => exact absurd compiles.feasible infeasible
    | network compiles' =>
      obtain ⟨base, hbase⟩ := compiles.exists_base
      obtain ⟨hfacts, hmodel⟩ := hbase _ _ _ _ compiles
      obtain ⟨hfacts', hmodel'⟩ := hbase _ _ _ _ compiles'
      exact .some (CompiledGraph.agrees_of_renumber (hfacts.trans hfacts'.symm) hmodel hmodel')

end

/-! ### Orders -/

/-- The models of several configurations, from a new library over a new cache that is asked for them in turn. -/
def modelsOf (cs : List Configuration) : Keep (List (Option Subject)) := do
  let library ← Library.ofCache (← Keep.newCache)
  cs.mapM library.get

theorem exists_modelsOf (archive : Archive) (cs : List Configuration) : ∃ ms final,
    (modelsOf cs).run archive = .ok ms final ∧ List.Forall₂ Configuration.Yields cs ms := by
  have hsize : (archive.addCache.cache archive.caches.length).size = 0 := by
    rw [archive.cache_addCache]
    rfl
  have hnew : Keep.newCache.run archive = .ok archive.caches.length archive.addCache := rfl
  obtain ⟨ms, final, hruns, hyields⟩ := Library.exists_gets (l := ⟨archive.addCache.caches.length⟩)
    (kept_addCache archive.addCache) (traced_addCache archive.addCache) cs
  refine ⟨ms, final, ?_, hyields⟩
  rw [modelsOf, run_bind_ok hnew, run_bind_ok (ofCache_run_of_eq hsize)]
  exact hruns

/-- Two new libraries over new caches, whatever was built before them, are asked for models, each in an order of its
own; the lists may be two orders of one. Both give one answer for each request, and what both are asked for both have
or neither has. What they have agrees, and the models are the same but for one constant in all numbers of nodes and
one in all numbers of pipes. -/
theorem models_in_any_order (archive archive' : Archive) (cs cs' : List Configuration) : ∃ ms final ms' final',
    (modelsOf cs).run archive = .ok ms final ∧ (modelsOf cs').run archive' = .ok ms' final' ∧
      ms.length = cs.length ∧ ms'.length = cs'.length ∧
      ∀ c m m', (c, m) ∈ cs.zip ms → (c, m') ∈ cs'.zip ms' → Option.Rel Subject.Agrees m m' := by
  obtain ⟨ms, final, hrun, hyields⟩ := exists_modelsOf archive cs
  obtain ⟨ms', final', hrun', hyields'⟩ := exists_modelsOf archive' cs'
  refine ⟨ms, final, ms', final', hrun, hrun', hyields.length_eq.symm, hyields'.length_eq.symm, ?_⟩
  intro c m m' hm hm'
  exact (List.forall₂_zip hyields hm).agrees (List.forall₂_zip hyields' hm')

end StreamCheck.Pipeline
