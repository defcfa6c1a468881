import StreamCheck.Proofs.Circuit.Names
import StreamCheck.Proofs.Network.Alike
import StreamCheck.Proofs.Network.Closed
import StreamCheck.Proofs.Smv.Renumbering

/-! Networks under other numbers. Where all numbers of nodes, pipes and graphs move up by constants, every question
to the workspace has the same answer under the new numbers, and so has compilation. -/

namespace StreamCheck

theorem Smv.Name.renumber_of_owner {r : Renumbering} {x : Name} (h : x.owner ≠ .outside) : x.renumber r = x := by
  cases x <;> first | rfl | exact absurd rfl h

namespace Network
open Smv

/-- The numbers from which the nodes, pipes and graphs of a workspace go on. -/
structure Origin where
  node : NodeId
  pipe : PipeId
  graph : GraphId
deriving DecidableEq, Repr, Inhabited

def Workspace.origin (w : Workspace) : Origin := ⟨w.nextNode, w.nextPipe, w.graphs.length⟩

variable (o : Origin)

def Origin.renumbering : Renumbering := ⟨o.node, o.pipe⟩

def Kind.move : Kind → Kind
  | window processor f width h => window (o.node + processor) f width h
  | group inner ins outs => group (o.graph + inner) ins outs
  | k => k

def Node.move (n : Node) : Node := ⟨o.node + n.id, n.kind.move o⟩

def Port.move (p : Port) : Port := ⟨p.node.move o, p.index⟩

def Connection.move (c : Connection) : Connection := ⟨c.source.move o, c.destination.move o⟩

def External.move (e : External) : External := ⟨o.pipe + e.pipe, e.port.move o⟩

def Binding.move : Binding → Binding
  | connection c => connection (c.move o)
  | external e => external (e.move o)
  | association group => association (group.move o)

def moveSlot (slot : Slot) : Slot := (o.node + slot.1, slot.2)

def Graph.move (g : Graph) : Graph :=
  { g with
    nodes := g.nodes.map (Node.move o)
    connections := g.connections.map (Connection.move o)
    inputs := g.inputs.map (External.move o)
    outputs := g.outputs.map (External.move o)
    feeds := g.feeds.map fun (slot, b) => (moveSlot o slot, b.move o)
    takes := g.takes.map fun (slot, b) => (moveSlot o slot, b.move o)
    entries := g.entries.map fun (i, p) => (i, p.move o)
    exits := g.exits.map fun (i, p) => (i, p.move o) }

def moveWire (wire : Wire) : Wire := (wire.1.renumber o.renumbering, wire.2.renumber o.renumbering)

def moveSupply (supply : Supply) : Supply := supply.map fun (slot, wire) => (moveSlot o slot, moveWire o wire)

/-- The graphs of a workspace stand in another behind as many others as the origin tells, under the numbers that
follow it. -/
def Workspace.Moved (w w' : Workspace) : Prop := ∀ g, w'.graph (o.graph + g) = (w.graph g).move o

variable {o}

/-! ### Nodes and graphs -/

@[simp] theorem Kind.label_move (k : Kind) : (k.move o).label = k.label := by
  cases k <;> rfl

@[simp] theorem Kind.inputs_move (k : Kind) : (k.move o).inputs = k.inputs := by
  cases k <;> rfl

@[simp] theorem Kind.outputs_move (k : Kind) : (k.move o).outputs = k.outputs := by
  cases k <;> rfl

theorem Circuit.ofKind_move {s : Sizes} {k : Kind} {c : Circuit} (h : ofKind s k = .ok c) :
    ofKind s (k.move o) = .ok c := by
  cases k with
  | group inner ins outs => nomatch h
  | _ => exact h

namespace Node

@[simp] theorem inputArity_move (n : Node) : (n.move o).inputArity = n.inputArity :=
  congrArg List.length n.kind.inputs_move

@[simp] theorem outputArity_move (n : Node) : (n.move o).outputArity = n.outputArity :=
  congrArg List.length n.kind.outputs_move

theorem inner?_move (n : Node) : (n.move o).inner? = n.inner?.map (o.graph + ·) := by
  obtain ⟨id, kind⟩ := n
  cases kind <;> rfl

theorem processors_move (n : Node) : (n.move o).processors = n.processors.map (move o) := by
  obtain ⟨id, kind⟩ := n
  cases kind <;> rfl

end Node

theorem Workspace.declared_move (n : Node) (side : Side) : declared (n.move o) side = declared n side := by
  cases side
  · exact n.kind.inputs_move
  · exact n.kind.outputs_move

theorem moveSlot_injective : Function.Injective (moveSlot o) := by
  rintro ⟨i, j⟩ ⟨i', j'⟩ h
  obtain ⟨hi, hj⟩ := Prod.mk.inj h
  exact Prod.ext (Nat.add_left_cancel hi) hj

namespace Graph
variable {graph : Graph}

theorem binding?_move (side : Side) (slot : Slot) :
    (graph.move o).binding? side (moveSlot o slot) = (graph.binding? side slot).map (Binding.move o) := by
  cases side <;> exact lookup_map (moveSlot o) (Binding.move o) fun _ _ h => moveSlot_injective h

theorem incoming?_move (n : Node) (p : Nat) :
    (graph.move o).incoming? (n.move o) p = (graph.incoming? n p).map (Connection.move o) := by
  have hbinding : (graph.move o).binding? .input ((n.move o).id, p) =
      (graph.binding? .input (n.id, p)).map (Binding.move o) := graph.binding?_move .input (n.id, p)
  have hnonneg : ¬ (p : Int) < 0 := Int.not_lt.2 (Int.natCast_nonneg p)
  rw [incoming?, incoming?, if_neg hnonneg, if_neg hnonneg, Int.toNat_natCast, hbinding]
  rcases graph.binding? .input (n.id, p) with _ | _ | _ | _ <;> rfl

theorem associations_move (side : Side) :
    (graph.move o).associations side = (graph.associations side).map fun (i, p) => (i, p.move o) := by
  cases side <;> rfl

theorem association_move (side : Side) (i : Nat) :
    ((graph.move o).associations side).lookup i = ((graph.associations side).lookup i).map (Port.move o) := by
  rw [associations_move]
  exact lookup_map id (Port.move o) fun _ _ h => h

end Graph

/-! ### Modules -/

namespace Workspace

theorem moduleName_move (n : Node) : moduleName (n.move o) = (moduleName n).renumber o.renumbering := by
  rw [moduleName, moduleName, Node.move, Kind.label_move]
  rfl

theorem parameters_renumber (r : Renumbering) (arity : Nat) :
    (parameters arity).map (Name.renumber r) = parameters arity := by
  refine map_eq_self fun x hx => ?_
  obtain ⟨j, -, rfl | rfl⟩ := mem_parameters.1 hx <;> rfl

end Workspace

theorem Node.renumber_leafModule {n : Node} {s : Sizes} {m : Module} (hq : 0 < s.queue) (hm : n.leafModule s = .ok m)
    (r : Renumbering) : m.renumber r = { m with name := m.name.renumber r } := by
  refine (closed_leafModule hq hm []).renumber_eq fun x hx => ?_
  obtain ⟨b, hb, rfl⟩ := leafModule_eq_ok.1 hm
  obtain ⟨-, -, howner⟩ := Circuit.names_ofKind hb
  obtain hx | hx := List.mem_append.1 hx
  · obtain ⟨j, -, rfl | rfl⟩ := Workspace.mem_parameters.1 hx <;> rfl
  · exact Name.renumber_of_owner (howner x hx)

namespace Workspace
variable {s : Sizes} {graph : Graph} {supply : Supply} {n : Node}

theorem circuitModule_move {c : Circuit} (hq : 0 < s.queue) (hc : Circuit.ofKind s n.kind = .ok c) :
    circuitModule (n.move o) c = (circuitModule n c).renumber o.renumbering := by
  have hm : n.leafModule s = .ok (circuitModule n c) := by
    rw [Node.leafModule, hc]
    rfl
  rw [Node.renumber_leafModule hq hm, circuitModule, moduleName_move, Node.inputArity_move]
  rfl

theorem feed_move {j : Nat} {wire : Wire} (h : feed graph supply n j = .ok wire) :
    feed (graph.move o) (moveSupply o supply) (n.move o) j = .ok (moveWire o wire) := by
  have hsupply : (moveSupply o supply).lookup ((n.move o).id, j) = (supply.lookup (n.id, j)).map (moveWire o) :=
    lookup_map (l := supply) (k := (n.id, j)) (moveSlot o) (moveWire o) fun _ _ h => moveSlot_injective h
  rw [feed, graph.incoming?_move, hsupply]
  rw [feed] at h
  cases hc : graph.incoming? n j with
  | some c =>
    rw [hc] at h
    obtain rfl := Except.ok.inj h
    rfl
  | none =>
    rw [hc] at h
    cases hlookup : supply.lookup (n.id, j) with
    | some wire' =>
      rw [hlookup] at h
      obtain rfl := Except.ok.inj h
      rfl
    | none =>
      rw [hlookup] at h
      cases h

theorem arguments_move {args : List Ref} (h : arguments graph supply n = .ok args) :
    arguments (graph.move o) (moveSupply o supply) (n.move o) = .ok (args.map (Ref.renumber o.renumbering)) := by
  obtain ⟨wires, hwires, hargs⟩ := bind_eq_ok_iff.1 h
  obtain rfl := Except.ok.inj hargs
  have hmoved : ((List.range n.inputArity).map id).mapM (feed (graph.move o) (moveSupply o supply) (n.move o)) =
      .ok (wires.map (moveWire o)) := mapM_map_eq_ok hwires fun j _ wire hwire => feed_move hwire
  rw [List.map_id] at hmoved
  rw [arguments, Node.inputArity_move]
  refine bind_eq_ok_iff.2 ⟨_, hmoved, ?_⟩
  rw [List.flatMap_map, List.map_flatMap]
  rfl

theorem groupSupply_move (inner : Graph) : groupSupply (inner.move o) = moveSupply o (groupSupply inner) := by
  simp only [groupSupply, moveSupply, Graph.move, List.map_map]
  rfl

theorem pipeSupply_move (graph : Graph) : pipeSupply (graph.move o) = moveSupply o (pipeSupply graph) := by
  simp only [pipeSupply, moveSupply, Graph.move, List.map_map]
  rfl

theorem groupOutputs_move (inner : Graph) (arity : Nat) : groupOutputs (inner.move o) arity =
    (groupOutputs inner arity).map fun (x, e) => (x.renumber o.renumbering, e.renumber o.renumbering) := by
  rw [groupOutputs, groupOutputs, List.map_flatMap]
  refine List.flatMap_congr fun index _ => ?_
  have hexit : (inner.move o).exits.lookup index = (inner.exits.lookup index).map (Port.move o) :=
    inner.association_move .output index
  rw [hexit]
  cases inner.exits.lookup index <;> rfl

theorem map_declaration_renumberAll (r : Renumbering) (parts : List Instance) :
    (Instance.renumberAll r parts).map Instance.declaration =
      (parts.map Instance.declaration).map (Declaration.renumber r) := by
  rw [Instance.renumberAll_eq_map, List.map_map, List.map_map]
  exact List.map_congr_left fun i _ => i.declaration_renumber

theorem groupModule_move (n : Node) (inner : Graph) (parts : List Instance) :
    groupModule (n.move o) (inner.move o) (Instance.renumberAll o.renumbering parts) =
      (groupModule n inner parts).renumber o.renumbering := by
  rw [groupModule, groupModule, moduleName_move, Node.inputArity_move, Node.outputArity_move, groupOutputs_move,
    map_declaration_renumberAll, Module.renumber, parameters_renumber]
  rfl

/-! ### Answers -/

variable {w w' : Workspace}

theorem Moved.typeWithin_move (h : Moved o w w') (side : Side) (fuel : Nat) (n : Node) (p : Nat) :
    w'.typeWithin side fuel (n.move o) p = w.typeWithin side fuel n p := by
  induction fuel generalizing n p with
  | zero => rw [typeWithin, typeWithin, declared_move]
  | succ fuel ih =>
    rw [typeWithin, typeWithin, declared_move, n.inner?_move]
    cases hinner : n.inner? with
    | none => rfl
    | some inner =>
      have hport := (w.graph inner).association_move (o := o) side p
      rw [← h inner] at hport
      simp only [Option.map_some, hport]
      cases ((w.graph inner).associations side).lookup p with
      | none => rfl
      | some q => exact ih q.node q.index

theorem Moved.countWithin_move (h : Moved o w w') (fuel : Nat) (n : Node) :
    w'.countWithin fuel (n.move o) = w.countWithin fuel n := by
  induction fuel generalizing n with
  | zero => rfl
  | succ fuel ih =>
    have hchildren : w'.children (n.move o) = (w.children n).map (Node.move o) := by
      rw [children, children, n.inner?_move, n.processors_move]
      cases n.inner? with
      | none => rfl
      | some inner => exact congrArg Graph.nodes (h inner)
    rw [countWithin, countWithin, hchildren, List.map_map]
    exact congrArg (fun counts => 1 + total counts) (List.map_congr_left fun m _ => ih m)

theorem Moved.instances_move (h : Moved o w w') (hq : 0 < s.queue) {fuel : Nat} {g : GraphId} {parts : List Instance}
    (hparts : instances w s fuel g supply = .ok parts) :
    instances w' s fuel (o.graph + g) (moveSupply o supply) = .ok (Instance.renumberAll o.renumbering parts) := by
  induction fuel generalizing g supply parts with
  | zero => nomatch hparts
  | succ fuel ih =>
    rw [instances, h g, Instance.renumberAll_eq_map]
    refine mapM_map_eq_ok hparts fun n hn i hi => ?_
    rw [n.inner?_move]
    cases hinner : n.inner? with
    | none =>
      simp only [hinner] at hi
      obtain ⟨c, hc, hi⟩ := bind_eq_ok_iff.1 hi
      obtain ⟨args, hargs, hi⟩ := bind_eq_ok_iff.1 hi
      obtain rfl := Except.ok.inj hi
      refine bind_eq_ok_iff.2 ⟨c, Circuit.ofKind_move hc, bind_eq_ok_iff.2 ⟨_, arguments_move hargs, ?_⟩⟩
      rw [circuitModule_move hq hc]
      rfl
    | some inner =>
      simp only [hinner] at hi
      obtain ⟨inside, hinside, hi⟩ := bind_eq_ok_iff.1 hi
      obtain ⟨args, hargs, hi⟩ := bind_eq_ok_iff.1 hi
      obtain rfl := Except.ok.inj hi
      have hmoved := ih hinside
      rw [← groupSupply_move, ← h inner] at hmoved
      refine bind_eq_ok_iff.2 ⟨_, hmoved, bind_eq_ok_iff.2 ⟨_, arguments_move hargs, ?_⟩⟩
      rw [h inner, groupModule_move]
      rfl

theorem mainModule_move {parts : List Instance}
    (htypes : ∀ side, ∀ e ∈ graph.externals side, w'.typeOf side (e.port.move o) = w.typeOf side e.port) :
    w'.mainModule s (graph.move o) (Instance.renumberAll o.renumbering parts) =
      (w.mainModule s graph parts).renumber o.renumbering := by
  have hpipes (side : Side) (value fire : Int → Name)
      (hvalue : ∀ p, (value p).renumber o.renumbering = value (o.pipe + p))
      (hfire : ∀ p, (fire p).renumber o.renumbering = fire (o.pipe + p)) :
      (((graph.move o).externals side).flatMap fun e =>
        [Declaration.mk (value e.pipe) (w'.pipeType s side e), ⟨fire e.pipe, .scalar .boolean⟩]) =
      ((graph.externals side).flatMap fun e => [Declaration.mk (value e.pipe) (w.pipeType s side e),
        ⟨fire e.pipe, .scalar .boolean⟩]).map (Declaration.renumber o.renumbering) := by
    have hexternals : (graph.move o).externals side = (graph.externals side).map (External.move o) := by
      cases side <;> rfl
    rw [hexternals, List.flatMap_map, List.map_flatMap]
    refine List.flatMap_congr fun e he => ?_
    have htype : w'.pipeType s side (e.move o) = w.pipeType s side e :=
      congrArg (fun type => VarType.scalar (s.scalar type)) (htypes side e he)
    simp only [List.map_cons, List.map_nil, Declaration.renumber, hvalue, hfire, htype]
    rfl
  have hinputs := hpipes .input .pipeInValue .pipeInFire (fun _ => rfl) fun _ => rfl
  have houtputs := hpipes .output .pipeOutValue .pipeOutFire (fun _ => rfl) fun _ => rfl
  have hassigns : (w'.mainModule s (graph.move o) (Instance.renumberAll o.renumbering parts)).assigns =
      (w.mainModule s graph parts).assigns.map (Assign.renumber o.renumbering) := by
    simp only [mainModule, Graph.move, List.flatMap_map, List.map_flatMap]
    rfl
  simp only [Graph.externals] at hinputs houtputs
  rw [Module.renumber, ← hassigns]
  simp only [mainModule, hinputs, houtputs, map_declaration_renumberAll, List.map_append, List.map_nil, ModuleName.renumber]

theorem Moved.compile_move {g : GraphId} {around : List Node} {m m' : Model} (h : Moved o w w') (hq : 0 < s.queue)
    (halike : w.Alike w w.depth w'.depth g) (hwired : w.WiredThroughout g around) (hm : w.compile s g = .ok m)
    (hm' : w'.compile s (o.graph + g) = .ok m') : m' = m.renumber o.renumbering := by
  obtain ⟨-, hparts, hmain⟩ := compile_eq_ok hm
  obtain ⟨-, hparts', hmain'⟩ := compile_eq_ok hm'
  have hdepth : w.instances s w'.depth g (pipeSupply (w.graph g)) = .ok m.parts := (halike.instances_eq _).trans hparts
  have hmoved := h.instances_move hq hdepth
  rw [← pipeSupply_move, ← h g, hparts'] at hmoved
  have htypes : ∀ side, ∀ e ∈ (w.graph g).externals side, w'.typeOf side (e.port.move o) = w.typeOf side e.port := by
    intro side e he
    have hmember := (hwired.top.wired side).member _ (Graph.external_mem_uses around side he)
    exact (h.typeWithin_move side _ _ _).trans (halike.typeWithin_eq side hwired hmember.1 e.port.index)
  have hparts := Except.ok.inj hmoved
  rw [h g, hparts, mainModule_move htypes, ← hmain] at hmain'
  cases m'
  exact congrArg₂ Model.mk hmain' hparts

theorem Moved.count_move {g : GraphId} (h : Moved o w w') (halike : w.Alike w (w.depth + 1) (w'.depth + 1) g) :
    w'.count (o.graph + g) = w.count g := by
  rw [count, count, h g]
  refine congrArg total (List.map_map.trans (List.map_congr_left fun n hn => ?_))
  exact (h.countWithin_move _ n).trans (halike.countWithin_eq hn)

end Workspace
end Network
end StreamCheck
