import StreamCheck.Proofs.Network.Change
import StreamCheck.Proofs.Network.Wiring

/-! What feeds what, in every state that calls lead to: nodes and pipes are numbered in the order in which
they are made, and the bindings of each graph are exactly its wiring. -/

namespace StreamCheck.Network
open Workspace
open scoped List

namespace Graph

def pipes (g : Graph) : List PipeId := (g.inputs ++ g.outputs).map External.pipe

theorem externals_publish (g : Graph) (side : Side) (e : External) (other : Side) :
    (g.publish side e).externals other = g.externals other ++ if other = side then [e] else [] := by
  cases side <;> cases other <;> simp [publish, Graph.bind, Graph.expose, externals]

theorem pipes_publish (g : Graph) (side : Side) (e : External) :
    (g.publish side e).pipes ~ e.pipe :: g.pipes := by
  have hpipes (g : Graph) : g.pipes =
      (g.externals .input).map External.pipe ++ (g.externals .output).map External.pipe :=
    List.map_append
  rw [hpipes, hpipes, externals_publish, externals_publish]
  cases side with
  | input => simp
  | output => simp [← List.append_assoc]

end Graph

namespace Session
variable {s s' : Session}

/-- Nodes are numbered as they are made, graphs hold only nodes that were made, and no two groups share an
inner graph. -/
structure Numbered (s : Session) : Prop where
  increasing : s.nodes.Pairwise fun a b => a.id < b.id
  id_lt : ∀ n ∈ s.nodes, n.id < s.workspace.nextNode
  inner_lt : ∀ n ∈ s.nodes, ∀ g, n.inner? = some g → g < s.workspace.graphs.length
  around : ∀ g, (s.groupsAround g).length ≤ 1
  member : ∀ g, ∀ n ∈ (s.workspace.graph g).nodes, n ∈ s.nodes

theorem Numbered.eq_of_id_eq (h : s.Numbered) {a b : Node} (ha : a ∈ s.nodes) (hb : b ∈ s.nodes)
    (hid : a.id = b.id) : a = b := by
  have hinj := List.pairwise_iff_getElem.1 h.increasing
  obtain ⟨i, hi, rfl⟩ := List.mem_iff_getElem.1 ha
  obtain ⟨j, hj, rfl⟩ := List.mem_iff_getElem.1 hb
  obtain hlt | heq | hgt := Nat.lt_trichotomy i j
  · exact absurd hid (Nat.ne_of_lt (hinj i j hi hj hlt))
  · subst heq
    rfl
  · exact absurd hid.symm (Nat.ne_of_lt (hinj j i hj hi hgt))

theorem Numbered.mem_of_contains (h : s.Numbered) {g : GraphId} {n : Node} (hn : n ∈ s.nodes)
    (hmem : (s.workspace.graph g).contains n = true) : n ∈ (s.workspace.graph g).nodes := by
  obtain ⟨m, hm, hid⟩ := List.mem_map.1 (Graph.contains_iff.1 hmem)
  rwa [← h.eq_of_id_eq (h.member g m hm) hn hid]

theorem Numbered.groupsAround_eq (h : s.Numbered) {g : GraphId} {group : Node} (hgroup : group ∈ s.nodes)
    (hinner : group.inner? = some g) : s.groupsAround g = [group] := by
  have hmem : group ∈ s.groupsAround g := List.mem_filter.2 ⟨hgroup, by simp [hinner]⟩
  match hs : s.groupsAround g, h.around g with
  | [], _ => simp [hs] at hmem
  | [m], _ => rw [hs, List.mem_singleton] at hmem; rw [hmem]

theorem Numbered.groupsAround_length (h : s.Numbered) :
    s.groupsAround s.workspace.graphs.length = [] := by
  refine List.filter_eq_nil_iff.2 fun n hn => ?_
  rw [beq_iff_eq]
  exact fun hg => Nat.lt_irrefl _ (h.inner_lt n hn _ hg)

theorem groupsAround_append (s : Session) (w : Workspace) (n : Node) (g : GraphId) (pipes : List PipeId) :
    (Session.mk w (s.nodes ++ [n]) pipes).groupsAround g =
      s.groupsAround g ++ if n.inner? = some g then [n] else [] := by
  by_cases hn : n.inner? = some g <;> simp [groupsAround, List.filter_append, hn]

theorem numbered_empty : ({} : Session).Numbered := by
  refine ⟨.nil, ?_, ?_, fun _ => Nat.zero_le _, ?_⟩
  · exact fun n hn => nomatch hn
  · exact fun n hn => nomatch hn
  · exact fun g n hn => by simp [graph, default] at hn

theorem Numbered.frame (h : s.Numbered) (hnodes : s'.nodes = s.nodes)
    (hnext : s.workspace.nextNode ≤ s'.workspace.nextNode)
    (hlength : s.workspace.graphs.length ≤ s'.workspace.graphs.length)
    (hmember : ∀ g, ∀ n ∈ (s'.workspace.graph g).nodes, n ∈ s.nodes) : s'.Numbered := by
  constructor
  · rw [hnodes]
    exact h.increasing
  · rw [hnodes]
    exact fun n hn => Nat.lt_of_lt_of_le (h.id_lt n hn) hnext
  · rw [hnodes]
    exact fun n hn g hg => Nat.lt_of_lt_of_le (h.inner_lt n hn g hg) hlength
  · simp only [groupsAround, hnodes]
    exact h.around
  · rw [hnodes]
    exact hmember

theorem Numbered.append (h : s.Numbered) {n : Node} (hid : n.id = s.workspace.nextNode)
    (hnodes : s'.nodes = s.nodes ++ [n]) (hnext : s'.workspace.nextNode = s.workspace.nextNode + 1)
    (hlength : s.workspace.graphs.length ≤ s'.workspace.graphs.length)
    (hinner : ∀ g, n.inner? = some g → s.groupsAround g = [] ∧ g < s'.workspace.graphs.length)
    (hmember : ∀ g, ∀ m ∈ (s'.workspace.graph g).nodes, m ∈ s.nodes) : s'.Numbered := by
  constructor
  · rw [hnodes]
    refine List.pairwise_append.2 ⟨h.increasing, List.pairwise_singleton _ _, fun m hm n' hn' => ?_⟩
    rw [List.mem_singleton.1 hn', hid]
    exact h.id_lt m hm
  · rw [hnodes, hnext]
    intro m hm
    obtain hm | hm := List.mem_append.1 hm
    · exact Nat.lt_succ_of_lt (h.id_lt m hm)
    · rw [List.mem_singleton.1 hm, hid]
      exact Nat.lt_succ_self _
  · rw [hnodes]
    intro m hm g hg
    obtain hm | hm := List.mem_append.1 hm
    · exact Nat.lt_of_lt_of_le (h.inner_lt m hm g hg) hlength
    · rw [List.mem_singleton.1 hm] at hg
      exact (hinner g hg).2
  · intro g
    rw [groupsAround, hnodes, List.filter_append, List.length_append]
    by_cases hg : n.inner? = some g
    · have hnone := (hinner g hg).1
      rw [groupsAround] at hnone
      simp [hnone, hg]
    · have hone := h.around g
      rw [groupsAround] at hone
      simpa [hg] using hone
  · rw [hnodes]
    exact fun g m hm => List.mem_append_left _ (hmember g m hm)

theorem Numbered.change (h : s.Numbered) (hs : s.Change s') : s'.Numbered := by
  have hold (w : Workspace) (new : Graph) (hw : w.graphs = s.workspace.graphs) (hnew : new.nodes = []) :
      ∀ g, ∀ n ∈ ({ w with graphs := w.graphs ++ [new] }.graph g).nodes, n ∈ s.nodes :=
    forall_graph_append (P := fun _ graph => ∀ n ∈ graph.nodes, n ∈ s.nodes)
      (fun g _ => by rw [graph, hw]; exact h.member g)
      (by rw [hnew]; exact fun n hn => absurd hn List.not_mem_nil)
  have hmodify (w : Workspace) (g : GraphId) (f : Graph → Graph) (hw : w.graphs = s.workspace.graphs)
      (hf : ∀ n ∈ (f (w.graph g)).nodes, n ∈ s.nodes) :
      ∀ g', ∀ n ∈ ((w.modify g f).graph g').nodes, n ∈ s.nodes :=
    forall_graph_modify (P := fun _ graph => ∀ n ∈ graph.nodes, n ∈ s.nodes)
      (fun g => by rw [graph, hw]; exact h.member g) fun _ => hf
  -- only `node` and `group` make a node, and only `extend` puts nodes into a graph
  cases hs with
  | skip node pipe hnode hpipe => exact h.frame rfl hnode (Nat.le_refl _) h.member
  | graph hd hq =>
    exact h.frame rfl (Nat.le_refl _) (by simp) (hold _ _ rfl rfl)
  | node k hk => exact h.append rfl rfl rfl (Nat.le_refl _) (fun g hg => by simp [hk] at hg) h.member
  | group hd hq ins outs =>
    refine h.append rfl rfl rfl (by simp) (fun g hg => ?_) (hold _ _ rfl rfl)
    obtain rfl : s.workspace.graphs.length = g := by simpa [Node.inner?] using hg
    exact ⟨h.groupsAround_length, by simp⟩
  | extend g ns hns hext =>
    refine h.frame rfl (Nat.le_refl _) (by simp) (hmodify _ _ _ rfl fun n hn => ?_)
    obtain hn | hn := List.mem_append.1 hn
    · exact h.member g n hn
    · exact hns n hn
  | wire g c hc hconnect =>
    exact h.frame rfl (Nat.le_refl _) (by simp) (hmodify _ _ _ rfl (h.member g))
  | publish g side p hp hbind =>
    refine h.frame rfl (Nat.le_refl _) (by simp) (hmodify _ _ _ rfl ?_)
    rw [Graph.nodes_publish]
    exact h.member g
  | attach group g side index p hgroup hp hattach =>
    refine h.frame rfl (Nat.le_refl _) (by simp) (hmodify _ _ _ rfl ?_)
    rw [Graph.nodes_attach]
    exact h.member g
  | freeze g =>
    refine freeze_induction (Q := fun w => ({ s with workspace := w } : Session).Numbered) ?_ h g
    intro w g h
    exact h.frame rfl (Nat.le_refl _) (by simp)
      (forall_graph_modify (P := fun _ graph => ∀ n ∈ graph.nodes, n ∈ s.nodes) h.member id)

/-! ### Graphs stay fed -/

def Fed (s : Session) : Prop := ∀ g, (s.workspace.graph g).Fed (s.groupsAround g)

theorem fed_empty : ({} : Session).Fed :=
  fun _ => Graph.Fed.blank Nat.one_pos Nat.one_pos []

theorem Numbered.mem_of_bindable (h : s.Numbered) {g : GraphId} {side : Side} {p : Port}
    (hp : p.node ∈ s.nodes) (hbind : Bindable s.workspace g side p) :
    p.node ∈ (s.workspace.graph g).nodes ∧ p.index < p.node.arity side :=
  ⟨h.mem_of_contains hp hbind.member, hbind.index_lt⟩

theorem Fed.change (h : s.Fed) (hnum : s.Numbered) (hs : s.Change s') : s'.Fed := by
  have hmodify (w : Workspace) (g : GraphId) (f : Graph → Graph) (hw : w.graphs = s.workspace.graphs)
      (hf : (w.graph g).Fed (s.groupsAround g) → (f (w.graph g)).Fed (s.groupsAround g)) :
      ∀ g', ((w.modify g f).graph g').Fed (s.groupsAround g') :=
    forall_graph_modify (P := fun g graph => graph.Fed (s.groupsAround g))
      (fun g => by rw [graph, hw]; exact h g) hf
  cases hs with
  | skip node pipe hnode hpipe => exact h
  | graph hd hq =>
    exact forall_graph_append (P := fun g graph => graph.Fed (s.groupsAround g)) (fun g _ => h g)
      (.blank hd hq _)
  | node k hk =>
    intro g
    rw [groupsAround_append, if_neg (by simp [hk]), List.append_nil]
    exact h g
  | group hd hq ins outs =>
    refine forall_graph_append (P := fun g graph => graph.Fed (groupsAround ⟨_, _, _⟩ g))
      (fun g hg => ?_) (.blank hd hq _)
    rw [groupsAround_append, if_neg (by simpa [Node.inner?] using hg.symm), List.append_nil]
    exact h g
  | extend g ns hns hext => exact hmodify _ _ _ rfl fun hg => hg.extend hext
  | wire g c hc hconnect =>
    refine hmodify _ _ _ rfl fun hg => hg.wire ?_ ?_
    · rintro (_ | _)
      · exact hconnect.destination.free
      · exact hconnect.source.free
    · rintro (_ | _)
      · exact hnum.mem_of_bindable (hc .input) hconnect.destination
      · exact hnum.mem_of_bindable (hc .output) hconnect.source
  | publish g side p hp hbind =>
    exact hmodify _ _ _ rfl fun hg => hg.publish hbind.free (hnum.mem_of_bindable hp hbind)
  | attach group g side index p hgroup hp hattach =>
    refine hmodify _ _ _ rfl fun hg => ?_
    -- the group that the call is made on is the only one around its inner graph
    rw [hnum.groupsAround_eq hgroup hattach.inner] at hg ⊢
    exact hg.attach hattach.index_lt hattach.unassociated hattach.port.free
      (hnum.mem_of_bindable hp hattach.port)
  | freeze g =>
    refine freeze_induction (Q := fun w => ({ s with workspace := w } : Session).Fed) ?_ h g
    intro w g h
    exact forall_graph_modify (P := fun g graph => graph.Fed (s.groupsAround g)) h fun hg => hg.freeze true

/-! ### Pipes -/

/-- Pipes are numbered as they are given out, each is the number of one exposed port, and each graph lists
its exposed ports in the order of their pipes. -/
structure Piped (s : Session) : Prop where
  increasing : s.pipes.Pairwise (· < ·)
  pipe_lt : ∀ p ∈ s.pipes, p < s.workspace.nextPipe
  perm : s.workspace.graphs.flatMap Graph.pipes ~ s.pipes
  ordered : ∀ g side, ((s.workspace.graph g).externals side).map External.pipe <+ s.pipes

theorem piped_empty : ({} : Session).Piped :=
  ⟨.nil, (fun _ hp => nomatch hp), .nil, fun g side => by cases side <;> exact .slnil⟩

theorem Piped.frame (h : s.Piped) (hpipes : s'.pipes = s.pipes)
    (hnext : s.workspace.nextPipe ≤ s'.workspace.nextPipe)
    (hperm : s'.workspace.graphs.flatMap Graph.pipes = s.workspace.graphs.flatMap Graph.pipes)
    (hordered : ∀ g side, (s'.workspace.graph g).externals side = (s.workspace.graph g).externals side) :
    s'.Piped := by
  constructor
  · rw [hpipes]
    exact h.increasing
  · rw [hpipes]
    exact fun p hp => Nat.lt_of_lt_of_le (h.pipe_lt p hp) hnext
  · rw [hpipes, hperm]
    exact h.perm
  · intro g side
    rw [hpipes, hordered]
    exact h.ordered g side

theorem Piped.modify (h : s.Piped) (g : GraphId) {f : Graph → Graph}
    (hf : ∀ graph side, (f graph).externals side = graph.externals side) :
    ({ s with workspace := s.workspace.modify g f } : Session).Piped := by
  refine h.frame rfl (Nat.le_refl _) (flatMap_modify_congr _ _ fun graph => ?_) ?_
  · exact congrArg₂ (fun is os => (is ++ os).map External.pipe) (hf graph .input) (hf graph .output)
  · exact forall_graph_modify
      (P := fun g graph => ∀ side, graph.externals side = (s.workspace.graph g).externals side)
      (fun _ _ => rfl) fun _ => hf _

theorem Piped.append (h : s.Piped) {w : Workspace} (nodes : List Node) {domain queue : Nat}
    (hd : 0 < domain) (hq : 0 < queue) (hw : w.graphs = s.workspace.graphs)
    (hnext : w.nextPipe = s.workspace.nextPipe) :
    (Session.mk { w with graphs := w.graphs ++ [.blank hd hq] } nodes s.pipes).Piped := by
  refine h.frame rfl (Nat.le_of_eq hnext.symm) ?_ ?_
  · simp [hw, Graph.pipes, Graph.blank]
  · refine forall_graph_append
      (P := fun g graph => ∀ side, graph.externals side = (s.workspace.graph g).externals side) ?_ ?_
    · intro g _ side
      rw [graph, graph, hw]
    · intro side
      rw [hw, graph, List.getD_eq_default _ _ (Nat.le_refl _)]
      cases side <;> rfl

theorem Piped.publish (h : s.Piped) {g : GraphId} (hg : g < s.workspace.graphs.length) (side : Side)
    (p : Port) :
    (Session.mk
      ({ s.workspace with nextPipe := s.workspace.nextPipe + 1 }.modify g
        (·.publish side ⟨s.workspace.nextPipe, p⟩))
      s.nodes (s.pipes ++ [s.workspace.nextPipe])).Piped := by
  constructor
  · refine List.pairwise_append.2 ⟨h.increasing, List.pairwise_singleton _ _, fun q hq r hr => ?_⟩
    rw [List.mem_singleton.1 hr]
    exact h.pipe_lt q hq
  · intro q hq
    obtain hq | hq := List.mem_append.1 hq
    · exact Nat.lt_succ_of_lt (h.pipe_lt q hq)
    · rw [List.mem_singleton.1 hq]
      exact Nat.lt_succ_self _
  · refine .trans (flatMap_modify_perm (a := s.workspace.nextPipe) hg ?_) ?_
    · exact Graph.pipes_publish _ side _
    · exact (h.perm.cons _).trans (List.perm_append_singleton _ _).symm
  · refine forall_graph_modify (P := fun _ graph => ∀ side,
      (graph.externals side).map External.pipe <+ s.pipes ++ [s.workspace.nextPipe]) ?_ ?_
    · exact fun g side => (h.ordered g side).trans (List.sublist_append_left _ _)
    · intro _ other
      rw [Graph.externals_publish, List.map_append]
      refine (h.ordered g other).append ?_
      by_cases hside : other = side <;> simp [hside]

theorem Piped.change (h : s.Piped) (hs : s.Change s') : s'.Piped := by
  cases hs with
  | skip node pipe hnode hpipe => exact h.frame rfl hpipe rfl fun _ _ => rfl
  | graph hd hq => exact h.append s.nodes hd hq rfl rfl
  | node k hk => exact h.frame rfl (Nat.le_refl _) rfl fun _ _ => rfl
  | group hd hq ins outs =>
    exact h.append (w := { s.workspace with nextNode := s.workspace.nextNode + 1 }) _ hd hq rfl rfl
  | extend g ns hns hext => exact h.modify g fun _ side => by cases side <;> rfl
  | wire g c hc hconnect => exact h.modify g fun _ side => by cases side <;> rfl
  | publish g side p hp hbind => exact h.publish (lt_of_contains hbind.member) side p
  | attach group g side index p hgroup hp hattach =>
    exact h.modify g fun _ other => by cases side <;> cases other <;> rfl
  | freeze g =>
    refine freeze_induction (Q := fun w => ({ s with workspace := w } : Session).Piped) ?_ h g
    intro w g h
    exact h.modify g fun _ side => by cases side <;> rfl

/-! ### Every session -/

/-- All that calls keep true of a session. -/
structure Sound (s : Session) : Prop where
  numbered : s.Numbered
  fed : s.Fed
  piped : s.Piped

theorem Sound.perform (h : s.Sound) (c : Call) : (s.perform c).Sound := by
  have hs := change_perform s c
  exact ⟨h.numbered.change hs, h.fed.change h.numbered hs, h.piped.change hs⟩

theorem Sound.performAll (h : s.Sound) (cs : List Call) : (s.performAll cs).Sound := by
  induction cs generalizing s with
  | nil => exact h
  | cons c cs ih => exact ih (h.perform c)

theorem sound_performAll (cs : List Call) : (({} : Session).performAll cs).Sound :=
  Sound.performAll ⟨numbered_empty, fed_empty, piped_empty⟩ cs

/-- After any calls, failed ones included: nodes and pipes are numbered in the order of their making;
a graph holds no node twice; its bindings on either side are, one for one, its connections at their
endpoints, its exposed ports and the associations of the one group that it is inside of; each is at
an existing port of a member, and no port has two. -/
theorem performAll_feeding (cs : List Call) (g : GraphId) (side : Side) :
    let s := ({} : Session).performAll cs
    let graph := s.workspace.graph g
    s.nodes.Pairwise (fun a b => a.id < b.id) ∧ s.pipes.Pairwise (· < ·) ∧
      s.workspace.graphs.flatMap Graph.pipes ~ s.pipes ∧
      (graph.externals side).map External.pipe <+ s.pipes ∧
      (∀ n ∈ graph.nodes, n ∈ s.nodes) ∧ (graph.nodes.map Node.id).Nodup ∧
      (s.groupsAround g).length ≤ 1 ∧ (s.groupsAround g = [] → graph.associations side = []) ∧
      graph.bindings side ~ (graph.uses (s.groupsAround g) side).map (fun u => (u.1.slot, u.2)) ∧
      (∀ b ∈ graph.bindings side, ∃ n ∈ graph.nodes, n.id = b.1.1 ∧ b.1.2 < n.arity side) ∧
      ((graph.uses (s.groupsAround g) side).map fun u => u.1.slot).Nodup := by
  intro s graph
  obtain ⟨hnum, hfed, hpiped⟩ : s.Sound := sound_performAll cs
  have hwired := (hfed g).wired side
  refine ⟨hnum.increasing, hpiped.increasing, hpiped.perm, hpiped.ordered g side, hnum.member g,
    (hfed g).distinct, hnum.around g, fun hnone => (hfed g).inside hnone side, hwired.perm, ?_,
    hwired.uses_nodup⟩
  intro b hb
  obtain ⟨u, hu, rfl⟩ := List.mem_map.1 (hwired.perm.mem_iff.1 hb)
  obtain ⟨hmem, hlt⟩ := hwired.member u hu
  exact ⟨u.1.node, hmem, rfl, hlt⟩

end Session
end StreamCheck.Network
