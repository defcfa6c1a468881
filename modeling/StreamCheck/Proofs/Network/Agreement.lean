import Mathlib.Data.List.Induction
import StreamCheck.Proofs.Network.PortTypes
import StreamCheck.Proofs.Network.Sealing

/-! When the two ends of a connection are of one type. They are as the connection is made, and no call
but one that associates a port which one of them stands for makes a difference afterwards. -/

namespace StreamCheck.Network
open Workspace

theorem PortType.eq_of_ne {t t' : PortType} (h : t ≠ .integer) (h' : t' ≠ .integer) : t = t' := by
  cases t with
  | integer => exact absurd rfl h
  | boolean =>
    cases t' with
    | integer => exact absurd rfl h'
    | boolean => rfl

/-! ### What calls change -/

def Graph.KeepsNodes (g g' : Graph) : Prop := g.nodes ⊆ g'.nodes

structure Graph.SameLinks (g g' : Graph) : Prop where
  connections : g'.connections = g.connections
  associations : ∀ side, g'.associations side = g.associations side

namespace Workspace
variable {R : Graph → Graph → Prop}

theorem related_modify (hself : ∀ graph, R graph graph) {f : Graph → Graph} (hf : ∀ graph, R graph (f graph))
    (w : Workspace) (g g' : GraphId) : R (w.graph g') ((w.modify g f).graph g') :=
  forall_graph_modify (P := fun g graph => R (w.graph g) graph) (fun _ => hself _) (fun _ => hf _) g'

theorem related_append (hself : ∀ graph, R graph graph) {new : Graph} (hnew : R default new) (w : Workspace)
    (g : GraphId) : R (w.graph g) ({ w with graphs := w.graphs ++ [new] }.graph g) := by
  refine forall_graph_append (P := fun g graph => R (w.graph g) graph) (fun _ _ => hself _) ?_ g
  rw [graph, List.getD_eq_default _ _ (Nat.le_refl _)]
  exact hnew

theorem related_freeze (hmark : ∀ graph frozen, R graph { graph with frozen := frozen }) (w : Workspace)
    (g g' : GraphId) : R (w.graph g') ((w.freeze g).graph g') := by
  obtain ⟨frozen, hgraph⟩ := (SameButFrozen.freeze w g).graph_eq g'
  rw [hgraph]
  exact hmark _ _

theorem connections_wire (w : Workspace) (g g' : GraphId) (c : Connection) :
    (w.graph g').connections ⊆ ((w.modify g (·.wire c)).graph g').connections ∧
      ∀ c' ∈ ((w.modify g (·.wire c)).graph g').connections, c' ∈ (w.graph g').connections ∨ c' = c := by
  refine related_modify (R := fun graph graph' => graph.connections ⊆ graph'.connections ∧
    ∀ c' ∈ graph'.connections, c' ∈ graph.connections ∨ c' = c) (f := (·.wire c))
    (fun _ => ⟨List.Subset.refl _, fun _ => .inl⟩) (fun graph => ⟨List.subset_append_left _ _, ?_⟩) w g g'
  intro c' hc'
  exact (List.mem_append.1 hc').imp_right List.mem_singleton.1

end Workspace

namespace Session
variable {s s' : Session} {g inner : GraphId} {side : Side} {p q r : Port} {c : Connection} {call : Call}

theorem Change.keepsNodes (hs : s.Change s') (g : GraphId) :
    (s.workspace.graph g).KeepsNodes (s'.workspace.graph g) := by
  have hself (graph : Graph) : graph.KeepsNodes graph := List.Subset.refl _
  have hblank {domain queue : Nat} (hd : 0 < domain) (hq : 0 < queue) :
      Graph.KeepsNodes default (.blank hd hq) := List.nil_subset _
  cases hs with
  | skip node pipe hnode hpipe => exact hself _
  | graph hd hq => exact related_append hself (hblank hd hq) _ g
  | node k hk => exact hself _
  | group hd hq ins outs => exact related_append hself (hblank hd hq) { s.workspace with nextNode := _ } g
  | extend g' ns hns hext => exact related_modify hself (fun graph => List.subset_append_left _ ns) _ g' g
  | wire g' c hc hconnect => exact related_modify (f := (·.wire c)) hself hself _ g' g
  | publish g' side p hp hbind =>
    refine related_modify hself (fun graph => ?_) { s.workspace with nextPipe := _ } g' g
    rw [Graph.KeepsNodes, Graph.nodes_publish]
    exact List.Subset.refl _
  | attach group g' side index p hgroup hp hattach =>
    refine related_modify hself (fun graph => ?_) _ g' g
    rw [Graph.KeepsNodes, Graph.nodes_attach]
    exact List.Subset.refl _
  | freeze g' => exact related_freeze (fun graph _ => hself graph) _ g' g

theorem Change.within (hs : s.Change s') {place : List Node} (h : s.workspace.Within g place inner) :
    s'.workspace.Within g place inner := by
  induction h with
  | top => exact .top
  | inside _ hmem hinner ih => exact ih.inside (hs.keepsNodes _ hmem) hinner

theorem Change.grounded (hs : s.Change s') (hg : s'.workspace.Grounded g) : s.workspace.Grounded g := by
  rintro place inner hplace ⟨group, circle, hcircle⟩
  exact hg place inner (hs.within hplace) ⟨group, circle, hs.within hcircle⟩

theorem Change.links (hs : s.Change s') :
    (∀ g, (s.workspace.graph g).SameLinks (s'.workspace.graph g)) ∨
    (∃ g c, Build.Connectable s.workspace g c ∧ s'.workspace = s.workspace.modify g (·.wire c)) ∨
    ∃ group inner side index q, group ∈ s.nodes ∧ q.node ∈ s.nodes ∧
      Build.Attachable s.workspace group inner side index q ∧
      s'.workspace = s.workspace.modify inner (·.attach group side index q) := by
  have hself (graph : Graph) : graph.SameLinks graph := ⟨rfl, fun _ => rfl⟩
  have hblank {domain queue : Nat} (hd : 0 < domain) (hq : 0 < queue) :
      Graph.SameLinks default (.blank hd hq) := ⟨rfl, fun side => by cases side <;> rfl⟩
  cases hs with
  | skip node pipe hnode hpipe => exact .inl fun _ => hself _
  | graph hd hq => exact .inl (related_append hself (hblank hd hq) _)
  | node k hk => exact .inl fun _ => hself _
  | group hd hq ins outs =>
    exact .inl (related_append hself (hblank hd hq) { s.workspace with nextNode := _ })
  | extend g ns hns hext =>
    exact .inl (related_modify (f := (·.extend ns)) hself
      (fun graph => ⟨rfl, fun side => by cases side <;> rfl⟩) _ g)
  | wire g c hc hconnect => exact .inr (.inl ⟨g, c, hconnect, rfl⟩)
  | publish g side p hp hbind =>
    refine .inl (related_modify hself (fun graph => ⟨?_, ?_⟩) { s.workspace with nextPipe := _ } g)
    · cases side <;> rfl
    · exact Graph.associations_publish graph side _
  | attach group g side index p hgroup hp hattach =>
    exact .inr (.inr ⟨group, g, side, index, p, hgroup, hp, hattach, rfl⟩)
  | freeze g =>
    exact .inl (related_freeze (fun graph _ => ⟨rfl, fun side => by cases side <;> rfl⟩) _ g)

theorem Change.connections (hs : s.Change s') :
    (∀ g, (s'.workspace.graph g).connections = (s.workspace.graph g).connections) ∨
    ∃ g c, Build.Connectable s.workspace g c ∧ s'.workspace = s.workspace.modify g (·.wire c) := by
  obtain hsame | hwire | ⟨group, inner, side, index, q, -, -, -, hw⟩ := hs.links
  · exact .inl fun g => (hsame g).connections
  · exact .inr hwire
  · rw [hw]
    refine .inl (related_modify (R := fun graph graph' => graph'.connections = graph.connections)
      (fun _ => rfl) (fun graph => ?_) _ inner)
    cases side <;> rfl

theorem Change.mem_connections (hs : s.Change s') (hc : c ∈ (s.workspace.graph g).connections) :
    c ∈ (s'.workspace.graph g).connections := by
  obtain hsame | ⟨g', c', -, hw⟩ := hs.connections
  · rw [hsame]
    exact hc
  · rw [hw]
    exact (connections_wire _ g' g c').1 hc

theorem Change.agrees (hs : s.Change s') (hc : c ∈ (s'.workspace.graph g).connections)
    (hnew : c ∉ (s.workspace.graph g).connections) :
    s'.workspace.typeOf .output c.source = s'.workspace.typeOf .input c.destination := by
  obtain hsame | ⟨g', c', hconnect, hw⟩ := hs.connections
  · rw [hsame] at hc
    exact absurd hc hnew
  · rw [hw] at hc ⊢
    obtain rfl := ((connections_wire _ g' g c').2 c hc).resolve_left hnew
    have hassociations (graph : Graph) (side : Side) :
        (graph.wire c).associations side = graph.associations side := by cases side <;> rfl
    rw [typeOf_modify hassociations, typeOf_modify hassociations]
    exact hconnect.type_eq

/-- A port of a group that was not associated before is associated, and no other port of any node. -/
structure AssociatesOnly (s s' : Session) (side : Side) (r q : Port) : Prop where
  free : s.workspace.associated? side r = none
  joined : s'.workspace.associated? side r = some q
  inside : ∃ inner, r.node.inner? = some inner ∧ q.node ∈ (s.workspace.graph inner).nodes
  frame : ∀ other p, p.node ∈ s.nodes → ¬ (other = side ∧ p = r) →
    s'.workspace.associated? other p = s.workspace.associated? other p

theorem Numbered.associatesOnly_attach (h : s.Numbered) {group : Node} {index : Nat}
    (hgroup : group ∈ s.nodes) (hq : q.node ∈ s.nodes)
    (hattach : Build.Attachable s.workspace group inner side index q)
    (hw : s'.workspace = s.workspace.modify inner (·.attach group side index q)) :
    s.AssociatesOnly s' side ⟨group, index⟩ q := by
  have hgraph : s'.workspace.graph inner = (s.workspace.graph inner).attach group side index q := by
    rw [hw]
    exact graph_modify (lt_of_contains hattach.port.member) _
  constructor
  · rw [associated?, hattach.inner, Option.bind_some]
    exact hattach.unassociated
  · rw [associated?, hattach.inner, Option.bind_some, hgraph, Graph.associations_attach, List.lookup_append,
      hattach.unassociated]
    simp
  · exact ⟨inner, hattach.inner, (h.mem_of_bindable hq hattach.port).1⟩
  · intro other p hp hne
    rw [associated?, associated?]
    cases hinner : p.node.inner? with
    | none => rfl
    | some g =>
      simp only [Option.bind_some]
      by_cases hg : g = inner
      · subst hg
        -- no other group has the graph inside, so it is another port of the same group, or on the other side
        have hnode : p.node = group := by
          have hgroups := (h.groupsAround_eq hp hinner).symm.trans (h.groupsAround_eq hgroup hattach.inner)
          exact (List.cons.inj hgroups).1
        rw [hgraph]
        by_cases hside : other = side
        · subst hside
          have hindex : p.index ≠ index := fun hindex => hne ⟨rfl, by rw [← hnode, ← hindex]⟩
          have hother : [(index, q)].lookup p.index = none :=
            List.lookup_eq_none_iff.2 fun a ha => by simp [List.mem_singleton.1 ha, hindex]
          rw [Graph.associations_attach, List.lookup_append, hother, Option.or_none]
        · rw [(Graph.attach_frame _ group hside index q []).2.1]
      · have hsame : s'.workspace.graph g = s.workspace.graph g := by
          rw [hw]
          exact forall_graph_modify (P := fun g graph => g ≠ inner → graph = s.workspace.graph g)
            (fun _ _ => rfl) (fun _ hne => absurd rfl hne) g hg
        rw [hsame]

theorem Change.associated? (h : s.Numbered) (hs : s.Change s') :
    (∀ side p, s'.workspace.associated? side p = s.workspace.associated? side p) ∨
      ∃ side r q, s.AssociatesOnly s' side r q := by
  have hcongr (hsame : ∀ g side, (s'.workspace.graph g).associations side = (s.workspace.graph g).associations side)
      (side : Side) (p : Port) : s'.workspace.associated? side p = s.workspace.associated? side p := by
    simp only [Workspace.associated?, hsame]
  obtain hsame | ⟨g, c, -, hw⟩ | ⟨group, inner, side, index, q, hgroup, hq, hattach, hw⟩ := hs.links
  · exact .inl (hcongr fun g => (hsame g).associations)
  · refine .inl (hcongr ?_)
    rw [hw]
    exact related_modify (R := fun graph graph' => ∀ side, graph'.associations side = graph.associations side)
      (f := (·.wire c)) (fun _ _ => rfl) (fun graph side => by cases side <;> rfl) _ g
  · exact .inr ⟨side, _, q, h.associatesOnly_attach hgroup hq hattach hw⟩

theorem Sound.associatesOnly (h : s.Sound) (ha : s.Associates call side r q) (hr : r.node ∈ s.nodes) :
    s.AssociatesOnly (s.perform call) side r q := by
  obtain ⟨hfree, hjoined⟩ := ha
  obtain hsame | ⟨side', r', q', honly⟩ := (change_perform s call).associated? h.numbered
  · rw [hsame, hfree] at hjoined
    nomatch hjoined
  · by_cases hport : side = side' ∧ r = r'
    · obtain ⟨rfl, rfl⟩ := hport
      obtain rfl := Option.some.inj (honly.joined.symm.trans hjoined)
      exact honly
    · rw [honly.frame side r hr hport, hfree] at hjoined
      nomatch hjoined

theorem Sound.typeOf_eq (h : s.Sound) (h' : s'.Sound) (hg : s.workspace.Grounded g)
    (hg' : s'.workspace.Grounded g) (hs : s.Change s') (hp : p.node ∈ (s.workspace.graph g).nodes)
    (hsame : ∀ r, s.workspace.StandsFor side p r →
      s'.workspace.associated? side r = s.workspace.associated? side r) :
    s'.workspace.typeOf side p = s.workspace.typeOf side p :=
  (h'.reports_typeOf hg' (hs.keepsNodes g hp) side).unique ((h.reports_typeOf hg hp side).congr hsame)

theorem Sound.typeOf_of_associates (h : s.Sound) (hg : (s.perform call).workspace.Grounded g)
    (hp : p.node ∈ (s.workspace.graph g).nodes) (hr : s.workspace.StandsFor side p r)
    (ha : s.Associates call side r q) :
    s.workspace.typeOf side p = .integer ∧
      (s.perform call).workspace.typeOf side p = s.workspace.typeOf side q := by
  have hs := change_perform s call
  have h' := h.perform call
  have hground := hs.grounded hg
  obtain ⟨place, around, hplace, hmember⟩ := h.exists_within hr hp
  have honly := h.associatesOnly ha (h.numbered.member _ _ hmember)
  obtain ⟨inner, hinner, hq⟩ := honly.inside
  have hnested : s.workspace.Within g (r.node :: place) inner := hplace.inside hmember hinner
  constructor
  · have hreports := (h.reports_typeOf hground hp side).standsFor hr
    rw [hreports.unique (.own honly.free)]
    exact declared_getD_of_inner? hinner side r.index
  · have hchain : (s.perform call).workspace.StandsFor side p q :=
      (hr.congr fun x hx hne => honly.frame side x (h.mem_of_standsFor hx hp) fun heq => hne heq.2).trans
        (.inside honly.joined (.self q))
    have hinside : (s.perform call).workspace.typeOf side q = s.workspace.typeOf side q := by
      refine h.typeOf_eq h' (hground.inside hnested) (hg.inside (hs.within hnested)) hs hq fun x hx => ?_
      refine honly.frame side x (h.mem_of_standsFor hx hq) fun heq => ?_
      -- else the port inside would stand for the one of the group, and no type would ever be found
      rw [heq.2] at hx
      exact h.not_standsFor (hground.inside hnested) hinner hq hx
    have hreports := (h'.reports_typeOf hg (hs.keepsNodes g hp) side).standsFor hchain
    rw [← hinside]
    exact hreports.unique (h'.reports_typeOf (hg.inside (hs.within hnested)) (hs.keepsNodes inner hq) side)

theorem Sound.typeOf_of_retypes (h : s.Sound) (hg : (s.perform call).workspace.Grounded g)
    (hp : p.node ∈ (s.workspace.graph g).nodes) (hretypes : s.Retypes call side p) :
    s.workspace.typeOf side p = .integer ∧ (s.perform call).workspace.typeOf side p ≠ .integer := by
  obtain ⟨r, q, hr, ha, hq⟩ := hretypes
  obtain ⟨hbefore, hafter⟩ := h.typeOf_of_associates hg hp hr ha
  rw [← hafter] at hq
  exact ⟨hbefore, hq⟩

theorem Sound.typeOf_of_not_retypes (h : s.Sound) (hg : (s.perform call).workspace.Grounded g)
    (hp : p.node ∈ (s.workspace.graph g).nodes) (hretypes : ¬ s.Retypes call side p) :
    (s.perform call).workspace.typeOf side p = s.workspace.typeOf side p := by
  have hs := change_perform s call
  by_cases hassociates : ∃ r q, s.workspace.StandsFor side p r ∧ s.Associates call side r q
  · obtain ⟨r, q, hr, ha⟩ := hassociates
    obtain ⟨hbefore, hafter⟩ := h.typeOf_of_associates hg hp hr ha
    have hinteger : s.workspace.typeOf side q = .integer := by
      by_contra hq
      exact hretypes ⟨r, q, hr, ha, hq⟩
    rw [hbefore, hafter, hinteger]
  · refine h.typeOf_eq (h.perform call) (hs.grounded hg) hg hs hp fun r hr => ?_
    obtain hsame | ⟨side', r', q', honly⟩ := hs.associated? h.numbered
    · exact hsame side r
    · refine honly.frame side r (h.mem_of_standsFor hr hp) ?_
      rintro ⟨rfl, rfl⟩
      exact hassociates ⟨r, q', hr, honly.free, honly.joined⟩

/-! ### Every session -/

theorem performAll_concat (s : Session) (calls : List Call) (call : Call) :
    s.performAll (calls ++ [call]) = (s.performAll calls).perform call :=
  List.foldl_concat _ _ _ _

theorem retypedSince_nil : ¬ RetypedSince [] g c side p := by
  rintro ⟨before, call, after, hcalls, -⟩
  simp at hcalls

theorem retypedSince_concat {calls : List Call} : RetypedSince (calls ++ [call]) g c side p ↔
    RetypedSince calls g c side p ∨
      c ∈ ((({} : Session).performAll calls).workspace.graph g).connections ∧
        (({} : Session).performAll calls).Retypes call side p := by
  constructor
  · rintro ⟨before, call', after, hcalls, hc, hretypes⟩
    rcases List.eq_nil_or_concat after with rfl | ⟨after, last, rfl⟩
    · obtain ⟨rfl, hcall⟩ := List.append_inj' hcalls rfl
      rw [← List.singleton_inj.1 hcall] at hretypes
      exact .inr ⟨hc, hretypes⟩
    · rw [List.concat_eq_append, ← List.cons_append, ← List.append_assoc] at hcalls
      obtain ⟨rfl, -⟩ := List.append_inj' hcalls rfl
      exact .inl ⟨before, call', after, rfl, hc, hretypes⟩
  · rintro (⟨before, call', after, rfl, hc, hretypes⟩ | ⟨hc, hretypes⟩)
    · exact ⟨before, call', after ++ [call], by simp, hc, hretypes⟩
    · exact ⟨calls, call, [], rfl, hc, hretypes⟩

theorem RetypedSince.mem {calls : List Call} (h : RetypedSince calls g c side p) :
    c ∈ ((({} : Session).performAll calls).workspace.graph g).connections := by
  induction calls using List.reverseRecOn with
  | nil => exact absurd h retypedSince_nil
  | append_singleton calls call ih =>
    have hbefore : c ∈ ((({} : Session).performAll calls).workspace.graph g).connections := by
      obtain hsince | ⟨hc, -⟩ := retypedSince_concat.1 h
      · exact ih hsince
      · exact hc
    rw [performAll_concat]
    exact (change_perform _ call).mem_connections hbefore

/-- The type that a connection was made for: its ends have it but for those that a call has retyped. -/
theorem exists_type {calls : List Call} (hg : (({} : Session).performAll calls).workspace.Grounded g)
    (hc : c ∈ ((({} : Session).performAll calls).workspace.graph g).connections) :
    ∃ t, ∀ side,
      (RetypedSince calls g c side (c.endpoint side) → t = .integer ∧
        (({} : Session).performAll calls).workspace.typeOf side (c.endpoint side) ≠ .integer) ∧
      (¬ RetypedSince calls g c side (c.endpoint side) →
        (({} : Session).performAll calls).workspace.typeOf side (c.endpoint side) = t) := by
  induction calls using List.reverseRecOn with
  | nil => nomatch hc
  | append_singleton calls call ih =>
    simp only [retypedSince_concat]
    rw [performAll_concat] at hg hc ⊢
    generalize hs : ({} : Session).performAll calls = s at *
    have h : s.Sound := hs ▸ sound_performAll calls
    have hchange := change_perform s call
    by_cases hold : c ∈ (s.workspace.graph g).connections
    · obtain ⟨t, ht⟩ := ih (hchange.grounded hg) hold
      refine ⟨t, fun side => ?_⟩
      have hmember : (c.endpoint side).node ∈ (s.workspace.graph g).nodes :=
        (((h.fed g).wired side).member _ (Graph.connection_mem_uses _ side hold)).1
      obtain ⟨hsince, hsame⟩ := ht side
      by_cases hretypes : s.Retypes call side (c.endpoint side)
      · obtain ⟨hbefore, hafter⟩ := h.typeOf_of_retypes hg hmember hretypes
        have htype := hsame fun hyes => (hsince hyes).2 hbefore
        exact ⟨fun _ => ⟨htype.symm.trans hbefore, hafter⟩, fun hno => absurd (.inr ⟨hold, hretypes⟩) hno⟩
      · rw [h.typeOf_of_not_retypes hg hmember hretypes, or_iff_left fun hyes => hretypes hyes.2]
        exact ⟨hsince, hsame⟩
    · refine ⟨(s.perform call).workspace.typeOf .output c.source, fun side => ⟨fun hyes => ?_, fun _ => ?_⟩⟩
      · -- nothing has retyped an end of a connection that was only now made
        have hmem : c ∈ (s.workspace.graph g).connections := hyes.elim (fun hsince => hs ▸ hsince.mem) And.left
        exact absurd hmem hold
      · cases side with
        | input => exact (hchange.agrees hc hold).symm
        | output => rfl

/-- After any calls both ends of a connection have a type, in a graph whose nesting ends and in every graph
nested in it. The two types are equal exactly if, since the connection was made, calls have given another
type to both ends or to neither. -/
theorem ends_agree_iff (calls : List Call) (g : GraphId)
    (hg : (({} : Session).performAll calls).workspace.Grounded g) :
    let w := (({} : Session).performAll calls).workspace
    ∀ place inner, w.Within g place inner → ∀ c ∈ (w.graph inner).connections,
      ∃ t t', w.type? c.source.node .output c.source.index = .ok t ∧
        w.type? c.destination.node .input c.destination.index = .ok t' ∧
        (t = t' ↔ (RetypedSince calls inner c .output c.source ↔
          RetypedSince calls inner c .input c.destination)) := by
  intro w place inner hplace c hc
  have h : (({} : Session).performAll calls).Sound := sound_performAll calls
  have htype (side : Side) : w.type? (c.endpoint side).node side (c.endpoint side).index =
      .ok (w.typeOf side (c.endpoint side)) := by
    have hmember := ((h.fed inner).wired side).member _ (Graph.connection_mem_uses _ side hc)
    rw [type?, port?_eq_ok_iff.2 ⟨rfl, rfl, hmember.2⟩]
    rfl
  obtain ⟨t, ht⟩ := exists_type (hg.inside hplace) hc
  obtain ⟨houtput, houtput'⟩ := ht .output
  obtain ⟨hinput, hinput'⟩ := ht .input
  refine ⟨_, _, htype .output, htype .input, ?_⟩
  by_cases hsource : RetypedSince calls inner c .output c.source
  · obtain ⟨rfl, hboolean⟩ := houtput hsource
    by_cases hdestination : RetypedSince calls inner c .input c.destination
    · exact iff_of_true (PortType.eq_of_ne hboolean (hinput hdestination).2) (iff_of_true hsource hdestination)
    · refine iff_of_false (fun heq => hboolean (heq.trans (hinput' hdestination))) fun hiff => ?_
      exact hdestination (hiff.1 hsource)
  · have hsame : w.typeOf .output c.source = t := houtput' hsource
    by_cases hdestination : RetypedSince calls inner c .input c.destination
    · obtain ⟨rfl, hboolean⟩ := hinput hdestination
      exact iff_of_false (fun heq => hboolean (heq.symm.trans hsame)) fun hiff => hsource (hiff.2 hdestination)
    · exact iff_of_true (hsame.trans (hinput' hdestination).symm) (iff_of_false hsource hdestination)

/-- A passthrough of integers wired to a group, in which a passthrough of booleans is put afterwards. -/
def lateAssociation : List Call :=
  let source : Node := ⟨1, .passthrough .integer⟩
  let group : Node := ⟨2, .group 1 1 1⟩
  let inner : Node := ⟨3, .passthrough .boolean⟩
  [.newGraph 2 1, .create (.passthrough .integer), .create (.group 2 1 1 1), .add 0 [source, group],
    .connect 0 source 0 group 0, .create (.passthrough .boolean), .add 1 [inner],
    .associate group .input 0 inner 0, .associate group .output 0 inner 0, .expose 0 .input source 0,
    .expose 0 .output group 0]

/-- The connection joins integers to booleans, in a graph that is valid and compiles. -/
theorem ends_agree_iff_of_lateAssociation :
    let w := (({} : Session).performAll lateAssociation).workspace
    let c : Connection := ⟨⟨⟨1, .passthrough .integer⟩, 0⟩, ⟨⟨2, .group 1 1 1⟩, 0⟩⟩
    w.Grounded 0 ∧ w.validate 0 = .ok ⟨⟩ ∧ (∃ m, w.compile ⟨2, 1⟩ 0 = .ok m) ∧
      c ∈ (w.graph 0).connections ∧ w.type? c.source.node .output c.source.index = .ok .integer ∧
      w.type? c.destination.node .input c.destination.index = .ok .boolean ∧
      ¬ (RetypedSince lateAssociation 0 c .output c.source ↔
        RetypedSince lateAssociation 0 c .input c.destination) := by
  intro w c
  have hnests : w.NestsWithin 2 0 := by decide +kernel
  have hc : c ∈ (w.graph 0).connections := by decide +kernel
  have hsource : w.type? c.source.node .output c.source.index = .ok .integer := by decide +kernel
  have hdestination : w.type? c.destination.node .input c.destination.index = .ok .boolean := by
    decide +kernel
  refine ⟨hnests.grounded, by decide +kernel, exists_eq_ok (by decide +kernel), hc, hsource, hdestination, ?_⟩
  obtain ⟨t, t', ht, ht', hiff⟩ := ends_agree_iff lateAssociation 0 hnests.grounded [] 0 .top c hc
  obtain rfl := Except.ok.inj (hsource.symm.trans ht)
  obtain rfl := Except.ok.inj (hdestination.symm.trans ht')
  rw [← hiff]
  exact PortType.noConfusion

end Session
end StreamCheck.Network
