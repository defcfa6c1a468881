import StreamCheck.Proofs.Network.Freezing
import StreamCheck.Proofs.Network.Routes

/-! Sealing: freezing a graph freezes every graph nested in it, and no later call changes a frozen graph.
So what is asked of a frozen graph has one answer from then on. -/

namespace StreamCheck.Network
open Workspace

namespace Workspace
variable {w w' w'' : Workspace} {g inner : GraphId} {place : List Node} {fuel height : Nat}

/-! ### Frozen graphs are kept -/

structure KeepsFrozen (w w' : Workspace) : Prop where
  length_le : w.graphs.length ≤ w'.graphs.length
  graph_eq : ∀ g, (w.graph g).frozen = true → w'.graph g = w.graph g

theorem keepsFrozen_of_graphs_eq (h : w'.graphs = w.graphs) : w.KeepsFrozen w' :=
  ⟨Nat.le_of_eq (by rw [h]), fun g _ => by rw [graph, graph, h]⟩

theorem KeepsFrozen.refl (w : Workspace) : w.KeepsFrozen w := keepsFrozen_of_graphs_eq rfl

theorem KeepsFrozen.trans (h : w.KeepsFrozen w') (h' : w'.KeepsFrozen w'') : w.KeepsFrozen w'' := by
  refine ⟨Nat.le_trans h.length_le h'.length_le, fun g hg => ?_⟩
  rw [h'.graph_eq g (by rwa [h.graph_eq g hg]), h.graph_eq g hg]

theorem keepsFrozen_modify {f : Graph → Graph} (hf : (w.graph g).frozen = true → f (w.graph g) = w.graph g) :
    w.KeepsFrozen (w.modify g f) := by
  refine ⟨Nat.le_of_eq (length_modify w g f).symm, ?_⟩
  exact forall_graph_modify (P := fun g graph => (w.graph g).frozen = true → graph = w.graph g) (fun _ _ => rfl)
    fun _ => hf

theorem keepsFrozen_modify_of_not (hg : (w.graph g).frozen = false) (f : Graph → Graph) :
    w.KeepsFrozen (w.modify g f) :=
  keepsFrozen_modify fun hfrozen => absurd hfrozen (by simp [hg])

theorem keepsFrozen_mark (w : Workspace) (g : GraphId) :
    w.KeepsFrozen (w.modify g fun graph => { graph with frozen := true }) :=
  keepsFrozen_modify fun hfrozen => by rw [← hfrozen]

theorem keepsFrozen_append (w : Workspace) (nextNode nextPipe : Nat) (new : List Graph) :
    w.KeepsFrozen ⟨nextNode, nextPipe, w.graphs ++ new⟩ := by
  refine ⟨by simp, fun g hfrozen => ?_⟩
  -- a number that no graph has yet stands for no frozen graph
  have hg : g < w.graphs.length := by
    by_contra hlt
    rw [graph, List.getD_eq_default _ _ (Nat.le_of_not_lt hlt)] at hfrozen
    cases hfrozen
  exact List.getD_append _ _ _ _ hg

theorem keepsFrozen_freezeWithin (w : Workspace) (fuel : Nat) (g : GraphId) :
    w.KeepsFrozen (freezeWithin fuel g w) :=
  freezeWithin_induction (Q := w.KeepsFrozen) (fun w' g' h => h.trans (keepsFrozen_mark w' g')) fuel g
    (.refl w)

theorem Sealed.graph_eq (h : w.Sealed g) (hkeep : w.KeepsFrozen w') (hplace : w.Within g place inner) :
    w'.graph inner = w.graph inner :=
  hkeep.graph_eq inner (h place inner hplace)

/-! ### All nested graphs are frozen -/

theorem within_iff (h : ∀ place inner, w.Within g place inner → (w'.graph inner).nodes = (w.graph inner).nodes)
    (place : List Node) (inner : GraphId) : w'.Within g place inner ↔ w.Within g place inner := by
  constructor
  · intro hplace
    induction hplace with
    | top => exact .top
    | inside _ hmem hinner ih => exact ih.inside (h _ _ ih ▸ hmem) hinner
  · intro hplace
    induction hplace with
    | top => exact .top
    | inside hplace hmem hinner ih => exact ih.inside (h _ _ hplace ▸ hmem) hinner

theorem NestsWithin.congr (h : w.NestsWithin height g)
    (hsame : ∀ place inner, w.Within g place inner → (w'.graph inner).nodes = (w.graph inner).nodes) :
    w'.NestsWithin height g := by
  induction height generalizing g with
  | zero => exact absurd h id
  | succ height ih =>
    intro n hn inner hinner
    rw [hsame [] g .top] at hn
    exact ih (h n hn inner hinner) fun place inner' hplace => hsame _ inner' (hplace.through hn hinner)

theorem WiredThroughout.congr {around : List Node} (h : w.WiredThroughout g around)
    (hsame : ∀ place inner, w.Within g place inner →
      ∃ frozen, w'.graph inner = { w.graph inner with frozen := frozen }) : w'.WiredThroughout g around := by
  have hfed {place : List Node} {inner : GraphId} {groups : List Node} (hplace : w.Within g place inner)
      (hinner : (w.graph inner).Fed groups) : (w'.graph inner).Fed groups := by
    obtain ⟨frozen, hgraph⟩ := hsame place inner hplace
    rw [hgraph]
    exact hinner.freeze frozen
  have hnodes (place : List Node) (inner : GraphId) (hplace : w.Within g place inner) :
      (w'.graph inner).nodes = (w.graph inner).nodes := by
    obtain ⟨frozen, hgraph⟩ := hsame place inner hplace
    rw [hgraph]
  refine ⟨hfed .top h.top, ?_⟩
  rintro mid n ⟨place, hplace, hn⟩ inner hinner
  rw [Workspace.within_iff hnodes] at hplace
  rw [hnodes place mid hplace] at hn
  exact hfed (hplace.inside hn hinner) (h.inside mid n ⟨place, hplace, hn⟩ inner hinner)

theorem Sealed.mono (h : w.Sealed g) (hkeep : w.KeepsFrozen w') : w'.Sealed g := by
  intro place inner hplace
  rw [Workspace.within_iff fun place inner hplace => by rw [h.graph_eq hkeep hplace]] at hplace
  rw [h.graph_eq hkeep hplace]
  exact h place inner hplace

theorem SameButFrozen.within_iff (h : w.SameButFrozen w') (g : GraphId) (place : List Node) (inner : GraphId) :
    w'.Within g place inner ↔ w.Within g place inner :=
  Workspace.within_iff (fun _ inner _ => h.nodes_eq inner) place inner

theorem SameButFrozen.grounded_iff (h : w.SameButFrozen w') (g : GraphId) :
    w'.Grounded g ↔ w.Grounded g := by
  simp only [Grounded, ContainsItself, h.within_iff]

theorem frozen_modify (hg : g < w.graphs.length) :
    ((w.modify g fun graph => { graph with frozen := true }).graph g).frozen = true := by
  rw [graph_modify hg]

theorem frozen_freezeWithin (h : w.NestsWithin height g) (hfuel : height ≤ fuel)
    (hlt : ∀ place inner, w.Within g place inner → inner < w.graphs.length) (hw : w.SameButFrozen w')
    (hplace : w.Within g place inner) : ((freezeWithin fuel g w').graph inner).frozen = true := by
  induction height generalizing fuel g w' place with
  | zero => exact absurd h id
  | succ height ih =>
    obtain ⟨fuel, rfl⟩ := Nat.exists_eq_succ_of_ne_zero (by omega : fuel ≠ 0)
    have hkeep (w : Workspace) (inners : List GraphId) :
        w.KeepsFrozen (inners.foldl (fun w inner => freezeWithin fuel inner w) w) :=
      List.foldlRecOn (motive := w.KeepsFrozen) _ _ (.refl w) fun w' hw' inner _ =>
        hw'.trans (keepsFrozen_freezeWithin w' fuel inner)
    rw [freezeWithin, hw.nodes_eq g]
    obtain ⟨-, rfl⟩ | ⟨place', group, mid, -, hmem, hmid, hrest⟩ := hplace.outermost
    · have hmarked := frozen_modify (w := w') (by rw [hw.length_eq]; exact hlt [] inner .top)
      rw [(hkeep _ _).graph_eq inner hmarked]
      exact hmarked
    · -- the graphs of the groups before this one are frozen already, and those behind it come later
      obtain ⟨before, behind, hsplit⟩ := List.append_of_mem (List.mem_filterMap.2 ⟨group, hmem, hmid⟩)
      rw [hsplit, List.foldl_append, List.foldl_cons]
      have hbefore : w.SameButFrozen (before.foldl (fun w inner => freezeWithin fuel inner w)
          (w'.modify g fun graph => { graph with frozen := true })) :=
        List.foldlRecOn (motive := w.SameButFrozen) _ _ (hw.mark g) fun w' hw' inner _ =>
          hw'.freezeWithin fuel inner
      have hfrozen := ih (h group hmem mid hmid) (Nat.le_of_succ_le_succ hfuel)
        (fun place inner hplace => hlt _ inner (hplace.through hmem hmid)) hbefore hrest
      rw [(hkeep _ behind).graph_eq inner hfrozen]
      exact hfrozen

end Workspace

/-! ### Sessions -/

namespace Session
variable {s s' : Session} {g : GraphId}

theorem Numbered.sealed_freeze (h : s.Numbered) (hg : g < s.workspace.graphs.length)
    (hgrounded : s.workspace.Grounded g) : (s.workspace.freeze g).Sealed g := by
  intro place inner hplace
  rw [(SameButFrozen.freeze s.workspace g).within_iff] at hplace
  exact frozen_freezeWithin (h.nestsWithin hgrounded) (Nat.le_refl _) (fun _ _ => h.within_lt hg)
    (.refl s.workspace) hplace

theorem Change.keepsFrozen (h : s.Change s') : s.workspace.KeepsFrozen s'.workspace := by
  cases h with
  | skip node pipe hnode hpipe => exact keepsFrozen_of_graphs_eq rfl
  | graph hd hq => exact keepsFrozen_append s.workspace _ _ [_]
  | node k hk => exact keepsFrozen_of_graphs_eq rfl
  | group hd hq ins outs => exact keepsFrozen_append s.workspace _ _ [_]
  | extend g ns hns hext hfrozen => exact keepsFrozen_modify_of_not hfrozen _
  | wire g c hc hconnect => exact keepsFrozen_modify_of_not hconnect.source.unfrozen _
  | publish g side p hp hbind =>
    have hpipe : s.workspace.KeepsFrozen { s.workspace with nextPipe := s.workspace.nextPipe + 1 } :=
      keepsFrozen_of_graphs_eq rfl
    refine hpipe.trans (keepsFrozen_modify_of_not ?_ _)
    exact hbind.unfrozen
  | attach group g side index p hgroup hp hattach => exact keepsFrozen_modify_of_not hattach.port.unfrozen _
  | freeze g => exact keepsFrozen_freezeWithin s.workspace _ g

theorem keepsFrozen_performAll (s : Session) (cs : List Call) :
    s.workspace.KeepsFrozen (s.performAll cs).workspace := by
  induction cs generalizing s with
  | nil => exact .refl s.workspace
  | cons c cs ih => exact (change_perform s c).keepsFrozen.trans (ih (s.perform c))

/-! ### A frozen graph for ever after -/

variable {w w' : Workspace} {inner : GraphId} {place : List Node}

theorem Numbered.alike_of_keepsFrozen (h : s.Numbered) (hgrounded : s.workspace.Grounded g)
    (hsealed : s.workspace.Sealed g) (hkeep : s.workspace.KeepsFrozen w') {fuel fuel' : Nat}
    (hfuel : s.workspace.depth ≤ fuel) (hfuel' : s.workspace.depth ≤ fuel') :
    s.workspace.Alike w' fuel fuel' g :=
  (h.nestsWithin hgrounded).alike hfuel hfuel' fun _ _ => hsealed.graph_eq hkeep

theorem Sound.type?_eq (h : s.Sound) (hlike : s.workspace.Alike w' s.workspace.depth w'.depth g) {n : Node}
    (hn : n ∈ (s.workspace.graph g).nodes) (side : Side) (port : Int) :
    w'.type? n side port = s.workspace.type? n side port := by
  rw [type?, type?, port?]
  split
  · exact congrArg Except.ok (hlike.typeWithin_eq side (h.wiredThroughout g) hn port.toNat)
  · rfl

theorem Sound.compile_eq (h : s.Sound) (hlike : s.workspace.Alike w' s.workspace.depth w'.depth g)
    (z : Sizes) : w'.compile z g = s.workspace.compile z g :=
  hlike.compile_eq fun side _ he => hlike.typeOf_eq (h.wiredThroughout g) side he

theorem Sound.sealed_perform_freeze (h : s.Sound) (hg : g < s.workspace.graphs.length)
    (hgrounded : s.workspace.Grounded g) :
    (s.perform (.freeze g)).workspace.Grounded g ∧ (s.perform (.freeze g)).workspace.Sealed g := by
  have hadmits : s.admits (.freeze g) = true := by simp [admits, Call.nodes, Call.graph?, hg]
  have hw : (s.perform (.freeze g)).workspace = s.workspace.freeze g := by
    rw [Session.perform, if_pos hadmits]
    rfl
  rw [hw]
  exact ⟨((SameButFrozen.freeze _ g).grounded_iff g).2 hgrounded, h.numbered.sealed_freeze hg hgrounded⟩

/-- Once a graph whose nesting ends has been frozen, it and all graphs nested in it are frozen and refuse
every change, without using up a number, and whatever is called afterwards on any graphs and groups, they
stay as they are: so do the types at the ports of their nodes, the number of nodes and what is compiled. -/
theorem frozen_outlasts_calls (cs cs' : List Call) (g : GraphId)
    (hg : g < (({} : Session).performAll cs).workspace.graphs.length)
    (hgrounded : (({} : Session).performAll cs).workspace.Grounded g) :
    let s := (({} : Session).performAll cs).perform (.freeze g)
    let w := s.workspace
    let w' := (s.performAll cs').workspace
    (∀ place inner, w'.Within g place inner ↔ w.Within g place inner) ∧
    ∀ place inner, w.Within g place inner →
      (w.graph inner).frozen = true ∧ w'.graph inner = w.graph inner ∧
      (∀ ns, (Build.add inner ns).run w' = .error .frozen w') ∧
      (∀ source output destination input,
        (Build.connect inner source output destination input).run w' = .error .frozen w') ∧
      (∀ side n port, (Build.expose inner side n port).run w' = .error .frozen w') ∧
      (∀ group ∈ (w.graph inner).nodes, group.inner?.isSome = true → ∀ side index n port,
        ∃ e, e.isGraphError = true ∧ (Build.associate group side index n port).run w' = .error e w') ∧
      (∀ n ∈ (w.graph inner).nodes, ∀ side port, w'.type? n side port = w.type? n side port) ∧
      w'.count inner = w.count inner ∧ ∀ z, w'.compile z inner = w.compile z inner := by
  intro s w w'
  have hbefore : (({} : Session).performAll cs).Sound := sound_performAll cs
  have h : s.Sound := hbefore.perform (.freeze g)
  obtain ⟨hground, hsealed⟩ : w.Grounded g ∧ w.Sealed g := hbefore.sealed_perform_freeze hg hgrounded
  have hkeep : w.KeepsFrozen w' := keepsFrozen_performAll s cs'
  have hdepth : w.depth ≤ w'.depth := Nat.succ_le_succ hkeep.length_le
  have hgraph (place : List Node) (inner : GraphId) (hplace : w.Within g place inner) :
      w'.graph inner = w.graph inner := hsealed.graph_eq hkeep hplace
  refine ⟨within_iff fun place inner hplace => by rw [hgraph place inner hplace], ?_⟩
  intro place inner hplace
  have hfrozen : (w'.graph inner).frozen = true := by
    rw [hgraph place inner hplace]
    exact hsealed place inner hplace
  have hlike {fuel fuel' : Nat} (hfuel : w.depth ≤ fuel) (hfuel' : w.depth ≤ fuel') :
      w.Alike w' fuel fuel' inner :=
    h.numbered.alike_of_keepsFrozen (hground.inside hplace)
      (fun place' inner' hinner => hsealed _ inner' (hplace.trans hinner)) hkeep hfuel hfuel'
  refine ⟨hsealed place inner hplace, hgraph place inner hplace, Build.add_run_of_frozen hfrozen,
    Build.connect_run_of_frozen hfrozen, Build.expose_run_of_frozen hfrozen, ?_,
    fun n hn => h.type?_eq (hlike (Nat.le_refl _) hdepth) hn,
    (hlike (Nat.le_succ _) (Nat.le_succ_of_le hdepth)).count_eq, h.compile_eq (hlike (Nat.le_refl _) hdepth)⟩
  intro group hgroup hinner
  obtain ⟨within, hwithin⟩ := Option.isSome_iff_exists.1 hinner
  have hinside := hplace.inside hgroup hwithin
  refine Build.associate_run_of_frozen hwithin ?_
  rw [hgraph _ within hinside]
  exact hsealed _ within hinside

/-- The group of the relay goes into an open graph as well, and still admits no change. -/
theorem frozen_outlasts_calls_of_relay :
    let s := (({} : Session).performAll relay).perform (.freeze 0)
    let w' := (s.performAll [.newGraph 4 2, .add 2 [⟨1, .group 1 1 1⟩]]).workspace
    (w'.graph 2).nodes = [⟨1, .group 1 1 1⟩] ∧ (Build.add 1 []).run w' = .error .frozen w' ∧
      w'.compile ⟨4, 2⟩ 0 = s.workspace.compile ⟨4, 2⟩ 0 := by
  intro s w'
  have hnests : (({} : Session).performAll relay).workspace.NestsWithin 2 0 := by decide +kernel
  obtain ⟨-, hinner⟩ := frozen_outlasts_calls relay [.newGraph 4 2, .add 2 [⟨1, .group 1 1 1⟩]] 0
    (by decide +kernel) hnests.grounded
  obtain ⟨-, -, hadd, -⟩ := hinner [⟨1, .group 1 1 1⟩] 1 (Within.top.inside (by decide +kernel) rfl)
  obtain ⟨-, -, -, -, -, -, -, -, hcompile⟩ := hinner [] 0 .top
  exact ⟨by decide +kernel, hadd [], hcompile ⟨4, 2⟩⟩

end Session
end StreamCheck.Network
