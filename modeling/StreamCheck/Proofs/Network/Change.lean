import StreamCheck.Network.Session
import StreamCheck.Proofs.Network.Steps

/-! What one call can do to a session, said once for all calls. -/

namespace StreamCheck.Network
open Workspace

inductive Session.Change (s : Session) : Session → Prop
  /-- Nothing but numbers that are not given out again. -/
  | skip (node pipe : Nat) (hnode : s.workspace.nextNode ≤ node) (hpipe : s.workspace.nextPipe ≤ pipe) :
    Change s { s with workspace := { s.workspace with nextNode := node, nextPipe := pipe } }
  | graph {domain queue : Nat} (hd : 0 < domain) (hq : 0 < queue) :
    Change s { s with
      workspace := { s.workspace with graphs := s.workspace.graphs ++ [.blank hd hq] } }
  | node (k : Kind) (hk : (Node.mk s.workspace.nextNode k).inner? = none) :
    Change s { s with
      workspace := { s.workspace with nextNode := s.workspace.nextNode + 1 },
      nodes := s.nodes ++ [⟨s.workspace.nextNode, k⟩] }
  | group {domain queue : Nat} (hd : 0 < domain) (hq : 0 < queue) (ins outs : Nat) :
    Change s { s with
      workspace := { s.workspace with
        nextNode := s.workspace.nextNode + 1, graphs := s.workspace.graphs ++ [.blank hd hq] },
      nodes := s.nodes ++ [⟨s.workspace.nextNode, .group s.workspace.graphs.length ins outs⟩] }
  | extend (g : GraphId) (ns : List Node) (hns : ∀ n ∈ ns, n ∈ s.nodes)
      (h : (s.workspace.graph g).Extensible ns) (hfrozen : (s.workspace.graph g).frozen = false) :
    Change s { s with workspace := s.workspace.modify g (·.extend ns) }
  | wire (g : GraphId) (c : Connection) (hc : ∀ side, (c.endpoint side).node ∈ s.nodes)
      (h : Build.Connectable s.workspace g c) :
    Change s { s with workspace := s.workspace.modify g (·.wire c) }
  | publish (g : GraphId) (side : Side) (p : Port) (hp : p.node ∈ s.nodes)
      (h : Bindable s.workspace g side p) :
    Change s { s with
      workspace := { s.workspace with nextPipe := s.workspace.nextPipe + 1 }.modify g
        (·.publish side ⟨s.workspace.nextPipe, p⟩),
      pipes := s.pipes ++ [s.workspace.nextPipe] }
  | attach (group : Node) (g : GraphId) (side : Side) (index : Nat) (p : Port)
      (hgroup : group ∈ s.nodes) (hp : p.node ∈ s.nodes)
      (h : Build.Attachable s.workspace group g side index p) :
    Change s { s with workspace := s.workspace.modify g (·.attach group side index p) }
  | freeze (g : GraphId) : Change s { s with workspace := s.workspace.freeze g }

namespace Session
variable {s : Session}

theorem Change.refl (s : Session) : s.Change s :=
  .skip s.workspace.nextNode s.workspace.nextPipe (Nat.le_refl _) (Nat.le_refl _)

theorem change_newGraph (s : Session) (domain queue : Int) :
    s.Change (s.after ((Call.newGraph domain queue).build.run s.workspace)) := by
  rw [Call.build]
  obtain ⟨hd, hq, hrun⟩ | ⟨e, hrun⟩ := Build.newGraph_run s.workspace domain queue
  · simpa [after, hrun] using Change.graph hd hq
  · simpa [after, hrun] using Change.refl s

theorem change_node (s : Session) {r : Recipe} {k : Kind} (hr : r.make = Build.node k)
    (hk : (Node.mk s.workspace.nextNode k).inner? = none) :
    s.Change (s.after ((Call.create r).build.run s.workspace)) := by
  rw [Call.build, hr]
  exact .node k hk

theorem change_fault (s : Session) {r : Recipe} {e : Fault} (hr : r.make = throw e) :
    s.Change (s.after ((Call.create r).build.run s.workspace)) := by
  rw [Call.build, hr]
  exact .refl s

theorem change_create (s : Session) (r : Recipe) :
    s.Change (s.after ((Call.create r).build.run s.workspace)) := by
  cases r with
  | bare ins outs => exact change_node s rfl rfl
  | passthrough t => exact change_node s rfl rfl
  | fork n t =>
    by_cases hn : 0 < n
    · exact change_node s (dif_pos hn) rfl
    · exact change_fault s (dif_neg hn)
  | trim n t =>
    by_cases hn : 0 ≤ n
    · exact change_node s (if_pos hn) rfl
    · exact change_fault s (if_neg hn)
  | decimate n t =>
    by_cases hn : 0 < n
    · exact change_node s (dif_pos hn) rfl
    · exact change_fault s (dif_neg hn)
  | filter t => exact change_node s rfl rfl
  | constant v t => exact change_node s rfl rfl
  | apply op t => exact change_node s rfl rfl
  | cumulate op =>
    cases hop : op.fold? with
    | some f => exact change_node s (k := .cumulate f) (by simp [Recipe.make, Build.cumulate, hop]) rfl
    | none => exact change_fault s (e := .noFold op) (by simp [Recipe.make, Build.cumulate, hop])
  | window p n =>
    cases hp : p.kind with
    | cumulate f =>
      by_cases hn : 0 < n
      · exact change_node s (k := .window p.id f n.toNat (by omega))
          (by simp [Recipe.make, Build.window, hp, hn]) rfl
      · exact change_fault s (e := .emptyWindow) (by simp [Recipe.make, Build.window, hp, hn])
    | _ => exact change_fault s (e := .noProcessor) (by simp [Recipe.make, Build.window, hp])
  | group d q ins outs =>
    rw [Call.build, Recipe.make, Build.group]
    obtain ⟨hd, hq, hrun⟩ | ⟨e, hrun⟩ := Build.newGraph_run
      { s.workspace with nextNode := s.workspace.nextNode + 1 } d q
    · simpa [after, hrun, Build.node_run] using Change.group hd hq ins.toNat outs.toNat
    · simpa [after, hrun, Build.node_run] using
        Change.skip (s.workspace.nextNode + 1) s.workspace.nextPipe (Nat.le_succ _) (Nat.le_refl _)

theorem change_add {g : GraphId} {ns : List Node} (hg : g < s.workspace.graphs.length)
    (hns : ∀ n ∈ ns, n ∈ s.nodes) : s.Change (s.after ((Call.add g ns).build.run s.workspace)) := by
  rw [Call.build]
  cases hfrozen : (s.workspace.graph g).frozen with
  | true => simpa [after, Build.add_run_of_frozen hfrozen] using Change.refl s
  | false =>
    obtain ⟨added, hadded, ⟨rfl, hrun⟩ | ⟨n, rest, rfl, -, hrun⟩⟩ := Build.add_run hg hfrozen ns
    · simpa [after, hrun] using Change.extend g ns hns hadded hfrozen
    · have hsub : ∀ m ∈ added, m ∈ s.nodes := fun m hm => hns m (List.mem_append_left _ hm)
      simpa [after, hrun] using Change.extend g added hsub hadded hfrozen

theorem change_connect {g : GraphId} {source destination : Node} {output input : Int}
    (hs : source ∈ s.nodes) (hd : destination ∈ s.nodes) :
    s.Change (s.after ((Call.connect g source output destination input).build.run s.workspace)) := by
  rw [Call.build]
  by_cases hc : ∃ c : Connection, c.source.node = source ∧ (c.source.index : Int) = output ∧
    c.destination.node = destination ∧ (c.destination.index : Int) = input ∧
      Build.Connectable s.workspace g c
  · obtain ⟨c, rfl, rfl, rfl, rfl, hc⟩ := hc
    have hmem : ∀ side, (c.endpoint side).node ∈ s.nodes := by
      rintro (_ | _)
      · exact hd
      · exact hs
    simpa [after, Build.connect_run hc] using Change.wire g c hmem hc
  · obtain ⟨e, hrun⟩ := Build.connect_run_of_not hc
    simpa [after, hrun] using Change.refl s

theorem change_expose {g : GraphId} {side : Side} {n : Node} {port : Int} (hn : n ∈ s.nodes) :
    s.Change (s.after ((Call.expose g side n port).build.run s.workspace)) := by
  rw [Call.build]
  by_cases hp : ∃ p : Port, p.node = n ∧ (p.index : Int) = port ∧ Bindable s.workspace g side p
  · obtain ⟨p, rfl, rfl, hp⟩ := hp
    simpa [after, Build.expose_run hp] using Change.publish g side p hn hp
  · obtain ⟨e, hrun | hrun⟩ := Build.expose_run_of_not hp
    · simpa [after, hrun] using Change.refl s
    · simpa [after, hrun] using
        Change.skip s.workspace.nextNode (s.workspace.nextPipe + 1) (Nat.le_refl _) (Nat.le_succ _)

theorem change_associate {group n : Node} {side : Side} {index port : Int} (hgroup : group ∈ s.nodes)
    (hn : n ∈ s.nodes) :
    s.Change (s.after ((Call.associate group side index n port).build.run s.workspace)) := by
  rw [Call.build]
  by_cases hp : ∃ (g : GraphId) (i : Nat) (p : Port), p.node = n ∧ (p.index : Int) = port ∧
    (i : Int) = index ∧ Build.Attachable s.workspace group g side i p
  · obtain ⟨g, i, p, rfl, rfl, rfl, hp⟩ := hp
    simpa [after, Build.associate_run hp] using Change.attach group g side i p hgroup hn hp
  · obtain ⟨e, hrun⟩ := Build.associate_run_of_not hp
    simpa [after, hrun] using Change.refl s

theorem change_validate (s : Session) (g : GraphId) :
    s.Change (s.after ((Call.validate g).build.run s.workspace)) := by
  rw [Call.build, Build.validate]
  cases h : s.workspace.validate g with
  | ok _ => simpa [after, h] using Change.refl s
  | error e => simpa [after, h] using Change.refl s

theorem change_perform (s : Session) (c : Call) : s.Change (s.perform c) := by
  unfold perform
  split
  · rename_i hadmits
    simp only [admits, Bool.and_eq_true, List.all_eq_true, List.contains_iff_mem] at hadmits
    obtain ⟨hnodes, hgraph⟩ := hadmits
    cases c with
    | newGraph domain queue => exact change_newGraph s domain queue
    | create r => exact change_create s r
    | add g ns => exact change_add (by simpa [Call.graph?] using hgraph) hnodes
    | connect g source output destination input =>
      exact change_connect (hnodes source (by simp [Call.nodes]))
        (hnodes destination (by simp [Call.nodes]))
    | expose g side n port => exact change_expose (hnodes n (by simp [Call.nodes]))
    | associate group side index n port =>
      exact change_associate (hnodes group (by simp [Call.nodes])) (hnodes n (by simp [Call.nodes]))
    | validate g => exact change_validate s g
    | freeze g => exact .freeze g
  · exact .refl s

end Session
end StreamCheck.Network
