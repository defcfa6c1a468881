import StreamCheck.Network.Session
import StreamCheck.Proofs.Network.Routes
import StreamCheck.Proofs.Network.Steps

/-! Calls that fail: everything is checked before the first change, so nothing has to be taken back. Only the nodes
added before an offending one stay, and only numbers are used up. -/

namespace StreamCheck.Network
open Workspace

/-- What a failing call leaves of a workspace. -/
def Call.Leaves (w : Workspace) (e : Fault) (w' : Workspace) : Call → Prop
  | .add g ns =>
    (w.graph g).frozen = true ∧ w' = w ∨
      (w.graph g).frozen = false ∧ ∃ added n rest, ns = added ++ n :: rest ∧ (w.graph g).Extensible added ∧
        ((w.graph g).extend added).contains n = true ∧ e = .alreadyMember n ∧
        w' = w.modify g (·.extend added)
  | .expose g side n port =>
    if (w.graph g).frozen = false ∧ 0 ≤ port ∧ port < n.arity side then
      w' = { w with nextPipe := w.nextPipe + 1 }
    else w' = w
  | .create (.group _ _ _ _) => w' = { w with nextNode := w.nextNode + 1 }
  | .freeze _ => False
  | _ => w' = w

namespace Build
variable {w w' : Workspace} {g : GraphId} {e : Fault}

theorem eq_of_fails {α : Type} {x : Build α} {e' : Fault} {w'' : Workspace} (hrun : x.run w = .error e' w'')
    (h : x.run w = .error e w') : w' = w'' := by
  rw [hrun] at h
  cases h
  rfl

theorem run_eq_error_of_bind_pure {α β : Type} {x : Build α} {f : α → β}
    (h : (x >>= fun a => pure (f a)).run w = .error e w') : x.run w = .error e w' := by
  rw [EStateM.run_bind] at h
  cases hx : x.run w with
  | ok a w'' =>
    rw [hx] at h
    nomatch h
  | error e'' w'' =>
    rw [hx] at h
    cases h
    rfl

theorem run_eq_error_of_discard {α : Type} {x : Build α} (h : (discard x).run w = .error e w') :
    x.run w = .error e w' := by
  rw [discard_run] at h
  cases hx : x.run w with
  | ok a w'' =>
    rw [hx] at h
    nomatch h
  | error e'' w'' =>
    rw [hx] at h
    cases h
    rfl

theorem eq_of_throw_run {α : Type} {e' : Fault} (h : (throw e' : Build α).run w = .error e w') : w' = w :=
  eq_of_fails (throw_run e') h

theorem eq_of_ask_run {α : Type} {question : Workspace → Except Fault α}
    (h : (ask question).run w = .error e w') : w' = w := by
  rw [ask_run] at h
  split at h
  · nomatch h
  · cases h
    rfl

theorem eq_of_connect_run {source destination : Node} {output input : Int}
    (h : (connect g source output destination input).run w = .error e w') : w' = w := by
  by_cases hc : ∃ c, c.source.node = source ∧ (c.source.index : Int) = output ∧
      c.destination.node = destination ∧ (c.destination.index : Int) = input ∧ Connectable w g c
  · obtain ⟨c, rfl, rfl, rfl, rfl, hc⟩ := hc
    rw [connect_run hc] at h
    nomatch h
  · obtain ⟨e', hrun⟩ := connect_run_of_not hc
    exact eq_of_fails hrun h

theorem eq_of_associate_run {group n : Node} {side : Side} {index port : Int}
    (h : (associate group side index n port).run w = .error e w') : w' = w := by
  by_cases ha : ∃ (g : GraphId) (i : Nat) (p : Port), p.node = n ∧ (p.index : Int) = port ∧ (i : Int) = index ∧
      Attachable w group g side i p
  · obtain ⟨g, i, p, rfl, rfl, rfl, ha⟩ := ha
    rw [associate_run ha] at h
    nomatch h
  · obtain ⟨e', hrun⟩ := associate_run_of_not ha
    exact eq_of_fails hrun h

/-- The pipe is taken once the graph is known to be open and the port to be there. -/
theorem eq_of_expose_run {side : Side} {n : Node} {port : Int}
    (h : (expose g side n port).run w = .error e w') :
    if (w.graph g).frozen = false ∧ 0 ≤ port ∧ port < n.arity side then
      w' = { w with nextPipe := w.nextPipe + 1 }
    else w' = w := by
  cases hfrozen : (w.graph g).frozen with
  | true =>
    rw [if_neg fun hopen => nomatch hopen.1]
    exact eq_of_fails (expose_run_of_frozen hfrozen side n port) h
  | false =>
  by_cases hport : 0 ≤ port ∧ port < n.arity side
  · rw [if_pos ⟨rfl, hport⟩]
    have hp : port? n side port = .ok ⟨n, port.toNat⟩ := if_pos hport
    by_cases hbind : ∃ p, p.node = n ∧ (p.index : Int) = port ∧ Bindable w g side p
    · obtain ⟨p, rfl, rfl, hbind⟩ := hbind
      rw [expose_run hbind] at h
      nomatch h
    · have hbind' : ¬ ∃ p, p.node = n ∧ (p.index : Int) = port ∧
          Bindable { w with nextPipe := w.nextPipe + 1 } g side p :=
        fun ⟨p, hnode, hindex, hp⟩ =>
          hbind ⟨p, hnode, hindex, hp.unfrozen, hp.member, hp.index_lt, hp.free⟩
      obtain ⟨e', hrun⟩ := bindPort_run_of_not (fun _ => .external ⟨w.nextPipe, n, port.toNat⟩) hbind'
      have hexpose : (expose g side n port).run w = .error e' { w with nextPipe := w.nextPipe + 1 } := by
        simp [expose, hfrozen, hp, hrun]
      exact eq_of_fails hexpose h
  · rw [if_neg fun hopen => hport hopen.2]
    have hp : port? n side port = .error (.noPort n side port) := if_neg hport
    have hexpose : (expose g side n port).run w = .error (.noPort n side port) w := by
      simp [expose, hfrozen, hp]
    exact eq_of_fails hexpose h

theorem leaves_of_add_run (hg : g < w.graphs.length) {ns : List Node} (h : (add g ns).run w = .error e w') :
    (Call.add g ns).Leaves w e w' := by
  cases hfrozen : (w.graph g).frozen with
  | true =>
    rw [add_run_of_frozen hfrozen] at h
    cases h
    exact .inl ⟨hfrozen, rfl⟩
  | false =>
    obtain ⟨added, hadded, ⟨-, hrun⟩ | ⟨n, rest, hns, hn, hrun⟩⟩ := add_run hg hfrozen ns
    · rw [hrun] at h
      nomatch h
    · rw [hrun] at h
      cases h
      exact .inr ⟨hfrozen, added, n, rest, hns, hadded, hn, rfl, rfl⟩

theorem eq_of_newGraph_run {domain queue : Int} (h : (newGraph domain queue).run w = .error e w') : w' = w := by
  obtain ⟨hd, hq, hrun⟩ | ⟨e', hrun⟩ := newGraph_run w domain queue
  · rw [hrun] at h
    nomatch h
  · exact eq_of_fails hrun h

/-- A group takes its number before its graph is refused. -/
theorem eq_of_group_run {domain queue inputs outputs : Int}
    (h : (group domain queue inputs outputs).run w = .error e w') :
    w' = { w with nextNode := w.nextNode + 1 } := by
  rw [group, EStateM.run_bind, node_run] at h
  exact eq_of_newGraph_run (run_eq_error_of_bind_pure h)

theorem node_run_ne_error (k : Kind) : (node k).run w ≠ .error e w' := by
  rw [node_run]
  exact fun h => nomatch h

theorem freeze_run_ne_error : (freeze g).run w ≠ .error e w' := fun h => nomatch h

end Build

namespace Call
variable {w w' : Workspace} {e : Fault}

theorem leaves_of_make_run {r : Recipe} (h : r.make.run w = .error e w') : (create r).Leaves w e w' := by
  cases r with
  | bare _ _ | passthrough _ | filter _ | constant _ _ | apply _ _ => exact absurd h (Build.node_run_ne_error _)
  | fork n t | decimate n t | trim n t =>
    simp only [Recipe.make, Build.fork, Build.decimate, Build.trim] at h
    split at h
    · exact absurd h (Build.node_run_ne_error _)
    · exact Build.eq_of_throw_run h
  | cumulate op =>
    simp only [Recipe.make, Build.cumulate] at h
    split at h
    · exact absurd h (Build.node_run_ne_error _)
    · exact Build.eq_of_throw_run h
  | window p n =>
    simp only [Recipe.make, Build.window] at h
    split at h
    · split at h
      · exact absurd h (Build.node_run_ne_error _)
      · exact Build.eq_of_throw_run h
    · exact Build.eq_of_throw_run h
  | group d q ins outs => exact Build.eq_of_group_run h

end Call

/-- A call that fails leaves every graph and every group as it was, unless it adds nodes: then those before the
first that is there already are added, and nothing else. Pipes are used up only by an exposure, one for each that
finds its graph open and its port there. -/
theorem Session.failing_calls_leave (s : Session) (call : Call) (hadmits : s.admits call = true) {e : Fault}
    {w' : Workspace} (hfails : call.build.run s.workspace = .error e w') : call.Leaves s.workspace e w' := by
  cases call with
  | newGraph d q =>
    exact Build.eq_of_newGraph_run (Build.run_eq_error_of_discard (Build.run_eq_error_of_bind_pure hfails))
  | create r => exact Call.leaves_of_make_run (Build.run_eq_error_of_bind_pure hfails)
  | add g ns =>
    rw [Session.admits, Bool.and_eq_true] at hadmits
    exact Build.leaves_of_add_run (of_decide_eq_true hadmits.2) (Build.run_eq_error_of_bind_pure hfails)
  | connect g source output destination input =>
    exact Build.eq_of_connect_run (Build.run_eq_error_of_discard (Build.run_eq_error_of_bind_pure hfails))
  | expose g side n port => exact Build.eq_of_expose_run (Build.run_eq_error_of_bind_pure hfails)
  | associate group side index n port =>
    exact Build.eq_of_associate_run (Build.run_eq_error_of_bind_pure hfails)
  | validate g => exact Build.eq_of_ask_run (Build.run_eq_error_of_bind_pure hfails)
  | freeze g => exact Build.freeze_run_ne_error (Build.run_eq_error_of_bind_pure hfails)

/-- Two new nodes come to the graph of the relay before the first of them would come again, and the port of the
group that has its pipe already uses up another one. -/
theorem Session.failing_calls_leave_of_relay :
    let s := ({} : Session).performAll
      (relay ++ [.create (.passthrough .integer), .create (.passthrough .integer)])
    let four : Node := ⟨4, .passthrough .integer⟩
    let five : Node := ⟨5, .passthrough .integer⟩
    (∃ e w', (Call.add 0 [four, five, four]).build.run s.workspace = .error e w' ∧
      (Call.add 0 [four, five, four]).Leaves s.workspace e w' ∧
        (w'.graph 0).nodes = (s.workspace.graph 0).nodes ++ [four, five]) ∧
    ∃ e w', (Call.expose 0 .input ⟨1, .group 1 1 1⟩ 0).build.run s.workspace = .error e w' ∧
      w' = { s.workspace with nextPipe := 3 } := by
  intro s four five
  have hadd : ∃ e w', (Call.add 0 [four, five, four]).build.run s.workspace = .error e w' ∧
      (w'.graph 0).nodes = (s.workspace.graph 0).nodes ++ [four, five] := ⟨_, _, rfl, rfl⟩
  have hexpose : ∃ e w', (Call.expose 0 .input ⟨1, .group 1 1 1⟩ 0).build.run s.workspace = .error e w' :=
    ⟨_, _, rfl⟩
  obtain ⟨e, w', hrun, hnodes⟩ := hadd
  obtain ⟨e', w'', hrun'⟩ := hexpose
  refine ⟨⟨e, w', hrun, s.failing_calls_leave _ (by decide +kernel) hrun, hnodes⟩, e', w'', hrun', ?_⟩
  have hleft := s.failing_calls_leave _ (by decide +kernel) hrun'
  rw [Call.Leaves, if_pos (by decide +kernel)] at hleft
  exact hleft

end StreamCheck.Network
