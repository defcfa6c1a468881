import StreamCheck.Proofs.Circuit.Behaviour

/-! Runs of circuits: the module of a node says once, and without going round in circles, what each of its
names holds, so for whatever arrives on its inputs it has a run. -/

namespace StreamCheck.Network
open Smv

theorem Circuit.settled_ofKind {s : Sizes} {k : Kind} {b : Circuit}
    (h : Circuit.behaviour s k = .ok b) : (Queue.circuits s k.inputs ++ b).Settled := by
  refine (Queue.settled_circuits s k.inputs).append (Circuit.settled_behaviour h) fun n hn hb => ?_
  have howner := Queue.owner_of_mem_names hn
  rw [Circuit.owner_of_mem_names h hb] at howner
  cases howner

theorem Circuit.owner_ofKind {s : Sizes} {k : Kind} {b : Circuit}
    (h : Circuit.behaviour s k = .ok b) {n : Name} (hn : n ∈ (Queue.circuits s k.inputs ++ b).names) :
    n.owner ≠ .outside := by
  rcases (Circuit.names_append _ _ n).mp hn with hn | hn
  · rw [Queue.owner_of_mem_names hn]
    exact Owner.noConfusion
  · rw [Circuit.owner_of_mem_names h hn]
    exact Owner.noConfusion

theorem Circuit.determined_ofKind {s : Sizes} {k : Kind} {b : Circuit}
    (h : Circuit.behaviour s k = .ok b) : (Queue.circuits s k.inputs ++ b).Determined := by
  refine Circuit.Determined.append (Circuit.Determined.append (Circuit.determined_join ?_)
    (Circuit.determined_of_declarations_nil rfl)) (Circuit.determined_behaviour h)
  intro c hc
  obtain ⟨⟨t, j⟩, -, rfl⟩ := List.mem_map.mp hc
  exact Queue.determined_circuit s j t

theorem Node.exists_run {n : Node} {s : Sizes} {m : Module} (hm : n.leafModule s = .ok m)
    (value fire : Nat → Nat → Value) :
    ∃ σ, m.Obeyed σ ∧ ∀ j t, σ t ⟨.own (.inValue j), none⟩ = value j t ∧
      σ t ⟨.own (.inFire j), none⟩ = fire j t := by
  obtain ⟨b, hb, rfl⟩ := Node.leafModule_eq_ok.mp hm
  have hc := Circuit.settled_ofKind hb
  have hsettled : (Workspace.circuitModule n (Queue.circuits s n.kind.inputs ++ b)).Settled
      fun p => p.ref.name.rank :=
    { define_unique := hc.define_unique, assign_unique := hc.assign_unique, timed := hc.timed
      apart := fun d hd a ha hcell => by
        have hrank := hc.define_rank d hd
        rw [← congrArg (·.name.rank) hcell, hc.assign_rank a ha] at hrank
        cases hrank
      graded := hc.graded, first_constant := hc.first_constant }
  let outside : Nat → State := fun t p =>
    match p.ref.name with
    | .inValue j => value j t
    | .inFire j => fire j t
    | _ => default
  obtain ⟨σ, hdefines, hassigns, houtside⟩ := hsettled.exists_trace outside
  refine ⟨σ, ⟨hdefines, hassigns, fun d hd x hx t hfree => ?_⟩, fun j t => ?_⟩
  · -- no declared cell is ever free to hold just any value of its type
    obtain ⟨a, ha, hcell, htiming⟩ := Circuit.determined_ofKind hb d hd x hx
      (if t = 0 then .first else .after) (by split <;> simp)
    exact absurd ⟨a, ha, hcell, .inr htiming⟩ hfree
  · have hgiven : ∀ n, n.owner = .outside → σ t ⟨.own n, none⟩ = outside t ⟨.own n, none⟩ := by
      intro n hn
      refine houtside _ (fun d hd hspot => ?_) (fun a ha hspot => ?_) t
      · have hname : n = d.1 := congrArg (·.ref.name) hspot
        exact Circuit.owner_ofKind hb (Circuit.define_mem_names hd) (hname ▸ hn)
      · have hname : n = a.cell.name := congrArg (·.ref.name) hspot
        exact Circuit.owner_ofKind hb (Circuit.assign_mem_names ha) (hname ▸ hn)
    exact ⟨hgiven _ rfl, hgiven _ rfl⟩

end StreamCheck.Network
