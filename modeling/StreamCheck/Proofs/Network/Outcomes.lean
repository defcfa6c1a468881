import StreamCheck.Proofs.Network.Alike
import StreamCheck.Proofs.Network.Flags
import StreamCheck.Proofs.Network.Routes

/-! What compilation can end in: a model that can be written, or a fault that the graph reports in a message
that can be written. -/

namespace StreamCheck.Smv

theorem isWritable_of_le {m n : Int} (h : isWritable n = true) (hm : 0 ≤ m) (hmn : m ≤ n) :
    isWritable m = true := by
  rw [isWritable, decide_eq_true_eq] at h ⊢
  exact Nat.lt_of_le_of_lt (by omega) h

namespace Instance

theorem modulesOfAll_eq (is : List Instance) : modulesOfAll is = is.flatMap modules := by
  induction is with
  | nil => rfl
  | cons i is ih => rw [modulesOfAll, ih, List.flatMap_cons]

theorem modules_eq (i : Instance) : i.modules = modulesOfAll i.parts ++ [i.module] := by
  cases i
  rw [modules]
  rfl

theorem mem_modulesOfAll {is : List Instance} {x : Module} :
    x ∈ modulesOfAll is ↔ ∃ i ∈ is, x ∈ i.modules := by
  rw [modulesOfAll_eq, List.mem_flatMap]

theorem mem_modules {i : Instance} {x : Module} :
    x ∈ i.modules ↔ x ∈ modulesOfAll i.parts ∨ x = i.module := by
  rw [modules_eq, List.mem_append, List.mem_singleton]

end Instance
end StreamCheck.Smv

namespace StreamCheck.Network
open Smv

/-! ### Faults -/

/-- A graph reports the fault as an error of its own, in a message that can be written. -/
def Fault.Reported (e : Fault) : Prop := e.isGraphError = true ∧ e.isWritable = true

theorem Circuit.reported_behaviour {z : Sizes} {k : Kind} {e : Fault}
    (hdomain : Smv.isWritable (z.domain - 1) = true) (h : behaviour z k = .error e) : e.Reported := by
  cases k with
  | bare ins outs | group inner ins outs =>
    obtain rfl := Except.error.inj h
    exact ⟨rfl, rfl⟩
  | constant v input =>
    cases v with
    | truth b => cases h
    | number v =>
      rw [behaviour, literal] at h
      split at h
      · cases h
      · obtain rfl := Except.error.inj h
        exact ⟨rfl, hdomain⟩
  | _ => cases h

namespace Workspace
variable {w : Workspace} {z : Sizes} {height fuel : Nat} {g : GraphId} {around : List Node} {supply : Supply}
  {n : Node} {e : Fault}

theorem reported_checkFed {graph : Graph} (h : checkFed graph n = .error e) : e.Reported := by
  obtain ⟨j, -, h⟩ := exists_of_forM_eq_error h
  split at h
  · nomatch h
  · obtain rfl := Except.error.inj h
    exact ⟨rfl, rfl⟩

theorem reported_checkAssociated {inner : Graph} {side : Side} (h : checkAssociated inner n side = .error e) :
    e.Reported := by
  obtain ⟨i, -, h⟩ := exists_of_forM_eq_error h
  split at h
  · nomatch h
  · obtain rfl := Except.error.inj h
    exact ⟨rfl, rfl⟩

theorem reported_arguments {graph : Graph} (h : arguments graph supply n = .error e) : e.Reported := by
  obtain h | ⟨_, -, h⟩ := bind_eq_error_iff.1 h
  · obtain ⟨j, -, h⟩ := exists_of_mapM_eq_error h
    rw [feed] at h
    split at h
    · cases h
    · split at h
      · cases h
      · obtain rfl := Except.error.inj h
        exact ⟨rfl, rfl⟩
  · cases h

theorem NestsWithin.reported_validateWithin (h : w.NestsWithin height g) (hfuel : height ≤ fuel)
    (he : w.validateWithin fuel g = .error e) : e.Reported := by
  induction height generalizing fuel g with
  | zero => exact absurd h id
  | succ height ih =>
    obtain ⟨fuel, rfl⟩ := Nat.exists_eq_succ_of_ne_zero (by omega : fuel ≠ 0)
    obtain ⟨n, hn, he⟩ := exists_of_forM_eq_error he
    obtain he | ⟨_, -, he⟩ := bind_eq_error_iff.1 he
    · exact reported_checkFed he
    cases hinner : n.inner? with
    | none =>
      simp only [hinner] at he
      nomatch he
    | some inner =>
      simp only [hinner] at he
      obtain he | ⟨_, -, he⟩ := bind_eq_error_iff.1 he
      · exact reported_checkAssociated he
      obtain he | ⟨_, -, he⟩ := bind_eq_error_iff.1 he
      · exact reported_checkAssociated he
      · exact ih (h n hn inner hinner) (Nat.le_of_succ_le_succ hfuel) he

theorem NestsWithin.reported_instances (h : w.NestsWithin height g) (hfuel : height ≤ fuel)
    (hdomain : Smv.isWritable (z.domain - 1) = true) (he : instances w z fuel g supply = .error e) :
    e.Reported := by
  induction height generalizing fuel g supply with
  | zero => exact absurd h id
  | succ height ih =>
    obtain ⟨fuel, rfl⟩ := Nat.exists_eq_succ_of_ne_zero (by omega : fuel ≠ 0)
    rw [instances] at he
    obtain ⟨n, hn, he⟩ := exists_of_mapM_eq_error he
    cases hinner : n.inner? with
    | none =>
      simp only [hinner] at he
      obtain he | ⟨c, -, he⟩ := bind_eq_error_iff.1 he
      · cases hb : Circuit.behaviour z n.kind with
        | error e' =>
          rw [Circuit.ofKind, hb] at he
          obtain rfl := Except.error.inj he
          exact Circuit.reported_behaviour hdomain hb
        | ok b =>
          rw [Circuit.ofKind, hb] at he
          cases he
      · obtain he | ⟨_, -, he⟩ := bind_eq_error_iff.1 he
        · exact reported_arguments he
        · cases he
    | some inner =>
      simp only [hinner] at he
      obtain he | ⟨parts, -, he⟩ := bind_eq_error_iff.1 he
      · exact ih (h n hn inner hinner) (Nat.le_of_succ_le_succ hfuel) he
      · obtain he | ⟨_, -, he⟩ := bind_eq_error_iff.1 he
        · exact reported_arguments he
        · cases he

theorem NestsWithin.reported_compile (h : w.NestsWithin height g) (hdepth : height ≤ w.depth)
    (hdomain : Smv.isWritable (z.domain - 1) = true) (he : w.compile z g = .error e) : e.Reported := by
  obtain he | ⟨_, -, he⟩ := bind_eq_error_iff.1 he
  · exact h.reported_validateWithin hdepth he
  · obtain he | ⟨parts, -, he⟩ := bind_eq_error_iff.1 he
    · exact h.reported_instances hdepth hdomain he
    · nomatch he

end Workspace

/-! ### Numbers in a model -/

theorem Sizes.isWritable_scalar {z : Sizes} (hdomain : Smv.isWritable (z.domain - 1) = true) (type : PortType) :
    (z.scalar type).isWritable = true := by
  cases type with
  | integer => exact hdomain
  | boolean => rfl

theorem Circuit.isWritable_behaviour {z : Sizes} {k : Kind} {b : Circuit} {d : Declaration}
    (hdomain : Smv.isWritable (z.domain - 1) = true) (hk : ∀ v ∈ k.numbers, Smv.isWritable v = true)
    (h : behaviour z k = .ok b) (hd : d ∈ b.declarations) : d.type.isWritable = true := by
  cases k with
  | bare _ _ | group _ _ _ => nomatch h
  | passthrough _ | filter _ | apply _ _ | fork _ _ _ =>
    obtain rfl := Except.ok.inj h
    nomatch hd
  | constant v _ =>
    obtain ⟨_, -, rfl⟩ := behaviour_constant_eq_ok.1 h
    nomatch hd
  | trim count _ =>
    obtain rfl := Except.ok.inj h
    rw [List.mem_singleton.1 hd]
    exact hk count (List.mem_singleton_self _)
  | decimate interval positive _ =>
    obtain rfl := Except.ok.inj h
    have hlast : Smv.isWritable ((interval : Int) - 1) = true :=
      isWritable_of_le (hk interval (List.mem_singleton_self _)) (by omega) (by omega)
    rw [List.mem_singleton.1 hd]
    exact hlast
  | cumulate f =>
    obtain rfl := Except.ok.inj h
    rcases List.mem_pair.1 hd with rfl | rfl
    · exact hdomain
    · rfl
  | window _ f width positive =>
    obtain rfl := Except.ok.inj h
    have hwidth := hk width (List.mem_singleton_self _)
    unfold window at hd
    split at hd
    · nomatch hd
    · have hkept : Smv.isWritable (width - 1 : Nat) = true := isWritable_of_le hwidth (by omega) (by omega)
      have hlast : Smv.isWritable ((width - 1 : Nat) - 1) = true :=
        isWritable_of_le hwidth (by omega) (by omega)
      rcases List.mem_pair.1 hd with rfl | rfl
      · rw [VarType.isWritable, hlast, Bool.true_and]
        exact hdomain
      · exact hkept

theorem Queue.isWritable_circuits {z : Sizes} {types : List PortType} {d : Declaration}
    (hdomain : Smv.isWritable (z.domain - 1) = true) (hqueue : Smv.isWritable (z.queue - 1) = true)
    (hd : d ∈ (circuits z types).declarations) : d.type.isWritable = true := by
  obtain hd | hd := List.mem_append.1 hd
  · obtain ⟨c, hc, hd⟩ := Circuit.mem_declarations_join.1 hd
    obtain ⟨⟨type, j⟩, -, rfl⟩ := List.mem_map.1 hc
    rcases List.mem_pair.1 hd with rfl | rfl
    · rw [VarType.isWritable, hqueue, Sizes.isWritable_scalar hdomain]
      rfl
    · rw [VarType.isWritable, hqueue]
      rfl
  · nomatch hd

namespace Workspace
variable {w : Workspace} {z : Sizes} {fuel : Nat} {g : GraphId} {supply : Supply} {m : Model}

theorem Writable.domain (h : w.Writable g z) : Smv.isWritable (z.domain - 1) = true := h.sizes _ (by simp)

theorem Writable.queue (h : w.Writable g z) : Smv.isWritable (z.queue - 1) = true := h.sizes _ (by simp)

theorem Writable.inside {n : Node} {inner : GraphId} (h : w.Writable g z) (hn : n ∈ (w.graph g).nodes)
    (hinner : n.inner? = some inner) : w.Writable inner z :=
  ⟨h.sizes, (forall_holds_iff.1 h.numbers n hn).2 inner hinner⟩

theorem Writable.instances (h : w.Writable g z) {parts : List Instance}
    (hparts : instances w z fuel g supply = .ok parts) {x : Module} (hx : x ∈ Instance.modulesOfAll parts) :
    ∀ d ∈ x.declarations, d.type.isWritable = true := by
  induction fuel generalizing g supply parts with
  | zero => nomatch hparts
  | succ fuel ih =>
    obtain ⟨i, hi, hx⟩ := Instance.mem_modulesOfAll.1 hx
    obtain ⟨n, hn, hi⟩ := (exists_node hparts).2 i hi
    obtain ⟨-, -, -, hleaf, hgroup⟩ := instanceOf_eq_ok hi
    rw [Instance.mem_modules] at hx
    cases hinner : n.inner? with
    | none =>
      rw [hleaf hinner] at hx
      obtain rfl := hx.resolve_left fun hx => nomatch hx
      obtain ⟨b, hb, hmodule⟩ := Node.leafModule_eq_ok.1 (leafModule_instanceOf hi hinner)
      rw [← hmodule]
      intro d hd
      obtain hd | hd := List.mem_append.1 hd
      · exact Queue.isWritable_circuits h.domain h.queue hd
      · exact Circuit.isWritable_behaviour h.domain (h.numbers g n ⟨[], .top, hn⟩) hb hd
    | some inner =>
      obtain ⟨hparts, hmodule⟩ := hgroup inner hinner
      obtain hx | rfl := hx
      · exact ih (h.inside hn hinner) hparts hx
      · rw [hmodule]
        intro d hd
        obtain ⟨i', -, rfl⟩ := List.mem_map.1 hd
        rfl

theorem Writable.compile (h : w.Writable g z) (hm : w.compile z g = .ok m) : m.isWritable = true := by
  obtain ⟨-, hparts, hmain⟩ := compile_eq_ok hm
  have hscalar (side : Side) (e : External) : (w.pipeType z side e).isWritable = true :=
    Sizes.isWritable_scalar h.domain _
  simp only [Model.isWritable, List.all_eq_true]
  intro x hx d hd
  obtain rfl | hx := List.mem_cons.1 hx
  · rw [hmain] at hd
    rcases mem_declarations_mainModule hd with ⟨e, -, rfl | rfl⟩ | ⟨i, -, rfl⟩ | ⟨e, -, rfl | rfl⟩
    · exact hscalar .input e
    · rfl
    · rfl
    · exact hscalar .output e
    · rfl
  · exact h.instances hparts hx d hd

end Workspace

/-! ### Every session -/

namespace Session
open Workspace
variable {s : Session}

theorem Sound.eq_of_id_eq (h : s.Sound) {g g' : GraphId} {a b : Node} (ha : a ∈ (s.workspace.graph g).nodes)
    (hb : b ∈ (s.workspace.graph g').nodes) (hid : a.id = b.id) : a = b :=
  h.numbered.eq_of_id_eq (h.numbered.member g a ha) (h.numbered.member g' b hb) hid

theorem Sound.nodup_pipes (h : s.Sound) (g : GraphId) (side : Side) :
    (((s.workspace.graph g).externals side).map External.pipe).Nodup :=
  (h.piped.increasing.imp Nat.ne_of_lt).sublist (h.piped.ordered g side)

/-- After any calls, a graph whose nesting ends has a model exactly if it is valid and no node of it, at any
depth, is without a behaviour or puts out a constant outside the domain, no group around it feeds its nodes
and no pipe leads into a group of it. The model can be written if the numbers it is made from can; and
without a model there is a fault that the graph reports. -/
theorem compile_outcome (cs : List Call) (z : Sizes) (g : GraphId)
    (hgrounded : (({} : Session).performAll cs).workspace.Grounded g)
    (hwritable : (({} : Session).performAll cs).workspace.Writable g z) :
    let w := (({} : Session).performAll cs).workspace
    (w.validate g = .ok () ↔ w.Valid g) ∧ ((∃ m, w.compile z g = .ok m) ↔ w.Compilable g z) ∧
      (∀ m, w.compile z g = .ok m → m.isWritable = true) ∧
      ∀ e, w.compile z g = .error e → e.isGraphError = true ∧ e.isWritable = true := by
  intro w
  have h : (({} : Session).performAll cs).Sound := sound_performAll cs
  have hnests := h.numbered.nestsWithin hgrounded
  exact ⟨hnests.validateWithin_eq_ok_iff (Nat.le_refl _),
    hnests.exists_compile_iff (Nat.le_refl _) (h.wiredThroughout g), fun _ => hwritable.compile,
    fun _ => hnests.reported_compile (Nat.le_refl _) hwritable.domain⟩

/-- The relay has a model, but the inside of its group has none by itself. -/
theorem compile_outcome_of_relay :
    let w := (({} : Session).performAll relay).workspace
    w.Compilable 0 ⟨4, 2⟩ ∧ ¬ w.Compilable 1 ⟨4, 2⟩ := by
  intro w
  have hnumbers : ∀ graph ∈ w.graphs, ∀ n ∈ graph.nodes, ∀ v ∈ n.kind.numbers, Smv.isWritable v = true := by
    decide +kernel
  have hwritable (g : GraphId) : w.Writable g ⟨4, 2⟩ :=
    ⟨by decide +kernel, fun _ _ => forall_of_holds hnumbers⟩
  have hnests : w.NestsWithin 2 0 := by decide +kernel
  have hnests' : w.NestsWithin 1 1 := by decide +kernel
  obtain ⟨-, houter, -⟩ := compile_outcome relay ⟨4, 2⟩ 0 hnests.grounded (hwritable 0)
  obtain ⟨-, hinner, -⟩ := compile_outcome relay ⟨4, 2⟩ 1 hnests'.grounded (hwritable 1)
  constructor
  · exact houter.1 (exists_eq_ok (by decide +kernel))
  · intro hcompilable
    obtain ⟨m, hm⟩ := hinner.2 hcompilable
    have hok : (w.compile ⟨4, 2⟩ 1).isOk = false := by decide +kernel
    rw [hm] at hok
    nomatch hok

end Session
end StreamCheck.Network
