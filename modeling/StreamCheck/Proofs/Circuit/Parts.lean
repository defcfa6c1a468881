import StreamCheck.Network.Compilation
import StreamCheck.Smv.Run

/-! Circuits part by part: a trace obeys a node's module exactly when it obeys the queue of each input,
the definition of readiness and the behaviour of the node's kind. -/

namespace StreamCheck.Network
open Smv

def Node.leafModule (n : Node) (s : Sizes) : Except Fault Module :=
  (Circuit.ofKind s n.kind).map (Workspace.circuitModule n)

namespace Circuit

structure Obeyed (c : Circuit) (σ : Trace) : Prop where
  defines : ∀ d ∈ c.defines, ∀ t, σ t ⟨.own d.1, none⟩ = d.2.eval (σ t)
  assigns : ∀ a ∈ c.assigns, a.Obeyed σ

variable {σ : Trace}

theorem obeyed_append {a b : Circuit} : (a ++ b).Obeyed σ ↔ a.Obeyed σ ∧ b.Obeyed σ := by
  constructor
  · intro h
    exact ⟨⟨fun d hd => h.defines d (List.mem_append_left _ hd),
        fun x hx => h.assigns x (List.mem_append_left _ hx)⟩,
      ⟨fun d hd => h.defines d (List.mem_append_right _ hd),
        fun x hx => h.assigns x (List.mem_append_right _ hx)⟩⟩
  · rintro ⟨ha, hb⟩
    exact ⟨fun d hd => (List.mem_append.mp hd).elim (ha.defines d) (hb.defines d),
      fun x hx => (List.mem_append.mp hx).elim (ha.assigns x) (hb.assigns x)⟩

theorem obeyed_empty : ({} : Circuit).Obeyed σ :=
  ⟨fun _ hd => absurd hd List.not_mem_nil, fun _ ha => absurd ha List.not_mem_nil⟩

theorem obeyed_join {cs : List Circuit} : (join cs).Obeyed σ ↔ ∀ c ∈ cs, c.Obeyed σ := by
  induction cs with
  | nil => simp [join, obeyed_empty]
  | cons c cs ih =>
    rw [List.forall_mem_cons, ← ih]
    exact obeyed_append

theorem obeyed_of_module {m : Module} (h : m.Obeyed σ) :
    (⟨m.declarations, m.defines, m.assigns⟩ : Circuit).Obeyed σ := ⟨h.defines, h.assigns⟩

theorem behaviour_constant_eq_ok {s : Sizes} {v : Literal} {t : PortType} {b : Circuit} :
    behaviour s (.constant v t) = .ok b ↔
      ∃ e, literal s v = .ok e ∧ { defines := output 0 e Queue.ready } = b := by
  change (literal s v).map (fun e => ({ defines := output 0 e Queue.ready } : Circuit)) = .ok b ↔ _
  cases literal s v with
  | error e => simp [Except.map]
  | ok e => simp [Except.map]

theorem literal_eq_ok {s : Sizes} {v : Literal} {e : Expr} (h : literal s v = .ok e) :
    (∃ b, e = .bool b) ∨ ∃ n, e = .num n := by
  cases v with
  | truth b => exact .inl ⟨b, (Except.ok.inj h).symm⟩
  | number n =>
    rw [literal] at h
    split at h
    · exact .inr ⟨n, (Except.ok.inj h).symm⟩
    · cases h

end Circuit

theorem Node.leafModule_eq_ok {n : Node} {s : Sizes} {m : Module} :
    n.leafModule s = .ok m ↔ ∃ b, Circuit.behaviour s n.kind = .ok b ∧
      Workspace.circuitModule n (Queue.circuits s n.kind.inputs ++ b) = m := by
  unfold Node.leafModule Circuit.ofKind
  cases Circuit.behaviour s n.kind with
  | error e => simp [Except.map]
  | ok b => simp [Except.map]

theorem Node.leafModule_parts {n : Node} {s : Sizes} {m : Module} {σ : Trace}
    (hm : n.leafModule s = .ok m) (h : m.Obeyed σ) :
    (Queue.circuits s n.kind.inputs).Obeyed σ ∧
      ∃ b, Circuit.behaviour s n.kind = .ok b ∧ b.Obeyed σ := by
  obtain ⟨b, hb, rfl⟩ := Node.leafModule_eq_ok.mp hm
  obtain ⟨hq, hk⟩ := Circuit.obeyed_append.mp (Circuit.obeyed_of_module h)
  exact ⟨hq, b, hb, hk⟩

namespace Queue
variable {s : Sizes} {types : List PortType} {σ : Trace}

theorem obeyed_of_circuits (h : (circuits s types).Obeyed σ) {j : Nat} {type : PortType}
    (hj : types[j]? = some type) : (circuit s j type).Obeyed σ := by
  refine Circuit.obeyed_join.mp (Circuit.obeyed_append.mp h).1 _ (List.mem_map.mpr ⟨(type, j), ?_, rfl⟩)
  exact List.mk_mem_zipIdx_iff_getElem?.mpr hj

theorem ready_of_circuits (h : (circuits s types).Obeyed σ) (t : Nat) :
    ready.eval (σ t) = (Expr.conj ((List.range types.length).map fun j =>
      Expr.own (.available j))).eval (σ t) :=
  (Circuit.obeyed_append.mp h).2.defines _ List.mem_cons_self t

end Queue

end StreamCheck.Network
