import StreamCheck.Network.Compilation
import StreamCheck.Proofs.Circuit.Parts
import StreamCheck.Smv.Bracketing

/-! Bracketing of circuits: every text in the module of a node is read as the expression that it was
written from, whatever the kind of the node and the sizes. -/

namespace StreamCheck

namespace Smv

def Update.isBracketed : Update → Bool
  | value e => e.isBracketed
  | cases bs => bs.all fun b => 3 ≤ b.1.level && b.1.isBracketed && b.2.isBracketed

def Module.isBracketed (m : Module) : Bool :=
  m.defines.all (·.2.isBracketed) && m.assigns.all (·.update.isBracketed)

namespace Expr

theorem isBracketed_foldl_and {es : List Expr} (h : ∀ e ∈ es, 5 ≤ e.level ∧ e.isBracketed)
    {e : Expr} (he : 4 ≤ e.level ∧ e.isBracketed) : (es.foldl (binary .and) e).isBracketed := by
  induction es generalizing e with
  | nil => exact he.2
  | cons x xs ih =>
    obtain ⟨hx, hxs⟩ := List.forall_mem_cons.mp h
    refine ih hxs ⟨Nat.le_refl 4, ?_⟩
    simp [isBracketed, BinaryOp.leftLevel, BinaryOp.rightLevel, BinaryOp.level, he, hx]

theorem isBracketed_conj {es : List Expr} (h : ∀ e ∈ es, 5 ≤ e.level ∧ e.isBracketed) :
    (conj es).isBracketed := by
  cases es with
  | nil => rfl
  | cons e es =>
    obtain ⟨he, hes⟩ := List.forall_mem_cons.mp h
    exact isBracketed_foldl_and hes ⟨by omega, he.2⟩

end Expr

end Smv

namespace Network
open Smv

namespace Circuit

def isBracketed (c : Circuit) : Bool :=
  c.defines.all (·.2.isBracketed) && c.assigns.all (·.update.isBracketed)

theorem isBracketed_append (a b : Circuit) :
    (a ++ b).isBracketed = (a.isBracketed && b.isBracketed) := by
  change ((a.defines ++ b.defines).all _ && (a.assigns ++ b.assigns).all _) = _
  simp only [List.all_append, isBracketed]
  ac_rfl

theorem isBracketed_join (cs : List Circuit) : (join cs).isBracketed = cs.all isBracketed := by
  induction cs with
  | nil => rfl
  | cons c cs ih =>
    rw [List.all_cons, ← ih]
    exact isBracketed_append c (join cs)

end Circuit

namespace Queue

theorem isBracketed_nextFlag (q j i : Nat) : (nextFlag q j i).isBracketed := by
  by_cases hb : i + 1 < q <;> by_cases h0 : 0 < i <;>
    simp [nextFlag, hb, h0] <;> rfl

theorem isBracketed_nextValue (q j i : Nat) : (nextValue q j i).isBracketed := by
  by_cases hb : i + 1 < q <;> by_cases h0 : 0 < i <;>
    simp [nextValue, hb, h0] <;> rfl

theorem isBracketed_slotAssigns (q j : Nat) (type : PortType) (i : Nat) :
    (slotAssigns q j type i).all (·.update.isBracketed) := by
  have hblank : (blank type).isBracketed := by cases type <;> rfl
  simp only [slotAssigns, Circuit.starts, Circuit.becomes, List.all_cons, List.all_nil,
    Bool.and_true, Bool.and_eq_true]
  exact ⟨rfl, hblank, isBracketed_nextFlag q j i, isBracketed_nextValue q j i⟩

theorem isBracketed_circuit (s : Sizes) (j : Nat) (type : PortType) :
    (circuit s j type).isBracketed := by
  have hassigns : (circuit s j type).assigns.all (·.update.isBracketed) = true := by
    simp only [circuit, List.all_flatMap, List.all_eq_true]
    exact fun i _ => List.all_eq_true.mp (isBracketed_slotAssigns _ j type i)
  rw [Circuit.isBracketed, hassigns]
  rfl

theorem isBracketed_circuits (s : Sizes) (types : List PortType) :
    (circuits s types).isBracketed := by
  rw [circuits, Circuit.isBracketed_append, Circuit.isBracketed_join, Bool.and_eq_true]
  constructor
  · simp [isBracketed_circuit]
  · have hready : (Expr.conj ((List.range types.length).map fun j =>
        Expr.own (.available j))).isBracketed := by
      refine Expr.isBracketed_conj fun e he => ?_
      obtain ⟨j, -, rfl⟩ := List.mem_map.mp he
      exact ⟨Nat.le_of_ble_eq_true rfl, rfl⟩
    simp [Circuit.isBracketed, hready]

end Queue

namespace Circuit
open Queue

theorem isBracketed_output {value fire : Expr} (hv : value.isBracketed) (hf : fire.isBracketed)
    (p : Nat) : ({ defines := output p value fire } : Circuit).isBracketed := by
  simp [isBracketed, output, hv, hf]

theorem isBracketed_combine (f : Fold) (d : Int) {a b : Expr} (ha : 7 ≤ a.level ∧ a.isBracketed)
    (hb : 9 ≤ b.level ∧ b.isBracketed) :
    7 ≤ (f.combine d a b).level ∧ (f.combine d a b).isBracketed := by
  have hleft : f.sign.leftLevel ≤ a.level := Nat.le_trans (by cases f <;> decide) ha.1
  have hright : f.sign.rightLevel ≤ b.level := Nat.le_trans (by cases f <;> decide) hb.1
  have hinner : (Expr.binary f.sign a b).isBracketed := by
    simp [Expr.isBracketed, hleft, hright, ha.2, hb.2]
  refine ⟨Nat.le_refl 7, ?_⟩
  change (true && true && (Expr.binary f.sign a b).isBracketed && true) = true
  rw [hinner]
  rfl

theorem isBracketed_foldl_combine (f : Fold) (d : Int) {es : List Expr}
    (h : ∀ e ∈ es, 9 ≤ e.level ∧ e.isBracketed) {a : Expr} (ha : 7 ≤ a.level ∧ a.isBracketed) :
    (es.foldl (f.combine d) a).isBracketed := by
  -- each result is a remainder, which can stand on the left of the next sign without brackets
  induction es generalizing a with
  | nil => exact ha.2
  | cons x xs ih =>
    obtain ⟨hx, hxs⟩ := List.forall_mem_cons.mp h
    exact ih hxs (isBracketed_combine f d ha hx)

theorem isBracketed_window (s : Sizes) (f : Fold) (width : Nat) :
    (window s f width).isBracketed := by
  unfold window
  split
  · rfl
  · have hfold : (((List.range (width - 1 - 1)).map (fun i => windowSlot (i + 1)) ++ [front 0]).foldl
        (f.combine s.domain) (windowSlot 0)).isBracketed := by
      refine isBracketed_foldl_combine f _ (fun e he => ?_) ⟨Nat.le_of_ble_eq_true rfl, rfl⟩
      rcases List.mem_append.mp he with he | he
      · obtain ⟨i, -, rfl⟩ := List.mem_map.mp he
        exact ⟨Nat.le_refl 9, rfl⟩
      · obtain rfl := List.mem_singleton.mp he
        exact ⟨Nat.le_refl 9, rfl⟩
    have hslot : ∀ i, (nextWindowSlot (width - 1) i).isBracketed := by
      intro i
      by_cases hb : i + 1 < width - 1 <;> simp only [nextWindowSlot, hb] <;> rfl
    have hslots : ((List.range (width - 1)).flatMap fun i =>
        [starts ⟨.window, some i⟩ (.num 0),
          becomes ⟨.window, some i⟩ (nextWindowSlot (width - 1) i)]).all
            (·.update.isBracketed) = true := by
      rw [List.all_flatMap, List.all_eq_true]
      intro i _
      simp only [List.all_cons, List.all_nil, Bool.and_true, becomes, hslot]
      rfl
    simp only [isBracketed_append, Bool.and_eq_true]
    refine ⟨⟨⟨rfl, rfl⟩, ?_⟩, isBracketed_output hfold rfl 0⟩
    rw [isBracketed, hslots]
    rfl

theorem isBracketed_behaviour {s : Sizes} {k : Kind} {b : Circuit} (h : behaviour s k = .ok b) :
    b.isBracketed := by
  cases k with
  | bare _ _ | group _ _ _ => cases h
  | passthrough _ | filter _ | trim _ _ | decimate _ _ _ =>
    cases h
    rfl
  | fork n _ _ =>
    cases h
    simp only [isBracketed, List.all_flatMap, List.all_nil, Bool.and_true, List.all_eq_true]
    exact fun p _ => List.all_eq_true.mp rfl
  | constant v _ =>
    obtain ⟨e, he, rfl⟩ := behaviour_constant_eq_ok.mp h
    obtain ⟨b, rfl⟩ | ⟨n, rfl⟩ := literal_eq_ok he <;> exact isBracketed_output rfl rfl 0
  | apply op _ => cases h; cases op <;> rfl
  | cumulate f => cases h; cases f <;> rfl
  | window _ f width _ =>
    cases h
    exact isBracketed_window s f width

end Circuit

theorem Node.isBracketed_leafModule {n : Node} {s : Sizes} {m : Module}
    (hm : n.leafModule s = .ok m) : m.isBracketed := by
  obtain ⟨b, hb, rfl⟩ := Node.leafModule_eq_ok.mp hm
  have hall : (Queue.circuits s n.kind.inputs ++ b).isBracketed := by
    rw [Circuit.isBracketed_append, Queue.isBracketed_circuits, Circuit.isBracketed_behaviour hb]
    rfl
  exact hall

end Network
end StreamCheck
