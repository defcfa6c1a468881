import Mathlib.Data.List.Basic
import Mathlib.Data.List.Nodup
import Mathlib.Tactic.Tauto
import StreamCheck.Proofs.Circuit.Parts
import StreamCheck.Proofs.Smv.Settling

/-! Settled circuits: each name is defined or assigned once, and definitions look only at names that get
their values before. Circuits about different names can be put together, such as queues. -/

namespace StreamCheck

namespace Smv

/-- In which order the names of a node's module get their values at a moment. -/
def Name.rank : Name → Nat
  | available _ | front _ => 1
  | ready => 2
  | outValue _ | outFire _ => 3
  | _ => 0

inductive Owner where
  | queue
  | behaviour
  /-- Whoever the module is an instance for. -/
  | outside
deriving DecidableEq

def Name.owner : Name → Owner
  | available _ | front _ | queueFlags _ | queueValues _ | ready => .queue
  | outValue _ | outFire _ | counter | accumulator | started | window => .behaviour
  | _ => .outside

end Smv

namespace Smv.Expr

def Below (e : Expr) (k : Nat) : Prop := ∀ p ∈ e.reads, p.ref.name.rank < k

section
variable {k : Nat} {n : Name} {i : Int} {op : BinaryOp} {a b c e : Expr} {es : List Expr}

@[simp] theorem below_bool {v : Bool} : (bool v).Below k := fun _ h => nomatch h

@[simp] theorem below_num : (num i).Below k := fun _ h => nomatch h

@[simp] theorem below_own : (own n).Below k ↔ n.rank < k := by
  simp [Below, own, reads, Ref.own]

@[simp] theorem below_ownSlot : (ownSlot n i).Below k ↔ n.rank < k := by
  simp [Below, ownSlot, reads, Ref.own]

@[simp] theorem below_paren : (paren e).Below k ↔ e.Below k := Iff.rfl

@[simp] theorem below_not : (not e).Below k ↔ e.Below k := Iff.rfl

@[simp] theorem below_binary : (binary op a b).Below k ↔ a.Below k ∧ b.Below k :=
  List.forall_mem_append

@[simp] theorem below_choose : (choose c a b).Below k ↔ (c.Below k ∧ a.Below k) ∧ b.Below k :=
  List.forall_mem_append.trans (and_congr_left' List.forall_mem_append)

theorem below_conj (h : ∀ e ∈ es, e.Below k) : (conj es).Below k := by
  cases es with
  | nil => exact below_bool
  | cons e es =>
    obtain ⟨he, hes⟩ := List.forall_mem_cons.1 h
    rw [Below, conj, reads_foldl_binary]
    intro p hp
    obtain hp | hp := List.mem_append.1 hp
    · exact he p hp
    · obtain ⟨e', he', hp⟩ := List.mem_flatMap.1 hp
      exact hes e' he' p hp

end

end Smv.Expr

namespace Network
open Smv

namespace Circuit

def names (c : Circuit) : List Name := c.defines.map Prod.fst ++ c.assigns.map (·.cell.name)

/-- A circuit that says once what each of its names holds, in the order of their ranks. -/
structure Settled (c : Circuit) : Prop where
  define_unique : ∀ d ∈ c.defines, ∀ d' ∈ c.defines, d.1 = d'.1 → d = d'
  assign_unique : ∀ a ∈ c.assigns, ∀ b ∈ c.assigns, a.cell = b.cell → a.timing = b.timing → a = b
  timed : ∀ a ∈ c.assigns, a.timing = .first ∨ a.timing = .after
  define_rank : ∀ d ∈ c.defines, 0 < d.1.rank
  assign_rank : ∀ a ∈ c.assigns, a.cell.name.rank = 0
  graded : ∀ d ∈ c.defines, d.2.Below d.1.rank
  first_constant : ∀ a ∈ c.assigns, a.timing = .first → ∀ s s', a.update.eval s = a.update.eval s'

def Determined (c : Circuit) : Prop :=
  ∀ d ∈ c.declarations, ∀ x ∈ d.cells, ∀ timing, timing = .first ∨ timing = .after →
    ∃ a ∈ c.assigns, a.cell = x.1 ∧ a.timing = timing

theorem names_append (a b : Circuit) (n : Name) :
    n ∈ (a ++ b).names ↔ n ∈ a.names ∨ n ∈ b.names := by
  change n ∈ (a.defines ++ b.defines).map Prod.fst ++ (a.assigns ++ b.assigns).map (·.cell.name) ↔ _
  simp only [names, List.map_append, List.mem_append]
  tauto

theorem define_mem_names {c : Circuit} {d : Name × Expr} (hd : d ∈ c.defines) : d.1 ∈ c.names :=
  List.mem_append_left _ (List.mem_map_of_mem hd)

theorem assign_mem_names {c : Circuit} {a : Assign} (ha : a ∈ c.assigns) : a.cell.name ∈ c.names :=
  List.mem_append_right _ (List.mem_map_of_mem ha)

/-- Two circuits about different names can stand side by side. -/
theorem Settled.append {a b : Circuit} (ha : a.Settled) (hb : b.Settled)
    (hapart : ∀ n ∈ a.names, n ∉ b.names) : (a ++ b).Settled where
  define_unique := by
    intro d hd d' hd' hname
    rcases List.mem_append.mp hd with hda | hdb <;> rcases List.mem_append.mp hd' with hda' | hdb'
    · exact ha.define_unique d hda d' hda' hname
    · exact absurd (define_mem_names hdb') (hname ▸ hapart _ (define_mem_names hda))
    · exact absurd (define_mem_names hdb) (hname ▸ hapart _ (define_mem_names hda'))
    · exact hb.define_unique d hdb d' hdb' hname
  assign_unique := by
    intro x hx y hy hcell
    have hname : x.cell.name = y.cell.name := congrArg Cell.name hcell
    rcases List.mem_append.mp hx with hxa | hxb <;> rcases List.mem_append.mp hy with hya | hyb
    · exact ha.assign_unique x hxa y hya hcell
    · exact absurd (assign_mem_names hyb) (hname ▸ hapart _ (assign_mem_names hxa))
    · exact absurd (assign_mem_names hxb) (hname ▸ hapart _ (assign_mem_names hya))
    · exact hb.assign_unique x hxb y hyb hcell
  timed x hx := (List.mem_append.mp hx).elim (ha.timed x) (hb.timed x)
  define_rank d hd := (List.mem_append.mp hd).elim (ha.define_rank d) (hb.define_rank d)
  assign_rank x hx := (List.mem_append.mp hx).elim (ha.assign_rank x) (hb.assign_rank x)
  graded d hd := (List.mem_append.mp hd).elim (ha.graded d) (hb.graded d)
  first_constant x hx := (List.mem_append.mp hx).elim (ha.first_constant x) (hb.first_constant x)

theorem Determined.append {a b : Circuit} (ha : a.Determined) (hb : b.Determined) :
    (a ++ b).Determined := by
  intro d hd x hx timing ht
  rcases List.mem_append.mp hd with hda | hdb
  · obtain ⟨y, hy, hcell⟩ := ha d hda x hx timing ht
    exact ⟨y, List.mem_append_left _ hy, hcell⟩
  · obtain ⟨y, hy, hcell⟩ := hb d hdb x hx timing ht
    exact ⟨y, List.mem_append_right _ hy, hcell⟩

theorem determined_of_declarations_nil {c : Circuit} (h : c.declarations = []) : c.Determined := by
  intro d hd
  rw [h] at hd
  exact absurd hd List.not_mem_nil

theorem settled_empty : ({} : Circuit).Settled := by
  constructor <;> exact fun _ h => absurd h List.not_mem_nil

theorem names_join {cs : List Circuit} {n : Name} : n ∈ (join cs).names ↔ ∃ c ∈ cs, n ∈ c.names := by
  induction cs with
  | nil => simp [join, names]
  | cons c cs ih =>
    rw [List.exists_mem_cons_iff, ← ih]
    exact names_append c (join cs) n

theorem mem_declarations_join {cs : List Circuit} {d : Declaration} :
    d ∈ (join cs).declarations ↔ ∃ c ∈ cs, d ∈ c.declarations := by
  induction cs with
  | nil => simp [join]
  | cons c cs ih =>
    rw [List.exists_mem_cons_iff, ← ih]
    exact List.mem_append

theorem settled_join {cs : List Circuit} (h : ∀ c ∈ cs, c.Settled)
    (hapart : cs.Pairwise fun a b => ∀ n ∈ a.names, n ∉ b.names) : (join cs).Settled := by
  induction cs with
  | nil => exact settled_empty
  | cons c cs ih =>
    obtain ⟨hc, hcs⟩ := List.forall_mem_cons.mp h
    obtain ⟨hhead, htail⟩ := List.pairwise_cons.mp hapart
    refine Settled.append hc (ih hcs htail) fun n hn hjoin => ?_
    obtain ⟨b, hb, hnb⟩ := names_join.mp hjoin
    exact hhead b hb n hn hnb

theorem determined_join {cs : List Circuit} (h : ∀ c ∈ cs, c.Determined) : (join cs).Determined := by
  induction cs with
  | nil => exact determined_of_declarations_nil rfl
  | cons c cs ih =>
    obtain ⟨hc, hcs⟩ := List.forall_mem_cons.mp h
    exact Determined.append hc (ih hcs)

theorem settled_defines {ds : List (Name × Expr)} (hnodup : (ds.map Prod.fst).Nodup)
    (hrank : ∀ d ∈ ds, 0 < d.1.rank)
    (hgraded : ∀ d ∈ ds, d.2.Below d.1.rank) :
    ({ defines := ds } : Circuit).Settled where
  define_unique _ hd _ hd' := List.inj_on_of_nodup_map hnodup hd hd'
  assign_unique _ ha := absurd ha List.not_mem_nil
  timed _ ha := absurd ha List.not_mem_nil
  define_rank := hrank
  assign_rank _ ha := absurd ha List.not_mem_nil
  graded := hgraded
  first_constant _ ha := absurd ha List.not_mem_nil

theorem settled_output {p : Nat} {value fire : Expr} (hvalue : value.Below 3) (hfire : fire.Below 3) :
    ({ defines := output p value fire } : Circuit).Settled := by
  refine settled_defines (by simp [output]) ?_ ?_ <;>
    simp only [output, List.forall_mem_cons, Name.rank]
  · simp
  · exact ⟨hvalue, hfire, by simp⟩

end Circuit

namespace Queue

theorem mem_assigns_circuit {s : Sizes} {j : Nat} {type : PortType} {a : Assign} :
    a ∈ (circuit s j type).assigns ↔ ∃ i < s.queue.toNat,
      a = Circuit.starts ⟨.queueFlags j, some i⟩ (.bool false) ∨
      a = Circuit.starts ⟨.queueValues j, some i⟩ (blank type) ∨
      a = Circuit.becomes ⟨.queueFlags j, some i⟩ (nextFlag s.queue.toNat j i) ∨
      a = Circuit.becomes ⟨.queueValues j, some i⟩ (nextValue s.queue.toNat j i) := by
  simp only [circuit, slotAssigns, List.mem_flatMap, List.mem_range, List.mem_cons,
    List.not_mem_nil, or_false]

theorem settled_circuit (s : Sizes) (j : Nat) (type : PortType) : (circuit s j type).Settled where
  define_unique := by simp [circuit]
  assign_unique := by
    intro a ha b hb hcell htiming
    obtain ⟨i, -, ha⟩ := mem_assigns_circuit.mp ha
    obtain ⟨i', -, hb⟩ := mem_assigns_circuit.mp hb
    rcases ha with rfl | rfl | rfl | rfl <;> rcases hb with rfl | rfl | rfl | rfl <;>
      simp_all [Circuit.starts, Circuit.becomes]
  timed := by
    intro a ha
    obtain ⟨i, -, rfl | rfl | rfl | rfl⟩ := mem_assigns_circuit.mp ha <;>
      simp [Circuit.starts, Circuit.becomes]
  define_rank := by simp [circuit, Name.rank]
  assign_rank := by
    intro a ha
    obtain ⟨i, -, rfl | rfl | rfl | rfl⟩ := mem_assigns_circuit.mp ha <;> rfl
  graded := by
    simp [circuit, flag, value, arrives, arriving, Name.rank]
  first_constant := by
    intro a ha hfirst s s'
    obtain ⟨i, -, rfl | rfl | rfl | rfl⟩ := mem_assigns_circuit.mp ha
    · rfl
    · cases type <;> rfl
    · cases hfirst
    · cases hfirst

theorem determined_circuit (s : Sizes) (j : Nat) (type : PortType) :
    (circuit s j type).Determined := by
  intro d hd x hx timing ht
  simp only [circuit, List.mem_cons, List.not_mem_nil, or_false] at hd
  rcases hd with rfl | rfl <;> obtain ⟨i, hi, rfl⟩ := List.mem_map.mp hx <;>
    rcases ht with rfl | rfl
  · exact ⟨_, mem_assigns_circuit.mpr ⟨i, List.mem_range.mp hi, .inr (.inl rfl)⟩, rfl, rfl⟩
  · exact ⟨_, mem_assigns_circuit.mpr ⟨i, List.mem_range.mp hi, .inr (.inr (.inr rfl))⟩, rfl, rfl⟩
  · exact ⟨_, mem_assigns_circuit.mpr ⟨i, List.mem_range.mp hi, .inl rfl⟩, rfl, rfl⟩
  · exact ⟨_, mem_assigns_circuit.mpr ⟨i, List.mem_range.mp hi, .inr (.inr (.inl rfl))⟩, rfl, rfl⟩

theorem names_circuit {s : Sizes} {j : Nat} {type : PortType} {n : Name}
    (h : n ∈ (circuit s j type).names) :
    n = .available j ∨ n = .front j ∨ n = .queueFlags j ∨ n = .queueValues j := by
  rcases List.mem_append.mp h with hd | ha
  · simp only [circuit, List.map_cons, List.map_nil, List.mem_cons, List.not_mem_nil, or_false] at hd
    tauto
  · obtain ⟨a, hmem, rfl⟩ := List.mem_map.mp ha
    obtain ⟨i, -, rfl | rfl | rfl | rfl⟩ := mem_assigns_circuit.mp hmem <;>
      simp [Circuit.starts, Circuit.becomes]

theorem settled_ready (m : Nat) : ({ defines := [(.ready, Expr.conj ((List.range m).map fun j =>
    Expr.own (.available j)))] } : Circuit).Settled := by
  refine Circuit.settled_defines (by simp) (by simp [Name.rank]) ?_
  simp only [List.forall_mem_cons, List.not_mem_nil, false_implies, implies_true, and_true]
  refine Expr.below_conj fun e he => ?_
  obtain ⟨j, -, rfl⟩ := List.mem_map.mp he
  exact Expr.below_own.2 (Nat.lt_succ_self 1)

theorem owner_of_mem_names {s : Sizes} {types : List PortType} {n : Name}
    (h : n ∈ (circuits s types).names) : n.owner = .queue := by
  rcases (Circuit.names_append _ _ n).mp h with hn | hn
  · obtain ⟨c, hc, hnc⟩ := Circuit.names_join.mp hn
    obtain ⟨⟨t, j⟩, -, rfl⟩ := List.mem_map.mp hc
    rcases names_circuit hnc with rfl | rfl | rfl | rfl <;> rfl
  · obtain rfl := List.mem_singleton.mp hn
    rfl

theorem settled_circuits (s : Sizes) (types : List PortType) : (circuits s types).Settled := by
  refine Circuit.Settled.append (Circuit.settled_join ?_ ?_) (settled_ready _) ?_
  · intro c hc
    obtain ⟨⟨t, j⟩, -, rfl⟩ := List.mem_map.mp hc
    exact settled_circuit s j t
  · -- queues of two inputs share no name, as each name bears its input
    have hports : types.zipIdx.Pairwise fun a b => a.2 ≠ b.2 :=
      List.pairwise_map.mp (by rw [List.zipIdx_map_snd]; exact List.nodup_range')
    refine List.pairwise_map.mpr (hports.imp fun hne n hn hn' => hne ?_)
    rcases names_circuit hn with rfl | rfl | rfl | rfl <;>
      simpa using names_circuit hn'
  · intro n hn
    obtain ⟨c, hc, hnc⟩ := Circuit.names_join.mp hn
    obtain ⟨⟨t, j⟩, -, rfl⟩ := List.mem_map.mp hc
    rcases names_circuit hnc with rfl | rfl | rfl | rfl <;> simp [Circuit.names]

end Queue

end Network
end StreamCheck
