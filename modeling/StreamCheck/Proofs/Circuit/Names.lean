import StreamCheck.Proofs.Basic
import StreamCheck.Proofs.Circuit.Unique
import StreamCheck.Proofs.Smv.WellFormed

/-! The names in the module of a node: none is given twice, each output of the node has its definitions, and only
slots that there are are assigned. -/

namespace StreamCheck

namespace Smv

theorem Name.isOrdinary_of_owner {x : Name} (h : x.owner ≠ .outside) : x.IsOrdinary := by
  cases x with
  | other t => exact h rfl
  | _ => trivial

end Smv

namespace Network
open Smv

namespace Circuit

def Declares (c : Circuit) (owner : Owner) : Prop := ∀ d ∈ c.declarations,
  d.name.owner = owner ∧ d.name.rank = 0 ∧ ∀ callee args, d.type ≠ .part callee args

structure Tidy (c : Circuit) : Prop where
  declared : (c.declarations.map Declaration.name).Nodup
  targets : (c.assigns.map fun a => (a.timing, a.cell)).Nodup
  assigned : ∀ a ∈ c.assigns, ∃ d ∈ c.declarations, ∃ x ∈ d.cells, x.1 = a.cell

section
variable {a b c : Circuit}

theorem Tidy.name_mem (h : c.Tidy) {x : Assign} (hx : x ∈ c.assigns) :
    x.cell.name ∈ c.declarations.map Declaration.name := by
  obtain ⟨d, hd, y, hy, hcell⟩ := h.assigned x hx
  rw [← hcell, Declaration.name_of_mem_cells hy]
  exact List.mem_map_of_mem hd

theorem Tidy.append (ha : a.Tidy) (hb : b.Tidy) (hapart : ∀ x ∈ a.declarations.map Declaration.name,
    x ∉ b.declarations.map Declaration.name) : (a ++ b).Tidy := by
  refine ⟨?_, ?_, fun x hx => ?_⟩
  · refine (congrArg List.Nodup List.map_append).mpr (List.nodup_append.2 ⟨ha.declared, hb.declared, ?_⟩)
    rintro x hx _ hx' rfl
    exact hapart x hx hx'
  · refine (congrArg List.Nodup List.map_append).mpr (List.nodup_append.2 ⟨ha.targets, hb.targets, ?_⟩)
    rintro t ht _ ht' rfl
    obtain ⟨x, hx, rfl⟩ := List.mem_map.1 ht
    obtain ⟨y, hy, heq⟩ := List.mem_map.1 ht'
    have hname : y.cell.name = x.cell.name := congrArg (·.2.name) heq
    exact hapart _ (ha.name_mem hx) (hname ▸ hb.name_mem hy)
  · obtain hx | hx := List.mem_append.1 hx
    · obtain ⟨d, hd, hcell⟩ := ha.assigned x hx
      exact ⟨d, List.mem_append_left _ hd, hcell⟩
    · obtain ⟨d, hd, hcell⟩ := hb.assigned x hx
      exact ⟨d, List.mem_append_right _ hd, hcell⟩

theorem tidy_defines (ds : List (Name × Expr)) : ({ defines := ds } : Circuit).Tidy :=
  ⟨List.nodup_nil, List.nodup_nil, fun _ hx => nomatch hx⟩

theorem Tidy.append_defines (h : c.Tidy) (ds : List (Name × Expr)) : (c ++ { defines := ds }).Tidy :=
  h.append (tidy_defines ds) fun _ _ => List.not_mem_nil

theorem tidy_join {cs : List Circuit} (h : ∀ c ∈ cs, c.Tidy) (hapart : cs.Pairwise fun a b =>
    ∀ x ∈ a.declarations.map Declaration.name, x ∉ b.declarations.map Declaration.name) : (join cs).Tidy := by
  induction cs with
  | nil => exact tidy_defines []
  | cons c cs ih =>
    obtain ⟨hc, hcs⟩ := List.forall_mem_cons.1 h
    obtain ⟨hhead, htail⟩ := List.pairwise_cons.1 hapart
    refine hc.append (ih hcs htail) fun x hx hjoin => ?_
    obtain ⟨d, hd, rfl⟩ := List.mem_map.1 hjoin
    obtain ⟨b, hb, hd⟩ := mem_declarations_join.1 hd
    exact hhead b hb _ hx (List.mem_map_of_mem hd)

end

theorem defines_join {cs : List Circuit} : (join cs).defines = cs.flatMap Circuit.defines := by
  induction cs with
  | nil => rfl
  | cons c cs ih => exact congrArg (c.defines ++ ·) ih

end Circuit

/-! ### Queues -/

namespace Queue
variable {s : Sizes} {j : Nat} {type : PortType} {types : List PortType}

theorem tidy_circuit : (circuit s j type).Tidy := by
  refine ⟨by simp [circuit], ?_, fun a ha => ?_⟩
  · rw [circuit, List.map_flatMap]
    refine nodup_flatMap_of List.nodup_range (fun i _ => by simp [slotAssigns, Circuit.starts, Circuit.becomes]) ?_
    intro i _ i' _ b hb hb'
    simp only [slotAssigns, Circuit.starts, Circuit.becomes, List.map_cons, List.map_nil, List.mem_cons,
      List.not_mem_nil, or_false] at hb hb'
    rcases hb with rfl | rfl | rfl | rfl <;> simpa using hb'
  · obtain ⟨i, hi, hcases⟩ := mem_assigns_circuit.1 ha
    have hslot (x : Name) (t : Scalar) :
        ((⟨x, some i⟩ : Cell), t) ∈ (⟨x, .array s.queue t⟩ : Declaration).cells :=
      List.mem_map.2 ⟨i, List.mem_range.2 hi, rfl⟩
    rcases hcases with rfl | rfl | rfl | rfl
    · exact ⟨_, List.mem_cons_of_mem _ List.mem_cons_self, _, hslot _ _, rfl⟩
    · exact ⟨_, List.mem_cons_self, _, hslot _ _, rfl⟩
    · exact ⟨_, List.mem_cons_of_mem _ List.mem_cons_self, _, hslot _ _, rfl⟩
    · exact ⟨_, List.mem_cons_self, _, hslot _ _, rfl⟩

theorem tidy_circuits : (circuits s types).Tidy := by
  refine (Circuit.tidy_join ?_ ?_).append_defines _
  · intro c hc
    obtain ⟨⟨t, j⟩, -, rfl⟩ := List.mem_map.1 hc
    exact tidy_circuit
  · have hports : types.zipIdx.Pairwise fun a b => a.2 ≠ b.2 :=
      List.pairwise_map.1 (by rw [List.zipIdx_map_snd]; exact List.nodup_range')
    refine List.pairwise_map.2 (hports.imp fun hne x hx hx' => hne ?_)
    rcases List.mem_pair.1 hx with rfl | rfl <;> rcases List.mem_pair.1 hx' with heq | heq
    · exact Name.queueValues.inj heq
    · nomatch heq
    · nomatch heq
    · exact Name.queueFlags.inj heq

theorem declares_circuits : (circuits s types).Declares .queue := by
  intro d hd
  obtain hd | hd := List.mem_append.1 hd
  · obtain ⟨c, hc, hd⟩ := Circuit.mem_declarations_join.1 hd
    obtain ⟨⟨t, j⟩, -, rfl⟩ := List.mem_map.1 hc
    rcases List.mem_pair.1 hd with rfl | rfl
    · exact ⟨rfl, rfl, fun _ _ => VarType.noConfusion⟩
    · exact ⟨rfl, rfl, fun _ _ => VarType.noConfusion⟩
  · nomatch hd

theorem defined_circuits : (circuits s types).defines.map Prod.fst =
    ((List.range types.length).flatMap fun j => [.available j, .front j]) ++ [.ready] := by
  have hports : types.zipIdx.map Prod.snd = List.range types.length := by
    rw [List.zipIdx_map_snd, List.range_eq_range']
  have hdefines : (circuits s types).defines =
      (Circuit.join (types.zipIdx.map fun x => circuit s x.2 x.1)).defines ++ _ := rfl
  rw [hdefines, List.map_append, Circuit.defines_join, List.map_flatMap, ← hports, List.flatMap_map, List.flatMap_map]
  rfl

theorem nodup_defined_circuits : ((circuits s types).defines.map Prod.fst).Nodup := by
  rw [defined_circuits]
  have hpairs : ((List.range types.length).flatMap fun j => [Name.available j, .front j]).Nodup :=
    nodup_pairs List.nodup_range (fun _ _ => Name.available.inj) (fun _ _ => Name.front.inj) fun _ _ => Name.noConfusion
  refine List.nodup_append.2 ⟨hpairs, List.nodup_singleton _, ?_⟩
  rintro x hx _ hx' rfl
  obtain ⟨j, -, hx⟩ := List.mem_flatMap.1 hx
  obtain rfl := List.mem_singleton.1 hx'
  rcases List.mem_pair.1 hx with heq | heq <;> nomatch heq

end Queue

/-! ### Behaviours -/

namespace Circuit
variable {s : Sizes} {k : Kind} {b : Circuit}

theorem declares_behaviour (h : behaviour s k = .ok b) : b.Declares .behaviour := by
  cases k with
  | bare _ _ | group _ _ _ => nomatch h
  | passthrough _ | filter _ | apply _ _ | fork _ _ _ =>
    obtain rfl := Except.ok.inj h
    exact fun d hd => nomatch hd
  | trim _ _ | decimate _ _ _ =>
    obtain rfl := Except.ok.inj h
    exact fun d hd => List.mem_singleton.1 hd ▸ ⟨rfl, rfl, fun _ _ => VarType.noConfusion⟩
  | constant v _ =>
    obtain ⟨e, -, rfl⟩ := behaviour_constant_eq_ok.1 h
    exact fun d hd => nomatch hd
  | cumulate f =>
    obtain rfl := Except.ok.inj h
    intro d hd
    rcases List.mem_pair.1 hd with rfl | rfl <;> exact ⟨rfl, rfl, fun _ _ => VarType.noConfusion⟩
  | window _ f width _ =>
    obtain rfl := Except.ok.inj h
    unfold window
    split
    · exact fun d hd => nomatch hd
    · intro d hd
      rcases List.mem_pair.1 hd with rfl | rfl <;> exact ⟨rfl, rfl, fun _ _ => VarType.noConfusion⟩

theorem defined_behaviour (h : behaviour s k = .ok b) : b.defines.map Prod.fst =
    (List.range k.outputs.length).flatMap fun p => [.outValue p, .outFire p] := by
  cases k with
  | bare _ _ | group _ _ _ => nomatch h
  | passthrough _ | filter _ | apply _ _ | trim _ _ | decimate _ _ _ | cumulate _ =>
    obtain rfl := Except.ok.inj h
    rfl
  | fork n _ _ =>
    obtain rfl := Except.ok.inj h
    rw [Kind.outputs, List.length_replicate, List.map_flatMap]
    rfl
  | constant v _ =>
    obtain ⟨e, -, rfl⟩ := behaviour_constant_eq_ok.1 h
    rfl
  | window _ f width _ =>
    obtain rfl := Except.ok.inj h
    unfold window
    split <;> rfl

theorem nodup_defined_behaviour (h : behaviour s k = .ok b) : (b.defines.map Prod.fst).Nodup := by
  rw [defined_behaviour h]
  exact nodup_pairs List.nodup_range (fun _ _ => Name.outValue.inj) (fun _ _ => Name.outFire.inj)
    fun _ _ => Name.noConfusion

theorem owner_of_defined (h : behaviour s k = .ok b) {x : Name} (hx : x ∈ b.defines.map Prod.fst) :
    x.owner = .behaviour := by
  rw [defined_behaviour h] at hx
  obtain ⟨p, -, hx⟩ := List.mem_flatMap.1 hx
  rcases List.mem_pair.1 hx with rfl | rfl <;> rfl

theorem tidy_register (x : Name) (type : Scalar) (e : Expr) (u : Update) :
    ({ declarations := [⟨x, .scalar type⟩]
       assigns := [starts ⟨x, none⟩ e, becomes ⟨x, none⟩ u] } : Circuit).Tidy := by
  refine ⟨List.nodup_singleton _, by simp [starts, becomes], fun a ha => ?_⟩
  have hcell : a.cell = ⟨x, none⟩ := by rcases List.mem_pair.1 ha with rfl | rfl <;> rfl
  exact ⟨_, List.mem_cons_self, _, List.mem_cons_self, hcell.symm⟩

theorem tidy_cumulate (s : Sizes) (f : Fold) : (cumulate s f).Tidy := by
  refine ⟨by simp [cumulate], by simp [cumulate, starts, becomes], fun a ha => ?_⟩
  have haccumulator : ((⟨.accumulator, none⟩ : Cell), s.scalar .integer) ∈
      (⟨.accumulator, .scalar (s.scalar .integer)⟩ : Declaration).cells := List.mem_cons_self
  have hstarted : ((⟨.started, none⟩ : Cell), Scalar.boolean) ∈
      (⟨.started, .scalar .boolean⟩ : Declaration).cells := List.mem_cons_self
  simp only [cumulate, List.mem_cons, List.not_mem_nil, or_false] at ha
  rcases ha with rfl | rfl | rfl | rfl
  · exact ⟨_, List.mem_cons_self, _, haccumulator, rfl⟩
  · exact ⟨_, List.mem_cons_of_mem _ List.mem_cons_self, _, hstarted, rfl⟩
  · exact ⟨_, List.mem_cons_self, _, haccumulator, rfl⟩
  · exact ⟨_, List.mem_cons_of_mem _ List.mem_cons_self, _, hstarted, rfl⟩

theorem tidy_windowSlots (kept : Nat) (type : Scalar) :
    ({ declarations := [⟨.window, .array kept type⟩]
       assigns := (List.range kept).flatMap fun i => [starts ⟨.window, some i⟩ (.num 0),
         becomes ⟨.window, some i⟩ (nextWindowSlot kept i)] } : Circuit).Tidy := by
  refine ⟨List.nodup_singleton _, ?_, fun a ha => ?_⟩
  · rw [List.map_flatMap]
    refine nodup_pairs List.nodup_range ?_ ?_ ?_ <;> intro i i' <;> simp [starts, becomes]
  · obtain ⟨i, hi, hcases⟩ := mem_assigns_windowSlots.1 ha
    have hcell : a.cell = ⟨.window, some i⟩ := by rcases hcases with rfl | rfl <;> rfl
    exact ⟨_, List.mem_cons_self, _, List.mem_map.2 ⟨i, List.mem_range.2 hi, rfl⟩, hcell.symm⟩

theorem tidy_window (s : Sizes) (f : Fold) (width : Nat) : (window s f width).Tidy := by
  unfold window
  split
  · exact tidy_defines _
  · refine Tidy.append_defines ?_ _
    -- the assignments of the counter stand in front of those of the slots
    let slots := (List.range (width - 1)).flatMap fun i => [starts ⟨.window, some i⟩ (.num 0),
      becomes ⟨.window, some i⟩ (nextWindowSlot (width - 1) i)]
    have hcounter : (countUpTo (width - 1 : Nat)).Tidy := tidy_register _ _ _ _
    have htidy := (tidy_windowSlots (width - 1) (s.scalar .integer)).append hcounter (by simp [countUpTo])
    have hperm : ((countUpTo (width - 1 : Nat)).assigns ++ slots).Perm (slots ++ (countUpTo (width - 1 : Nat)).assigns) :=
      List.perm_append_comm
    exact ⟨htidy.declared, ((hperm.map _).nodup_iff).2 htidy.targets, fun a ha => htidy.assigned a (hperm.mem_iff.1 ha)⟩

theorem tidy_behaviour (h : behaviour s k = .ok b) : b.Tidy := by
  cases k with
  | bare _ _ | group _ _ _ => nomatch h
  | passthrough _ | filter _ | apply _ _ | fork _ _ _ =>
    obtain rfl := Except.ok.inj h
    exact tidy_defines _
  | trim _ _ | decimate _ _ _ =>
    obtain rfl := Except.ok.inj h
    exact (tidy_register _ _ _ _).append_defines _
  | constant v _ =>
    obtain ⟨e, -, rfl⟩ := behaviour_constant_eq_ok.1 h
    exact tidy_defines _
  | cumulate f =>
    obtain rfl := Except.ok.inj h
    exact tidy_cumulate s f
  | window _ f width _ =>
    obtain rfl := Except.ok.inj h
    exact tidy_window s f width

/-! ### The queues and the behaviour together -/

/-- What is declared has rank zero and what is defined has a higher one, and both are of the queues or of the
behaviour. -/
theorem names_ofKind (h : behaviour s k = .ok b) :
    (Queue.circuits s k.inputs ++ b).Tidy ∧
      ((Queue.circuits s k.inputs ++ b).declarations.map Declaration.name ++
        (Queue.circuits s k.inputs ++ b).defines.map Prod.fst).Nodup ∧
      ∀ x ∈ (Queue.circuits s k.inputs ++ b).declarations.map Declaration.name ++
        (Queue.circuits s k.inputs ++ b).defines.map Prod.fst, x.owner ≠ .outside := by
  have hqueues : (Queue.circuits s k.inputs).Declares .queue := Queue.declares_circuits
  have hbehaviour : b.Declares .behaviour := declares_behaviour h
  have htidy : (Queue.circuits s k.inputs ++ b).Tidy := by
    refine Queue.tidy_circuits.append (tidy_behaviour h) fun x hx hx' => ?_
    obtain ⟨d, hd, rfl⟩ := List.mem_map.1 hx
    obtain ⟨d', hd', hname⟩ := List.mem_map.1 hx'
    have howner := (hbehaviour d' hd').1
    rw [hname, (hqueues d hd).1] at howner
    nomatch howner
  have hdefined : (Queue.circuits s k.inputs ++ b).defines.map Prod.fst =
      (Queue.circuits s k.inputs).defines.map Prod.fst ++ b.defines.map Prod.fst := List.map_append
  have howners : ∀ x ∈ (Queue.circuits s k.inputs).defines.map Prod.fst, x.owner = .queue := fun x hx =>
    Queue.owner_of_mem_names (List.mem_append_left _ hx)
  have hdefines : ((Queue.circuits s k.inputs ++ b).defines.map Prod.fst).Nodup := by
    rw [hdefined]
    refine List.nodup_append.2 ⟨Queue.nodup_defined_circuits, nodup_defined_behaviour h, ?_⟩
    rintro x hx _ hx' rfl
    have howner := howners x hx
    rw [owner_of_defined h hx'] at howner
    nomatch howner
  have hdeclared : ∀ d ∈ (Queue.circuits s k.inputs ++ b).declarations, d.name.owner ≠ .outside ∧ d.name.rank = 0 := by
    intro d hd
    obtain hd | hd := List.mem_append.1 hd
    · exact ⟨(hqueues d hd).1 ▸ Owner.noConfusion, (hqueues d hd).2.1⟩
    · exact ⟨(hbehaviour d hd).1 ▸ Owner.noConfusion, (hbehaviour d hd).2.1⟩
  refine ⟨htidy, List.nodup_append.2 ⟨htidy.declared, hdefines, ?_⟩, fun x hx => ?_⟩
  · rintro x hx _ hx' rfl
    obtain ⟨d, hd, rfl⟩ := List.mem_map.1 hx
    obtain ⟨e, he, hname⟩ := List.mem_map.1 hx'
    have hrank := (settled_ofKind h).define_rank e he
    rw [hname, (hdeclared d hd).2] at hrank
    nomatch hrank
  · obtain hx | hx := List.mem_append.1 hx
    · obtain ⟨d, hd, rfl⟩ := List.mem_map.1 hx
      exact (hdeclared d hd).1
    · obtain hx | hx := List.mem_append.1 (hdefined ▸ hx)
      · exact howners x hx ▸ Owner.noConfusion
      · exact owner_of_defined h hx ▸ Owner.noConfusion

end Circuit
end Network
end StreamCheck
