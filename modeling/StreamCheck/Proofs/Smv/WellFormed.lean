import Mathlib.Data.List.Nodup
import StreamCheck.Proofs.Smv.Settling
import StreamCheck.Proofs.Smv.Texts

/-! Well-formed models: no name is given twice, and whatever a module looks at is there to be looked at. -/

namespace StreamCheck.Smv

def Update.reads : Update → List Spot
  | value e => e.reads
  | cases bs => bs.flatMap fun b => b.1.reads ++ b.2.reads

def VarType.reads : VarType → List Spot
  | part _ args => args.map fun r => ⟨r, none⟩
  | _ => []

theorem Declaration.name_of_mem_cells {d : Declaration} {x : Cell × Scalar} (hx : x ∈ d.cells) : x.1.name = d.name := by
  obtain ⟨n, _ | _ | _⟩ := d
  · obtain rfl := List.mem_singleton.1 hx
    rfl
  · obtain ⟨i, -, rfl⟩ := List.mem_map.1 hx
    rfl
  · nomatch hx

namespace Module

def names (m : Module) : List Name :=
  m.parameters ++ (m.declarations.map Declaration.name ++ m.defines.map Prod.fst)

def reads (m : Module) : List Spot :=
  m.declarations.flatMap (·.type.reads) ++ m.defines.flatMap (·.2.reads) ++ m.assigns.flatMap (·.update.reads)

inductive Shows (modules : List Module) (m : Module) : Spot → Prop
  | parameter {x : Name} (h : x ∈ m.parameters) : Shows modules m ⟨.own x, none⟩
  | define {x : Name} (h : x ∈ m.defines.map Prod.fst) : Shows modules m ⟨.own x, none⟩
  | variable {x : Name} {t : Scalar} (h : ⟨x, .scalar t⟩ ∈ m.declarations) : Shows modules m ⟨.own x, none⟩
  /-- A slot that the array has. -/
  | slot {x : Name} {size i : Int} {t : Scalar} (h : ⟨x, .array size t⟩ ∈ m.declarations) (hi : 0 ≤ i ∧ i < size) :
    Shows modules m ⟨.own x, some i⟩
  /-- An output that the module of an instance defines. -/
  | output {k p : Nat} {x : Name} {args : List Ref} {callee : Module}
    (h : ⟨.part k, .part callee.name args⟩ ∈ m.declarations) (hcallee : callee ∈ modules)
    (hx : x = .outValue p ∨ x = .outFire p) (hdefine : x ∈ callee.defines.map Prod.fst) :
    Shows modules m ⟨.within k x, none⟩

/-- A module that stands on its own among others. -/
structure Closed (modules : List Module) (m : Module) : Prop where
  names_nodup : (m.names.map Name.text).Nodup
  targets_nodup : (m.assigns.map Assign.target).Nodup
  /-- Only what is declared is assigned, and only to slots that there are. -/
  assigned : ∀ a ∈ m.assigns, ∃ d ∈ m.declarations, ∃ x ∈ d.cells, x.1 = a.cell
  /-- An instance is given as many arguments as its module takes. -/
  arguments : ∀ d ∈ m.declarations, ∀ callee args, d.type = .part callee args →
    ∃ m' ∈ modules, m'.name = callee ∧ args.length = m'.parameters.length
  reads : ∀ p ∈ m.reads, Shows modules m p

variable {m : Module} {modules modules' : List Module}

theorem nodup_map_text (hnodup : m.names.Nodup) (hordinary : ∀ x ∈ m.names, x.IsOrdinary) :
    (m.names.map Name.text).Nodup :=
  hnodup.map_on fun _ hx _ hy => Name.text_injective (hordinary _ hx) (hordinary _ hy)

theorem nodup_map_target (hnodup : (m.assigns.map fun a => (a.timing, a.cell)).Nodup)
    (hordinary : ∀ a ∈ m.assigns, a.cell.name.IsOrdinary) : (m.assigns.map Assign.target).Nodup := by
  refine (List.Nodup.of_map _ hnodup).map_on fun a ha b hb h => ?_
  obtain ⟨htiming, hcell⟩ := Assign.target_injective (hordinary a ha) (hordinary b hb) h
  exact List.inj_on_of_nodup_map hnodup ha hb (Prod.ext htiming hcell)

theorem shows_cell {d : Declaration} {x : Cell × Scalar} (hd : d ∈ m.declarations) (hx : x ∈ d.cells) :
    m.Shows modules x.1.spot := by
  obtain ⟨n, t | ⟨size, t⟩ | _⟩ := d
  · obtain rfl := List.mem_singleton.1 hx
    exact .variable hd
  · obtain ⟨i, hi, rfl⟩ := List.mem_map.1 hx
    have hlt := List.mem_range.1 hi
    exact .slot hd ⟨Int.natCast_nonneg i, Int.lt_toNat.1 hlt⟩
  · nomatch hx

theorem Shows.mono (hsub : modules ⊆ modules') {p : Spot} (h : Shows modules m p) : Shows modules' m p := by
  cases h with
  | parameter h => exact .parameter h
  | define h => exact .define h
  | «variable» h => exact .variable h
  | slot h hi => exact .slot h hi
  | output h hcallee hx hdefine => exact .output h (hsub hcallee) hx hdefine

theorem Closed.mono (hsub : modules ⊆ modules') (h : m.Closed modules) : m.Closed modules' where
  names_nodup := h.names_nodup
  targets_nodup := h.targets_nodup
  assigned := h.assigned
  arguments d hd callee args htype := by
    obtain ⟨m', hm', hrest⟩ := h.arguments d hd callee args htype
    exact ⟨m', hsub hm', hrest⟩
  reads p hp := (h.reads p hp).mono hsub

end Module

/-- Modules have names of their own, none of them that of the main one, and every module stands on its own. -/
structure Model.WellFormed (m : Model) : Prop where
  main : m.main.name.text = "main"
  modules_nodup : (m.modules.map (·.name.text)).Nodup
  ne_main : ∀ x ∈ m.modules, x.name.text ≠ "main"
  closed : ∀ x ∈ m.main :: m.modules, x.Closed m.modules

end StreamCheck.Smv
