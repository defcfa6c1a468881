import StreamCheck.Proofs.Basic
import StreamCheck.Proofs.Smv.WellFormed
import StreamCheck.Smv.Renumbering
import StreamCheck.Subject.Basic

/-! What a model has under other numbers: the same modules and declarations under them, and so as many variables,
queues and pipes. -/

namespace StreamCheck

namespace Smv
variable {r : Renumbering}

/-! ### Different names stay different -/

theorem Name.renumber_injective : Function.Injective (Name.renumber r) := by
  intro x y h
  cases x <;> cases y <;> simp_all [renumber]

theorem Ref.renumber_injective : Function.Injective (Ref.renumber r) := by
  rintro ⟨path, x⟩ ⟨path', y⟩ h
  obtain ⟨hpaths, hnames⟩ := Ref.mk.inj h
  obtain rfl : path = path' := List.map_injective_iff.2 (fun _ _ => Nat.add_left_cancel) hpaths
  obtain rfl : x = y := Name.renumber_injective hnames
  rfl

theorem ModuleName.renumber_injective : Function.Injective (ModuleName.renumber r) := by
  intro x y h
  cases x <;> cases y <;> simp_all [renumber]

theorem VarType.renumber_injective : Function.Injective (VarType.renumber r) := by
  intro t u h
  cases t with
  | part m args =>
    cases u with
    | part m' args' =>
      obtain ⟨hname, hargs⟩ := VarType.part.inj h
      rw [ModuleName.renumber_injective hname, List.map_injective_iff.2 Ref.renumber_injective hargs]
    | scalar _ | array _ _ => nomatch h
  | scalar _ | array _ _ =>
    cases u with
    | part m' args' => nomatch h
    | scalar _ | array _ _ => exact h

/-! ### Where no numbers of nodes and pipes occur -/

theorem Expr.renumber_eq_self {e : Expr} (h : ∀ p ∈ e.reads, p.ref.renumber r = p.ref) : e.renumber r = e := by
  induction e with
  | bool _ | num _ => rfl
  | var x => exact congrArg var (h ⟨x, none⟩ List.mem_cons_self)
  | slot x i => exact congrArg (slot · i) (h ⟨x, some i⟩ List.mem_cons_self)
  | paren e ih => exact congrArg paren (ih h)
  | not e ih => exact congrArg not (ih h)
  | binary op a b iha ihb =>
    obtain ⟨ha, hb⟩ := List.forall_mem_append.1 h
    rw [renumber, iha ha, ihb hb]
  | choose c a b ihc iha ihb =>
    obtain ⟨hca, hb⟩ := List.forall_mem_append.1 h
    obtain ⟨hc, ha⟩ := List.forall_mem_append.1 hca
    rw [renumber, ihc hc, iha ha, ihb hb]

theorem Update.renumber_eq_self {u : Update} (h : ∀ p ∈ u.reads, p.ref.renumber r = p.ref) : u.renumber r = u := by
  cases u with
  | value e => exact congrArg value (Expr.renumber_eq_self h)
  | cases bs =>
    refine congrArg cases (map_eq_self fun b hb => ?_)
    obtain ⟨hc, he⟩ := List.forall_mem_append.1 fun p hp => h p (List.mem_flatMap.2 ⟨b, hb, hp⟩)
    exact Prod.ext (Expr.renumber_eq_self hc) (Expr.renumber_eq_self he)

/-- A module that looks at nothing but what it names itself has no numbers but in those names and its own. -/
theorem Module.Closed.renumber_eq {m : Module} (h : m.Closed []) (hnames : ∀ x ∈ m.names, x.renumber r = x) :
    m.renumber r = { m with name := m.name.renumber r } := by
  obtain ⟨hparameters, hsaid⟩ := List.forall_mem_append.1 hnames
  obtain ⟨hdeclared, hdefined⟩ := List.forall_mem_append.1 hsaid
  have hreads : ∀ p ∈ m.reads, p.ref.renumber r = p.ref := by
    intro p hp
    have hown {x : Name} (hx : x.renumber r = x) : (Ref.own x).renumber r = Ref.own x := congrArg Ref.own hx
    cases h.reads p hp with
    | parameter h => exact hown (hparameters _ h)
    | define h => exact hown (hdefined _ h)
    | «variable» h => exact hown (hdeclared _ (List.mem_map_of_mem h))
    | slot h hi => exact hown (hdeclared _ (List.mem_map_of_mem h))
    | output h hcallee => exact absurd hcallee List.not_mem_nil
  have hdeclarations : m.declarations.map (Declaration.renumber r) = m.declarations := by
    refine map_eq_self fun d hd => ?_
    have htype : d.type.renumber r = d.type := by
      cases htype : d.type with
      | part callee args =>
        obtain ⟨m', hm', -⟩ := h.arguments d hd callee args htype
        exact absurd hm' List.not_mem_nil
      | scalar _ | array _ _ => rfl
    rw [Declaration.renumber, hdeclared _ (List.mem_map_of_mem hd), htype]
  have hdefines : (m.renumber r).defines = m.defines := by
    refine map_eq_self fun d hd => ?_
    have hexpr : d.2.renumber r = d.2 := Expr.renumber_eq_self fun p hp =>
      hreads p (List.mem_append_left _ (List.mem_append_right _ (List.mem_flatMap.2 ⟨d, hd, hp⟩)))
    exact Prod.ext (hdefined _ (List.mem_map_of_mem hd)) hexpr
  have hassigns : m.assigns.map (Assign.renumber r) = m.assigns := by
    refine map_eq_self fun a ha => ?_
    have hupdate : a.update.renumber r = a.update := Update.renumber_eq_self fun p hp =>
      hreads p (List.mem_append_right _ (List.mem_flatMap.2 ⟨a, ha, hp⟩))
    obtain ⟨d, hd, x, hx, hcell⟩ := h.assigned a ha
    have hname : a.cell.name.renumber r = a.cell.name := by
      rw [← hcell, Declaration.name_of_mem_cells hx]
      exact hdeclared _ (List.mem_map_of_mem hd)
    rw [Assign.renumber, Cell.renumber, hname, hupdate]
  calc m.renumber r
    _ = ⟨m.name.renumber r, m.parameters.map (Name.renumber r), m.declarations.map (Declaration.renumber r),
        (m.renumber r).defines, m.assigns.map (Assign.renumber r)⟩ := rfl
    _ = { m with name := m.name.renumber r } := by
      rw [map_eq_self hparameters, hdeclarations, hdefines, hassigns]

/-! ### Modules and declarations -/

@[simp] theorem VarType.size_renumber (t : VarType) : (t.renumber r).size = t.size := by
  cases t <;> rfl

namespace Instance

theorem renumberAll_eq_map (is : List Instance) : renumberAll r is = is.map (renumber r) := by
  induction is with
  | nil => rfl
  | cons i is ih => rw [renumberAll, List.map_cons, ih]

theorem declaration_renumber (i : Instance) : (i.renumber r).declaration = i.declaration.renumber r := by
  cases i
  rfl

mutual

theorem modules_renumber : ∀ i : Instance, (i.renumber r).modules = i.modules.map (Module.renumber r)
  | mk id args m parts => by
    rw [renumber, modules, modules, modulesOfAll_renumber parts, List.map_append]
    rfl

theorem modulesOfAll_renumber : ∀ is : List Instance,
    modulesOfAll (renumberAll r is) = (modulesOfAll is).map (Module.renumber r)
  | [] => rfl
  | i :: is => by
    rw [renumberAll, modulesOfAll, modulesOfAll, modules_renumber i, modulesOfAll_renumber is, List.map_append]

end

mutual

theorem declarations_renumber : ∀ i : Instance,
    (i.renumber r).declarations = i.declarations.map fun (x, t) => (x.renumber r, t.renumber r)
  | mk id args m parts => by
    rw [renumber, declarations, declarations, declarationsOfAll_renumber parts, List.map_append, Module.renumber,
      List.map_map, List.map_map, List.map_map, List.map_map]
    rfl

theorem declarationsOfAll_renumber : ∀ is : List Instance,
    declarationsOfAll (renumberAll r is) = (declarationsOfAll is).map fun (x, t) => (x.renumber r, t.renumber r)
  | [] => rfl
  | i :: is => by
    rw [renumberAll, declarationsOfAll, declarationsOfAll, declarations_renumber i, declarationsOfAll_renumber is,
      List.map_append]

end

end Instance

theorem Model.modules_renumber (m : Model) : (m.renumber r).modules = m.modules.map (Module.renumber r) :=
  Instance.modulesOfAll_renumber m.parts

theorem Model.declarations_renumber (m : Model) :
    (m.renumber r).declarations = m.declarations.map fun (x, t) => (x.renumber r, t.renumber r) := by
  rw [declarations, declarations, renumber, Instance.declarationsOfAll_renumber, List.map_append, Module.renumber,
    List.map_map, List.map_map]
  rfl

end Smv

/-! ### What is found in a model -/

namespace CompiledGraph
open Smv
variable {c c' : CompiledGraph} {r : Renumbering}

theorem pipe_injective : Function.Injective ((r.pipes : Int) + ·) := fun _ _ => Int.add_left_cancel

section
variable (h : c'.model = c.model.renumber r)
include h

theorem inputs_renumber : c'.inputs = c.inputs.map ((r.pipes : Int) + ·) := by
  rw [inputs, inputs, h]
  refine eraseDups_filterMap_map pipe_injective ?_ c.model.main.declarations
  rintro ⟨x, t⟩
  cases x <;> rfl

theorem outputs_renumber : c'.outputs = c.outputs.map ((r.pipes : Int) + ·) := by
  rw [outputs, outputs, h]
  refine eraseDups_filterMap_map pipe_injective ?_ c.model.main.declarations
  rintro ⟨x, t⟩
  cases x <;> rfl

theorem booleanOutputs_renumber : c'.booleanOutputs = c.booleanOutputs.map ((r.pipes : Int) + ·) := by
  rw [booleanOutputs, booleanOutputs, h]
  refine eraseDups_filterMap_map pipe_injective ?_ c.model.main.declarations
  rintro ⟨x, t⟩
  cases x with
  | pipeOutValue p =>
    cases t with
    | scalar type => cases type <;> rfl
    | array _ _ | part _ _ => rfl
  | _ => rfl

theorem queueFlags_renumber : c'.queueFlags = c.queueFlags.map fun q => ⟨q.name.renumber r, q.size⟩ := by
  have hinjective : Function.Injective fun q : QueueFlags => (⟨q.name.renumber r, q.size⟩ : QueueFlags) := by
    intro q q' heq
    obtain ⟨hname, hsize⟩ := QueueFlags.mk.inj heq
    cases q
    exact congrArg₂ QueueFlags.mk (Ref.renumber_injective hname) hsize
  rw [queueFlags, queueFlags, h, Model.declarations_renumber]
  refine eraseDups_filterMap_map hinjective ?_ c.model.declarations
  rintro ⟨⟨path, x⟩, t⟩
  cases x with
  | queueFlags j => exact congrArg (fun n => some (⟨_, n⟩ : QueueFlags)) t.size_renumber
  | _ => rfl

theorem variableCount_renumber : c'.variableCount = c.variableCount := by
  have hinjective : Function.Injective fun x : Ref × VarType => (x.1.renumber r, x.2.renumber r) :=
    fun x y heq => Prod.ext (Ref.renumber_injective (Prod.mk.inj heq).1) (VarType.renumber_injective (Prod.mk.inj heq).2)
  rw [variableCount, variableCount, h, Model.declarations_renumber]
  refine (congrArg List.length (eraseDups_map hinjective _)).trans ?_
  rw [List.length_map]

theorem facts_renumber (hname : c'.name = c.name) (hsizes : c'.sizes = c.sizes) (hshape : c'.shape = c.shape)
    (hprocessors : c'.processors = c.processors) : c'.facts = c.facts := by
  have hmodules : c'.model.modules.length = c.model.modules.length := by
    rw [h, Model.modules_renumber, List.length_map]
  have hflags : c'.queueFlags.length = c.queueFlags.length := by rw [queueFlags_renumber h, List.length_map]
  rw [facts, facts, hname, hsizes, hshape, hprocessors, hmodules, variableCount_renumber h, hflags]

end
end CompiledGraph
end StreamCheck
