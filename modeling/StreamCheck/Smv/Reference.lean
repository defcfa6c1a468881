import StreamCheck.Smv.Module

/-! What names of a model stand for. A parameter of an instance stands for the argument in its place; a
definition that passes a name of an inner instance on stands for that name, and so does an assigned
variable of the main module. All references are from the main module. -/

namespace StreamCheck.Smv

def Ref.beneath (path : List Nat) (r : Ref) : Ref := ⟨path ++ r.path, r.name⟩

def Declaration.arguments? (k : Nat) : Declaration → Option (List Ref)
  | ⟨.part k', .part _ args⟩ => if k' = k then some args else none
  | _ => none

def Module.arguments? (m : Module) (k : Nat) : Option (List Ref) :=
  m.declarations.findSome? (·.arguments? k)

namespace Instance

/-- The name that is passed on under another, in a module with instances inside. -/
def passed? (i : Instance) (n : Name) : Option Ref :=
  if i.parts.isEmpty then none
  else
    match i.module.defines.lookup n with
    | some (.var r) => some r
    | _ => none

def inside? (parts : List Instance) : List Nat → Option (List Instance)
  | [] => some parts
  | k :: ks => (parts.find? (·.id == k)).bind fun i => inside? i.parts ks

end Instance

namespace Model

def instance? (m : Model) (path : List Nat) (k : Nat) : Option Instance :=
  (Instance.inside? m.parts path).bind fun parts => parts.find? (·.id == k)

def arguments? (m : Model) (path : List Nat) (k : Nat) : Option (List Ref) :=
  match path.getLast? with
  | none => m.main.arguments? k
  | some k' => (m.instance? path.dropLast k').bind (·.module.arguments? k)

def assigned? (m : Model) (n : Name) : Option Ref :=
  m.main.assigns.findSome? fun a =>
    match a with
    | ⟨.always, ⟨x, none⟩, .value (.var r)⟩ => if x = n then some r else none
    | _ => none

def standsFor? (m : Model) (r : Ref) : Option Ref :=
  match r.path.getLast? with
  | none => m.assigned? r.name
  | some k =>
    (m.instance? r.path.dropLast k).bind fun i =>
      match (m.arguments? r.path.dropLast k).bind fun args =>
        (i.module.parameters.zip args).lookup r.name with
      | some a => some (.beneath r.path.dropLast a)
      | none => (i.passed? r.name).map (.beneath r.path)

/-- A reference leads to another if that is what it stands for in the end. -/
inductive Resolves (m : Model) : Ref → Ref → Prop
  | done {r : Ref} (h : m.standsFor? r = none) : Resolves m r r
  | step {r r' t : Ref} (h : m.standsFor? r = some r') (ht : Resolves m r' t) : Resolves m r t

end Model

end StreamCheck.Smv
