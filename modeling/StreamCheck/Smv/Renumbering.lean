import StreamCheck.Smv.Module

/-! Models under other numbers: all numbers of nodes move up by one constant and all numbers of pipes by
another, and nothing else changes. -/

namespace StreamCheck.Smv

structure Renumbering where
  nodes : Nat
  pipes : Nat
deriving DecidableEq, Repr, Inhabited

variable (r : Renumbering)

def Name.renumber : Name → Name
  | pipeInValue p => pipeInValue (r.pipes + p)
  | pipeInFire p => pipeInFire (r.pipes + p)
  | pipeOutValue p => pipeOutValue (r.pipes + p)
  | pipeOutFire p => pipeOutFire (r.pipes + p)
  | part n => part (r.nodes + n)
  | x => x

def Ref.renumber (x : Ref) : Ref := ⟨x.path.map (r.nodes + ·), x.name.renumber r⟩

def Expr.renumber : Expr → Expr
  | bool b => bool b
  | num n => num n
  | var x => var (x.renumber r)
  | slot x i => slot (x.renumber r) i
  | paren e => paren e.renumber
  | not e => not e.renumber
  | binary op a b => binary op a.renumber b.renumber
  | choose c a b => choose c.renumber a.renumber b.renumber

def ModuleName.renumber : ModuleName → ModuleName
  | main => main
  | node label id => node label (r.nodes + id)

def VarType.renumber : VarType → VarType
  | part m args => part (m.renumber r) (args.map (Ref.renumber r))
  | t => t

def Declaration.renumber (d : Declaration) : Declaration := ⟨d.name.renumber r, d.type.renumber r⟩

def Cell.renumber (c : Cell) : Cell := ⟨c.name.renumber r, c.slot⟩

def Update.renumber : Update → Update
  | value e => value (e.renumber r)
  | cases bs => cases (bs.map fun (c, e) => (c.renumber r, e.renumber r))

def Assign.renumber (a : Assign) : Assign := ⟨a.timing, a.cell.renumber r, a.update.renumber r⟩

def Module.renumber (m : Module) : Module where
  name := m.name.renumber r
  parameters := m.parameters.map (Name.renumber r)
  declarations := m.declarations.map (Declaration.renumber r)
  defines := m.defines.map fun (x, e) => (x.renumber r, e.renumber r)
  assigns := m.assigns.map (Assign.renumber r)

namespace Instance

mutual

def renumber : Instance → Instance
  | mk id args m parts => mk (r.nodes + id) (args.map (Ref.renumber r)) (m.renumber r) (renumberAll parts)

def renumberAll : List Instance → List Instance
  | [] => []
  | i :: is => i.renumber :: renumberAll is

end

end Instance

def Model.renumber (m : Model) : Model := ⟨m.main.renumber r, Instance.renumberAll r m.parts⟩

/-- Two models are one but for a constant in all numbers of nodes and one in all numbers of pipes. -/
def Model.SameButNumbers (m m' : Model) : Prop :=
  ∃ (base : Model) (r r' : Renumbering), m = base.renumber r ∧ m' = base.renumber r'

end StreamCheck.Smv
