import StreamCheck.Decimal.Reader
import StreamCheck.Smv.Expr

/-! Modules: parameters, variables, definitions and assignments. A model is a main module and the tree
of the instances in it; its text lists the main module, then every instance's module after those of
its own parts. -/

namespace StreamCheck.Smv

inductive Scalar where
  | boolean
  | upTo (last : Int)
deriving DecidableEq, Repr, Inhabited

def Scalar.text : Scalar → String
  | boolean => "boolean"
  | upTo last => "0.." ++ toString last

inductive ModuleName where
  | main
  /-- The module of a node, with the kind of the node. -/
  | node (label : String) (id : Nat)
deriving DecidableEq, Repr, Inhabited

def ModuleName.text : ModuleName → String
  | main => "main"
  | node label id => label ++ "_" ++ toString id

inductive VarType where
  | scalar (type : Scalar)
  /-- Slots numbered from zero. -/
  | array (size : Int) (element : Scalar)
  /-- An instance of a module, with the names that its parameters stand for. -/
  | part (module : ModuleName) (arguments : List Ref)
deriving DecidableEq, Repr, Inhabited

namespace VarType

def text : VarType → String
  | scalar t => t.text
  | array size t => "array 0.." ++ toString (size - 1) ++ " of " ++ t.text
  | part m args => m.text ++ "(" ++ ", ".intercalate (args.map Ref.text) ++ ")"

/-- The number of slots of an array; zero for everything else. -/
def size : VarType → Int
  | array n _ => n
  | _ => 0

end VarType

structure Declaration where
  name : Name
  type : VarType
deriving DecidableEq, Repr, Inhabited

/-- When an assignment fixes its target: in every state, in the first, or in the one after. -/
inductive Timing where
  | always
  | first
  | after
deriving DecidableEq, Repr, Inhabited

structure Cell where
  name : Name
  slot : Option Nat
deriving DecidableEq, Repr, Inhabited

def Cell.text (c : Cell) : String :=
  match c.slot with
  | none => c.name.text
  | some i => c.name.text ++ "[" ++ toString i ++ "]"

/-- The right side of an assignment; of several cases the first whose condition holds counts. -/
inductive Update where
  | value (e : Expr)
  | cases (branches : List (Expr × Expr))
deriving DecidableEq, Repr, Inhabited

def Update.text : Update → String
  | value e => e.text
  | cases bs =>
    "case " ++ String.join (bs.map fun (c, e) => c.text ++ " : " ++ e.text ++ "; ") ++ "esac"

structure Assign where
  timing : Timing
  cell : Cell
  update : Update
deriving DecidableEq, Repr, Inhabited

namespace Assign

def target (a : Assign) : String :=
  match a.timing with
  | .always => a.cell.text
  | .first => "init(" ++ a.cell.text ++ ")"
  | .after => "next(" ++ a.cell.text ++ ")"

def text (a : Assign) : String := a.target ++ " := " ++ a.update.text

end Assign

structure Module where
  name : ModuleName
  parameters : List Name
  declarations : List Declaration
  defines : List (Name × Expr)
  assigns : List Assign
deriving DecidableEq, Repr, Inhabited

namespace Module

/-- A part of a module under its heading; an empty part has no heading. -/
def block (heading : String) (items : List String) : List String :=
  if items.isEmpty then [] else heading :: items.map fun t => "  " ++ t ++ ";"

def header (m : Module) : String :=
  "MODULE " ++ m.name.text ++
    if m.parameters.isEmpty then ""
    else "(" ++ ", ".intercalate (m.parameters.map Name.text) ++ ")"

def text (m : Module) : String :=
  let lines := m.header ::
    (block "VAR" (m.declarations.map fun v => v.name.text ++ " : " ++ v.type.text) ++
      block "DEFINE" (m.defines.map fun (n, e) => n.text ++ " := " ++ e.text) ++
      block "ASSIGN" (m.assigns.map Assign.text))
  String.join (lines.map (· ++ "\n"))

end Module

/-- An instance of a node's module inside another module, together with the instances in it. -/
inductive Instance where
  | mk (id : Nat) (arguments : List Ref) (module : Module) (parts : List Instance)
deriving Repr, Inhabited

namespace Instance

def id : Instance → Nat
  | mk id _ _ _ => id

def arguments : Instance → List Ref
  | mk _ args _ _ => args

def module : Instance → Module
  | mk _ _ m _ => m

def parts : Instance → List Instance
  | mk _ _ _ ps => ps

def declaration (i : Instance) : Declaration :=
  ⟨.part i.id, .part i.module.name i.arguments⟩

mutual

/-- The modules of the instances inside, and then the instance's own. -/
def modules : Instance → List Module
  | mk _ _ m parts => modulesOfAll parts ++ [m]

def modulesOfAll : List Instance → List Module
  | [] => []
  | i :: is => i.modules ++ modulesOfAll is

end

mutual

def declarations : Instance → List (Ref × VarType)
  | mk id _ m parts =>
    (m.declarations.map (fun v => (⟨[id], v.name⟩, v.type))) ++
      (declarationsOfAll parts).map (fun (r, t) => (r.under id, t))

def declarationsOfAll : List Instance → List (Ref × VarType)
  | [] => []
  | i :: is => i.declarations ++ declarationsOfAll is

end

end Instance

structure Model where
  main : Module
  parts : List Instance
deriving Repr, Inhabited

namespace Model

def modules (m : Model) : List Module := Instance.modulesOfAll m.parts

def text (m : Model) : String :=
  "\n".intercalate ((m.main :: m.modules).map Module.text)

def declarations (m : Model) : List (Ref × VarType) :=
  (m.main.declarations.map fun v => (Ref.own v.name, v.type)) ++ Instance.declarationsOfAll m.parts

end Model

/-! ### Numerals: no number is written that has more digits than are read -/

def isWritable (n : Int) : Bool := decide (n.natAbs < Nat.pow 10 Decimal.mostDigits)

def unwritableMessage : String :=
  "Exceeds the limit (4300 digits) for integer string conversion; " ++
    "use sys.set_int_max_str_digits() to increase the limit"

def Scalar.isWritable : Scalar → Bool
  | boolean => true
  | upTo last => Smv.isWritable last

def VarType.isWritable : VarType → Bool
  | scalar t => t.isWritable
  | array size t => Smv.isWritable (size - 1) && t.isWritable
  | part .. => true

/-- Whether the numbers that end the ranges of a model can be written; all others stand in the graph or
are sizes, and are no longer than those. -/
def Model.isWritable (m : Model) : Bool :=
  (m.main :: m.modules).all fun x => x.declarations.all (·.type.isWritable)

end StreamCheck.Smv
