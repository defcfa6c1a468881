import StreamCheck.Decimal.Reader
import StreamCheck.Subject.Basic

/-! Discovery: the pipes and queues of a compiled graph are found in the texts of its model. The first letters
of a declared name tell what it stands for, and the digits behind them for which pipe. -/

namespace StreamCheck

/-- The whole number of any length that a text stands for, with blanks around it. -/
def Decimal.integer? (cs : List Char) : Option Int :=
  let (negative, cs) := takeSign (Text.stripBlanks cs)
  let (ds, after) := takeDigits false cs
  if ds.isEmpty || !after.isEmpty then none
  else some (if negative then -(ofDigits ds : Int) else ofDigits ds)

namespace Smv

def inputLetters : String := "ic_"

def outputLetters : String := "oc_"

def flagLetters : String := "qb"

def Name.startsWith (letters : String) (x : Name) : Bool := letters.toList.isPrefixOf x.text.toList

/-- What is declared in a module under the name of flags, as a text behind a path, with its number of slots. -/
def Module.flagEntries (path : String) (m : Module) : List (String × Int) :=
  (m.declarations.filter fun v => v.name.startsWith flagLetters).map fun v => (path ++ v.name.text, v.type.size)

namespace Instance

mutual

def flagEntries (path : String) : Instance → List (String × Int)
  | mk id _ m parts =>
    let path := path ++ (Name.part id).text ++ "."
    m.flagEntries path ++ flagEntriesOfAll path parts

def flagEntriesOfAll (path : String) : List Instance → List (String × Int)
  | [] => []
  | i :: is => i.flagEntries path ++ flagEntriesOfAll path is

end

end Instance

def Model.flagEntries (m : Model) : List (String × Int) :=
  m.main.flagEntries "" ++ Instance.flagEntriesOfAll "" m.parts

/-- The numbers behind some letters, in the names of those variables of the main module that count; nothing if
one of them is no number. -/
def Model.pipeNumbers? (m : Model) (letters : String) (counts : VarType → Bool) : Option (List Int) :=
  (m.main.declarations.filter fun v => v.name.startsWith letters && counts v.type).mapM fun v =>
    Decimal.integer? (v.name.text.toList.drop letters.length)

end Smv

namespace CompiledGraph
open Smv

def inputPortIds? (c : CompiledGraph) : Option (List Int) :=
  (c.model.pipeNumbers? inputLetters fun _ => true).map List.eraseDups

def outputPortIds? (c : CompiledGraph) : Option (List Int) :=
  (c.model.pipeNumbers? outputLetters fun _ => true).map List.eraseDups

def booleanOutputIds? (c : CompiledGraph) : Option (List Int) :=
  (c.model.pipeNumbers? outputLetters fun t => t.text == "boolean").map List.eraseDups

def queueVariables (c : CompiledGraph) : List (String × Int) := c.model.flagEntries.eraseDups

end CompiledGraph

end StreamCheck
