import StreamCheck.Markup.Tag
import StreamCheck.Markup.Token

/-! Nodes of a document: scalars, lists and mappings with their tags. Each reader takes the tokens of a
node from the front. -/

namespace StreamCheck.Markup

inductive Node where
  | scalar (tag : Tag) (text : String)
  | list (tag : Tag) (items : List Node)
  | mapping (tag : Tag) (pairs : List (Node × Node))
deriving Inhabited

namespace Node

def tag : Node → Tag
  | scalar t _ => t
  | list t _ => t
  | mapping t _ => t

def empty : Node := scalar (Tag.ofWord "") ""

def commonHandles : List (String × String) := [("!", "!"), ("!!", Tag.start)]

structure Reader where
  tokens : List Token
  /-- What is wrong where the tokens end. -/
  fault : Fault
  /-- What handles stand for. -/
  handles : List (String × String) := commonHandles
  /-- The nodes that have a name; of one that is being read, only its kind is known. -/
  anchors : List (String × Node) := []

abbrev Reading := StateT Reader (Except Fault)

def fail {α : Type} : Reading α := throw .malformed

def peek : Reading Token := do
  let r ← get
  match r.tokens with
  | [] => throw r.fault
  | t :: _ => return t

def drop : Reading Unit := modify fun r => { r with tokens := r.tokens.tail }

def take (t : Token) : Reading Bool := do
  if (← peek) = t then
    drop
    return true
  else return false

def takeAnchor : Reading (Option String) := do
  match ← peek with
  | .anchor name =>
    drop
    if ((← get).anchors.lookup name).isSome then fail
    return some name
  | _ => return none

def takeMark : Reading (Option String) := do
  match ← peek with
  | .mark none suffix =>
    drop
    return some suffix
  | .mark (some handle) suffix =>
    drop
    match (← get).handles.lookup handle with
    | none => fail
    | some start => return some (start ++ suffix)
  | _ => return none

/-- The tag of a scalar. One that is marked as no other is what its form tells, if it has no quotes or
is marked so. -/
def scalarTag (mark : Option String) (style : Style) (text : String) : Tag :=
  let tag :=
    match mark with
    | some "!" => Tag.ofWord text
    | some name => Tag.ofName name
    | none => if style = .plain then Tag.ofWord text else .text
  if style = .broken ∧ tag = .text then .broken else tag

def collectionTag (mark : Option String) (otherwise : Tag) : Tag :=
  match mark with
  | none | some "!" => otherwise
  | some name => Tag.ofName name

def name (anchor : Option String) (n : Node) : Reading Unit :=
  match anchor with
  | none => pure ()
  | some a => modify fun r => { r with anchors := (a, n) :: r.anchors }

inductive Place where
  /-- In lines. -/
  | lines
  /-- In lines, where the items of a list need not lie deeper. -/
  | linesOrItems
  | brackets
deriving DecidableEq, Repr, Inhabited

mutual

/-- The next node. The steps are bounded. -/
def node : Nat → Place → Reading Node
  | 0, _ => fail
  | steps + 1, place => do
    match ← peek with
    | .alias a =>
      drop
      match (← get).anchors.lookup a with
      | none => fail
      | some n => return n
    | _ =>
      let before ← takeAnchor
      let mark ← takeMark
      let behind ← if before.isNone && mark.isSome then takeAnchor else pure none
      let anchor := before.or behind
      let listTag := collectionTag mark .list
      let mappingTag := collectionTag mark .mapping
      let n ←
        match ← peek, place with
        | .scalar text style, _ => do
          drop
          pure (scalar (scalarTag mark style text) text)
        | .openList, _ => do
          drop
          name anchor (list listTag [])
          pure (list listTag (← bracketItems steps true))
        | .openMapping, _ => do
          drop
          name anchor (mapping mappingTag [])
          pure (mapping mappingTag (← bracketPairs steps true))
        | .item, .linesOrItems => do
          name anchor (list listTag [])
          pure (list listTag (← bareItems steps))
        | .blockList, .lines | .blockList, .linesOrItems => do
          drop
          name anchor (list listTag [])
          pure (list listTag (← blockItems steps))
        | .blockMapping, .lines | .blockMapping, .linesOrItems => do
          drop
          name anchor (mapping mappingTag [])
          pure (mapping mappingTag (← blockPairs steps))
        | _, _ => if anchor.isSome || mark.isSome then pure (scalar (scalarTag mark .plain "") "") else fail
      name anchor n
      return n

def nodeUnless : Nat → Place → List Token → Reading Node
  | 0, _, _ => fail
  | steps + 1, place, ends => do
    if ends.contains (← peek) then return empty else node steps place

def valueUnless : Nat → Place → List Token → Reading Node
  | 0, _, _ => fail
  | steps + 1, place, ends => do
    if ← take .value then nodeUnless steps place ends else return empty

def blockItems : Nat → Reading (List Node)
  | 0 => fail
  | steps + 1 => do
    if ← take .item then
      let n ← nodeUnless steps .lines [.item, .blockEnd]
      return n :: (← blockItems steps)
    else if ← take .blockEnd then return []
    else fail

/-- The items of a list in lines that lies no deeper than its key. -/
def bareItems : Nat → Reading (List Node)
  | 0 => fail
  | steps + 1 => do
    if ← take .item then
      let n ← nodeUnless steps .lines [.item, .key, .value, .blockEnd]
      return n :: (← bareItems steps)
    else return []

def blockPairs : Nat → Reading (List (Node × Node))
  | 0 => fail
  | steps + 1 => do
    let ends : List Token := [.key, .value, .blockEnd]
    if ← take .key then
      let k ← nodeUnless steps .linesOrItems ends
      let v ← valueUnless steps .linesOrItems ends
      return (k, v) :: (← blockPairs steps)
    else if ← take .blockEnd then return []
    else fail

/-- The items of a list between brackets; behind the first one there are commas. A pair without
brackets of its own is an item too. -/
def bracketItems : Nat → Bool → Reading (List Node)
  | 0, _ => fail
  | steps + 1, first => do
    if ← take .closeList then return []
    if !first then
      if !(← take .comma) then fail
    let ends : List Token := [.comma, .closeList]
    if ← take .key then
      let k ← nodeUnless steps .brackets (.value :: ends)
      let v ← valueUnless steps .brackets ends
      return mapping .mapping [(k, v)] :: (← bracketItems steps false)
    else if ← take .closeList then return []
    else
      let n ← node steps .brackets
      return n :: (← bracketItems steps false)

/-- The pairs of a mapping between brackets; behind the first one there are commas. A key may stand
without a value. -/
def bracketPairs : Nat → Bool → Reading (List (Node × Node))
  | 0, _ => fail
  | steps + 1, first => do
    if ← take .closeMapping then return []
    if !first then
      if !(← take .comma) then fail
    let ends : List Token := [.comma, .closeMapping]
    if ← take .key then
      let k ← nodeUnless steps .brackets (.value :: ends)
      let v ← valueUnless steps .brackets ends
      return (k, v) :: (← bracketPairs steps false)
    else if ← take .closeMapping then return []
    else
      let k ← node steps .brackets
      return (k, empty) :: (← bracketPairs steps false)

end

def directives : Nat → List (String × String) → Bool → Reading (List (String × String))
  | 0, _, _ => fail
  | steps + 1, handles, versioned => do
    match ← peek with
    | .directive (.version major) =>
      if versioned || major ≠ 1 then fail
      drop
      directives steps handles true
    | .directive (.handle name start) =>
      if (handles.lookup name).isSome then fail
      drop
      directives steps ((name, start) :: handles) versioned
    | .directive .other =>
      drop
      directives steps handles versioned
    | _ => return handles ++ commonHandles

def ending : Nat → Reading Unit
  | 0 => fail
  | steps + 1 => do
    if ← take .documentEnd then ending steps
    else if !(← take .textEnd) then fail

def document (steps : Nat) : Reading (Option Node) := do
  match ← peek with
  | .textEnd => return none
  | .directive _ | .documentStart =>
    let handles ← directives steps [] false
    modify fun r => { r with handles }
    if !(← take .documentStart) then fail
    let n ←
      match ← peek with
      | .directive _ | .documentStart | .documentEnd | .textEnd => pure empty
      | _ => node steps .lines
    ending steps
    return some n
  | _ =>
    let n ← node steps .lines
    ending steps
    return some n

def ofText (text : String) : Except Fault (Option Node) :=
  let (tokens, fault) := Token.ofText text
  (document (4 * tokens.length + 8)).run' ⟨tokens, fault.getD .malformed, commonHandles, []⟩

end Node

end StreamCheck.Markup
