import StreamCheck.Markup.Block
import StreamCheck.Markup.Label
import StreamCheck.Markup.Plain
import StreamCheck.Markup.Quoted

/-! Tokens of a document. Indentation opens and closes collections; what stands in front of a colon
turns out to be a key only there, and the token that says so is put in front of it afterwards. -/

namespace StreamCheck.Markup

inductive Style where
  | plain
  /-- Between quotes, or in a block of its own. -/
  | marked
  /-- Between quotes, with halves of characters in it. -/
  | broken
deriving DecidableEq, Repr, Inhabited

inductive Token where
  | directive (d : Label.Directive)
  | documentStart
  | documentEnd
  | textEnd
  | blockList
  | blockMapping
  | blockEnd
  | openList
  | closeList
  | openMapping
  | closeMapping
  /-- A comma between brackets. -/
  | comma
  /-- The sign of an item of a list in lines. -/
  | item
  | key
  | value
  | alias (name : String)
  | anchor (name : String)
  | mark (handle : Option String) (suffix : String)
  | scalar (text : String) (style : Style)
deriving DecidableEq, Repr, Inhabited

def Token.ofQuoted (read : String × Bool) : Token :=
  scalar read.1 (if read.2 then .broken else .marked)

/-- What may turn out to be a key: where it begins, and the number of its token. -/
structure Candidate where
  token : Nat
  /-- Nothing else could stand there. -/
  required : Bool
  start : Cursor
deriving DecidableEq, Repr, Inhabited

structure Lexer where
  cursor : Cursor
  tokens : Array Token := #[]
  /-- The column of the innermost collection in lines; `-1` outside of all. -/
  indent : Int := -1
  outerIndents : List Int := []
  /-- How many brackets are open. -/
  depth : Nat := 0
  /-- Whether a key may begin. -/
  keyAllowed : Bool := true
  /-- What may turn out to be a key, by the count of open brackets. -/
  candidates : List (Nat × Candidate) := []
deriving Inhabited

/-- A step of a lexer; what was read before a fault stays read. -/
abbrev Lexing := EStateM Fault Lexer

namespace Lexer

def longestKey : Nat := 1024

def scan {α : Type} (s : Scan α) : Lexing α := fun l =>
  match s l.cursor with
  | .ok (a, c) => .ok a { l with cursor := c }
  | .error f => .error f l

def push (t : Token) : Lexing Unit := modify fun l => { l with tokens := l.tokens.push t }

def pushSign (length : Nat) (t : Token) : Lexing Unit := do
  scan (Scan.skip length)
  push t

def allowKey (allowed : Bool) : Lexing Unit := modify fun l => { l with keyAllowed := allowed }

def closed (column : Int) (indent : Int) : List Int → Nat × Int × List Int
  | [] => (0, indent, [])
  | outer :: rest =>
    if column < indent then
      let (n, left) := closed column outer rest
      (n + 1, left)
    else (0, indent, outer :: rest)

def unwind (column : Int) : Lexing Unit := modify fun l =>
  if l.depth ≠ 0 then l
  else
    let (n, indent, outerIndents) := closed column l.indent l.outerIndents
    { l with indent, outerIndents, tokens := l.tokens ++ Array.replicate n .blockEnd }

/-- Begins a collection at a column if it lies deeper than the innermost one; whether it does. -/
def deepen (column : Int) : Lexing Bool := do
  let l ← get
  if l.indent < column then
    set { l with indent := column, outerIndents := l.indent :: l.outerIndents }
    return true
  else return false

/-- Gives up what can no longer be a key: a key stands in one line and is not too long. -/
def dropStale : Lexing Unit := do
  let l ← get
  let isStale (c : Candidate) : Bool :=
    c.start.line != l.cursor.line || decide (longestKey < l.cursor.index - c.start.index)
  if l.candidates.any fun c => c.2.required && isStale c.2 then throw .malformed
  set { l with candidates := l.candidates.filter fun c => !isStale c.2 }

def dropCandidate : Lexing Unit := do
  let l ← get
  match l.candidates.lookup l.depth with
  | none => return
  | some c =>
    if c.required then throw .malformed
    set { l with candidates := l.candidates.filter fun x => x.1 != l.depth }

def saveCandidate : Lexing Unit := do
  if (← get).keyAllowed then
    dropCandidate
    let l ← get
    let required := l.depth == 0 && l.indent == (l.cursor.column : Int)
    let c : Candidate := ⟨l.tokens.size, required, l.cursor⟩
    set { l with candidates := (l.depth, c) :: l.candidates }

/-- Passes spaces, comments and empty lines; behind a line break outside of brackets a key may begin. -/
def passGap : Lexing Unit := do
  scan do
    let c ← get
    if c.index = 0 && c.isAt (· == byteOrderMark) 0 then Scan.skip 1
  go ((← get).cursor.ahead.length + 1)
where
  go : Nat → Lexing Unit
    | 0 => throw .malformed
    | steps + 1 => do
      scan Scan.comment
      let l ← get
      if l.cursor.isAt isBreak 0 then
        discard (scan Scan.lineBreak)
        if l.depth = 0 then allowKey true
        go steps

def separate (t : Token) : Lexing Unit := do
  unwind (-1)
  dropCandidate
  allowKey false
  pushSign 3 t

def keyed (token : Scan Token) : Lexing Unit := do
  saveCandidate
  allowKey false
  push (← scan token)

def openBracket (t : Token) : Lexing Unit := do
  saveCandidate
  modify fun l => { l with depth := l.depth + 1, keyAllowed := true }
  pushSign 1 t

/-- Closing more brackets than are open is left for later to find. -/
def closeBracket (t : Token) : Lexing Unit := do
  dropCandidate
  modify fun l => { l with depth := l.depth - 1, keyAllowed := false }
  pushSign 1 t

def comma : Lexing Unit := do
  allowKey true
  dropCandidate
  pushSign 1 .comma

def beginBlock (t : Token) : Lexing Unit := do
  let l ← get
  if l.depth = 0 then
    if !l.keyAllowed then throw .malformed
    if ← deepen l.cursor.column then push t

def item : Lexing Unit := do
  beginBlock .blockList
  allowKey true
  dropCandidate
  pushSign 1 .item

def key : Lexing Unit := do
  beginBlock .blockMapping
  allowKey ((← get).depth == 0)
  dropCandidate
  pushSign 1 .key

def value : Lexing Unit := do
  let l ← get
  match l.candidates.lookup l.depth with
  | some c =>
    set { l with
      candidates := l.candidates.filter fun x => x.1 != l.depth
      tokens := l.tokens.insertIdxIfInBounds c.token .key }
    if l.depth = 0 then
      if ← deepen c.start.column then
        modify fun l => { l with tokens := l.tokens.insertIdxIfInBounds c.token .blockMapping }
    allowKey false
  | none =>
    beginBlock .blockMapping
    allowKey (l.depth == 0)
    dropCandidate
  pushSign 1 .value

def block (folds : Bool) : Lexing Unit := do
  allowKey true
  dropCandidate
  let indent := (← get).indent
  push (.scalar (← scan (Block.scan folds indent)) .marked)

def plain : Lexing Unit := do
  saveCandidate
  let l ← get
  let (s, ended) ← scan (Plain.scan (l.depth != 0) l.indent)
  allowKey ended
  push (.scalar s .plain)

def directive : Lexing Unit := do
  unwind (-1)
  dropCandidate
  allowKey false
  push (.directive (← scan Label.directive))

/-- The signs with which no plain text begins, unless something behind them makes it one. -/
def indicators : List Char := "-?:,[]\x7b\x7d#&*!|>'\"%@\x60".toList

def isPlain (l : Lexer) : Bool :=
  match l.cursor.ahead with
  | [] => false
  | c :: _ =>
    !(isGap c || indicators.contains c) ||
      (!l.cursor.isEndOr isGap 1 && (c == '-' || (l.depth == 0 && (c == '?' || c == ':'))))

def finish : Lexing Unit := do
  unwind (-1)
  dropCandidate
  push .textEnd

def next : Lexing Bool := do
  passGap
  dropStale
  unwind (← get).cursor.column
  let l ← get
  let c := l.cursor
  let inLines := l.depth == 0
  let alone := c.isEndOr isGap 1
  match c.ahead with
  | [] =>
    finish
    return true
  | x :: _ =>
    if x = '%' && c.column = 0 then directive
    else if x = '-' && c.column = 0 && c.isMark '-' then separate .documentStart
    else if x = '.' && c.column = 0 && c.isMark '.' then separate .documentEnd
    else if x = '[' then openBracket .openList
    else if x = '\x7b' then openBracket .openMapping
    else if x = ']' then closeBracket .closeList
    else if x = '\x7d' then closeBracket .closeMapping
    else if x = ',' then comma
    else if x = '-' && alone then item
    else if x = '?' && (!inLines || alone) then key
    else if x = ':' && (!inLines || alone) then value
    else if x = '*' then keyed (Token.alias <$> Label.anchor)
    else if x = '&' then keyed (Token.anchor <$> Label.anchor)
    else if x = '!' then keyed ((fun m => Token.mark m.1 m.2) <$> Label.mark)
    else if x = '|' && inLines then block false
    else if x = '>' && inLines then block true
    else if x = '\'' then keyed (Token.ofQuoted <$> Quoted.scan false)
    else if x = '"' then keyed (Token.ofQuoted <$> Quoted.scan true)
    else if l.isPlain then plain
    else throw .malformed
    return false

def run : Lexing Unit := do
  go ((← get).cursor.ahead.length + 2)
where
  go : Nat → Lexing Unit
    | 0 => throw .malformed
    | steps + 1 => do
      if ← next then return
      go steps

end Lexer

def Token.ofText (text : String) : List Token × Option Fault :=
  match Lexer.run { cursor := { ahead := text.toList } } with
  | .ok _ l => (l.tokens.toList, none)
  | .error f l => (l.tokens.toList, some f)

end StreamCheck.Markup
