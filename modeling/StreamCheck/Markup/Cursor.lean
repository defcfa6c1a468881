import StreamCheck.Markup.Fault

/-! A place in a text: what lies ahead of it, and in which line and column it is. Scanning takes
characters from the front and moves the place on. -/

namespace StreamCheck.Markup

def isBreak (c : Char) : Bool :=
  c == '\n' || c.toNat == 0x85 || c.toNat == 0x2028 || c.toNat == 0x2029

def isSpace (c : Char) : Bool := c == ' ' || c == '\t'

def isGap (c : Char) : Bool := isSpace c || isBreak c

def isNameChar (c : Char) : Bool := c.isAlphanum || c == '-' || c == '_'

/-- The mark of the order of bytes, which takes no room in a line. -/
def byteOrderMark : Char := '\ufeff'

structure Cursor where
  ahead : List Char
  index : Nat := 0
  line : Nat := 0
  column : Nat := 0
deriving DecidableEq, Repr, Inhabited

namespace Cursor

def next (c : Cursor) : Cursor :=
  match c.ahead with
  | [] => c
  | x :: rest =>
    if isBreak x then ⟨rest, c.index + 1, c.line + 1, 0⟩
    else ⟨rest, c.index + 1, c.line, if x = byteOrderMark then c.column else c.column + 1⟩

def skip (n : Nat) (c : Cursor) : Cursor := Nat.repeat next n c

def isAt (p : Char → Bool) (k : Nat) (c : Cursor) : Bool := (c.ahead[k]?.map p).getD false

def isEndOr (p : Char → Bool) (k : Nat) (c : Cursor) : Bool := (c.ahead[k]?.map p).getD true

def isMark (mark : Char) (c : Cursor) : Bool :=
  c.ahead.take 3 == [mark, mark, mark] && c.isEndOr isGap 3

def isSeparator (c : Cursor) : Bool := c.isMark '-' || c.isMark '.'

end Cursor

abbrev Scan := StateT Cursor (Except Fault)

namespace Scan

def fail {α : Type} : Scan α := throw .malformed

def skip (n : Nat) : Scan Unit := modify (Cursor.skip n)

def takeWhile (p : Char → Bool) : Scan (List Char) := do
  let run := (← get).ahead.takeWhile p
  skip run.length
  return run

/-- Passes a line break. The separators of lines and of paragraphs stay what they are, all others are
one. -/
def lineBreak : Scan Char := do
  match (← get).ahead with
  | [] => fail
  | x :: _ =>
    skip 1
    return if x.toNat = 0x85 then '\n' else x

def comment : Scan Unit := do
  discard (takeWhile (· == ' '))
  if (← get).isAt (· == '#') 0 then discard (takeWhile fun c => !isBreak c)

def restOfLine : Scan Unit := do
  comment
  match (← get).ahead with
  | [] => return
  | x :: _ => if isBreak x then discard lineBreak else fail

/-- Passes line breaks, and the characters of a kind between them; the line breaks, and none if a
document begins or ends at a line. -/
def breaks (isRoom : Char → Bool) : Scan (Option (List Char)) := do
  go ((← get).ahead.length + 1) []
where
  go : Nat → List Char → Scan (Option (List Char))
    | 0, _ => fail
    | steps + 1, read => do
      if (← get).isSeparator then return none
      discard (takeWhile isRoom)
      if (← get).isAt isBreak 0 then go steps ((← lineBreak) :: read)
      else return some read.reverse

/-- Line breaks inside a text: one alone becomes a space, of several the first is left out. -/
def folded (first : Char) (others : List Char) : List Char :=
  if first ≠ '\n' then first :: others else if others.isEmpty then [' '] else others

end Scan

end StreamCheck.Markup
