import StreamCheck.Markup.Cursor

/-! Text in lines of its own, deeper than what it belongs to. The lines stay lines, or are folded into
one where both begin with no space. -/

namespace StreamCheck.Markup.Block

inductive Tail where
  | strip
  /-- The first one is kept. -/
  | clip
  | keep
deriving DecidableEq, Repr, Inhabited

def tail? : Char → Option Tail
  | '+' => some .keep
  | '-' => some .strip
  | _ => none

def takeTail : Scan (Option Tail) := do
  match (← get).ahead with
  | c :: _ =>
    match tail? c with
    | some t =>
      Scan.skip 1
      return some t
    | none => return none
  | [] => return none

def takeDepth : Scan (Option Nat) := do
  match (← get).ahead with
  | c :: _ =>
    if c.isDigit then
      if c = '0' then Scan.fail
      Scan.skip 1
      return some (c.toNat - '0'.toNat)
    else return none
  | [] => return none

def header : Scan (Tail × Option Nat) := do
  let before ← takeTail
  let depth ← takeDepth
  let behind ← if before.isNone && depth.isSome then takeTail else pure none
  if !(← get).isEndOr (fun c => c == ' ' || isBreak c) 0 then Scan.fail
  Scan.restOfLine
  return ((before.or behind).getD .clip, depth)

/-- The empty lines in front, and the deepest column of a space among them and in the first line with
text. -/
def emptyLines : Scan (List Char × Nat) := do
  go ((← get).ahead.length + 1) [] 0
where
  go : Nat → List Char → Nat → Scan (List Char × Nat)
    | 0, _, _ => Scan.fail
    | steps + 1, read, deepest => do
      let c ← get
      if c.isAt isBreak 0 then go steps ((← Scan.lineBreak) :: read) deepest
      else if c.isAt (· == ' ') 0 then
        Scan.skip 1
        go steps read (max deepest (← get).column)
      else return (read.reverse, deepest)

def spaces (column : Nat) : Scan Unit := do
  let c ← get
  Scan.skip ((c.ahead.take (column - c.column)).takeWhile (· == ' ')).length

/-- The empty lines in front of a line with some indentation, which is passed. -/
def breaks (column : Nat) : Scan (List Char) := do
  go ((← get).ahead.length + 1) []
where
  go : Nat → List Char → Scan (List Char)
    | 0, _ => Scan.fail
    | steps + 1, read => do
      spaces column
      if (← get).isAt isBreak 0 then go steps ((← Scan.lineBreak) :: read)
      else return read.reverse

def lineEnd : Scan (List Char) := do
  if (← get).isAt isBreak 0 then return [← Scan.lineBreak] else return []

def lines (folds : Bool) (tail : Tail) (column : Nat) (empty : List Char) : Scan String := do
  go ((← get).ahead.length + 1) [] [] empty
where
  /-- Whether a line of the text lies ahead. -/
  more : Scan Bool := do
    let c ← get
    return c.column == column && !c.ahead.isEmpty
  ended (read last empty : List Char) : String :=
    String.ofList <| read ++
      match tail with
      | .strip => []
      | .clip => last
      | .keep => last ++ empty
  go : Nat → List Char → List Char → List Char → Scan String
    | 0, _, _, _ => Scan.fail
    | steps + 1, read, last, empty => do
      if !(← more) then return ended read last empty
      let joins := !(← get).isAt isSpace 0
      let line ← Scan.takeWhile fun c => !isBreak c
      let read := read ++ empty ++ line
      let last ← lineEnd
      let empty ← breaks column
      if !(← more) then return ended read last empty
      let next := !(← get).isAt isSpace 0
      if folds && last == ['\n'] && joins && next then
        go steps (if empty.isEmpty then read ++ [' '] else read) last empty
      else go steps (read ++ last) last empty

def scan (folds : Bool) (indent : Int) : Scan String := do
  Scan.skip 1
  let (tail, depth) ← header
  let least := (max (indent + 1) 1).toNat
  match depth with
  | none =>
    let (empty, deepest) ← emptyLines
    lines folds tail (max least deepest) empty
  | some depth =>
    let column := least + depth - 1
    let empty ← breaks column
    lines folds tail column empty

end StreamCheck.Markup.Block
