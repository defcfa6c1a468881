import StreamCheck.Decimal.Reader
import StreamCheck.Markup.Cursor
import StreamCheck.Text.Encoding

/-! Labels: the names of anchors, the marks of kinds, and the directives in front of a document. -/

namespace StreamCheck.Markup.Label
open Text

def isSpaceOrBreak (c : Char) : Bool := c == ' ' || isBreak c

def name : Scan String := do
  let run ← Scan.takeWhile isNameChar
  if run.isEmpty then Scan.fail
  return String.ofList run

def anchor : Scan String := do
  Scan.skip 1
  let s ← name
  if !(← get).isEndOr (fun c => isGap c || "?:,]\x7d%@\x60".toList.contains c) 0 then Scan.fail
  return s

def isMarkChar (c : Char) : Bool := c.isAlphanum || "-;/?:@&=+$,_.!~*'()[]".toList.contains c

def encoded : List Char → Option (List UInt8 × List Char)
  | '%' :: a :: b :: rest =>
    match Units.hex? [a, b], encoded rest with
    | some n, some (bytes, rest) => some (UInt8.ofNat n :: bytes, rest)
    | _, _ => none
  | '%' :: _ => none
  | cs => some ([], cs)

def piece : Scan (List Char) := do
  let cs := (← get).ahead
  if cs.head? == some '%' then
    match encoded cs with
    | none => Scan.fail
    | some (bytes, rest) =>
      match Utf8.decode? bytes with
      | none => Scan.fail
      | some s =>
        Scan.skip (cs.length - rest.length)
        return s.toList
  else Scan.takeWhile isMarkChar

def suffix : Scan String := do
  go ((← get).ahead.length + 1) false []
where
  go : Nat → Bool → List Char → Scan String
    | 0, _, _ => Scan.fail
    | steps + 1, found, read => do
      if (← get).isAt (fun c => isMarkChar c || c == '%') 0 then
        go steps true (read ++ (← piece))
      else if found then return String.ofList read
      else Scan.fail

def handle : Scan String := do
  if !(← get).isAt (· == '!') 0 then Scan.fail
  Scan.skip 1
  if (← get).isAt (· == ' ') 0 then return "!"
  let run ← Scan.takeWhile isNameChar
  if !(← get).isAt (· == '!') 0 then Scan.fail
  Scan.skip 1
  return String.ofList ('!' :: run ++ ['!'])

def mark : Scan (Option String × String) := do
  let c ← get
  let (h, s) ←
    if c.isAt (· == '<') 1 then do
      Scan.skip 2
      let s ← suffix
      if !(← get).isAt (· == '>') 0 then Scan.fail
      Scan.skip 1
      pure (none, s)
    else if c.isEndOr isGap 1 then do
      Scan.skip 1
      pure (none, "!")
    else if ((c.ahead.drop 1).takeWhile fun x => !isSpaceOrBreak x).contains '!' then do
      let h ← handle
      pure (some h, ← suffix)
    else do
      Scan.skip 1
      pure (some "!", ← suffix)
  if !(← get).isEndOr isSpaceOrBreak 0 then Scan.fail
  return (h, s)

inductive Directive where
  | version (major : Nat)
  /-- What a handle stands for. -/
  | handle (name start : String)
  | other
deriving DecidableEq, Repr, Inhabited

def number : Scan Nat := do
  let run ← Scan.takeWhile Char.isDigit
  if run.isEmpty then Scan.fail
  if Decimal.mostDigits < run.length then throw (.wholeTooLong run.length)
  return run.foldl (fun n c => 10 * n + (c.toNat - '0'.toNat)) 0

def spaces : Scan Unit := discard (Scan.takeWhile (· == ' '))

def directive : Scan Directive := do
  Scan.skip 1
  let s ← name
  if !(← get).isEndOr isSpaceOrBreak 0 then Scan.fail
  let d ←
    if s = "YAML" then do
      spaces
      let major ← number
      if !(← get).isAt (· == '.') 0 then Scan.fail
      Scan.skip 1
      discard number
      if !(← get).isEndOr isSpaceOrBreak 0 then Scan.fail
      pure (Directive.version major)
    else if s = "TAG" then do
      spaces
      let h ← handle
      if !(← get).isAt (· == ' ') 0 then Scan.fail
      spaces
      let start ← suffix
      if !(← get).isEndOr isSpaceOrBreak 0 then Scan.fail
      pure (.handle h start)
    else do
      discard (Scan.takeWhile fun c => !isBreak c)
      pure .other
  Scan.restOfLine
  return d

end StreamCheck.Markup.Label
