import StreamCheck.Markup.Cursor

/-! Plain text: words without quotes, with spaces and line breaks between them. -/

namespace StreamCheck.Markup.Plain

def isBracketed (c : Char) : Bool := ",?[]\x7b\x7d".toList.contains c

def isBehindColon (c : Char) : Bool := ",[]\x7b\x7d".toList.contains c

/-- The word in front. It ends before a gap, and before a colon that a gap follows; between brackets
also before a bracket. -/
def word (bracketed : Bool) : List Char → List Char
  | [] => []
  | c :: rest =>
    let ends :=
      isGap c || (bracketed && isBracketed c) ||
        (c == ':' &&
          match rest with
          | [] => true
          | d :: _ => isGap d || (bracketed && isBehindColon d))
    if ends then [] else c :: word bracketed rest

/-- Passes the gap behind a word: what it stands for, which is nothing if the text ends there, and
whether a line ended. -/
def gap : Scan (List Char × Bool) := do
  let spaces ← Scan.takeWhile (· == ' ')
  if !(← get).isAt isBreak 0 then return (spaces, false)
  let first ← Scan.lineBreak
  match ← Scan.breaks (· == ' ') with
  | none => return ([], true)
  | some others => return (Scan.folded first others, true)

def scan (bracketed : Bool) (indent : Int) : Scan (String × Bool) := do
  go ((← get).ahead.length + 1) [] [] false
where
  go : Nat → List Char → List Char → Bool → Scan (String × Bool)
    | 0, _, _, _ => Scan.fail
    | steps + 1, read, between, ended => do
      let next := word bracketed (← get).ahead
      if next.isEmpty || (← get).isAt (· == '#') 0 then return (String.ofList read, ended)
      Scan.skip next.length
      let read := read ++ between ++ next
      let (between, ended) ← gap
      let c ← get
      if between.isEmpty || (!bracketed && decide ((c.column : Int) ≤ indent)) then
        return (String.ofList read, ended)
      go steps read between ended

end StreamCheck.Markup.Plain
