import StreamCheck.Markup.Cursor
import StreamCheck.Text.Encoding

/-! Text between quotes. Between double ones a backslash begins an escape; between single ones nothing
but the quote itself is special, and is written twice. Characters are kept by their numbers. -/

namespace StreamCheck.Markup.Quoted
open Text

def escaped? : Char → Option Nat
  | '0' => some 0
  | 'a' => some 7
  | 'b' => some 8
  | 't' | '\t' => some 9
  | 'n' => some 10
  | 'v' => some 11
  | 'f' => some 12
  | 'r' => some 13
  | 'e' => some 0x1b
  | ' ' => some 0x20
  | '"' => some '"'.toNat
  | '\\' => some '\\'.toNat
  | '/' => some '/'.toNat
  | 'N' => some 0x85
  | '_' => some 0xa0
  | 'L' => some 0x2028
  | 'P' => some 0x2029
  | _ => none

def escapeWidth? : Char → Option Nat
  | 'x' => some 2
  | 'u' => some 4
  | 'U' => some 8
  | _ => none

def breaks : Scan (List Nat) := do
  match ← Scan.breaks isSpace with
  | none => Scan.fail
  | some others => return others.map Char.toNat

def escape : Scan (List Nat) := do
  match (← get).ahead with
  | [] => Scan.fail
  | c :: rest =>
    match escaped? c, escapeWidth? c with
    | some n, _ =>
      Scan.skip 1
      return [n]
    | none, some width =>
      let ds := rest.take width
      if ds.length < width then Scan.fail
      match Units.hex? ds with
      | none => Scan.fail
      | some n =>
        if 0x80000000 ≤ n then throw .numberTooLarge
        if 0x110000 ≤ n then throw .noCharacter
        Scan.skip (width + 1)
        return [n]
    | none, none =>
      if isBreak c then
        discard Scan.lineBreak
        breaks
      else Scan.fail

def gap : Scan (List Nat) := do
  let spaces ← Scan.takeWhile isSpace
  match (← get).ahead with
  | [] => Scan.fail
  | c :: _ =>
    if isBreak c then
      let first ← Scan.lineBreak
      match ← Scan.breaks isSpace with
      | none => Scan.fail
      | some others => return (Scan.folded first others).map Char.toNat
    else return spaces.map Char.toNat

/-- The text behind a quote, up to the next one, and whether there are halves of characters in it. Those
do not become one here. -/
def scan (double : Bool) : Scan (String × Bool) := do
  Scan.skip 1
  go ((← get).ahead.length + 1) []
where
  go : Nat → List Nat → Scan (String × Bool)
    | 0, _ => Scan.fail
    | steps + 1, read => do
      match double, (← get).ahead with
      | _, [] => Scan.fail
      | false, '\'' :: '\'' :: _ =>
        Scan.skip 2
        go steps ('\''.toNat :: read)
      | false, '\'' :: _ | true, '"' :: _ =>
        Scan.skip 1
        return (Units.decode read.reverse, read.any Units.isHalf)
      | true, '\\' :: _ =>
        Scan.skip 1
        go steps ((← escape).reverse ++ read)
      | _, c :: _ =>
        if isGap c then go steps ((← gap).reverse ++ read)
        else
          Scan.skip 1
          go steps (c.toNat :: read)

end StreamCheck.Markup.Quoted
