/-! Characters by their numbers, and text as bytes. Numbers above 65535 may be given in two halves. Of an ill-formed
sequence of bytes the longest part that could begin a character counts as one unknown character, and so does every
byte that cannot begin one. -/

namespace StreamCheck.Text.Units

def isFirst (n : Nat) : Bool := decide (0xd800 ≤ n) && decide (n < 0xdc00)

def isSecond (n : Nat) : Bool := decide (0xdc00 ≤ n) && decide (n < 0xe000)

/-- The character of a number; a half alone is an unknown character. -/
def single (n : Nat) : Char := if n.isValidChar then Char.ofNat n else '\ufffd'

def joined (first second : Nat) : Char :=
  Char.ofNat (0x10000 + (first - 0xd800) * 0x400 + (second - 0xdc00))

/-- The characters of some numbers, in front of which others have been read, the last one first. -/
def decodeOnto (read : List Char) : List Nat → List Char
  | [] => read.reverse
  | [n] => (single n :: read).reverse
  | n :: m :: rest =>
    if isFirst n && isSecond m then decodeOnto (joined n m :: read) rest
    else decodeOnto (single n :: read) (m :: rest)

def decode (units : List Nat) : String := String.ofList (decodeOnto [] units)

def isHalf (n : Nat) : Bool := isFirst n || isSecond n

def hasLoneHalf : List Nat → Bool
  | [] => false
  | [n] => isHalf n
  | n :: m :: rest =>
    if isFirst n && isSecond m then hasLoneHalf rest else isHalf n || hasLoneHalf (m :: rest)

def hexDigit? (c : Char) : Option Nat :=
  if c.isDigit then some (c.toNat - '0'.toNat)
  else if 'a' ≤ c ∧ c ≤ 'f' then some (c.toNat - 'a'.toNat + 10)
  else if 'A' ≤ c ∧ c ≤ 'F' then some (c.toNat - 'A'.toNat + 10)
  else none

def hex? (cs : List Char) : Option Nat :=
  cs.foldlM (fun n c => (hexDigit? c).map (16 * n + ·)) 0

end StreamCheck.Text.Units

namespace StreamCheck.Text.Utf8

/-- A character that has begun: its bits so far, and between which bounds each byte to come must lie. -/
structure Pending where
  bits : Nat
  bounds : List (Nat × Nat)
deriving DecidableEq, Repr, Inhabited

def anyTail : Nat × Nat := (0x80, 0xbf)

def lead? (b : Nat) : Option Pending :=
  if 0xc2 ≤ b ∧ b ≤ 0xdf then some ⟨b - 0xc0, [anyTail]⟩
  else if b = 0xe0 then some ⟨0, [(0xa0, 0xbf), anyTail]⟩
  else if b = 0xed then some ⟨0xd, [(0x80, 0x9f), anyTail]⟩
  else if 0xe1 ≤ b ∧ b ≤ 0xef then some ⟨b - 0xe0, [anyTail, anyTail]⟩
  else if b = 0xf0 then some ⟨0, [(0x90, 0xbf), anyTail, anyTail]⟩
  else if 0xf1 ≤ b ∧ b ≤ 0xf3 then some ⟨b - 0xf0, [anyTail, anyTail, anyTail]⟩
  else if b = 0xf4 then some ⟨4, [(0x80, 0x8f), anyTail, anyTail]⟩
  else none

def unknown : Char := '\ufffd'

def begin (b : Nat) : List Char × Option Pending :=
  if b < 0x80 then ([Char.ofNat b], none)
  else
    match lead? b with
    | some p => ([], some p)
    | none => ([unknown], none)

/-- The characters that a byte completes, and what has begun after it. -/
def accept (pending : Option Pending) (b : Nat) : List Char × Option Pending :=
  match pending with
  | none => begin b
  | some ⟨_, []⟩ => begin b
  | some ⟨bits, (low, high) :: rest⟩ =>
    if low ≤ b ∧ b ≤ high then
      let bits := bits * 64 + b % 64
      if rest.isEmpty then ([Char.ofNat bits], none) else ([], some ⟨bits, rest⟩)
    else
      let (out, next) := begin b
      (unknown :: out, next)

def decodeFrom : Option Pending → List UInt8 → List Char
  | none, [] => []
  | some _, [] => [unknown]
  | pending, b :: rest =>
    let (out, next) := accept pending b.toNat
    out ++ decodeFrom next rest

def decode (bytes : List UInt8) : String := String.ofList (decodeFrom none bytes)

def encode (s : String) : List UInt8 := s.toUTF8.toList

def decode? (bytes : List UInt8) : Option String :=
  let s := decode bytes
  if encode s == bytes then some s else none

end StreamCheck.Text.Utf8
