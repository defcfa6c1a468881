/-! Texts: classes of characters, what ends a line, and texts that are paths of files. -/

namespace StreamCheck.Text

/-! ### Blanks and digits

Blanks count as space between words. Every script that has digits lists its ten in a row, from zero to nine, so the
place of its zero gives the value of each. -/

def isBlank (c : Char) : Bool :=
  let n := c.toNat
  (9 ≤ n && n ≤ 13) || n == 32 || n == 0x85 || n == 0xa0 || n == 0x1680 ||
    (0x2000 ≤ n && n ≤ 0x200a) || n == 0x2028 || n == 0x2029 || n == 0x202f || n == 0x205f ||
    n == 0x3000

def stripBlanks (cs : List Char) : List Char :=
  ((cs.dropWhile isBlank).reverse.dropWhile isBlank).reverse

/-- The zeros of the scripts that have decimal digits, in ascending order. -/
def digitZeros : List Nat :=
  [0x30, 0x660, 0x6f0, 0x7c0, 0x966, 0x9e6, 0xa66, 0xae6, 0xb66, 0xbe6, 0xc66, 0xce6, 0xd66,
    0xde6, 0xe50, 0xed0, 0xf20, 0x1040, 0x1090, 0x17e0, 0x1810, 0x1946, 0x19d0, 0x1a80, 0x1a90,
    0x1b50, 0x1bb0, 0x1c40, 0x1c50, 0xa620, 0xa8d0, 0xa900, 0xa9d0, 0xa9f0, 0xaa50, 0xabf0,
    0xff10, 0x104a0, 0x10d30, 0x11066, 0x110f0, 0x11136, 0x111d0, 0x112f0, 0x11450, 0x114d0,
    0x11650, 0x116c0, 0x11730, 0x118e0, 0x11950, 0x11c50, 0x11d50, 0x11da0, 0x16a60, 0x16ac0,
    0x16b50, 0x1d7ce, 0x1d7d8, 0x1d7e2, 0x1d7ec, 0x1d7f6, 0x1e140, 0x1e2f0, 0x1e950, 0x1fbf0]

def digitValue? (c : Char) : Option Nat :=
  (digitZeros.find? fun z => decide (z ≤ c.toNat) && decide (c.toNat < z + 10)).map
    (c.toNat - ·)

def isDigit (c : Char) : Bool := (digitValue? c).isSome

/-! ### Lines -/

/-- Characters in which every line ends with a line feed; a carriage return ends one too, alone or
together with a line feed behind it. -/
def withLineFeeds : List Char → List Char
  | '\r' :: '\n' :: rest => '\n' :: withLineFeeds rest
  | '\r' :: rest => '\n' :: withLineFeeds rest
  | c :: rest => c :: withLineFeeds rest
  | [] => []

def plainLines (s : String) : String := String.ofList (withLineFeeds s.toList)

/-- A text without the line feed that ends it, unless it is nothing but that. -/
def withoutLastFeed (s : String) : String :=
  let cs := s.toList
  if 1 < cs.length ∧ cs.getLast? = some '\n' then String.ofList cs.dropLast else s

/-! ### Paths -/

/-- What a path begins with: two slashes mean something else than one, and more than two mean one. -/
def pathRoot : List Char → String
  | '/' :: '/' :: '/' :: _ => "/"
  | '/' :: '/' :: _ => "//"
  | '/' :: _ => "/"
  | _ => ""

/-- A path without empty names and names for the place itself; an empty path is that place. -/
def normalPath (path : String) : String :=
  let names := (path.splitOn "/").filter fun n => n != "" && n != "."
  let normal := pathRoot path.toList ++ "/".intercalate names
  if normal.isEmpty then "." else normal

end StreamCheck.Text
