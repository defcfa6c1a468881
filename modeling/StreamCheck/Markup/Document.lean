import StreamCheck.Input.Datum
import StreamCheck.Markup.Node
import StreamCheck.Text.Basic

/-! Documents: the value that a text holds. The content of nodes is read as data, a scalar by its tag, and a mapping
takes over the fields that it merges. Faults are found level by level: all nodes of one depth are looked at before those
below. -/

/-! ### Bytes

Bytes as text, six bits a character. Other characters than the sixty-four are passed over, and the sign at the end fills
up the last group of four. -/

namespace StreamCheck.Markup.Binary

def sextet? (c : Char) : Option Nat :=
  if 'A' ≤ c ∧ c ≤ 'Z' then some (c.toNat - 'A'.toNat)
  else if 'a' ≤ c ∧ c ≤ 'z' then some (c.toNat - 'a'.toNat + 26)
  else if c.isDigit then some (c.toNat - '0'.toNat + 52)
  else if c = '+' then some 62
  else if c = '/' then some 63
  else none

/-- The bytes of a group that has begun, of full groups, and of one that signs fill up. -/
def decodeFrom (group : List Nat) (fill : Nat) : List Char → Option (List UInt8)
  | [] => if group.isEmpty then some [] else none
  | c :: rest =>
    match sextet? c, group with
    | some x, [a, b, d] =>
      (decodeFrom [] 0 rest).map ([UInt8.ofNat (4 * a + b / 16), UInt8.ofNat (16 * (b % 16) + d / 4),
        UInt8.ofNat (64 * (d % 4) + x)] ++ ·)
    | some x, _ => decodeFrom (group ++ [x]) 0 rest
    | none, _ =>
      if c ≠ '=' then decodeFrom group fill rest
      else
        match group with
        | [a, b] =>
          if fill = 0 then decodeFrom group 1 rest else some [UInt8.ofNat (4 * a + b / 16)]
        | [a, b, d] =>
          some [UInt8.ofNat (4 * a + b / 16), UInt8.ofNat (16 * (b % 16) + d / 4)]
        | _ => decodeFrom group fill rest

def decode? (text : String) : Option (List UInt8) :=
  let cs := text.toList
  if cs.all fun c => decide (c.toNat < 128) then decodeFrom [] 0 cs else none

end StreamCheck.Markup.Binary

/-! ### The content of nodes -/

namespace StreamCheck.Markup.Node
open Input

mutual

def size : Node → Nat
  | scalar _ _ => 1
  | list _ items => sizeOfItems items + 1
  | mapping _ pairs => sizeOfPairs pairs + 1

def sizeOfItems : List Node → Nat
  | [] => 0
  | n :: rest => size n + sizeOfItems rest

def sizeOfPairs : List (Node × Node) → Nat
  | [] => 0
  | (k, v) :: rest => size k + size v + sizeOfPairs rest

end

/-- The text of a node that is read as a scalar; a mapping is read by its own value. -/
def text? : Nat → Node → Option String
  | _, scalar _ s => some s
  | _, list _ _ => none
  | 0, mapping _ _ => none
  | depth + 1, mapping _ pairs =>
    (pairs.find? fun p => p.1.tag == .own).bind fun p => text? depth p.2

def truth (word : String) : Except Fault Datum :=
  let word := Text.inSmall word
  if Tag.trueWords.contains word then .ok (.truth true)
  else if Tag.falseWords.contains word then .ok (.truth false)
  else .error (.noTruth word)

def moment (s : String) : Except Fault Datum :=
  match Timestamp.read? s with
  | none => .error .noTime
  | some t => t.fault?.elim (.ok .moment) fun f => .error (.time f)

def scalarValue (t : Tag) (s : String) : Except Fault Datum :=
  match t with
  | .null => .ok .null
  | .truth => truth s
  | .whole => Datum.whole <$> Number.whole s
  | .real => Datum.real <$> Number.real s
  | .timestamp => moment s
  | .binary => (Binary.decode? s).elim (.error .malformed) fun b => .ok (.bytes b)
  | .text => .ok (.text s)
  | .broken => .ok (.broken s)
  | _ => .error .malformed

def isCollection : Tag → Bool
  | .list | .mapping | .orderedFields | .fields | .set => true
  | _ => false

def ownFault (n : Node) : Option Fault :=
  if isCollection n.tag then none
  else
    match text? n.size n with
    | none => some .malformed
    | some s =>
      match scalarValue n.tag s with
      | .ok _ => none
      | .error f => some f

/-- The pairs of a mapping with those that it merges in front; of several merged mappings the first
one comes last, and so counts most. -/
def flattened : Nat → List (Node × Node) → Except Fault (List (Node × Node))
  | 0, _ => .error .malformed
  | depth + 1, pairs => do
    let merged ← (pairs.filter fun p => p.1.tag == .merge).mapM fun p =>
      match p.2 with
      | mapping _ inner => flattened depth inner
      | list _ items => do
        let all ← items.mapM fun n =>
          match n with
          | mapping _ inner => flattened depth inner
          | _ => .error .malformed
        return all.reverse.flatten
      | scalar _ _ => .error .malformed
    let own := (pairs.filter fun p => p.1.tag != .merge).map fun p =>
      match p.1 with
      | scalar .own s => (scalar .text s, p.2)
      | _ => p
    return merged.flatten ++ own

inductive Part where
  | value (n : Node)
  | key (n : Node)
  | fault
deriving Inhabited

/-- The parts of a collection, in the order in which they are filled in. -/
def parts (n : Node) : List Part :=
  match n.tag, n with
  | .list, list _ items => items.map .value
  | .mapping, mapping _ pairs | .set, mapping _ pairs =>
    match flattened n.size pairs with
    | .ok all => all.flatMap fun p => [.key p.1, .value p.2]
    | .error _ => [.fault]
  | .orderedFields, list _ items | .fields, list _ items =>
    items.flatMap fun m =>
      match m with
      | mapping _ [(k, v)] => [.value k, .value v]
      | _ => [.fault]
  | _, _ => [.fault]

def Part.fault? : Part → Option Fault
  | value n => n.ownFault
  | key n => if isCollection n.tag then some .malformed else n.ownFault
  | fault => some .malformed

def Part.collection? : Part → Option Node
  | value n => if isCollection n.tag then some n else none
  | _ => none

def firstFault : Nat → List Node → Option Fault
  | 0, _ => none
  | _, [] => none
  | steps + 1, n :: rest =>
    match n.parts.findSome? Part.fault? with
    | some f => some f
    | none => firstFault steps (rest ++ n.parts.filterMap Part.collection?)

def fault? (n : Node) : Option Fault :=
  match n.ownFault with
  | some f => some f
  | none => if isCollection n.tag then firstFault (2 * n.size) [n] else none

/-- The value of a node without faults. Of a mapping only the fields with texts for keys are kept. -/
def datum : Nat → Node → Datum
  | 0, _ => .null
  | depth + 1, n =>
    match n.tag, n with
    | .list, list _ items => .list (items.map (datum depth))
    | .mapping, mapping _ pairs =>
      Datum.ofFields <| ((flattened n.size pairs).toOption.getD []).filterMap fun p =>
        match datum depth p.1 with
        | .text k => some (k, datum depth p.2)
        | _ => none
    | .set, mapping _ pairs => .set pairs.isEmpty
    | .orderedFields, list _ items | .fields, list _ items =>
      .list (items.map fun m =>
        match m with
        | mapping _ [(k, v)] => .list [datum depth k, datum depth v]
        | _ => .null)
    | t, n => ((text? n.size n).bind fun s => (scalarValue t s).toOption).getD .null

def hasForeignKey (n : Node) : Bool :=
  match n.tag, n with
  | .mapping, mapping _ pairs =>
    ((flattened n.size pairs).toOption.getD []).any fun p =>
      match datum p.1.size p.1 with
      | .text _ | .broken _ => false
      | _ => true
  | _, _ => false

end StreamCheck.Markup.Node

/-! ### Documents -/

namespace StreamCheck.Markup
open Input

structure Document where
  value : Datum
  /-- The value is a mapping that has besides keys that are no text. -/
  hasForeignKey : Bool := false
deriving Inhabited

namespace Document

def isAdmitted (c : Char) : Bool :=
  let n := c.toNat
  n == 9 || n == 10 || (0x20 ≤ n && n ≤ 0x7e) || n == 0x85 || (0xa0 ≤ n && n ≤ 0xfffd) ||
    0x10000 ≤ n

def ofNode (n : Node) : Except Fault Document :=
  match n.fault? with
  | some f => .error f
  | none => .ok ⟨n.datum n.size, n.hasForeignKey⟩

/-- The document of a text. Without one there is no value. -/
def read (text : String) : Except Fault Document := do
  let text := Text.plainLines text
  if !text.toList.all isAdmitted then throw .malformed
  match ← Node.ofText text with
  | none => return ⟨.null, false⟩
  | some n => ofNode n

def isNothing (d : Document) : Bool := d.value.isNothing && !d.hasForeignKey

end Document

end StreamCheck.Markup
