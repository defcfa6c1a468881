/-! How a number with a fraction is written: in the fewest digits that read back, always with a point or an
exponent. Sizes from `10^-4` to below `10^16` are written without an exponent. The search for the digits runs over
grids of powers of ten, coarse ones first; the first grid that has a point close enough gives them. -/

namespace StreamCheck.Decimal

/-- A positive binary number `mantissa * 2 ^ exponent` with the reals that round to it. -/
structure Binary where
  mantissa : Nat
  exponent : Int
  /-- The number below is half as far away as the number above. -/
  narrowBelow : Bool
deriving DecidableEq, Repr, Inhabited

def Binary.ofBits (bits : UInt64) : Binary :=
  let biased := ((bits >>> 52) &&& 0x7ff).toNat
  let fraction := (bits &&& 0xfffffffffffff).toNat
  if biased = 0 then ⟨fraction, -1074, false⟩
  else ⟨Nat.pow 2 52 + fraction, (biased : Int) - 1075, fraction == 0 && decide (1 < biased)⟩

structure Scaled where
  digits : Nat
  exponent : Int
deriving DecidableEq, Repr, Inhabited

/-- How `a * 10 ^ i` compares with `m * 2 ^ j`. -/
def compareScaled (a : Nat) (i : Int) (m : Nat) (j : Int) : Ordering :=
  compare (a * Nat.pow 10 i.toNat * Nat.pow 2 (-j).toNat)
    (m * Nat.pow 2 j.toNat * Nat.pow 10 (-i).toNat)

namespace Binary

/-- Whether a decimal lies among the reals that round to the number: no further than half way to the
neighbours, half way itself included when the mantissa is even. -/
def readsBack (x : Binary) (d : Scaled) : Bool :=
  let low := 4 * x.mantissa - (if x.narrowBelow then 1 else 2)
  let high := 4 * x.mantissa + 2
  let closed := x.mantissa % 2 == 0
  let below := compareScaled d.digits d.exponent low (x.exponent - 2)
  let above := compareScaled d.digits d.exponent high (x.exponent - 2)
  (below == .gt || (closed && below == .eq)) && (above == .lt || (closed && above == .eq))

def floorAt (x : Binary) (i : Int) : Nat :=
  (x.mantissa * Nat.pow 2 x.exponent.toNat * Nat.pow 10 (-i).toNat) /
    (Nat.pow 10 i.toNat * Nat.pow 2 (-x.exponent).toNat)

/-- The point of the grid of `10 ^ i` that reads back: the nearer one of the two neighbours if both
do, and the even one if both are as near. -/
def onGrid? (x : Binary) (i : Int) : Option Scaled :=
  let n := x.floorAt i
  let down : Scaled := ⟨n, i⟩
  let up : Scaled := ⟨n + 1, i⟩
  match x.readsBack down, x.readsBack up with
  | false, false => none
  | true, false => some down
  | false, true => some up
  | true, true =>
    match compareScaled (2 * n + 1) i (2 * x.mantissa) x.exponent with
    | .gt => some down
    | .lt => some up
    | .eq => some (if n % 2 = 0 then down else up)

def exact (x : Binary) : Scaled :=
  if 0 ≤ x.exponent then ⟨x.mantissa * Nat.pow 2 x.exponent.toNat, 0⟩
  else ⟨x.mantissa * Nat.pow 5 (-x.exponent).toNat, x.exponent⟩

/-- An estimate of the place of the leading digit: an exponent of ten that is never too small and too
large by two at most. -/
def scale (x : Binary) : Int :=
  ((x.mantissa.log2 : Int) + x.exponent + 1) * 30103 / 100000 + 2

end Binary

def Scaled.trim : Nat → Scaled → Scaled
  | 0, d => d
  | fuel + 1, d =>
    if d.digits ≠ 0 ∧ d.digits % 10 = 0 then trim fuel ⟨d.digits / 10, d.exponent + 1⟩ else d

/-- The shortest decimal that reads back as the number, and the nearest of those. -/
def Binary.shortest (x : Binary) : Scaled :=
  let found := (List.range 22).findSome? fun (n : Nat) => x.onGrid? (x.scale - (n : Int))
  let d := found.getD x.exact
  d.trim (d.digits.log2 + 1)

/-! ### Whole numbers beside binary ones -/

def Binary.isWhole (x : Binary) : Bool :=
  compareScaled (x.floorAt 0) 0 x.mantissa x.exponent == .eq

def floor? (x : Float) : Option Int :=
  if x.isNaN || x.isInf then none
  else
    let size := Binary.ofBits x.toBits
    let n := size.floorAt 0
    some <|
      if x.toBits >>> 63 == 0 then n
      else if size.isWhole then -(n : Int)
      else -(n : Int) - 1

def whole? (x : Float) : Option Int :=
  if (Binary.ofBits x.toBits).isWhole then floor? x else none

/-! ### The text of a number -/

def leastPlain : Int := -4

def leastLarge : Int := 16

def exponentText (e : Int) : String :=
  let digits := toString e.natAbs
  "e" ++ (if e < 0 then "-" else "+") ++ (if digits.length < 2 then "0" else "") ++ digits

def zeros (n : Nat) : String := String.ofList (List.replicate n '0')

def Scaled.text (d : Scaled) : String :=
  let digits := (toString d.digits).toList
  let place : Int := d.exponent + digits.length - 1
  if leastPlain ≤ place ∧ place < leastLarge then
    if place < 0 then "0." ++ zeros (-place - 1).toNat ++ String.ofList digits
    else
      let whole := place.toNat + 1
      if digits.length ≤ whole then
        String.ofList digits ++ zeros (whole - digits.length) ++ ".0"
      else String.ofList (digits.take whole) ++ "." ++ String.ofList (digits.drop whole)
  else
    match digits with
    | [] => ""
    | [c] => c.toString ++ exponentText place
    | c :: rest => c.toString ++ "." ++ String.ofList rest ++ exponentText place

def text (x : Float) : String :=
  if x.isNaN then "nan"
  else
    let sign := if x.toBits >>> 63 == 1 then "-" else ""
    if x.isInf then sign ++ "inf"
    else if x == 0.0 then sign ++ "0.0"
    else sign ++ (Binary.ofBits x.toBits).shortest.text

end StreamCheck.Decimal
