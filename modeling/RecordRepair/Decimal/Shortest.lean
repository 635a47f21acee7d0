/-! # The shortest decimal of a floating-point number

A finite positive number of double precision is `m * 2 ^ q`.  Every real in an interval around it is
read back as the same number.

* `shortest m q` is the decimal in that interval with the fewest digits: it stands on the coarsest
  decimal grid that has a point there.  Of two points the one nearer to the number is taken, the
  upper one if both are equally near.
* `positional` writes a decimal without an exponent. -/

namespace RecordRepair

/-- The natural number `digits` times a power of ten. -/
structure Decimal where
  digits : Nat
  exponent : Int
deriving DecidableEq, Repr

namespace Decimal

/-- A number of double precision, less its sign. -/
inductive Magnitude where
  | finite (m : Nat) (q : Int)
  | infinite
  | notANumber
deriving DecidableEq, Repr

/-- The least number that takes all bits of a full fraction. -/
def implicitBit : Nat := 0x10000000000000

/-- The sign and the magnitude that the bits of a number stand for. -/
def decode (bits : UInt64) : Bool × Magnitude :=
  let n := bits.toNat
  let exponent : Nat := n / implicitBit % 0x800
  let fraction := n % implicitBit
  let magnitude :=
    if exponent = 2047 then (if fraction = 0 then .infinite else .notANumber)
    else if exponent = 0 then .finite fraction (-1074)
    else .finite (fraction + implicitBit) ((exponent : Int) - 1075)
  (n / 0x8000000000000000 = 1, magnitude)

/-- The fraction `num / den` with `num` times `2 ^ q` times `10 ^ -k`. -/
def scale (num : Nat) (q k : Int) : Nat × Nat :=
  (num * Nat.pow 2 q.toNat * Nat.pow 10 (-k).toNat,
    Nat.pow 2 (-q).toNat * Nat.pow 10 k.toNat)

/-- Whether `a` lies below `b`, or on it if ends count. -/
def within (ends : Bool) (a b : Nat) : Bool := a < b || (ends && a == b)

/-- The point of the decimal grid `10 ^ k` that is read back as `m * 2 ^ q`, if there is one. -/
def onGrid? (m : Nat) (q : Int) (k : Int) : Option Decimal :=
  let ends := m % 2 == 0
  let below := if m = implicitBit ∧ q ≠ -1074 then 1 else 2
  let low := scale (4 * m - below) (q - 2) k
  let value := scale (4 * m) (q - 2) k
  let high := scale (4 * m + 2) (q - 2) k
  let den := value.2
  let floor := value.1 / den
  let lowerHit := within ends low.1 (floor * den)
  let upperHit := within ends ((floor + 1) * den) high.1
  let nearLower := value.1 - floor * den < (floor + 1) * den - value.1
  if lowerHit && (nearLower || !upperHit) then some ⟨floor, k⟩
  else if upperHit then some ⟨floor + 1, k⟩
  else none

/-- The exponents of the decimal grids, the coarsest first.  The finest numbers are multiples of
`2 ^ -1074`, and no number reaches `10 ^ 309`. -/
def grids : List Int := (List.range 1400).map fun (i : Nat) => 309 - (i : Int)

/-- The shortest decimal that is read back as `m * 2 ^ q`. -/
def shortest (m : Nat) (q : Int) : Decimal := (grids.findSome? (onGrid? m q)).getD ⟨0, 0⟩

/-- A decimal without an exponent; a whole number ends in `.0`. -/
def positional (decimal : Decimal) : String :=
  let digits := Nat.toDigits 10 decimal.digits
  let places := (-decimal.exponent).toNat
  let whole := digits ++ List.replicate decimal.exponent.toNat '0'
  if places = 0 then String.ofList (whole ++ ['.', '0'])
  else
    let padded := List.replicate (places + 1 - whole.length) '0' ++ whole
    let cut := padded.length - places
    String.ofList (padded.take cut ++ '.' :: padded.drop cut)

/-- The text of a number: the fewest digits that are read back, without an exponent. -/
def print (value : Float) : String :=
  match decode value.toBits with
  | (_, .notANumber) => "NaN"
  | (negative, .infinite) => if negative then "-inf" else "inf"
  | (negative, .finite m q) =>
    let digits := if m = 0 then "0.0" else positional (shortest m q)
    if negative then "-" ++ digits else digits

end Decimal

end RecordRepair
