/-!
# Double precision numbers, exactly

A double is its encoding, so that the many encodings of what is not a number are kept apart. A
finite double is a whole number of units of `2 ^ (-1074)`. `units?` reads that number off the
encoding, so that equality, order and the test for integers are exact integer arithmetic.
-/

namespace Script

/-- A double precision number, by its encoding in 64 bits. -/
structure Binary64 where
  /-- The sign bit, eleven bits of exponent and 52 bits of fraction. -/
  bits : UInt64
deriving DecidableEq, Repr

namespace Binary64

/-- The double that a computation with floats gives. -/
def ofFloat (x : Float) : Binary64 := ⟨x.toBits⟩

/-- The double as a float to compute with. -/
def toFloat (x : Binary64) : Float := .ofBits x.bits

/-- The double nearest to an integer. -/
def ofInt (n : Int) : Binary64 := ofFloat (Float.ofInt n)

/-- The double nearest to a number of digits and a power of ten, the exponent of which may be
negative. -/
def ofScientific (digits : Nat) (negative : Bool) (exponent : Nat) : Binary64 :=
  ofFloat (Float.ofScientific digits negative exponent)

instance : OfScientific Binary64 := ⟨ofScientific⟩

/-- What the 64 bits of a double say. -/
inductive Reading where
  | notANumber
  | infinite (negative : Bool)
  /-- `mantissa * 2 ^ shift` units, or their negation. -/
  | finite (negative : Bool) (mantissa shift : Nat)
deriving DecidableEq, Repr

/-- Reads the encoding as a natural number: one sign bit, eleven bits of exponent and 52 bits of
fraction. -/
def Reading.ofBits (bits : Nat) : Reading :=
  let negative := decide (bits >>> 63 % 2 = 1)
  let exponent := bits >>> 52 % 2048
  let fraction := bits % 1 <<< 52
  if exponent = 0 then
    .finite negative fraction 0
  else if exponent < 2047 then
    .finite negative (1 <<< 52 + fraction) (exponent - 1)
  else if fraction = 0 then
    .infinite negative
  else
    .notANumber

/-- The reading of a double. -/
def read (x : Binary64) : Reading :=
  .ofBits x.bits.toNat

/-- Whether a double is no number at all. -/
def isNaN (x : Binary64) : Bool :=
  x.read = .notANumber

/-- The double with the other sign, also of what is not a number. -/
def negate (x : Binary64) : Binary64 :=
  ⟨x.bits ^^^ 0x8000000000000000⟩

/-- The units of an infinity, which no finite double reaches. -/
def infinity : Nat := 1 <<< 2098

/-- The exact value in units of `2 ^ (-1074)`, an infinity beyond all finite values, and nothing
for what is not a number. -/
def Reading.units? : Reading → Option Int
  | .notANumber => none
  | .infinite negative =>
    some (if negative then -infinity else infinity)
  | .finite negative mantissa shift =>
    let units : Int := (mantissa <<< shift : Nat)
    some (if negative then -units else units)

/-- The exact value of a double in units of `2 ^ (-1074)`. -/
def units? (x : Binary64) : Option Int :=
  (read x).units?

/-- The units of the number one. -/
def one : Nat := 1 <<< 1074

/-- The value of a double that is a whole number in the range of 64-bit integers. -/
def integral? (x : Binary64) : Option Int64 :=
  match units? x with
  | none => none
  | some units =>
    let whole := units / one
    if units % one = 0 ∧ Int64.minValue.toInt ≤ whole ∧ whole ≤ Int64.maxValue.toInt then
      some (.ofInt whole)
    else
      none

/-- Equality of values: the zeros are equal, and what is not a number equals nothing. -/
def equal (x y : Binary64) : Bool :=
  match units? x, units? y with
  | some a, some b => a = b
  | _, _ => false

/-- Order of values, where what is not a number is not comparable. -/
def order? (x y : Binary64) : Option Ordering :=
  match units? x, units? y with
  | some a, some b => some (compare a b)
  | _, _ => none

/-- Whether a double is zero, of either sign. -/
def isZero (x : Binary64) : Bool :=
  units? x = some 0

end Binary64

end Script
