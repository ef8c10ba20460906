import Script.Binary64

/-!
# Decimal text of doubles

`digits` finds the shortest decimal that reads back as a given double: the coarsest grid of
powers of ten that meets the reals rounding to it, and on that grid the point nearest to the
value. `text` lays the digits out, and `ofDigits?` reads a literal.
-/

namespace Script.Binary64

/-- A decimal number `digits * 10 ^ exponent`. -/
structure Decimal where
  /-- The digits, as one number. -/
  digits : Nat
  /-- The power of ten of the last digit. -/
  exponent : Int
deriving DecidableEq, Repr

/-- The point of the grid `10 ^ exponent` nearest to `value / unit` among those between
`low / unit` and `high / unit`; the larger one of two that are equally near. The ends count when
`closed`. -/
def onGrid? (low value high unit : Nat) (closed : Bool) (exponent : Int) : Option Decimal :=
  let up := Nat.pow 10 (-exponent).toNat
  let step := unit * Nat.pow 10 exponent.toNat
  let inside (n : Nat) : Bool :=
    if closed then low * up ≤ n * step && n * step ≤ high * up
    else low * up < n * step && n * step < high * up
  let below := value * up / step
  let above := below + 1
  match inside below, inside above with
  | true, true =>
    if value * up - below * step < above * step - value * up then some ⟨below, exponent⟩
    else some ⟨above, exponent⟩
  | true, false => some ⟨below, exponent⟩
  | false, true => some ⟨above, exponent⟩
  | false, false => none

/-- Tries `count` grids, each finer than the one before. -/
def coarsest? (low value high unit : Nat) (closed : Bool) : (count : Nat) → Int → Option Decimal
  | 0, _ => none
  | count + 1, exponent =>
    match onGrid? low value high unit closed exponent with
    | some decimal => some decimal
    | none => coarsest? low value high unit closed count (exponent - 1)

/-- The shortest decimal that reads back as `mantissa * 2 ^ shift` units. Ends of the interval
round to an even mantissa. The interval is narrower below a power of two, and at least half of
`2 ^ shift` units wide, so it meets one of the forty grids that are tried. -/
def shortest? (mantissa shift : Nat) : Option Decimal :=
  let below := if mantissa = 1 <<< 52 ∧ 0 < shift then 1 else 2
  coarsest? ((4 * mantissa - below) <<< shift) ((4 * mantissa) <<< shift)
    ((4 * mantissa + 2) <<< shift) (1 <<< 1076) (mantissa % 2 = 0) 40
    (((shift : Int) - 1019) * 30103 / 100000 + 1)

/-- The least exponent that is written positionally. -/
def leastPositional : Int := -4

/-- The least exponent above the ones written positionally. -/
def leastScientific : Int := 16

/-- Lays out the digits of `0.d₁d₂… * 10 ^ point`: positionally, with a digit on both sides of
the point, when the exponent of the first digit allows it, otherwise with an exponent mark. -/
def layout (digits : List Char) (point : Int) : String :=
  let exponent := point - 1
  if leastPositional ≤ exponent ∧ exponent < leastScientific then
    if point ≤ 0 then
      "0." ++ String.ofList (List.replicate (-point).toNat '0' ++ digits)
    else
      let whole := digits.take point.toNat
      let fraction := digits.drop point.toNat
      String.ofList (whole ++ List.replicate (point.toNat - whole.length) '0') ++ "."
        ++ (if fraction.isEmpty then "0" else String.ofList fraction)
  else
    String.ofList (digits.take 1) ++
      (if digits.length ≤ 1 then "" else "." ++ String.ofList (digits.drop 1)) ++
      "e" ++ toString exponent

/-- The written form of a nonnegative finite value. -/
def magnitudeText (mantissa shift : Nat) : String :=
  if mantissa = 0 then
    "0.0"
  else
    match shortest? mantissa shift with
    | some decimal =>
      let digits := Nat.toDigits 10 decimal.digits
      layout digits (digits.length + decimal.exponent)
    | none => ""

/-- The written form of a double. -/
def text (x : Binary64) : String :=
  match read x with
  | .notANumber => "NaN"
  | .infinite negative => if negative then "-inf" else "inf"
  | .finite negative mantissa shift =>
    (if negative then "-" else "") ++ magnitudeText mantissa shift

/-- The double nearest to a literal of digits with exactly one dot among them. -/
def ofDigits? (digits : List Char) : Option Binary64 :=
  if digits.count '.' = 1 then
    let whole := digits.takeWhile (· ≠ '.')
    let fraction := (digits.dropWhile (· ≠ '.')).drop 1
    some (.ofScientific (Nat.ofDigitChars 10 (whole ++ fraction) 0) true fraction.length)
  else
    none

end Script.Binary64
