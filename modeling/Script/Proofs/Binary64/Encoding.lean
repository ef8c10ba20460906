import Mathlib.Algebra.Group.Int.Defs
import Mathlib.Algebra.Group.Nat.Defs
import Script.Binary64

/-!
# Doubles and their values

A value that is neither zero nor missing has one encoding: `toBits_eq_of_units_eq`. The reason is
that every reading is normalised, so its mantissa and its shift can be recovered from their
product. `integral_eq_some_iff` states the test for whole numbers as an equation between values.
-/

namespace Script.Binary64

namespace Reading

/-- What the fields of an encoding guarantee: the mantissa has at most 53 bits, all of them when
it is shifted, and the value stays below that of an infinity. -/
def Normalised : Reading → Prop
  | .finite _ mantissa shift =>
    mantissa < 2 ^ 53 ∧ (0 < shift → 2 ^ 52 ≤ mantissa) ∧ shift ≤ 2045
  | _ => True

/-- Every reading of an encoding is normalised. -/
theorem normalised_ofBits (bits : Nat) : (ofBits bits).Normalised := by
  simp only [ofBits, Nat.shiftRight_eq_div_pow, Nat.one_shiftLeft]
  have hfraction : bits % 2 ^ 52 < 2 ^ 52 := Nat.mod_lt _ (by decide)
  split
  · exact ⟨by omega, by omega, by omega⟩
  · split
    · exact ⟨by omega, by omega, by omega⟩
    · split <;> trivial

/-- The encoding of a reading, with zero for what is not a number. -/
def encoding : Reading → Nat
  | .notANumber => 0
  | .infinite negative => (if negative then 2 ^ 63 else 0) + 2047 * 2 ^ 52
  | .finite negative mantissa shift =>
    (if negative then 2 ^ 63 else 0) +
      if mantissa < 2 ^ 52 then mantissa else (shift + 1) * 2 ^ 52 + (mantissa - 2 ^ 52)

/-- An encoding of 64 bits can be read off its reading, unless it encodes no number. -/
theorem encoding_ofBits {bits : Nat} (hbits : bits < 2 ^ 64) (hnumber : ofBits bits ≠ .notANumber) :
    (ofBits bits).encoding = bits := by
  simp only [ofBits, Nat.shiftRight_eq_div_pow, Nat.one_shiftLeft] at hnumber ⊢
  have hfraction : bits % 2 ^ 52 < 2 ^ 52 := Nat.mod_lt _ (by decide)
  split
  · simp only [encoding, decide_eq_true_eq, if_pos hfraction]
    split <;> omega
  · split
    · have hlarge : ¬ 2 ^ 52 + bits % 2 ^ 52 < 2 ^ 52 := by omega
      simp only [encoding, decide_eq_true_eq, if_neg hlarge]
      split <;> omega
    · split
      · simp only [encoding, decide_eq_true_eq]
        split <;> omega
      · simp_all

/-- A shifted mantissa of 53 bits determines the shift. -/
theorem shift_le_of_product_eq {first second shift other : Nat} (hfirst : first < 2 ^ 53)
    (hsecond : 0 < other → 2 ^ 52 ≤ second) (h : first * 2 ^ shift = second * 2 ^ other) :
    other ≤ shift := by
  refine Nat.le_of_not_lt fun hlt => ?_
  obtain ⟨rest, rfl⟩ : ∃ rest, other = shift + (rest + 1) := ⟨other - shift - 1, by omega⟩
  have hproduct : first * 2 ^ shift = second * 2 ^ (rest + 1) * 2 ^ shift := by
    rw [h, Nat.pow_add, Nat.mul_assoc, Nat.mul_comm (2 ^ shift)]
  have heq : first = second * 2 ^ (rest + 1) :=
    Nat.eq_of_mul_eq_mul_right (Nat.two_pow_pos shift) hproduct
  have hpow : 2 ^ 1 ≤ 2 ^ (rest + 1) := Nat.pow_le_pow_right (by decide) (by omega)
  have hlarge : 2 ^ 52 * 2 ^ 1 ≤ second * 2 ^ (rest + 1) :=
    Nat.mul_le_mul (hsecond (by omega)) hpow
  omega

/-- The magnitude of a finite reading is below that of an infinity. -/
theorem magnitude_lt {mantissa shift : Nat} (hmantissa : mantissa < 2 ^ 53)
    (hshift : shift ≤ 2045) : mantissa <<< shift < infinity :=
  calc
    mantissa <<< shift = mantissa * 2 ^ shift := Nat.shiftLeft_eq ..
    _ < 2 ^ 53 * 2 ^ shift := Nat.mul_lt_mul_of_pos_right hmantissa (Nat.two_pow_pos shift)
    _ = 2 ^ (53 + shift) := (Nat.pow_add 2 53 shift).symm
    _ ≤ 2 ^ 2098 := Nat.pow_le_pow_right (by decide) (by omega)
    _ = infinity := (Nat.one_shiftLeft 2098).symm

/-- Whether a reading is below zero, or the zero below the other one. -/
def isNegative : Reading → Bool
  | .notANumber => false
  | .infinite negative => negative
  | .finite negative _ _ => negative

/-- The distance of a reading from zero, in units. -/
def magnitude : Reading → Nat
  | .notANumber => 0
  | .infinite _ => infinity
  | .finite _ mantissa shift => mantissa <<< shift

/-- The value of a reading is its magnitude with its sign. -/
theorem units_eq {reading : Reading} {units : Int} (h : reading.units? = some units) :
    units = if reading.isNegative then -(reading.magnitude : Int) else reading.magnitude := by
  cases reading with
  | notANumber => cases h
  | infinite negative =>
      exact (Option.some.inj h).symm
  | finite negative mantissa shift =>
      exact (Option.some.inj h).symm

/-- Normalised readings of the same magnitude differ at most in their signs. -/
theorem eq_of_magnitude_eq {first second : Reading} (hfirst : first.Normalised)
    (hsecond : second.Normalised) (hnumber : first ≠ .notANumber) (hother : second ≠ .notANumber)
    (hnegative : first.isNegative = second.isNegative) (h : first.magnitude = second.magnitude) :
    first = second := by
  cases first with
  | notANumber => exact False.elim (hnumber rfl)
  | infinite negative =>
      cases second with
      | notANumber => exact False.elim (hother rfl)
      | infinite other => exact congrArg _ hnegative
      | finite other mantissa shift =>
          have hlt : mantissa <<< shift < infinity := magnitude_lt hsecond.1 hsecond.2.2
          exact False.elim (Nat.ne_of_lt hlt h.symm)
  | finite negative mantissa shift =>
      cases second with
      | notANumber => exact False.elim (hother rfl)
      | infinite other =>
          have hlt : mantissa <<< shift < infinity := magnitude_lt hfirst.1 hfirst.2.2
          exact False.elim (Nat.ne_of_lt hlt h)
      | finite other mantissa' shift' =>
          have hproduct : mantissa * 2 ^ shift = mantissa' * 2 ^ shift' := by
            rw [← Nat.shiftLeft_eq, ← Nat.shiftLeft_eq]
            exact h
          -- both mantissas are below 2 ^ 53, so neither can be shifted further than the other
          obtain rfl : shift = shift' :=
            Nat.le_antisymm (shift_le_of_product_eq hsecond.1 hfirst.2.1 hproduct.symm)
              (shift_le_of_product_eq hfirst.1 hsecond.2.1 hproduct)
          obtain rfl : mantissa = mantissa' :=
            Nat.eq_of_mul_eq_mul_right (Nat.two_pow_pos shift) hproduct
          exact congrArg (Reading.finite · mantissa shift) hnegative

/-- Distinct normalised readings have distinct values, apart from the two zeros. -/
theorem eq_of_units_eq {first second : Reading} {units : Int} (hfirst : first.Normalised)
    (hsecond : second.Normalised) (hfirstUnits : first.units? = some units)
    (hsecondUnits : second.units? = some units) (hunits : units ≠ 0) : first = second := by
  have hfirstEq := units_eq hfirstUnits
  have hsecondEq := units_eq hsecondUnits
  have hnumber : first ≠ .notANumber := by
    intro h
    rw [h] at hfirstUnits
    cases hfirstUnits
  have hother : second ≠ .notANumber := by
    intro h
    rw [h] at hsecondUnits
    cases hsecondUnits
  generalize hm : first.magnitude = m at hfirstEq
  generalize hn : second.magnitude = n at hsecondEq
  -- only zero has the same value with either sign
  have hsign : first.isNegative = second.isNegative ∧ m = n := by
    generalize first.isNegative = sign at hfirstEq ⊢
    generalize second.isNegative = sign' at hsecondEq ⊢
    cases sign <;> cases sign' <;>
      simp only [Bool.false_eq_true, if_true, if_false] at hfirstEq hsecondEq
    · exact ⟨rfl, by omega⟩
    · exact False.elim (hunits (by omega))
    · exact False.elim (hunits (by omega))
    · exact ⟨rfl, by omega⟩
  exact eq_of_magnitude_eq hfirst hsecond hnumber hother hsign.1 (by rw [hm, hn, hsign.2])

end Reading

/-- Doubles of the same value are the same, apart from the two zeros. -/
theorem eq_of_units_eq {x y : Binary64} {units : Int} (hx : units? x = some units)
    (hy : units? y = some units) (hunits : units ≠ 0) : x = y := by
  have hread : read x = read y :=
    Reading.eq_of_units_eq (Reading.normalised_ofBits _) (Reading.normalised_ofBits _) hx hy hunits
  have hnumber : read x ≠ .notANumber := fun h => by simp [units?, h, Reading.units?] at hx
  have hother : read y ≠ .notANumber := hread ▸ hnumber
  have hbits : x.bits.toNat = y.bits.toNat := by
    calc
      x.bits.toNat = (read x).encoding :=
        (Reading.encoding_ofBits x.bits.toNat_lt hnumber).symm
      _ = (read y).encoding := by rw [hread]
      _ = y.bits.toNat := Reading.encoding_ofBits y.bits.toNat_lt hother
  exact congrArg mk (UInt64.toNat_inj.1 hbits)

/-- A double is a whole number in range exactly when it has the value of a 64-bit integer. -/
theorem integral_eq_some_iff {x : Binary64} {whole : Int64} :
    integral? x = some whole ↔ units? x = some (whole.toInt * one) := by
  have hone : 0 < one := by
    unfold one
    rw [Nat.one_shiftLeft]
    exact Nat.two_pow_pos 1074
  unfold integral?
  generalize one = one at hone
  cases hx : units? x with
  | none => simp
  | some units =>
      simp only [Option.some.injEq]
      constructor
      · intro h
        split at h
        · next hrange =>
            obtain rfl := Option.some.inj h
            rw [Int64.toInt_minValue, Int64.toInt_maxValue] at hrange
            rw [Int64.toInt_ofInt_of_le (by omega) (by omega)]
            exact (Int.ediv_mul_cancel_of_emod_eq_zero hrange.1).symm
        · cases h
      · intro hwhole
        rw [hwhole, Int.mul_emod_left, Int.mul_ediv_cancel _ (by omega), Int64.ofInt_toInt]
        exact if_pos ⟨rfl, whole.minValue_le_toInt, whole.toInt_le⟩

/-- A double without a whole value in range is not zero. -/
theorem units_ne_zero {x : Binary64} (h : integral? x = none) : units? x ≠ some 0 := by
  intro hzero
  have hwhole : units? x = some ((0 : Int64).toInt * one) := by
    rw [hzero, Int64.toInt_zero, Int.zero_mul]
  rw [integral_eq_some_iff.2 hwhole] at h
  cases h

end Script.Binary64
