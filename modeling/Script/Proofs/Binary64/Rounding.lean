import Script.Proofs.Binary64.Packing

/-!
# Rounding to 53 bits

A number that has too many bits is rounded to a whole number of larger units:
`roundWithAccuracy_eq`. It is rounded to one of its neighbours, and not at all if it is a whole
number of these units. So no double lies between a number and what it is rounded to,
`Rounded.faithful`.
-/

namespace Script.Binary64

open Float.Model Float.Model.UnpackedFloat

/-- A whole number of units of `2 ^ count`, next to `m`: exactly `m` where that is one. -/
def Rounded (m count q : Nat) : Prop :=
  q = m / 2 ^ count ∨ q = m / 2 ^ count + 1 ∧ m % 2 ^ count ≠ 0

/-- Every bit that is shifted out halves the mantissa. -/
theorem shiftRight_mantissa (em : ExtendedMantissa) (count : Nat) :
    (em >>> count).mantissa = em.mantissa / 2 ^ count := by
  induction count with
  | zero => exact (Nat.div_one _).symm
  | succ count ih =>
      show (em >>> count).mantissa / 2 = _
      rw [ih, Nat.div_div_eq_div_mul, Nat.pow_succ]

/-- Nothing is lost while only zeros are shifted out. -/
theorem shiftRight_exact {m count : Nat} (h : m % 2 ^ count = 0) :
    (⟨m, false, false⟩ : ExtendedMantissa) >>> count = ⟨m / 2 ^ count, false, false⟩ := by
  induction count with
  | zero => rw [Nat.pow_zero, Nat.div_one]; rfl
  | succ count ih =>
      have hpow : m % (2 ^ count * 2) = 0 := h
      have hlow : m % 2 ^ count = 0 := by
        rw [← Nat.mod_mul_right_mod m (2 ^ count) 2, hpow, Nat.zero_mod]
      have heven : m / 2 ^ count % 2 = 0 := by
        rw [← Nat.mod_mul_right_div_self, hpow, Nat.zero_div]
      show ((⟨m, false, false⟩ : ExtendedMantissa) >>> count).shiftRightOne = _
      rw [ih hlow, ExtendedMantissa.shiftRightOne, Nat.div_div_eq_div_mul, Nat.pow_succ]
      simp only [heven]
      rfl

/-- Rounding goes to a neighbour. -/
theorem roundedMantissa_cases (em : ExtendedMantissa) :
    em.roundedMantissa = em.mantissa ∨ em.roundedMantissa = em.mantissa + 1 := by
  obtain ⟨m, _ | _, _ | _⟩ := em
  · exact .inl rfl
  · exact .inl rfl
  · show m + m % 2 = m ∨ m + m % 2 = m + 1
    omega
  · exact .inr rfl

/-- Shifting and rounding gives a whole number of the new units. -/
theorem rounded_shiftRight (m count : Nat) :
    Rounded m count ((⟨m, false, false⟩ : ExtendedMantissa) >>> count).roundedMantissa := by
  by_cases hexact : m % 2 ^ count = 0
  · rw [shiftRight_exact hexact]
    exact .inl rfl
  · have hcases := roundedMantissa_cases ((⟨m, false, false⟩ : ExtendedMantissa) >>> count)
    rw [shiftRight_mantissa] at hcases
    exact hcases.imp_right fun h => ⟨h, hexact⟩

/-- A mantissa of more than 53 bits is shifted until it has 53. -/
theorem shiftToTargetExponent_eq {m shift : Nat} {e : Int} (hlog : m.log2 = 52 + shift)
    (he : -1074 ≤ e + shift) :
    shiftToTargetExponent Format.binary64 m e .exact =
      ((⟨m, false, false⟩ : ExtendedMantissa) >>> shift, e + shift) := by
  have htarget : Format.binary64.targetExponent (totalExponent m e) = e + shift := by
    rw [Format.targetExponent, totalExponent, hlog]
    show max (((52 + shift : Nat) : Int) + 1 + e - 53) (-1074) = e + shift
    omega
  have hcount : (e + shift - e).toNat = shift := by omega
  simp only [shiftToTargetExponent, htarget, shiftToExponent, hcount]
  rfl

/-- A mantissa of 53 bits for a number that was rounded to units of `2 ^ shift`. Rounding up may
carry over into one more bit, which is a zero then. -/
structure Rounding (m shift mantissa carry : Nat) : Prop where
  /-- The first bit is set. -/
  implicit : 2 ^ 52 ≤ mantissa
  bounded : mantissa < 2 ^ 53
  carry_le : carry ≤ 1
  rounded : Rounded m shift (mantissa * 2 ^ carry)

/-- A rounded number of 53 bits has 54 after a carry, and then it is a power of two. -/
theorem exists_carry {q : Nat} (hlow : 2 ^ 52 ≤ q) (hhigh : q ≤ 2 ^ 53) :
    ∃ mantissa carry, q = mantissa * 2 ^ carry ∧ carry ≤ 1 ∧ q.log2 = 52 + carry ∧
      2 ^ 52 ≤ mantissa ∧ mantissa < 2 ^ 53 := by
  by_cases hq : q < 2 ^ 53
  · exact ⟨q, 0, by omega, by omega, log2_eq hlow hq, hlow, hq⟩
  · exact ⟨2 ^ 52, 1, by omega, by omega, log2_eq (by omega) (by omega), by omega, by omega⟩

/-- A mantissa of at least 53 bits is rounded to one of 53, away from the least exponents. -/
theorem roundWithAccuracy_eq {m shift : Nat} {e : Int} (sign : Sign) (hlog : m.log2 = 52 + shift)
    (he : -1074 ≤ e + shift) :
    ∃ (mantissa carry : Nat) (hpos : 0 < mantissa), Rounding m shift mantissa carry ∧
      roundWithAccuracy Format.binary64 sign m e .exact =
        .finite sign mantissa (e + shift + carry) hpos := by
  have hm : m ≠ 0 := by
    rintro rfl
    rw [Nat.log2_zero] at hlog
    omega
  obtain ⟨hlow, hhigh⟩ := (Nat.log2_eq_iff hm).1 hlog
  have hquotient : 2 ^ 52 ≤ m / 2 ^ shift ∧ m / 2 ^ shift < 2 ^ 53 := by
    rw [Nat.le_div_iff_mul_le (Nat.two_pow_pos shift),
      Nat.div_lt_iff_lt_mul (Nat.two_pow_pos shift), ← Nat.pow_add, ← Nat.pow_add]
    exact ⟨hlow, by rwa [Nat.add_right_comm] at hhigh⟩
  have hrounded := rounded_shiftRight m shift
  generalize hround : ((⟨m, false, false⟩ : ExtendedMantissa) >>> shift).roundedMantissa = q
    at hrounded
  have hq : 2 ^ 52 ≤ q ∧ q ≤ 2 ^ 53 := by
    rcases hrounded with h | ⟨h, -⟩ <;> omega
  obtain ⟨mantissa, carry, hmantissa, hcarry, hqlog, himplicit, hbounded⟩ :=
    exists_carry hq.1 hq.2
  have hpos : 0 < mantissa := by omega
  refine ⟨mantissa, carry, hpos, ⟨himplicit, hbounded, hcarry, hmantissa ▸ hrounded⟩, ?_⟩
  -- the second shift only takes a carry away
  have hlast : ((⟨q, false, false⟩ : ExtendedMantissa) >>> carry).mantissa = mantissa := by
    rw [shiftRight_mantissa, hmantissa, Nat.mul_div_cancel _ (Nat.two_pow_pos carry)]
  have hsecond := shiftToTargetExponent_eq (e := e + shift) hqlog (by omega)
  simp only [roundWithAccuracy, shiftToTargetExponent_eq hlog he, hround, hsecond, hlast]
  rw [dif_neg (Nat.ne_of_gt hpos)]

/-- The bits of a number that was shifted to the left. -/
theorem log2_mul_two_pow {n : Nat} (hn : n ≠ 0) (k : Nat) : (n * 2 ^ k).log2 = n.log2 + k := by
  obtain ⟨hlow, hhigh⟩ := (Nat.log2_eq_iff hn).1 rfl
  refine log2_eq ?_ ?_
  · rw [Nat.pow_add]
    exact Nat.mul_le_mul_right _ hlow
  · rw [Nat.add_right_comm, Nat.pow_add]
    exact Nat.mul_lt_mul_of_pos_right hhigh (Nat.two_pow_pos k)

/-- Shifting a number and the units together changes nothing. -/
theorem Rounded.unshift {m count q k : Nat} (h : Rounded (m * 2 ^ k) (count + k) q) :
    Rounded m count q := by
  rw [Rounded, Nat.pow_add, Nat.mul_div_mul_right _ _ (Nat.two_pow_pos k),
    Nat.mul_mod_mul_right] at h
  refine h.imp_right fun ⟨hq, hinexact⟩ => ⟨hq, fun hexact => hinexact ?_⟩
  rw [hexact, Nat.zero_mul]

/-- Whole numbers of the units are kept. -/
theorem Rounded.eq_of_dvd {m count q : Nat} (h : Rounded (m * 2 ^ count) count q) : q = m := by
  rcases h with h | ⟨-, h⟩
  · rw [h, Nat.mul_div_cancel _ (Nat.two_pow_pos count)]
  · exact absurd (Nat.mul_mod_left ..) h

/-- What has at most 53 bits is kept. -/
theorem Rounding.exact {m shift mantissa carry : Nat}
    (h : Rounding (m * 2 ^ shift) shift mantissa carry) (hm : m < 2 ^ 53) :
    mantissa = m ∧ carry = 0 := by
  have hvalue : mantissa * 2 ^ carry = m := h.rounded.eq_of_dvd
  have himplicit := h.implicit
  rcases Nat.le_one_iff_eq_zero_or_eq_one.1 h.carry_le with rfl | rfl
  · exact ⟨by omega, rfl⟩
  · omega

/-- No mantissa of 53 bits, whatever it is shifted by, lies between a number and what the number is
rounded to. -/
theorem Rounded.faithful {a count q k mantissa shift : Nat} (h : Rounded a count q)
    (hlarge : 2 ^ 52 ≤ a / 2 ^ count) (hmantissa : mantissa < 2 ^ 53) :
    (mantissa * 2 ^ shift ≤ a * 2 ^ k → mantissa * 2 ^ shift ≤ q * 2 ^ (count + k)) ∧
      (a * 2 ^ k ≤ mantissa * 2 ^ shift → q * 2 ^ (count + k) ≤ mantissa * 2 ^ shift) := by
  have hpow := Nat.two_pow_pos count
  have hdivision : a / 2 ^ count * 2 ^ count ≤ a := Nat.div_mul_le_self a (2 ^ count)
  have hq : a / 2 ^ count ≤ q := by rcases h with h | ⟨h, -⟩ <;> omega
  by_cases hunits : count + k ≤ shift
  · -- both are whole numbers of the units that were rounded to
    obtain ⟨more, rfl⟩ := Nat.exists_eq_add_of_le hunits
    have hscale : mantissa * 2 ^ (count + k + more) = mantissa * 2 ^ more * 2 ^ count * 2 ^ k := by
      rw [Nat.mul_assoc, Nat.mul_assoc, ← Nat.pow_add, ← Nat.pow_add]
      congr 2
      omega
    generalize mantissa * 2 ^ more = whole at hscale
    rw [hscale, Nat.pow_add, ← Nat.mul_assoc]
    refine ⟨fun hle => ?_, fun hle => ?_⟩
    · have hle := Nat.le_of_mul_le_mul_right hle (Nat.two_pow_pos k)
      refine Nat.mul_le_mul_right _ (Nat.mul_le_mul_right _ (Nat.le_trans ?_ hq))
      exact (Nat.le_div_iff_mul_le hpow).2 hle
    · have hle := Nat.le_of_mul_le_mul_right hle (Nat.two_pow_pos k)
      refine Nat.mul_le_mul_right _ (Nat.mul_le_mul_right _ ?_)
      rcases h with rfl | ⟨rfl, hinexact⟩
      · exact Nat.div_le_of_le_mul (Nat.mul_comm .. ▸ hle)
      · -- an inexact quotient is below the whole number above it
        refine (Nat.div_lt_iff_lt_mul hpow).2 (Nat.lt_of_le_of_ne hle fun heq => hinexact ?_)
        rw [heq, Nat.mul_mod_left]
  · have hsmall : mantissa * 2 ^ shift < a / 2 ^ count * 2 ^ (count + k) :=
      calc
        mantissa * 2 ^ shift < 2 ^ 53 * 2 ^ shift :=
          Nat.mul_lt_mul_of_pos_right hmantissa (Nat.two_pow_pos shift)
        _ = 2 ^ 52 * 2 ^ (shift + 1) := by omega
        _ ≤ a / 2 ^ count * 2 ^ (count + k) :=
          Nat.mul_le_mul hlarge (Nat.pow_le_pow_right (by decide) (by omega))
    have hbelow : a / 2 ^ count * 2 ^ (count + k) ≤ a * 2 ^ k := by
      rw [Nat.pow_add, ← Nat.mul_assoc]
      exact Nat.mul_le_mul_right _ hdivision
    refine ⟨fun _ => ?_, fun hle => ?_⟩
    · exact Nat.le_trans (Nat.le_of_lt hsmall) (Nat.mul_le_mul_right _ hq)
    · omega

end Script.Binary64
