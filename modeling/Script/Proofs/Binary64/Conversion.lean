import Script.Proofs.Binary64.Rounding

/-!
# Doubles of integers

The double that an integer is converted to is a neighbour of the integer: no other double lies
between them, `ofInt_faithful`. The conversion keeps integers of up to 53 bits and rounds larger
ones.
-/

namespace Script.Binary64

open Float.Model Float.Model.UnpackedFloat

variable {n : Nat}

/-- A product is rounded once. -/
theorem mul_finite {s t : Sign} {a b : Nat} {e f : Int} (ha : 0 < a) (hb : 0 < b) :
    mul Format.binary64 (.finite s a e ha) (.finite t b f hb) =
      roundWithAccuracy Format.binary64 (s * t) (a * b) (e + f) .exact := rfl

/-- Numbers of more than 53 bits are rounded. -/
theorem ofNat_large (hn : n ≠ 0) (hlarge : ¬ n < 2 ^ 53) :
    ∃ (mantissa carry : Nat) (hpos : 0 < mantissa), Rounding (n * 2 ^ 52) n.log2 mantissa carry ∧
      Float.ofNat n =
        .ofModel (.pack (.finite .positive mantissa (n.log2 - 52 + carry) hpos)) := by
  have hshift : n <<< 53 * 10 ^ 0 = n * 2 ^ 52 * 2 ^ 1 := by
    rw [Nat.pow_zero, Nat.mul_one, Nat.shiftLeft_eq, Nat.mul_assoc, ← Nat.pow_add]
  have hlog : (n <<< 53 * 10 ^ 0).log2 = 52 + (n.log2 + 1) := by
    rw [hshift, Nat.mul_assoc, ← Nat.pow_add, log2_mul_two_pow hn]
    omega
  obtain ⟨mantissa, carry, hpos, hrounding, hround⟩ :=
    roundWithAccuracy_eq (e := -53 + 0) .positive hlog (by omega)
  rw [hshift] at hrounding
  have hmodel : UnpackedFloat.ofScientific Format.binary64 n 0 =
      .finite .positive mantissa (n.log2 - 52 + carry) hpos := by
    have hsmall : ¬ (0 : Int) > 2 ^ Format.binary64.exponentBits := by decide
    have hlarge : ¬ (0 : Int) < -((2 ^ Format.binary64.exponentBits : Int) + n.log2) := by
      show ¬ (0 : Int) < -(2048 + n.log2)
      omega
    have hprecision : Format.binary64.mantissaBits = 53 := rfl
    rw [UnpackedFloat.ofScientific, dif_neg hn, if_neg hsmall, if_neg hlarge,
      if_pos (Int.le_refl 0), mul_finite]
    have hexponent : (-53 + 0 + ((n.log2 + 1 : Nat) : Int) + carry) = n.log2 - 52 + carry := by
      omega
    rw [hexponent] at hround
    simp only [hprecision]
    exact hround
  refine ⟨mantissa, carry, hpos, ⟨hrounding.implicit, hrounding.bounded, hrounding.carry_le,
    hrounding.rounded.unshift⟩, ?_⟩
  show Float.ofScientific n false 0 = _
  rw [Float.ofScientific, dif_neg fun h => hlarge h.1]
  exact congrArg (fun unpacked => Float.ofModel (.pack unpacked)) hmodel

/-- A number of up to 53 bits is filled up with zeros. -/
theorem round_nat (hbits : n.log2 ≤ 52) :
    round Format.binary64 .positive n 0 =
      roundWithAccuracy Format.binary64 .positive (n * 2 ^ (52 - n.log2)) (n.log2 - 52) .exact := by
  have htarget : Format.binary64.targetExponent (totalExponent n 0) = n.log2 - 52 := by
    rw [Format.targetExponent, totalExponent]
    show max ((n.log2 : Int) + 1 + 0 - 53) (-1074) = n.log2 - 52
    omega
  have hcount : (0 - ((n.log2 : Int) - 52)).toNat = 52 - n.log2 := by omega
  have hexponent : (0 : Int) - (52 - n.log2 : Nat) = n.log2 - 52 := by omega
  simp only [UnpackedFloat.round, htarget, decreaseExponent, hcount, hexponent, Nat.shiftLeft_eq]

/-- The double of a number of up to 53 bits as a 64-bit word. -/
theorem toFloat_small (hn : n ≠ 0) (hsmall : n < 2 ^ 53) (hbits : n.log2 ≤ 52) :
    ∃ hpos, n.toUInt64.toFloat =
      .ofModel (.pack (.finite .positive (n * 2 ^ (52 - n.log2)) (n.log2 - 52) hpos)) := by
  have hword : (n.toUInt64.toNat : Int) = n := by
    rw [Nat.toUInt64, UInt64.toNat_ofNat_of_lt' (by show n < 2 ^ 64; omega)]
  have hm : (n * 2 ^ (52 - n.log2)).log2 = 52 + 0 := by
    rw [log2_mul_two_pow hn]
    omega
  have hnonzero : n * 2 ^ (52 - n.log2) ≠ 0 :=
    Nat.mul_ne_zero hn (Nat.ne_of_gt (Nat.two_pow_pos _))
  have hbounded : n * 2 ^ (52 - n.log2) < 2 ^ 53 := ((Nat.log2_eq_iff hnonzero).1 hm).2
  obtain ⟨mantissa, carry, hpos, hrounding, hround⟩ :=
    roundWithAccuracy_eq (e := n.log2 - 52) .positive hm (by omega)
  have hunshifted : Rounding (n * 2 ^ (52 - n.log2) * 2 ^ 0) 0 mantissa carry := by
    rw [Nat.pow_zero, Nat.mul_one]
    exact hrounding
  obtain ⟨rfl, rfl⟩ := hunshifted.exact hbounded
  refine ⟨hpos, ?_⟩
  have hcompare : compare (n : Int) 0 = .gt := Int.compare_eq_gt.2 (by omega)
  show Float.ofModel (.pack
    (UnpackedFloat.normalize Format.binary64 (n.toUInt64.toNat : Int) 0 .positive)) = _
  rw [hword, UnpackedFloat.normalize, hcompare]
  simp only [Int.toNat_natCast, round_nat hbits, hround, Int.natCast_zero, Int.add_zero]

/-- Numbers of up to 53 bits are kept. -/
theorem ofNat_small (hn : n ≠ 0) (hsmall : n < 2 ^ 53) :
    ∃ (mantissa carry : Nat) (hpos : 0 < mantissa), Rounding (n * 2 ^ 52) n.log2 mantissa carry ∧
      Float.ofNat n =
        .ofModel (.pack (.finite .positive mantissa (n.log2 - 52 + carry) hpos)) := by
  have hbits : n.log2 ≤ 52 := Nat.le_of_lt_succ ((Nat.log2_lt hn).2 hsmall)
  obtain ⟨hpos, hword⟩ := toFloat_small hn hsmall hbits
  generalize hm : n * 2 ^ (52 - n.log2) = m at hpos hword
  have hlog : m.log2 = 52 := by
    rw [← hm, log2_mul_two_pow hn]
    omega
  obtain ⟨hlow, hhigh⟩ := (Nat.log2_eq_iff (Nat.ne_of_gt hpos)).1 hlog
  have hnormal : Normal m (n.log2 - 52) := ⟨hlow, hhigh, by omega, by omega⟩
  have hproduct : (m * 2 ^ 52).log2 = 52 + 52 := by
    rw [log2_mul_two_pow (Nat.ne_of_gt hpos), hlog]
  obtain ⟨mantissa, carry, hpos', hrounding, hround⟩ :=
    roundWithAccuracy_eq (e := n.log2 - 52 + -52) .positive hproduct (by omega)
  obtain ⟨rfl, rfl⟩ := hrounding.exact hhigh
  have hunits : n * 2 ^ 52 = mantissa * 2 ^ n.log2 := by
    rw [← hm, Nat.mul_assoc, ← Nat.pow_add, Nat.sub_add_cancel hbits]
  refine ⟨mantissa, 0, hpos, ⟨hlow, hhigh, Nat.zero_le 1, .inl ?_⟩, ?_⟩
  · rw [hunits, Nat.mul_div_cancel _ (Nat.two_pow_pos _), Nat.pow_zero, Nat.mul_one]
  · show Float.ofScientific n false 0 = _
    rw [Float.ofScientific, dif_pos ⟨hsmall, by decide⟩]
    have hone : (Float.ofBits 0x3FF0000000000000).toModel.unpack =
        .finite .positive (2 ^ 52) (-52) (by decide) := rfl
    have hfactor : (Float.Model.pack (.finite .positive mantissa (n.log2 - 52) hpos)).unpack =
        .finite .positive mantissa (n.log2 - 52) hpos := hnormal.unpack_pack false
    show Float.ofModel (.pack (mul Format.binary64 n.toUInt64.toFloat.toModel.unpack
      (Float.ofBits 0x3FF0000000000000).toModel.unpack)) = _
    have hexponent : (n.log2 - 52 + -52 + ((52 : Nat) : Int) + ((0 : Nat) : Int)) =
        n.log2 - 52 + ((0 : Nat) : Int) := by omega
    rw [hexponent] at hround
    rw [hword, hone, hfactor, mul_finite]
    exact congrArg (fun unpacked => Float.ofModel (.pack unpacked)) hround

/-- The double of a number and its negative, read. -/
theorem read_ofNat (hn : n ≠ 0) (hrange : n ≤ 2 ^ 63) :
    ∃ mantissa carry, Rounding (n * 2 ^ 52) n.log2 mantissa carry ∧
      read (ofFloat (Float.ofNat n)) = .finite false mantissa (n.log2 + 1022 + carry) ∧
      read (ofFloat (Float.neg (Float.ofNat n))) =
        .finite true mantissa (n.log2 + 1022 + carry) := by
  obtain ⟨mantissa, carry, hpos, hrounding, hdouble⟩ :
      ∃ (mantissa carry : Nat) (hpos : 0 < mantissa), Rounding (n * 2 ^ 52) n.log2 mantissa carry ∧
        Float.ofNat n =
          .ofModel (.pack (.finite .positive mantissa (n.log2 - 52 + carry) hpos)) := by
    by_cases hsmall : n < 2 ^ 53
    · exact ofNat_small hn hsmall
    · exact ofNat_large hn hsmall
  have hcarry := hrounding.carry_le
  have hbits : n.log2 < 64 := (Nat.log2_lt hn).2 (by omega)
  have hnormal : Normal mantissa (n.log2 - 52 + carry) :=
    ⟨hrounding.implicit, hrounding.bounded, by omega, by omega⟩
  have hshift : ((n.log2 : Int) - 52 + carry + 1074).toNat = n.log2 + 1022 + carry := by omega
  refine ⟨mantissa, carry, hrounding, ?_, ?_⟩
  · rw [hdouble, ← hshift]
    exact hnormal.read_pack false
  · have hunpack : (Float.Model.pack
        (.finite .positive mantissa (n.log2 - 52 + carry) hpos)).unpack =
          .finite .positive mantissa (n.log2 - 52 + carry) hpos := hnormal.unpack_pack false
    have hneg : Float.neg (Float.ofNat n) =
        .ofModel (.pack (.finite .negative mantissa (n.log2 - 52 + carry) hpos)) := by
      rw [hdouble]
      exact congrArg (fun unpacked : UnpackedFloat => Float.ofModel (.pack unpacked.neg)) hunpack
    rw [hneg, ← hshift]
    exact hnormal.read_pack true

theorem one_pos : 0 < one := by
  rw [one, Nat.one_shiftLeft]
  exact Nat.two_pow_pos 1074

/-- The units of the number one, by the bits of a mantissa. -/
theorem one_eq_mul : one = 2 ^ 52 * 2 ^ 1022 := by
  have hsplit : ∀ k, k = 1022 → one = 2 ^ 52 * 2 ^ k := by
    intro k hk
    have hplaces : 1074 = 52 + k := by omega
    rw [one, hplaces, Nat.one_shiftLeft, Nat.pow_add]
  exact hsplit 1022 rfl

/-- All integers are far below the infinities. -/
theorem mul_one_lt_infinity (hrange : n ≤ 2 ^ 63) : n * one < infinity := by
  have hpow : ∀ k more, 63 + k < more → n * (1 <<< k) < 1 <<< more := by
    intro k more hlt
    rw [Nat.one_shiftLeft, Nat.one_shiftLeft]
    calc
      n * 2 ^ k ≤ 2 ^ 63 * 2 ^ k := Nat.mul_le_mul_right _ hrange
      _ = 2 ^ (63 + k) := (Nat.pow_add 2 63 k).symm
      _ < 2 ^ more := Nat.pow_lt_pow_right (by decide) hlt
  exact hpow 1074 2098 (by decide)

/-- The value of an encoding is on the same side of a number as of what the number is rounded to. -/
theorem Reading.magnitude_faithful {reading : Reading} {mantissa carry : Nat}
    (hreading : reading.Normalised) (hn : n ≠ 0) (hrange : n ≤ 2 ^ 63)
    (h : Rounding (n * 2 ^ 52) n.log2 mantissa carry) :
    (reading.magnitude ≤ n * one → reading.magnitude ≤ mantissa <<< (n.log2 + 1022 + carry)) ∧
      (n * one ≤ reading.magnitude → mantissa <<< (n.log2 + 1022 + carry) ≤ reading.magnitude) := by
  have hcarry := h.carry_le
  have hbits : n.log2 < 64 := (Nat.log2_lt hn).2 (by omega)
  have hpositive : 0 < n * one := Nat.mul_pos (Nat.pos_of_ne_zero hn) one_pos
  cases reading with
  | notANumber => exact ⟨fun _ => Nat.zero_le _, fun hle => absurd hpositive (Nat.not_lt.2 hle)⟩
  | infinite negative =>
      refine ⟨fun hle => absurd (mul_one_lt_infinity hrange) (Nat.not_lt.2 hle), fun _ => ?_⟩
      exact Nat.le_of_lt (magnitude_lt h.bounded (by omega))
  | finite negative other shift =>
      have hvalue : mantissa <<< (n.log2 + 1022 + carry) =
          mantissa * 2 ^ carry * 2 ^ (n.log2 + 1022) := by
        rw [Nat.shiftLeft_eq, Nat.mul_assoc, ← Nat.pow_add, Nat.add_comm carry]
      have hlarge : 2 ^ 52 ≤ n * 2 ^ 52 / 2 ^ n.log2 := by
        rw [Nat.le_div_iff_mul_le (Nat.two_pow_pos _), Nat.mul_comm]
        exact Nat.mul_le_mul_right _ (Nat.log2_self_le hn)
      rw [hvalue, magnitude, Nat.shiftLeft_eq, one_eq_mul, ← Nat.mul_assoc]
      exact h.rounded.faithful hlarge hreading.1

/-- No double lies strictly between a value and the one that it is rounded to. -/
def Faithful (exact rounded : Int) : Prop :=
  ∀ x units, units? x = some units →
    (units ≤ exact → units ≤ rounded) ∧ (exact ≤ units → rounded ≤ units)

/-- The double of an integer has the sign of the integer. -/
theorem units_ofInt {i : Int} {mantissa shift : Nat}
    (hpositive : read (ofFloat (Float.ofNat i.natAbs)) = .finite false mantissa shift)
    (hnegative : read (ofFloat (Float.neg (Float.ofNat i.natAbs))) = .finite true mantissa shift) :
    units? (ofInt i) =
      some (if i < 0 then -((mantissa <<< shift : Nat) : Int) else (mantissa <<< shift : Nat)) := by
  cases i with
  | ofNat n =>
      rw [if_neg (show ¬ Int.ofNat n < 0 from Int.not_lt.2 (Int.natCast_nonneg n))]
      show (read (ofFloat (Float.ofNat n))).units? = _
      rw [show read (ofFloat (Float.ofNat n)) = _ from hpositive]
      rfl
  | negSucc n =>
      rw [if_pos (Int.negSucc_lt_zero n)]
      show (read (ofFloat (Float.neg (Float.ofNat (n + 1))))).units? = _
      rw [show read (ofFloat (Float.neg (Float.ofNat (n + 1)))) = _ from hnegative]
      rfl

/-- The double of a 64-bit integer is next to the integer. -/
theorem ofInt_faithful {i : Int} (hlow : -2 ^ 63 ≤ i) (hhigh : i ≤ 2 ^ 63) :
    ∃ rounded, units? (ofInt i) = some rounded ∧ Faithful (i * one) rounded := by
  by_cases hzero : i = 0
  · refine ⟨0, ?_, fun x units _ => ?_⟩
    · rw [hzero]
      decide +kernel
    · rw [hzero, Int.zero_mul]
      exact ⟨id, id⟩
  · have hn : i.natAbs ≠ 0 := by omega
    have hrange : i.natAbs ≤ 2 ^ 63 := by omega
    obtain ⟨mantissa, carry, hrounding, hpositive, hnegative⟩ := read_ofNat hn hrange
    refine ⟨_, units_ofInt hpositive hnegative, fun x units hunits => ?_⟩
    have hside := (read x).magnitude_faithful (Reading.normalised_ofBits _) hn hrange hrounding
    have hvalue := Reading.units_eq hunits
    have hexact : i * one =
        if i < 0 then -((i.natAbs * one : Nat) : Int) else (i.natAbs * one : Nat) := by
      rw [Int.natCast_mul]
      split
      · rw [← Int.neg_mul, show (-(i.natAbs : Int)) = i by omega]
      · rw [show (i.natAbs : Int) = i by omega]
    have hnonzero : 0 < i.natAbs * one := Nat.mul_pos (Nat.pos_of_ne_zero hn) one_pos
    rw [hvalue, hexact]
    generalize i.natAbs * one = exact at hside hnonzero
    generalize mantissa <<< (i.natAbs.log2 + 1022 + carry) = rounded at hside
    generalize (read x).magnitude = magnitude at hside
    cases (read x).isNegative <;> simp only [Bool.false_eq_true, if_false, if_true] <;> split <;>
      omega

end Script.Binary64
