import Mathlib
import Script.Proofs.Binary64.Encoding

/-!
# Encodings of normal numbers

A double with a mantissa of 53 bits is encoded in a word, and read from it again: `Normal.read_pack`
by the exact reading, and `Normal.unpack_pack` as the operations on doubles do it.
-/

namespace Script.Binary64

open Float.Model Float.Model.UnpackedFloat

/-- The sign of a number that is negative or not. -/
def signOf (negative : Bool) : Sign := if negative then .negative else .positive

/-- A mantissa of 53 bits, and an exponent for which there is an encoding. -/
structure Normal (mantissa : Nat) (exponent : Int) : Prop where
  /-- The first bit is set. It is left out of the encoding. -/
  implicit : 2 ^ 52 ≤ mantissa
  bounded : mantissa < 2 ^ 53
  lower : -1074 ≤ exponent
  upper : exponent ≤ 971

/-- The bits of a number between two powers of two. -/
theorem log2_eq {mantissa k : Nat} (hlow : 2 ^ k ≤ mantissa) (hhigh : mantissa < 2 ^ (k + 1)) :
    mantissa.log2 = k :=
  (Nat.log2_eq_iff (Nat.ne_of_gt (Nat.lt_of_lt_of_le (Nat.two_pow_pos k) hlow))).2 ⟨hlow, hhigh⟩

variable {negative : Bool} {mantissa : Nat} {exponent : Int} {hpos : 0 < mantissa}

/-- The fields of the encoding: the exponent from 1 on, and the mantissa without its first bit. -/
theorem Normal.pack_eq (h : Normal mantissa exponent) :
    UnpackedFloat.pack Format.binary64 (.finite (signOf negative) mantissa exponent hpos) =
      packComponents Format.binary64 (signOf negative)
        (BitVec.ofNat 11 (exponent + 1075).toNat) (BitVec.ofNat 52 mantissa) := by
  have hlog : mantissa.log2 = 52 := log2_eq h.implicit h.bounded
  have hbias : exponent + Format.binary64.exponentBias +
      Format.binary64.mantissaBitsWithoutImplicit = exponent + 1075 := by
    show exponent + 1023 + 52 = _
    omega
  have hfinite : ¬ 2 ^ Format.binary64.exponentBits ≤ (exponent + 1075).toNat + 1 := by
    have hupper := h.upper
    show ¬ 2048 ≤ (exponent + 1075).toNat + 1
    omega
  have hprecision : 52 + 1 = Format.binary64.mantissaBits := rfl
  rw [UnpackedFloat.pack]
  simp only [hlog, hbias]
  rw [if_neg hfinite, if_pos hprecision]

/-- The fields of an encoding as a natural number. -/
theorem toNat_packComponents (e m : Nat) (he : e < 2 ^ 11) :
    (packComponents Format.binary64 (signOf negative) (BitVec.ofNat 11 e)
      (BitVec.ofNat 52 m)).toNat =
      (if negative then 2 ^ 63 else 0) + e * 2 ^ 52 + m % 2 ^ 52 := by
  have hm : m % 2 ^ 52 < 2 ^ 52 := Nat.mod_lt _ (by decide)
  rw [packComponents, BitVec.toNat_append, BitVec.toNat_append, BitVec.toNat_ofNat,
    BitVec.toNat_ofNat, Nat.mod_eq_of_lt he, ← Nat.shiftLeft_add_eq_or_of_lt hm,
    ← Nat.shiftLeft_add_eq_or_of_lt he, Nat.shiftLeft_eq, Nat.shiftLeft_eq]
  cases negative
  · simp [signOf, Sign.toBitVec]
  · simp [signOf, Sign.toBitVec]
    omega

/-- The encoding of a normal number, read. -/
theorem Reading.ofBits_normal {fraction shift : Nat} (hfraction : fraction < 2 ^ 52)
    (hshift : shift ≤ 2045) :
    Reading.ofBits ((if negative then 2 ^ 63 else 0) + (shift + 1) * 2 ^ 52 + fraction) =
      .finite negative (2 ^ 52 + fraction) shift := by
  generalize hbits : (if negative then 2 ^ 63 else 0) + (shift + 1) * 2 ^ 52 + fraction = bits
  have hfields : bits / 2 ^ 52 % 2048 = shift + 1 ∧ bits % 2 ^ 52 = fraction ∧
      decide (bits / 2 ^ 63 % 2 = 1) = negative := by
    cases negative with
    | false =>
        rw [if_neg Bool.false_ne_true] at hbits
        exact ⟨by omega, by omega, decide_eq_false (by omega)⟩
    | true =>
        rw [if_pos rfl] at hbits
        exact ⟨by omega, by omega, decide_eq_true (by omega)⟩
  obtain ⟨hexponent, hrest, hsign⟩ := hfields
  simp only [Reading.ofBits, Nat.shiftRight_eq_div_pow, Nat.one_shiftLeft, hexponent, hrest, hsign]
  rw [if_neg (Nat.succ_ne_zero shift), if_pos (by omega), Nat.add_sub_cancel]

/-- The exact value of an encoded number. -/
theorem Normal.read_pack (h : Normal mantissa exponent) (negative : Bool) :
    read (ofFloat (.ofModel (.pack (.finite (signOf negative) mantissa exponent hpos)))) =
      .finite negative mantissa (exponent + 1074).toNat := by
  have hlower := h.lower
  have hupper := h.upper
  have himplicit := h.implicit
  have hbounded := h.bounded
  have hshift : (exponent + 1075).toNat = (exponent + 1074).toNat + 1 := by omega
  have hbits :
      (ofFloat (.ofModel (.pack (.finite (signOf negative) mantissa exponent hpos)))).bits.toNat =
        (if negative then 2 ^ 63 else 0) + ((exponent + 1074).toNat + 1) * 2 ^ 52 +
          mantissa % 2 ^ 52 := by
    show (UnpackedFloat.pack Format.binary64 _).toNat = _
    rw [h.pack_eq, toNat_packComponents _ _ (by omega), hshift]
  rw [read, hbits, Reading.ofBits_normal (Nat.mod_lt _ (by decide)) (by omega)]
  congr 1
  omega

/-- Operations see an encoded number as it was before it was encoded. -/
theorem Normal.unpack_pack (h : Normal mantissa exponent) (negative : Bool) :
    (Float.Model.pack (.finite (signOf negative) mantissa exponent hpos)).unpack =
      .finite (signOf negative) mantissa exponent hpos := by
  have hlower := h.lower
  have hupper := h.upper
  have himplicit := h.implicit
  have hbounded := h.bounded
  have hfield : (BitVec.ofNat 11 (exponent + 1075).toNat).toNat = (exponent + 1075).toNat := by
    rw [BitVec.toNat_ofNat, Nat.mod_eq_of_lt (by omega)]
  have hfinite : BitVec.ofNat 11 (exponent + 1075).toNat ≠ -1#11 := by
    intro heq
    rw [heq] at hfield
    have hones : (-1#11).toNat = 2047 := rfl
    omega
  have hnormal : BitVec.ofNat 11 (exponent + 1075).toNat ≠ 0#11 := by
    intro heq
    rw [heq] at hfield
    have hzeros : (0#11).toNat = 0 := rfl
    omega
  have hfraction : mantissa % 2 ^ 52 < 2 ^ 52 := Nat.mod_lt _ (by decide)
  have hmantissa : (1#1 ++ BitVec.ofNat 52 mantissa).toNat = mantissa := by
    have hvector : (BitVec.ofNat 52 mantissa).toNat = mantissa % 2 ^ 52 := BitVec.toNat_ofNat ..
    rw [BitVec.toNat_append, hvector, ← Nat.shiftLeft_add_eq_or_of_lt hfraction]
    show 2 ^ 52 + mantissa % 2 ^ 52 = mantissa
    omega
  have hexponent : ((BitVec.ofNat 11 (exponent + 1075).toNat).toNat : Int) -
      (Format.binary64.exponentBias + (52 : Nat)) = exponent := by
    rw [hfield]
    show ((exponent + 1075).toNat : Int) - (1023 + 52) = exponent
    omega
  show UnpackedFloat.unpack Format.binary64 (UnpackedFloat.pack Format.binary64 _) = _
  rw [h.pack_eq, UnpackedFloat.unpack]
  simp only [unpackExponent_packComponents, unpackMantissa_packComponents,
    unpackSign_packComponents, Sign.ofBitVec_toBitVec, if_neg hfinite, if_neg hnormal, hmantissa,
    hexponent]

end Script.Binary64
