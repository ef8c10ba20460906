import Script.Proofs.Binary64.Conversion
import Script.Proofs.Value.KeyAgreement
import Script.Value.Operator

/-!
# The order of numbers

Equality compares an integer with a float exactly, while the order compares the float with the
double next to the integer. `numbers_ordered` says that the two agree on all numbers but those pairs
that they tell apart: an integer, and a float that is the double of the integer without being equal
to it. Such a pair is neither smaller, equal nor greater, although it is both at most and at least
as large.
-/

namespace Script

namespace Value

/-- The exact value of a number in units of `2 ^ (-1074)`. -/
def units? : Value → Option Int
  | integer a => some (a.toInt * Binary64.one)
  | float x => Binary64.units? x
  | _ => none

/-- An integer or a float that is a number. -/
def IsNumber (value : Value) : Prop :=
  value.kind ∈ [.integer, .float] ∧ ¬ value.IsNaN

/-- An integer and a float that is the double of the integer, but does not equal it. -/
def Confused : Value → Value → Prop
  | integer a, float x | float x, integer a =>
    Binary64.equal (.ofInt a.toInt) x = true ∧ Binary64.integral? x ≠ some a
  | _, _ => False

theorem isNumber_integer (m : Int64) : (integer m).IsNumber := by
  refine ⟨.head _, ?_⟩
  rintro ⟨x, hx, -⟩
  cases hx

theorem isNumber_float {x : Binary64} (h : Binary64.read x ≠ .notANumber) : (float x).IsNumber := by
  refine ⟨.tail _ (.head _), ?_⟩
  rintro ⟨y, hy, hread⟩
  cases hy
  exact h hread

theorem IsNumber.units {value : Value} (h : value.IsNumber) :
    ∃ units, value.units? = some units := by
  cases value with
  | integer a => exact ⟨_, rfl⟩
  | float x =>
      have hread : Binary64.read x ≠ .notANumber := fun hread => h.2 ⟨x, rfl, hread⟩
      rw [units?, Binary64.units?]
      cases hx : Binary64.read x with
      | notANumber => exact absurd hx hread
      | infinite negative => exact ⟨_, rfl⟩
      | finite negative mantissa shift => exact ⟨_, rfl⟩
  | string | boolean | array | hash | null | function | builtin | error =>
      exact absurd h.1 (by simp [kind])

variable {a b c : Value} {u v w : Int}

/-- Numbers are equal when they have the same exact value. -/
theorem equal_iff_units (ha : a.units? = some u) (hb : b.units? = some v) :
    a.equal b = true ↔ u = v := by
  have hone : (Binary64.one : Int) ≠ 0 := Int.natCast_ne_zero.2 (Nat.ne_of_gt Binary64.one_pos)
  cases a with
  | integer m =>
      cases ha
      cases b with
      | integer n =>
          cases hb
          rw [equal, decide_eq_true_eq, Int.mul_eq_mul_right_iff hone, Int64.toInt_inj]
      | float y =>
          rw [equal, decide_eq_true_eq, Binary64.integral_eq_some_iff,
            show Binary64.units? y = _ from hb, Option.some.injEq, eq_comm]
      | string | boolean | array | hash | null | function | builtin | error => cases hb
  | float x =>
      cases b with
      | integer n =>
          cases hb
          rw [equal, decide_eq_true_eq, Binary64.integral_eq_some_iff,
            show Binary64.units? x = _ from ha, Option.some.injEq]
      | float y =>
          simp only [equal, Binary64.equal, show Binary64.units? x = _ from ha,
            show Binary64.units? y = _ from hb, decide_eq_true_eq]
      | string | boolean | array | hash | null | function | builtin | error => cases hb
  | string | boolean | array | hash | null | function | builtin | error => cases ha

/-- Comparing with the double of an integer is comparing with the integer, if both are equal to the
same floats. -/
theorem compare_of_faithful {exact rounded units : Int} {x : Binary64}
    (hfaithful : Binary64.Faithful exact rounded) (hx : Binary64.units? x = some units)
    (h : rounded = units → exact = units) :
    compare rounded units = compare exact units := by
  obtain ⟨hle, hge⟩ := hfaithful x units hx
  rcases Int.lt_trichotomy exact units with hlt | heq | hgt
  · have hbelow : rounded < units := by omega
    rw [Int.compare_eq_lt.2 hlt, Int.compare_eq_lt.2 hbelow]
  · have hsame : rounded = units := by omega
    rw [heq, hsame]
  · have habove : rounded > units := by omega
    rw [Int.compare_eq_gt.2 hgt, Int.compare_eq_gt.2 habove]

/-- Integers are ordered as their values in units are. -/
theorem compare_scaled (i j : Int) :
    compare i j = compare (i * Binary64.one) (j * Binary64.one) := by
  have hone : (0 : Int) < Binary64.one := Int.natCast_pos.2 Binary64.one_pos
  rcases Int.lt_trichotomy i j with hlt | rfl | hgt
  · rw [Int.compare_eq_lt.2 hlt, Int.compare_eq_lt.2 (Int.mul_lt_mul_of_pos_right hlt hone)]
  · rw [Int.compare_eq_eq.2 rfl, Int.compare_eq_eq.2 rfl]
  · rw [Int.compare_eq_gt.2 hgt, Int.compare_eq_gt.2 (Int.mul_lt_mul_of_pos_right hgt hone)]

/-- The double of an integer, next to it. -/
theorem units_double (m : Int64) :
    ∃ rounded, Binary64.units? (.ofInt m.toInt) = some rounded ∧
      Binary64.Faithful (m.toInt * Binary64.one) rounded :=
  Binary64.ofInt_faithful (Int64.le_toInt m) (Int.le_of_lt m.toInt_lt)

/-- An integer and a float that are not confused are ordered as the double of the integer and the
float are. -/
theorem compare_double {m : Int64} {x : Binary64} (hx : Binary64.units? x = some u)
    (h : ¬ (integer m).Confused (float x)) :
    ∃ rounded, Binary64.units? (.ofInt m.toInt) = some rounded ∧
      compare rounded u = compare (m.toInt * Binary64.one) u := by
  obtain ⟨rounded, hrounded, hfaithful⟩ := units_double m
  refine ⟨rounded, hrounded, compare_of_faithful hfaithful hx fun heq => ?_⟩
  by_cases hwhole : Binary64.integral? x = some m
  · exact (Option.some.inj (hx.symm.trans (Binary64.integral_eq_some_iff.1 hwhole))).symm
  · refine absurd ⟨?_, hwhole⟩ h
    simp only [Binary64.equal, hrounded, hx, decide_eq_true_eq]
    exact heq

/-- Doubles are ordered by their exact values. -/
theorem order_of_units {x y : Binary64} (hx : Binary64.units? x = some u)
    (hy : Binary64.units? y = some v) : Binary64.order? x y = some (compare u v) := by
  simp only [Binary64.order?, hx, hy]

/-- Numbers that are not confused are ordered by their exact values. -/
theorem order_eq_compare (ha : a.units? = some u) (hb : b.units? = some v) (h : ¬ a.Confused b) :
    a.order? b = some (some (compare u v)) := by
  cases a with
  | integer m =>
      cases ha
      cases b with
      | integer n =>
          cases hb
          rw [order?, compare_scaled]
      | float y =>
          obtain ⟨rounded, hrounded, hcompare⟩ := compare_double hb h
          rw [← hcompare]
          exact congrArg some (order_of_units hrounded hb)
      | string | boolean | array | hash | null | function | builtin | error => cases hb
  | float x =>
      cases b with
      | integer n =>
          cases hb
          obtain ⟨rounded, hrounded, hcompare⟩ := compare_double (m := n) ha h
          rw [← Int.compare_swap, ← hcompare, Int.compare_swap]
          exact congrArg some (order_of_units ha hrounded)
      | float y => exact congrArg some (order_of_units ha hb)
      | string | boolean | array | hash | null | function | builtin | error => cases hb
  | string | boolean | array | hash | null | function | builtin | error => cases ha

/-- Equal doubles are neither smaller nor greater. -/
theorem order_of_equal {x y : Binary64} (h : Binary64.equal x y = true) :
    Binary64.order? x y = some .eq ∧ Binary64.order? y x = some .eq := by
  unfold Binary64.equal at h
  split at h
  · next u v hx hy =>
      cases of_decide_eq_true h
      rw [order_of_units hx hy, order_of_units hy hx, Int.compare_eq_eq.2 rfl]
      exact ⟨rfl, rfl⟩
  · cases h

/-- The doubles of confused numbers are equal, but the numbers are not. -/
theorem Confused.order (h : a.Confused b) : a.order? b = some (some .eq) ∧ a.equal b = false := by
  cases a with
  | integer m =>
      cases b with
      | float y =>
          exact ⟨congrArg some (order_of_equal h.1).1, decide_eq_false h.2⟩
      | integer | string | boolean | array | hash | null | function | builtin | error => cases h
  | float x =>
      cases b with
      | integer n =>
          exact ⟨congrArg some (order_of_equal h.1).2, decide_eq_false h.2⟩
      | float | string | boolean | array | hash | null | function | builtin | error => cases h
  | string | boolean | array | hash | null | function | builtin | error => cases h

/-! ## Comparisons in programs -/

section

variable [Host]

/-- A comparison gives true. -/
def Holds (operator : BinaryOperator) (a b : Value) : Prop :=
  operator.apply a b = .ok (boolean true)

/-- What the order of two numbers tells of the comparisons of them. -/
theorem holds_of_order {order : Ordering} (h : a.order? b = some (some order)) :
    (Holds .less a b ↔ order = .lt) ∧ (Holds .greater a b ↔ order = .gt) ∧
      (Holds .lessEqual a b ↔ order ≠ .gt) ∧ (Holds .greaterEqual a b ↔ order ≠ .lt) := by
  simp only [Holds, BinaryOperator.apply, comparison, h, Option.any_some, Except.ok.injEq,
    boolean.injEq]
  cases order <;> decide

theorem holds_equal : Holds .equal a b ↔ a.equal b = true := by
  simp only [Holds, BinaryOperator.apply, Except.ok.injEq, boolean.injEq]

/-- The comparisons of two values are consistent with one another. -/
structure Ordered (a b : Value) : Prop where
  trichotomy : (Holds .less a b ∧ ¬ Holds .equal a b ∧ ¬ Holds .greater a b) ∨
    (¬ Holds .less a b ∧ Holds .equal a b ∧ ¬ Holds .greater a b) ∨
    (¬ Holds .less a b ∧ ¬ Holds .equal a b ∧ Holds .greater a b)
  lessEqual : Holds .lessEqual a b ↔ Holds .less a b ∨ Holds .equal a b
  greaterEqual : Holds .greaterEqual a b ↔ Holds .greater a b ∨ Holds .equal a b

/-- Numbers that are not confused are compared as their exact values are. -/
theorem holds_iff_units (ha : a.units? = some u) (hb : b.units? = some v) (h : ¬ a.Confused b) :
    (Holds .less a b ↔ u < v) ∧ (Holds .equal a b ↔ u = v) ∧ (Holds .greater a b ↔ v < u) ∧
      (Holds .lessEqual a b ↔ u ≤ v) ∧ (Holds .greaterEqual a b ↔ v ≤ u) := by
  obtain ⟨hless, hgreater, hlessEqual, hgreaterEqual⟩ := holds_of_order (order_eq_compare ha hb h)
  refine ⟨hless.trans Int.compare_eq_lt, holds_equal.trans (equal_iff_units ha hb),
    hgreater.trans Int.compare_eq_gt, hlessEqual.trans ?_, hgreaterEqual.trans ?_⟩
  · rw [ne_eq, Int.compare_eq_gt]
    exact Int.not_lt
  · rw [ne_eq, Int.compare_eq_lt]
    exact Int.not_lt

/-- Comparisons are consistent on all numbers but the confused ones: there, exactly one of less,
equal and greater holds, "at most" and "at least" are these with equality, and "at most" goes on
from one number to the next. Of two confused numbers none is less, equal or greater, but each is at
most and at least the other one. -/
theorem numbers_ordered (ha : a.IsNumber) (hb : b.IsNumber) :
    (¬ a.Confused b → a.Ordered b) ∧
    (a.Confused b → ¬ Holds .less a b ∧ ¬ Holds .equal a b ∧ ¬ Holds .greater a b ∧
      Holds .lessEqual a b ∧ Holds .greaterEqual a b) ∧
    ∀ c : Value, c.IsNumber → ¬ a.Confused b → ¬ b.Confused c →
      Holds .lessEqual a b → Holds .lessEqual b c → Holds .lessEqual a c := by
  obtain ⟨u, hu⟩ := ha.units
  obtain ⟨v, hv⟩ := hb.units
  refine ⟨fun h => ?_, fun h => ?_, fun c hc hab hbc hfirst hsecond => ?_⟩
  · obtain ⟨hless, hequal, hgreater, hlessEqual, hgreaterEqual⟩ := holds_iff_units hu hv h
    constructor
    · rw [hless, hequal, hgreater]
      omega
    · rw [hlessEqual, hless, hequal]
      omega
    · rw [hgreaterEqual, hgreater, hequal]
      omega
  · obtain ⟨horder, hequal⟩ := h.order
    obtain ⟨hless, hgreater, hlessEqual, hgreaterEqual⟩ := holds_of_order horder
    rw [hless, hgreater, hlessEqual, hgreaterEqual, holds_equal, hequal]
    decide
  · obtain ⟨w, hw⟩ := hc.units
    obtain ⟨-, -, -, hfirstUnits, -⟩ := holds_iff_units hu hv hab
    obtain ⟨-, -, -, hsecondUnits, -⟩ := holds_iff_units hv hw hbc
    have hle : u ≤ w := Int.le_trans (hfirstUnits.1 hfirst) (hsecondUnits.1 hsecond)
    by_cases hac : a.Confused c
    · -- confused numbers are at most one another
      exact (holds_of_order hac.order.1).2.2.1.2 (by decide)
    · exact (holds_iff_units hu hw hac).2.2.2.1.2 hle

end

open scoped Host in
/-- An integer and a float, compared by their exact values. -/
theorem numbers_ordered_mixed :
    (integer 3).IsNumber ∧ (float 2.5).IsNumber ∧ ¬ (integer 3).Confused (float 2.5) ∧
      (integer 3).Ordered (float 2.5) := by
  have hinteger : (integer 3).IsNumber := isNumber_integer 3
  have hfloat : (float 2.5).IsNumber := isNumber_float (by decide +kernel)
  have hapart : ¬ (integer 3).Confused (float 2.5) :=
    fun h => absurd h.1 (by decide +kernel)
  exact ⟨hinteger, hfloat, hapart, (numbers_ordered hinteger hfloat).1 hapart⟩

open scoped Host in
/-- The integer `2 ^ 53 + 1` is neither less than, equal to nor greater than the float `2 ^ 53`. It
is at most that float, and the float at most the integer `2 ^ 53`, but it is not at most that
integer. -/
theorem large_integers_confused :
    let odd : Value := integer 9007199254740993
    let double : Value := float ⟨0x4340000000000000⟩
    let even : Value := integer 9007199254740992
    (odd.IsNumber ∧ double.IsNumber ∧ even.IsNumber) ∧
      (¬ Holds .less odd double ∧ ¬ Holds .equal odd double ∧ ¬ Holds .greater odd double) ∧
      Holds .lessEqual odd double ∧ Holds .lessEqual double even ∧ ¬ Holds .lessEqual odd even := by
  intro odd double even
  have hread : Binary64.read ⟨0x4340000000000000⟩ ≠ .notANumber := by decide +kernel
  have hconfused : odd.Confused double := by
    refine ⟨?_, ?_⟩
    · decide +kernel
    · decide +kernel
  have horder : double.order? even = some (some .eq) := by decide +kernel
  obtain ⟨hfirst, hequal⟩ := hconfused.order
  refine ⟨⟨isNumber_integer _, isNumber_float hread, isNumber_integer _⟩, ?_, ?_, ?_, ?_⟩
  · rw [(holds_of_order hfirst).1, (holds_of_order hfirst).2.1, holds_equal, hequal]
    decide
  · exact (holds_of_order hfirst).2.2.1.2 (by decide)
  · exact (holds_of_order horder).2.2.1.2 (by decide)
  · have hlast : odd.order? even = some (some .gt) := rfl
    rw [(holds_of_order hlast).2.2.1]
    exact fun h => h rfl

end Value

end Script
