import Script.Proofs.Binary64.Encoding
import Script.Value.Key

/-!
# Keys and equality

Hashes compare hash keys where the language compares values. `key_agreement` says that the two
comparisons agree on everything that can be a key and is equal to itself, as long as the hash of
strings tells the compared strings apart.
-/

namespace Script

namespace Value

/-- A float that is not a number. -/
def IsNaN (value : Value) : Prop :=
  ∃ x, value = float x ∧ Binary64.read x = .notANumber

/-! ## Equality -/

/-- Equality does not depend on the order of its operands. -/
theorem equal_comm (a b : Value) : a.equal b = b.equal a := by
  have hfloats (x y : Binary64) : Binary64.equal x y = Binary64.equal y x := by
    unfold Binary64.equal
    cases Binary64.units? x <;> cases Binary64.units? y <;> simp only [eq_comm]
  cases a <;> cases b <;> simp only [equal, hfloats, eq_comm]

/-- Only a string equals a string. -/
theorem eq_of_equal_string {value : Value} {s : String} (h : value.equal (string s) = true) :
    value = string s := by
  cases value with
  | string t => rw [of_decide_eq_true h]
  | integer | float | boolean | array | hash | null | function | builtin | error => cases h

/-- An integer is determined by the bits that it is filed under. -/
theorem toUInt64_eq_iff {m n : Int64} : m.toUInt64 = n.toUInt64 ↔ m = n :=
  ⟨fun h => by rw [← Int64.toInt64_toUInt64 m, h, Int64.toInt64_toUInt64], congrArg _⟩

variable [Host]

/-- A value that can be a key, and that is a number if it is a float. -/
def IsKey (value : Value) : Prop :=
  value.hashKey?.isSome ∧ ∀ x, value = .float x → Binary64.read x ≠ .notANumber

/-- What has a hash key can be a key of its own, unless it is not a number. -/
theorem isKey_of_hashKey {value : Value} (hkey : value.hashKey?.isSome) (hnumber : ¬ value.IsNaN) :
    value.IsKey :=
  ⟨hkey, fun x hx hread => hnumber ⟨x, hx, hread⟩⟩

/-- A float that is a number has a value. -/
theorem IsKey.units {x : Binary64} (h : (float x).IsKey) :
    ∃ units, Binary64.units? x = some units := by
  have hnumber := h.2 x rfl
  rw [Binary64.units?]
  generalize Binary64.read x = reading at hnumber ⊢
  cases reading with
  | notANumber => exact False.elim (hnumber rfl)
  | infinite negative => exact ⟨_, rfl⟩
  | finite negative mantissa shift => exact ⟨_, rfl⟩

/-! ## The hash keys of numbers -/

/-- A float with the value of an integer is filed where the integer is. -/
theorem hashKey_float_integral {x : Binary64} {whole : Int64}
    (h : Binary64.integral? x = some whole) :
    (float x).hashKey? = some ⟨.integer, whole.toUInt64⟩ := by
  simp only [hashKey?, h]

/-- Every other float is filed under its encoding. -/
theorem hashKey_float_fractional {x : Binary64} (h : Binary64.integral? x = none) :
    (float x).hashKey? = some ⟨.float, x.bits⟩ := by
  simp only [hashKey?, h]

/-- A float is filed where an integer is exactly when it has the value of the integer. -/
theorem float_key_eq_integer_iff {x : Binary64} {whole : Int64} :
    (float x).hashKey? = (integer whole).hashKey? ↔ Binary64.integral? x = some whole := by
  cases hx : Binary64.integral? x with
  | some other =>
      rw [hashKey_float_integral hx]
      simp [hashKey?, toUInt64_eq_iff]
  | none =>
      rw [hashKey_float_fractional hx]
      simp [hashKey?]

/-- Floats filed under one hash key have the same value. -/
theorem units_eq_of_key_eq {x y : Binary64} (h : (float x).hashKey? = (float y).hashKey?) :
    Binary64.units? x = Binary64.units? y := by
  cases hx : Binary64.integral? x with
  | some whole =>
      have hy : Binary64.integral? y = some whole :=
        float_key_eq_integer_iff.1 (h.symm.trans (float_key_eq_integer_iff.2 hx))
      rw [Binary64.integral_eq_some_iff.1 hx, Binary64.integral_eq_some_iff.1 hy]
  | none =>
      rw [hashKey_float_fractional hx] at h
      cases hy : Binary64.integral? y with
      | some other =>
          rw [hashKey_float_integral hy] at h
          cases h
      | none =>
          rw [hashKey_float_fractional hy, Option.some.injEq, HashKey.mk.injEq] at h
          rw [show x = y from congrArg Binary64.mk h.2]

/-- Floats of the same value are filed under one hash key. The zeros have two encodings, but they
are filed where the integer zero is. -/
theorem key_eq_of_units_eq {x y : Binary64} {units : Int} (hx : Binary64.units? x = some units)
    (hy : Binary64.units? y = some units) : (float x).hashKey? = (float y).hashKey? := by
  cases hwhole : Binary64.integral? x with
  | some whole =>
      have hy' : Binary64.integral? y = some whole := by
        rw [Binary64.integral_eq_some_iff, hy, ← hx]
        exact Binary64.integral_eq_some_iff.1 hwhole
      rw [hashKey_float_integral hwhole, hashKey_float_integral hy']
  | none =>
      have hunits : units ≠ 0 := by
        intro hzero
        rw [hzero] at hx
        exact Binary64.units_ne_zero hwhole hx
      rw [Binary64.eq_of_units_eq hx hy hunits]

/-- Floats that are numbers are filed under one hash key exactly when they are equal. -/
theorem float_key_eq_iff {x y : Binary64} (hx : (float x).IsKey) (hy : (float y).IsKey) :
    (float x).hashKey? = (float y).hashKey? ↔ Binary64.equal x y = true := by
  obtain ⟨units, hunits⟩ := hx.units
  obtain ⟨units', hunits'⟩ := hy.units
  have hequal : Binary64.equal x y = true ↔ units = units' := by
    simp only [Binary64.equal, hunits, hunits', decide_eq_true_eq]
  rw [hequal]
  constructor
  · intro h
    have hsame := units_eq_of_key_eq h
    rw [hunits, hunits', Option.some.injEq] at hsame
    exact hsame
  · intro hsame
    rw [← hsame] at hunits'
    exact key_eq_of_units_eq hunits hunits'

/-- A float is filed under hash keys of numbers only. -/
theorem float_key_ne {x : Binary64} {hashKey : HashKey} (hinteger : hashKey.kind ≠ .integer)
    (hfloat : hashKey.kind ≠ .float) : (float x).hashKey? ≠ some hashKey := by
  intro h
  cases hx : Binary64.integral? x with
  | some whole =>
      rw [hashKey_float_integral hx, Option.some.injEq] at h
      exact hinteger (congrArg HashKey.kind h.symm)
  | none =>
      rw [hashKey_float_fractional hx, Option.some.injEq] at h
      exact hfloat (congrArg HashKey.kind h.symm)

/-! ## Agreement -/

/-- The kinds of values that can be keys. -/
theorem IsKey.kinds {value : Value} (h : value.IsKey) :
    (∃ m, value = integer m) ∨ (∃ x, value = float x) ∨ (∃ s, value = string s) ∨
      ∃ c, value = boolean c := by
  cases value with
  | integer m => exact .inl ⟨m, rfl⟩
  | float x => exact .inr (.inl ⟨x, rfl⟩)
  | string s => exact .inr (.inr (.inl ⟨s, rfl⟩))
  | boolean c => exact .inr (.inr (.inr ⟨c, rfl⟩))
  | array | hash | null | function | builtin | error => cases h.1

/-- The hashes of two values tell them apart if they are strings. -/
def HashedApart (a b : Value) : Prop :=
  ∀ s t, a = string s → b = string t → Host.hash s = Host.hash t → s = t

/-- Two values are filed under one hash key exactly when the language holds them equal, as long as
their hashes tell them apart. -/
theorem key_eq_iff_equal {a b : Value} (ha : a.IsKey) (hb : b.IsKey) (hhash : a.HashedApart b) :
    a.hashKey? = b.hashKey? ↔ a.equal b = true := by
  -- values of different kinds agree only where one is a float and the other an integer
  rcases ha.kinds with ⟨m, rfl⟩ | ⟨x, rfl⟩ | ⟨s, rfl⟩ | ⟨c, rfl⟩
  · rcases hb.kinds with ⟨n, rfl⟩ | ⟨y, rfl⟩ | ⟨t, rfl⟩ | ⟨d, rfl⟩
    · simp [hashKey?, equal, toUInt64_eq_iff]
    · rw [eq_comm, equal, decide_eq_true_eq]
      exact float_key_eq_integer_iff
    · simp [hashKey?, equal]
    · simp [hashKey?, equal]
  · rcases hb.kinds with ⟨n, rfl⟩ | ⟨y, rfl⟩ | ⟨t, rfl⟩ | ⟨d, rfl⟩
    · rw [equal, decide_eq_true_eq]
      exact float_key_eq_integer_iff
    · exact float_key_eq_iff ha hb
    · exact iff_of_false (float_key_ne nofun nofun) (by simp [equal])
    · exact iff_of_false (float_key_ne nofun nofun) (by simp [equal])
  · rcases hb.kinds with ⟨n, rfl⟩ | ⟨y, rfl⟩ | ⟨t, rfl⟩ | ⟨d, rfl⟩
    · simp [hashKey?, equal]
    · exact iff_of_false (Ne.symm (float_key_ne nofun nofun)) (by simp [equal])
    · have hsame : Host.hash s = Host.hash t ↔ s = t :=
        ⟨hhash s t rfl rfl, fun h => by rw [h]⟩
      simp [hashKey?, equal, hsame]
    · simp [hashKey?, equal]
  · rcases hb.kinds with ⟨n, rfl⟩ | ⟨y, rfl⟩ | ⟨t, rfl⟩ | ⟨d, rfl⟩
    · simp [hashKey?, equal]
    · exact iff_of_false (Ne.symm (float_key_ne nofun nofun)) (by simp [equal])
    · simp [hashKey?, equal]
    · cases c <;> cases d <;> simp [hashKey?, equal, Bool.toUInt64]

/-- On keys the equality of the language is an equivalence, whatever the hashes of strings are. -/
theorem equal_equivalence :
    Equivalence fun a b : { value : Value // value.IsKey } => a.1.equal b.1 = true where
  refl a := (key_eq_iff_equal a.2 a.2 fun s t hs ht _ => string.inj (hs.symm.trans ht)).1 rfl
  symm {a b} h := (equal_comm ..).trans h
  trans {a b c} h h' := by
    by_cases hstring : ∃ s, b.1 = string s
    · obtain ⟨s, hs⟩ := hstring
      rw [hs] at h h'
      rwa [eq_of_equal_string h]
    · -- what equals a value other than a string is no string either
      have hother {value : Value} (hvalue : value.equal b.1 = true) (s : String) :
          value ≠ string s := fun hs =>
        hstring ⟨s, eq_of_equal_string ((equal_comm ..).trans (hs ▸ hvalue))⟩
      have hfirst : a.1.HashedApart b.1 := fun s _ hs => absurd hs (hother h s)
      have hsecond : b.1.HashedApart c.1 := fun s _ hs => absurd ⟨s, hs⟩ hstring
      have hboth : a.1.HashedApart c.1 := fun s _ hs => absurd hs (hother h s)
      exact (key_eq_iff_equal a.2 c.2 hboth).1
        (((key_eq_iff_equal a.2 b.2 hfirst).2 h).trans ((key_eq_iff_equal b.2 c.2 hsecond).2 h'))

/-- Two values that can be keys, and are no missing numbers, have the same hash key exactly when
they are equal, as long as the hash of the host tells them apart if they are strings. On these
values equality is an equivalence. -/
theorem key_agreement :
    (∀ (a b : Value) (key other : HashKey), a.IsKey → b.IsKey →
      a.hashKey? = some key → b.hashKey? = some other →
      (∀ s t, a = .string s → b = .string t → Host.hash s = Host.hash t → s = t) →
      (key = other ↔ a.equal b = true)) ∧
    Equivalence fun a b : { value : Value // value.IsKey } => a.1.equal b.1 = true := by
  refine ⟨fun a b key other ha hb hkey hother hhash => ?_, equal_equivalence⟩
  rw [← key_eq_iff_equal ha hb hhash, hkey, hother, Option.some.injEq]

end Value

open scoped Host in
/-- The negative zero has the hash key of the integer zero, and equals it. -/
theorem Value.key_agreement_zero :
    (float ⟨0x8000000000000000⟩).equal (integer 0) = true := by
  have hkey : (float ⟨0x8000000000000000⟩).hashKey? = some ⟨.integer, 0⟩ := by
    decide +kernel
  have hnumber : Binary64.read ⟨0x8000000000000000⟩ ≠ .notANumber := by
    decide +kernel
  refine (key_agreement.1 _ (integer 0) ⟨.integer, 0⟩ ⟨.integer, 0⟩ ⟨?_, ?_⟩
    ⟨rfl, fun x h => by cases h⟩ hkey rfl (fun s t h => by cases h)).1 rfl
  · rw [hkey]
    rfl
  · intro x h
    cases h
    exact hnumber

end Script
