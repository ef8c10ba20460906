import Script.Proofs.Evaluation.Hashes
import Script.Proofs.Value.KeyAgreement

/-!
# Membership and iteration

Strings, arrays and hashes each have their own way to look for a member: characters, equality or
hash keys. `Value.contains_eq_any` says that all three look for an element that equals the needle,
as long as the hashes of strings tell the needle from the elements, and `membership_agrees` that
`in` therefore finds what a loop over the same value comes across.
-/

namespace Script

variable [Host]

namespace Value

/-- What can be a key does not equal what cannot. -/
theorem equal_eq_false_of_hashKey {element needle : Value} (helement : element.hashKey?.isSome)
    (hneedle : needle.hashKey? = none) : element.equal needle = false := by
  have hkind := hashKey?_isSome_iff.1 helement
  have hother : ¬ needle.kind ∈ [.integer, .float, .string, .boolean] := by
    rw [← hashKey?_isSome_iff, hneedle]
    exact Bool.false_ne_true
  cases needle with
  | integer | float | string | boolean => exact absurd (by simp [kind]) hother
  | array | hash | null | function | builtin | error =>
      cases element with
      | integer | float | string | boolean => rfl
      | array | hash | null | function | builtin | error => simp [kind] at hkind

/-- Looking up the hash key finds the keys that equal the needle. -/
theorem contains_hash_eq_any {identity : Identity} {entries : List Entry} {needle : Value}
    (h : Entry.WellFiled entries) (hneedle : ¬ needle.IsNaN)
    (hkeys : ∀ entry ∈ entries, ¬ entry.key.IsNaN)
    (hhash : ∀ entry ∈ entries, entry.key.HashedApart needle) :
    (hash identity entries).contains needle = .ok (anyEqual needle (entries.map Entry.key)) := by
  cases hkey : needle.hashKey? with
  | none =>
      -- no key equals a needle that cannot be a key
      have hany : anyEqual needle (entries.map Entry.key) = false := by
        rw [anyEqual, List.any_eq_false]
        intro key hmem
        obtain ⟨entry, hentry, rfl⟩ := List.mem_map.1 hmem
        simp [equal_eq_false_of_hashKey (h.isSome hentry) hkey]
      rw [contains, hkey, hany]
  | some hashKey =>
      have hsome : needle.hashKey?.isSome := by rw [hkey]; rfl
      have hequal : ∀ entry ∈ entries,
          entry.key.hashKey? = some hashKey ↔ entry.key.equal needle = true := by
        intro entry hentry
        rw [← hkey]
        exact key_eq_iff_equal (isKey_of_hashKey (h.isSome hentry) (hkeys entry hentry))
          (isKey_of_hashKey hsome hneedle) (hhash entry hentry)
      rw [contains_hash h hkey]
      refine congrArg Except.ok (Bool.eq_iff_iff.2 ?_)
      rw [decide_eq_true_iff, anyEqual, List.any_map, List.any_eq_true]
      exact exists_congr fun entry => and_congr_right fun hentry => hequal entry hentry

/-- Only a string of one character is a character of a string. -/
theorem contains_string_eq_any (text : String) (needle : Value) :
    (string text).contains needle = .ok (anyEqual needle (text.toList.map character)) := by
  cases needle with
  | string part =>
      have hcharacter : ∀ c, (character c).equal (string part) = true ↔ part.toList = [c] := by
        intro c
        rw [character, equal, decide_eq_true_iff, ← String.toList_inj, String.toList_singleton,
          eq_comm]
      have hany : anyEqual (string part) (text.toList.map character) = true ↔
          ∃ c ∈ text.toList, part.toList = [c] := by
        simp only [anyEqual, List.any_map, List.any_eq_true, Function.comp_apply, hcharacter]
      simp only [contains]
      split
      · next c hpart =>
          refine congrArg Except.ok (Bool.eq_iff_iff.2 ?_)
          simp [hany, hpart]
      · next hpart =>
          refine congrArg Except.ok (Bool.eq_false_iff.2 fun htrue => ?_).symm
          obtain ⟨c, -, hc⟩ := hany.1 htrue
          exact hpart c hc
  | integer | float | boolean | array | hash | null | function | builtin | error =>
      refine congrArg Except.ok (Eq.symm ?_)
      simp [anyEqual, character, equal]

/-- A member of a value that can be iterated equals one of its elements. -/
theorem contains_eq_any {collection needle : Value} {elements : List Value}
    (hfiled : ∀ identity entries, collection = hash identity entries → Entry.WellFiled entries)
    (helements : collection.elements? = some elements) (hneedle : ¬ needle.IsNaN)
    (hnumbers : ∀ element ∈ elements, ¬ element.IsNaN)
    (hhash : ∀ element ∈ elements, element.HashedApart needle) :
    collection.contains needle = .ok (anyEqual needle elements) := by
  cases collection with
  | string text =>
      cases helements
      exact contains_string_eq_any text needle
  | array identity elements =>
      cases helements
      rfl
  | hash identity entries =>
      cases helements
      exact contains_hash_eq_any (hfiled _ _ rfl) hneedle
        (fun entry hentry => hnumbers _ (List.mem_map_of_mem hentry))
        fun entry hentry => hhash _ (List.mem_map_of_mem hentry)
  | integer | float | boolean | null | function | builtin | error => cases helements

/-- Nothing can be a member of a value that cannot be iterated. -/
theorem contains_eq_error {collection : Value} (h : collection.elements? = none) (needle : Value) :
    collection.contains needle = .error (.membership collection.kind) := by
  cases collection with
  | string | array | hash => cases h
  | integer | float | boolean | null | function | builtin | error => rfl

end Value

/-! ## Membership in programs -/

/-- The operands of an operator are evaluated from left to right. -/
theorem Expr.evaluate_binary {settings : Settings} {count : Nat} {location : Location}
    {left right : Expr} {operator : BinaryOperator} {first second : Value}
    {state state' state'' : State}
    (hleft : Expr.evaluate settings count left state = (.ok first, state'))
    (hright : Expr.evaluate settings count right state' = (.ok second, state'')) :
    Expr.evaluate settings (count + 1) (.binary location left operator right) state =
      Evaluation.ofExcept (operator.apply first second) state'' := by
  simp only [Expr.evaluate, Evaluators.evaluate, Evaluation.bind_apply, hleft, hright]

/-- What programs are told about a value that can be iterated. -/
structure Value.Iterated (settings : Settings) (collection : Value) (elements : List Value) :
    Prop where
  /-- A loop visits the elements, in order. -/
  loop : ∀ location element iterable body count state state',
    Expr.evaluate settings count iterable state = (.ok collection, state') →
    Statement.execute settings (count + 1) (.forLoop location element iterable body) state =
      Evaluation.withChildFrame []
        ((Evaluators.upTo settings count).forEach element.name body elements) state'
  /-- Whether an element equals the needle is what `in` tells, as long as all of them are equal to
  themselves, and told from the needle by their hashes if they are strings. -/
  member : ∀ location left right count state state' state'' needle,
    ¬ needle.IsNaN → (∀ element ∈ elements, ¬ element.IsNaN) →
    (∀ element ∈ elements, element.HashedApart needle) →
    Expr.evaluate settings count left state = (.ok needle, state') →
    Expr.evaluate settings count right state' = (.ok collection, state'') →
    ∃ found, Expr.evaluate settings (count + 1) (.binary location left .member right) state =
        (.ok (.boolean found), state'') ∧
      (found = true ↔ ∃ element ∈ elements, element.equal needle = true)

/-- What programs are told about a value that cannot be iterated. -/
structure Value.Refused (settings : Settings) (collection : Value) : Prop where
  loop : ∀ location element iterable body count state state',
    Expr.evaluate settings count iterable state = (.ok collection, state') →
    Statement.execute settings (count + 1) (.forLoop location element iterable body) state =
      (.error (.raised (.notIterable collection.kind)), state')
  member : ∀ location left right count state state' state'' needle,
    Expr.evaluate settings count left state = (.ok needle, state') →
    Expr.evaluate settings count right state' = (.ok collection, state'') →
    Expr.evaluate settings (count + 1) (.binary location left .member right) state =
      (.error (.raised (.membership collection.kind)), state'')

/-- A loop over a value, held at any time, that can be iterated visits its elements, and `in` tells
whether one of these elements equals the needle, unless some of them are not equal to themselves or
are strings that the hash confuses. For a value that cannot be iterated, loops and `in` are both
faults. -/
theorem membership_agrees (settings : Settings) :
    (∀ state atHand, State.Reachable settings state atHand →
      ∀ collection elements, state.Holds atHand collection → collection.elements? = some elements →
        collection.Iterated settings elements) ∧
    ∀ collection : Value, collection.elements? = none → collection.Refused settings := by
  constructor
  · intro state atHand hreachable collection elements hholds helements
    refine ⟨fun _ _ _ _ _ _ _ heval => Statement.execute_forLoop heval helements, ?_⟩
    intro location left right count state state' state'' needle hneedle hnumbers hhash hleft hright
    have hcontains := Value.contains_eq_any
      (fun identity entries heq => hreachable.wellFiled (heq ▸ hholds)) helements hneedle hnumbers
      hhash
    refine ⟨Value.anyEqual needle elements, ?_, List.any_eq_true⟩
    rw [Expr.evaluate_binary hleft hright, BinaryOperator.apply, hcontains]
    rfl
  · intro collection helements
    constructor
    · intro location element iterable body count state state' heval
      simp only [Statement.execute, Evaluators.execute, Evaluation.bind_apply, heval, helements]
      rfl
    · intro location left right count state state' state'' needle hleft hright
      rw [Expr.evaluate_binary hleft hright, BinaryOperator.apply,
        Value.contains_eq_error helements]
      rfl

end Script
