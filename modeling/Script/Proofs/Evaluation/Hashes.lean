import Mathlib.Algebra.Group.Nat.Defs
import Script.Proofs.Evaluation.Contents
import Script.Proofs.Value.Filing

/-!
# Hashes

All hashes of a session have well-filed entries, and therefore everything that programs can ask of a
hash agrees on what its entries are. `hashes_coherent` says both, for the hashes that are bound or
at hand at any time, also inside of other values.
-/

namespace Script

section Sessions

variable [Host]

namespace Invariant

/-- The entries of hashes are well filed. -/
theorem filed_laws :
    ContentLaws (fun _ _ : Unit => True) (fun _ _ => True)
      (fun _ part => ∀ identity entries, part = .hash identity entries → Entry.WellFiled entries)
      Entry.WellFiled where
  refl _ := trivial
  trans _ _ := trivial
  mono _ h := h
  plain hplain identity entries heq := by
    rw [heq] at hplain
    cases hplain
  filed h := h _ _ rfl
  shape_nil := Entry.wellFiled_nil
  shape_insert := Entry.wellFiled_insert
  shape_erase := Entry.wellFiled_erase
  create _ _ _ hshape := ⟨(), trivial, trivial, hshape⟩

end Invariant

/-- The hashes of a session are well filed. -/
theorem State.Reachable.wellFiled {settings : Settings} {state : State} {atHand : List Value}
    (h : State.Reachable settings state atHand) {identity : Identity} {entries : List Entry}
    (hholds : state.Holds atHand (.hash identity entries)) : Entry.WellFiled entries := by
  obtain ⟨world, hstate, hatHand⟩ := Invariant.filed_laws.reachable ⟨(), trivial⟩ h
  rcases hholds with ⟨id, binding, hbinding, hpart⟩ | ⟨value, hvalue, hpart⟩
  · exact hstate.2 id binding hbinding _ hpart identity entries rfl
  · exact hatHand value hvalue _ hpart identity entries rfl

/-! ## Reading a hash -/

namespace Value

variable {identity : Identity} {entries : List Entry} {key : Value} {hashKey : HashKey}

/-- A key is indexed by its hash key. -/
theorem index_hash (hkey : key.hashKey? = some hashKey) :
    (hash identity entries).index key =
      .ok ((Entry.find? hashKey entries).elim null Entry.value) := by
  simp only [index, hkey]

/-- The value of the entry that has the hash key. -/
theorem index_hash_of_mem (h : Entry.WellFiled entries) {entry : Entry} (hentry : entry ∈ entries)
    (hkey : key.hashKey? = some hashKey) (hsame : entry.key.hashKey? = some hashKey) :
    (hash identity entries).index key = .ok entry.value := by
  rw [index_hash hkey, h.find?_eq_some_iff.2 ⟨hentry, (h.hashKey_eq_iff hentry).2 hsame⟩]
  rfl

/-- Null, where no entry has the hash key. -/
theorem index_hash_of_not_mem (h : Entry.WellFiled entries) (hkey : key.hashKey? = some hashKey)
    (hnone : ∀ entry ∈ entries, entry.key.hashKey? ≠ some hashKey) :
    (hash identity entries).index key = .ok null := by
  have hfound : Entry.find? hashKey entries = none := Entry.find?_eq_none_iff.2
    fun entry hentry hsame => hnone entry hentry ((h.hashKey_eq_iff hentry).1 hsame)
  rw [index_hash hkey, hfound]
  rfl

/-- A key is a member of a hash when an entry has its hash key. -/
theorem contains_hash (h : Entry.WellFiled entries) (hkey : key.hashKey? = some hashKey) :
    (hash identity entries).contains key =
      .ok (decide (∃ entry ∈ entries, entry.key.hashKey? = some hashKey)) := by
  rw [contains, hkey]
  refine congrArg Except.ok (Bool.eq_iff_iff.2 ?_)
  rw [Entry.find?_isSome_iff, decide_eq_true_iff]
  exact exists_congr fun entry => and_congr_right fun hentry => h.hashKey_eq_iff hentry

end Value

/-- A loop visits the elements of what it iterates over, in order. -/
theorem Statement.execute_forLoop {settings : Settings} {count : Nat} {location : Location}
    {element : Identifier} {iterable : Expr} {body : Block} {value : Value} {elements : List Value}
    {state state' : State}
    (heval : Expr.evaluate settings count iterable state = (.ok value, state'))
    (helements : value.elements? = some elements) :
    Statement.execute settings (count + 1) (.forLoop location element iterable body) state =
      Evaluation.withChildFrame []
        ((Evaluators.upTo settings count).forEach element.name body elements) state' := by
  simp only [Statement.execute, Evaluators.execute, Evaluation.bind_apply, heval, helements]

/-- What programs are told about a hash: every operation goes by the same entries. -/
structure Value.Coherent (settings : Settings) (identity : Identity) (entries : List Entry) :
    Prop where
  /-- Each entry is filed under the hash key of its own key, and is what is found there. -/
  filed : ∀ entry ∈ entries, entry.key.hashKey? = some entry.hashKey ∧
    Entry.find? entry.hashKey entries = some entry
  kinds : ∀ entry ∈ entries, entry.key.kind ∈ [.integer, .float, .string, .boolean]
  /-- A loop visits the keys. -/
  loop : ∀ location element iterable body count state state',
    Expr.evaluate settings count iterable state = (.ok (.hash identity entries), state') →
    Statement.execute settings (count + 1) (.forLoop location element iterable body) state =
      Evaluation.withChildFrame []
        ((Evaluators.upTo settings count).forEach element.name body (entries.map Entry.key)) state'
  keys : ∀ state, Builtin.keys.call settings.sink [.hash identity entries] state =
    (.ok (.array state.identities (entries.map Entry.key)),
      { state with identities := state.identities + 1 })
  values : ∀ state, Builtin.values.call settings.sink [.hash identity entries] state =
    (.ok (.array state.identities (entries.map Entry.value)),
      { state with identities := state.identities + 1 })
  length : ∃ length, (∀ state, Builtin.len.call settings.sink [.hash identity entries] state =
    (.ok (.integer length), state)) ∧ (entries.length < 2 ^ 63 → length.toInt = entries.length)
  /-- The key of an entry gives its value. -/
  own : ∀ entry ∈ entries, (hash identity entries).index entry.key = .ok entry.value
  member : ∀ key hashKey, key.hashKey? = some hashKey →
    BinaryOperator.member.apply key (.hash identity entries) =
      .ok (.boolean (decide (∃ entry ∈ entries, entry.key.hashKey? = some hashKey)))
  found : ∀ key hashKey, key.hashKey? = some hashKey → ∀ entry ∈ entries,
    entry.key.hashKey? = some hashKey → (hash identity entries).index key = .ok entry.value
  missing : ∀ key hashKey, key.hashKey? = some hashKey →
    (∀ entry ∈ entries, entry.key.hashKey? ≠ some hashKey) →
      (hash identity entries).index key = .ok null
  /-- Deleting a key makes another hash, without the entry that has its hash key. -/
  delete : ∀ key hashKey state, key.hashKey? = some hashKey → ∃ remaining,
    Builtin.delete.call settings.sink [.hash identity entries, key] state =
      (.ok (.hash state.identities remaining),
        { state with identities := state.identities + 1 }) ∧
    ((∃ before old after, old.key.hashKey? = some hashKey ∧ entries = before ++ old :: after ∧
        remaining = before ++ after) ∨
      (∀ entry ∈ entries, entry.key.hashKey? ≠ some hashKey) ∧ remaining = entries) ∧
    Entry.WellFiled remaining ∧
    ∀ other otherKey, other.hashKey? = some otherKey →
      (hash state.identities remaining).index other =
        if otherKey = hashKey then .ok null else (hash identity entries).index other

/-- Well-filed entries are read the same in all ways. -/
theorem Entry.WellFiled.coherent {entries : List Entry} (h : Entry.WellFiled entries)
    (settings : Settings) (identity : Identity) : Value.Coherent settings identity entries where
  filed entry hentry := ⟨h.keyed entry hentry, h.find?_eq_some_iff.2 ⟨hentry, rfl⟩⟩
  kinds entry hentry := Value.hashKey?_isSome_iff.1 (h.isSome hentry)
  loop _ _ _ _ _ _ _ heval := Statement.execute_forLoop heval rfl
  keys _ := rfl
  values _ := rfl
  length := by
    refine ⟨.ofNat entries.length, fun _ => rfl, fun hlength => ?_⟩
    exact Int64.toInt_ofNat_of_lt hlength
  own entry hentry := Value.index_hash_of_mem h hentry (h.keyed entry hentry) (h.keyed entry hentry)
  member key hashKey hkey := by
    simp only [BinaryOperator.apply, Value.contains_hash h hkey]
    rfl
  found _ _ hkey _ hentry := Value.index_hash_of_mem h hentry hkey
  missing _ _ := Value.index_hash_of_not_mem h
  delete key hashKey state hkey := by
    refine ⟨Entry.erase hashKey entries, ?_, ?_, Entry.wellFiled_erase h,
      fun other otherKey hother => ?_⟩
    · simp only [Builtin.call, Builtin.deleteFrom, Builtin.hashArgument, pure_bind, hkey]
      rfl
    · -- which entry is filed under the hash key of `key`, its own key says as well
      rcases Entry.erase_cases hashKey entries with ⟨before, old, after, hold, heq, herase⟩ | hnone
      · have hmem : old ∈ entries := heq ▸ List.mem_append_right before (.head after)
        exact .inl ⟨before, old, after, (h.hashKey_eq_iff hmem).1 hold, heq, herase⟩
      · exact .inr ⟨fun entry hentry hsame =>
          hnone.1 entry hentry ((h.hashKey_eq_iff hentry).2 hsame), hnone.2⟩
    · rw [Value.index_hash hother, Value.index_hash hother, h.find?_erase]
      split <;> rfl

/-- The entries of every hash that a session holds at any time have distinct hash keys, each that of
its own key, which is a number, a string or a boolean. So loops and `keys` give the keys of the
entries in order, `values` their values, `len` their number, a key is in the hash if an entry has
its hash key, and indexing gives the value of that entry, or null without one. Deleting a key takes
that entry out of a new hash and leaves the order and the values of the others. -/
theorem hashes_coherent (settings : Settings) :
    ∀ state atHand, State.Reachable settings state atHand →
      ∀ identity entries, state.Holds atHand (.hash identity entries) →
        Entry.WellFiled entries ∧ Value.Coherent settings identity entries := by
  intro state atHand hreachable identity entries hholds
  have hfiled := hreachable.wellFiled hholds
  exact ⟨hfiled, hfiled.coherent settings identity⟩

end Sessions

/-- A program that binds an array with the hash `{2: "two", 2: "deux"}` in it. -/
def renamedTwo : Program :=
  let place : Location := ⟨1, 1⟩
  let pair (text : String) : Pair := ⟨.integer place "2" 2, .string place text⟩
  ⟨[.letBinding place ⟨"words", place⟩ (.array place [.hash place [pair "two", pair "deux"]])]⟩

open scoped Host in
/-- The hash has one entry, also under the float. -/
theorem hashes_coherent_renamedTwo :
    let state := (Session.run 9 (.new .standard) renamedTwo).2.state
    let words : Value := .hash 0 [⟨⟨.integer, 2⟩, .integer 2, .string "deux"⟩]
    State.Reachable .standard state [] ∧ state.Holds [] words ∧
      words.index (.float 2.0) = .ok (.string "deux") := by
  intro state words
  have hreachable : State.Reachable .standard state [] := .between (.run 9 renamedTwo .new)
  have hholds : state.Holds [] words :=
    .inl ⟨0, ("words", .array 1 [words]), .head _, .tail _ (.head _)⟩
  have hkey : (Value.float 2.0).hashKey? = some ⟨.integer, 2⟩ := by decide +kernel
  exact ⟨hreachable, hholds, (hashes_coherent .standard state [] hreachable 0 _ hholds).2.found
    _ _ hkey _ (.head _) rfl⟩

end Script
