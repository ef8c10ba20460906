import Script.Proofs.Evaluation.Failure
import Script.Proofs.Evaluation.Hashes

/-!
# Hash literals

The pairs of a hash literal are evaluated one after the other, and an entry whose key has the hash
key of an earlier one takes the place of that entry. `Entry.MadeOf` says what is left of the given
keys and values in the end: the places come from the first entry for each hash key, the keys and the
values from the last one. `hash_literals` says that this is the value of the literal, and where its
evaluation ends when a key cannot be one.
-/

namespace Script

open Filter Evaluation

/-! ## Entries filed one after the other -/

namespace Entry

/-- The hash keys of entries, in order. -/
def hashKeys (entries : List Entry) : List HashKey :=
  entries.map Entry.hashKey

theorem mem_hashKeys {entries : List Entry} {hashKey : HashKey} :
    hashKey ∈ hashKeys entries ↔ ∃ entry ∈ entries, entry.hashKey = hashKey :=
  List.mem_map

end Entry

section Literals

variable [Host]

namespace Entry

/-- What is left when the given entries, each with the hash key of its own key, are filed in
order. -/
structure MadeOf (given entries : List Entry) : Prop where
  keyed : ∀ entry ∈ given, entry.key.hashKey? = some entry.hashKey
  /-- There is one entry for each hash key. -/
  filed : WellFiled entries
  /-- The hash keys stand in the order in which they are given first. -/
  order : hashKeys entries = (hashKeys given).eraseDups
  /-- Each entry is the last one that is given for its hash key. -/
  last : ∀ entry ∈ entries, ∃ before after, given = before ++ entry :: after ∧
    ∀ later ∈ after, later.hashKey ≠ entry.hashKey

theorem madeOf_nil : MadeOf [] [] :=
  ⟨List.forall_mem_nil _, wellFiled_nil, rfl, List.forall_mem_nil _⟩

namespace MadeOf

variable {given entries : List Entry} {entry : Entry} {hashKey : HashKey}

/-- The hash keys are those of the given entries. -/
theorem exists_iff (h : MadeOf given entries) :
    (∃ entry ∈ entries, entry.hashKey = hashKey) ↔ ∃ entry ∈ given, entry.hashKey = hashKey := by
  rw [← mem_hashKeys, ← mem_hashKeys, h.order, List.mem_eraseDups]

/-- One more entry for another hash key comes after the last one for an earlier hash key. -/
theorem last_concat (h : MadeOf given entries) {other : Entry} (hother : other ∈ entries)
    (hne : entry.hashKey ≠ other.hashKey) :
    ∃ before after, given ++ [entry] = before ++ other :: after ∧
      ∀ later ∈ after, later.hashKey ≠ other.hashKey := by
  obtain ⟨before, after, rfl, hafter⟩ := h.last other hother
  refine ⟨before, after ++ [entry], by simp, ?_⟩
  exact List.forall_mem_append.2 ⟨hafter, List.forall_mem_singleton.2 hne⟩

/-- Filing one more entry. -/
theorem insert (h : MadeOf given entries) (hkey : entry.key.hashKey? = some entry.hashKey) :
    MadeOf (given ++ [entry]) (Entry.insert entry entries) := by
  have hkeyed : ∀ other ∈ given ++ [entry], other.key.hashKey? = some other.hashKey :=
    List.forall_mem_append.2 ⟨h.keyed, List.forall_mem_singleton.2 hkey⟩
  have hfiled : WellFiled (Entry.insert entry entries) := wellFiled_insert h.filed hkey
  have hkeys : (hashKeys (given ++ [entry])).eraseDups =
      hashKeys entries ++ ([entry.hashKey].removeAll (hashKeys given)).eraseDups := by
    rw [h.order, ← List.eraseDups_append, hashKeys, List.map_append, List.map_singleton]
    rfl
  have hown : ∃ before after, given ++ [entry] = before ++ entry :: after ∧
      ∀ later ∈ after, later.hashKey ≠ entry.hashKey :=
    ⟨given, [], rfl, List.forall_mem_nil _⟩
  rcases insert_cases entry entries with ⟨before, old, after, hold, hentries, heq⟩ | ⟨hall, heq⟩
  · -- the hash key was given before, and keeps its place
    have hgiven : entry.hashKey ∈ hashKeys given :=
      mem_hashKeys.2 (h.exists_iff.1 ⟨old, by simp [hentries], hold⟩)
    have hapart := List.pairwise_append.1 (hentries ▸ h.filed.distinct)
    rw [heq] at hfiled ⊢
    refine ⟨hkeyed, hfiled, ?_, List.forall_mem_append.2 ⟨?_, List.forall_mem_cons.2 ⟨hown, ?_⟩⟩⟩
    · have hnone : [entry.hashKey].removeAll (hashKeys given) = [] := by
        simp [List.removeAll, hgiven]
      rw [hkeys, hnone, hentries]
      simp [hashKeys, hold]
    · intro other hother
      refine h.last_concat (hentries ▸ List.mem_append_left _ hother) fun hsame => ?_
      exact hapart.2.2 other hother old (.head _) (hsame.symm.trans hold.symm)
    · intro other hother
      refine h.last_concat (hentries ▸ List.mem_append_right _ (.tail _ hother)) fun hsame => ?_
      exact (List.pairwise_cons.1 hapart.2.1).1 other hother (hold.trans hsame)
  · have hgiven : entry.hashKey ∉ hashKeys given := by
      intro hmem
      obtain ⟨other, hother, hsame⟩ := h.exists_iff.2 (mem_hashKeys.1 hmem)
      exact hall other hother hsame
    rw [heq] at hfiled ⊢
    refine ⟨hkeyed, hfiled, ?_, List.forall_mem_append.2 ⟨?_, List.forall_mem_singleton.2 hown⟩⟩
    · have hone : [entry.hashKey].removeAll (hashKeys given) = [entry.hashKey] := by
        simp [List.removeAll, hgiven]
      rw [hkeys, hone]
      simp [hashKeys, List.eraseDups_cons]
    · intro other hother
      exact h.last_concat hother fun hsame => hall other hother hsame.symm

/-- A given entry is filed under a hash key exactly when its own key has it. -/
theorem hashKey_eq_iff (h : MadeOf given entries) (hentry : entry ∈ given) :
    entry.hashKey = hashKey ↔ entry.key.hashKey? = some hashKey := by
  rw [h.keyed entry hentry, Option.some.injEq]

/-- A key is indexed to the value of the last entry that is given for its hash key. -/
theorem index_last (h : MadeOf given entries) (identity : Identity) {key : Value}
    (hkey : key.hashKey? = some hashKey) {before after : List Entry}
    (hgiven : given = before ++ entry :: after) (hentry : entry.key.hashKey? = some hashKey)
    (hafter : ∀ later ∈ after, later.key.hashKey? ≠ some hashKey) :
    (Value.hash identity entries).index key = .ok entry.value := by
  have hmem : entry ∈ given := by
    rw [hgiven]
    simp
  have hown : entry.hashKey = hashKey := (h.hashKey_eq_iff hmem).2 hentry
  obtain ⟨found, hfound, hsame⟩ := h.exists_iff.2 ⟨entry, hmem, hown⟩
  have hkeyed : found.key.hashKey? = some hashKey := (h.filed.hashKey_eq_iff hfound).1 hsame
  -- of two last entries for a hash key each comes after the other
  obtain ⟨before', after', hgiven', hafter'⟩ := h.last found hfound
  obtain rfl : found = entry := by
    rw [hgiven, List.append_eq_append_iff] at hgiven'
    rcases hgiven' with ⟨between, -, hsplit⟩ | ⟨between, -, hsplit⟩
    · cases between with
      | nil => exact (List.cons.inj hsplit).1.symm
      | cons first between =>
          refine absurd hkeyed (hafter found ?_)
          rw [(List.cons.inj hsplit).2]
          simp
    · cases between with
      | nil => exact (List.cons.inj hsplit).1
      | cons first between =>
          refine absurd (hown.trans hsame.symm) (hafter' entry ?_)
          rw [(List.cons.inj hsplit).2]
          simp
  exact Value.index_hash_of_mem h.filed hfound hkey hkeyed

/-- A key is indexed to null if no entry is given for its hash key. -/
theorem index_missing (h : MadeOf given entries) (identity : Identity) {key : Value}
    (hkey : key.hashKey? = some hashKey)
    (hnone : ∀ entry ∈ given, entry.key.hashKey? ≠ some hashKey) :
    (Value.hash identity entries).index key = .ok .null := by
  refine Value.index_hash_of_not_mem h.filed hkey fun entry hentry hsame => ?_
  have hown := (h.filed.hashKey_eq_iff hentry).2 hsame
  obtain ⟨other, hother, heq⟩ := h.exists_iff.1 ⟨entry, hentry, hown⟩
  exact hnone other hother ((h.hashKey_eq_iff hother).1 heq)

end MadeOf

end Entry

/-! ## The pairs of a literal -/

/-- The pairs of a hash literal come to the given keys and values, one after the other. All of the
keys can be keys, and have the given hash keys. -/
inductive Pair.Yields (settings : Settings) : List Pair → State → List Entry → State → Prop where
  | nil {state} : Pair.Yields settings [] state [] state
  | cons {pair rest state count key middle hashKey count' value next given last} :
    Expr.evaluate settings count pair.key state = (.ok key, middle) →
    key.hashKey? = some hashKey →
    Expr.evaluate settings count' pair.value middle = (.ok value, next) →
    Pair.Yields settings rest next given last →
    Pair.Yields settings (pair :: rest) state (⟨hashKey, key, value⟩ :: given) last

/-- After some pairs of a literal, the evaluation goes on with what is left of their entries. -/
theorem Pair.Yields.course {settings : Settings} {pairs : List Pair} {state last : State}
    {given filed entries : List Entry} (h : Pair.Yields settings pairs state given last)
    (hentries : Entry.MadeOf filed entries) :
    ∃ entries', Entry.MadeOf (filed ++ given) entries' ∧ ∀ rest,
      (∃ enclosing, Reaches settings (.pairs entries (pairs ++ rest)) state enclosing
        (.pairs entries' rest) last) ∧
      ∀ᶠ count in atTop, (Evaluators.upTo settings count).pairs entries (pairs ++ rest) state =
        (Evaluators.upTo settings count).pairs entries' rest last := by
  induction h generalizing filed entries with
  | nil =>
      rw [List.append_nil]
      exact ⟨entries, hentries, fun rest => ⟨⟨[], .here⟩, .of_forall fun _ => rfl⟩⟩
  | @cons pair others state _ key middle hashKey _ value next given last hkey hhash hvalue _ ih =>
      have hmore : Entry.MadeOf (filed ++ [⟨hashKey, key, value⟩]) _ := hentries.insert hhash
      obtain ⟨entries', hmade, hcourse⟩ := ih hmore
      refine ⟨entries', by simpa using hmade, fun rest => ?_⟩
      obtain ⟨⟨enclosing, hreaches⟩, heventually⟩ := hcourse rest
      have hfirst : Reaches settings (.pairs entries (pair :: (others ++ rest))) state _ _ next :=
        .starts .here (.restPairs hkey hhash hvalue)
      refine ⟨⟨_, hfirst.trans hreaches⟩, ?_⟩
      filter_upwards [heventually, (Expr.steady _ _).ok hkey, (Expr.steady _ _).ok hvalue]
        with count hrest hkey hvalue
      simp only [List.cons_append, Evaluators.pairs, bind_apply, hkey, hhash, hvalue, hrest]

/-- A key that cannot be one ends the evaluation of the pairs, before the value of its pair. -/
theorem Expr.pairs_unhashable {settings : Settings} (entries : List Entry) {pair : Pair}
    (rest : List Pair) {state last : State} {count : Nat} {key : Value}
    (hkey : Expr.evaluate settings count pair.key state = (.ok key, last))
    (hhash : key.hashKey? = none) :
    ∀ᶠ count in atTop,
      (Evaluators.upTo settings count).pairs entries (pair :: rest) state =
        (.error (.raised (.unhashable key.kind)), last) ∧
      (Task.pairs entries (pair :: rest)).parts settings count state =
        [(.expr pair.key, state)] := by
  filter_upwards [(Expr.steady _ _).ok hkey] with count hkey
  refine ⟨?_, by simp [Task.parts, onward, hkey, hhash]⟩
  simp only [Evaluators.pairs, bind_apply, hkey, hhash]
  rfl

/-- What a hash literal comes to.

When all of its pairs come to a key and a value, and all keys can be keys, its value is a new hash
that is made of them: one entry for each hash key, in the order in which the hash keys come first,
each with the key and the value of the last pair that has the hash key. So a key is indexed to the
value of the last pair with its hash key, and to null if there is none; what has no hash key cannot
be looked for.

The first key that cannot be one raises a fault right after its own evaluation: that is the last
part of the pairs to be started, and nothing has changed since it ended. -/
theorem hash_literals (settings : Settings) :
    (∀ location pairs state given last, Pair.Yields settings pairs state given last →
      ∃ entries, Entry.MadeOf given entries ∧
        (∀ᶠ count in atTop, Expr.evaluate settings count (.hash location pairs) state =
          (.ok (.hash last.identities entries),
            { last with identities := last.identities + 1 })) ∧
        let made := Value.hash last.identities entries
        (∀ key hashKey, key.hashKey? = some hashKey →
          (∀ before entry after, given = before ++ entry :: after →
            entry.key.hashKey? = some hashKey →
            (∀ later ∈ after, later.key.hashKey? ≠ some hashKey) →
              made.index key = .ok entry.value) ∧
          ((∀ entry ∈ given, entry.key.hashKey? ≠ some hashKey) → made.index key = .ok .null)) ∧
        ∀ key, key.hashKey? = none → made.index key = .error (.unhashable key.kind)) ∧
    (∀ location before pair rest state given middle count key last,
      Pair.Yields settings before state given middle →
      Expr.evaluate settings count pair.key middle = (.ok key, last) → key.hashKey? = none →
        (∀ᶠ count in atTop,
          Expr.evaluate settings count (.hash location (before ++ pair :: rest)) state =
            (.error (.raised (.unhashable key.kind)), last)) ∧
        ∃ entries enclosing, Entry.MadeOf given entries ∧
          Reaches settings (.expr (.hash location (before ++ pair :: rest))) state enclosing
            (.pairs entries (pair :: rest)) middle ∧
          ∀ᶠ count in atTop, (Task.pairs entries (pair :: rest)).parts settings count middle =
            [(.expr pair.key, middle)]) := by
  constructor
  · intro location pairs state given last hyields
    obtain ⟨entries, hmade, hcourse⟩ := hyields.course Entry.madeOf_nil
    obtain ⟨-, heventually⟩ := hcourse []
    obtain ⟨count, hcount⟩ := heventually.exists
    rw [List.append_nil] at hcount
    have heval : Expr.evaluate settings (count + 1) (.hash location pairs) state =
        (.ok (.hash last.identities entries), { last with identities := last.identities + 1 }) := by
      simp only [Expr.evaluate, Evaluators.evaluate, bind_apply, hcount]
      rfl
    refine ⟨entries, hmade, (Expr.steady _ _).ok heval, fun key hashKey hkey => ⟨?_, ?_⟩, ?_⟩
    · intro earlier entry after hgiven hentry hafter
      exact hmade.index_last _ hkey hgiven hentry hafter
    · exact hmade.index_missing _ hkey
    · intro key hkey
      simp only [Value.index, hkey]
  · intro location before pair rest state given middle count key last hyields hkey hhash
    obtain ⟨entries, hmade, hcourse⟩ := hyields.course Entry.madeOf_nil
    obtain ⟨⟨enclosing, hreaches⟩, heventually⟩ := hcourse (pair :: rest)
    have hlast := Expr.pairs_unhashable entries rest hkey hhash
    refine ⟨?_, entries, _, hmade, (Reaches.starts .here .hash).trans hreaches,
      hlast.mono fun _ h => h.2⟩
    obtain ⟨count, hcount, hfault, -⟩ := (heventually.and hlast).exists
    have heval : Expr.evaluate settings (count + 1) (.hash location (before ++ pair :: rest))
        state = (.error (.raised (.unhashable key.kind)), last) := by
      simp only [Expr.evaluate, Evaluators.evaluate, bind_apply, hcount, hfault]
    exact Expr.steady _ _ heval fun hcause => by cases hcause

end Literals

/-- The pairs of `{1: "one", 2: "two", 1.0: "eins"}`, and one whose key is an array. -/
def numberWords : List Pair × Pair :=
  let place : Location := ⟨1, 1⟩
  ([⟨.integer place "1" 1, .string place "one"⟩, ⟨.integer place "2" 2, .string place "two"⟩,
      ⟨.float place "1.0" 1.0, .string place "eins"⟩],
    ⟨.array place [], .string place "none"⟩)

open scoped Host in
/-- The float takes the place of the first integer. An array among the keys is a fault, and the
array has been made by then. -/
theorem hash_literals_numberWords :
    let place : Location := ⟨1, 1⟩
    let given : List Entry := [⟨⟨.integer, 1⟩, .integer 1, .string "one"⟩,
      ⟨⟨.integer, 2⟩, .integer 2, .string "two"⟩, ⟨⟨.integer, 1⟩, .float 1.0, .string "eins"⟩]
    Pair.Yields .standard numberWords.1 .initial given .initial ∧
      (∃ entries, Entry.MadeOf given entries ∧
        (Value.hash 0 entries).index (.integer 1) = .ok (.string "eins")) ∧
      ∀ᶠ count in atTop, Expr.evaluate .standard count
        (.hash place (numberWords.1 ++ [numberWords.2])) .initial =
          (.error (.raised (.unhashable .array)), { State.initial with identities := 1 }) := by
  intro place given
  have hfloat : (Value.float 1.0).hashKey? = some ⟨.integer, 1⟩ := by decide +kernel
  -- the keys and values are literals, which take one evaluation each
  have hliteral {expr : Expr} {value : Value}
      (h : Expr.evaluate .standard 1 expr .initial = (.ok value, .initial)) := h
  have hyields : Pair.Yields .standard numberWords.1 .initial given .initial :=
    .cons (hliteral rfl) rfl (hliteral rfl) (.cons (hliteral rfl) rfl (hliteral rfl)
      (.cons (hliteral rfl) hfloat (hliteral rfl) .nil))
  obtain ⟨hvalues, hfaults⟩ := hash_literals .standard
  refine ⟨hyields, ?_, ?_⟩
  · obtain ⟨entries, hmade, -, hindex, -⟩ := hvalues place _ _ _ _ hyields
    obtain ⟨hlast, -⟩ := hindex (.integer 1) ⟨.integer, 1⟩ rfl
    refine ⟨entries, hmade, hlast (given.take 2) ⟨⟨.integer, 1⟩, .float 1.0, .string "eins"⟩ [] rfl
      hfloat ?_⟩
    exact List.forall_mem_nil _
  · have harray : Expr.evaluate .standard 2 numberWords.2.key .initial =
        (.ok (.array 0 []), { State.initial with identities := 1 }) := rfl
    exact (hfaults place _ numberWords.2 [] _ _ _ _ _ _ hyields harray rfl).1

end Script
