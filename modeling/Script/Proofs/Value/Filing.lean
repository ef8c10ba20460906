import Script.Value.Sequence

/-!
# Entries of hashes

The entries of a hash are well filed when each of them is filed under the hash key of its own key,
and no two of them under the same one. Filing and removing entries keeps them so. A look-up in
well-filed entries finds exactly the entry that is filed under the hash key looked for, which the
position of the entry, `Entry.find?` and `Entry.erase` agree on.
-/

namespace Script

/-- Only numbers, strings and booleans can be keys. -/
theorem Value.hashKey?_isSome_iff [Host] {value : Value} :
    value.hashKey?.isSome ↔ value.kind ∈ [.integer, .float, .string, .boolean] := by
  cases value with
  | float x =>
      rw [hashKey?]
      split <;> simp [kind]
  | integer | string | boolean | array | hash | null | function | builtin | error =>
      simp [hashKey?, kind]

namespace Entry

theorem filedUnder_eq_true_iff {hashKey : HashKey} {entry : Entry} :
    entry.filedUnder hashKey = true ↔ entry.hashKey = hashKey :=
  decide_eq_true_iff

/-- An entry takes the place of the one that was filed under its hash key before, or goes to the
end. -/
theorem insert_cases (entry : Entry) (entries : List Entry) :
    (∃ before old after, old.hashKey = entry.hashKey ∧ entries = before ++ old :: after ∧
      insert entry entries = before ++ entry :: after) ∨
    (∀ other ∈ entries, other.hashKey ≠ entry.hashKey) ∧
      insert entry entries = entries ++ [entry] := by
  induction entries with
  | nil => exact .inr ⟨List.forall_mem_nil _, rfl⟩
  | cons first rest ih =>
      by_cases hfirst : first.filedUnder entry.hashKey = true
      · exact .inl ⟨[], first, rest, filedUnder_eq_true_iff.1 hfirst, rfl, by simp [insert, hfirst]⟩
      · have hne : first.hashKey ≠ entry.hashKey := fun h => hfirst (filedUnder_eq_true_iff.2 h)
        have hinsert : insert entry (first :: rest) = first :: insert entry rest := by
          simp [insert, hfirst]
        rcases ih with ⟨before, old, after, hold, hrest, heq⟩ | ⟨hall, heq⟩
        · refine .inl ⟨first :: before, old, after, hold, ?_, ?_⟩
          · rw [hrest, List.cons_append]
          · rw [hinsert, heq, List.cons_append]
        · refine .inr ⟨List.forall_mem_cons.2 ⟨hne, hall⟩, ?_⟩
          rw [hinsert, heq, List.cons_append]

/-- Removing the entry of a hash key removes one entry, or nothing if there is none. -/
theorem erase_cases (hashKey : HashKey) (entries : List Entry) :
    (∃ before old after, old.hashKey = hashKey ∧ entries = before ++ old :: after ∧
      erase hashKey entries = before ++ after) ∨
    (∀ other ∈ entries, other.hashKey ≠ hashKey) ∧ erase hashKey entries = entries := by
  by_cases h : ∃ entry ∈ entries, entry.filedUnder hashKey = true
  · obtain ⟨entry, hentry, hfiled⟩ := h
    obtain ⟨old, before, after, -, hold, hentries, herase⟩ := List.exists_of_eraseP hentry hfiled
    exact .inl ⟨before, old, after, filedUnder_eq_true_iff.1 hold, hentries, herase⟩
  · have hnone : ∀ entry ∈ entries, ¬ entry.filedUnder hashKey = true :=
      fun entry hentry hfiled => h ⟨entry, hentry, hfiled⟩
    refine .inr ⟨fun other hother hkey => ?_, List.eraseP_of_forall_not hnone⟩
    exact hnone other hother (filedUnder_eq_true_iff.2 hkey)

theorem find?_eq_none_iff {hashKey : HashKey} {entries : List Entry} :
    find? hashKey entries = none ↔ ∀ entry ∈ entries, entry.hashKey ≠ hashKey := by
  simp only [find?, List.find?_eq_none, filedUnder_eq_true_iff, ne_eq]

theorem find?_isSome_iff {hashKey : HashKey} {entries : List Entry} :
    (find? hashKey entries).isSome ↔ ∃ entry ∈ entries, entry.hashKey = hashKey := by
  simp only [find?, List.find?_isSome, filedUnder_eq_true_iff]

/-! ## Keeping entries well filed -/

variable [Host]

/-- Each entry is filed under the hash key of its own key, and each hash key has one entry. -/
structure WellFiled (entries : List Entry) : Prop where
  keyed : ∀ entry ∈ entries, entry.key.hashKey? = some entry.hashKey
  distinct : entries.Pairwise fun first second => first.hashKey ≠ second.hashKey

theorem wellFiled_nil : WellFiled [] := ⟨List.forall_mem_nil _, .nil⟩

theorem wellFiled_insert {entry : Entry} {entries : List Entry} (h : WellFiled entries)
    (hkey : entry.key.hashKey? = some entry.hashKey) : WellFiled (insert entry entries) := by
  rcases insert_cases entry entries with ⟨before, old, after, hold, rfl, heq⟩ | ⟨hall, heq⟩
  · -- the new entry has the hash key of the one that it replaces
    have hkeys := List.forall_mem_append.1 h.keyed
    have hdistinct := List.pairwise_append.1 h.distinct
    have hafter := List.pairwise_cons.1 hdistinct.2.1
    rw [heq]
    refine ⟨List.forall_mem_append.2 ⟨hkeys.1, List.forall_mem_cons.2 ⟨hkey, ?_⟩⟩,
      List.pairwise_append.2 ⟨hdistinct.1, List.pairwise_cons.2 ⟨?_, hafter.2⟩, ?_⟩⟩
    · exact (List.forall_mem_cons.1 hkeys.2).2
    · rw [← hold]
      exact hafter.1
    · intro first hfirst
      obtain ⟨hreplaced, hrest⟩ := List.forall_mem_cons.1 (hdistinct.2.2 first hfirst)
      exact List.forall_mem_cons.2 ⟨hold ▸ hreplaced, hrest⟩
  · rw [heq]
    refine ⟨List.forall_mem_append.2 ⟨h.keyed, List.forall_mem_singleton.2 hkey⟩,
      List.pairwise_append.2 ⟨h.distinct, List.pairwise_singleton .., ?_⟩⟩
    exact fun first hfirst => List.forall_mem_singleton.2 (hall first hfirst)

theorem wellFiled_erase {hashKey : HashKey} {entries : List Entry} (h : WellFiled entries) :
    WellFiled (erase hashKey entries) :=
  ⟨fun entry hentry => h.keyed entry (List.mem_of_mem_eraseP hentry),
    h.distinct.sublist List.eraseP_sublist⟩

/-! ## Look-ups -/

namespace WellFiled

variable {entries : List Entry}

/-- The key of an entry can be a key. -/
theorem isSome (h : WellFiled entries) {entry : Entry} (hentry : entry ∈ entries) :
    entry.key.hashKey?.isSome := by
  rw [h.keyed entry hentry]
  rfl

/-- An entry is filed under a hash key exactly when its own key has it. -/
theorem hashKey_eq_iff (h : WellFiled entries) {entry : Entry} (hentry : entry ∈ entries)
    {hashKey : HashKey} : entry.hashKey = hashKey ↔ entry.key.hashKey? = some hashKey := by
  rw [h.keyed entry hentry, Option.some.injEq]

/-- An entry is determined by its hash key. -/
theorem eq_of_hashKey_eq (h : WellFiled entries) {first second : Entry} (hfirst : first ∈ entries)
    (hsecond : second ∈ entries) (hkey : first.hashKey = second.hashKey) : first = second := by
  obtain ⟨i, hi, rfl⟩ := List.getElem_of_mem hfirst
  obtain ⟨j, hj, rfl⟩ := List.getElem_of_mem hsecond
  have hapart := List.pairwise_iff_getElem.1 h.distinct
  rcases Nat.lt_trichotomy i j with hlt | rfl | hgt
  · exact absurd hkey (hapart i j hi hj hlt)
  · rfl
  · exact absurd hkey.symm (hapart j i hj hi hgt)

/-- A look-up finds the entry that is filed under the hash key looked for. -/
theorem find?_eq_some_iff (h : WellFiled entries) {hashKey : HashKey} {entry : Entry} :
    find? hashKey entries = some entry ↔ entry ∈ entries ∧ entry.hashKey = hashKey := by
  constructor
  · intro hfind
    exact ⟨List.mem_of_find?_eq_some hfind, filedUnder_eq_true_iff.1 (List.find?_some hfind)⟩
  · rintro ⟨hentry, hkey⟩
    obtain ⟨found, hfind⟩ : ∃ found, find? hashKey entries = some found :=
      Option.isSome_iff_exists.1
        (List.find?_isSome.2 ⟨entry, hentry, filedUnder_eq_true_iff.2 hkey⟩)
    have hfound := filedUnder_eq_true_iff.1 (List.find?_some hfind)
    rw [hfind,
      h.eq_of_hashKey_eq (List.mem_of_find?_eq_some hfind) hentry (hfound.trans hkey.symm)]

/-- After the entry of a hash key was removed, nothing is found under it, and under every other one
what was found before. -/
theorem find?_erase (h : WellFiled entries) (hashKey other : HashKey) :
    find? other (erase hashKey entries) =
      if other = hashKey then none else find? other entries := by
  rcases erase_cases hashKey entries with ⟨before, old, after, hold, rfl, heq⟩ | ⟨hall, heq⟩
  · by_cases hother : other = hashKey
    · subst hother
      -- the one entry of the hash key is gone
      rw [if_pos rfl, find?_eq_none_iff]
      intro entry hentry hkey
      rw [heq] at hentry
      obtain ⟨hbefore, hafter, hapart⟩ := List.pairwise_append.1 h.distinct
      rcases List.mem_append.1 hentry with hentry | hentry
      · exact hapart entry hentry old (.head _) (hkey.trans hold.symm)
      · exact (List.pairwise_cons.1 hafter).1 entry hentry (hold.trans hkey.symm)
    · have hskip : ¬ old.filedUnder other = true := by
        rw [filedUnder_eq_true_iff, hold]
        exact Ne.symm hother
      rw [if_neg hother, heq, find?, find?, List.find?_append, List.find?_append, List.find?_cons]
      simp only [hskip]
  · rw [heq]
    split
    · next hother => exact find?_eq_none_iff.2 (hother ▸ hall)
    · rfl

end WellFiled

end Entry

end Script
