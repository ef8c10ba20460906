import Mathlib.Data.List.TakeWhile
import Script.Token.Stream

/-!
# Spellings

A name, a number or a word is scanned again from its spelling wherever it stands, provided that no
word or number goes on after it, and so is a text from its quoted form. `Scan.next_legible` says so
of every lexeme that was scanned once.
-/

namespace Script

/-- No word or number goes on into these characters. -/
def Ends (rest : List Char) : Prop :=
  ∀ c ∈ rest.head?, Scan.continuesIdentifier c = false ∧ Scan.continuesNumber c = false

theorem Ends.nil : Ends [] := fun _ h => by cases h

theorem Ends.cons {c : Char} {rest : List Char} (hword : Scan.continuesIdentifier c = false)
    (hnumber : Scan.continuesNumber c = false) : Ends (c :: rest) := by
  intro d hd
  cases hd
  exact ⟨hword, hnumber⟩

/-- A run of characters ends where none of its kind follows. -/
theorem takeWhile_run {p : Char → Bool} {run rest : List Char} (hrun : ∀ c ∈ run, p c = true)
    (hrest : ∀ c ∈ rest.head?, p c = false) :
    (run ++ rest).takeWhile p = run ∧ (run ++ rest).dropWhile p = rest := by
  rw [List.takeWhile_append_of_pos hrun, List.dropWhile_append_of_pos hrun]
  cases rest with
  | nil => simp
  | cons c rest =>
      have hc : p c = false := hrest c rfl
      simp [hc]

/-- The characters of texts with something between them. -/
theorem intercalate_toList (between first : String) (rest : List String) :
    (between.intercalate (first :: rest)).toList =
      first.toList ++ rest.flatMap fun text => between.toList ++ text.toList := by
  induction rest generalizing first with
  | nil => simp
  | cons second rest ih =>
      rw [String.intercalate_cons_cons, String.toList_append, String.toList_append, ih second]
      simp

/-- The lexeme is scanned from these characters in front of every rest that ends it. -/
def Lexeme.SpelledBy (lexeme : Lexeme) (chars : List Char) : Prop :=
  ∃ c tail, chars = c :: tail ∧ Stream.separates c = false ∧
    ∀ place rest, Ends rest →
      ∃ reached, Scan.next place c (tail ++ rest) = .lexeme lexeme rest reached

/-- Lexemes of a scanned text, where names and numbers are spelled by their literals. -/
def Lexeme.Legible (lexeme : Lexeme) : Prop :=
  match lexeme with
  | .identifier _ | .integer _ | .float _ => lexeme.SpelledBy lexeme.literal.toList
  | .string _ | .word _ | .mark _ | .illegal _ => True
  | .eof => False

/-! ## Escapes -/

/-- The contents that stand between quotes as `written`. -/
inductive Text.Unescapes : (written contents : List Char) → Prop where
  | nil : Text.Unescapes [] []
  | plain {c : Char} {written contents : List Char} :
    c ≠ '"' → c ≠ '\\' → Text.Unescapes written contents →
    Text.Unescapes (c :: written) (c :: contents)
  | escape {sign c : Char} {written contents : List Char} :
    Text.unescape? sign = some c → Text.Unescapes written contents →
    Text.Unescapes ('\\' :: sign :: written) (c :: contents)

/-- Escaped characters stand for themselves. -/
theorem Text.unescapes_escape (contents : List Char) :
    Text.Unescapes (contents.flatMap Text.escape) contents := by
  induction contents with
  | nil => exact .nil
  | cons c contents ih =>
      rw [List.flatMap_cons]
      cases hsign : Text.escapeSign? c with
      | some sign =>
          have hescape : Text.escape c = ['\\', sign] := by simp [Text.escape, hsign]
          rw [hescape]
          exact .escape (Text.unescape?_of_escapeSign? hsign) ih
      | none =>
          have hescape : Text.escape c = [c] := by simp [Text.escape, hsign]
          obtain ⟨hquote, hslash⟩ := Text.ne_of_escapeSign?_eq_none hsign
          rw [hescape]
          exact .plain hquote hslash ih

namespace Scan

/-! ## Marks -/

/-- A mark is told by its first character. -/
theorem mark?_eq_none_iff {c : Char} {rest : List Char} :
    mark? c rest = none ↔ single? c = none := by
  unfold mark?
  cases rest with
  | nil => simp
  | cons d rest =>
      cases hdouble : double? c d with
      | none => simp [hdouble]
      | some mark =>
          have hsingle : single? c ≠ none := by
            unfold double? at hdouble
            split at hdouble <;> simp_all [single?]
          simp [hdouble, hsingle]

/-- A mark leaves the characters after it. -/
theorem mark?_shorter {c : Char} {rest after : List Char} {mark : Mark}
    (h : mark? c rest = some (mark, after)) : after.length ≤ rest.length := by
  unfold mark? at h
  cases rest with
  | nil =>
      obtain ⟨_, _, heq⟩ := Option.map_eq_some_iff.1 h
      cases heq
      exact Nat.le_refl _
  | cons d rest =>
      cases hdouble : double? c d with
      | none =>
          simp only [hdouble] at h
          obtain ⟨_, _, heq⟩ := Option.map_eq_some_iff.1 h
          cases heq
          exact Nat.le_refl _
      | some mark =>
          simp only [hdouble] at h
          cases h
          exact Nat.le_succ _

/-- The first character of a mark is no blank. -/
theorem separates_of_single {c : Char} {mark : Mark} (h : single? c = some mark) :
    Stream.separates c = false := by
  unfold single? at h
  split at h <;> first | rfl | cases h

/-- A mark of one character, in front of characters that make no longer mark of it. -/
theorem next_mark {c : Char} {mark : Mark} (place : Location) {rest : List Char}
    (hsingle : single? c = some mark) (hdouble : ∀ d ∈ rest.head?, double? c d = none) :
    next place c rest = .lexeme (.mark mark) rest (place.right mark.spelling.length) := by
  have hmark : mark? c rest = some (mark, rest) := by
    unfold mark?
    cases rest with
    | nil => simp [hsingle]
    | cons d rest =>
        have hnone : double? c d = none := hdouble d rfl
        simp [hsingle, hnone]
  unfold next
  rw [hmark]

/-! ## Words and numbers -/

/-- Characters that are scanned as a word. -/
structure IsWord (c : Char) (tail : List Char) : Prop where
  mark : single? c = none
  quote : c ≠ '"'
  digit : c.isDigit = false
  starts : startsIdentifier c = true
  continues : ∀ d ∈ tail, continuesIdentifier d = true

/-- Characters that are scanned as a number. -/
structure IsNumber (c : Char) (tail : List Char) : Prop where
  mark : single? c = none
  quote : c ≠ '"'
  digit : c.isDigit = true
  continues : ∀ d ∈ tail, continuesNumber d = true

variable {c : Char} {tail rest : List Char} {place : Location}

theorem next_word (h : IsWord c tail) (hends : ∀ d ∈ rest.head?, continuesIdentifier d = false) :
    next place c (tail ++ rest) =
      .lexeme (word (String.ofList (c :: tail))) rest (place.right (c :: tail).length) := by
  have hmark : mark? c (tail ++ rest) = none := mark?_eq_none_iff.2 h.mark
  obtain ⟨htake, hdrop⟩ := takeWhile_run h.continues hends
  unfold next
  rw [hmark]
  simp [h.quote, h.digit, h.starts, htake, hdrop]

theorem next_number (h : IsNumber c tail) (hends : ∀ d ∈ rest.head?, continuesNumber d = false) :
    next place c (tail ++ rest) =
      .lexeme (number (c :: tail)) rest (place.right (c :: tail).length) := by
  have hmark : mark? c (tail ++ rest) = none := mark?_eq_none_iff.2 h.mark
  obtain ⟨htake, hdrop⟩ := takeWhile_run h.continues hends
  unfold next
  rw [hmark]
  simp [h.quote, h.digit, htake, hdrop]

/-- A character that starts a word or a number is no blank. -/
theorem separates_of_starts (h : startsIdentifier c = true ∨ c.isDigit = true) :
    Stream.separates c = false := by
  by_cases hblank : c = ' ' ∨ c = '\t' ∨ c = '\r' ∨ c = '\n'
  · -- no blank starts either of them
    rcases hblank with rfl | rfl | rfl | rfl <;> revert h <;> decide
  · simpa [Stream.separates, and_assoc] using hblank

theorem IsWord.spelledBy (h : IsWord c tail) :
    (word (String.ofList (c :: tail))).SpelledBy (c :: tail) :=
  ⟨c, tail, rfl, separates_of_starts (.inl h.starts), fun _ _ hends =>
    ⟨_, next_word h fun d hd => (hends d hd).1⟩⟩

theorem IsNumber.spelledBy (h : IsNumber c tail) :
    (number (c :: tail)).SpelledBy (c :: tail) :=
  ⟨c, tail, rfl, separates_of_starts (.inr h.digit), fun _ _ hends =>
    ⟨_, next_number h fun d hd => (hends d hd).2⟩⟩

/-- Reserved words are spelled like other words. -/
theorem keyword_isWord (keyword : Keyword) :
    ∃ c tail, keyword.spelling.toList = c :: tail ∧ IsWord c tail ∧
      word (String.ofList (c :: tail)) = .word keyword := by
  have hword : word keyword.spelling = .word keyword := by
    unfold word
    rw [Keyword.ofSpelling?_eq_some_iff.2 rfl]
  obtain ⟨c, tail, hspelling, hshape⟩ :
      ∃ c tail, keyword.spelling.toList = c :: tail ∧ IsWord c tail := by
    cases keyword <;>
      exact ⟨_, _, rfl, by decide, by decide, by decide, by decide, List.all_eq_true.1 (by decide)⟩
  refine ⟨c, tail, hspelling, hshape, ?_⟩
  rw [← hspelling, String.ofList_toList, hword]

/-- A reserved word is scanned from its spelling. -/
theorem keyword_spelledBy (keyword : Keyword) :
    (Lexeme.word keyword).SpelledBy keyword.spelling.toList := by
  obtain ⟨c, tail, hspelling, hshape, hword⟩ := keyword_isWord keyword
  rw [hspelling, ← hword]
  exact hshape.spelledBy

/-! ## Strings -/

/-- A string literal is read from what is written between its quotes. -/
theorem string_written {written contents : List Char} (h : Text.Unescapes written contents) :
    ∀ (read : List Char) (place : Location), ∃ reached,
      string read place (written ++ '"' :: rest) =
        .lexeme (.string (String.ofList (read.reverse ++ contents))) rest reached := by
  induction h with
  | nil =>
      intro read place
      exact ⟨place.right 1, by simp [string]⟩
  | @plain c written contents hquote hslash _ ih =>
      intro read place
      obtain ⟨reached, hread⟩ := ih (c :: read) (place.after c)
      refine ⟨reached, ?_⟩
      rw [List.cons_append, string]
      · simpa using hread
      all_goals intros; simp_all
  | @escape sign c written contents hsign _ ih =>
      intro read place
      obtain ⟨reached, hread⟩ := ih (c :: read) (place.right 2)
      refine ⟨reached, ?_⟩
      rw [List.cons_append, List.cons_append, string, hsign]
      simpa using hread

/-- A text is scanned from what is written for it between quotes, whatever follows. -/
theorem next_written {written contents : List Char} (h : Text.Unescapes written contents)
    (place : Location) (rest : List Char) :
    ∃ reached, next place '"' (written ++ ['"'] ++ rest) =
      .lexeme (.string (String.ofList contents)) rest reached := by
  obtain ⟨reached, hread⟩ := string_written h [] (place.right 1)
  refine ⟨reached, ?_⟩
  have hmark : mark? '"' (written ++ '"' :: rest) = none := mark?_eq_none_iff.2 rfl
  rw [List.append_assoc, List.singleton_append]
  unfold next
  rw [hmark]
  simpa using hread

theorem written_spelledBy {written contents : List Char} (h : Text.Unescapes written contents) :
    (Lexeme.string (String.ofList contents)).SpelledBy ('"' :: (written ++ ['"'])) :=
  ⟨'"', written ++ ['"'], rfl, rfl, fun place rest _ => next_written h place rest⟩

/-- A text is scanned from its quoted form. -/
theorem quoted_spelledBy (value : String) :
    (Lexeme.string value).SpelledBy (Text.quoted value).toList := by
  have hspelled := written_spelledBy (Text.unescapes_escape value.toList)
  rw [String.ofList_toList] at hspelled
  rwa [Text.quoted, String.toList_ofList]

/-- A string literal is followed by some of the characters after its quote. -/
theorem string_shorter {read chars : List Char} {place : Location} {lexeme : Lexeme}
    {after : List Char} {reached : Location}
    (h : string read place chars = .lexeme lexeme after reached) :
    after.length ≤ chars.length ∧ lexeme.Legible := by
  fun_induction string read place chars with
  | case1 | case3 | case5 => cases h
  | case2 =>
      cases h
      exact ⟨Nat.le_succ _, trivial⟩
  | case4 read place sign rest c hsign ih =>
      obtain ⟨hshorter, hlegible⟩ := ih h
      exact ⟨by simp only [List.length_cons]; omega, hlegible⟩
  | case6 read place c rest _ _ _ ih =>
      obtain ⟨hshorter, hlegible⟩ := ih h
      exact ⟨hshorter.trans (Nat.le_succ _), hlegible⟩

/-! ## Scanned lexemes -/

/-- A name is spelled by itself. -/
theorem IsWord.legible (h : IsWord c tail) : (word (String.ofList (c :: tail))).Legible := by
  have hspelled := h.spelledBy
  unfold word at hspelled ⊢
  split
  · trivial
  · next hkeyword =>
      rw [hkeyword] at hspelled
      show Lexeme.SpelledBy _ (String.toList _)
      rwa [Lexeme.literal, String.toList_ofList]

/-- A number is spelled by itself. -/
theorem IsNumber.legible (h : IsNumber c tail) : (number (c :: tail)).Legible := by
  have hspelled := h.spelledBy
  unfold number at hspelled ⊢
  by_cases hdot : (c :: tail).contains '.' = true
  · rw [if_pos hdot] at hspelled ⊢
    show Lexeme.SpelledBy _ (String.toList _)
    rwa [Lexeme.literal, String.toList_ofList]
  · rw [if_neg hdot] at hspelled ⊢
    show Lexeme.SpelledBy _ (String.toList _)
    rwa [Lexeme.literal, String.toList_ofList]

/-- Scanning moves on, and gives a lexeme that can be scanned again. -/
theorem next_legible {lexeme : Lexeme} {after : List Char} {reached : Location}
    (h : next place c rest = .lexeme lexeme after reached) :
    after.length ≤ rest.length ∧ lexeme.Legible := by
  unfold next at h
  cases hmark : mark? c rest with
  | some found =>
      rw [hmark] at h
      cases h
      exact ⟨mark?_shorter hmark, trivial⟩
  | none =>
      rw [hmark] at h
      have hsingle : single? c = none := mark?_eq_none_iff.1 hmark
      dsimp only at h
      -- the character starts a text, a number or a word, or nothing at all
      split_ifs at h with hquote hdigit hstarts
      · exact string_shorter h
      · cases h
        exact ⟨List.length_dropWhile_le _ _, IsNumber.legible
          ⟨hsingle, hquote, hdigit, fun d hd => List.mem_takeWhile_imp hd⟩⟩
      · cases h
        exact ⟨List.length_dropWhile_le _ _, IsWord.legible
          ⟨hsingle, hquote, by simpa using hdigit, hstarts, fun d hd => List.mem_takeWhile_imp hd⟩⟩
      · cases h
        exact ⟨Nat.le_refl _, trivial⟩

end Scan

end Script
