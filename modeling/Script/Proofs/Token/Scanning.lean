import Script.Proofs.Token.Spelling

/-!
# Tokens of characters

`Scans` tells which tokens a list of characters gives, whatever the number of pulls, and its lemmas
take the first token off that list. The tokens of a text are those of its characters, and every one
of them can be scanned again: `scans_scan` and `scan_legible`.
-/

namespace Script

/-- Pulling takes a character off the stream unless it ends. -/
theorem Stream.pull_shorter {stream next : Stream} {token : Token}
    (h : stream.pull = (some token, next)) (hmore : token.lexeme ≠ .eof) :
    next.rest.length < stream.rest.length ∧ token.lexeme.Legible := by
  unfold pull at h
  split at h
  · have hblank : (stream.rest.dropWhile separates).length ≤ stream.rest.length :=
      List.length_dropWhile_le _ _
    dsimp only at h
    split at h
    · cases h
      exact absurd rfl hmore
    · next c rest hdrop =>
        rw [hdrop] at hblank
        split at h
        · next hnext =>
            cases h
            obtain ⟨hshorter, hlegible⟩ := Scan.next_legible hnext
            exact ⟨Nat.lt_of_le_of_lt hshorter (Nat.lt_of_succ_le hblank), hlegible⟩
        · cases h
  · cases h

/-- Pulls beyond the number of characters change nothing. -/
theorem Stream.drain_enough {count more : Nat} {stream : Stream}
    (hcount : stream.rest.length < count) (hmore : stream.rest.length < more) :
    stream.drain count = stream.drain more := by
  induction count generalizing more stream with
  | zero => cases hcount
  | succ count ih =>
      cases more with
      | zero => cases hmore
      | succ more =>
          rw [drain, drain]
          split
          · rfl
          · next token next hpull =>
              by_cases hend : token.lexeme = .eof
              · rw [if_pos hend, if_pos hend]
              · -- the token was not the last one, so fewer characters are left than before it
                rw [if_neg hend, if_neg hend]
                obtain ⟨hshorter, _⟩ := pull_shorter hpull hend
                have hrest : drain count next = drain more next := ih (by omega) (by omega)
                rw [hrest]

/-- Every scanned token is legible. -/
theorem Stream.drain_legible (count : Nat) (stream : Stream) :
    ∀ token ∈ (stream.drain count).1, token.lexeme.Legible := by
  induction count generalizing stream with
  | zero => exact List.forall_mem_nil _
  | succ count ih =>
      rw [drain]
      split
      · exact List.forall_mem_nil _
      · next token next hpull =>
          by_cases hend : token.lexeme = .eof
          · rw [if_pos hend]
            exact List.forall_mem_nil _
          · rw [if_neg hend]
            exact List.forall_mem_cons.2 ⟨(pull_shorter hpull hend).2, ih next⟩

/-- `Scans place chars tokens last` says that the characters from `place` on give the tokens and
leave the stream `last`. -/
def Scans (place : Location) (chars : List Char) (tokens : List Token) (last : Stream) : Prop :=
  Stream.drain (chars.length + 1) ⟨chars, place, .reading⟩ = (tokens, last)

namespace Scans

variable {place : Location} {c : Char} {chars rest : List Char} {tokens : List Token}
  {last : Stream}

/-- All characters give some tokens. -/
theorem total (place : Location) (chars : List Char) :
    ∃ tokens last, Scans place chars tokens last :=
  ⟨_, _, rfl⟩

/-- At the end of the text there is no token. -/
theorem nil (h : Scans place [] tokens last) : tokens = [] ∧ last.status = .ended := by
  cases h
  exact ⟨rfl, rfl⟩

/-- A blank gives no token. -/
theorem blank (hblank : Stream.separates c = true) :
    Scans place (c :: rest) tokens last ↔ Scans (place.after c) rest tokens last := by
  have hpull : Stream.pull ⟨c :: rest, place, .reading⟩ =
      Stream.pull ⟨rest, place.after c, .reading⟩ := by
    simp [Stream.pull, hblank, Location.afterAll]
  -- the blank counts as a character, so there is one pull more than needed without it
  have henough : Stream.drain (rest.length + 1) ⟨rest, place.after c, .reading⟩ =
      Stream.drain (rest.length + 2) ⟨rest, place.after c, .reading⟩ :=
    Stream.drain_enough (Nat.lt_succ_self _) (by simp)
  have hdrain : Stream.drain (rest.length + 2) ⟨c :: rest, place, .reading⟩ =
      Stream.drain (rest.length + 1) ⟨rest, place.after c, .reading⟩ := by
    rw [henough, Stream.drain, Stream.drain, hpull]
  unfold Scans
  rw [List.length_cons, hdrain]

theorem space (h : Scans place (' ' :: rest) tokens last) :
    Scans (place.after ' ') rest tokens last :=
  (blank rfl).1 h

/-- The first token of characters that start with one. -/
theorem token {lexeme : Lexeme} {reached : Location} (hblank : Stream.separates c = false)
    (hnext : Scan.next place c chars = .lexeme lexeme rest reached)
    (h : Scans place (c :: chars) tokens last) :
    ∃ after, tokens = ⟨lexeme, place⟩ :: after ∧ Scans reached rest after last := by
  obtain ⟨hshorter, hlegible⟩ := Scan.next_legible hnext
  have hend : lexeme ≠ .eof := by
    intro hend
    rw [hend] at hlegible
    exact hlegible
  have hpull : Stream.pull ⟨c :: chars, place, .reading⟩ =
      (some ⟨lexeme, place⟩, ⟨rest, reached, .reading⟩) := by
    simp [Stream.pull, hblank, Location.afterAll, hnext]
  have henough : Stream.drain (chars.length + 1) ⟨rest, reached, .reading⟩ =
      Stream.drain (rest.length + 1) ⟨rest, reached, .reading⟩ :=
    Stream.drain_enough (Nat.lt_succ_of_le hshorter) (Nat.lt_succ_self _)
  unfold Scans at h
  rw [List.length_cons, Stream.drain, hpull] at h
  simp only [if_neg hend, henough] at h
  cases h
  exact ⟨_, rfl, rfl⟩

/-- The first token of characters that start with the spelling of a lexeme. -/
theorem spelled {lexeme : Lexeme} (hspelled : lexeme.SpelledBy chars) (hends : Ends rest)
    (h : Scans place (chars ++ rest) tokens last) :
    ∃ reached after, tokens = ⟨lexeme, place⟩ :: after ∧ Scans reached rest after last := by
  obtain ⟨c, tail, rfl, hblank, hnext⟩ := hspelled
  obtain ⟨reached, hnext⟩ := hnext place rest hends
  exact ⟨reached, token hblank hnext h⟩

/-- The first token of characters that start with a mark of one character. -/
theorem mark {mark : Mark} (hsingle : Scan.single? c = some mark)
    (hdouble : ∀ d ∈ rest.head?, Scan.double? c d = none)
    (h : Scans place (c :: rest) tokens last) :
    ∃ after, tokens = ⟨.mark mark, place⟩ :: after ∧
      Scans (place.right mark.spelling.length) rest after last :=
  token (Scan.separates_of_single hsingle) (Scan.next_mark place hsingle hdouble) h

end Scans

/-- The tokens of a scanned text are those of its characters. -/
theorem scans_scan (text : String) :
    ∃ last, Scans .start text.toList (scan text).tokens last ∧
      (last.status = .ended → (scan text).failure = none) := by
  obtain ⟨⟨tokens, last⟩, hdrain⟩ : ∃ found, (Stream.ofText text).drain (text.length + 1) = found :=
    ⟨_, rfl⟩
  have hscan : (scan text).tokens = tokens ∧
      (last.status = .ended → (scan text).failure = none) := by
    unfold scan
    rw [hdrain]
    dsimp only
    cases hstatus : last.status with
    | failed error => exact ⟨rfl, fun hended => by cases hended⟩
    | reading | ended => exact ⟨rfl, fun _ => rfl⟩
  refine ⟨last, ?_, hscan.2⟩
  rw [hscan.1]
  unfold Scans
  rw [String.length_toList]
  exact hdrain

/-- Every token of a scanned text is legible. -/
theorem scan_legible (text : String) : ∀ token ∈ (scan text).tokens, token.lexeme.Legible := by
  obtain ⟨last, hscans, _⟩ := scans_scan text
  have hlegible := Stream.drain_legible (text.toList.length + 1) ⟨text.toList, .start, .reading⟩
  rw [hscans] at hlegible
  exact hlegible

end Script
