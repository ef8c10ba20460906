import Script.Proofs.Token.Cutting

/-!
# Where a stream stands

A stream that was pulled from some number of times stands at the place that is counted from the
start of its text, over all characters that were read so far: `Stream.after_stands`. The one
exception is a line feed behind a backslash, at which the stream fails: it is counted as a column.
A stream that is done stands where scanning its text ends, with the same failure.
-/

namespace Script

/-- A fault that is found from `place` on is met at the place reached. The character behind the last
backslash is counted as a column, whatever it is. -/
def ScanFault.MetAt (place reached : Location) (consumed : List Char) : ScanFault → Prop
  | unterminatedString => reached = place.afterAll consumed
  | unknownEscape sign => ∃ front, consumed = front ++ [sign] ∧
      reached = (place.afterAll front).right 1

/-- Characters in front of what is read before a fault is found. -/
theorem ScanFault.MetAt.append {place reached : Location} {front consumed : List Char}
    {fault : ScanFault} (h : fault.MetAt (place.afterAll front) reached consumed) :
    fault.MetAt place reached (front ++ consumed) := by
  cases fault with
  | unterminatedString =>
      rw [MetAt, Location.afterAll, List.foldl_append]
      exact h
  | unknownEscape sign =>
      obtain ⟨inner, rfl, hreached⟩ := h
      refine ⟨front ++ inner, (List.append_assoc ..).symm, ?_⟩
      rw [Location.afterAll, List.foldl_append]
      exact hreached

namespace Scan

variable {place reached : Location} {c : Char} {read chars rest after : List Char}
  {fault : ScanFault}

/-- What cannot be read is a string literal behind its opening quote. -/
theorem string_of_next_failed (h : next place c rest = .failed fault after reached) :
    c = '"' ∧ string [] (place.right 1) rest = .failed fault after reached := by
  unfold next at h
  split at h
  · cases h
  · split_ifs at h with hquote hdigit hstarts
    exact ⟨hquote, h⟩

/-- A string literal that cannot be read is counted as it is read. -/
theorem string_failed_met (h : string read place chars = .failed fault after reached) :
    ∃ consumed, chars = consumed ++ after ∧ fault.MetAt place reached consumed := by
  fun_induction string read place chars with
  | case2 => cases h
  | case1 =>
      cases h
      exact ⟨[], rfl, rfl⟩
  | case3 =>
      cases h
      exact ⟨['\\'], rfl, rfl⟩
  | case5 read place sign rest hsign =>
      cases h
      exact ⟨['\\', sign], rfl, ['\\'], rfl, rfl⟩
  | case4 read place sign rest c hsign ih =>
      obtain ⟨consumed, rfl, hmet⟩ := ih h
      have hplace : place.afterAll ['\\', sign] = place.right 2 := by
        simp [Location.afterAll, Location.after, Location.right, ne_newLine_of_unescape? hsign]
      rw [← hplace] at hmet
      exact ⟨_, rfl, hmet.append⟩
  | case6 read place c rest hquote hlast hescape ih =>
      obtain ⟨consumed, rfl, hmet⟩ := ih h
      have hmet : fault.MetAt (place.afterAll [c]) reached consumed := hmet
      exact ⟨_, rfl, hmet.append⟩

end Scan

namespace Stream

/-- The stream after a number of pulls. -/
def after (stream : Stream) : (number : Nat) → Stream
  | 0 => stream
  | number + 1 => after stream.pull.2 number

/-- The stream has failed at a line feed behind a backslash. -/
def Status.AtEscapedFeed (status : Status) : Prop :=
  ∃ place, status = .failed ⟨.unknownEscape '\n', place⟩

/-- The stream stands behind the given characters, the first ones of a text. -/
structure Stands (before : List Char) (stream : Stream) : Prop where
  /-- The place is counted from the start of the text. -/
  counted : ¬ stream.status.AtEscapedFeed → stream.location = .behind before
  /-- Only a line feed at which the stream has failed is counted as a column. -/
  feed : stream.status.AtEscapedFeed →
    ∃ front, before = front ++ ['\n'] ∧ stream.location = (Location.behind front).right 1

/-- A stream that met a fault stands where it met it. -/
theorem stands_of_met {before consumed rest : List Char} {place reached : Location}
    {fault : ScanFault} (h : fault.MetAt (.behind before) reached consumed) :
    Stands (before ++ consumed) ⟨rest, reached, .failed ⟨fault, place⟩⟩ := by
  cases fault with
  | unterminatedString =>
      rw [ScanFault.MetAt, ← Location.behind_append] at h
      refine ⟨fun _ => h, ?_⟩
      rintro ⟨place, hstatus⟩
      cases hstatus
  | unknownEscape sign =>
      obtain ⟨front, rfl, hreached⟩ := h
      rw [← Location.behind_append] at hreached
      refine ⟨fun hfeed => ?_, ?_⟩
      · have hsign : sign ≠ '\n' := fun hsign => hfeed ⟨place, by rw [hsign]⟩
        rw [← List.append_assoc, Location.behind_concat, Location.after, if_neg hsign]
        exact hreached
      · rintro ⟨place, hstatus⟩
        cases hstatus
        exact ⟨before ++ front, (List.append_assoc ..).symm, hreached⟩

/-- A pull that fails leaves the stream behind what it has read. -/
theorem pull_failed_stands {before chars rest : List Char} {reached : Location} {error : ScanError}
    (h : pull ⟨chars, .behind before, .reading⟩ = (none, ⟨rest, reached, .failed error⟩)) :
    ∃ consumed, chars = consumed ++ rest ∧
      Stands (before ++ consumed) ⟨rest, reached, .failed error⟩ := by
  have hchars : chars = chars.takeWhile separates ++ chars.dropWhile separates :=
    List.takeWhile_append_dropWhile.symm
  unfold pull at h
  dsimp only at h
  generalize chars.takeWhile separates = blank at h hchars
  generalize chars.dropWhile separates = text at h hchars
  rw [← Location.behind_append] at h
  cases text with
  | nil => cases h
  | cons c text =>
      dsimp only at h
      split at h
      · cases h
      · next hnext =>
          cases h
          obtain ⟨rfl, hstring⟩ := Scan.string_of_next_failed hnext
          obtain ⟨consumed, rfl, hmet⟩ := Scan.string_failed_met hstring
          have hquote : (Location.behind (before ++ blank)).right 1 =
              .behind (before ++ (blank ++ ['"'])) := by
            rw [← List.append_assoc, Location.behind_concat]
            rfl
          rw [hquote] at hmet
          refine ⟨blank ++ ['"'] ++ consumed, by simp [hchars], ?_⟩
          rw [← List.append_assoc]
          exact stands_of_met hmet

variable {stream : Stream}

theorem after_done (h : stream.status ≠ .reading) (number : Nat) :
    stream.after number = stream := by
  induction number with
  | zero => rfl
  | succ number ih => rwa [after, pull_done h]

theorem after_add (stream : Stream) (first second : Nat) :
    stream.after (first + second) = (stream.after first).after second := by
  induction first generalizing stream with
  | zero => rw [Nat.zero_add, after]
  | succ first ih => rw [Nat.succ_add, after, after, ih]

/-- All pulls from a stream that is done find the same. -/
theorem after_unique {first second : Nat} (hfirst : (stream.after first).status ≠ .reading)
    (hsecond : (stream.after second).status ≠ .reading) :
    stream.after first = stream.after second := by
  rw [← after_done hfirst second, ← after_add, Nat.add_comm, after_add, after_done hsecond]

/-- Unless it has failed, a stream stands at the place counted from the start of the text. -/
theorem stands_counted {consumed rest : List Char} {status : Status}
    (h : ∀ error, status ≠ .failed error) : Stands consumed ⟨rest, .behind consumed, status⟩ :=
  ⟨fun _ => rfl, fun ⟨_, hstatus⟩ => absurd hstatus (h _)⟩

/-- After any number of pulls a stream stands behind what it has read. -/
theorem after_stands (before chars : List Char) (number : Nat) :
    ∃ consumed, chars = consumed ++ (after ⟨chars, .behind before, .reading⟩ number).rest ∧
      (after ⟨chars, .behind before, .reading⟩ number).Stands (before ++ consumed) := by
  induction number generalizing before chars with
  | zero => exact ⟨[], rfl, by rw [List.append_nil]; exact stands_counted nofun⟩
  | succ number ih =>
      rw [after]
      rcases pull_cases before chars with ⟨-, hpull⟩ | ⟨piece, rest, rfl, -, hpull⟩ |
        ⟨blank, text, fault, rest, reached, -, -, -, hpull⟩
      · rw [hpull, after_done (fun hstatus => by cases hstatus)]
        exact ⟨chars, (List.append_nil _).symm, stands_counted nofun⟩
      · rw [hpull]
        obtain ⟨consumed, hrest, hstands⟩ := ih (before ++ piece.chars) rest
        refine ⟨piece.chars ++ consumed, ?_, ?_⟩
        · rw [List.append_assoc, ← hrest]
        · rwa [← List.append_assoc]
      · rw [hpull, after_done (fun hstatus => by cases hstatus)]
        exact pull_failed_stands hpull

/-- Pulls beyond the number of characters leave the stream where all its tokens are taken off. -/
theorem after_drain {count : Nat} {before chars : List Char} {tokens : List Token} {last : Stream}
    (hcount : chars.length < count)
    (h : drain count ⟨chars, .behind before, .reading⟩ = (tokens, last)) :
    after ⟨chars, .behind before, .reading⟩ count = last ∧ last.status ≠ .reading := by
  induction count generalizing before chars tokens last with
  | zero => cases hcount
  | succ count ih =>
      rw [drain] at h
      rw [after]
      rcases pull_cases before chars with ⟨-, hpull⟩ | ⟨piece, rest, -, hfits, hpull⟩ |
        ⟨blank, text, fault, rest, reached, -, -, -, hpull⟩
      · rw [hpull] at h ⊢
        cases h
        have hdone : Status.ended ≠ .reading := fun hstatus => by cases hstatus
        exact ⟨after_done hdone count, hdone⟩
      · have hend := hfits.ne_eof
        have hshorter : rest.length < chars.length := (pull_shorter hpull hend).1
        rw [hpull] at h ⊢
        simp only [if_neg hend, Prod.mk.injEq] at h
        obtain ⟨rfl, rfl⟩ := h
        exact ih (Nat.lt_of_lt_of_le hshorter (Nat.le_of_lt_succ hcount)) rfl
      · rw [hpull] at h ⊢
        cases h
        have hdone : Status.failed ⟨fault, .behind (before ++ blank)⟩ ≠ .reading :=
          fun hstatus => by cases hstatus
        exact ⟨after_done hdone count, hdone⟩

end Stream

/-- How a stream ends whose text was scanned. -/
def Scanned.status (scanned : Scanned) : Stream.Status :=
  match scanned.failure with
  | some error => .failed error
  | none => .ended

/-- The stream of a text is done after some pulls, and stands then where scanning the text ends. It
has failed if scanning has. -/
theorem scan_after (text : String) :
    ∃ last : Stream, last.location = (scan text).finish ∧ last.status = (scan text).status ∧
      (∃ number, (Stream.ofText text).after number = last) ∧
      ∀ number, ((Stream.ofText text).after number).status ≠ .reading →
        (Stream.ofText text).after number = last := by
  obtain ⟨tokens, last, hcount, hdrain, hscan⟩ := scan_drain text
  obtain ⟨hlast, hdone⟩ := Stream.after_drain hcount hdrain
  have hstatus : last.location = (scan text).finish ∧ last.status = (scan text).status := by
    rw [hscan]
    cases hstatus : last.status with
    | reading => exact absurd hstatus hdone
    | ended | failed => exact ⟨rfl, rfl⟩
  refine ⟨last, hstatus.1, hstatus.2, ⟨_, hlast⟩, fun number hnumber => ?_⟩
  rw [← hlast]
  exact Stream.after_unique hnumber (hlast.symm ▸ hdone)

/-- The stream of a text fails just if scanning does. -/
theorem scan_failure_iff {text : String} {error : ScanError} :
    (∃ number, ((Stream.ofText text).after number).status = .failed error) ↔
      (scan text).failure = some error := by
  obtain ⟨last, -, hstatus, ⟨number, hnumber⟩, hlast⟩ := scan_after text
  have hfailed : last.status = .failed error ↔ (scan text).failure = some error := by
    rw [hstatus, Scanned.status]
    cases (scan text).failure <;> simp
  constructor
  · rintro ⟨number, hnumber⟩
    rw [hlast number (by rw [hnumber]; exact nofun)] at hnumber
    exact hfailed.1 hnumber
  · intro hfailure
    exact ⟨number, hnumber ▸ hfailed.2 hfailure⟩

/-- The failure is at the opening quote of a string literal that cannot be read. -/
theorem scan_failure_place {text : String} {error : ScanError}
    (h : (scan text).failure = some error) :
    ∃ before rest, text.toList = before ++ '"' :: rest ∧ error.fault.Holds rest ∧
      error.location = .behind before := by
  obtain ⟨tokens, last, hcount, hdrain, hscan⟩ := scan_drain text
  obtain ⟨pieces, blank, tail, -, hchars, -, -, hlast⟩ := Stream.drain_pieces hcount hdrain
  rw [hscan] at h
  rcases hlast with ⟨-, rfl⟩ | ⟨rest, fault, left, reached, rfl, hfault, rfl⟩
  · cases h
  · cases h
    exact ⟨pieces.flatMap Piece.chars ++ blank, rest, by rw [hchars, List.append_assoc], hfault,
      rfl⟩

end Script
