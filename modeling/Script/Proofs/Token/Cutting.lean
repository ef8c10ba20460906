import Script.Proofs.Token.Scanning

/-!
# How a text is cut into tokens

Scanning cuts a text into pieces, each of them a run of blanks and the text of one token.
`Location.behind` counts the place of a character from the start of the text, and
`Lexeme.Covers` says what text belongs to a lexeme. `Stream.pull_cases` takes the first piece off a
text, and `scan_lossless` cuts the whole text.
-/

namespace Script

/-! ## Places -/

/-- The place that follows the given characters, the first ones of a text. -/
def Location.behind (before : List Char) : Location :=
  ⟨1 + before.count '\n', 1 + (before.reverse.takeWhile (· ≠ '\n')).length⟩

namespace Location

theorem behind_concat (before : List Char) (c : Char) :
    behind (before ++ [c]) = (behind before).after c := by
  by_cases hline : c = '\n'
  · subst hline
    simp [behind, after, newLine, Nat.add_comm]
  · simp [behind, after, right, hline, Nat.add_assoc]

/-- Counting from the start agrees with counting on. -/
theorem behind_append (before chars : List Char) :
    behind (before ++ chars) = (behind before).afterAll chars := by
  induction chars generalizing before with
  | nil => simp [afterAll]
  | cons c chars ih =>
      have hrest := ih (before ++ [c])
      rw [List.append_assoc, List.singleton_append, behind_concat] at hrest
      exact hrest

/-- Characters of one line. -/
theorem afterAll_line {place : Location} {chars : List Char} (h : '\n' ∉ chars) :
    place.afterAll chars = place.right chars.length := by
  induction chars generalizing place with
  | nil => rfl
  | cons c chars ih =>
      rw [List.mem_cons, not_or] at h
      have hafter : place.after c = place.right 1 := if_neg (Ne.symm h.1)
      rw [afterAll, List.foldl_cons, hafter]
      refine (ih h.2).trans ?_
      simp only [right, List.length_cons, Nat.add_assoc, Nat.add_comm 1]

end Location

/-! ## Lexemes and their texts -/

namespace Lexeme

/-- Whether the lexeme would take in the next character as well. -/
def goesOn : Lexeme → Char → Bool
  | identifier _, next | word _, next => Scan.continuesIdentifier next
  | integer _, next | float _, next => Scan.continuesNumber next
  | mark kind, next =>
    match kind.spelling.toList with
    | [c] => (Scan.double? c next).isSome
    | _ => false
  | string _, _ | illegal _, _ | eof, _ => false

/-- What the text of a lexeme of each kind looks like. -/
def Formed : Lexeme → Prop
  | identifier name =>
    (∃ c tail, name.toList = c :: tail ∧ Scan.IsWord c tail) ∧ Keyword.ofSpelling? name = none
  | integer digits => ∃ c tail, digits.toList = c :: tail ∧ Scan.IsNumber c tail ∧ '.' ∉ c :: tail
  | float digits => ∃ c tail, digits.toList = c :: tail ∧ Scan.IsNumber c tail ∧ '.' ∈ c :: tail
  | illegal c =>
    Scan.single? c = none ∧ c ≠ '"' ∧ c.isDigit = false ∧ Scan.startsIdentifier c = false ∧
      Stream.separates c = false
  | string _ | word _ | mark _ => True
  | eof => False

/-- The text of a lexeme in front of the rest of the source text. -/
structure Covers (lexeme : Lexeme) (text rest : List Char) : Prop where
  formed : lexeme.Formed
  /-- The literal is the text itself. -/
  literal : lexeme.kind ≠ .string → text = lexeme.literal.toList
  /-- The literal of a string is what stands between the quotes. -/
  quoted : lexeme.kind = .string →
    ∃ written, text = '"' :: (written ++ ['"']) ∧ Text.Unescapes written lexeme.literal.toList
  /-- The text ends where the lexeme does. -/
  maximal : ∀ next ∈ rest.head?, lexeme.goesOn next = false

end Lexeme

/-- What is wrong with the text after an opening quote, up to where it cannot be read. -/
def ScanFault.Holds (fault : ScanFault) (text : List Char) : Prop :=
  ∃ written contents, Text.Unescapes written contents ∧
    match fault with
    | .unterminatedString => text = written ∨ text = written ++ ['\\']
    | .unknownEscape sign =>
      Text.unescape? sign = none ∧ ∃ rest, text = written ++ '\\' :: sign :: rest

namespace Scan

variable {place reached : Location} {c : Char} {read chars rest after : List Char}
  {lexeme : Lexeme} {fault : ScanFault}

/-- Nothing that follows a backslash in a known escape is a line feed. -/
theorem ne_newLine_of_unescape? {sign : Char} (h : Text.unescape? sign = some c) :
    sign ≠ '\n' := by
  rintro rfl
  cases h

/-- The last pattern of `string` is about characters that stand for themselves. -/
theorem plain_of (hquote : c = '"' → False) (hlast : c = '\\' → rest = [] → False)
    (hescape : ∀ sign tail, c = '\\' → rest = sign :: tail → False) : c ≠ '"' ∧ c ≠ '\\' := by
  refine ⟨hquote, fun hslash => ?_⟩
  cases rest with
  | nil => exact hlast hslash rfl
  | cons sign tail => exact hescape sign tail hslash rfl

/-- A string literal that is read stands between quotes. -/
theorem string_covers (h : string read place chars = .lexeme lexeme after reached) :
    ∃ written contents, chars = written ++ '"' :: after ∧ Text.Unescapes written contents ∧
      lexeme = .string (String.ofList (read.reverse ++ contents)) ∧
      reached = place.afterAll (written ++ ['"']) := by
  fun_induction string read place chars with
  | case1 | case3 | case5 => cases h
  | case2 =>
      cases h
      exact ⟨[], [], rfl, .nil, by simp, rfl⟩
  | case4 read place sign rest c hsign ih =>
      obtain ⟨written, contents, rfl, hread, rfl, rfl⟩ := ih h
      refine ⟨'\\' :: sign :: written, c :: contents, rfl, .escape hsign hread, by simp, ?_⟩
      have hline : (place.after '\\').after sign = place.right 2 := by
        simp [Location.after, Location.right, ne_newLine_of_unescape? hsign]
      simp only [Location.afterAll, List.cons_append, List.foldl_cons, hline]
  | case6 read place c rest hquote hlast hescape ih =>
      obtain ⟨written, contents, hrest, hread, rfl, rfl⟩ := ih h
      obtain ⟨hne, hslash⟩ := plain_of hquote hlast hescape
      rw [hrest]
      exact ⟨c :: written, c :: contents, rfl, .plain hne hslash hread, by simp, rfl⟩

/-- A string literal that is not read has no closing quote, or an unknown escape before it. -/
theorem string_failed (h : string read place chars = .failed fault after reached) :
    fault.Holds chars := by
  fun_induction string read place chars with
  | case2 => cases h
  | case1 =>
      cases h
      exact ⟨[], [], .nil, .inl rfl⟩
  | case3 =>
      cases h
      exact ⟨[], [], .nil, .inr rfl⟩
  | case5 read place sign rest hsign =>
      cases h
      exact ⟨[], [], .nil, hsign, after, rfl⟩
  | case4 read place sign rest c hsign ih =>
      obtain ⟨written, contents, hread, hfault⟩ := ih h
      refine ⟨'\\' :: sign :: written, c :: contents, .escape hsign hread, ?_⟩
      cases fault <;> simpa using hfault
  | case6 read place c rest hquote hlast hescape ih =>
      obtain ⟨written, contents, hread, hfault⟩ := ih h
      obtain ⟨hne, hslash⟩ := plain_of hquote hlast hescape
      refine ⟨c :: written, c :: contents, .plain hne hslash hread, ?_⟩
      cases fault <;> simpa using hfault

theorem spelling_of_single {mark : Mark} (h : single? c = some mark) :
    mark.spelling.toList = [c] := by
  unfold single? at h
  split at h <;> cases h <;> rfl

theorem spelling_of_double {d : Char} {mark : Mark} (h : double? c d = some mark) :
    mark.spelling.toList = [c, d] := by
  unfold double? at h
  split at h <;> cases h <;> rfl

/-- The text of a mark is its spelling, which is no part of a longer mark. -/
theorem mark?_covers {mark : Mark} (h : mark? c rest = some (mark, after)) :
    c :: rest = mark.spelling.toList ++ after ∧
      (Lexeme.mark mark).Covers mark.spelling.toList after := by
  have hcovers (hmaximal : ∀ next ∈ after.head?, (Lexeme.mark mark).goesOn next = false) :
      (Lexeme.mark mark).Covers mark.spelling.toList after :=
    ⟨trivial, fun _ => rfl, nofun, hmaximal⟩
  unfold mark? at h
  cases rest with
  | nil =>
      obtain ⟨_, hsingle, heq⟩ := Option.map_eq_some_iff.1 h
      cases heq
      exact ⟨by rw [spelling_of_single hsingle]; rfl, hcovers nofun⟩
  | cons d rest =>
      cases hdouble : double? c d with
      | some double =>
          simp only [hdouble, Option.some.injEq, Prod.mk.injEq] at h
          obtain ⟨rfl, rfl⟩ := h
          have hspelling := spelling_of_double hdouble
          refine ⟨by rw [hspelling]; rfl, hcovers fun next _ => ?_⟩
          simp [Lexeme.goesOn, hspelling]
      | none =>
          simp only [hdouble] at h
          obtain ⟨_, hsingle, heq⟩ := Option.map_eq_some_iff.1 h
          cases heq
          have hspelling := spelling_of_single hsingle
          refine ⟨by rw [hspelling]; rfl, hcovers fun next hnext => ?_⟩
          cases hnext
          simp [Lexeme.goesOn, hspelling, hdouble]

/-- A run of characters of one kind that starts with `c`, up to the first of another kind. -/
theorem run_splits (p : Char → Bool) (place : Location) (rest : List Char)
    (hline : p '\n' = false) (hc : c ≠ '\n') :
    c :: rest = (c :: rest.takeWhile p) ++ rest.dropWhile p ∧
      place.right (c :: rest.takeWhile p).length = place.afterAll (c :: rest.takeWhile p) ∧
      ∀ next ∈ (rest.dropWhile p).head?, p next = false := by
  refine ⟨by rw [List.cons_append, List.takeWhile_append_dropWhile], ?_, fun next hnext => ?_⟩
  · refine (Location.afterAll_line fun hmem => ?_).symm
    rcases List.mem_cons.1 hmem with heq | hmem
    · exact hc heq.symm
    · have hp := List.mem_takeWhile_imp hmem
      rw [hline] at hp
      cases hp
  · have hfound := List.head?_dropWhile_not p rest
    rw [Option.mem_def.1 hnext] at hfound
    exact hfound

theorem number_covers {tail : List Char} (h : IsNumber c tail)
    (hmaximal : ∀ next ∈ after.head?, continuesNumber next = false) :
    (number (c :: tail)).Covers (c :: tail) after := by
  unfold number
  split
  · next hdot =>
      exact ⟨⟨c, tail, String.toList_ofList, h, List.contains_iff_mem.1 hdot⟩,
        fun _ => String.toList_ofList.symm, nofun, hmaximal⟩
  · next hdot =>
      exact ⟨⟨c, tail, String.toList_ofList, h, fun hmem => hdot (List.contains_iff_mem.2 hmem)⟩,
        fun _ => String.toList_ofList.symm, nofun, hmaximal⟩

theorem word_covers {tail : List Char} (h : IsWord c tail)
    (hmaximal : ∀ next ∈ after.head?, continuesIdentifier next = false) :
    (word (String.ofList (c :: tail))).Covers (c :: tail) after := by
  unfold word
  split
  · next keyword hkeyword =>
      have hspelling := Keyword.ofSpelling?_eq_some_iff.1 hkeyword
      refine ⟨trivial, fun _ => ?_, (fun hkind => by cases hkind), hmaximal⟩
      rw [Lexeme.literal, ← hspelling, String.toList_ofList]
  · next hkeyword =>
      exact ⟨⟨⟨c, tail, String.toList_ofList, h⟩, hkeyword⟩, fun _ => String.toList_ofList.symm,
        (fun hkind => by cases hkind), hmaximal⟩

/-- A lexeme that is scanned covers the characters that are taken off. -/
theorem next_covers (hblank : Stream.separates c = false)
    (h : next place c rest = .lexeme lexeme after reached) :
    ∃ text, c :: rest = text ++ after ∧ lexeme.Covers text after ∧
      reached = place.afterAll text := by
  have hc : c ≠ '\n' := by
    rintro rfl
    cases hblank
  unfold next at h
  cases hmark : mark? c rest with
  | some found =>
      obtain ⟨mark, rest'⟩ := found
      rw [hmark] at h
      cases h
      obtain ⟨htext, hcovers⟩ := mark?_covers hmark
      refine ⟨mark.spelling.toList, htext, hcovers, ?_⟩
      have hline : '\n' ∉ mark.spelling.toList := by cases mark <;> decide
      rw [Location.afterAll_line hline, String.length_toList]
  | none =>
      have hsingle := mark?_eq_none_iff.1 hmark
      rw [hmark] at h
      dsimp only at h
      -- the character starts a text, a number or a word, or nothing at all
      split_ifs at h with hquote hdigit hstarts
      · obtain ⟨written, contents, rfl, hread, rfl, rfl⟩ := string_covers h
        subst hquote
        refine ⟨'"' :: (written ++ ['"']), by simp, ⟨trivial, nofun, fun _ => ?_, fun _ _ => rfl⟩,
          rfl⟩
        refine ⟨written, rfl, ?_⟩
        rwa [Lexeme.literal, String.toList_ofList, List.reverse_nil, List.nil_append]
      · cases h
        obtain ⟨htext, hplace, hmaximal⟩ := run_splits continuesNumber place rest (by decide) hc
        have hnumber : IsNumber c (rest.takeWhile continuesNumber) :=
          ⟨hsingle, hquote, hdigit, fun d hd => List.mem_takeWhile_imp hd⟩
        exact ⟨_, htext, number_covers hnumber hmaximal, hplace⟩
      · cases h
        obtain ⟨htext, hplace, hmaximal⟩ := run_splits continuesIdentifier place rest (by decide) hc
        have hword : IsWord c (rest.takeWhile continuesIdentifier) :=
          ⟨hsingle, hquote, by simpa using hdigit, hstarts, fun d hd => List.mem_takeWhile_imp hd⟩
        exact ⟨_, htext, word_covers hword hmaximal, hplace⟩
      · cases h
        have hformed : (Lexeme.illegal c).Formed :=
          ⟨hsingle, hquote, by simpa using hdigit, by simpa using hstarts, hblank⟩
        have hline : '\n' ∉ [c] := fun hmem => hc (List.mem_singleton.1 hmem).symm
        have hcovers : (Lexeme.illegal c).Covers [c] rest :=
          ⟨hformed, fun _ => by simp [Lexeme.literal], (fun hkind => by cases hkind),
            fun _ _ => rfl⟩
        exact ⟨[c], rfl, hcovers, (Location.afterAll_line hline).symm⟩

/-- Only string literals cannot be read. -/
theorem next_failed (h : next place c rest = .failed fault after reached) :
    c = '"' ∧ fault.Holds rest := by
  unfold next at h
  split at h
  · cases h
  · split_ifs at h with hquote hdigit hstarts
    exact ⟨hquote, string_failed h⟩

end Scan

/-! ## Pieces of a text -/

/-- A token with its text and the blanks in front of it. -/
structure Piece where
  /-- The blanks in front of the token. -/
  blank : List Char
  /-- The text of the token. -/
  text : List Char
  /-- The token. -/
  token : Token

/-- The characters of a piece. -/
def Piece.chars (piece : Piece) : List Char :=
  piece.blank ++ piece.text

/-- A piece of a text, between the characters before and after it. -/
structure Piece.Fits (before : List Char) (piece : Piece) (after : List Char) : Prop where
  blank : ∀ c ∈ piece.blank, Stream.separates c = true
  location : piece.token.location = Location.behind (before ++ piece.blank)
  covers : piece.token.lexeme.Covers piece.text after

/-- The end of the text is no piece of it. -/
theorem Piece.Fits.ne_eof {before after : List Char} {piece : Piece}
    (h : piece.Fits before after) : piece.token.lexeme ≠ .eof := by
  intro heof
  have hformed := h.covers.formed
  rw [heof] at hformed
  exact hformed

namespace Stream

/-- A pull finds the end of the text, takes a piece off it, or fails at an opening quote. -/
theorem pull_cases (before chars : List Char) :
    ((∀ c ∈ chars, separates c = true) ∧
      pull ⟨chars, .behind before, .reading⟩ = (some ⟨.eof, .behind (before ++ chars)⟩,
        ⟨[], .behind (before ++ chars), .ended⟩)) ∨
    (∃ (piece : Piece) (after : List Char), chars = piece.chars ++ after ∧
      piece.Fits before after ∧
      pull ⟨chars, .behind before, .reading⟩ =
        (some piece.token, ⟨after, .behind (before ++ piece.chars), .reading⟩)) ∨
    (∃ blank text fault after reached, chars = blank ++ '"' :: text ∧
      (∀ c ∈ blank, separates c = true) ∧ ScanFault.Holds fault text ∧
      pull ⟨chars, .behind before, .reading⟩ =
        (none, ⟨after, reached, .failed ⟨fault, .behind (before ++ blank)⟩⟩)) := by
  have hblank : ∀ c ∈ chars.takeWhile separates, separates c = true :=
    fun c hc => List.mem_takeWhile_imp hc
  have hchars : chars = chars.takeWhile separates ++ chars.dropWhile separates :=
    List.takeWhile_append_dropWhile.symm
  obtain ⟨blank, hspaces⟩ : ∃ blank, chars.takeWhile separates = blank := ⟨_, rfl⟩
  rw [hspaces] at hblank hchars
  have hplace := Location.behind_append before blank
  cases hdrop : chars.dropWhile separates with
  | nil =>
      rw [hdrop, List.append_nil] at hchars
      refine .inl ⟨hchars ▸ hblank, ?_⟩
      simp only [pull, hdrop, hspaces, ← hchars, Location.behind_append]
  | cons c rest =>
      have hc : separates c = false := by
        have hfirst := List.head?_dropWhile_not separates chars
        rwa [hdrop] at hfirst
      rw [hdrop] at hchars
      cases hnext : Scan.next (.behind (before ++ blank)) c rest with
      | lexeme lexeme after reached =>
          obtain ⟨text, htext, hcovers, rfl⟩ := Scan.next_covers hc hnext
          refine .inr (.inl ⟨⟨blank, text, ⟨lexeme, .behind (before ++ blank)⟩⟩, after, ?_,
            ⟨hblank, rfl, hcovers⟩, ?_⟩)
          · rw [hchars, htext, Piece.chars, List.append_assoc]
          · simp only [pull, hdrop, hspaces, ← hplace, hnext, Piece.chars, ← List.append_assoc]
            rw [← Location.behind_append]
      | failed fault after reached =>
          obtain ⟨rfl, hfault⟩ := Scan.next_failed hnext
          refine .inr (.inr ⟨blank, rest, fault, after, reached, hchars, hblank, hfault, ?_⟩)
          simp only [pull, hdrop, hspaces, ← hplace, hnext]

/-- A text is cut into the pieces of its tokens. What is left is blank, or fails at an opening
quote after some blanks. -/
theorem drain_pieces {count : Nat} {before chars : List Char} {tokens : List Token}
    {last : Stream} (hcount : chars.length < count)
    (h : drain count ⟨chars, .behind before, .reading⟩ = (tokens, last)) :
    ∃ (pieces : List Piece) (blank tail : List Char), tokens = pieces.map Piece.token ∧
      chars = pieces.flatMap Piece.chars ++ (blank ++ tail) ∧
      (∀ c ∈ blank, separates c = true) ∧
      (∀ front piece back, pieces = front ++ piece :: back →
        piece.Fits (before ++ front.flatMap Piece.chars)
          (back.flatMap Piece.chars ++ (blank ++ tail))) ∧
      (tail = [] ∧ last = ⟨[], .behind (before ++ chars), .ended⟩ ∨
        ∃ text fault rest reached, tail = '"' :: text ∧ ScanFault.Holds fault text ∧
          last = ⟨rest, reached,
            .failed ⟨fault, .behind (before ++ (pieces.flatMap Piece.chars ++ blank))⟩⟩) := by
  induction count generalizing before chars tokens last with
  | zero => cases hcount
  | succ count ih =>
      rw [drain] at h
      rcases pull_cases before chars with ⟨hblank, hpull⟩ | ⟨piece, after, hchars, hfits, hpull⟩ |
        ⟨blank, text, fault, after, reached, hchars, hblank, hfault, hpull⟩
      · rw [hpull] at h
        cases h
        exact ⟨[], chars, [], rfl, by simp, hblank, by simp, .inl ⟨rfl, rfl⟩⟩
      · have hend := hfits.ne_eof
        have hshorter : after.length < chars.length := (pull_shorter hpull hend).1
        rw [hpull] at h
        simp only [if_neg hend, Prod.mk.injEq] at h
        obtain ⟨rfl, rfl⟩ := h
        obtain ⟨pieces, blank, tail, htokens, hafter, hblank, hpieces, hlast⟩ :=
          ih (Nat.lt_of_lt_of_le hshorter (Nat.le_of_lt_succ hcount)) rfl
        refine ⟨piece :: pieces, blank, tail, by rw [htokens, List.map_cons], ?_, hblank, ?_, ?_⟩
        · rw [hchars, hafter, List.flatMap_cons, List.append_assoc]
        · rintro (_ | ⟨first, front⟩) other back hsplit
          · obtain ⟨rfl, rfl⟩ := List.cons.inj hsplit
            rw [List.flatMap_nil, List.append_nil, ← hafter]
            exact hfits
          · obtain ⟨rfl, hrest⟩ := List.cons.inj hsplit
            rw [List.flatMap_cons, ← List.append_assoc]
            exact hpieces front other back hrest
        · rw [hchars, List.flatMap_cons]
          simpa only [List.append_assoc] using hlast
      · rw [hpull] at h
        cases h
        refine ⟨[], blank, '"' :: text, rfl, by simp [hchars], hblank, by simp,
          .inr ⟨text, fault, after, reached, rfl, hfault, by simp⟩⟩

/-- The token of the pull with the given number, from zero on. -/
def pulled (stream : Stream) : (number : Nat) → Option Token
  | 0 => stream.pull.1
  | number + 1 => pulled stream.pull.2 number

/-- A stream that is no longer reading stays as it is. -/
theorem pull_done {stream : Stream} (h : stream.status ≠ .reading) :
    stream.pull = (none, stream) := by
  unfold pull
  split
  · next hreading => exact absurd hreading h
  · rfl

/-- So it yields nothing. -/
theorem pulled_done {stream : Stream} (h : stream.status ≠ .reading) (number : Nat) :
    stream.pulled number = none := by
  induction number with
  | zero => rw [pulled, pull_done h]
  | succ number ih => rwa [pulled, pull_done h]

/-- Pull by pull, a stream yields its tokens and then, unless it fails, the end of the text. -/
theorem pulled_drain {count : Nat} {before chars : List Char} {tokens : List Token}
    {last : Stream} (hcount : chars.length < count)
    (h : drain count ⟨chars, .behind before, .reading⟩ = (tokens, last)) (number : Nat) :
    pulled ⟨chars, .behind before, .reading⟩ number =
      match last.status with
      | .failed _ => tokens[number]?
      | _ => (tokens ++ [⟨.eof, last.location⟩])[number]? := by
  induction count generalizing before chars tokens last number with
  | zero => cases hcount
  | succ count ih =>
      rw [drain] at h
      rcases pull_cases before chars with ⟨hblank, hpull⟩ | ⟨piece, after, hchars, hfits, hpull⟩ |
        ⟨blank, text, fault, after, reached, hchars, hblank, hfault, hpull⟩
      · rw [hpull] at h
        cases h
        cases number with
        | zero =>
            rw [pulled, hpull]
            rfl
        | succ number =>
            have hdone : Status.ended ≠ .reading := fun hstatus => by cases hstatus
            rw [pulled, hpull]
            exact pulled_done hdone number
      · have hend := hfits.ne_eof
        have hshorter : after.length < chars.length := (pull_shorter hpull hend).1
        rw [hpull] at h
        simp only [if_neg hend, Prod.mk.injEq] at h
        obtain ⟨rfl, rfl⟩ := h
        cases number with
        | zero =>
            rw [pulled, hpull]
            split <;> rfl
        | succ number =>
            rw [pulled, hpull, ih (Nat.lt_of_lt_of_le hshorter (Nat.le_of_lt_succ hcount)) rfl]
            split <;> rfl
      · rw [hpull] at h
        cases h
        cases number with
        | zero =>
            rw [pulled, hpull]
            rfl
        | succ number =>
            have hdone : Status.failed ⟨fault, .behind (before ++ blank)⟩ ≠ .reading :=
              fun hstatus => by cases hstatus
            rw [pulled, hpull]
            exact pulled_done hdone number

end Stream

/-- A text is scanned by taking all tokens off its stream. -/
theorem scan_drain (source : String) :
    ∃ tokens last, source.toList.length < source.length + 1 ∧
      Stream.drain (source.length + 1) ⟨source.toList, .behind [], .reading⟩ = (tokens, last) ∧
      scan source = match last.status with
        | .failed error => ⟨tokens, last.location, some error⟩
        | _ => ⟨tokens, last.location, none⟩ := by
  obtain ⟨⟨tokens, last⟩, hdrain⟩ :
      ∃ found, (Stream.ofText source).drain (source.length + 1) = found := ⟨_, rfl⟩
  refine ⟨tokens, last, ?_, hdrain, ?_⟩
  · rw [String.length_toList]
    exact Nat.lt_succ_self _
  · unfold scan
    generalize Stream.drain _ _ = found at hdrain
    subst hdrain
    rfl

/-- The stream of a text yields what is scanned, pull by pull, and nothing after that. -/
theorem scan_pulled (source : String) (number : Nat) :
    (Stream.ofText source).pulled number = (scan source).yielded[number]? := by
  obtain ⟨tokens, last, hcount, hdrain, hscan⟩ := scan_drain source
  have hstart : Stream.ofText source = ⟨source.toList, .behind [], .reading⟩ := rfl
  rw [hscan, hstart, Stream.pulled_drain hcount hdrain number]
  cases last.status <;> rfl

/-- Scanning loses nothing. Pull by pull, the stream of a text yields the scanned tokens, then the
end of the text if it was read to its end, and nothing after that. The tokens cut the text into
pieces without gaps, each at the place that is counted from the start of the text. What is left
after them is blank, and the end of the text is at its last place; or it fails at an opening quote,
whose place is that of the failure. -/
theorem scan_lossless (source : String) :
    (∀ number, (Stream.ofText source).pulled number = (scan source).yielded[number]?) ∧
    ∃ (pieces : List Piece) (blank tail : List Char),
      (scan source).tokens = pieces.map Piece.token ∧
      source.toList = pieces.flatMap Piece.chars ++ (blank ++ tail) ∧
      (∀ c ∈ blank, Stream.separates c = true) ∧
      (∀ front piece back, pieces = front ++ piece :: back →
        piece.Fits (front.flatMap Piece.chars) (back.flatMap Piece.chars ++ (blank ++ tail))) ∧
      match (scan source).failure with
      | none => tail = [] ∧ (scan source).finish = Location.behind source.toList
      | some error => ∃ text, tail = '"' :: text ∧ error.fault.Holds text ∧
          error.location = Location.behind (pieces.flatMap Piece.chars ++ blank) := by
  have hcount : source.toList.length < source.length + 1 := by
    rw [String.length_toList]
    exact Nat.lt_succ_self _
  obtain ⟨⟨tokens, last⟩, hdrain⟩ :
      ∃ found, (Stream.ofText source).drain (source.length + 1) = found := ⟨_, rfl⟩
  have hstart : Stream.ofText source = ⟨source.toList, .behind [], .reading⟩ := rfl
  rw [hstart] at hdrain
  have hpulled := Stream.pulled_drain hcount hdrain
  obtain ⟨pieces, blank, tail, htokens, hchars, hblank, hpieces, hlast⟩ :=
    Stream.drain_pieces hcount hdrain
  rcases hlast with ⟨rfl, rfl⟩ | ⟨text, fault, rest, reached, rfl, hfault, rfl⟩
  · have hscan : scan source = ⟨tokens, .behind ([] ++ source.toList), none⟩ := by
      unfold scan
      rw [hstart, hdrain]
    rw [hscan]
    exact ⟨hpulled, pieces, blank, [], htokens, hchars, hblank, hpieces, rfl, rfl⟩
  · have hscan : scan source = ⟨tokens, reached,
        some ⟨fault, .behind ([] ++ (pieces.flatMap Piece.chars ++ blank))⟩⟩ := by
      unfold scan
      rw [hstart, hdrain]
    rw [hscan]
    exact ⟨hpulled, pieces, blank, _, htokens, hchars, hblank, hpieces, text, rfl, hfault, rfl⟩

end Script
