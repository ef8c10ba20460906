import Script.Proofs.Token.Cutting

/-!
# Texts cut into tokens

`Cut` says that a text consists of the texts of some tokens with blanks in front of them. This is
how a text is scanned that is read to its end: `scan_cut_iff`. What is needed for it is that a
lexeme is scanned from the text that it covers, in front of whatever ends it:
`Lexeme.Covers.scannedBy`.
-/

namespace Script

/-! ## Lexemes in front of what ends them -/

namespace Scan

variable {rest : List Char}

/-- Characters that no lexeme goes on into. -/
def Parts (c : Char) : Prop :=
  ∀ lexeme : Lexeme, lexeme.goesOn c = false

/-- No lexeme goes on into a blank. -/
theorem parts_of_separates {c : Char} (h : Stream.separates c = true) : Parts c := by
  have hblank : c = ' ' ∨ c = '\t' ∨ c = '\r' ∨ c = '\n' := by
    simpa [Stream.separates, or_assoc] using h
  have hword : continuesIdentifier c = false := by
    rcases hblank with rfl | rfl | rfl | rfl <;> decide
  have hnumber : continuesNumber c = false := by
    rcases hblank with rfl | rfl | rfl | rfl <;> decide
  intro lexeme
  cases lexeme with
  | identifier | word => exact hword
  | integer | float => exact hnumber
  | mark mark => rcases hblank with rfl | rfl | rfl | rfl <;> cases mark <;> rfl
  | string | illegal | eof => rfl

/-- A mark of one character goes on into those that make a longer mark of it. -/
theorem double?_of_goesOn {c d : Char} {mark : Mark} (hsingle : single? c = some mark)
    (h : (Lexeme.mark mark).goesOn d = false) : double? c d = none := by
  simpa [Lexeme.goesOn, spelling_of_single hsingle] using h

/-- A mark is scanned from its spelling where it is no part of a longer one. -/
theorem next_spelling (mark : Mark) (h : ∀ d ∈ rest.head?, (Lexeme.mark mark).goesOn d = false) :
    ∃ c tail, mark.spelling.toList = c :: tail ∧ Stream.separates c = false ∧
      ∀ place, ∃ reached, next place c (tail ++ rest) = .lexeme (.mark mark) rest reached := by
  cases mark with
  | equal | notEqual | lessEqual | greaterEqual | commentOpen | commentClose =>
      exact ⟨_, _, rfl, rfl, fun place => ⟨_, rfl⟩⟩
  | _ =>
      exact ⟨_, [], rfl, rfl, fun place =>
        ⟨_, next_mark place rfl fun d hd => double?_of_goesOn rfl (h d hd)⟩⟩

end Scan

/-- Characters from which the lexeme is scanned in front of some others. -/
def Lexeme.ScannedBy (lexeme : Lexeme) (text rest : List Char) : Prop :=
  ∃ c tail, text = c :: tail ∧ Stream.separates c = false ∧
    ∀ place, ∃ reached, Scan.next place c (tail ++ rest) = .lexeme lexeme rest reached

namespace Scan

variable {c : Char} {tail rest : List Char}

theorem IsWord.scannedBy (h : IsWord c tail)
    (hends : ∀ d ∈ rest.head?, continuesIdentifier d = false) :
    (word (String.ofList (c :: tail))).ScannedBy (c :: tail) rest :=
  ⟨c, tail, rfl, separates_of_starts (.inl h.starts), fun _ => ⟨_, next_word h hends⟩⟩

theorem IsNumber.scannedBy (h : IsNumber c tail)
    (hends : ∀ d ∈ rest.head?, continuesNumber d = false) :
    (number (c :: tail)).ScannedBy (c :: tail) rest :=
  ⟨c, tail, rfl, separates_of_starts (.inr h.digit), fun _ => ⟨_, next_number h hends⟩⟩

end Scan

namespace Lexeme.Covers

variable {lexeme : Lexeme} {text rest other : List Char}

/-- The text of a lexeme belongs to it in front of other characters that end it. -/
theorem inFront (h : lexeme.Covers text rest) (hends : ∀ c ∈ other.head?, lexeme.goesOn c = false) :
    lexeme.Covers text other :=
  ⟨h.formed, h.literal, h.quoted, hends⟩

/-- A lexeme is scanned from its text. -/
theorem scannedBy (h : lexeme.Covers text rest) : lexeme.ScannedBy text rest := by
  have hends := h.maximal
  cases lexeme with
  | identifier name =>
      obtain ⟨⟨c, tail, hname, hword⟩, hspelling⟩ := h.formed
      have hscanned := hword.scannedBy hends
      rw [← hname, String.ofList_toList, Scan.word, hspelling] at hscanned
      rw [h.literal fun hkind => by cases hkind]
      exact hscanned
  | integer digits =>
      obtain ⟨c, tail, hdigits, hnumber, hdot⟩ := h.formed
      have hscanned := hnumber.scannedBy hends
      rw [Scan.number, if_neg (by simpa using hdot), ← hdigits, String.ofList_toList] at hscanned
      rw [h.literal fun hkind => by cases hkind]
      exact hscanned
  | float digits =>
      obtain ⟨c, tail, hdigits, hnumber, hdot⟩ := h.formed
      have hscanned := hnumber.scannedBy hends
      rw [Scan.number, if_pos (by simpa using hdot), ← hdigits, String.ofList_toList] at hscanned
      rw [h.literal fun hkind => by cases hkind]
      exact hscanned
  | string contents =>
      obtain ⟨written, rfl, hwritten⟩ := h.quoted rfl
      have hnext := fun place => Scan.next_written hwritten place rest
      rw [Lexeme.literal, String.ofList_toList] at hnext
      exact ⟨'"', written ++ ['"'], rfl, rfl, hnext⟩
  | word keyword =>
      obtain ⟨c, tail, hspelling, hword, hlexeme⟩ := Scan.keyword_isWord keyword
      have htext : text = c :: tail := (h.literal fun hkind => by cases hkind).trans hspelling
      rw [htext, ← hlexeme]
      exact hword.scannedBy hends
  | mark mark =>
      rw [h.literal fun hkind => by cases hkind]
      exact Scan.next_spelling mark hends
  | illegal c =>
      obtain ⟨hsingle, hquote, hdigit, hstarts, hblank⟩ := h.formed
      have htext : text = [c] := by
        simpa [Lexeme.literal] using h.literal fun hkind => by cases hkind
      refine ⟨c, [], htext, hblank, fun place => ⟨place.right 1, ?_⟩⟩
      have hmark : Scan.mark? c ([] ++ rest) = none := Scan.mark?_eq_none_iff.2 hsingle
      unfold Scan.next
      rw [hmark]
      simp [hquote, hdigit, hstarts]
  | eof => exact h.formed.elim

end Lexeme.Covers

/-! ## Pieces -/

namespace Scans

variable {place : Location} {tokens : List Token} {last : Stream}

/-- Blanks give no tokens. -/
theorem blanks {blank rest : List Char} (hblank : ∀ c ∈ blank, Stream.separates c = true) :
    Scans place (blank ++ rest) tokens last ↔
      Scans (place.afterAll blank) rest tokens last := by
  induction blank generalizing place with
  | nil => rfl
  | cons c blank ih =>
      obtain ⟨hc, hblank⟩ := List.forall_mem_cons.1 hblank
      rw [List.cons_append, Scans.blank hc, ih hblank]
      rfl

/-- A piece of a text gives its token. -/
theorem piece {before after : List Char} {piece : Piece} (hfits : piece.Fits before after)
    (h : Scans (.behind before) (piece.chars ++ after) tokens last) :
    ∃ rest, tokens = piece.token :: rest ∧
      Scans (.behind (before ++ piece.chars)) after rest last := by
  obtain ⟨c, tail, htext, hblank, hnext⟩ := hfits.covers.scannedBy
  rw [Piece.chars, List.append_assoc, Scans.blanks hfits.blank, ← Location.behind_append,
    htext] at h
  obtain ⟨reached, hlexeme⟩ := hnext (.behind (before ++ piece.blank))
  obtain ⟨rest, rfl, hrest⟩ := h.token hblank hlexeme
  -- the place reached is the one behind the piece
  obtain ⟨text, hchars, _, rfl⟩ := Scan.next_covers hblank hlexeme
  obtain rfl : c :: tail = text := List.append_cancel_right hchars
  rw [← htext, ← Location.behind_append, List.append_assoc] at hrest
  exact ⟨rest, by rw [← hfits.location], hrest⟩

end Scans

/-! ## Cut texts -/

/-- `Cut before chars tokens` says that the characters behind `before` are the texts of the tokens,
at their places, with nothing but blanks between them and after them. -/
inductive Cut : (before chars : List Char) → List Token → Prop where
  | blank {before blank : List Char} :
    (∀ c ∈ blank, Stream.separates c = true) → Cut before blank []
  | piece {before after : List Char} {piece : Piece} {tokens : List Token} :
    piece.Fits before after → Cut (before ++ piece.chars) after tokens →
    Cut before (piece.chars ++ after) (piece.token :: tokens)

/-- A text that is cut into tokens scans to them. -/
theorem Cut.scans {before chars : List Char} {tokens tokens' : List Token} {last : Stream}
    (h : Cut before chars tokens) (hscans : Scans (.behind before) chars tokens' last) :
    tokens' = tokens ∧ last.status = .ended := by
  induction h generalizing tokens' with
  | @blank before blank hblank =>
      rw [← List.append_nil blank, Scans.blanks hblank] at hscans
      exact hscans.nil
  | piece hfits _ ih =>
      obtain ⟨rest, rfl, hrest⟩ := hscans.piece hfits
      obtain ⟨rfl, hended⟩ := ih hrest
      exact ⟨rfl, hended⟩

/-- Scanning cuts a text that it reads to its end. -/
theorem Scans.cut {before chars : List Char} {tokens : List Token} {last : Stream} {count : Nat}
    (hcount : chars.length < count) (h : Scans (.behind before) chars tokens last)
    (hlast : ∀ error, last.status ≠ .failed error) : Cut before chars tokens := by
  induction count generalizing before chars tokens with
  | zero => cases hcount
  | succ count ih =>
      rcases Stream.pull_cases before chars with ⟨hblank, hpull⟩ | ⟨piece, after, rfl, hfits, -⟩ |
        ⟨blank, text, fault, after, reached, -, -, -, hpull⟩
      · unfold Scans at h
        rw [Stream.drain, hpull] at h
        cases h
        exact .blank hblank
      · obtain ⟨rest, rfl, hrest⟩ := h.piece hfits
        obtain ⟨c, tail, htext, -⟩ := hfits.covers.scannedBy
        rw [Piece.chars, htext] at hcount
        simp only [List.length_append, List.length_cons] at hcount
        exact .piece hfits (ih (by omega) hrest)
      · unfold Scans at h
        rw [Stream.drain, hpull] at h
        cases h
        exact absurd rfl (hlast _)

/-- A text is read to its end, and gives the tokens, just if it is cut into them. -/
theorem scan_cut_iff {text : String} {tokens : List Token} :
    Cut [] text.toList tokens ↔ (scan text).tokens = tokens ∧ (scan text).failure = none := by
  constructor
  · intro h
    obtain ⟨last, hscans, hended⟩ := scans_scan text
    obtain ⟨htokens, hstatus⟩ := h.scans hscans
    exact ⟨htokens, hended hstatus⟩
  · rintro ⟨rfl, hfailure⟩
    obtain ⟨tokens, last, -, hdrain, hscan⟩ := scan_drain text
    have hlast : ∀ error, last.status ≠ .failed error := by
      intro error hstatus
      rw [hscan, hstatus] at hfailure
      cases hfailure
    have htokens : (scan text).tokens = tokens := by
      rw [hscan]
      split <;> rfl
    rw [htokens]
    refine Scans.cut (Nat.lt_succ_self _) ?_ hlast
    unfold Scans
    rw [String.length_toList]
    exact hdrain

end Script
