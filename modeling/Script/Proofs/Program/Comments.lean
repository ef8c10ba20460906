import Mathlib.Data.List.Basic
import Script.Proofs.Program.Sequence

/-!
# Comments

A comment is scanned like the rest of a text, and its tokens are skipped. So it may hold everything
that can be scanned to its end and does not close it: `Program.ofText_comment`. In particular quotes
come in pairs in a comment, with known escapes between them.
-/

namespace Script

/-! ## Parts of a text -/

/-- A lexeme goes on into characters that are no blanks. -/
theorem Lexeme.not_blank_of_goesOn (lexeme : Lexeme) {c : Char} (h : lexeme.goesOn c = true) :
    Stream.separates c = false := by
  by_contra hblank
  have hends : lexeme.goesOn c = false :=
    Scan.parts_of_separates (eq_true_of_ne_false hblank) lexeme
  rw [h] at hends
  cases hends

/-- No blank is part of a word. -/
theorem Scan.IsWord.not_blank {c : Char} {tail : List Char} (h : IsWord c tail) :
    ∀ d ∈ c :: tail, Stream.separates d = false :=
  List.forall_mem_cons.2 ⟨separates_of_starts (.inl h.starts),
    fun d hd => Lexeme.not_blank_of_goesOn (.identifier "") (h.continues d hd)⟩

/-- No blank is part of a number. -/
theorem Scan.IsNumber.not_blank {c : Char} {tail : List Char} (h : IsNumber c tail) :
    ∀ d ∈ c :: tail, Stream.separates d = false :=
  List.forall_mem_cons.2 ⟨separates_of_starts (.inr h.digit),
    fun d hd => Lexeme.not_blank_of_goesOn (.integer "") (h.continues d hd)⟩

/-- Only the text of a string has blanks in it. -/
theorem Lexeme.Covers.not_blank {lexeme : Lexeme} {text rest : List Char}
    (h : lexeme.Covers text rest) (hkind : lexeme.kind ≠ .string) :
    ∀ c ∈ text, Stream.separates c = false := by
  rw [h.literal hkind]
  cases lexeme with
  | identifier name =>
      obtain ⟨⟨c, tail, hname, hword⟩, -⟩ := h.formed
      rw [Lexeme.literal, hname]
      exact hword.not_blank
  | integer digits | float digits =>
      obtain ⟨c, tail, hdigits, hnumber, -⟩ := h.formed
      rw [Lexeme.literal, hdigits]
      exact hnumber.not_blank
  | word keyword =>
      obtain ⟨c, tail, hspelling, hword, -⟩ := Scan.keyword_isWord keyword
      rw [Lexeme.literal, hspelling]
      exact hword.not_blank
  | mark mark =>
      have hall : mark.spelling.toList.all (!Stream.separates ·) = true := by cases mark <;> rfl
      simpa [Lexeme.literal] using hall
  | illegal c =>
      obtain ⟨-, -, -, -, hblank⟩ := h.formed
      simpa [Lexeme.literal] using hblank
  | string contents => exact absurd rfl hkind
  | eof => exact h.formed.elim

/-- A text that goes on behind a blank in it ends with the quote of a string. -/
theorem Lexeme.Covers.quote_mem {lexeme : Lexeme} {text rest front back : List Char} {c : Char}
    (h : lexeme.Covers text rest) (htext : text = front ++ c :: back)
    (hblank : Stream.separates c = true) : '"' ∈ c :: back := by
  have hkind : lexeme.kind = .string := by
    by_contra hkind
    have hc := h.not_blank hkind c (by simp [htext])
    rw [hblank] at hc
    cases hc
  obtain ⟨written, hquoted, -⟩ := h.quoted hkind
  have hlast : text.getLast? = some '"' := by
    rw [hquoted, ← List.cons_append, List.getLast?_concat]
  rw [htext, List.getLast?_append_cons] at hlast
  exact List.mem_of_getLast? hlast

/-- A piece is parted by a blank without a quote behind it only in front of its text. -/
theorem Piece.Fits.blank_of_parted {before after front back : List Char} {piece : Piece} {c : Char}
    (h : piece.Fits before after) (hchars : piece.chars = front ++ c :: back)
    (hblank : Stream.separates c = true) (hquote : '"' ∉ c :: back) :
    ∀ d ∈ front, Stream.separates d = true := by
  rcases List.append_eq_append_iff.1 hchars with ⟨inner, rfl, htext⟩ | ⟨inner, hfront, -⟩
  · exact absurd (h.covers.quote_mem htext hblank) hquote
  · intro d hd
    exact h.blank d (by rw [hfront]; exact List.mem_append_left _ hd)

namespace Cut

variable {before chars : List Char} {tokens : List Token}

/-- The literals of tokens that are no strings stand in the text. -/
theorem literal_infix (h : Cut before chars tokens) :
    ∀ token ∈ tokens, token.kind ≠ .string → token.literal.toList <:+: chars := by
  induction h with
  | blank => exact List.forall_mem_nil _
  | @piece before after piece tokens hfits _ ih =>
      refine List.forall_mem_cons.2 ⟨fun hkind => ?_, fun token htoken hkind => ?_⟩
      · refine ⟨piece.blank, after, ?_⟩
        rw [Piece.chars, hfits.covers.literal hkind]
        rfl
      · exact (ih token htoken hkind).trans (List.suffix_append _ _).isInfix

/-- A text can be cut wherever it stands. -/
theorem anywhere (h : Cut before chars tokens) (other : List Char) :
    ∃ tokens, Cut other chars tokens := by
  induction h generalizing other with
  | blank hblank => exact ⟨[], .blank hblank⟩
  | @piece before after piece tokens hfits _ ih =>
      obtain ⟨tokens, hrest⟩ := ih (other ++ piece.chars)
      have hmoved : Piece.Fits other ⟨piece.blank, piece.text,
          ⟨piece.token.lexeme, .behind (other ++ piece.blank)⟩⟩ after :=
        ⟨hfits.blank, rfl, hfits.covers⟩
      have hcut := Cut.piece hmoved hrest
      exact ⟨_, hcut⟩

/-- The part of a text in front of a blank is cut by itself if there is no quote behind it, as only
strings have blanks in them. -/
theorem front {front back : List Char} (hback : ∀ c ∈ back.head?, Stream.separates c = true)
    (hquote : '"' ∉ back) (h : Cut before (front ++ back) tokens) :
    ∃ tokens, Cut before front tokens := by
  generalize hchars : front ++ back = chars at h
  induction h generalizing front with
  | blank hblank =>
      subst hchars
      exact ⟨[], .blank fun c hc => hblank c (List.mem_append_left _ hc)⟩
  | @piece before after piece tokens hfits _ ih =>
      rcases List.append_eq_append_iff.1 hchars with ⟨tail, hpiece, rfl⟩ | ⟨tail, rfl, hafter⟩
      · -- the part ends in the piece
        cases tail with
        | nil =>
            rw [List.append_nil] at hpiece
            rw [← hpiece, ← List.append_nil piece.chars]
            exact ⟨_, .piece ⟨hfits.blank, hfits.location, hfits.covers.inFront nofun⟩
              (.blank (List.forall_mem_nil _))⟩
        | cons c tail =>
            have hblank : Stream.separates c = true := hback c rfl
            have hquote' : '"' ∉ c :: tail := fun hmem => hquote (List.mem_append_left _ hmem)
            exact ⟨[], .blank (hfits.blank_of_parted hpiece hblank hquote')⟩
      · -- the piece belongs to the part
        obtain ⟨tokens, hrest⟩ := ih hafter.symm
        refine ⟨_, .piece ⟨hfits.blank, hfits.location, hfits.covers.inFront ?_⟩ hrest⟩
        intro c hc
        cases tail with
        | nil => cases hc
        | cons => exact hfits.covers.maximal c (by rw [hafter]; exact hc)

end Cut

/-! ## Texts in comments -/

/-- A text in a comment, with a blank behind it. -/
def Text.commented (text : String) : String :=
  "/* " ++ text ++ " */ "

variable {comment : String}

/-- A text that does not close a comment has no token that does. -/
theorem scan_not_closes (hcomment : (scan comment).failure = none)
    (hclose : ¬ ['*', '/'] <:+: comment.toList) :
    ∀ token ∈ (scan comment).tokens, token.lexeme ≠ .mark .commentClose := by
  intro token htoken hlexeme
  have hcut : Cut [] comment.toList (scan comment).tokens := scan_cut_iff.2 ⟨rfl, hcomment⟩
  have hkind : token.kind ≠ .string := by
    rw [Token.kind, hlexeme]
    intro hkind
    cases hkind
  have hinfix := hcut.literal_infix token htoken hkind
  rw [Token.literal, hlexeme] at hinfix
  exact hclose hinfix

/-- If a text can be scanned in a comment, then it can be scanned by itself. -/
theorem scan_of_commented (h : (scan (Text.commented comment)).failure = none) :
    (scan comment).failure = none := by
  have hwhole : Cut [] (Text.commented comment).toList _ := scan_cut_iff.2 ⟨rfl, h⟩
  obtain ⟨last, hscans, -⟩ := scans_scan (Text.commented comment)
  obtain ⟨-, hended⟩ := hwhole.scans hscans
  have hchars : (Text.commented comment).toList =
      '/' :: '*' :: ' ' :: (comment.toList ++ [' ', '*', '/', ' ']) := by
    simp [Text.commented, String.toList_append]
  rw [hchars] at hscans
  -- the opening mark and the blank behind it are taken off
  obtain ⟨tokens, -, hscans⟩ := hscans.token rfl rfl
  have hinner : Cut ['/', '*', ' '] (comment.toList ++ [' ', '*', '/', ' ']) tokens :=
    hscans.space.cut (Nat.lt_succ_self _) fun error hfailed => by
      rw [hended] at hfailed
      cases hfailed
  have hback : ∀ c ∈ [' ', '*', '/', ' '].head?, Stream.separates c = true := by
    rintro _ ⟨⟩
    rfl
  obtain ⟨tokens, hfront⟩ := hinner.front hback (by decide)
  obtain ⟨tokens, hcut⟩ := hfront.anywhere []
  exact (scan_cut_iff.1 hcut).2

/-- The texts that do not close a comment and can be scanned to their ends are those that a comment
may hold in front of every program, which then stands at the places that are counted from where it
starts. -/
theorem Program.ofText_comment (hclose : ¬ ['*', '/'] <:+: comment.toList) :
    (scan comment).failure = none ↔ ∀ source program, Program.ofText source = .ok program →
      Program.ofText (Text.commented comment ++ source) = .ok ⟨program.statements.map
        (Statement.relocated (Location.behind (Text.commented comment).toList).shift)⟩ := by
  constructor
  · intro hcomment source program hsource
    obtain ⟨hscanned, hreads⟩ := Program.ofText_eq_ok_iff.1 hsource
    obtain ⟨henclosed, hfailure⟩ := scan_enclosed hcomment (scan_not_closes hcomment hclose)
    obtain ⟨hwhole, hend⟩ := scan_join hfailure hscanned
    have hsplit : Text.commented comment = "/* " ++ comment ++ " */" ++ " " := by
      have hmark : " */ " = " */" ++ " " := rfl
      rw [Text.commented, hmark]
      simp only [String.append_assoc]
    rw [← hsplit] at hwhole hend
    refine Program.ofText_eq_ok_iff.2 ⟨hend, ?_⟩
    rw [hwhole]
    refine .statementsMore ?_ (henclosed.reads _) (hreads.relocated _)
    rw [henclosed.firstLexeme_append]
    rfl
  · intro h
    have hfront := h "" ⟨[]⟩ rfl
    rw [String.append_empty] at hfront
    exact scan_of_commented (Program.ofText_eq_ok_iff.1 hfront).1

/-- A string with an escaped quote, a number of no value, marks and an illegal character in a
comment of two lines. -/
theorem Program.ofText_comment_marks :
    ¬ ['*', '/'] <:+: "\"a \\\" b\" 1.2.3 /* # fn(\n**".toList ∧
      (scan "\"a \\\" b\" 1.2.3 /* # fn(\n**").failure = none ∧
      Program.ofText (Text.commented "\"a \\\" b\" 1.2.3 /* # fn(\n**" ++ "g\nh") =
        .ok ⟨[.ofName "g" 2 7, .ofName "h" 3 1]⟩ := by
  have hclose : ¬ ['*', '/'] <:+: "\"a \\\" b\" 1.2.3 /* # fn(\n**".toList := by decide +kernel
  have hcomment : (scan "\"a \\\" b\" 1.2.3 /* # fn(\n**").failure = none := rfl
  have hsource : Program.ofText "g\nh" = .ok ⟨[.ofName "g" 1 1, .ofName "h" 2 1]⟩ := rfl
  exact ⟨hclose, hcomment, (Program.ofText_comment hclose).1 hcomment _ _ hsource⟩

/-- A quote in a comment is not closed by the mark at the end of the comment. -/
theorem Program.comment_unclosedQuote :
    ¬ ['*', '/'] <:+: "\"".toList ∧
      Program.ofText "1" = .ok ⟨[.expression ⟨.integer "1", ⟨1, 1⟩⟩ (.integer ⟨1, 1⟩ "1" 1)]⟩ ∧
      Program.ofText (Text.commented "\"" ++ "1") =
        .error [.scan ⟨.unterminatedString, ⟨1, 4⟩⟩] :=
  ⟨by decide +kernel, rfl, rfl⟩

end Script
