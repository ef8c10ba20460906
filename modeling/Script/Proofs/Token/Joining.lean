import Mathlib.Data.List.Induction
import Script.Proofs.Token.Rescanning

/-!
# Texts one after the other

Two texts that are read to their ends, with a blank between them, give the tokens of both, those of
the second one at their places counted from where it starts: `scan_join`. A semicolon may stand
between them as well, which is a token of its own: `scan_semicolon`.
-/

namespace Script

/-! ## Places in a part of a text -/

/-- The place in a text of what stands at `place` in a part of it that starts at `origin`. Only on
its first line the part is moved to the right. -/
def Location.shift (origin place : Location) : Location :=
  if place.line = 1 then ⟨origin.line, origin.column + (place.column - 1)⟩
  else ⟨origin.line + (place.line - 1), place.column⟩

/-- Counting on in a part of a text. -/
theorem Location.shift_after {origin place : Location} (hline : 0 < place.line)
    (hcolumn : 0 < place.column) (c : Char) :
    (origin.shift place).after c = origin.shift (place.after c) := by
  have hlines : origin.line + (place.line - 1) + 1 = origin.line + (place.line + 1 - 1) := by omega
  have hcolumns : origin.column + (place.column - 1) + 1 =
      origin.column + (place.column + 1 - 1) := by omega
  have hnext : place.line + 1 ≠ 1 := by omega
  unfold after
  by_cases hfeed : c = '\n'
  · rw [if_pos hfeed, if_pos hfeed, newLine, newLine, shift, shift, if_neg hnext, ← hlines]
    by_cases hfirst : place.line = 1
    · rw [if_pos hfirst, hfirst]
    · rw [if_neg hfirst]
  · rw [if_neg hfeed, if_neg hfeed, right, right, shift, shift]
    by_cases hfirst : place.line = 1
    · rw [if_pos hfirst, if_pos hfirst, ← hcolumns]
    · rw [if_neg hfirst, if_neg hfirst]

/-- Counting from the start of a part and then from the start of the text. -/
theorem Location.behind_shift (before chars : List Char) :
    behind (before ++ chars) = (behind before).shift (behind chars) := by
  induction chars using List.reverseRecOn with
  | nil => simp [behind, shift]
  | append_singleton chars c ih =>
      have hline : 0 < (behind chars).line := by simp only [behind]; omega
      have hcolumn : 0 < (behind chars).column := by simp only [behind]; omega
      rw [← List.append_assoc, behind_concat, behind_concat, ih, shift_after hline hcolumn]

/-- A token at another place. -/
def Token.relocated (change : Location → Location) (token : Token) : Token :=
  ⟨token.lexeme, change token.location⟩

namespace Cut

variable {before front back inner chars : List Char} {tokens more : List Token}

/-- A blank belongs to what follows it. -/
theorem blanks (hfront : ∀ c ∈ front, Stream.separates c = true)
    (h : Cut (before ++ front) back tokens) : Cut before (front ++ back) tokens := by
  cases h with
  | blank hblank => exact .blank (List.forall_mem_append.2 ⟨hfront, hblank⟩)
  | @piece _ after piece tokens hfits hrest =>
      have hblank : ∀ c ∈ front ++ piece.blank, Stream.separates c = true :=
        List.forall_mem_append.2 ⟨hfront, hfits.blank⟩
      have hchars : front ++ (piece.chars ++ after) =
          Piece.chars ⟨front ++ piece.blank, piece.text, piece.token⟩ ++ after := by
        simp [Piece.chars]
      rw [hchars]
      refine .piece ⟨hblank, ?_, hfits.covers⟩ ?_
      · rw [hfits.location, List.append_assoc]
      · simpa [Piece.chars] using hrest

/-- Characters that no lexeme goes on into do not change how the text in front of them is cut. -/
theorem append (hparts : ∀ c ∈ back.head?, Scan.Parts c) (h : Cut before front tokens)
    (hback : Cut (before ++ front) back more) : Cut before (front ++ back) (tokens ++ more) := by
  induction h with
  | blank hblank => exact blanks hblank hback
  | @piece before after piece tokens hfits _ ih =>
      have hends : ∀ c ∈ (after ++ back).head?, piece.token.lexeme.goesOn c = false := by
        cases after with
        | nil => exact fun c hc => hparts c hc _
        | cons => exact hfits.covers.maximal
      rw [List.append_assoc]
      refine .piece ⟨hfits.blank, hfits.location, hfits.covers.inFront hends⟩ (ih ?_)
      rwa [List.append_assoc]

/-- A text is cut alike wherever it starts. -/
theorem shift (before : List Char) (h : Cut inner chars tokens) :
    Cut (before ++ inner) chars (tokens.map (Token.relocated (Location.behind before).shift)) := by
  induction h with
  | blank hblank => exact .blank hblank
  | @piece inner after piece tokens hfits _ ih =>
      have hmoved : Piece.Fits (before ++ inner)
          ⟨piece.blank, piece.text, piece.token.relocated (Location.behind before).shift⟩
          after := by
        refine ⟨hfits.blank, ?_, hfits.covers⟩
        show (Location.behind before).shift piece.token.location = _
        rw [hfits.location, List.append_assoc, Location.behind_shift before]
      refine .piece hmoved ?_
      rwa [← List.append_assoc] at ih

end Cut

/-- Two texts with a blank between them are scanned one after the other. -/
theorem scan_join {front back : String} (hfront : (scan front).failure = none)
    (hback : (scan back).failure = none) :
    (scan (front ++ " " ++ back)).tokens = (scan front).tokens ++
        (scan back).tokens.map (Token.relocated (Location.behind (front ++ " ").toList).shift) ∧
      (scan (front ++ " " ++ back)).failure = none := by
  have hcut : Cut [] front.toList (scan front).tokens := scan_cut_iff.2 ⟨rfl, hfront⟩
  have hrest : Cut [] back.toList (scan back).tokens := scan_cut_iff.2 ⟨rfl, hback⟩
  have hblank : ∀ c ∈ [' '], Stream.separates c = true := List.forall_mem_singleton.2 rfl
  have hmoved := hrest.shift (front ++ " ").toList
  rw [List.append_nil] at hmoved
  refine scan_cut_iff.1 ?_
  have hchars : (front ++ " " ++ back).toList = front.toList ++ ([' '] ++ back.toList) := by
    simp [String.toList_append]
  rw [hchars]
  refine hcut.append ?_ (Cut.blanks hblank ?_)
  · rintro _ ⟨⟩
    exact Scan.parts_of_separates rfl
  · simpa [String.toList_append] using hmoved

/-- A text that is read to its end ends where its last character does. -/
theorem scan_finish {text : String} (h : (scan text).failure = none) :
    (scan text).finish = Location.behind text.toList := by
  obtain ⟨tokens, last, hcount, hdrain, hscan⟩ := scan_drain text
  obtain ⟨pieces, blank, tail, -, -, -, -, hlast⟩ := Stream.drain_pieces hcount hdrain
  rw [hscan] at h ⊢
  rcases hlast with ⟨-, rfl⟩ | ⟨inner, fault, rest, reached, -, -, rfl⟩
  · rfl
  · cases h

/-- No lexeme goes on into a semicolon. -/
theorem Scan.parts_semicolon : Parts ';' := by
  have hword : continuesIdentifier ';' = false := by decide
  have hnumber : continuesNumber ';' = false := by decide
  intro lexeme
  cases lexeme with
  | identifier | word => exact hword
  | integer | float => exact hnumber
  | mark mark => cases mark <;> rfl
  | string | illegal | eof => rfl

/-- The text of a semicolon, whatever follows it. -/
theorem Lexeme.covers_semicolon (rest : List Char) :
    (Lexeme.mark .semicolon).Covers [';'] rest where
  formed := trivial
  literal _ := rfl
  quoted hkind := by cases hkind
  maximal _ _ := rfl

/-- Two texts with a semicolon between them are scanned one after the other. -/
theorem scan_semicolon {front back : String} (hfront : (scan front).failure = none)
    (hback : (scan back).failure = none) :
    scan (front ++ ";" ++ back) =
      ⟨(scan front).tokens ++ ⟨.mark .semicolon, .behind front.toList⟩ ::
          (scan back).tokens.map (Token.relocated (Location.behind (front ++ ";").toList).shift),
        (Location.behind (front ++ ";").toList).shift (scan back).finish, none⟩ := by
  have hcut : Cut [] front.toList (scan front).tokens := scan_cut_iff.2 ⟨rfl, hfront⟩
  have hrest : Cut [] back.toList (scan back).tokens := scan_cut_iff.2 ⟨rfl, hback⟩
  have hmoved := hrest.shift (front ++ ";").toList
  have hpiece : Piece.Fits front.toList ⟨[], [';'], ⟨.mark .semicolon, .behind front.toList⟩⟩
      back.toList :=
    ⟨List.forall_mem_nil _, by rw [List.append_nil], Lexeme.covers_semicolon _⟩
  have hparts : ∀ c ∈ (';' :: back.toList).head?, Scan.Parts c := by
    rintro _ ⟨⟩
    exact Scan.parts_semicolon
  have hwhole : Cut [] (front ++ ";" ++ back).toList
      ((scan front).tokens ++ ⟨.mark .semicolon, .behind front.toList⟩ :: (scan back).tokens.map
        (Token.relocated (Location.behind (front ++ ";").toList).shift)) := by
    have hchars : (front ++ ";" ++ back).toList = front.toList ++ (';' :: back.toList) := by
      simp [String.toList_append]
    rw [hchars]
    refine hcut.append hparts (.piece hpiece ?_)
    simpa [String.toList_append, Piece.chars] using hmoved
  obtain ⟨htokens, hfailure⟩ := scan_cut_iff.1 hwhole
  have hfinish : (scan (front ++ ";" ++ back)).finish =
      (Location.behind (front ++ ";").toList).shift (scan back).finish := by
    rw [scan_finish hfailure, scan_finish hback, String.toList_append, Location.behind_shift]
  generalize scan (front ++ ";" ++ back) = scanned at htokens hfailure hfinish
  cases scanned
  cases htokens
  cases hfailure
  cases hfinish
  rfl

/-- A semicolon at the end of a text is its last token. -/
theorem scan_semicolon_last {front : String} (hfront : (scan front).failure = none) :
    scan (front ++ ";") = ⟨(scan front).tokens ++ [⟨.mark .semicolon, .behind front.toList⟩],
      .behind (front ++ ";").toList, none⟩ := by
  have hempty : (scan "").failure = none := rfl
  have hscan := scan_semicolon hfront hempty
  rw [String.append_empty] at hscan
  exact hscan

end Script
