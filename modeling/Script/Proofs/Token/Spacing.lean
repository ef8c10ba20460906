import Script.Proofs.Token.Rescanning

/-!
# Texts with blanks between their tokens

`Spaced` says that a text is written as some tokens with blanks between them, and `Spaced.scan`
that it scans to these tokens. Next to a blank every lexeme ends, so it is enough that each piece
of the text is the text of its lexeme.
-/

namespace Script

/-- `Spaced before chars tokens` says that the characters behind `before` are the texts of the
tokens, at their places, with at least one blank between two of them. -/
inductive Spaced : (before chars : List Char) → List Token → Prop where
  | blank {before blank : List Char} :
    (∀ c ∈ blank, Stream.separates c = true) → Spaced before blank []
  | piece {before after : List Char} {piece : Piece} {tokens : List Token} :
    piece.Fits before [] → (∀ c ∈ after.head?, Stream.separates c = true) →
    Spaced (before ++ piece.chars) after tokens →
    Spaced before (piece.chars ++ after) (piece.token :: tokens)

namespace Spaced

/-- Such a text is cut into its tokens. -/
theorem cut {before chars : List Char} {tokens : List Token} (h : Spaced before chars tokens) :
    Cut before chars tokens := by
  induction h with
  | blank hblank => exact .blank hblank
  | piece hfits hafter _ ih =>
      have hcovers := hfits.covers.inFront fun c hc => Scan.parts_of_separates (hafter c hc) _
      exact .piece ⟨hfits.blank, hfits.location, hcovers⟩ ih

/-- A token between two blanks. -/
theorem between {before text rest : List Char} {lexeme : Lexeme} {tokens : List Token}
    (hcovers : lexeme.Covers text [])
    (h : Spaced (before ++ ' ' :: text) (' ' :: rest) tokens) :
    Spaced before (' ' :: text ++ ' ' :: rest)
      (⟨lexeme, .behind (before ++ [' '])⟩ :: tokens) := by
  have hfits : Piece.Fits before ⟨[' '], text, ⟨lexeme, .behind (before ++ [' '])⟩⟩ [] :=
    ⟨List.forall_mem_singleton.2 rfl, rfl, hcovers⟩
  refine .piece hfits ?_ h
  rintro _ ⟨⟩
  rfl

/-- Such a text is scanned to its end. -/
theorem scan {source : String} {tokens : List Token} (h : Spaced [] source.toList tokens) :
    (Script.scan source).tokens = tokens ∧ (Script.scan source).failure = none :=
  scan_cut_iff.1 h.cut

end Spaced

end Script
