import Script.Proofs.Grammar.Appending
import Script.Proofs.Grammar.TokenOrder
import Script.Proofs.Program.Relocated

/-!
# Programs one after the other

Two texts that are read without errors, with a comment between them, are read as the statements of
both: `Program.ofText_sequence`. The first text may end in the middle of a comment.
-/

namespace Script

/-- The programs of a text that is scanned to its end and can be read without skipping anything. -/
theorem Program.ofText_eq_ok_iff {text : String} {program : Program} :
    Program.ofText text = .ok program ↔ (scan text).failure = none ∧
      Reads False (.statements fun lexeme => lexeme = .eof) (scan text).tokens
        program.statements [] := by
  rw [Program.ofText_eq_ok]
  constructor
  · intro h
    have hparsed : Program.ofScanned (scan text) = ⟨program, []⟩ := h
    have hfailures := Program.ofScanned_failures (scan_proper text)
    have hreads := Program.ofScanned_reads (scan_proper text)
    rw [hparsed] at hfailures hreads
    have hstrict : (0 < ([] : List SyntaxError).length) = False := eq_false (Nat.lt_irrefl 0)
    refine ⟨?_, hstrict ▸ hreads⟩
    cases hfailure : (scan text).failure with
    | none => rfl
    | some error =>
        rw [hfailure] at hfailures
        cases hfailures
  · rintro ⟨hfailure, hreads⟩
    exact Program.ofScanned_eq hfailure hreads

/-- A comment is one at other places as well. -/
theorem IsComment.relocated {tokens : List Token} (h : IsComment tokens)
    (change : Location → Location) : IsComment (tokens.map (Token.relocated change)) := by
  obtain ⟨first, skipped, last, rfl, hskipped⟩ := h
  refine ⟨change first, skipped.map (Token.relocated change), change last, ?_,
    List.forall_mem_map.2 hskipped⟩
  rw [List.map_cons, List.map_append]
  rfl

/-- A text between the marks of a comment gives the tokens of a comment. -/
theorem scan_enclosed {comment : String} (hcomment : (scan comment).failure = none)
    (hclose : ∀ token ∈ (scan comment).tokens, token.lexeme ≠ .mark .commentClose) :
    IsComment (scan ("/* " ++ comment ++ " */")).tokens ∧
      (scan ("/* " ++ comment ++ " */")).failure = none := by
  have htext : "/* " ++ comment ++ " */" = "/*" ++ " " ++ comment ++ " " ++ "*/" := by
    have hopen : "/* " = "/*" ++ " " := rfl
    have hend : " */" = " " ++ "*/" := rfl
    rw [hopen, hend]
    simp only [String.append_assoc]
  have hmarks : (scan "/*").failure = none ∧ (scan "*/").failure = none := ⟨rfl, rfl⟩
  have htokens : (scan "/*").tokens = [⟨.mark .commentOpen, .start⟩] ∧
      (scan "*/").tokens = [⟨.mark .commentClose, .start⟩] := ⟨rfl, rfl⟩
  obtain ⟨hinner, hfailure⟩ := scan_join hmarks.1 hcomment
  obtain ⟨hlast, hfailure⟩ := scan_join hfailure hmarks.2
  rw [hinner, htokens.1, htokens.2, List.append_assoc, List.map_singleton,
    List.singleton_append] at hlast
  rw [htext, hlast]
  refine ⟨⟨_, _, _, rfl, List.forall_mem_map.2 fun token htoken => ?_⟩, hfailure⟩
  exact ⟨hclose token htoken, scan_proper comment token htoken⟩

/-- So it does at the end of another text. -/
theorem scan_comment {front comment : String} (hfront : (scan front).failure = none)
    (hcomment : (scan comment).failure = none)
    (hclose : ∀ token ∈ (scan comment).tokens, token.lexeme ≠ .mark .commentClose) :
    ∃ tokens, IsComment tokens ∧
      (scan (front ++ " /* " ++ comment ++ " */")).tokens = (scan front).tokens ++ tokens ∧
      (scan (front ++ " /* " ++ comment ++ " */")).failure = none := by
  have htext : front ++ " /* " ++ comment ++ " */" =
      front ++ " " ++ ("/* " ++ comment ++ " */") := by
    have hopen : " /* " = " " ++ "/* " := rfl
    rw [hopen]
    simp only [String.append_assoc]
  obtain ⟨htokens, hfailure⟩ := scan_enclosed hcomment hclose
  rw [htext]
  exact ⟨_, htokens.relocated _, scan_join hfront hfailure⟩

/-- The statements of two texts with a comment between them are those of the first text and then
those of the second one, which stand at the places that are counted from where it starts. Neither
how the first text ends nor what the comment says matters, as long as nothing in the comment closes
it. -/
theorem Program.ofText_sequence {first comment second : String} {earlier later : Program}
    (hfirst : Program.ofText first = .ok earlier) (hsecond : Program.ofText second = .ok later)
    (hcomment : (scan comment).failure = none)
    (hclose : ∀ token ∈ (scan comment).tokens, token.lexeme ≠ .mark .commentClose) :
    let front := first ++ " /* " ++ comment ++ " */ "
    Program.ofText (front ++ second) = .ok ⟨earlier.statements ++
      later.statements.map (Statement.relocated (Location.behind front.toList).shift)⟩ := by
  intro front
  obtain ⟨hscanned, hearlier⟩ := Program.ofText_eq_ok_iff.1 hfirst
  obtain ⟨hscanned', hlater⟩ := Program.ofText_eq_ok_iff.1 hsecond
  obtain ⟨tokens, htokens, hfront, hfailure⟩ := scan_comment hscanned hcomment hclose
  obtain ⟨hwhole, hend⟩ := scan_join hfailure hscanned'
  have hsplit : front = first ++ " /* " ++ comment ++ " */" ++ " " := by
    have hmark : " */ " = " */" ++ " " := rfl
    show first ++ " /* " ++ comment ++ " */ " = _
    rw [hmark]
    simp only [String.append_assoc]
  rw [hfront, ← hsplit] at hwhole
  rw [← hsplit] at hend
  refine Program.ofText_eq_ok_iff.2 ⟨hend, ?_⟩
  rw [hwhole, List.append_assoc]
  exact hearlier.statements_append htokens (hlater.relocated _)

/-- The statement that is a name at a place. -/
def Statement.ofName (name : String) (line column : Nat) : Statement :=
  .expression ⟨.identifier name, ⟨line, column⟩⟩ (.identifier ⟨name, ⟨line, column⟩⟩)

/-- A comment at the end of the first text is closed by the one between the texts, and only the
first line of the second text is moved to the right. -/
theorem Program.ofText_sequence_unclosed :
    Program.ofText "f /* half" = .ok ⟨[.ofName "f" 1 1]⟩ ∧
      Program.ofText "g\nh" = .ok ⟨[.ofName "g" 1 1, .ofName "h" 2 1]⟩ ∧
      (scan "x").failure = none ∧
      (∀ token ∈ (scan "x").tokens, token.lexeme ≠ .mark .commentClose) ∧
      Program.ofText ("f /* half" ++ " /* " ++ "x" ++ " */ " ++ "g\nh") =
        .ok ⟨[.ofName "f" 1 1, .ofName "g" 1 19, .ofName "h" 2 1]⟩ := by
  have hfirst : Program.ofText "f /* half" = .ok ⟨[.ofName "f" 1 1]⟩ := rfl
  have hsecond : Program.ofText "g\nh" = .ok ⟨[.ofName "g" 1 1, .ofName "h" 2 1]⟩ := rfl
  have hcomment : (scan "x").failure = none := rfl
  have hclose : ∀ token ∈ (scan "x").tokens, token.lexeme ≠ .mark .commentClose := by decide
  exact ⟨hfirst, hsecond, hcomment, hclose,
    Program.ofText_sequence hfirst hsecond hcomment hclose⟩

end Script
