import Script.Proofs.Grammar.Locality

/-!
# Statements in front of a comment

What is read up to the end of the text is read in front of a comment as well, and more statements
can follow the comment: `Reads.statements_append`. A statement ends at the comment as it does at the
end of the text. Only a comment that is not closed goes on, up to the end of the other one.
-/

namespace Script

/-- The tokens of a comment, from its opening mark to the first closing one. -/
def IsComment (tokens : List Token) : Prop :=
  ∃ first skipped last, tokens =
      ⟨.mark .commentOpen, first⟩ :: (skipped ++ [⟨.mark .commentClose, last⟩]) ∧
    ∀ token ∈ skipped, token.lexeme ≠ .mark .commentClose ∧ token.lexeme ≠ .eof

namespace IsComment

variable {comment : List Token}

/-- A comment is read as nothing. -/
theorem reads (h : IsComment comment) (rest : List Token) :
    Reads False .statement (comment ++ rest) none rest := by
  obtain ⟨first, skipped, last, rfl, hskipped⟩ := h
  rw [List.cons_append, List.append_assoc]
  exact .comment hskipped

/-- A comment that is not closed goes on up to the end of the next one. -/
theorem reads_open (h : IsComment comment) {first : Location} {skipped : List Token}
    (hskipped : ∀ token ∈ skipped, token.lexeme ≠ .mark .commentClose ∧ token.lexeme ≠ .eof)
    (rest : List Token) :
    Reads False .statement (⟨.mark .commentOpen, first⟩ :: skipped ++ (comment ++ rest)) none
      rest := by
  obtain ⟨inner, skipped', last, rfl, hskipped'⟩ := h
  have htokens : ⟨.mark .commentOpen, first⟩ :: skipped ++
      (⟨.mark .commentOpen, inner⟩ :: (skipped' ++ [⟨.mark .commentClose, last⟩]) ++ rest) =
      ⟨.mark .commentOpen, first⟩ :: (skipped ++ ⟨.mark .commentOpen, inner⟩ :: skipped' ++
        ⟨.mark .commentClose, last⟩ :: rest) := by simp
  rw [htokens]
  exact .comment
    (List.forall_mem_append.2 ⟨hskipped, List.forall_mem_cons.2 ⟨⟨nofun, nofun⟩, hskipped'⟩⟩)

/-- A statement ends at a comment as at the end of the text. -/
theorem endAlike (h : IsComment comment) (rest : List Token) : EndAlike [] (comment ++ rest) := by
  obtain ⟨first, skipped, last, rfl, -⟩ := h
  exact ⟨.inr ⟨⟨rfl, nofun⟩, rfl, nofun⟩, fun _ => nofun⟩

theorem firstLexeme_append (h : IsComment comment) (rest : List Token) :
    firstLexeme (comment ++ rest) = .mark .commentOpen := by
  obtain ⟨first, skipped, last, rfl, -⟩ := h
  rfl

end IsComment

/-- How statements up to the end of the text are read in front of a comment and other tokens. -/
def Phrase.Continues (comment before after : List Token) : {α : Type} → Phrase α → α → Prop
  | _, .statement, result =>
    after = [] → ∀ rest,
      Reads False .statement (before ++ (comment ++ rest)) result (comment ++ rest) ∨
      Reads False .statement (before ++ (comment ++ rest)) result rest
  | _, .statements stops, result =>
    after = [] → stops (.mark .commentOpen) = false → stops .eof = true → ∀ rest more,
      Reads False (.statements stops) rest more [] →
      Reads False (.statements stops) (before ++ (comment ++ rest)) (result ++ more) []
  | _, _, _ => True

namespace Reads

variable {α : Type} {phrase : Phrase α} {before after other comment : List Token} {result : α}

/-- A phrase that takes something starts with a token. -/
theorem exists_cons {lenient : Prop} (h : Reads lenient phrase before result after)
    (hleast : phrase.least = 1) : ∃ token rest, before = token :: rest := by
  cases before with
  | nil =>
      have hlength := h.least_le
      rw [hleast, List.length_nil] at hlength
      exact absurd hlength (Nat.not_succ_le_zero _)
  | cons token rest => exact ⟨token, rest, rfl⟩

/-- Tokens can be put behind a reading that goes on alike in front of them. -/
theorem append (h : Reads False phrase before result after)
    (halike : phrase.Alike after (after ++ other)) :
    Reads False phrase (before ++ other) result (after ++ other) := by
  obtain ⟨taken, rfl, hreads⟩ := h.moves
  rw [List.append_assoc]
  exact hreads _ halike

/-- By induction over the statements, of which only the last one is next to the comment. -/
theorem continues (h : Reads False phrase before result after) (hcomment : IsComment comment) :
    phrase.Continues comment before after result := by
  induction h with
  | terminated hform =>
      rintro rfl rest
      exact .inl (.terminated (hform.append (.cons ..)))
  | unterminated hform _ =>
      rintro rfl rest
      refine .inl (.unterminated (hform.append (hcomment.endAlike rest)) ?_)
      rw [hcomment.firstLexeme_append]
      exact nofun
  | empty =>
      rintro rfl rest
      exact .inl .empty
  | @comment first last skipped after hskipped =>
      rintro rfl rest
      refine .inl ?_
      rw [List.cons_append, List.append_assoc]
      exact .comment hskipped
  | openComment hskipped =>
      rintro - rest
      exact .inr (hcomment.reads_open hskipped rest)
  | @statementsEnd stops after hstops =>
      rintro rfl hopen - rest more hrest
      refine .statementsMore ?_ (hcomment.reads rest) hrest
      rwa [hcomment.firstLexeme_append]
  | @statementsMore stops before statement middle result after hstops hstatement hmore ih ih' =>
      rintro rfl hopen hend rest more hrest
      have hlater := ih' rfl hopen hend rest more hrest
      obtain ⟨token, taken, rfl⟩ := hstatement.exists_cons rfl
      rw [List.append_assoc]
      cases middle with
      | cons next middle =>
          exact .statementsMore hstops (hstatement.append (.cons ..)) hlater
      | nil =>
          rcases ih rfl rest with hended | hopen'
          · exact .statementsMore hstops hended hlater
          · -- the statement was a comment that is not closed, and nothing comes after it
            obtain ⟨rfl, -⟩ := hmore.unique (.statementsEnd hend)
            exact .statementsMore hstops hopen' hrest
  | skipped hlenient => exact False.elim hlenient
  | _ => trivial

/-- Statements up to the end of the text, a comment, and more statements after it. -/
theorem statements_append {statements more : List Statement} {rest : List Token}
    (h : Reads False (.statements fun lexeme => lexeme = .eof) before statements [])
    (hcomment : IsComment comment)
    (hrest : Reads False (.statements fun lexeme => lexeme = .eof) rest more []) :
    Reads False (.statements fun lexeme => lexeme = .eof) (before ++ (comment ++ rest))
      (statements ++ more) [] :=
  h.continues hcomment rfl rfl rfl rest more hrest

end Reads

end Script
