import Script.Proofs.Grammar.Completeness.Expression

/-!
# Statements are read by rules

The rule of statements reads a statement if the rules of its parts read them, for each form of
statements, and goes past the semicolon that may follow it.
-/

namespace Script

namespace Phrase.Applies

variable {before middle rest after : List Token} {location place : Location}

/-- Whether statements go on depends on the current token. -/
theorem statements_eq (phrases : Phrases) (stops : Lexeme → Bool) (count : Nat) (site : Site) :
    phrases.statements stops (count + 1) (site.cursor before) =
      if stops (firstLexeme before) then
        .parsed [] (site.cursor before)
      else
        (do
          let statement ← phrases.statement
          let rest ← phrases.statements stops count
          pure (statement.toList ++ rest) : Rule (List Statement)) (site.cursor before) := by
  rw [Phrases.statements]
  show (if stops (Cursor.current _).lexeme then _ else _ : Rule (List Statement))
    (site.cursor before) = _
  rw [Cursor.current_lexeme]
  split <;> rfl

theorem statementsEnd {stops : Lexeme → Bool} (h : stops (firstLexeme after) = true) :
    (Phrase.statements stops).Applies after [] after := by
  intro nested inner count _ site hfits henters
  obtain rfl := henters
  simp only [Fits, slack] at hfits
  obtain ⟨count, rfl⟩ := Nat.exists_eq_add_one.2 (show 0 < count by omega)
  exact ⟨_, rfl, (statements_eq ..).trans (if_pos h)⟩

theorem statementsMore {stops : Lexeme → Bool} {statement : Option Statement}
    {statements : List Statement} (hmore : stops (firstLexeme before) = false)
    (hstatement : Phrase.statement.Applies before statement middle)
    (hshorter : middle.length < before.length)
    (hstatements : (Phrase.statements stops).Applies middle statements after) :
    (Phrase.statements stops).Applies before (statement.toList ++ statements) after := by
  intro nested inner count _ site hfits henters
  obtain rfl := henters
  simp only [Fits, slack] at hfits
  obtain ⟨count, rfl⟩ := Nat.exists_eq_add_one.2 (show 0 < count by omega)
  obtain ⟨_, rfl, hfirst⟩ := hstatement nested nested nested _ site
    (by simp only [Fits, slack]; omega) rfl
  obtain ⟨_, rfl, hrest⟩ := hstatements nested inner count _ site
    (by simp only [Fits, slack]; omega) rfl
  refine ⟨_, rfl, (statements_eq ..).trans ?_⟩
  rw [if_neg (by simp [hmore])]
  exact (Rule.bind_eq hfirst).trans (Rule.bind_eq hrest)

theorem letBinding {name : String} {equals : Location} {value : Expr}
    (h : (Phrase.expression .lowest).Applies before value after) :
    form.Applies
      (⟨.word .letWord, location⟩ :: ⟨.identifier name, place⟩ :: ⟨.mark .assign, equals⟩ :: before)
      (.letBinding location ⟨name, place⟩ (value.named name)) after := by
  intro nested inner count _ site hfits henters
  obtain rfl := henters
  simp only [Fits, slack, List.length_cons] at hfits
  obtain ⟨_, ⟨last, rfl⟩, h⟩ := h nested nested nested _ site
    (by simp only [Fits, slack]; omega) rfl
  refine ⟨_, ⟨last, rfl⟩, ?_⟩
  show (Phrases.upTo nested).letBinding location (site.cursor
    (⟨.word .letWord, location⟩ :: ⟨.identifier name, place⟩ :: ⟨.mark .assign, equals⟩ ::
      before)) = _
  rw [Phrases.letBinding, Rule.bind_eq (Rule.expectIdentifier_eq ..),
    Rule.bind_eq (Rule.expectMark_eq ..), Rule.bind_eq (Rule.advance_eq ..)]
  exact Rule.bind_eq h

theorem returnValue {value : Expr} (h : (Phrase.expression .lowest).Applies before value after) :
    form.Applies (⟨.word .returnWord, location⟩ :: before) (.returnValue location value) after := by
  intro nested inner count _ site hfits henters
  obtain rfl := henters
  simp only [Fits, slack, List.length_cons] at hfits
  obtain ⟨_, ⟨last, rfl⟩, h⟩ := h nested nested nested _ site
    (by simp only [Fits, slack]; omega) rfl
  refine ⟨_, ⟨last, rfl⟩, ?_⟩
  show (do
      let value ← (Phrases.upTo nested).expression .lowest
      pure (.returnValue location value) : Rule Statement) (site.cursor before) = _
  exact Rule.bind_eq h

section Loops

variable {name : String} {word : Location} {condition iterable : Expr} {body : Block}

theorem bareLoop
    (hiterable : (Phrase.expression .lowest).Applies before iterable middle)
    (hshorter : middle.length < before.length) (hbody : Phrase.block.Applies middle body after) :
    form.Applies
      (⟨.word .forWord, location⟩ :: ⟨.identifier name, place⟩ :: ⟨.word .inWord, word⟩ :: before)
      (.forLoop location ⟨name, place⟩ iterable body) after := by
  intro nested inner count _ site hfits henters
  obtain rfl := henters
  simp only [Fits, slack, List.length_cons] at hfits
  obtain ⟨_, ⟨last, rfl⟩, hiterable⟩ := hiterable nested nested nested _ site
    (by simp only [Fits, slack]; omega) rfl
  obtain ⟨_, ⟨last', rfl⟩, hbody⟩ := hbody nested inner count _ site
    (by simp only [Fits, slack]; omega) ⟨last, rfl⟩
  refine ⟨_, ⟨last', rfl⟩, ?_⟩
  have hname : firstLexeme (⟨.identifier name, place⟩ :: ⟨.word .inWord, word⟩ :: before) ≠
      .mark .leftParen := by
    intro h
    cases h
  show (Phrases.upTo nested).forLoop count location (site.cursor
    (⟨.word .forWord, location⟩ :: ⟨.identifier name, place⟩ :: ⟨.word .inWord, word⟩ ::
      before)) = _
  rw [Phrases.forLoop, Rule.bind_eq (Rule.takeMark_ne hname _ site),
    Rule.bind_eq (Rule.expectIdentifier_eq ..), Rule.bind_eq (Rule.expectWord_eq ..),
    Rule.bind_eq (Rule.advance_eq ..)]
  exact (Rule.bind_eq hiterable).trans (Rule.bind_eq hbody)

theorem parenLoop {first last : Location}
    (hiterable : (Phrase.expression .lowest).Applies before iterable
      (⟨.mark .rightParen, last⟩ :: middle))
    (hshorter : middle.length < before.length) (hbody : Phrase.block.Applies middle body after) :
    form.Applies
      (⟨.word .forWord, location⟩ :: ⟨.mark .leftParen, first⟩ :: ⟨.identifier name, place⟩ ::
        ⟨.word .inWord, word⟩ :: before)
      (.forLoop location ⟨name, place⟩ iterable body) after := by
  intro nested inner count _ site hfits henters
  obtain rfl := henters
  simp only [Fits, slack, List.length_cons] at hfits
  obtain ⟨_, ⟨_, rfl⟩, hiterable⟩ := hiterable nested nested nested _ site
    (by simp only [Fits, slack]; omega) rfl
  obtain ⟨_, ⟨last', rfl⟩, hbody⟩ := hbody nested inner count _ site
    (by simp only [Fits, slack]; omega) ⟨⟨.mark .rightParen, last⟩, rfl⟩
  refine ⟨_, ⟨last', rfl⟩, ?_⟩
  show (Phrases.upTo nested).forLoop count location (site.cursor
    (⟨.word .forWord, location⟩ :: ⟨.mark .leftParen, first⟩ :: ⟨.identifier name, place⟩ ::
      ⟨.word .inWord, word⟩ :: before)) = _
  rw [Phrases.forLoop, Rule.bind_eq (Rule.takeMark_eq ..),
    Rule.bind_eq (Rule.expectIdentifier_eq ..), Rule.bind_eq (Rule.expectWord_eq ..),
    Rule.bind_eq (Rule.advance_eq ..)]
  refine (Rule.bind_eq hiterable).trans ((Rule.bind_eq (Rule.expectMark_eq ..)).trans ?_)
  exact Rule.bind_eq hbody

theorem whileLoop (hcondition : (Phrase.expression .lowest).Applies before condition middle)
    (hshorter : middle.length < before.length) (hbody : Phrase.block.Applies middle body after) :
    form.Applies (⟨.word .whileWord, location⟩ :: before) (.whileLoop location condition body)
      after := by
  intro nested inner count _ site hfits henters
  obtain rfl := henters
  simp only [Fits, slack, List.length_cons] at hfits
  obtain ⟨_, ⟨last, rfl⟩, hcondition⟩ := hcondition nested nested nested _ site
    (by simp only [Fits, slack]; omega) rfl
  obtain ⟨_, ⟨last', rfl⟩, hbody⟩ := hbody nested inner count _ site
    (by simp only [Fits, slack]; omega) ⟨last, rfl⟩
  refine ⟨_, ⟨last', rfl⟩, ?_⟩
  show (do
      let condition ← (Phrases.upTo nested).expression .lowest
      let body ← (Phrases.upTo nested).bracedBlock count
      pure (.whileLoop location condition body) : Rule Statement) (site.cursor before) = _
  exact (Rule.bind_eq hcondition).trans (Rule.bind_eq hbody)

end Loops

theorem bareName {name : String} :
    Phrase.errorName.Applies (⟨.identifier name, location⟩ :: after) ⟨name, location⟩ after := by
  intro nested inner count _ site _ henters
  obtain ⟨last, rfl⟩ := henters
  have hname : firstLexeme (⟨.identifier name, location⟩ :: after) ≠ .mark .leftParen := by
    intro h
    cases h
  refine ⟨_, ⟨⟨.identifier name, location⟩, rfl⟩, ?_⟩
  show Phrases.errorName (site.cursor (last :: ⟨.identifier name, location⟩ :: after)) = _
  exact (Rule.bind_eq (Rule.takeMark_ne hname last site)).trans
    (Rule.bind_eq (Rule.expectIdentifier_eq ..))

theorem parenName {name : String} {first last : Location} :
    Phrase.errorName.Applies
      (⟨.mark .leftParen, first⟩ :: ⟨.identifier name, location⟩ :: ⟨.mark .rightParen, last⟩ ::
        after)
      ⟨name, location⟩ after := by
  intro nested inner count _ site _ henters
  obtain ⟨token, rfl⟩ := henters
  refine ⟨_, ⟨⟨.mark .rightParen, last⟩, rfl⟩, ?_⟩
  show Phrases.errorName (site.cursor (token :: ⟨.mark .leftParen, first⟩ ::
    ⟨.identifier name, location⟩ :: ⟨.mark .rightParen, last⟩ :: after)) = _
  exact (Rule.bind_eq (Rule.takeMark_eq ..)).trans
    ((Rule.bind_eq (Rule.expectIdentifier_eq ..)).trans (Rule.bind_eq (Rule.expectMark_eq ..)))

theorem noFinalizer (h : firstLexeme after ≠ .word .finallyWord) :
    Phrase.finalizer.Applies after none after := by
  intro nested inner count _ site _ henters
  obtain ⟨last, rfl⟩ := henters
  refine ⟨_, ⟨last, rfl⟩, ?_⟩
  show (Phrases.upTo nested).finalizer count (site.cursor (last :: after)) = _
  exact Rule.bind_eq (Rule.meetsWord_ne h last site)

theorem finalizer {block : Block} (h : Phrase.block.Applies before block after) :
    Phrase.finalizer.Applies (⟨.word .finallyWord, location⟩ :: before) (some block) after := by
  intro nested inner count _ site hfits henters
  obtain ⟨last, rfl⟩ := henters
  simp only [Fits, slack, List.length_cons] at hfits
  obtain ⟨_, ⟨last', rfl⟩, h⟩ := h nested inner count _ site
    (by simp only [Fits, slack]; omega) ⟨⟨.word .finallyWord, location⟩, rfl⟩
  refine ⟨_, ⟨last', rfl⟩, ?_⟩
  show (Phrases.upTo nested).finalizer count
    (site.cursor (last :: ⟨.word .finallyWord, location⟩ :: before)) = _
  exact (Rule.bind_eq (Rule.meetsWord_eq ..)).trans (Rule.bind_eq h)

theorem tryCatch {word : Location} {body handler : Block} {named last : List Token}
    {error : Identifier} {finalizer : Option Block}
    (hbody : Phrase.block.Applies before body (⟨.word .catchWord, word⟩ :: named))
    (hnamed : named.length < before.length) (herror : Phrase.errorName.Applies named error middle)
    (hmiddle : middle.length < named.length)
    (hhandler : Phrase.block.Applies middle handler last) (hlast : last.length < middle.length)
    (hfinalizer : Phrase.finalizer.Applies last finalizer after) :
    form.Applies (⟨.word .tryWord, location⟩ :: before)
      (.tryCatch location body error handler finalizer) after := by
  intro nested inner count _ site hfits henters
  obtain rfl := henters
  simp only [Fits, slack, List.length_cons] at hfits
  obtain ⟨_, ⟨token, rfl⟩, hbody⟩ := hbody nested inner count _ site
    (by simp only [Fits, slack]; omega) ⟨⟨.word .tryWord, location⟩, rfl⟩
  obtain ⟨_, ⟨token', rfl⟩, herror⟩ := herror nested inner count _ site
    (by simp only [Fits, slack]; omega) ⟨⟨.word .catchWord, word⟩, rfl⟩
  obtain ⟨_, ⟨token'', rfl⟩, hhandler⟩ := hhandler nested inner count _ site
    (by simp only [Fits, slack]; omega) ⟨token', rfl⟩
  obtain ⟨_, ⟨close, rfl⟩, hfinalizer⟩ := hfinalizer nested inner count _ site
    (by simp only [Fits, slack]; omega) ⟨token'', rfl⟩
  refine ⟨_, ⟨close, rfl⟩, ?_⟩
  show (Phrases.upTo nested).tryCatch count location
    (site.cursor (⟨.word .tryWord, location⟩ :: before)) = _
  refine (Rule.bind_eq hbody).trans ((Rule.bind_eq (Rule.expectWord_eq ..)).trans ?_)
  exact (Rule.bind_eq herror).trans ((Rule.bind_eq hhandler).trans (Rule.bind_eq hfinalizer))

/-- A statement that starts like an operand is an expression. -/
theorem statementForm_eq (phrases : Phrases) (count : Nat) {first : Token}
    (hfirst : first.lexeme.startsOperand) (site : Site) :
    phrases.statementForm count (site.cursor (first :: before)) =
      (do
        let value ← phrases.expression .lowest
        pure (.expression first value) : Rule Statement) (site.cursor (first :: before)) := by
  obtain ⟨lexeme, location⟩ := first
  -- the words that start a statement of another form do not start an operand
  cases lexeme with
  | word keyword => cases keyword <;> first | rfl | cases hfirst
  | _ => rfl

theorem expressionForm {first : Token} {value : Expr} (hfirst : first.lexeme.startsOperand)
    (h : (Phrase.expression .lowest).Applies (first :: before) value after) :
    form.Applies (first :: before) (.expression first value) after := by
  intro nested inner count _ site hfits henters
  obtain rfl := henters
  simp only [Fits, slack] at hfits
  obtain ⟨_, ⟨last, rfl⟩, h⟩ := h nested nested nested _ site
    (by simp only [Fits, slack]; omega) rfl
  exact ⟨_, ⟨last, rfl⟩, (statementForm_eq _ count hfirst site).trans (Rule.bind_eq h)⟩

/-- After a statement a semicolon is taken. -/
theorem wholeStatement_eq {phrases : Phrases} {count : Nat} {result : Statement}
    {tokens : List Token} {site : Site} (hfirst : (firstLexeme before).startsForm)
    (h : phrases.statementForm count (site.cursor before) = .parsed result (site.cursor tokens)) :
    phrases.wholeStatement count (site.cursor before) =
      (do
        let _ ← Rule.takeMark .semicolon
        Rule.advance
        pure (some result)) (site.cursor tokens) := by
  have hattempt := Rule.attempt_eq h
  -- neither a semicolon nor a comment starts a form, so the rule attempts one
  cases before with
  | nil => rcases hfirst with hfirst | hfirst <;> cases hfirst
  | cons first rest =>
      obtain ⟨lexeme, location⟩ := first
      cases lexeme with
      | mark mark =>
          cases mark with
          | semicolon | commentOpen => rcases hfirst with hfirst | hfirst <;> cases hfirst
          | _ => exact Rule.bind_eq hattempt
      | _ => exact Rule.bind_eq hattempt

theorem terminated {result : Statement} (hfirst : (firstLexeme before).startsForm)
    (h : form.Applies before result (⟨.mark .semicolon, location⟩ :: after)) :
    Phrase.statement.Applies before (some result) after := by
  intro nested inner count _ site hfits henters
  obtain rfl := henters
  simp only [Fits, slack] at hfits
  obtain ⟨nested, rfl⟩ := Nat.exists_eq_add_one.2 (show 0 < nested by omega)
  obtain ⟨_, ⟨last, rfl⟩, h⟩ := h nested nested nested _ site
    (by simp only [Fits, slack]; omega) rfl
  exact ⟨_, rfl, (wholeStatement_eq hfirst h).trans (Rule.bind_eq (Rule.takeMark_eq ..))⟩

theorem unterminated {result : Statement} (hfirst : (firstLexeme before).startsForm)
    (h : form.Applies before result after) (hne : firstLexeme after ≠ .mark .semicolon) :
    Phrase.statement.Applies before (some result) after := by
  intro nested inner count _ site hfits henters
  obtain rfl := henters
  simp only [Fits, slack] at hfits
  obtain ⟨nested, rfl⟩ := Nat.exists_eq_add_one.2 (show 0 < nested by omega)
  obtain ⟨_, ⟨last, rfl⟩, h⟩ := h nested nested nested _ site
    (by simp only [Fits, slack]; omega) rfl
  exact ⟨_, rfl, (wholeStatement_eq hfirst h).trans (Rule.bind_eq (Rule.takeMark_ne hne last site))⟩

theorem empty : Phrase.statement.Applies (⟨.mark .semicolon, location⟩ :: after) none after := by
  intro nested inner count _ site hfits henters
  obtain rfl := henters
  simp only [Fits, slack] at hfits
  obtain ⟨nested, rfl⟩ := Nat.exists_eq_add_one.2 (show 0 < nested by omega)
  exact ⟨_, rfl, rfl⟩

theorem skipped (h : ∀ cursor : Cursor,
      cursor.rest = ⟨.mark .commentOpen, location⟩ :: before → cursor.skipComment.rest = after) :
    Phrase.statement.Applies (⟨.mark .commentOpen, location⟩ :: before) none after := by
  intro nested inner count _ site hfits henters
  obtain rfl := henters
  simp only [Fits, slack] at hfits
  obtain ⟨nested, rfl⟩ := Nat.exists_eq_add_one.2 (show 0 < nested by omega)
  refine ⟨_, rfl, ?_⟩
  have hskip := site.skipComment_eq (⟨.mark .commentOpen, location⟩ :: before)
  rw [h _ rfl] at hskip
  show Step.parsed none (Cursor.skipComment _) = _
  exact congrArg (Step.parsed none) hskip

end Phrase.Applies

end Script
