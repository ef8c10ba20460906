import Script.Proofs.Grammar.Completeness

/-!
# Readings are local and unique

What a phrase is read from does not depend on the tokens that follow, but for how they start:
`Reads.transfer` moves a reading in front of others that are alike, in the sense of `Phrase.Alike`.
`Reads.unique` says that a phrase is read from given tokens in one way at most.
-/

namespace Script

/-! ## Alike tokens -/

/-- Tokens that go on alike after an expression: with the same lexeme, or both with one that ends
it. -/
def CloseAlike (after other : List Token) : Prop :=
  firstLexeme after = firstLexeme other ∨ (firstLexeme after).closes ∧ (firstLexeme other).closes

/-- Tokens that go on alike after a statement. -/
def EndAlike (after other : List Token) : Prop :=
  CloseAlike after other ∧
    (firstLexeme after ≠ .word .finallyWord → firstLexeme other ≠ .word .finallyWord)

/-- Tokens that start alike. -/
def StartAlike (after other : List Token) : Prop :=
  firstLexeme after = firstLexeme other ∧ (after = [] → other = [])

namespace CloseAlike

variable {after other : List Token}

theorem append (h : CloseAlike after other) (taken : List Token) :
    CloseAlike (taken ++ after) (taken ++ other) := by
  cases taken with
  | nil => exact h
  | cons => exact .inl rfl

/-- Neither of them goes on with an `else` that the other does not have. -/
theorem ne_else (h : CloseAlike after other) (hafter : firstLexeme after ≠ .word .elseWord) :
    firstLexeme other ≠ .word .elseWord := by
  rcases h with heq | hcloses
  · exact heq ▸ hafter
  · exact hcloses.2.2

theorem precedence_eq (h : CloseAlike after other) :
    (firstLexeme after).precedence = (firstLexeme other).precedence := by
  rcases h with heq | hcloses
  · rw [heq]
  · rw [hcloses.1.1, hcloses.2.1]

end CloseAlike

namespace StartAlike

variable {after other : List Token}

theorem append (h : StartAlike after other) (taken : List Token) :
    StartAlike (taken ++ after) (taken ++ other) := by
  cases taken with
  | nil => exact h
  | cons => exact ⟨rfl, nofun⟩

theorem endAlike (h : StartAlike after other) : EndAlike after other :=
  ⟨.inl h.1, fun hafter => h.1 ▸ hafter⟩

end StartAlike

/-- How the tokens behind a phrase have to agree for it to be read in front of either. Nothing is
asked behind phrases that have a last token of their own. -/
def Phrase.Alike (after other : List Token) : {α : Type} → Phrase α → Prop
  | _, .expression _ | _, .operand | _, .extension _ _ | _, .continuation _ | _, .conditional
  | _, .alternative => CloseAlike after other
  | _, .form | _, .finalizer => EndAlike after other
  | _, .statements _ | _, .statement => StartAlike after other
  | _, .list _ _ | _, .listTail _ _ | _, .parameter | _, .pairs | _, .block
  | _, .errorName => True

/-- Behind the same token everything is alike. -/
theorem Phrase.Alike.cons {α : Type} (phrase : Phrase α) (token : Token)
    (after other : List Token) : phrase.Alike (token :: after) (token :: other) := by
  cases phrase with
  | list | listTail | parameter | pairs | block | errorName => trivial
  | form | finalizer => exact ⟨.inl rfl, id⟩
  | statements | statement => exact ⟨rfl, nofun⟩
  | expression | operand | extension | continuation | conditional | alternative => exact .inl rfl

/-! ## Readings in other places -/

/-- The phrase takes some tokens, and is read from them in front of other tokens as well. -/
def Phrase.Moves {α : Type} (phrase : Phrase α) (before : List Token) (result : α)
    (after : List Token) : Prop :=
  ∃ taken, before = taken ++ after ∧
    ∀ other, phrase.Alike after other → Reads False phrase (taken ++ other) result other

namespace Reads

variable {α : Type} {phrase : Phrase α} {before after : List Token} {result : α}

/-- What a phrase takes, unless it may take nothing, starts with the first token. -/
theorem taken_cons {lenient : Prop} {taken : List Token}
    (h : Reads lenient phrase (taken ++ after) result after) (hleast : phrase.least = 1) :
    ∃ token rest, taken = token :: rest := by
  cases taken with
  | nil =>
      have hlength := h.least_le
      rw [hleast] at hlength
      exact absurd hlength (Nat.not_succ_le_self _)
  | cons token rest => exact ⟨token, rest, rfl⟩

/-- A phrase of one token. -/
theorem moves_token {token : Token}
    (h : ∀ other, Reads False phrase (token :: other) result other) :
    phrase.Moves (token :: after) result after :=
  ⟨[token], rfl, fun other _ => h other⟩

/-- A phrase of no token. -/
theorem moves_nil
    (h : ∀ other, phrase.Alike after other → Reads False phrase other result other) :
    phrase.Moves after result after :=
  ⟨[], rfl, h⟩

/-- A phrase that starts with tokens of its own. -/
theorem moves_front (front : List Token)
    (h : ∃ taken, before = taken ++ after ∧ ∀ other, phrase.Alike after other →
      Reads False phrase (front ++ (taken ++ other)) result other) :
    phrase.Moves (front ++ before) result after := by
  obtain ⟨taken, rfl, hreads⟩ := h
  refine ⟨front ++ taken, (List.append_assoc ..).symm, fun other hother => ?_⟩
  rw [List.append_assoc]
  exact hreads other hother

/-- A phrase that ends with another one. -/
theorem moves_inner {β : Type} {inner : Phrase β} {part : β} (front : List Token)
    (h : inner.Moves before part after)
    (hbuild : ∀ {taken other}, phrase.Alike after other →
      (inner.Alike after other → Reads False inner (taken ++ other) part other) →
      Reads False phrase (front ++ (taken ++ other)) result other) :
    phrase.Moves (front ++ before) result after := by
  obtain ⟨taken, rfl, hreads⟩ := h
  exact moves_front front ⟨taken, rfl, fun other hother => hbuild hother (hreads other)⟩

/-- A phrase that ends with another one and a token of its own. -/
theorem moves_closed {β : Type} {inner : Phrase β} {part : β} (front : List Token) {last : Token}
    (h : inner.Moves before part (last :: after))
    (hbuild : ∀ {taken other}, Reads False inner (taken ++ last :: other) part (last :: other) →
      Reads False phrase (front ++ (taken ++ last :: other)) result other) :
    phrase.Moves (front ++ before) result after := by
  obtain ⟨taken, rfl, hreads⟩ := h
  refine moves_front front ⟨taken ++ [last], List.append_cons .., fun other _ => ?_⟩
  rw [← List.append_cons]
  exact hbuild (hreads _ (.cons ..))

/-- Readings can be moved in front of other tokens. -/
theorem moves (h : Reads False phrase before result after) : phrase.Moves before result after := by
  induction h with
  | identifier => exact moves_token fun _ => .identifier
  | integer h => exact moves_token fun _ => .integer h
  | float h => exact moves_token fun _ => .float h
  | string => exact moves_token fun _ => .string
  | trueLiteral => exact moves_token fun _ => .trueLiteral
  | falseLiteral => exact moves_token fun _ => .falseLiteral
  | listEmpty h => exact moves_token fun _ => .listEmpty h
  | tailEmpty h => exact moves_token fun _ => .tailEmpty h
  | parameter => exact moves_token fun _ => .parameter
  | pairsEmpty => exact moves_token fun _ => .pairsEmpty
  | breakLoop => exact moves_token fun _ => .breakLoop
  | continueLoop => exact moves_token fun _ => .continueLoop
  | bareName => exact moves_token fun _ => .bareName
  | empty => exact moves_token fun _ => .empty
  | parenName => exact moves_front [_, _, _] ⟨[], rfl, fun _ _ => .parenName⟩
  | complete h => exact moves_nil fun _ hother => .complete (hother.precedence_eq ▸ h)
  | noAlternative h => exact moves_nil fun _ hother => .noAlternative (hother.ne_else h)
  | statementsEnd h => exact moves_nil fun _ hother => .statementsEnd (hother.1 ▸ h)
  | noFinalizer h => exact moves_nil fun _ hother => .noFinalizer (hother.2 h)
  | expression _ _ ih ih' =>
      obtain ⟨taken, rfl, hleft⟩ := ih
      obtain ⟨more, rfl, hext⟩ := ih'
      refine ⟨taken ++ more, (List.append_assoc ..).symm, fun other hother => ?_⟩
      rw [List.append_assoc]
      exact .expression (hleft _ (hother.append more)) (hext other hother)
  | extended hbinds hlonger _ ih ih' =>
      obtain ⟨taken, rfl, hlonger'⟩ := ih
      obtain ⟨more, rfl, hext⟩ := ih'
      obtain ⟨token, rest, rfl⟩ := hlonger.taken_cons rfl
      refine ⟨token :: rest ++ more, (List.append_assoc ..).symm, fun other hother => ?_⟩
      rw [List.append_assoc]
      exact .extended hbinds (hlonger' _ (hother.append more)) (hext other hother)
  | choice _ ih => exact moves_inner [] ih fun hother hreads => .choice (hreads hother)
  | unary _ ih => exact moves_inner [_] ih fun hother hreads => .unary (hreads hother)
  | assign _ ih => exact moves_inner [_] ih fun hother hreads => .assign (hreads hother)
  | binary _ ih => exact moves_inner [_] ih fun hother hreads => .binary (hreads hother)
  | array _ ih => exact moves_inner [_] ih fun _ hreads => .array (hreads trivial)
  | hash _ ih => exact moves_inner [_] ih fun _ hreads => .hash (hreads trivial)
  | call _ ih => exact moves_inner [_] ih fun _ hreads => .call (hreads trivial)
  | alternative _ ih => exact moves_inner [_] ih fun _ hreads => .alternative (hreads trivial)
  | finalizer _ ih => exact moves_inner [_] ih fun _ hreads => .finalizer (hreads trivial)
  | letBinding _ ih =>
      exact moves_inner [_, _, _] ih fun hother hreads => .letBinding (hreads hother.1)
  | returnValue _ ih =>
      exact moves_inner [_] ih fun hother hreads => .returnValue (hreads hother.1)
  | group _ ih => exact moves_closed [_] ih .group
  | index _ ih => exact moves_closed [_] ih .index
  | block _ ih => exact moves_closed [_] ih .block
  | terminated _ ih => exact moves_closed [] ih .terminated
  | unterminated _ hne ih =>
      exact moves_inner [] ih fun hother hreads =>
        .unterminated (hreads hother.endAlike) (hother.1 ▸ hne)
  | function _ _ ih ih' =>
      obtain ⟨taken, rfl, hparameters⟩ := ih
      obtain ⟨more, rfl, hbody⟩ := ih'
      refine moves_front [_, _] ⟨taken ++ more, (List.append_assoc ..).symm, fun other _ => ?_⟩
      rw [List.append_assoc]
      exact .function (hparameters _ trivial) (hbody other trivial)
  | listCons hitem hne hfirst htail ih ih' =>
      obtain ⟨taken, rfl, hfirst'⟩ := ih
      obtain ⟨more, rfl, htail'⟩ := ih'
      obtain ⟨token, rest, rfl⟩ := hfirst.taken_cons (by cases hitem <;> rfl)
      obtain ⟨next, more, rfl⟩ := htail.taken_cons rfl
      refine ⟨token :: rest ++ next :: more, (List.append_assoc ..).symm, fun other _ => ?_⟩
      rw [List.append_assoc]
      exact .listCons hitem hne (hfirst' _ (.cons ..)) (htail' other trivial)
  | tailCons hitem _ htail ih ih' =>
      obtain ⟨taken, rfl, hfirst⟩ := ih
      obtain ⟨more, rfl, htail'⟩ := ih'
      obtain ⟨next, more, rfl⟩ := htail.taken_cons rfl
      refine moves_front [_] ⟨taken ++ next :: more, (List.append_assoc ..).symm, fun other _ => ?_⟩
      rw [List.append_assoc]
      exact .tailCons hitem (hfirst _ (.cons ..)) (htail' other trivial)
  | @pairsLast colon _ _ _ _ _ _ after _ _ hbrace hrest ih ih' ih'' =>
      obtain ⟨taken, rfl, hkey⟩ := ih
      obtain ⟨more, rfl, hvalue⟩ := ih'
      obtain ⟨last, rfl, hrest'⟩ := ih''
      obtain ⟨token, last, rfl⟩ := hrest.taken_cons rfl
      refine ⟨taken ++ ⟨.mark .colon, colon⟩ :: (more ++ token :: last), by simp,
        fun other _ => ?_⟩
      simp only [List.append_assoc, List.cons_append]
      exact .pairsLast (hkey _ (.inl rfl)) (hvalue _ (.inl rfl)) hbrace (hrest' other trivial)
  | @pairsCons colon comma _ _ _ _ _ _ after _ _ _ ih ih' ih'' =>
      obtain ⟨taken, rfl, hkey⟩ := ih
      obtain ⟨more, rfl, hvalue⟩ := ih'
      obtain ⟨last, rfl, hrest⟩ := ih''
      refine ⟨taken ++ ⟨.mark .colon, colon⟩ :: (more ++ ⟨.mark .comma, comma⟩ :: last), by simp,
        fun other _ => ?_⟩
      simp only [List.append_assoc, List.cons_append]
      exact .pairsCons (hkey _ (.inl rfl)) (hvalue _ (.inl rfl)) (hrest other trivial)
  | conditional _ hblock _ ih ih' ih'' =>
      obtain ⟨taken, rfl, hcondition⟩ := ih
      obtain ⟨more, rfl, hconsequence⟩ := ih'
      obtain ⟨last, rfl, halternative⟩ := ih''
      obtain ⟨token, more, rfl⟩ := hblock.taken_cons rfl
      refine moves_front [_] ⟨taken ++ (token :: more ++ last), by simp, fun other hother => ?_⟩
      simp only [List.append_assoc]
      exact .conditional (hcondition _ (.inl rfl)) (hconsequence _ trivial)
        (halternative other hother)
  | elseIf hnested ih =>
      obtain ⟨taken, hbefore, hnested'⟩ := ih
      rw [hbefore] at hnested
      obtain ⟨token, rest, rfl⟩ := hnested.taken_cons rfl
      obtain ⟨rfl, rfl⟩ := List.cons.inj hbefore
      exact moves_front [_, _] ⟨rest, rfl, fun other hother => .elseIf (hnested' other hother)⟩
  | expressionForm hvalue ih =>
      obtain ⟨taken, hbefore, hvalue'⟩ := ih
      rw [hbefore] at hvalue
      obtain ⟨token, rest, rfl⟩ := hvalue.taken_cons rfl
      obtain ⟨rfl, rfl⟩ := List.cons.inj hbefore
      exact moves_front [_]
        ⟨rest, rfl, fun other hother => .expressionForm (hvalue' other hother.1)⟩
  | statementsMore hstops hstatement _ ih ih' =>
      obtain ⟨taken, rfl, hstatement'⟩ := ih
      obtain ⟨more, rfl, hrest⟩ := ih'
      obtain ⟨token, taken, rfl⟩ := hstatement.taken_cons rfl
      refine ⟨token :: taken ++ more, (List.append_assoc ..).symm, fun other hother => ?_⟩
      rw [List.append_assoc]
      exact .statementsMore hstops (hstatement' _ (hother.append more)) (hrest other hother)
  | bareLoop _ hblock ih ih' =>
      obtain ⟨taken, rfl, hiterable⟩ := ih
      obtain ⟨more, rfl, hbody⟩ := ih'
      obtain ⟨token, more, rfl⟩ := hblock.taken_cons rfl
      refine moves_front [_, _, _]
        ⟨taken ++ token :: more, (List.append_assoc ..).symm, fun other _ => ?_⟩
      rw [List.append_assoc]
      exact .bareLoop (hiterable _ (.inl rfl)) (hbody other trivial)
  | @parenLoop _ _ last _ _ _ _ _ _ _ _ _ _ ih ih' =>
      obtain ⟨taken, rfl, hiterable⟩ := ih
      obtain ⟨more, rfl, hbody⟩ := ih'
      refine moves_front [_, _, _, _]
        ⟨taken ++ ⟨.mark .rightParen, last⟩ :: more, by simp, fun other _ => ?_⟩
      simp only [List.append_assoc, List.cons_append]
      exact .parenLoop (hiterable _ (.inl rfl)) (hbody other trivial)
  | whileLoop _ hblock ih ih' =>
      obtain ⟨taken, rfl, hcondition⟩ := ih
      obtain ⟨more, rfl, hbody⟩ := ih'
      obtain ⟨token, more, rfl⟩ := hblock.taken_cons rfl
      refine moves_front [_]
        ⟨taken ++ token :: more, (List.append_assoc ..).symm, fun other _ => ?_⟩
      rw [List.append_assoc]
      exact .whileLoop (hcondition _ (.inl rfl)) (hbody other trivial)
  | @tryCatch _ word _ _ _ _ _ _ _ _ _ _ _ _ _ ih ihNamed ihHandler ihLast =>
      obtain ⟨taken, rfl, hbody⟩ := ih
      obtain ⟨named, rfl, herror⟩ := ihNamed
      obtain ⟨more, rfl, hhandler⟩ := ihHandler
      obtain ⟨last, rfl, hfinalizer⟩ := ihLast
      refine moves_front [_] ⟨taken ++ ⟨.word .catchWord, word⟩ :: (named ++ (more ++ last)),
        by simp, fun other hother => ?_⟩
      simp only [List.append_assoc, List.cons_append]
      exact .tryCatch (hbody _ trivial) (herror _ trivial) (hhandler _ trivial)
        (hfinalizer other hother)
  | @comment _ last skipped _ hskipped =>
      refine moves_front [_]
        ⟨skipped ++ [⟨.mark .commentClose, last⟩], List.append_cons .., fun other _ => ?_⟩
      rw [← List.append_cons]
      exact .comment hskipped
  | openComment hskipped =>
      refine ⟨_, (List.append_nil _).symm, fun other hother => ?_⟩
      rw [hother.2 rfl, List.append_nil]
      exact .openComment hskipped
  | skipped hlenient => exact False.elim hlenient

/-- A phrase is read from what it takes in front of all tokens that go on alike. -/
theorem transfer {taken other : List Token} (h : Reads False phrase (taken ++ after) result after)
    (hother : phrase.Alike after other) : Reads False phrase (taken ++ other) result other := by
  obtain ⟨taken', htaken, hreads⟩ := h.moves
  obtain rfl := List.append_cancel_right htaken
  exact hreads other hother

end Reads

/-! ## Uniqueness -/

/-- The rule of every phrase can start somewhere. -/
theorem Phrase.exists_enters {α : Type} (phrase : Phrase α) (before : List Token) :
    ∃ tokens, phrase.enters before tokens := by
  cases phrase with
  | expression | operand | continuation | parameter | conditional | form | statement
  | statements => exact ⟨before, rfl⟩
  | extension | list | listTail | pairs | alternative | block | errorName | finalizer =>
      exact ⟨default :: before, default, rfl⟩

/-- Where a rule ends, one list of tokens is left. -/
theorem Phrase.leaves_inj {α : Type} {phrase : Phrase α} {after after' tokens : List Token}
    (h : phrase.leaves after tokens) (h' : phrase.leaves after' tokens) : after = after' := by
  cases phrase with
  | statement | statements => exact h.symm.trans h'
  | expression | operand | extension | continuation | list | listTail | parameter | pairs
  | conditional | alternative | block | errorName | finalizer | form =>
      obtain ⟨last, rfl⟩ := h
      obtain ⟨last', heq⟩ := h'
      exact (List.cons.inj heq).2

/-- A phrase is read from given tokens in one way at most, since its rule gives one result. -/
theorem Reads.unique {α : Type} {phrase : Phrase α} {before after after' : List Token}
    {result result' : α} (h : Reads False phrase before result after)
    (h' : Reads False phrase before result' after') : result' = result ∧ after' = after := by
  obtain ⟨tokens, htokens⟩ := phrase.exists_enters before
  obtain ⟨bound, hbound⟩ : ∃ bound, phrase.Fits before.length bound bound bound :=
    ⟨_, Nat.le_refl _, Nat.le_refl _, Nat.le_refl _⟩
  obtain ⟨last, hlast, hrule⟩ := h.applies _ _ _ tokens ⟨.start, [], 0⟩ hbound htokens
  obtain ⟨last', hlast', hrule'⟩ := h'.applies _ _ _ tokens ⟨.start, [], 0⟩ hbound htokens
  obtain ⟨hresult, hcursor⟩ := Step.parsed.inj (hrule'.symm.trans hrule)
  obtain rfl : last' = last := congrArg Cursor.rest hcursor
  exact ⟨hresult, Phrase.leaves_inj hlast' hlast⟩

/-! ## Inversion -/

/-- What the reading of a phrase consists of, for some of the phrases. -/
def Phrase.Inverts (before after : List Token) : {α : Type} → Phrase α → α → Prop
  | _, .expression precedence, result =>
    ∃ left middle, Reads False .operand before left middle ∧
      Reads False (.extension precedence left) middle result after
  | _, .extension precedence left, result =>
    precedence.level < (firstLexeme before).precedence.level →
      ∃ longer middle, Reads False (.continuation left) before longer middle ∧
        Reads False (.extension precedence longer) middle result after
  | _, .continuation left, result =>
    ∀ location rest, before = ⟨.mark .assign, location⟩ :: rest →
      ∃ target value, left = .identifier target ∧ result = .assign location target value ∧
        Reads False (.expression .lowest) rest value after
  | _, .statements stops, _ =>
    stops (firstLexeme before) = false →
      ∃ statement middle, Reads False .statement before statement middle
  | _, .statement, _ =>
    (firstLexeme before).startsOperand → ∃ form middle, Reads False .form before form middle
  | _, .form, _ =>
    (firstLexeme before).startsOperand →
      ∃ value, Reads False (.expression .lowest) before value after
  | _, _, _ => True

theorem Reads.inverts {α : Type} {phrase : Phrase α} {before after : List Token} {result : α}
    (h : Reads False phrase before result after) : phrase.Inverts before after result := by
  cases h with
  | expression hleft hext => exact ⟨_, _, hleft, hext⟩
  | complete hnot => exact fun hlt => absurd hlt hnot
  | extended _ hlonger hext => exact fun _ => ⟨_, _, hlonger, hext⟩
  | call | index => exact nofun
  | @binary _ _ _ _ _ operator => cases operator <;> exact nofun
  | assign h =>
      rintro _ _ ⟨⟩
      exact ⟨_, _, rfl, rfl, h⟩
  | statementsEnd hstops => exact fun hmore => absurd (hstops.symm.trans hmore) nofun
  | statementsMore _ h _ => exact fun _ => ⟨_, _, h⟩
  | terminated h | unterminated h _ => exact fun _ => ⟨_, _, h⟩
  | expressionForm h => exact fun _ => ⟨_, h⟩
  | empty | comment | openComment | letBinding | returnValue | bareLoop | parenLoop | whileLoop
  | breakLoop | continueLoop | tryCatch => exact nofun
  | skipped hlenient => exact False.elim hlenient
  | _ => trivial

end Script
