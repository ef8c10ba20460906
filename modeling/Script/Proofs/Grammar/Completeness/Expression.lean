import Script.Proofs.Grammar.Application

/-!
# Expressions are read by rules

The rule of a phrase reads an expression, a list, a block or a conditional if the rules of its parts
read them, for each way in which the phrase can be made up.
-/

namespace Script

namespace Phrase.Applies

variable {before middle rest after : List Token} {location place : Location}

/-! ## Expressions -/

theorem expression {precedence : Precedence} {left result : Expr}
    (hleft : operand.Applies before left middle) (hshorter : middle.length < before.length)
    (hright : (extension precedence left).Applies middle result after) :
    (Phrase.expression precedence).Applies before result after := by
  intro nested inner count _ site hfits henters
  obtain rfl := henters
  simp only [Fits, slack] at hfits
  obtain ⟨nested, rfl⟩ := Nat.exists_eq_add_one.2 (show 0 < nested by omega)
  obtain ⟨_, ⟨last, rfl⟩, hleft⟩ := hleft nested nested nested _ site
    (by simp only [Fits, slack]; omega) rfl
  obtain ⟨_, ⟨last', rfl⟩, hright⟩ := hright nested nested nested _ site
    (by simp only [Fits, slack]; omega) ⟨last, rfl⟩
  refine ⟨_, ⟨last', rfl⟩, ?_⟩
  show ((Phrases.upTo nested).operand nested >>=
    (Phrases.upTo nested).extend precedence nested) _ = _
  exact (Rule.bind_eq hleft).trans hright

theorem integer {digits : String}
    (h : (Nat.ofDigitChars 10 digits.toList 0 : Int) ≤ Int64.maxValue.toInt) :
    operand.Applies (⟨.integer digits, location⟩ :: after)
      (.integer location digits (.ofNat (Nat.ofDigitChars 10 digits.toList 0))) after := by
  intro nested inner count _ site _ henters
  obtain rfl := henters
  refine ⟨_, ⟨⟨.integer digits, location⟩, rfl⟩, ?_⟩
  show Phrases.integer location digits _ = _
  rw [Phrases.integer, if_pos h]
  rfl

theorem float {digits : String} {value : Binary64}
    (h : Binary64.ofDigits? digits.toList = some value) :
    operand.Applies (⟨.float digits, location⟩ :: after) (.float location digits value) after := by
  intro nested inner count _ site _ henters
  obtain rfl := henters
  refine ⟨_, ⟨⟨.float digits, location⟩, rfl⟩, ?_⟩
  show Phrases.float location digits _ = _
  rw [Phrases.float, h]
  rfl

theorem unary (operator : UnaryOperator) {result : Expr}
    (h : (Phrase.expression .unary).Applies before result after) :
    operand.Applies (⟨operator.lexeme, location⟩ :: before) (.unary location operator result)
      after := by
  intro nested inner count _ site hfits henters
  obtain rfl := henters
  simp only [Fits, slack, List.length_cons] at hfits
  obtain ⟨_, ⟨last, rfl⟩, h⟩ := h nested inner count _ site
    (by simp only [Fits, slack]; omega) rfl
  refine ⟨_, ⟨last, rfl⟩, ?_⟩
  cases operator with
  | negate | not => exact Rule.bind_eq h

theorem group {inner : Expr} {first last : Location}
    (h : (Phrase.expression .lowest).Applies before inner (⟨.mark .rightParen, last⟩ :: after)) :
    operand.Applies (⟨.mark .leftParen, first⟩ :: before) inner after := by
  intro nested bound count _ site hfits henters
  obtain rfl := henters
  simp only [Fits, slack, List.length_cons] at hfits
  obtain ⟨_, ⟨_, rfl⟩, h⟩ := h nested bound count _ site (by simp only [Fits, slack]; omega) rfl
  refine ⟨_, ⟨⟨.mark .rightParen, last⟩, rfl⟩, ?_⟩
  show (do
      let inner ← (Phrases.upTo nested).expression .lowest
      Rule.expectMark .rightParen
      pure inner : Rule Expr) (site.cursor before) = _
  exact (Rule.bind_eq h).trans (Rule.bind_eq (Rule.expectMark_eq ..))

theorem array {elements : List Expr}
    (h : (Phrase.list .rightBracket (.expression .lowest)).Applies before elements after) :
    operand.Applies (⟨.mark .leftBracket, location⟩ :: before) (.array location elements)
      after := by
  intro nested inner count _ site hfits henters
  obtain rfl := henters
  simp only [Fits, slack, List.length_cons] at hfits
  obtain ⟨_, ⟨last, rfl⟩, h⟩ := h nested inner count _ site
    (by simp only [Fits, slack]; omega) ⟨⟨.mark .leftBracket, location⟩, rfl⟩
  refine ⟨_, ⟨last, rfl⟩, ?_⟩
  show (do
      let elements ← Rule.list .rightBracket ((Phrases.upTo nested).expression .lowest) count
      pure (.array location elements) : Rule Expr) _ = _
  exact Rule.bind_eq h

theorem hash {entries : List Pair} (h : Phrase.pairs.Applies before entries after) :
    operand.Applies (⟨.mark .leftBrace, location⟩ :: before) (.hash location entries) after := by
  intro nested inner count _ site hfits henters
  obtain rfl := henters
  simp only [Fits, slack, List.length_cons] at hfits
  obtain ⟨_, ⟨last, rfl⟩, h⟩ := h nested inner count _ site
    (by simp only [Fits, slack]; omega) ⟨⟨.mark .leftBrace, location⟩, rfl⟩
  refine ⟨_, ⟨last, rfl⟩, ?_⟩
  show (do
      let pairs ← (Phrases.upTo nested).pairs count
      pure (.hash location pairs) : Rule Expr) _ = _
  exact Rule.bind_eq h

theorem function {parameters : List Identifier} {body : Block}
    (hparameters : (Phrase.list .rightParen .parameter).Applies before parameters middle)
    (hshorter : middle.length < before.length) (hbody : Phrase.block.Applies middle body after) :
    operand.Applies (⟨.word .fnWord, location⟩ :: ⟨.mark .leftParen, place⟩ :: before)
      (.function ⟨location, none, parameters, body⟩) after := by
  intro nested inner count _ site hfits henters
  obtain rfl := henters
  simp only [Fits, slack, List.length_cons] at hfits
  obtain ⟨_, ⟨last, rfl⟩, hparameters⟩ := hparameters nested inner count _ site
    (by simp only [Fits, slack]; omega) ⟨_, rfl⟩
  obtain ⟨_, ⟨last', rfl⟩, hbody⟩ := hbody nested inner count _ site
    (by simp only [Fits, slack]; omega) ⟨last, rfl⟩
  have hfunction : (Phrases.upTo nested).function count
      (site.cursor (⟨.word .fnWord, location⟩ :: ⟨.mark .leftParen, place⟩ :: before)) =
        .parsed ⟨location, none, parameters, body⟩ (site.cursor (last' :: after)) := by
    rw [Phrases.function, Rule.bind_eq (Rule.current_eq ..), Rule.bind_eq (Rule.expectMark_eq ..)]
    exact (Rule.bind_eq hparameters).trans (Rule.bind_eq hbody)
  exact ⟨_, ⟨last', rfl⟩, Rule.bind_eq hfunction⟩

theorem choice {result : Expr} (hfirst : firstLexeme before = .word .ifWord)
    (h : Phrase.conditional.Applies before result after) :
    operand.Applies before result after := by
  intro nested inner count _ site hfits henters
  obtain rfl := henters
  obtain ⟨location, rest, rfl⟩ := Rule.exists_of_kind_word (congrArg Lexeme.kind hfirst)
  exact h nested inner count _ site hfits rfl

/-! ## Operators -/

/-- Whether an operand is extended depends on the next token. -/
theorem extend_eq (phrases : Phrases) (precedence : Precedence) (count : Nat) (left : Expr)
    (last : Token) (site : Site) :
    phrases.extend precedence (count + 1) left (site.cursor (last :: before)) =
      if precedence.level < (firstLexeme before).precedence.level then
        (phrases.continuation count left >>= phrases.extend precedence count) (site.cursor before)
      else
        .parsed left (site.cursor (last :: before)) := by
  rw [Phrases.extend]
  show (if precedence.level < (Cursor.upcoming _).lexeme.precedence.level then _ else _ : Rule Expr)
    (site.cursor (last :: before)) = _
  rw [Cursor.upcoming_lexeme, List.tail_cons]
  split <;> rfl

theorem complete {precedence : Precedence} {left : Expr}
    (h : ¬ precedence.level < (firstLexeme after).precedence.level) :
    (extension precedence left).Applies after left after := by
  intro nested inner count _ site hfits henters
  obtain ⟨last, rfl⟩ := henters
  simp only [Fits, slack] at hfits
  obtain ⟨count, rfl⟩ := Nat.exists_eq_add_one.2 (show 0 < count by omega)
  exact ⟨_, ⟨last, rfl⟩, (extend_eq ..).trans (if_neg h)⟩

theorem extended {precedence : Precedence} {left longer result : Expr}
    (hbinds : precedence.level < (firstLexeme before).precedence.level)
    (hlonger : (continuation left).Applies before longer middle)
    (hshorter : middle.length < before.length)
    (hrest : (extension precedence longer).Applies middle result after) :
    (extension precedence left).Applies before result after := by
  intro nested inner count _ site hfits henters
  obtain ⟨last, rfl⟩ := henters
  simp only [Fits, slack] at hfits
  obtain ⟨count, rfl⟩ := Nat.exists_eq_add_one.2 (show 0 < count by omega)
  obtain ⟨_, ⟨last', rfl⟩, hlonger⟩ := hlonger nested inner count _ site
    (by simp only [Fits, slack]; omega) rfl
  obtain ⟨_, ⟨last'', rfl⟩, hrest⟩ := hrest nested inner count _ site
    (by simp only [Fits, slack]; omega) ⟨last', rfl⟩
  refine ⟨_, ⟨last'', rfl⟩, (extend_eq ..).trans ?_⟩
  rw [if_pos hbinds]
  exact (Rule.bind_eq hlonger).trans hrest

theorem call (left : Expr) {arguments : List Expr}
    (h : (Phrase.list .rightParen (.expression .lowest)).Applies before arguments after) :
    (continuation left).Applies (⟨.mark .leftParen, location⟩ :: before)
      (.call location left arguments) after := by
  intro nested inner count _ site hfits henters
  obtain rfl := henters
  simp only [Fits, slack, List.length_cons] at hfits
  obtain ⟨_, ⟨last, rfl⟩, h⟩ := h nested inner count _ site
    (by simp only [Fits, slack]; omega) ⟨⟨.mark .leftParen, location⟩, rfl⟩
  refine ⟨_, ⟨last, rfl⟩, ?_⟩
  show (do
      let arguments ← Rule.list .rightParen ((Phrases.upTo nested).expression .lowest) count
      pure (.call location left arguments) : Rule Expr) _ = _
  exact Rule.bind_eq h

theorem index (left : Expr) {index : Expr}
    (h : (Phrase.expression .lowest).Applies before index (⟨.mark .rightBracket, place⟩ :: after)) :
    (continuation left).Applies (⟨.mark .leftBracket, location⟩ :: before)
      (.index location left index) after := by
  intro nested inner count _ site hfits henters
  obtain rfl := henters
  simp only [Fits, slack, List.length_cons] at hfits
  obtain ⟨_, ⟨_, rfl⟩, h⟩ := h nested inner count _ site (by simp only [Fits, slack]; omega) rfl
  refine ⟨_, ⟨⟨.mark .rightBracket, place⟩, rfl⟩, ?_⟩
  show (do
      let index ← (Phrases.upTo nested).expression .lowest
      Rule.expectMark .rightBracket
      pure (.index location left index) : Rule Expr) (site.cursor before) = _
  exact (Rule.bind_eq h).trans (Rule.bind_eq (Rule.expectMark_eq ..))

theorem assign (target : Identifier) {value : Expr}
    (h : (Phrase.expression .lowest).Applies before value after) :
    (continuation (.identifier target)).Applies (⟨.mark .assign, location⟩ :: before)
      (.assign location target value) after := by
  intro nested inner count _ site hfits henters
  obtain rfl := henters
  simp only [Fits, slack, List.length_cons] at hfits
  obtain ⟨_, ⟨last, rfl⟩, h⟩ := h nested inner count _ site (by simp only [Fits, slack]; omega) rfl
  refine ⟨_, ⟨last, rfl⟩, ?_⟩
  show (do
      let value ← (Phrases.upTo nested).expression .lowest
      pure (.assign location target value) : Rule Expr) _ = _
  exact Rule.bind_eq h

theorem binary (left : Expr) (operator : BinaryOperator) {right : Expr}
    (h : (Phrase.expression operator.precedence).Applies before right after) :
    (continuation left).Applies (⟨operator.lexeme, location⟩ :: before)
      (.binary location left operator right) after := by
  intro nested inner count _ site hfits henters
  obtain rfl := henters
  simp only [Fits, slack, List.length_cons] at hfits
  obtain ⟨_, ⟨last, rfl⟩, h⟩ := h nested inner count _ site (by simp only [Fits, slack]; omega) rfl
  refine ⟨_, ⟨last, rfl⟩, ?_⟩
  cases operator <;> exact Rule.bind_eq h

/-! ## Lists, blocks and conditionals -/

section Lists

variable {α : Type} {item : Phrase α} {closing : Mark} {first : α} {items : List α}

theorem listEmpty : (Phrase.list closing item).Applies (⟨.mark closing, location⟩ :: after) []
    after := by
  intro nested inner count _ site _ henters
  obtain ⟨last, rfl⟩ := henters
  exact ⟨_, ⟨_, rfl⟩, Rule.bind_eq (Rule.takeMark_eq ..)⟩

theorem listCons (hitem : item.IsItem) (hne : firstLexeme before ≠ .mark closing)
    (hfirst : item.Applies before first middle) (hshorter : middle.length ≤ before.length)
    (hitems : (Phrase.listTail closing item).Applies middle items after) :
    (Phrase.list closing item).Applies before (first :: items) after := by
  intro nested inner count _ site hfits henters
  obtain ⟨last, rfl⟩ := henters
  simp only [Fits, slack] at hfits
  obtain ⟨tokens, hleaves, hfirst⟩ := hfirst nested inner inner _ site
    (by simp only [Fits]; omega) (hitem.enters before)
  obtain ⟨last', rfl⟩ := hitem.leaves hleaves
  obtain ⟨_, ⟨last'', rfl⟩, hitems⟩ := hitems nested inner count _ site
    (by simp only [Fits, slack]; omega) ⟨last', rfl⟩
  refine ⟨_, ⟨last'', rfl⟩, ?_⟩
  show Rule.list closing (item.rule (Phrases.upTo nested) inner inner) count
    (site.cursor (last :: before)) = _
  exact (Rule.bind_eq (Rule.takeMark_ne hne last site)).trans
    ((Rule.bind_eq hfirst).trans (Rule.bind_eq hitems))

theorem tailEmpty (hclosing : closing.ClosesList) :
    (Phrase.listTail closing item).Applies (⟨.mark closing, location⟩ :: after) [] after := by
  intro nested inner count _ site hfits henters
  obtain ⟨last, rfl⟩ := henters
  simp only [Fits, slack, List.length_cons] at hfits
  obtain ⟨count, rfl⟩ := Nat.exists_eq_add_one.2 (show 0 < count by omega)
  have hcomma : firstLexeme (⟨.mark closing, location⟩ :: after) ≠ .mark .comma := by
    cases hclosing <;> simp
  exact ⟨_, ⟨_, rfl⟩, (Rule.bind_eq (Rule.takeMark_ne hcomma last site)).trans
    (Rule.bind_eq (Rule.expectMark_eq ..))⟩

theorem tailCons (hitem : item.IsItem) (hfirst : item.Applies before first middle)
    (hshorter : middle.length ≤ before.length)
    (hitems : (Phrase.listTail closing item).Applies middle items after) :
    (Phrase.listTail closing item).Applies (⟨.mark .comma, location⟩ :: before) (first :: items)
      after := by
  intro nested inner count _ site hfits henters
  obtain ⟨last, rfl⟩ := henters
  simp only [Fits, slack, List.length_cons] at hfits
  obtain ⟨count, rfl⟩ := Nat.exists_eq_add_one.2 (show 0 < count by omega)
  obtain ⟨tokens, hleaves, hfirst⟩ := hfirst nested inner inner _ site
    (by simp only [Fits]; omega) (hitem.enters before)
  obtain ⟨last', rfl⟩ := hitem.leaves hleaves
  obtain ⟨_, ⟨last'', rfl⟩, hitems⟩ := hitems nested inner count _ site
    (by simp only [Fits, slack]; omega) ⟨last', rfl⟩
  refine ⟨_, ⟨last'', rfl⟩, ?_⟩
  show Rule.listTail closing (item.rule (Phrases.upTo nested) inner inner) (count + 1)
    (site.cursor (last :: ⟨.mark .comma, location⟩ :: before)) = _
  exact (Rule.bind_eq (Rule.takeMark_eq ..)).trans
    ((Rule.bind_eq hfirst).trans (Rule.bind_eq hitems))

end Lists

theorem pairsEmpty : Phrase.pairs.Applies (⟨.mark .rightBrace, location⟩ :: after) [] after := by
  intro nested inner count _ site hfits henters
  obtain ⟨last, rfl⟩ := henters
  simp only [Fits, slack, List.length_cons] at hfits
  obtain ⟨count, rfl⟩ := Nat.exists_eq_add_one.2 (show 0 < count by omega)
  exact ⟨_, ⟨_, rfl⟩, Rule.bind_eq (Rule.takeMark_eq ..)⟩

section Pairs

variable {key value : Expr} {pairs : List Pair} {last : List Token}

theorem pairsLast (hne : firstLexeme before ≠ .mark .rightBrace)
    (hkey : (Phrase.expression .lowest).Applies before key (⟨.mark .colon, place⟩ :: middle))
    (hmiddle : middle.length < before.length)
    (hvalue : (Phrase.expression .lowest).Applies middle value last)
    (hlast : last.length < middle.length) (hbrace : firstLexeme last = .mark .rightBrace)
    (hpairs : Phrase.pairs.Applies last pairs after) :
    Phrase.pairs.Applies before (⟨key, value⟩ :: pairs) after := by
  intro nested inner count _ site hfits henters
  obtain ⟨token, rfl⟩ := henters
  simp only [Fits, slack] at hfits
  obtain ⟨count, rfl⟩ := Nat.exists_eq_add_one.2 (show 0 < count by omega)
  obtain ⟨_, ⟨_, rfl⟩, hkey⟩ := hkey nested nested nested _ site
    (by simp only [Fits, slack]; omega) rfl
  obtain ⟨_, ⟨token', rfl⟩, hvalue⟩ := hvalue nested inner count _ site
    (by simp only [Fits, slack]; omega) rfl
  obtain ⟨_, ⟨token'', rfl⟩, hpairs⟩ := hpairs nested inner count _ site
    (by simp only [Fits, slack]; omega) ⟨token', rfl⟩
  -- no comma is expected in front of the brace
  have hmeets := Rule.meetsMark_eq .rightBrace token' last site
  rw [decide_eq_true hbrace] at hmeets
  refine ⟨_, ⟨token'', rfl⟩, ?_⟩
  show (Phrases.upTo nested).pairs (count + 1) (site.cursor (token :: before)) = _
  refine (Rule.bind_eq (Rule.takeMark_ne hne token site)).trans ?_
  refine (Rule.bind_eq hkey).trans ((Rule.bind_eq (Rule.expectMark_eq ..)).trans ?_)
  exact (Rule.bind_eq hvalue).trans ((Rule.bind_eq hmeets).trans (Rule.bind_eq hpairs))

theorem pairsCons {comma : Location} (hne : firstLexeme before ≠ .mark .rightBrace)
    (hkey : (Phrase.expression .lowest).Applies before key (⟨.mark .colon, place⟩ :: middle))
    (hmiddle : middle.length < before.length)
    (hvalue : (Phrase.expression .lowest).Applies middle value (⟨.mark .comma, comma⟩ :: last))
    (hlast : last.length < middle.length) (hpairs : Phrase.pairs.Applies last pairs after) :
    Phrase.pairs.Applies before (⟨key, value⟩ :: pairs) after := by
  intro nested inner count _ site hfits henters
  obtain ⟨token, rfl⟩ := henters
  simp only [Fits, slack] at hfits
  obtain ⟨count, rfl⟩ := Nat.exists_eq_add_one.2 (show 0 < count by omega)
  obtain ⟨_, ⟨_, rfl⟩, hkey⟩ := hkey nested nested nested _ site
    (by simp only [Fits, slack]; omega) rfl
  obtain ⟨_, ⟨token', rfl⟩, hvalue⟩ := hvalue nested inner count _ site
    (by simp only [Fits, slack]; omega) rfl
  obtain ⟨_, ⟨token'', rfl⟩, hpairs⟩ := hpairs nested inner count _ site
    (by simp only [Fits, slack]; omega) ⟨_, rfl⟩
  have hmeets := Rule.meetsMark_eq .rightBrace token' (⟨.mark .comma, comma⟩ :: last) site
  refine ⟨_, ⟨token'', rfl⟩, ?_⟩
  show (Phrases.upTo nested).pairs (count + 1) (site.cursor (token :: before)) = _
  refine (Rule.bind_eq (Rule.takeMark_ne hne token site)).trans ?_
  refine (Rule.bind_eq hkey).trans ((Rule.bind_eq (Rule.expectMark_eq ..)).trans ?_)
  refine (Rule.bind_eq hvalue).trans ((Rule.bind_eq hmeets).trans ?_)
  exact (Rule.bind_eq (Rule.expectMark_eq ..)).trans (Rule.bind_eq hpairs)

end Pairs

theorem conditional {condition : Expr} {consequence : Block} {alternative : Option Block}
    (hcondition : (Phrase.expression .lowest).Applies before condition middle)
    (hmiddle : middle.length < before.length)
    (hconsequence : Phrase.block.Applies middle consequence rest)
    (hrest : rest.length < middle.length)
    (halternative : Phrase.alternative.Applies rest alternative after) :
    Phrase.conditional.Applies (⟨.word .ifWord, location⟩ :: before)
      (.conditional location condition consequence alternative) after := by
  intro nested inner count _ site hfits henters
  obtain rfl := henters
  simp only [Fits, slack, List.length_cons] at hfits
  obtain ⟨count, rfl⟩ := Nat.exists_eq_add_one.2 (show 0 < count by omega)
  obtain ⟨_, ⟨last, rfl⟩, hcondition⟩ := hcondition nested inner count _ site
    (by simp only [Fits, slack]; omega) rfl
  obtain ⟨_, ⟨last', rfl⟩, hconsequence⟩ := hconsequence nested inner count _ site
    (by simp only [Fits, slack]; omega) ⟨last, rfl⟩
  obtain ⟨_, ⟨last'', rfl⟩, halternative⟩ := halternative nested inner count _ site
    (by simp only [Fits, slack]; omega) ⟨last', rfl⟩
  refine ⟨_, ⟨last'', rfl⟩, ?_⟩
  show (do
      let condition ← (Phrases.upTo nested).expression .lowest
      let consequence ← (Phrases.upTo nested).bracedBlock count
      let alternative ← (Phrases.upTo nested).alternative
        ((Phrases.upTo nested).conditional count) count
      pure (.conditional location condition consequence alternative) : Rule Expr)
    (site.cursor before) = _
  exact (Rule.bind_eq hcondition).trans
    ((Rule.bind_eq hconsequence).trans (Rule.bind_eq halternative))

theorem noAlternative (h : firstLexeme after ≠ .word .elseWord) :
    Phrase.alternative.Applies after none after := by
  intro nested inner count _ site _ henters
  obtain ⟨last, rfl⟩ := henters
  refine ⟨_, ⟨last, rfl⟩, ?_⟩
  show (Phrases.upTo nested).alternative ((Phrases.upTo nested).conditional count) count
    (site.cursor (last :: after)) = _
  exact Rule.bind_eq (Rule.meetsWord_ne h last site)

theorem alternative {block : Block} (hne : firstLexeme before ≠ .word .ifWord)
    (h : Phrase.block.Applies before block after) :
    Phrase.alternative.Applies (⟨.word .elseWord, location⟩ :: before) (some block) after := by
  intro nested inner count _ site hfits henters
  obtain ⟨last, rfl⟩ := henters
  simp only [Fits, slack, List.length_cons] at hfits
  obtain ⟨_, ⟨last', rfl⟩, h⟩ := h nested inner count _ site
    (by simp only [Fits, slack]; omega) ⟨⟨.word .elseWord, location⟩, rfl⟩
  refine ⟨_, ⟨last', rfl⟩, (Rule.bind_eq (Rule.meetsWord_eq ..)).trans ?_⟩
  rw [if_pos rfl, Rule.bind_eq (Rule.advance_eq ..), Rule.bind_eq (Rule.meetsWord_ne hne _ site)]
  exact Rule.bind_eq h

theorem elseIf {nested : Expr}
    (h : Phrase.conditional.Applies (⟨.word .ifWord, place⟩ :: before) nested after) :
    Phrase.alternative.Applies (⟨.word .elseWord, location⟩ :: ⟨.word .ifWord, place⟩ :: before)
      (some ⟨⟨.word .ifWord, place⟩, [.expression ⟨.word .ifWord, place⟩ nested]⟩) after := by
  intro bound inner count _ site hfits henters
  obtain ⟨last, rfl⟩ := henters
  simp only [Fits, slack, List.length_cons] at hfits
  obtain ⟨_, ⟨last', rfl⟩, h⟩ := h bound inner count _ site
    (by simp only [Fits, slack, List.length_cons]; omega) rfl
  refine ⟨_, ⟨last', rfl⟩, (Rule.bind_eq (Rule.meetsWord_eq ..)).trans ?_⟩
  rw [if_pos rfl, Rule.bind_eq (Rule.advance_eq ..), Rule.bind_eq (Rule.meetsWord_eq ..)]
  exact Rule.bind_eq h

theorem block {first last : Location} {statements : List Statement}
    (h : (Phrase.statements Lexeme.closesBlock).Applies before statements
      (⟨.mark .rightBrace, last⟩ :: after)) :
    Phrase.block.Applies (⟨.mark .leftBrace, first⟩ :: before)
      ⟨⟨.mark .leftBrace, first⟩, statements⟩ after := by
  intro nested inner count _ site hfits henters
  obtain ⟨token, rfl⟩ := henters
  simp only [Fits, slack, List.length_cons] at hfits
  -- the statements are read one block further in
  obtain ⟨_, rfl, h⟩ := h nested inner count _ { site with blocks := site.blocks + 1 }
    (by simp only [Fits, slack]; omega) rfl
  refine ⟨_, ⟨⟨.mark .rightBrace, last⟩, rfl⟩, (Rule.bind_eq (Rule.expectMark_eq ..)).trans ?_⟩
  exact Rule.bind_eq h

end Phrase.Applies

end Script
