import Script.Proofs.Grammar.Progress

/-!
# How rules apply

The other direction: `Phrase.Applies` says that the rule of a phrase reads certain tokens, with a
given result and without a new error, for all bounds that are large enough. The rules that move the
cursor are computed where their token comes next.
-/

namespace Script

namespace Phrase

/-- The rule of a phrase. Repeated parts are bounded by `count`, and those of the items of a list by
`inner`. -/
def rule (phrases : Phrases) (inner : Nat) : {α : Type} → Phrase α → (count : Nat) → Rule α
  | _, .expression precedence, _ => phrases.expression precedence
  | _, .operand, count => phrases.operand count
  | _, .extension precedence left, count => phrases.extend precedence count left
  | _, .continuation left, count => phrases.continuation count left
  | _, .list closing item, count => Rule.list closing (item.rule phrases inner inner) count
  | _, .listTail closing item, count => Rule.listTail closing (item.rule phrases inner inner) count
  | _, .parameter, _ => Phrases.parameter
  | _, .pairs, count => phrases.pairs count
  | _, .conditional, count => phrases.conditional count
  | _, .alternative, count => phrases.alternative (phrases.conditional count) count
  | _, .block, count => phrases.bracedBlock count
  | _, .statements stops, count => phrases.statements stops count
  | _, .errorName, _ => Phrases.errorName
  | _, .finalizer, count => phrases.finalizer count
  | _, .form, count => phrases.statementForm count
  | _, .statement, _ => phrases.statement

/-- The tokens at the cursor when the rule of a phrase starts. Some rules start at the first token
of their phrase, others at the token before it. -/
def enters (before : List Token) : {α : Type} → Phrase α → List Token → Prop
  | _, .expression _, tokens | _, .operand, tokens | _, .continuation _, tokens
  | _, .parameter, tokens | _, .conditional, tokens | _, .form, tokens | _, .statement, tokens
  | _, .statements _, tokens => tokens = before
  | _, .extension _ _, tokens | _, .list _ _, tokens | _, .listTail _ _, tokens | _, .pairs, tokens
  | _, .alternative, tokens | _, .block, tokens | _, .errorName, tokens
  | _, .finalizer, tokens => ∃ last, tokens = last :: before

/-- The tokens at the cursor when the rule of a phrase ends. Rules for whole statements go past the
last token of their phrase. -/
def leaves (after : List Token) : {α : Type} → Phrase α → List Token → Prop
  | _, .statement, tokens | _, .statements _, tokens => tokens = after
  | _, _, tokens => ∃ last, tokens = last :: after

/-- The rule of an item starts at its first token. -/
theorem IsItem.enters {α : Type} {item : Phrase α} (h : item.IsItem) (before : List Token) :
    item.enters before before := by
  cases h <;> rfl

/-- The rule of an item ends at its last token. -/
theorem IsItem.leaves {α : Type} {item : Phrase α} (h : item.IsItem) {after tokens : List Token}
    (hleaves : item.leaves after tokens) : ∃ last, tokens = last :: after := by
  cases h <;> exact hleaves

/-- How far a bound has to exceed twice the number of tokens. -/
@[simp] def slack : {α : Type} → Phrase α → Nat
  | _, .operand | _, .continuation _ | _, .parameter | _, .conditional | _, .alternative
  | _, .block | _, .errorName | _, .finalizer => 0
  | _, .expression _ | _, .extension _ _ | _, .pairs | _, .form => 1
  | _, .list _ item | _, .listTail _ item => item.slack + 1
  | _, .statements _ | _, .statement => 2

/-- Bounds that are large enough to read a phrase from `length` tokens. -/
@[simp] def Fits {α : Type} (phrase : Phrase α) (length nested inner count : Nat) : Prop :=
  2 * length + phrase.slack ≤ nested ∧ 2 * length + phrase.slack ≤ inner ∧
    2 * length + phrase.slack ≤ count

end Phrase

/-- What a cursor has besides tokens, when no failure is left to record. -/
structure Site where
  /-- The place just past the last token. -/
  finish : Location
  /-- The recorded errors, in order. -/
  errors : List SyntaxError
  /-- The number of blocks around the position. -/
  blocks : Nat

/-- The cursor in front of some tokens. -/
abbrev Site.cursor (site : Site) (tokens : List Token) : Cursor :=
  ⟨tokens, site.finish, none, site.errors, site.blocks⟩

/-- Without a failure to record, a search leaves all but the tokens alone. -/
theorem Site.advanceUntil_eq (site : Site) (stops : Cursor → Bool) (count : Nat)
    (tokens : List Token) :
    ∃ rest, (site.cursor tokens).advanceUntil stops count = site.cursor rest := by
  induction count generalizing tokens with
  | zero => exact ⟨tokens, rfl⟩
  | succ count ih =>
      rw [Cursor.advanceUntil]
      split
      · exact ⟨tokens, rfl⟩
      · exact ih tokens.tail

/-- So does skipping a comment. -/
theorem Site.skipComment_eq (site : Site) (tokens : List Token) :
    (site.cursor tokens).skipComment = site.cursor (site.cursor tokens).skipComment.rest := by
  unfold Cursor.skipComment
  dsimp only
  generalize hfound : (site.cursor tokens).advanceUntil _ _ = found
  obtain ⟨rest, hrest⟩ := site.advanceUntil_eq _ tokens.length tokens
  rw [← hfound, hrest]
  split <;> rfl

/-- The rule of a phrase reads the tokens in front of `after` in `before`, with the given result. -/
def Phrase.Applies {α : Type} (phrase : Phrase α) (before : List Token) (result : α)
    (after : List Token) : Prop :=
  ∀ (nested inner count : Nat) (tokens : List Token) (site : Site),
    phrase.Fits before.length nested inner count → phrase.enters before tokens →
    ∃ tokens', phrase.leaves after tokens' ∧
      phrase.rule (Phrases.upTo nested) inner count (site.cursor tokens) =
        .parsed result (site.cursor tokens')

namespace Rule

variable {α β : Type} {rule : Rule α} {next : α → Rule β} {cursor cursor' : Cursor} {result : α}

/-- A rule that applies, in front of others. -/
theorem bind_eq (h : rule cursor = .parsed result cursor') :
    (rule >>= next) cursor = next result cursor' := by
  rw [bind_apply, h]

/-- What follows a rejection is not run. -/
theorem bind_eq_rejected (h : rule cursor = .rejected cursor') :
    (rule >>= next) cursor = .rejected cursor' := by
  rw [bind_apply, h]

theorem current_eq (token : Token) (after : List Token) (site : Site) :
    Rule.current (site.cursor (token :: after)) = .parsed token (site.cursor (token :: after)) :=
  rfl

theorem advance_eq (token : Token) (after : List Token) (site : Site) :
    Rule.advance (site.cursor (token :: after)) = .parsed () (site.cursor after) := rfl

theorem meetsMark_eq (mark : Mark) (token : Token) (after : List Token) (site : Site) :
    Rule.meetsMark mark (site.cursor (token :: after)) =
      .parsed (firstLexeme after = .mark mark) (site.cursor (token :: after)) := by
  cases after <;> rfl

theorem meetsWord_eq (word : Keyword) (token : Token) (location : Location) (after : List Token)
    (site : Site) :
    Rule.meetsWord word (site.cursor (token :: ⟨.word word, location⟩ :: after)) =
      .parsed true (site.cursor (token :: ⟨.word word, location⟩ :: after)) := by
  show Step.parsed (decide (Lexeme.word word = .word word)) _ = _
  rw [decide_eq_true rfl]

theorem meetsWord_ne {word : Keyword} {after : List Token} (h : firstLexeme after ≠ .word word)
    (token : Token) (site : Site) :
    Rule.meetsWord word (site.cursor (token :: after)) =
      .parsed false (site.cursor (token :: after)) := by
  show Step.parsed (decide ((Cursor.upcoming _).lexeme = .word word)) _ = _
  rw [Cursor.upcoming_lexeme, List.tail_cons, decide_eq_false h]

/-- A mark that comes next is taken. -/
theorem takeMark_eq (mark : Mark) (token : Token) (location : Location) (after : List Token)
    (site : Site) :
    Rule.takeMark mark (site.cursor (token :: ⟨.mark mark, location⟩ :: after)) =
      .parsed true (site.cursor (⟨.mark mark, location⟩ :: after)) := by
  rw [Rule.takeMark, bind_eq (meetsMark_eq ..), firstLexeme_cons, decide_eq_true rfl, if_pos rfl]
  rfl

/-- Another token stays where it is. -/
theorem takeMark_ne {mark : Mark} {after : List Token} (h : firstLexeme after ≠ .mark mark)
    (token : Token) (site : Site) :
    Rule.takeMark mark (site.cursor (token :: after)) =
      .parsed false (site.cursor (token :: after)) := by
  rw [Rule.takeMark, bind_eq (meetsMark_eq ..), decide_eq_false h, if_neg Bool.false_ne_true]
  rfl

theorem expectMark_eq (mark : Mark) (token : Token) (location : Location) (after : List Token)
    (site : Site) :
    Rule.expectMark mark (site.cursor (token :: ⟨.mark mark, location⟩ :: after)) =
      .parsed () (site.cursor (⟨.mark mark, location⟩ :: after)) := by
  show (if TokenKind.mark mark = .mark mark then Rule.advance else _) _ = _
  rw [if_pos rfl]
  rfl

theorem expectWord_eq (word : Keyword) (token : Token) (location : Location) (after : List Token)
    (site : Site) :
    Rule.expectWord word (site.cursor (token :: ⟨.word word, location⟩ :: after)) =
      .parsed () (site.cursor (⟨.word word, location⟩ :: after)) := by
  show (if TokenKind.word word = .word word then Rule.advance else _) _ = _
  rw [if_pos rfl]
  rfl

/-- A rule that applies is a successful attempt. -/
theorem attempt_eq (h : rule cursor = .parsed result cursor') :
    rule.attempt cursor = .parsed (some result) cursor' := by
  rw [Rule.attempt, h]

theorem attempt_eq_rejected (h : rule cursor = .rejected cursor') :
    rule.attempt cursor = .parsed none cursor' := by
  rw [Rule.attempt, h]

theorem expectIdentifier_eq (name : String) (token : Token) (location : Location)
    (after : List Token) (site : Site) :
    Rule.expectIdentifier (site.cursor (token :: ⟨.identifier name, location⟩ :: after)) =
      .parsed ⟨name, location⟩ (site.cursor (⟨.identifier name, location⟩ :: after)) := rfl

end Rule

end Script
