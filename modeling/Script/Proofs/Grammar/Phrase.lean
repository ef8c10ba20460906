import Script.Grammar

/-!
# The grammar as a relation

`Reads` says which tokens a phrase is read from, without a cursor, errors or a bound on nested
phrases: one constructor for each way in which a rule can apply, with the tokens that it looks at
beyond the phrase. In a lenient reading some statements may have been skipped. A reading takes
tokens off the front of a list: `Reads.suffix`.
-/

namespace Script

/-- What rules read, with the type of their results. -/
inductive Phrase : Type → Type 1 where
  /-- An expression whose operators bind more tightly than the given precedence. -/
  | expression (precedence : Precedence) : Phrase Expr
  /-- What an expression starts with. -/
  | operand : Phrase Expr
  /-- The operators after `left` that bind more tightly than the given precedence. -/
  | extension (precedence : Precedence) (left : Expr) : Phrase Expr
  /-- One operator after `left`, with what belongs to it. -/
  | continuation (left : Expr) : Phrase Expr
  /-- Items separated by commas, with the closing mark. -/
  | list (closing : Mark) {α : Type} (item : Phrase α) : Phrase (List α)
  /-- Items after commas, with the closing mark. -/
  | listTail (closing : Mark) {α : Type} (item : Phrase α) : Phrase (List α)
  | parameter : Phrase Identifier
  /-- The pairs of a hash literal, with the closing brace. -/
  | pairs : Phrase (List Pair)
  | conditional : Phrase Expr
  /-- What may follow the consequence of a conditional. -/
  | alternative : Phrase (Option Block)
  | block : Phrase Block
  /-- Statements up to a token at which `stops` holds. -/
  | statements (stops : Lexeme → Bool) : Phrase (List Statement)
  /-- The name of the error that a handler is for. -/
  | errorName : Phrase Identifier
  /-- What may follow the handler of errors. -/
  | finalizer : Phrase (Option Block)
  /-- A statement without the semicolon that may follow it. -/
  | form : Phrase Statement
  /-- A statement, or something that is none, with the semicolon that may follow it. -/
  | statement : Phrase (Option Statement)

/-- Phrases that stand in lists. -/
inductive Phrase.IsItem : {α : Type} → Phrase α → Prop where
  | expression : Phrase.IsItem (.expression .lowest)
  | parameter : Phrase.IsItem .parameter

/-- Marks that close lists. -/
inductive Mark.ClosesList : Mark → Prop where
  | paren : Mark.ClosesList .rightParen
  | bracket : Mark.ClosesList .rightBracket

/-- The lexeme of the first token; past the last one there is an `eof` token. -/
def firstLexeme : List Token → Lexeme
  | [] => .eof
  | token :: _ => token.lexeme

@[simp] theorem firstLexeme_nil : firstLexeme [] = .eof := rfl

@[simp] theorem firstLexeme_cons (token : Token) (rest : List Token) :
    firstLexeme (token :: rest) = token.lexeme := rfl

/-- Lexemes that end every expression. -/
def Lexeme.closes (lexeme : Lexeme) : Prop :=
  lexeme.precedence = .lowest ∧ lexeme ≠ .word .elseWord

/-- Where the statements of a block end. -/
abbrev Lexeme.closesBlock : Lexeme → Bool :=
  fun lexeme => lexeme = .mark .rightBrace ∨ lexeme = .eof

/-- `Reads lenient phrase before result after` says that the tokens in front of `after` in `before`
can be read as `phrase`, which means `result`. -/
inductive Reads (lenient : Prop) : {α : Type} → Phrase α → List Token → α → List Token → Prop where
  -- expressions
  | expression {precedence before left middle result after} :
    Reads lenient .operand before left middle →
    Reads lenient (.extension precedence left) middle result after →
    Reads lenient (.expression precedence) before result after
  | identifier {name location after} :
    Reads lenient .operand (⟨.identifier name, location⟩ :: after)
      (.identifier ⟨name, location⟩) after
  | integer {digits location after} :
    (Nat.ofDigitChars 10 digits.toList 0 : Int) ≤ Int64.maxValue.toInt →
    Reads lenient .operand (⟨.integer digits, location⟩ :: after)
      (.integer location digits (.ofNat (Nat.ofDigitChars 10 digits.toList 0))) after
  | float {digits location value after} :
    Binary64.ofDigits? digits.toList = some value →
    Reads lenient .operand (⟨.float digits, location⟩ :: after)
      (.float location digits value) after
  | string {contents location after} :
    Reads lenient .operand (⟨.string contents, location⟩ :: after)
      (.string location contents) after
  | trueLiteral {location after} :
    Reads lenient .operand (⟨.word .trueWord, location⟩ :: after) (.boolean location true) after
  | falseLiteral {location after} :
    Reads lenient .operand (⟨.word .falseWord, location⟩ :: after) (.boolean location false) after
  | unary {operator : UnaryOperator} {location before operand after} :
    Reads lenient (.expression .unary) before operand after →
    Reads lenient .operand (⟨operator.lexeme, location⟩ :: before)
      (.unary location operator operand) after
  | group {first last before inner after} :
    Reads lenient (.expression .lowest) before inner (⟨.mark .rightParen, last⟩ :: after) →
    Reads lenient .operand (⟨.mark .leftParen, first⟩ :: before) inner after
  | array {location before elements after} :
    Reads lenient (.list .rightBracket (.expression .lowest)) before elements after →
    Reads lenient .operand (⟨.mark .leftBracket, location⟩ :: before)
      (.array location elements) after
  | hash {location before pairs after} :
    Reads lenient .pairs before pairs after →
    Reads lenient .operand (⟨.mark .leftBrace, location⟩ :: before) (.hash location pairs) after
  | function {location paren before parameters middle body after} :
    Reads lenient (.list .rightParen .parameter) before parameters middle →
    Reads lenient .block middle body after →
    Reads lenient .operand (⟨.word .fnWord, location⟩ :: ⟨.mark .leftParen, paren⟩ :: before)
      (.function ⟨location, none, parameters, body⟩) after
  | choice {before result after} :
    Reads lenient .conditional before result after →
    Reads lenient .operand before result after
  -- operators
  | complete {precedence left after} :
    ¬ precedence.level < (firstLexeme after).precedence.level →
    Reads lenient (.extension precedence left) after left after
  | extended {precedence left before longer middle result after} :
    precedence.level < (firstLexeme before).precedence.level →
    Reads lenient (.continuation left) before longer middle →
    Reads lenient (.extension precedence longer) middle result after →
    Reads lenient (.extension precedence left) before result after
  | call {left location before arguments after} :
    Reads lenient (.list .rightParen (.expression .lowest)) before arguments after →
    Reads lenient (.continuation left) (⟨.mark .leftParen, location⟩ :: before)
      (.call location left arguments) after
  | index {left location last before index after} :
    Reads lenient (.expression .lowest) before index (⟨.mark .rightBracket, last⟩ :: after) →
    Reads lenient (.continuation left) (⟨.mark .leftBracket, location⟩ :: before)
      (.index location left index) after
  | assign {target location before value after} :
    Reads lenient (.expression .lowest) before value after →
    Reads lenient (.continuation (.identifier target)) (⟨.mark .assign, location⟩ :: before)
      (.assign location target value) after
  | binary {left location before right after} {operator : BinaryOperator} :
    Reads lenient (.expression operator.precedence) before right after →
    Reads lenient (.continuation left) (⟨operator.lexeme, location⟩ :: before)
      (.binary location left operator right) after
  -- lists
  | listEmpty {closing location after} {α : Type} {item : Phrase α} :
    closing.ClosesList →
    Reads lenient (.list closing item) (⟨.mark closing, location⟩ :: after) [] after
  | listCons {closing before middle after} {α : Type} {item : Phrase α} {first : α}
    {rest : List α} :
    item.IsItem → firstLexeme before ≠ .mark closing → Reads lenient item before first middle →
    Reads lenient (.listTail closing item) middle rest after →
    Reads lenient (.list closing item) before (first :: rest) after
  | tailEmpty {closing location after} {α : Type} {item : Phrase α} :
    closing.ClosesList →
    Reads lenient (.listTail closing item) (⟨.mark closing, location⟩ :: after) [] after
  | tailCons {closing location before middle after} {α : Type} {item : Phrase α} {first : α}
    {rest : List α} :
    item.IsItem → Reads lenient item before first middle →
    Reads lenient (.listTail closing item) middle rest after →
    Reads lenient (.listTail closing item) (⟨.mark .comma, location⟩ :: before) (first :: rest)
      after
  | parameter {name location after} :
    Reads lenient .parameter (⟨.identifier name, location⟩ :: after) ⟨name, location⟩ after
  | pairsEmpty {location after} :
    Reads lenient .pairs (⟨.mark .rightBrace, location⟩ :: after) [] after
  | pairsLast {colon before key middle value last rest after} :
    Reads lenient (.expression .lowest) before key (⟨.mark .colon, colon⟩ :: middle) →
    Reads lenient (.expression .lowest) middle value last →
    firstLexeme last = .mark .rightBrace → Reads lenient .pairs last rest after →
    Reads lenient .pairs before (⟨key, value⟩ :: rest) after
  | pairsCons {colon comma before key middle value last rest after} :
    Reads lenient (.expression .lowest) before key (⟨.mark .colon, colon⟩ :: middle) →
    Reads lenient (.expression .lowest) middle value (⟨.mark .comma, comma⟩ :: last) →
    Reads lenient .pairs last rest after →
    Reads lenient .pairs before (⟨key, value⟩ :: rest) after
  -- conditionals and blocks
  | conditional {location before condition middle consequence last alternative after} :
    Reads lenient (.expression .lowest) before condition middle →
    Reads lenient .block middle consequence last →
    Reads lenient .alternative last alternative after →
    Reads lenient .conditional (⟨.word .ifWord, location⟩ :: before)
      (.conditional location condition consequence alternative) after
  | noAlternative {after} :
    firstLexeme after ≠ .word .elseWord → Reads lenient .alternative after none after
  | alternative {location before block after} :
    Reads lenient .block before block after →
    Reads lenient .alternative (⟨.word .elseWord, location⟩ :: before) (some block) after
  | elseIf {location word before nested after} :
    Reads lenient .conditional (⟨.word .ifWord, word⟩ :: before) nested after →
    Reads lenient .alternative (⟨.word .elseWord, location⟩ :: ⟨.word .ifWord, word⟩ :: before)
      (some ⟨⟨.word .ifWord, word⟩, [.expression ⟨.word .ifWord, word⟩ nested]⟩) after
  | block {first last before statements after} :
    Reads lenient (.statements Lexeme.closesBlock) before statements
      (⟨.mark .rightBrace, last⟩ :: after) →
    Reads lenient .block (⟨.mark .leftBrace, first⟩ :: before)
      ⟨⟨.mark .leftBrace, first⟩, statements⟩ after
  | statementsEnd {stops after} :
    stops (firstLexeme after) = true → Reads lenient (.statements stops) after [] after
  | statementsMore {stops before statement middle rest after} :
    stops (firstLexeme before) = false →
    Reads lenient .statement before statement middle →
    Reads lenient (.statements stops) middle rest after →
    Reads lenient (.statements stops) before (statement.toList ++ rest) after
  -- statements
  | letBinding {location name place equals before value after} :
    Reads lenient (.expression .lowest) before value after →
    Reads lenient .form
      (⟨.word .letWord, location⟩ :: ⟨.identifier name, place⟩ :: ⟨.mark .assign, equals⟩ :: before)
      (.letBinding location ⟨name, place⟩ (value.named name)) after
  | returnValue {location before value after} :
    Reads lenient (.expression .lowest) before value after →
    Reads lenient .form (⟨.word .returnWord, location⟩ :: before) (.returnValue location value)
      after
  | bareLoop {location name place word before iterable middle body after} :
    Reads lenient (.expression .lowest) before iterable middle →
    Reads lenient .block middle body after →
    Reads lenient .form
      (⟨.word .forWord, location⟩ :: ⟨.identifier name, place⟩ :: ⟨.word .inWord, word⟩ :: before)
      (.forLoop location ⟨name, place⟩ iterable body) after
  | parenLoop {location first last name place word before iterable middle body after} :
    Reads lenient (.expression .lowest) before iterable (⟨.mark .rightParen, last⟩ :: middle) →
    Reads lenient .block middle body after →
    Reads lenient .form
      (⟨.word .forWord, location⟩ :: ⟨.mark .leftParen, first⟩ :: ⟨.identifier name, place⟩ ::
        ⟨.word .inWord, word⟩ :: before)
      (.forLoop location ⟨name, place⟩ iterable body) after
  | whileLoop {location before condition middle body after} :
    Reads lenient (.expression .lowest) before condition middle →
    Reads lenient .block middle body after →
    Reads lenient .form (⟨.word .whileWord, location⟩ :: before)
      (.whileLoop location condition body) after
  | breakLoop {location after} :
    Reads lenient .form (⟨.word .breakWord, location⟩ :: after) (.breakLoop location) after
  | continueLoop {location after} :
    Reads lenient .form (⟨.word .continueWord, location⟩ :: after) (.continueLoop location) after
  | tryCatch {location word before body named error middle handler last finalizer after} :
    Reads lenient .block before body (⟨.word .catchWord, word⟩ :: named) →
    Reads lenient .errorName named error middle →
    Reads lenient .block middle handler last →
    Reads lenient .finalizer last finalizer after →
    Reads lenient .form (⟨.word .tryWord, location⟩ :: before)
      (.tryCatch location body error handler finalizer) after
  | bareName {name location after} :
    Reads lenient .errorName (⟨.identifier name, location⟩ :: after) ⟨name, location⟩ after
  | parenName {first name location last after} :
    Reads lenient .errorName
      (⟨.mark .leftParen, first⟩ :: ⟨.identifier name, location⟩ :: ⟨.mark .rightParen, last⟩ ::
        after)
      ⟨name, location⟩ after
  | noFinalizer {after} :
    firstLexeme after ≠ .word .finallyWord → Reads lenient .finalizer after none after
  | finalizer {location before block after} :
    Reads lenient .block before block after →
    Reads lenient .finalizer (⟨.word .finallyWord, location⟩ :: before) (some block) after
  | expressionForm {first before value after} :
    Reads lenient (.expression .lowest) (first :: before) value after →
    Reads lenient .form (first :: before) (.expression first value) after
  | terminated {before result location after} :
    Reads lenient .form before result (⟨.mark .semicolon, location⟩ :: after) →
    Reads lenient .statement before (some result) after
  | unterminated {before result after} :
    Reads lenient .form before result after → firstLexeme after ≠ .mark .semicolon →
    Reads lenient .statement before (some result) after
  | empty {location after} :
    Reads lenient .statement (⟨.mark .semicolon, location⟩ :: after) none after
  | comment {first last skipped after} :
    (∀ token ∈ skipped, token.lexeme ≠ .mark .commentClose ∧ token.lexeme ≠ .eof) →
    Reads lenient .statement
      (⟨.mark .commentOpen, first⟩ :: (skipped ++ ⟨.mark .commentClose, last⟩ :: after)) none after
  | openComment {first skipped} :
    (∀ token ∈ skipped, token.lexeme ≠ .mark .commentClose ∧ token.lexeme ≠ .eof) →
    Reads lenient .statement (⟨.mark .commentOpen, first⟩ :: skipped) none []
  | skipped {before after} :
    lenient → after <:+ before → after.length < before.length →
    Reads lenient .statement before none after

/-! ## What readings take -/

/-- The least number of tokens that a phrase takes. -/
def Phrase.least : {α : Type} → Phrase α → Nat
  | _, .extension _ _ | _, .alternative | _, .statements _ | _, .finalizer => 0
  | _, .expression _ | _, .operand | _, .continuation _ | _, .list _ _ | _, .listTail _ _
  | _, .parameter | _, .pairs | _, .conditional | _, .block | _, .errorName | _, .form
  | _, .statement => 1

/-- Lexemes that an operand starts with. -/
def Lexeme.startsOperand : Lexeme → Bool
  | .identifier _ | .integer _ | .float _ | .string _ | .word .trueWord | .word .falseWord
  | .mark .minus | .mark .bang | .mark .leftParen | .mark .leftBracket | .mark .leftBrace
  | .word .fnWord | .word .ifWord => true
  | _ => false

/-- Lexemes that a statement starts with. -/
def Lexeme.startsForm (lexeme : Lexeme) : Prop :=
  lexeme.startsOperand ∨ Cursor.startsStatement lexeme

/-- What is known of the first lexeme of a phrase from which a result was read. -/
def Phrase.startsWith : {α : Type} → Phrase α → α → Lexeme → Prop
  | _, .expression _, _, lexeme | _, .operand, _, lexeme => lexeme.startsOperand
  | _, .listTail closing _, _, lexeme => lexeme = .mark .comma ∨ lexeme = .mark closing
  | _, .parameter, _, lexeme => lexeme.kind = .identifier
  | _, .conditional, _, lexeme => lexeme = .word .ifWord
  | _, .block, _, lexeme => lexeme = .mark .leftBrace
  | _, .form, _, lexeme | _, .statement, some _, lexeme => lexeme.startsForm
  | _, _, _, _ => True

namespace Reads

variable {lenient : Prop} {α : Type} {phrase : Phrase α} {before after : List Token} {result : α}

/-- A reading takes tokens off the front. -/
theorem suffix (h : Reads lenient phrase before result after) : after <:+ before := by
  induction h with
  | expression _ _ ih ih' | extended _ _ _ ih ih' | listCons _ _ _ _ ih ih'
  | statementsMore _ _ _ ih ih' =>
      exact ih'.trans ih
  | identifier | integer | float | string | trueLiteral | falseLiteral | listEmpty | tailEmpty
  | parameter | pairsEmpty | breakLoop | continueLoop | bareName | empty =>
      exact List.suffix_cons ..
  | complete | noAlternative | statementsEnd | noFinalizer => exact List.suffix_rfl
  | choice _ ih | expressionForm _ ih | unterminated _ _ ih => exact ih
  | unary _ ih | array _ ih | hash _ ih | call _ ih | assign _ ih | binary _ ih | alternative _ ih
  | finalizer _ ih | returnValue _ ih => exact ih.trans (List.suffix_cons ..)
  | group _ ih | index _ ih | block _ ih =>
      exact ((List.suffix_cons ..).trans ih).trans (List.suffix_cons ..)
  | function _ _ ih ih' =>
      exact (ih'.trans ih).trans ((List.suffix_cons ..).trans (List.suffix_cons ..))
  | tailCons _ _ _ ih ih' | whileLoop _ _ ih ih' => exact (ih'.trans ih).trans (List.suffix_cons ..)
  | pairsLast _ _ _ _ ih ih' ih'' =>
      exact (ih''.trans ih').trans ((List.suffix_cons ..).trans ih)
  | pairsCons _ _ _ ih ih' ih'' =>
      exact (ih''.trans ((List.suffix_cons ..).trans ih')).trans ((List.suffix_cons ..).trans ih)
  | conditional _ _ _ ih ih' ih'' => exact ((ih''.trans ih').trans ih).trans (List.suffix_cons ..)
  | elseIf _ ih => exact ih.trans (List.suffix_cons ..)
  | letBinding _ ih => exact ih.trans (List.suffix_append [_, _, _] _)
  | bareLoop _ _ ih ih' => exact (ih'.trans ih).trans (List.suffix_append [_, _, _] _)
  | parenLoop _ _ ih ih' =>
      exact (ih'.trans ((List.suffix_cons ..).trans ih)).trans (List.suffix_append [_, _, _, _] _)
  | tryCatch _ _ _ _ ih ihNamed ihHandler ihLast =>
      exact (((ihLast.trans ihHandler).trans ihNamed).trans ((List.suffix_cons ..).trans ih)).trans
        (List.suffix_cons ..)
  | parenName => exact List.suffix_append [_, _, _] _
  | terminated _ ih => exact (List.suffix_cons ..).trans ih
  | comment =>
      exact ((List.suffix_cons ..).trans (List.suffix_append ..)).trans (List.suffix_cons ..)
  | openComment => exact List.nil_suffix
  | skipped _ h => exact h

/-- A reading takes at least as many tokens as the phrase has. -/
theorem least_le (h : Reads lenient phrase before result after) :
    after.length + phrase.least ≤ before.length := by
  induction h with
  | skipped _ _ hshorter => exact hshorter
  | _ =>
      simp only [Phrase.least, List.length_cons, List.length_append, List.length_nil] at *
      omega

/-- What a phrase starts with. -/
theorem startsWith (h : Reads lenient phrase before result after) :
    phrase.startsWith result (firstLexeme before) := by
  induction h with
  | @unary operator => cases operator <;> rfl
  | @choice before _ _ _ ih =>
      have hword : firstLexeme before = .word .ifWord := ih
      show (firstLexeme before).startsOperand = true
      rw [hword]
      rfl
  | expression _ _ ih | terminated _ ih | unterminated _ _ ih => exact ih
  | expressionForm _ ih => exact .inl ih
  | tailCons => exact .inl rfl
  | tailEmpty => exact .inr rfl
  | letBinding | returnValue | bareLoop | parenLoop | whileLoop | breakLoop | continueLoop
  | tryCatch => exact .inr rfl
  | _ => first | rfl | trivial

end Reads

end Script
