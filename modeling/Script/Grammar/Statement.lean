import Script.Grammar.Expression

/-!
# Statements

A statement that does not apply is skipped up to a place where the next one can start: after a
semicolon, or before a keyword of statements or the brace that closes the block.
-/

namespace Script

namespace Cursor

/-- Skips a comment from its opening mark to past the first closing mark. -/
def skipComment (cursor : Cursor) : Cursor :=
  let stops (cursor : Cursor) : Bool :=
    cursor.current.lexeme = .mark .commentClose ∨ cursor.current.lexeme = .eof
  let cursor := cursor.advanceUntil stops cursor.rest.length
  if cursor.current.lexeme = .mark .commentClose then cursor.advance else cursor

/-- Words that start a statement, before which a skipped statement ends. -/
def startsStatement : Lexeme → Bool
  | .word .letWord | .word .returnWord | .word .forWord | .word .whileWord | .word .breakWord
  | .word .continueWord | .word .tryWord => true
  | _ => false

/-- Skips the rest of a statement at whose start `length` tokens were left. It ends after a
semicolon, or before a word that starts a statement or the brace of a surrounding block,
provided that the cursor has moved. -/
def synchronize (length : Nat) (cursor : Cursor) : Cursor :=
  let stops (cursor : Cursor) : Bool :=
    let lexeme := cursor.current.lexeme
    let moved := decide (cursor.rest.length < length)
    lexeme = .eof || lexeme = .mark .semicolon ||
      (moved && (lexeme = .mark .rightBrace && decide (0 < cursor.blocks) ||
        startsStatement lexeme))
  let cursor := cursor.advanceUntil stops cursor.rest.length
  if cursor.current.lexeme = .mark .semicolon then cursor.advance else cursor

end Cursor

/-- A function literal that is the value of a binding gets the name of the binding. -/
def Expr.named (name : String) : Expr → Expr
  | .function literal => .function { literal with name := some name }
  | expr => expr

namespace Phrases

variable (phrases : Phrases)

/-- A binding from `let`, the current token. -/
def letBinding (location : Location) : Rule Statement := do
  let target ← Rule.expectIdentifier
  Rule.expectMark .assign
  Rule.advance
  let value ← phrases.expression .lowest
  pure (.letBinding location target (value.named target.name))

/-- A return from `return`, the current token. -/
def returnValue (location : Location) : Rule Statement := do
  Rule.advance
  let value ← phrases.expression .lowest
  pure (.returnValue location value)

/-- A loop over elements from `for`, the current token. Its header may stand in parentheses. -/
def forLoop (count : Nat) (location : Location) : Rule Statement := do
  let parenthesised ← Rule.takeMark .leftParen
  let element ← Rule.expectIdentifier
  Rule.expectWord .inWord
  Rule.advance
  let iterable ← phrases.expression .lowest
  if parenthesised then
    Rule.expectMark .rightParen
  let body ← phrases.bracedBlock count
  pure (.forLoop location element iterable body)

/-- A loop with a condition from `while`, the current token. -/
def whileLoop (count : Nat) (location : Location) : Rule Statement := do
  Rule.advance
  let condition ← phrases.expression .lowest
  let body ← phrases.bracedBlock count
  pure (.whileLoop location condition body)

/-- The name of an error, which may stand in parentheses. -/
def errorName : Rule Identifier := do
  let parenthesised ← Rule.takeMark .leftParen
  let error ← Rule.expectIdentifier
  if parenthesised then
    Rule.expectMark .rightParen
  pure error

/-- What may follow the handler of errors. -/
def finalizer (count : Nat) : Rule (Option Block) := do
  if ← Rule.meetsWord .finallyWord then
    Rule.advance
    let block ← phrases.bracedBlock count
    pure (some block)
  else
    pure none

/-- A statement that handles errors, from `try`, the current token. -/
def tryCatch (count : Nat) (location : Location) : Rule Statement := do
  let body ← phrases.bracedBlock count
  Rule.expectWord .catchWord
  let error ← errorName
  let handler ← phrases.bracedBlock count
  let finalizer ← phrases.finalizer count
  pure (.tryCatch location body error handler finalizer)

/-- A statement from its first token, the current one, to its last. -/
def statementForm (count : Nat) : Rule Statement := do
  let token ← Rule.current
  match token.lexeme with
  | .word .letWord => phrases.letBinding token.location
  | .word .returnWord => phrases.returnValue token.location
  | .word .forWord => phrases.forLoop count token.location
  | .word .whileWord => phrases.whileLoop count token.location
  | .word .breakWord => pure (.breakLoop token.location)
  | .word .continueWord => pure (.continueLoop token.location)
  | .word .tryWord => phrases.tryCatch count token.location
  | _ => do
    let value ← phrases.expression .lowest
    pure (.expression token value)

/-- A statement with the semicolon that may follow it, leaving the cursor after both. Empty
statements, comments and statements with errors give nothing. -/
def wholeStatement (count : Nat) : Rule (Option Statement) := do
  let token ← Rule.current
  match token.lexeme with
  | .mark .semicolon => do
    Rule.advance
    pure none
  | .mark .commentOpen => do
    Rule.modify Cursor.skipComment
    pure none
  | _ => do
    let length ← Rule.remaining
    match ← Rule.attempt (phrases.statementForm count) with
    | some statement => do
      let _ ← Rule.takeMark .semicolon
      Rule.advance
      pure (some statement)
    | none => do
      Rule.modify (Cursor.synchronize length)
      pure none

end Phrases

end Script
