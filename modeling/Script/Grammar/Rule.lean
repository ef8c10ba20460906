import Script.Program
import Script.Token.Stream

/-!
# Grammar rules

A rule reads tokens at a cursor. The cursor stands on a current token and sees the one after
it. A rule that does not apply records a syntax error and rejects; the statement rule then
skips to a place where reading can go on, so that one pass reports many errors.
-/

namespace Script

/-- Why a rule does not apply. -/
inductive SyntaxFault where
  /-- The next token is of another kind than the rule wants. -/
  | unexpected (wanted got : TokenKind)
  /-- An expression cannot start with this character. -/
  | illegalCharacter (character : Char)
  /-- An expression cannot start with a token of this kind. -/
  | noExpression (kind : TokenKind)
  /-- A run of digits is no 64-bit integer. -/
  | integerRange (digits : String)
  /-- A run of digits and dots has more than one dot. -/
  | floatDots (digits : String)
  /-- Only a name can be assigned to. -/
  | assignmentTarget
deriving DecidableEq, Repr

/-- The wording of a fault. -/
def SyntaxFault.message : SyntaxFault → String
  | unexpected wanted got =>
    "Expected next token to be " ++ wanted.display ++ ", got " ++ got.display ++ " instead"
  | illegalCharacter c => "Illegal token: " ++ String.singleton c
  | noExpression kind => "No prefix parse function registered for " ++ kind.display
  | integerRange digits => "Could not parse \"" ++ digits ++ "\" as integer"
  | floatDots digits => "Could not parse \"" ++ digits ++ "\" as float"
  | assignmentTarget => "Cannot assign value to a non-identifier"

/-- What is wrong with a source text. -/
inductive SyntaxError where
  | scan (error : ScanError)
  | parse (fault : SyntaxFault) (location : Location)
deriving DecidableEq, Repr

namespace SyntaxError

/-- The place that an error is reported at. -/
def location : SyntaxError → Location
  | scan error => error.location
  | parse _ location => location

/-- The written form of an error. -/
def text : SyntaxError → String
  | scan error => "[" ++ error.location.text ++ "] scanner error: " ++ error.fault.message
  | parse fault location => "[" ++ location.text ++ "] parse error: " ++ fault.message

end SyntaxError

/-- A position in a list of tokens, and what was recorded up to there. -/
structure Cursor where
  /-- The current token and all after it. -/
  rest : List Token
  /-- The place just past the last token or the failure. -/
  finish : Location
  /-- The failure that ended the tokens, until it is recorded. -/
  failure : Option ScanError
  /-- The recorded errors, in order. -/
  errors : List SyntaxError
  /-- The number of blocks around the position. -/
  blocks : Nat

namespace Cursor

/-- The current token; past the last one there is an `eof` token. -/
def current (cursor : Cursor) : Token :=
  cursor.rest.headD ⟨.eof, cursor.finish⟩

/-- The token after the current one. -/
def upcoming (cursor : Cursor) : Token :=
  cursor.rest.tail.headD ⟨.eof, cursor.finish⟩

/-- Records an error. -/
def record (cursor : Cursor) (error : SyntaxError) : Cursor :=
  { cursor with errors := cursor.errors ++ [error] }

/-- Records the failure that ended the tokens once no token follows the current one. -/
def surface (cursor : Cursor) : Cursor :=
  match cursor.failure, cursor.rest with
  | some error, [] => { cursor.record (.scan error) with failure := none }
  | some error, [_] => { cursor.record (.scan error) with failure := none }
  | _, _ => cursor

/-- Moves to the next token. -/
def advance (cursor : Cursor) : Cursor :=
  { cursor with rest := cursor.rest.tail }.surface

/-- The first position of a scanned text. -/
def ofScanned (scanned : Scanned) : Cursor :=
  surface ⟨scanned.tokens, scanned.finish, scanned.failure, [], 0⟩

/-- Moves on until `stops` holds, by at most `count` tokens. -/
def advanceUntil (stops : Cursor → Bool) : (count : Nat) → Cursor → Cursor
  | 0, cursor => cursor
  | count + 1, cursor =>
    if stops cursor then cursor else advanceUntil stops count cursor.advance

end Cursor

/-- How a rule ends. -/
inductive Step (α : Type) where
  /-- The rule applies, and the cursor stands on its last token. -/
  | parsed (result : α) (cursor : Cursor)
  /-- The rule does not apply, and an error was recorded. -/
  | rejected (cursor : Cursor)
  /-- The bound on nested and repeated phrases was too small. -/
  | exhausted

/-- A rule reads a phrase at a cursor. -/
def Rule (α : Type) := Cursor → Step α

namespace Rule

variable {α β : Type}

instance : Monad Rule where
  pure result cursor := .parsed result cursor
  bind rule next cursor :=
    match rule cursor with
    | .parsed result cursor => next result cursor
    | .rejected cursor => .rejected cursor
    | .exhausted => .exhausted

theorem bind_apply (rule : Rule α) (next : α → Rule β) (cursor : Cursor) :
    (rule >>= next) cursor =
      match rule cursor with
      | .parsed result cursor => next result cursor
      | .rejected cursor => .rejected cursor
      | .exhausted => .exhausted := rfl

instance : LawfulMonad Rule :=
  LawfulMonad.mk' Rule
    (fun rule => by
      funext cursor
      simp only [Functor.map]
      cases rule cursor <;> rfl)
    (fun _ _ => rfl)
    (fun rule _ _ => by
      funext cursor
      simp only [bind_apply]
      cases rule cursor <;> rfl)

/-- The rule that was given too small a bound. -/
def exhausted : Rule α := fun _ => .exhausted

/-- The current token. -/
def current : Rule Token := fun cursor => .parsed cursor.current cursor

/-- The token after the current one. -/
def upcoming : Rule Token := fun cursor => .parsed cursor.upcoming cursor

/-- The number of tokens that are left, with the current one. -/
def remaining : Rule Nat := fun cursor => .parsed cursor.rest.length cursor

/-- Changes the cursor. -/
def modify (change : Cursor → Cursor) : Rule Unit := fun cursor => .parsed () (change cursor)

/-- Moves to the next token. -/
def advance : Rule Unit := modify Cursor.advance

/-- Records an error and rejects. -/
def reject (fault : SyntaxFault) (location : Location) : Rule α := fun cursor =>
  .rejected (cursor.record (.parse fault location))

/-- Moves to the next token if it is the wanted one, and rejects otherwise. -/
def expect (wanted : TokenKind) : Rule Unit := do
  let next ← upcoming
  if next.kind = wanted then advance else reject (.unexpected wanted next.kind) next.location

/-- Moves to the next token if it is the wanted mark. -/
def expectMark (mark : Mark) : Rule Unit := expect (.mark mark)

/-- Moves to the next token if it is the wanted word. -/
def expectWord (word : Keyword) : Rule Unit := expect (.word word)

/-- Moves to the next token if it is a name. -/
def expectIdentifier : Rule Identifier := do
  let next ← upcoming
  match next.lexeme with
  | .identifier name => do
    advance
    pure ⟨name, next.location⟩
  | _ => reject (.unexpected .identifier next.kind) next.location

/-- Whether the next token is the given mark. -/
def meetsMark (mark : Mark) : Rule Bool := do
  let next ← upcoming
  pure (next.lexeme = .mark mark)

/-- Whether the next token is the given word. -/
def meetsWord (word : Keyword) : Rule Bool := do
  let next ← upcoming
  pure (next.lexeme = .word word)

/-- Moves to the next token if it is the given mark, and tells whether it is. -/
def takeMark (mark : Mark) : Rule Bool := do
  if ← meetsMark mark then
    advance
    pure true
  else
    pure false

/-- Whether the rule applies; a rejection keeps its errors. -/
def attempt (rule : Rule α) : Rule (Option α) := fun cursor =>
  match rule cursor with
  | .parsed result cursor => .parsed (some result) cursor
  | .rejected cursor => .parsed none cursor
  | .exhausted => .exhausted

/-- Items after commas up to `closing`, which becomes the current token; the current token is
the last one of an item. -/
def listTail (closing : Mark) (item : Rule α) : (count : Nat) → Rule (List α)
  | 0 => exhausted
  | count + 1 => do
    if ← takeMark .comma then
      advance
      let first ← item
      let rest ← listTail closing item count
      pure (first :: rest)
    else
      expectMark closing
      pure []

/-- Items separated by commas between the current token and `closing`, which becomes the
current token. -/
def list (closing : Mark) (item : Rule α) (count : Nat) : Rule (List α) := do
  if ← takeMark closing then
    pure []
  else
    advance
    let first ← item
    let rest ← listTail closing item count
    pure (first :: rest)

end Rule

end Script
