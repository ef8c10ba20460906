import Script.Binary64.Decimal
import Script.Grammar.Rule

/-!
# Expressions

Operators bind by precedence: an operand is read first, and then extended as long as the next
token is an operator that binds more tightly than the one before the operand. Rules refer to
smaller phrases through `Phrases`, and `count` bounds how often they repeat.
-/

namespace Script

/-- How tightly an operator binds. -/
inductive Precedence where
  | lowest | equality | order | sum | product | unary | call | index
deriving DecidableEq, Repr

namespace Precedence

/-- Precedences from the weakest to the strongest. -/
def level : Precedence → Nat
  | lowest => 0
  | equality => 1
  | order => 2
  | sum => 3
  | product => 4
  | unary => 5
  | call => 6
  | index => 7

end Precedence

/-- How tightly an operator between two operands binds. -/
def BinaryOperator.precedence : BinaryOperator → Precedence
  | .equal | .notEqual | .and | .or | .member => .equality
  | .less | .lessEqual | .greater | .greaterEqual => .order
  | .add | .subtract => .sum
  | .multiply | .divide => .product

namespace Lexeme

/-- The operator between two operands that a lexeme stands for. -/
def binaryOperator? : Lexeme → Option BinaryOperator
  | .mark .equal => some .equal
  | .mark .notEqual => some .notEqual
  | .mark .and => some .and
  | .mark .or => some .or
  | .word .inWord => some .member
  | .mark .less => some .less
  | .mark .lessEqual => some .lessEqual
  | .mark .greater => some .greater
  | .mark .greaterEqual => some .greaterEqual
  | .mark .plus => some .add
  | .mark .minus => some .subtract
  | .mark .star => some .multiply
  | .mark .slash => some .divide
  | _ => none

/-- How tightly a lexeme binds after an operand; the lowest precedence ends the operand. -/
def precedence (lexeme : Lexeme) : Precedence :=
  match lexeme.binaryOperator? with
  | some operator => operator.precedence
  | none =>
    match lexeme with
    | .mark .assign => .equality
    | .mark .leftParen => .call
    | .mark .leftBracket => .index
    | _ => .lowest

end Lexeme

/-- The rules of smaller phrases. -/
structure Phrases where
  /-- An expression whose operators bind more tightly than the given precedence. -/
  expression : Precedence → Rule Expr
  /-- One statement, or nothing where it was skipped. -/
  statement : Rule (Option Statement)

namespace Phrases

variable (phrases : Phrases)

/-- Statements up to a token at which `stops` holds, which becomes the current token. -/
def statements (stops : Lexeme → Bool) : (count : Nat) → Rule (List Statement)
  | 0 => Rule.exhausted
  | count + 1 => do
    let token ← Rule.current
    if stops token.lexeme then
      pure []
    else
      let statement ← phrases.statement
      let rest ← statements stops count
      pure (statement.toList ++ rest)

/-- A block from its brace, the current token, to the matching one. -/
def block (count : Nat) : Rule Block := do
  let first ← Rule.current
  Rule.advance
  Rule.modify fun cursor => { cursor with blocks := cursor.blocks + 1 }
  let statements ← phrases.statements (fun l => l = .mark .rightBrace ∨ l = .eof) count
  Rule.modify fun cursor => { cursor with blocks := cursor.blocks - 1 }
  let last ← Rule.current
  if last.lexeme = .mark .rightBrace then
    pure ⟨first, statements⟩
  else
    Rule.reject (.unexpected (.mark .rightBrace) last.kind) last.location

/-- A block that starts at the next token. -/
def bracedBlock (count : Nat) : Rule Block := do
  Rule.expectMark .leftBrace
  phrases.block count

/-- The pairs of a hash literal up to its closing brace; a comma may follow the last one. -/
def pairs : (count : Nat) → Rule (List Pair)
  | 0 => Rule.exhausted
  | count + 1 => do
    if ← Rule.takeMark .rightBrace then
      pure []
    else
      Rule.advance
      let key ← phrases.expression .lowest
      Rule.expectMark .colon
      Rule.advance
      let value ← phrases.expression .lowest
      unless ← Rule.meetsMark .rightBrace do
        Rule.expectMark .comma
      let rest ← pairs count
      pure (⟨key, value⟩ :: rest)

/-- A parameter, the current token. -/
def parameter : Rule Identifier := do
  let token ← Rule.current
  match token.lexeme with
  | .identifier name => pure ⟨name, token.location⟩
  | _ => Rule.reject (.unexpected .identifier token.kind) token.location

/-- A function literal from `fn`, the current token. It has no name yet. -/
def function (count : Nat) : Rule FunctionLiteral := do
  let token ← Rule.current
  Rule.expectMark .leftParen
  let parameters ← Rule.list .rightParen parameter count
  let body ← phrases.bracedBlock count
  pure ⟨token.location, none, parameters, body⟩

/-- What may follow the consequence of a conditional: nothing, an `else` with a block, or one with
another conditional, which `nested` reads. -/
def alternative (nested : Rule Expr) (count : Nat) : Rule (Option Block) := do
  if ← Rule.meetsWord .elseWord then
    Rule.advance
    if ← Rule.meetsWord .ifWord then
      Rule.advance
      let first ← Rule.current
      let inner ← nested
      pure (some ⟨first, [.expression first inner]⟩)
    else
      let block ← phrases.bracedBlock count
      pure (some block)
  else
    pure none

/-- A conditional from `if`, the current token. -/
def conditional : (count : Nat) → Rule Expr
  | 0 => Rule.exhausted
  | count + 1 => do
    let token ← Rule.current
    Rule.advance
    let condition ← phrases.expression .lowest
    let consequence ← phrases.bracedBlock count
    let alternative ← phrases.alternative (conditional count) count
    pure (.conditional token.location condition consequence alternative)

/-- An integer literal. -/
def integer (location : Location) (digits : String) : Rule Expr :=
  let value := Nat.ofDigitChars 10 digits.toList 0
  if (value : Int) ≤ Int64.maxValue.toInt then
    pure (.integer location digits (.ofNat value))
  else
    Rule.reject (.integerRange digits) location

/-- A literal with a dot. -/
def float (location : Location) (digits : String) : Rule Expr :=
  match Binary64.ofDigits? digits.toList with
  | some value => pure (.float location digits value)
  | none => Rule.reject (.floatDots digits) location

/-- An operator in front of its operand. -/
def unary (location : Location) (operator : UnaryOperator) : Rule Expr := do
  Rule.advance
  let operand ← phrases.expression .unary
  pure (.unary location operator operand)

/-- What an expression starts with, from the current token. -/
def operand (count : Nat) : Rule Expr := do
  let ⟨lexeme, location⟩ ← Rule.current
  match lexeme with
  | .identifier name => pure (.identifier ⟨name, location⟩)
  | .integer digits => integer location digits
  | .float digits => float location digits
  | .string contents => pure (.string location contents)
  | .word .trueWord => pure (.boolean location true)
  | .word .falseWord => pure (.boolean location false)
  | .mark .minus => phrases.unary location .negate
  | .mark .bang => phrases.unary location .not
  | .mark .leftParen => do
    Rule.advance
    let inner ← phrases.expression .lowest
    Rule.expectMark .rightParen
    pure inner
  | .mark .leftBracket => do
    let elements ← Rule.list .rightBracket (phrases.expression .lowest) count
    pure (.array location elements)
  | .mark .leftBrace => do
    let pairs ← phrases.pairs count
    pure (.hash location pairs)
  | .word .fnWord => do
    let literal ← phrases.function count
    pure (.function literal)
  | .word .ifWord => phrases.conditional count
  | .illegal character => Rule.reject (.illegalCharacter character) location
  | _ => Rule.reject (.noExpression lexeme.kind) location

/-- The expression that `left` becomes by the operator at the current token. A value is
assigned to a name only, which is checked after the value was read. -/
def continuation (count : Nat) (left : Expr) : Rule Expr := do
  let ⟨lexeme, location⟩ ← Rule.current
  match lexeme with
  | .mark .leftParen => do
    let arguments ← Rule.list .rightParen (phrases.expression .lowest) count
    pure (.call location left arguments)
  | .mark .leftBracket => do
    Rule.advance
    let index ← phrases.expression .lowest
    Rule.expectMark .rightBracket
    pure (.index location left index)
  | .mark .assign => do
    Rule.advance
    let value ← phrases.expression .lowest
    match left with
    | .identifier target => pure (.assign location target value)
    | _ => Rule.reject .assignmentTarget location
  | _ =>
    match lexeme.binaryOperator? with
    | some operator => do
      Rule.advance
      let right ← phrases.expression operator.precedence
      pure (.binary location left operator right)
    | none => pure left

/-- Extends `left` by the operators that bind more tightly than `precedence`. -/
def extend (precedence : Precedence) : (count : Nat) → Expr → Rule Expr
  | 0, _ => Rule.exhausted
  | count + 1, left => do
    let next ← Rule.upcoming
    if precedence.level < next.lexeme.precedence.level then
      Rule.advance
      let longer ← phrases.continuation count left
      extend precedence count longer
    else
      pure left

/-- An expression from the current token to its last one. -/
def wholeExpression (count : Nat) (precedence : Precedence) : Rule Expr := do
  let left ← phrases.operand count
  phrases.extend precedence count left

end Phrases

end Script
