import Script.Binary64
import Script.Token

/-!
# Programs

The tree of a program. Every node knows the place of its own token; the remaining fields say
what the node means. Parentheses that only group leave no node.
-/

namespace Script

/-- A name at a place. -/
structure Identifier where
  /-- The name. -/
  name : String
  /-- The place of its first character. -/
  location : Location
deriving DecidableEq, Repr, Inhabited

/-- Operators with one operand, written in front of it. -/
inductive UnaryOperator where
  | negate | not
deriving DecidableEq, Repr

/-- The lexeme of an operator. -/
def UnaryOperator.lexeme : UnaryOperator → Lexeme
  | negate => .mark .minus
  | not => .mark .bang

/-- Operators with two operands, written between them. -/
inductive BinaryOperator where
  | equal | notEqual | and | or | member
  | less | lessEqual | greater | greaterEqual
  | add | subtract | multiply | divide
deriving DecidableEq, Repr

/-- The lexeme of an operator. -/
def BinaryOperator.lexeme : BinaryOperator → Lexeme
  | equal => .mark .equal
  | notEqual => .mark .notEqual
  | and => .mark .and
  | or => .mark .or
  | member => .word .inWord
  | less => .mark .less
  | lessEqual => .mark .lessEqual
  | greater => .mark .greater
  | greaterEqual => .mark .greaterEqual
  | add => .mark .plus
  | subtract => .mark .minus
  | multiply => .mark .star
  | divide => .mark .slash

mutual

/-- Expressions. The location is that of the operator, or of the opening bracket of a call, an
index, an array or a hash. -/
inductive Expr where
  | identifier (identifier : Identifier)
  /-- A whole number, with the digits it is written with. -/
  | integer (location : Location) (digits : String) (value : Int64)
  /-- A number with a dot, with the digits it is written with. -/
  | float (location : Location) (digits : String) (value : Binary64)
  | boolean (location : Location) (value : Bool)
  | string (location : Location) (value : String)
  | array (location : Location) (elements : List Expr)
  | hash (location : Location) (pairs : List Pair)
  | function (literal : FunctionLiteral)
  | unary (location : Location) (operator : UnaryOperator) (operand : Expr)
  | binary (location : Location) (left : Expr) (operator : BinaryOperator) (right : Expr)
  | assign (location : Location) (target : Identifier) (value : Expr)
  | index (location : Location) (collection index : Expr)
  | call (location : Location) (callee : Expr) (arguments : List Expr)
  | conditional (location : Location) (condition : Expr) (consequence : Block)
      (alternative : Option Block)

/-- A key and a value of a hash literal. -/
structure Pair where
  /-- The expression of the key. -/
  key : Expr
  /-- The expression of the value. -/
  value : Expr

/-- A function as it is written. -/
structure FunctionLiteral where
  /-- The place of `fn`. -/
  location : Location
  /-- The name of the binding that has the literal as its value. -/
  name : Option String
  /-- The parameters, in order. -/
  parameters : List Identifier
  /-- The statements evaluated by a call. -/
  body : Block

/-- Statements between braces. An `else if` is a block of one conditional, and its first token
is the `if`. -/
structure Block where
  /-- The token that opens the block. -/
  first : Token
  /-- The statements, in order. -/
  statements : List Statement

/-- Statements. The location is that of the keyword. -/
inductive Statement where
  | letBinding (location : Location) (target : Identifier) (value : Expr)
  | returnValue (location : Location) (value : Expr)
  /-- An expression, with the first token of the statement. -/
  | expression (first : Token) (value : Expr)
  | forLoop (location : Location) (element : Identifier) (iterable : Expr) (body : Block)
  | whileLoop (location : Location) (condition : Expr) (body : Block)
  | breakLoop (location : Location)
  | continueLoop (location : Location)
  | tryCatch (location : Location) (body : Block) (error : Identifier) (handler : Block)
      (finalizer : Option Block)

end

instance : Inhabited Expr := ⟨.identifier default⟩
instance : Inhabited Block := ⟨⟨default, []⟩⟩
instance : Inhabited Statement := ⟨.breakLoop default⟩

/-- A program is a sequence of statements. -/
structure Program where
  /-- The statements, in order. -/
  statements : List Statement

/-- The token of a name. -/
def Identifier.token (identifier : Identifier) : Token :=
  ⟨.identifier identifier.name, identifier.location⟩

/-- The token of a function literal. -/
def FunctionLiteral.token (literal : FunctionLiteral) : Token :=
  ⟨.word .fnWord, literal.location⟩

/-- The own token of an expression. -/
def Expr.token : Expr → Token
  | .identifier name => name.token
  | integer location digits _ => ⟨.integer digits, location⟩
  | float location digits _ => ⟨.float digits, location⟩
  | boolean location value => ⟨.word (if value then .trueWord else .falseWord), location⟩
  | string location value => ⟨.string value, location⟩
  | array location _ => ⟨.mark .leftBracket, location⟩
  | hash location _ => ⟨.mark .leftBrace, location⟩
  | function literal => literal.token
  | unary location operator _ => ⟨operator.lexeme, location⟩
  | binary location _ operator _ => ⟨operator.lexeme, location⟩
  | assign location _ _ => ⟨.mark .assign, location⟩
  | index location _ _ => ⟨.mark .leftBracket, location⟩
  | call location _ _ => ⟨.mark .leftParen, location⟩
  | conditional location _ _ _ => ⟨.word .ifWord, location⟩

/-- The own token of a statement. -/
def Statement.token : Statement → Token
  | letBinding location _ _ => ⟨.word .letWord, location⟩
  | returnValue location _ => ⟨.word .returnWord, location⟩
  | expression first _ => first
  | forLoop location _ _ _ => ⟨.word .forWord, location⟩
  | whileLoop location _ _ => ⟨.word .whileWord, location⟩
  | breakLoop location => ⟨.word .breakWord, location⟩
  | continueLoop location => ⟨.word .continueWord, location⟩
  | tryCatch location _ _ _ _ => ⟨.word .tryWord, location⟩

end Script
