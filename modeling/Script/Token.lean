import Script.Location

/-!
# Tokens

A token is a lexeme at a place. A lexeme carries only what its kind leaves open: names,
digits, the contents of a string or an unknown character. The spelling of words and marks is
fixed, so `Lexeme.literal` is defined by the lexeme alone.
-/

namespace Script

/-- Reserved words. -/
inductive Keyword where
  | letWord | trueWord | falseWord | inWord | ifWord | elseWord | forWord | whileWord
  | fnWord | returnWord | breakWord | continueWord | tryWord | catchWord | finallyWord
deriving DecidableEq, Repr

namespace Keyword

/-- Every reserved word. -/
def all : List Keyword :=
  [letWord, trueWord, falseWord, inWord, ifWord, elseWord, forWord, whileWord, fnWord,
    returnWord, breakWord, continueWord, tryWord, catchWord, finallyWord]

/-- How a word is written in a source text. -/
def spelling : Keyword → String
  | letWord => "let"
  | trueWord => "true"
  | falseWord => "false"
  | inWord => "in"
  | ifWord => "if"
  | elseWord => "else"
  | forWord => "for"
  | whileWord => "while"
  | fnWord => "fn"
  | returnWord => "return"
  | breakWord => "break"
  | continueWord => "continue"
  | tryWord => "try"
  | catchWord => "catch"
  | finallyWord => "finally"

/-- How error messages name a word. -/
def display : Keyword → String
  | letWord => "LET"
  | trueWord => "TRUE"
  | falseWord => "FALSE"
  | inWord => "in"
  | ifWord => "IF"
  | elseWord => "ELSE"
  | forWord => "FOR"
  | whileWord => "WHILE"
  | fnWord => "FUNCTION"
  | returnWord => "RETURN"
  | breakWord => "BREAK"
  | continueWord => "CONTINUE"
  | tryWord => "TRY"
  | catchWord => "CATCH"
  | finallyWord => "FINALLY"

/-- The reserved word with the given spelling. -/
def ofSpelling? (word : String) : Option Keyword :=
  all.find? (·.spelling == word)

/-- A spelling names one reserved word. -/
theorem ofSpelling?_eq_some_iff {text : String} {keyword : Keyword} :
    ofSpelling? text = some keyword ↔ text = keyword.spelling := by
  constructor
  · intro h
    have found := List.find?_some h
    exact (eq_of_beq found).symm
  · rintro rfl
    cases keyword <;> rfl

end Keyword

/-- Operators and punctuation. -/
inductive Mark where
  | plus | minus | star | slash | bang | assign
  | equal | notEqual | less | lessEqual | greater | greaterEqual | and | or
  | leftParen | rightParen | leftBrace | rightBrace | leftBracket | rightBracket
  | comma | semicolon | colon | commentOpen | commentClose
deriving DecidableEq, Repr

/-- How a mark is written, in a source text and in messages. -/
def Mark.spelling : Mark → String
  | plus => "+"
  | minus => "-"
  | star => "*"
  | slash => "/"
  | bang => "!"
  | assign => "="
  | equal => "=="
  | notEqual => "!="
  | less => "<"
  | lessEqual => "<="
  | greater => ">"
  | greaterEqual => ">="
  | and => "&"
  | or => "|"
  | leftParen => "("
  | rightParen => ")"
  | leftBrace => "\x7b"
  | rightBrace => "\x7d"
  | leftBracket => "["
  | rightBracket => "]"
  | comma => ","
  | semicolon => ";"
  | colon => ":"
  | commentOpen => "/*"
  | commentClose => "*/"

/-- What a token is, apart from its place. -/
inductive Lexeme where
  | identifier (name : String)
  /-- A run of digits. -/
  | integer (digits : String)
  /-- A run of digits and at least one dot. -/
  | float (digits : String)
  /-- The contents of a string literal, after its escapes were read. -/
  | string (contents : String)
  | word (keyword : Keyword)
  | mark (mark : Mark)
  /-- A character that starts no lexeme. -/
  | illegal (character : Char)
  /-- The end of the text. -/
  | eof
deriving DecidableEq, Repr, Inhabited

/-- The kind of a lexeme, which is what a grammar rule asks for. -/
inductive TokenKind where
  | identifier | integer | float | string
  | word (keyword : Keyword)
  | mark (mark : Mark)
  | illegal | eof
deriving DecidableEq, Repr

/-- How messages name a kind. -/
def TokenKind.display : TokenKind → String
  | identifier => "IDENTIFIER"
  | integer => "INTEGER"
  | float => "FLOAT"
  | string => "STRING"
  | word k => k.display
  | mark m => m.spelling
  | illegal => "ILLEGAL"
  | eof => "EOF"

namespace Lexeme

/-- The kind of a lexeme. -/
def kind : Lexeme → TokenKind
  | identifier _ => .identifier
  | integer _ => .integer
  | float _ => .float
  | string _ => .string
  | word k => .word k
  | mark m => .mark m
  | illegal _ => .illegal
  | eof => .eof

/-- The source text of a lexeme; for a string its contents, for the end nothing. -/
def literal : Lexeme → String
  | identifier name => name
  | integer digits => digits
  | float digits => digits
  | string contents => contents
  | word k => k.spelling
  | mark m => m.spelling
  | illegal character => String.singleton character
  | eof => ""

end Lexeme

/-- A lexeme and the place of its first character. -/
structure Token where
  /-- What the token is. -/
  lexeme : Lexeme
  /-- The place of its first character. -/
  location : Location
deriving DecidableEq, Repr, Inhabited

namespace Token

/-- The kind of a token's lexeme. -/
def kind (token : Token) : TokenKind := token.lexeme.kind

/-- The literal of a token's lexeme. -/
def literal (token : Token) : String := token.lexeme.literal

end Token

end Script
