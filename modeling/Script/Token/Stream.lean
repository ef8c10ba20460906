import Script.Text.Alphabetic
import Script.Text.Numeric
import Script.Text.Quoted
import Script.Token

/-!
# Token streams

A stream holds what is left of a source text and the place reached in it. `Stream.pull` takes
the next token off. A stream ends with one `eof` token, or fails inside a string literal;
after that it yields nothing. `scan` pulls until then.
-/

namespace Script

/-- Why a string literal could not be read. -/
inductive ScanFault where
  /-- The text ends before the closing quote. -/
  | unterminatedString
  /-- A backslash stands before a character that makes no escape. -/
  | unknownEscape (character : Char)
deriving DecidableEq, Repr

/-- The wording of a fault. -/
def ScanFault.message : ScanFault → String
  | unterminatedString => "unterminated string"
  | unknownEscape c => "unknown escape sequence '\\" ++ String.singleton c ++ "'"

/-- A fault and the place of the opening quote of its string literal. -/
structure ScanError where
  /-- What went wrong. -/
  fault : ScanFault
  /-- The place of the opening quote. -/
  location : Location
deriving DecidableEq, Repr

/-- One scanned lexeme, or a fault, with the text that is left and the place reached. -/
inductive Scan where
  | lexeme (lexeme : Lexeme) (rest : List Char) (reached : Location)
  | failed (fault : ScanFault) (rest : List Char) (reached : Location)

namespace Scan

/-- The marks written with two characters. -/
def double? : Char → Char → Option Mark
  | '/', '*' => some .commentOpen
  | '*', '/' => some .commentClose
  | '!', '=' => some .notEqual
  | '=', '=' => some .equal
  | '<', '=' => some .lessEqual
  | '>', '=' => some .greaterEqual
  | _, _ => none

/-- The marks written with one character. -/
def single? : Char → Option Mark
  | '+' => some .plus
  | '-' => some .minus
  | '*' => some .star
  | '/' => some .slash
  | '!' => some .bang
  | '=' => some .assign
  | '<' => some .less
  | '>' => some .greater
  | '&' => some .and
  | '|' => some .or
  | '(' => some .leftParen
  | ')' => some .rightParen
  | '{' => some .leftBrace
  | '}' => some .rightBrace
  | '[' => some .leftBracket
  | ']' => some .rightBracket
  | ',' => some .comma
  | ';' => some .semicolon
  | ':' => some .colon
  | _ => none

/-- The longest mark that starts with `c`, and what follows it. -/
def mark? (c : Char) (rest : List Char) : Option (Mark × List Char) :=
  let short := (single? c).map (·, rest)
  match rest with
  | [] => short
  | d :: rest =>
    match double? c d with
    | some mark => some (mark, rest)
    | none => short

/-- Characters that start an identifier. -/
def startsIdentifier (c : Char) : Bool :=
  c = '_' || Text.isAlphabetic c

/-- Characters that continue an identifier. -/
def continuesIdentifier (c : Char) : Bool :=
  startsIdentifier c || Text.isNumeric c

/-- Characters that continue a number; whether they make one is decided when it is read. -/
def continuesNumber (c : Char) : Bool :=
  c.isDigit || c = '.'

/-- The lexeme of a word: reserved, or an identifier. -/
def word (name : String) : Lexeme :=
  match Keyword.ofSpelling? name with
  | some keyword => .word keyword
  | none => .identifier name

/-- The lexeme of a run of digits and dots. -/
def number (digits : List Char) : Lexeme :=
  if digits.contains '.' then .float (String.ofList digits) else .integer (String.ofList digits)

/-- Reads a string literal after its opening quote; `contents` holds the characters read so
far, latest first. A character after a backslash moves the place by one column, whatever it
is. -/
def string (contents : List Char) (place : Location) : List Char → Scan
  | [] => .failed .unterminatedString [] place
  | '"' :: rest => .lexeme (.string (String.ofList contents.reverse)) rest (place.right 1)
  | ['\\'] => .failed .unterminatedString [] (place.right 1)
  | '\\' :: sign :: rest =>
    match Text.unescape? sign with
    | some c => string (c :: contents) (place.right 2) rest
    | none => .failed (.unknownEscape sign) rest (place.right 2)
  | c :: rest => string (c :: contents) (place.after c) rest

/-- The lexeme that starts with `c` at `place`. -/
def next (place : Location) (c : Char) (rest : List Char) : Scan :=
  match mark? c rest with
  | some (mark, rest) => .lexeme (.mark mark) rest (place.right mark.spelling.length)
  | none =>
    if c = '"' then
      string [] (place.right 1) rest
    else if c.isDigit then
      let digits := c :: rest.takeWhile continuesNumber
      .lexeme (number digits) (rest.dropWhile continuesNumber) (place.right digits.length)
    else if startsIdentifier c then
      let name := c :: rest.takeWhile continuesIdentifier
      .lexeme (word (String.ofList name)) (rest.dropWhile continuesIdentifier)
        (place.right name.length)
    else
      .lexeme (.illegal c) rest (place.right 1)

end Scan

/-- How far a stream has come. -/
inductive Stream.Status where
  /-- More tokens follow. -/
  | reading
  /-- The end of the text was reported. -/
  | ended
  /-- A string literal could not be read. -/
  | failed (error : ScanError)

/-- What is left of a source text. -/
structure Stream where
  /-- The characters not yet read. -/
  rest : List Char
  /-- The place of the next character. -/
  location : Location
  /-- Whether more tokens follow. -/
  status : Stream.Status

namespace Stream

/-- The stream of a whole text. -/
def ofText (text : String) : Stream :=
  ⟨text.toList, .start, .reading⟩

/-- Characters that only separate tokens. -/
def separates (c : Char) : Bool :=
  c = ' ' || c = '\t' || c = '\r' || c = '\n'

/-- Takes the next token off the stream, `eof` once at the end of the text. -/
def pull (stream : Stream) : Option Token × Stream :=
  match stream.status with
  | .reading =>
    let place := stream.location.afterAll (stream.rest.takeWhile separates)
    match stream.rest.dropWhile separates with
    | [] => (some ⟨.eof, place⟩, ⟨[], place, .ended⟩)
    | c :: rest =>
      match Scan.next place c rest with
      | .lexeme lexeme rest reached => (some ⟨lexeme, place⟩, ⟨rest, reached, .reading⟩)
      | .failed fault rest reached => (none, ⟨rest, reached, .failed ⟨fault, place⟩⟩)
  | _ => (none, stream)

/-- The tokens of the next `count` pulls up to the end or failure, without `eof`, and the
stream after them. -/
def drain : (count : Nat) → Stream → List Token × Stream
  | 0, stream => ([], stream)
  | count + 1, stream =>
    match stream.pull with
    | (none, stream) => ([], stream)
    | (some token, stream) =>
      if token.lexeme = .eof then
        ([], stream)
      else
        let (tokens, stream) := drain count stream
        (token :: tokens, stream)

end Stream

/-- All tokens of a source text. -/
structure Scanned where
  /-- The tokens before the end or the failure. -/
  tokens : List Token
  /-- The place just past the last character read. -/
  finish : Location
  /-- Why the text was not read to its end, if it was not. -/
  failure : Option ScanError

/-- Scans a whole text. Every token has a character of its own, so one pull more than there are
characters reaches the end. -/
def scan (text : String) : Scanned :=
  let (tokens, stream) := (Stream.ofText text).drain (text.length + 1)
  match stream.status with
  | .failed error => ⟨tokens, stream.location, some error⟩
  | _ => ⟨tokens, stream.location, none⟩

/-- The tokens that the stream of the text yields, with the `eof` token of a text read to its
end. -/
def Scanned.yielded (scanned : Scanned) : List Token :=
  match scanned.failure with
  | some _ => scanned.tokens
  | none => scanned.tokens ++ [⟨.eof, scanned.finish⟩]

end Script
