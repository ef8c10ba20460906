import Script.Session
import Script.Text.Blank

/-!
# Interactive sessions

An interactive session answers each line of its input by what the line prints and by its
value. Blank lines get no answer, and lines with errors leave the session as it was. The session
ends before its input does if a line cannot be read or crashes the interpreter, or if nothing can
be written.
-/

namespace Script

namespace Repl

/-- The first line of an interactive session. -/
def banner : String := "FroLang REPL, type an expression and press enter. Ctrl-D exits.\n"

/-- What is shown before each line is read. -/
def prompt : String := ">> "

/-- One line for each error. -/
def errorLines (errors : List SyntaxError) : String :=
  String.join (errors.map fun error => "PARSE ERROR: " ++ error.text ++ "\n")

/-- The line that shows a result, for a result other than null. -/
def resultLine : Result → String
  | .value .null => ""
  | .value value => value.text ++ "\n"
  | .aborted overflow => "FATAL: " ++ overflow.text ++ "\n"
  | .crashed => ""
  | .exhausted => ""

/-- What an answer shows. -/
def answerText : Answer → String
  | .rejected errors => errorLines errors
  | .evaluated printed result => printed ++ resultLine result

/-- What a line shows, and the session after it, unless the line crashes the interpreter. -/
def respond [Host] (bound : Nat) (session : Session) (line : String) : String × Option Session :=
  if Text.isBlank line then
    ("", some session)
  else
    match session.submit bound line with
    | (.evaluated printed .crashed, _) => (printed, none)
    | (answer, session) => (answerText answer, some session)

/-- The lines of an input, each with the line feed that ends it. -/
def lines (input : List UInt8) : List (List UInt8) :=
  input.foldr cut []
where
  /-- Puts a byte in front of the first line, or before it after a line feed. -/
  cut (byte : UInt8) (lines : List (List UInt8)) : List (List UInt8) :=
    if byte = 10 then [byte] :: lines
    else match lines with
      | [] => [[byte]]
      | first :: rest => (byte :: first) :: rest

/-- How an interactive session ends. -/
inductive Ending where
  /-- The input is at its end. -/
  | finished
  /-- A line is not encoded in UTF-8. -/
  | invalidLine
  /-- The interpreter itself has failed. -/
  | crashed
  /-- Nothing can be written. -/
  | unwritable (reason : String)
deriving DecidableEq, Repr

/-- The wording of an ending other than the expected one. -/
def Ending.message : Ending → String
  | finished => ""
  | invalidLine => "stream did not contain valid UTF-8"
  | crashed => ""
  | unwritable reason => reason

/-- The text of a line, if it is encoded in UTF-8. -/
def decode? (line : List UInt8) : Option String :=
  String.fromUTF8? ⟨line.toArray⟩

/-- What a session shows from its next prompt on. -/
def exchange [Host] (bound : Nat) (session : Session) : List (List UInt8) → String × Ending
  | [] => (prompt ++ "\n", .finished)
  | line :: rest =>
    match decode? line with
    | none => (prompt, .invalidLine)
    | some line =>
      match respond bound session line with
      | (shown, none) => (prompt ++ shown, .crashed)
      | (shown, some session) =>
        match exchange bound session rest with
        | (text, ending) => (prompt ++ shown ++ text, ending)

/-- All that an interactive session shows for an input. It writes where its programs print, so if
that is refused the session ends at its first line. -/
def transcript [Host] (bound : Nat) (settings : Settings) (input : List UInt8) : String × Ending :=
  match settings.sink with
  | .refusing reason => ("", .unwritable reason)
  | .accepting =>
    match exchange bound (Session.new settings) (lines input) with
    | (text, ending) => (banner ++ text, ending)

end Repl

end Script
