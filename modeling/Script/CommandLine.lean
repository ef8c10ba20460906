import Script.Repl

/-!
# The command line

The command runs a file, or the code of the option `-c`, or an interactive session. Options
and the file may come in any order; after `--` an argument is a file name in any case.
-/

namespace Script

/-- What a command line asks for. -/
structure Arguments where
  /-- The code given by `-c`. -/
  code : Option String
  /-- The number of nested calls given by `--max-depth`. -/
  maxDepth : Option Nat
  /-- The name of the file to run. -/
  file : Option String
deriving Repr

namespace Arguments

/-- A command line that asks for nothing. -/
def empty : Arguments := ⟨none, none, none⟩

/-- A number in the range of 64 bits, in digits that may follow a plus sign. -/
def number? (text : List Char) : Option Nat :=
  let digits := match text with
    | '+' :: digits => digits
    | digits => digits
  let value := Nat.ofDigitChars 10 digits 0
  if !digits.isEmpty && digits.all Char.isDigit && decide (value < UInt64.size) then some value
  else none

/-- Takes the code; it can be given once. -/
def withCode (arguments : Arguments) (code : List Char) : Option Arguments :=
  if arguments.code.isSome then none else some { arguments with code := String.ofList code }

/-- Takes the number of nested calls; it can be given once. -/
def withDepth (arguments : Arguments) (text : List Char) : Option Arguments :=
  match arguments.maxDepth, number? text with
  | none, some depth => some { arguments with maxDepth := depth }
  | _, _ => none

/-- Takes a file name; it can be given once and is not empty. -/
def withFile (arguments : Arguments) (name : List Char) : Option Arguments :=
  if arguments.file.isSome || name.isEmpty then none
  else some { arguments with file := String.ofList name }

/-- Takes file names only. -/
def takeFiles (arguments : Arguments) : List (List Char) → Option Arguments
  | [] => some arguments
  | name :: rest => (arguments.withFile name).bind (takeFiles · rest)

/-- The value of an option in an argument of its own, which is no option itself. -/
def isValue : List Char → Bool
  | '-' :: _ :: _ => false
  | _ => true

/-- Takes the arguments of a command line in order; nothing is taken if one is not
understood. -/
def take (arguments : Arguments) : List (List Char) → Option Arguments
  | [] => some arguments
  | ['-', '-'] :: rest => arguments.takeFiles rest
  | ['-', 'c'] :: value :: rest =>
    if isValue value then (arguments.withCode value).bind (take · rest) else none
  | ['-', 'c'] :: [] => none
  | ('-' :: 'c' :: '=' :: code) :: rest => (arguments.withCode code).bind (take · rest)
  | ('-' :: 'c' :: code) :: rest => (arguments.withCode code).bind (take · rest)
  | argument :: rest =>
    let flag := "--max-depth".toList
    if argument = flag then
      match rest with
      | value :: rest =>
        if isValue value then (arguments.withDepth value).bind (take · rest) else none
      | [] => none
    else if (flag ++ ['=']).isPrefixOf argument then
      (arguments.withDepth (argument.drop (flag.length + 1))).bind (take · rest)
    else if isValue argument then
      (arguments.withFile argument).bind (take · rest)
    else
      none

/-- Reads a command line. -/
def read (arguments : List String) : Option Arguments :=
  empty.take (arguments.map String.toList)

/-- The settings that a command line asks for. -/
def settings (arguments : Arguments) : Settings :=
  { Settings.standard with maxDepth := arguments.maxDepth.getD Settings.standard.maxDepth }

end Arguments

/-- What follows the last dot of a file name, if something stands before the dot. -/
def extension? (name : String) : Option String :=
  let parts := (name.toList.splitOn '/').filter fun part => part ≠ [] ∧ part ≠ ['.']
  match parts.getLast? with
  | none => none
  | some part =>
    let ending := part.reverse.takeWhile (· ≠ '.')
    if part = ['.', '.'] ∨ part.length ≤ ending.length + 1 then none
    else some (String.ofList ending.reverse)

/-- Why a file cannot be read. -/
inductive FileError where
  | notFound
  | notDirectory
  | other (message : String)

/-- The wording of a file error. -/
def FileError.message : FileError → String
  | notFound => "No such file or directory (os error 2)"
  | notDirectory => "Not a directory (os error 20)"
  | other message => message

/-- What a command leaves behind. -/
structure Report where
  /-- The exit code. -/
  exitCode : Nat
  /-- What is written to standard output. -/
  output : String
  /-- What is written to standard error. -/
  errors : String
deriving DecidableEq, Repr

namespace Report

/-- A failure that is told on standard error. -/
def failure (output message : String) : Report :=
  ⟨1, output, "Error: " ++ message ++ "\n"⟩

/-- A command line that is not understood; the wording is left to the outer layer. -/
def misuse : Report := ⟨2, "", ""⟩

/-- The interpreter has failed; the wording is left to the outer layer. -/
def crash (output : String) : Report := ⟨101, output, ""⟩

end Report

namespace CommandLine

/-- What remains to be done once a command line is understood. -/
inductive Task where
  /-- Report this and stop. -/
  | stop (report : Report)
  /-- Run a source text. -/
  | source (settings : Settings) (text : String)
  /-- Run the file with this name. -/
  | file (settings : Settings) (name : String)
  /-- Run an interactive session. -/
  | interactive (settings : Settings)

/-- What a command line asks to do. A file comes before code, and both before an interactive
session. -/
def plan (arguments : List String) : Task :=
  match Arguments.read arguments with
  | none => .stop .misuse
  | some arguments =>
    match arguments.file, arguments.code with
    | some name, _ =>
      if extension? name = some "fro" then .file arguments.settings name
      else .stop (.failure "" (name ++ " is not a .fro file"))
    | none, some code => .source arguments.settings code
    | none, none => .interactive arguments.settings

/-- Runs a source text. Syntax errors and error values make the command fail. -/
def runSource [Host] (bound : Nat) (settings : Settings) (text : String) : Report :=
  match (Session.new settings).submit bound text with
  | (.rejected errors, _) => ⟨1, Repl.errorLines errors, ""⟩
  | (.evaluated printed (.value (.error identity fault)), _) =>
    ⟨1, printed ++ Repl.resultLine (.value (.error identity fault)), ""⟩
  | (.evaluated printed (.aborted overflow), _) => .failure printed overflow.text
  | (.evaluated printed .crashed, _) => .crash printed
  | (.evaluated printed result, _) => ⟨0, printed ++ Repl.resultLine result, ""⟩

/-- Runs a file that was read, or tells why it was not. -/
def runFile [Host] (bound : Nat) (settings : Settings) (name : String) :
    Except FileError String → Report
  | .ok text => runSource bound settings text
  | .error error => .failure "" ("cannot read " ++ name ++ ": " ++ error.message)

/-- Runs an interactive session over a whole input. -/
def runInteractive [Host] (bound : Nat) (settings : Settings) (input : List UInt8) : Report :=
  match Repl.transcript bound settings input with
  | (text, .finished) => ⟨0, text, ""⟩
  | (text, .crashed) => .crash text
  | (text, ending) => .failure text ending.message

/-- Reads a file of a directory without subdirectories. -/
def readFrom (files : List (String × String)) (name : String) : Except FileError String :=
  let walk : List (List Char) → Except FileError String
    | part :: rest =>
      match files.lookup (String.ofList part) with
      | some text => if rest.isEmpty then .ok text else .error .notDirectory
      | none => .error .notFound
    | [] => .error .notFound
  walk ((name.toList.splitOn '/').dropWhile (· = ['.']))

/-- Runs a command in a directory that holds the given files and no other. -/
def run [Host] (bound : Nat) (files : List (String × String)) (input : List UInt8)
    (arguments : List String) : Report :=
  match plan arguments with
  | .stop report => report
  | .source settings text => runSource bound settings text
  | .file settings name => runFile bound settings name (readFrom files name)
  | .interactive settings => runInteractive bound settings input

end CommandLine

end Script
