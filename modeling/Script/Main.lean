import Script.CommandLine

/-!
# The command

Reads files and lines, and writes what the report of the command line says.
-/

open Script Host

/-- Reads a file, or tells why it cannot be read. -/
def readSource (name : String) : IO (Except FileError String) := do
  try
    let text ← IO.FS.readFile name
    pure (.ok text)
  catch error =>
    match error with
    | .noFileOrDirectory .. => pure (.error .notFound)
    | .inappropriateType .. => pure (.error .notDirectory)
    | other => pure (.error (.other (toString other)))

/-- Reads up to the next line feed, after bytes that were read before; gives the line and the
bytes after it. -/
partial def nextLine (read : List UInt8) : IO (List UInt8 × List UInt8) := do
  match read.span (· ≠ 10) with
  | (line, feed :: rest) => pure (line ++ [feed], rest)
  | (line, []) =>
    let input ← IO.getStdin
    let chunk ← input.read 4096
    if chunk.isEmpty then pure (line, []) else nextLine (read ++ chunk.toList)

/-- Answers lines until the input ends. -/
partial def converse (session : Session) (read : List UInt8) : IO Report := do
  let output ← IO.getStdout
  output.putStr Repl.prompt
  output.flush
  let (line, rest) ← nextLine read
  match line, Repl.decode? line with
  | [], _ => pure ⟨0, "\n", ""⟩
  | _, none => pure (.failure "" Repl.Ending.invalidLine.message)
  | _, some line =>
    match Repl.respond ampleBound session line with
    | (shown, none) => pure (.crash shown)
    | (shown, some session) =>
      output.putStr shown
      converse session rest

/-- Runs the command. -/
def main (arguments : List String) : IO UInt32 := do
  let report ← match CommandLine.plan arguments with
    | .stop report => pure report
    | .source settings text => pure (CommandLine.runSource ampleBound settings text)
    | .file settings name => do
      let text ← readSource name
      pure (CommandLine.runFile ampleBound settings name text)
    | .interactive settings => do
      let output ← IO.getStdout
      output.putStr Repl.banner
      converse (Session.new settings) []
  let output ← IO.getStdout
  output.putStr report.output
  output.flush
  let errors ← IO.getStderr
  errors.putStr report.errors
  pure (.ofNat report.exitCode)
