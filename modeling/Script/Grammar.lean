import Script.Grammar.Statement

/-!
# The grammar of programs

`Program.read` scans a text and reads statements up to its end. It gives every statement
without an error, together with all errors; `Program.ofText` accepts a text without errors
only.
-/

namespace Script

mutual

/-- Expressions of at most `count` nested phrases. -/
def expressionRule : (count : Nat) → Precedence → Rule Expr
  | 0, _ => Rule.exhausted
  | count + 1, precedence =>
    Phrases.wholeExpression ⟨expressionRule count, statementRule count⟩ count precedence

/-- Statements of at most `count` nested phrases. -/
def statementRule : (count : Nat) → Rule (Option Statement)
  | 0 => Rule.exhausted
  | count + 1 => Phrases.wholeStatement ⟨expressionRule count, statementRule count⟩ count

end

/-- The statements of a whole text. -/
def programRule (count : Nat) : Rule (List Statement) :=
  Phrases.statements ⟨expressionRule count, statementRule count⟩ (fun l => l = .eof) count

/-- What was read from a text. -/
structure Parsed where
  /-- Every statement that was read without an error. -/
  program : Program
  /-- The errors, in the order in which they were found. -/
  errors : List SyntaxError

/-- A bound on nested and repeated phrases. A phrase that is nested in another one comes after a
token of its own, but for the expression of a statement. -/
def phraseBound (tokens : List Token) : Nat :=
  2 * tokens.length + 4

/-- Reads a program from scanned tokens. -/
def Program.ofScanned (scanned : Scanned) : Parsed :=
  match programRule (phraseBound scanned.tokens) (Cursor.ofScanned scanned) with
  | .parsed statements cursor => ⟨⟨statements⟩, cursor.errors⟩
  | .rejected cursor => ⟨⟨[]⟩, cursor.errors⟩
  | .exhausted => ⟨⟨[]⟩, []⟩

/-- Reads a program from a text. -/
def Program.read (text : String) : Parsed :=
  Program.ofScanned (scan text)

/-- The program of a text, or the errors of a text that has some. -/
def Program.ofText (text : String) : Except (List SyntaxError) Program :=
  let parsed := Program.read text
  if parsed.errors.isEmpty then .ok parsed.program else .error parsed.errors

/-- A text is accepted as what is read from it without errors. -/
theorem Program.ofText_eq_ok {text : String} {program : Program} :
    Program.ofText text = .ok program ↔ Program.read text = ⟨program, []⟩ := by
  unfold Program.ofText
  cases Program.read text with
  | mk found errors => cases errors <;> simp

end Script
