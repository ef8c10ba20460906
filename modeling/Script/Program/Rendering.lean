import Script.Program
import Script.Text.Quoted

/-!
# Rendering

The source text of a program, with every grouping of operators written out in parentheses.
Reading it gives the same tree, apart from places and the tokens that open statements and
blocks.
-/

namespace Script

mutual

/-- The source text of an expression. -/
def Expr.text : Expr → String
  | .identifier name => name.name
  | .integer _ digits _ => digits
  | .float _ digits _ => digits
  | .boolean _ value => if value then "true" else "false"
  | .string _ value => Text.quoted value
  | .array _ elements => "[" ++ ", ".intercalate (Expr.texts elements) ++ "]"
  | .hash _ pairs => "\x7b" ++ ", ".intercalate (Pair.texts pairs) ++ "\x7d"
  | .function literal => literal.text
  | .unary _ operator operand => "(" ++ operator.lexeme.literal ++ operand.text ++ ")"
  | .binary _ left operator right =>
    "(" ++ left.text ++ " " ++ operator.lexeme.literal ++ " " ++ right.text ++ ")"
  | .assign _ target value => "(" ++ target.name ++ " = " ++ value.text ++ ")"
  | .index _ collection index => "(" ++ collection.text ++ "[" ++ index.text ++ "])"
  | .call _ callee arguments =>
    callee.text ++ "(" ++ ", ".intercalate (Expr.texts arguments) ++ ")"
  | .conditional _ condition consequence alternative =>
    "if (" ++ condition.text ++ ") " ++ consequence.text ++
      Block.optionText " else " alternative
termination_by structural expr => expr

/-- The source texts of several expressions. -/
def Expr.texts : List Expr → List String
  | [] => []
  | expr :: rest => expr.text :: Expr.texts rest
termination_by structural exprs => exprs

/-- The source text of a key and its value. -/
def Pair.text : Pair → String
  | ⟨key, value⟩ => key.text ++ ": " ++ value.text
termination_by structural pair => pair

/-- The source texts of the pairs of a hash literal. -/
def Pair.texts : List Pair → List String
  | [] => []
  | pair :: rest => pair.text :: Pair.texts rest
termination_by structural pairs => pairs

/-- The source text of a function, which shows no name. -/
def FunctionLiteral.text : FunctionLiteral → String
  | ⟨_, _, parameters, body⟩ =>
    "fn(" ++ ", ".intercalate (parameters.map Identifier.name) ++ ") " ++ body.text
termination_by structural literal => literal

/-- The source text of a block. -/
def Block.text : Block → String
  | ⟨_, statements⟩ => "\x7b" ++ Statement.spacedText statements ++ " \x7d"
termination_by structural block => block

/-- The source text of a block that may be absent, after an introduction. -/
def Block.optionText (introduction : String) : Option Block → String
  | none => ""
  | some block => introduction ++ block.text
termination_by structural block => block

/-- The source text of a statement. -/
def Statement.text : Statement → String
  | .letBinding _ target value => "let " ++ target.name ++ " = " ++ value.text ++ ";"
  | .returnValue _ value => "return " ++ value.text ++ ";"
  | .expression _ value => value.text ++ ";"
  | .forLoop _ element iterable body =>
    "for (" ++ element.name ++ " in " ++ iterable.text ++ ") " ++ body.text
  | .whileLoop _ condition body => "while (" ++ condition.text ++ ") " ++ body.text
  | .breakLoop _ => "break;"
  | .continueLoop _ => "continue;"
  | .tryCatch _ body error handler finalizer =>
    "try " ++ body.text ++ " catch (" ++ error.name ++ ") " ++ handler.text ++
      Block.optionText " finally " finalizer
termination_by structural statement => statement

/-- The source texts of several statements, each after a space. -/
def Statement.spacedText : List Statement → String
  | [] => ""
  | statement :: rest => " " ++ statement.text ++ Statement.spacedText rest
termination_by structural statements => statements

end

/-- The source text of a program, a statement on each line. -/
def Program.text (program : Program) : String :=
  "\n".intercalate (program.statements.map Statement.text)

end Script
