import Script.Program.Rendering
import Script.Grammar.Statement

/-!
# Programs without their places

`Program.unplaced` forgets the places of all nodes, and the tokens that open blocks and statements.
What is left is what a program means: its constructors, names, operators and literals. The text of a
program depends on nothing else: `Program.text_unplaced`.
-/

namespace Script

/-- A name without its place. -/
def Identifier.unplaced (identifier : Identifier) : Identifier :=
  ⟨identifier.name, default⟩

mutual

/-- An expression without its places. -/
def Expr.unplaced : Expr → Expr
  | .identifier name => .identifier name.unplaced
  | .integer _ digits value => .integer default digits value
  | .float _ digits value => .float default digits value
  | .boolean _ value => .boolean default value
  | .string _ value => .string default value
  | .array _ elements => .array default (Expr.unplacedAll elements)
  | .hash _ pairs => .hash default (Pair.unplacedAll pairs)
  | .function literal => .function literal.unplaced
  | .unary _ operator operand => .unary default operator operand.unplaced
  | .binary _ left operator right => .binary default left.unplaced operator right.unplaced
  | .assign _ target value => .assign default target.unplaced value.unplaced
  | .index _ collection index => .index default collection.unplaced index.unplaced
  | .call _ callee arguments => .call default callee.unplaced (Expr.unplacedAll arguments)
  | .conditional _ condition consequence alternative =>
    .conditional default condition.unplaced consequence.unplaced (Block.unplacedOption alternative)
termination_by structural expr => expr

/-- Several expressions without their places. -/
def Expr.unplacedAll : List Expr → List Expr
  | [] => []
  | expr :: rest => expr.unplaced :: Expr.unplacedAll rest
termination_by structural exprs => exprs

/-- A key and its value without their places. -/
def Pair.unplaced : Pair → Pair
  | ⟨key, value⟩ => ⟨key.unplaced, value.unplaced⟩
termination_by structural pair => pair

/-- The pairs of a hash literal without their places. -/
def Pair.unplacedAll : List Pair → List Pair
  | [] => []
  | pair :: rest => pair.unplaced :: Pair.unplacedAll rest
termination_by structural pairs => pairs

/-- A function without its places. -/
def FunctionLiteral.unplaced : FunctionLiteral → FunctionLiteral
  | ⟨_, name, parameters, body⟩ =>
    ⟨default, name, parameters.map Identifier.unplaced, body.unplaced⟩
termination_by structural literal => literal

/-- A block without its places and the token that opens it. -/
def Block.unplaced : Block → Block
  | ⟨_, statements⟩ => ⟨default, Statement.unplacedAll statements⟩
termination_by structural block => block

/-- A block that may be absent, without its places. -/
def Block.unplacedOption : Option Block → Option Block
  | none => none
  | some block => some block.unplaced
termination_by structural block => block

/-- A statement without its places and the token that opens it. -/
def Statement.unplaced : Statement → Statement
  | .letBinding _ target value => .letBinding default target.unplaced value.unplaced
  | .returnValue _ value => .returnValue default value.unplaced
  | .expression _ value => .expression default value.unplaced
  | .forLoop _ element iterable body =>
    .forLoop default element.unplaced iterable.unplaced body.unplaced
  | .whileLoop _ condition body => .whileLoop default condition.unplaced body.unplaced
  | .breakLoop _ => .breakLoop default
  | .continueLoop _ => .continueLoop default
  | .tryCatch _ body error handler finalizer =>
    .tryCatch default body.unplaced error.unplaced handler.unplaced
      (Block.unplacedOption finalizer)
termination_by structural statement => statement

/-- Several statements without their places. -/
def Statement.unplacedAll : List Statement → List Statement
  | [] => []
  | statement :: rest => statement.unplaced :: Statement.unplacedAll rest
termination_by structural statements => statements

end

/-- A program without the places of its nodes and the tokens that open blocks and statements. -/
def Program.unplaced (program : Program) : Program :=
  ⟨Statement.unplacedAll program.statements⟩

/-- Only a name becomes a name. -/
theorem Expr.unplaced_identifier {expr : Expr} {name : Identifier}
    (h : expr.unplaced = (Expr.identifier name).unplaced) :
    ∃ copy, expr = .identifier copy ∧ copy.unplaced = name.unplaced := by
  cases expr with
  | identifier copy => exact ⟨copy, rfl, Expr.identifier.inj h⟩
  | _ => cases h

/-! ## Lists -/

theorem Expr.unplacedAll_eq (exprs : List Expr) :
    Expr.unplacedAll exprs = exprs.map Expr.unplaced := by
  induction exprs with
  | nil => rfl
  | cons expr rest ih => rw [Expr.unplacedAll, ih, List.map_cons]

theorem Statement.unplacedAll_eq (statements : List Statement) :
    Statement.unplacedAll statements = statements.map Statement.unplaced := by
  induction statements with
  | nil => rfl
  | cons statement rest ih => rw [Statement.unplacedAll, ih, List.map_cons]

theorem Expr.texts_eq (exprs : List Expr) : Expr.texts exprs = exprs.map Expr.text := by
  induction exprs with
  | nil => rfl
  | cons expr rest ih => rw [Expr.texts, ih, List.map_cons]

theorem Pair.texts_eq (pairs : List Pair) : Pair.texts pairs = pairs.map Pair.text := by
  induction pairs with
  | nil => rfl
  | cons pair rest ih => rw [Pair.texts, ih, List.map_cons]

/-! ## Names of functions -/

/-- A function literal is named by what it is, wherever it stands. -/
theorem Expr.unplaced_named (name : String) (expr : Expr) :
    (expr.named name).unplaced = expr.unplaced.named name := by
  cases expr with
  | function literal => cases literal; rfl
  | _ => rfl

/-- The text of a function literal shows no name. -/
theorem Expr.text_named (name : String) (expr : Expr) : (expr.named name).text = expr.text := by
  cases expr with
  | function literal => cases literal; rfl
  | _ => rfl

/-! ## Texts -/

mutual

/-- The text of an expression depends on no place. -/
theorem Expr.text_unplaced : (expr : Expr) → expr.unplaced.text = expr.text
  | .identifier _ | .integer _ _ _ | .float _ _ _ | .boolean _ _ | .string _ _ => rfl
  | .array _ elements => by
      rw [Expr.unplaced, Expr.text, Expr.text, Expr.texts_unplaced elements]
  | .hash _ pairs => by
      rw [Expr.unplaced, Expr.text, Expr.text, Pair.texts_unplaced pairs]
  | .function literal => by
      rw [Expr.unplaced, Expr.text, Expr.text, FunctionLiteral.text_unplaced literal]
  | .unary _ _ operand => by
      rw [Expr.unplaced, Expr.text, Expr.text, Expr.text_unplaced operand]
  | .binary _ left _ right => by
      rw [Expr.unplaced, Expr.text, Expr.text, Expr.text_unplaced left, Expr.text_unplaced right]
  | .assign _ _ value => by
      rw [Expr.unplaced, Expr.text, Expr.text, Expr.text_unplaced value, Identifier.unplaced]
  | .index _ collection index => by
      rw [Expr.unplaced, Expr.text, Expr.text, Expr.text_unplaced collection,
        Expr.text_unplaced index]
  | .call _ callee arguments => by
      rw [Expr.unplaced, Expr.text, Expr.text, Expr.text_unplaced callee,
        Expr.texts_unplaced arguments]
  | .conditional _ condition consequence alternative => by
      rw [Expr.unplaced, Expr.text, Expr.text, Expr.text_unplaced condition,
        Block.text_unplaced consequence, Block.optionText_unplaced _ alternative]
termination_by structural expr => expr

/-- The texts of several expressions depend on no place. -/
theorem Expr.texts_unplaced : (exprs : List Expr) →
    Expr.texts (Expr.unplacedAll exprs) = Expr.texts exprs
  | [] => rfl
  | expr :: rest => by
      rw [Expr.unplacedAll, Expr.texts, Expr.texts, Expr.text_unplaced expr,
        Expr.texts_unplaced rest]
termination_by structural exprs => exprs

/-- The text of a key and its value depends on no place. -/
theorem Pair.text_unplaced : (pair : Pair) → pair.unplaced.text = pair.text
  | ⟨key, value⟩ => by
      rw [Pair.unplaced, Pair.text, Pair.text, Expr.text_unplaced key, Expr.text_unplaced value]
termination_by structural pair => pair

/-- The texts of the pairs of a hash literal depend on no place. -/
theorem Pair.texts_unplaced : (pairs : List Pair) →
    Pair.texts (Pair.unplacedAll pairs) = Pair.texts pairs
  | [] => rfl
  | pair :: rest => by
      rw [Pair.unplacedAll, Pair.texts, Pair.texts, Pair.text_unplaced pair,
        Pair.texts_unplaced rest]
termination_by structural pairs => pairs

/-- The text of a function depends on no place. -/
theorem FunctionLiteral.text_unplaced : (literal : FunctionLiteral) →
    literal.unplaced.text = literal.text
  | ⟨_, _, parameters, body⟩ => by
      rw [FunctionLiteral.unplaced, FunctionLiteral.text, FunctionLiteral.text, List.map_map,
        Block.text_unplaced body]
      rfl
termination_by structural literal => literal

/-- The text of a block depends on no place. -/
theorem Block.text_unplaced : (block : Block) → block.unplaced.text = block.text
  | ⟨_, statements⟩ => by
      rw [Block.unplaced, Block.text, Block.text, Statement.spacedText_unplaced statements]
termination_by structural block => block

/-- The text of a block that may be absent depends on no place. -/
theorem Block.optionText_unplaced (introduction : String) : (block : Option Block) →
    Block.optionText introduction (Block.unplacedOption block) =
      Block.optionText introduction block
  | none => rfl
  | some block => by
      rw [Block.unplacedOption, Block.optionText, Block.optionText, Block.text_unplaced block]
termination_by structural block => block

/-- The text of a statement depends on no place. -/
theorem Statement.text_unplaced : (statement : Statement) →
    statement.unplaced.text = statement.text
  | .letBinding _ _ value => by
      rw [Statement.unplaced, Statement.text, Statement.text, Expr.text_unplaced value,
        Identifier.unplaced]
  | .returnValue _ value => by
      rw [Statement.unplaced, Statement.text, Statement.text, Expr.text_unplaced value]
  | .expression _ value => by
      rw [Statement.unplaced, Statement.text, Statement.text, Expr.text_unplaced value]
  | .forLoop _ _ iterable body => by
      rw [Statement.unplaced, Statement.text, Statement.text, Expr.text_unplaced iterable,
        Block.text_unplaced body, Identifier.unplaced]
  | .whileLoop _ condition body => by
      rw [Statement.unplaced, Statement.text, Statement.text, Expr.text_unplaced condition,
        Block.text_unplaced body]
  | .breakLoop _ | .continueLoop _ => rfl
  | .tryCatch _ body _ handler finalizer => by
      rw [Statement.unplaced, Statement.text, Statement.text, Block.text_unplaced body,
        Block.text_unplaced handler, Block.optionText_unplaced _ finalizer, Identifier.unplaced]
termination_by structural statement => statement

/-- The text of the statements of a block depends on no place. -/
theorem Statement.spacedText_unplaced : (statements : List Statement) →
    Statement.spacedText (Statement.unplacedAll statements) = Statement.spacedText statements
  | [] => rfl
  | statement :: rest => by
      rw [Statement.unplacedAll, Statement.spacedText, Statement.spacedText,
        Statement.text_unplaced statement, Statement.spacedText_unplaced rest]
termination_by structural statements => statements

end

/-- The text of a program depends on no place. -/
theorem Program.text_unplaced (program : Program) : program.unplaced.text = program.text := by
  rw [Program.unplaced, Program.text, Program.text, Statement.unplacedAll_eq, List.map_map]
  have htexts : Statement.text ∘ Statement.unplaced = Statement.text :=
    funext Statement.text_unplaced
  rw [htexts]

end Script
