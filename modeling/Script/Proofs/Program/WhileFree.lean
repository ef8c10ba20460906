import Script.Proofs.Value.Likeness

/-!
# Programs without `while`

`Program.whileFree` says that a program contains no `while` statement anywhere, bodies of functions
included. Parts of such programs contain none either: `Likeness.whileFree_lawful`.
-/

namespace Script

mutual

/-- Whether an expression contains no `while` statement. -/
def Expr.whileFree : Expr → Bool
  | .identifier _ | .integer _ _ _ | .float _ _ _ | .boolean _ _ | .string _ _ => true
  | .array _ elements => Expr.whileFreeAll elements
  | .hash _ pairs => Pair.whileFreeAll pairs
  | .function literal => literal.whileFree
  | .unary _ _ operand => operand.whileFree
  | .binary _ left _ right => left.whileFree && right.whileFree
  | .assign _ _ value => value.whileFree
  | .index _ collection index => collection.whileFree && index.whileFree
  | .call _ callee arguments => callee.whileFree && Expr.whileFreeAll arguments
  | .conditional _ condition consequence alternative =>
    condition.whileFree && consequence.whileFree && Block.whileFreeOption alternative
termination_by structural expr => expr

/-- Whether several expressions contain no `while` statement. -/
def Expr.whileFreeAll : List Expr → Bool
  | [] => true
  | expr :: rest => expr.whileFree && Expr.whileFreeAll rest
termination_by structural exprs => exprs

/-- Whether a key and its value contain no `while` statement. -/
def Pair.whileFree : Pair → Bool
  | ⟨key, value⟩ => key.whileFree && value.whileFree
termination_by structural pair => pair

/-- Whether the pairs of a hash literal contain no `while` statement. -/
def Pair.whileFreeAll : List Pair → Bool
  | [] => true
  | pair :: rest => pair.whileFree && Pair.whileFreeAll rest
termination_by structural pairs => pairs

/-- Whether the body of a function contains no `while` statement. -/
def FunctionLiteral.whileFree : FunctionLiteral → Bool
  | ⟨_, _, _, body⟩ => body.whileFree
termination_by structural literal => literal

/-- Whether a block contains no `while` statement. -/
def Block.whileFree : Block → Bool
  | ⟨_, statements⟩ => Statement.whileFreeAll statements
termination_by structural block => block

/-- Whether a block that may be absent contains no `while` statement. -/
def Block.whileFreeOption : Option Block → Bool
  | none => true
  | some block => block.whileFree
termination_by structural block => block

/-- Whether a statement is no `while` statement and contains none. -/
def Statement.whileFree : Statement → Bool
  | .letBinding _ _ value | .returnValue _ value | .expression _ value => value.whileFree
  | .forLoop _ _ iterable body => iterable.whileFree && body.whileFree
  | .whileLoop _ _ _ => false
  | .breakLoop _ | .continueLoop _ => true
  | .tryCatch _ body _ handler finalizer =>
    body.whileFree && handler.whileFree && Block.whileFreeOption finalizer
termination_by structural statement => statement

/-- Whether several statements are no `while` statements and contain none. -/
def Statement.whileFreeAll : List Statement → Bool
  | [] => true
  | statement :: rest => statement.whileFree && Statement.whileFreeAll rest
termination_by structural statements => statements

end

/-- Whether a program contains no `while` statement. -/
def Program.whileFree (program : Program) : Bool :=
  Statement.whileFreeAll program.statements

/-- Code that contains no `while` statement, and stands for itself. -/
def Likeness.whileFree : Likeness where
  place := Eq
  expr first second := first = second ∧ first.whileFree = true
  statement first second := first = second ∧ first.whileFree = true
  literal first second := first = second ∧ first.whileFree = true

namespace Likeness

theorem whileFree_exprs {exprs : List Expr} (h : Expr.whileFreeAll exprs = true) :
    List.Forall₂ whileFree.expr exprs exprs := by
  induction exprs with
  | nil => exact .nil
  | cons expr rest ih =>
      rw [Expr.whileFreeAll, Bool.and_eq_true] at h
      exact .cons ⟨rfl, h.1⟩ (ih h.2)

theorem whileFree_pairs {pairs : List Pair} (h : Pair.whileFreeAll pairs = true) :
    List.Forall₂ whileFree.pair pairs pairs := by
  induction pairs with
  | nil => exact .nil
  | cons pair rest ih =>
      obtain ⟨key, value⟩ := pair
      rw [Pair.whileFreeAll, Pair.whileFree, Bool.and_eq_true, Bool.and_eq_true] at h
      exact .cons ⟨⟨rfl, h.1.1⟩, ⟨rfl, h.1.2⟩⟩ (ih h.2)

theorem whileFree_statements {statements : List Statement}
    (h : Statement.whileFreeAll statements = true) :
    List.Forall₂ whileFree.statement statements statements := by
  induction statements with
  | nil => exact .nil
  | cons statement rest ih =>
      rw [Statement.whileFreeAll, Bool.and_eq_true] at h
      exact .cons ⟨rfl, h.1⟩ (ih h.2)

theorem whileFree_block {block : Block} (h : block.whileFree = true) :
    whileFree.block block block := by
  cases block
  exact whileFree_statements h

theorem whileFree_choice {choice : Option Block} (h : Block.whileFreeOption choice = true) :
    Option.Rel whileFree.block choice choice := by
  cases choice with
  | none => exact .none
  | some block => exact .some (whileFree_block h)

/-- Parts of code without `while` contain no `while` statement. -/
theorem whileFree_lawful : whileFree.Lawful where
  expr {expr _} h := by
    obtain ⟨rfl, h⟩ := h
    cases expr with
    | identifier => exact .identifier ⟨rfl, rfl⟩
    | integer => exact .integer
    | float => exact .float
    | boolean => exact .boolean
    | string => exact .string
    | array => exact .array (whileFree_exprs h)
    | hash => exact .hash (whileFree_pairs h)
    | function => exact .function ⟨rfl, h⟩
    | unary => exact .unary ⟨rfl, h⟩
    | binary =>
        simp only [Expr.whileFree, Bool.and_eq_true] at h
        exact .binary ⟨rfl, h.1⟩ ⟨rfl, h.2⟩
    | assign => exact .assign ⟨rfl, rfl⟩ ⟨rfl, h⟩
    | index =>
        simp only [Expr.whileFree, Bool.and_eq_true] at h
        exact .index ⟨rfl, h.1⟩ ⟨rfl, h.2⟩
    | call =>
        simp only [Expr.whileFree, Bool.and_eq_true] at h
        exact .call rfl ⟨rfl, h.1⟩ (whileFree_exprs h.2)
    | conditional =>
        simp only [Expr.whileFree, Bool.and_eq_true] at h
        exact .conditional ⟨rfl, h.1.1⟩ (whileFree_block h.1.2) (whileFree_choice h.2)
  statement {statement _} h := by
    obtain ⟨rfl, h⟩ := h
    cases statement with
    | letBinding => exact .letBinding rfl ⟨rfl, h⟩
    | returnValue => exact .returnValue ⟨rfl, h⟩
    | expression => exact .expression ⟨rfl, h⟩
    | forLoop =>
        simp only [Statement.whileFree, Bool.and_eq_true] at h
        exact .forLoop rfl ⟨rfl, h.1⟩ (whileFree_block h.2)
    | whileLoop => cases h
    | breakLoop => exact .breakLoop rfl
    | continueLoop => exact .continueLoop rfl
    | tryCatch =>
        simp only [Statement.whileFree, Bool.and_eq_true] at h
        exact .tryCatch (whileFree_block h.1.1) rfl (whileFree_block h.1.2) (whileFree_choice h.2)
  literal {literal _} h := by
    obtain ⟨rfl, h⟩ := h
    cases literal
    exact ⟨rfl, rfl, whileFree_block h⟩

end Likeness

end Script
