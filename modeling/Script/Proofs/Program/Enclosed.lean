import Script.Program

/-!
# Jumps in loops

`Program.enclosed` says that every `break` and every `continue` of a program stands in the body of
a loop, within the same function body or outside of all functions. The header of a loop does not
stand in its body.
-/

namespace Script

mutual

/-- Whether all jumps in an expression stand in loops, if `inLoop` says so of its place. -/
def Expr.enclosed : (inLoop : Bool) → Expr → Bool
  | _, .identifier _ | _, .integer _ _ _ | _, .float _ _ _ | _, .boolean _ _ | _, .string _ _ => true
  | inLoop, .array _ elements => Expr.enclosedAll inLoop elements
  | inLoop, .hash _ pairs => Pair.enclosedAll inLoop pairs
  | _, .function literal => literal.enclosed
  | inLoop, .unary _ _ operand => operand.enclosed inLoop
  | inLoop, .binary _ left _ right => left.enclosed inLoop && right.enclosed inLoop
  | inLoop, .assign _ _ value => value.enclosed inLoop
  | inLoop, .index _ collection index => collection.enclosed inLoop && index.enclosed inLoop
  | inLoop, .call _ callee arguments => callee.enclosed inLoop && Expr.enclosedAll inLoop arguments
  | inLoop, .conditional _ condition consequence alternative =>
    condition.enclosed inLoop && consequence.enclosed inLoop &&
      Block.enclosedOption inLoop alternative
termination_by structural _ expr => expr

/-- Whether all jumps in several expressions stand in loops. -/
def Expr.enclosedAll : (inLoop : Bool) → List Expr → Bool
  | _, [] => true
  | inLoop, expr :: rest => expr.enclosed inLoop && Expr.enclosedAll inLoop rest
termination_by structural _ exprs => exprs

/-- Whether all jumps in a key and its value stand in loops. -/
def Pair.enclosed : (inLoop : Bool) → Pair → Bool
  | inLoop, ⟨key, value⟩ => key.enclosed inLoop && value.enclosed inLoop
termination_by structural _ pair => pair

/-- Whether all jumps in the pairs of a hash literal stand in loops. -/
def Pair.enclosedAll : (inLoop : Bool) → List Pair → Bool
  | _, [] => true
  | inLoop, pair :: rest => pair.enclosed inLoop && Pair.enclosedAll inLoop rest
termination_by structural _ pairs => pairs

/-- Whether all jumps in the body of a function stand in loops of this body. -/
def FunctionLiteral.enclosed : FunctionLiteral → Bool
  | ⟨_, _, _, body⟩ => body.enclosed false
termination_by structural literal => literal

/-- Whether all jumps in a block stand in loops. -/
def Block.enclosed : (inLoop : Bool) → Block → Bool
  | inLoop, ⟨_, statements⟩ => Statement.enclosedAll inLoop statements
termination_by structural _ block => block

/-- Whether all jumps in a block that may be absent stand in loops. -/
def Block.enclosedOption : (inLoop : Bool) → Option Block → Bool
  | _, none => true
  | inLoop, some block => block.enclosed inLoop
termination_by structural _ choice => choice

/-- Whether all jumps in a statement stand in loops. -/
def Statement.enclosed : (inLoop : Bool) → Statement → Bool
  | inLoop, .letBinding _ _ value | inLoop, .returnValue _ value | inLoop, .expression _ value =>
    value.enclosed inLoop
  | inLoop, .forLoop _ _ iterable body => iterable.enclosed inLoop && body.enclosed true
  | inLoop, .whileLoop _ condition body => condition.enclosed inLoop && body.enclosed true
  | inLoop, .breakLoop _ | inLoop, .continueLoop _ => inLoop
  | inLoop, .tryCatch _ body _ handler finalizer =>
    body.enclosed inLoop && handler.enclosed inLoop && Block.enclosedOption inLoop finalizer
termination_by structural _ statement => statement

/-- Whether all jumps in several statements stand in loops. -/
def Statement.enclosedAll : (inLoop : Bool) → List Statement → Bool
  | _, [] => true
  | inLoop, statement :: rest => statement.enclosed inLoop && Statement.enclosedAll inLoop rest
termination_by structural _ statements => statements

end

/-- Whether all jumps in a program stand in loops. -/
def Program.enclosed (program : Program) : Bool :=
  Statement.enclosedAll false program.statements

/-! ## Parts -/

variable {inLoop : Bool}

theorem Expr.enclosed_of_mem {exprs : List Expr} (h : Expr.enclosedAll inLoop exprs = true) :
    ∀ expr ∈ exprs, expr.enclosed inLoop = true := by
  induction exprs with
  | nil => exact List.forall_mem_nil _
  | cons expr rest ih =>
      rw [Expr.enclosedAll, Bool.and_eq_true] at h
      exact List.forall_mem_cons.2 ⟨h.1, ih h.2⟩

theorem Pair.enclosed_of_mem {pairs : List Pair} (h : Pair.enclosedAll inLoop pairs = true) :
    ∀ pair ∈ pairs, pair.key.enclosed inLoop = true ∧ pair.value.enclosed inLoop = true := by
  induction pairs with
  | nil => exact List.forall_mem_nil _
  | cons pair rest ih =>
      obtain ⟨key, value⟩ := pair
      rw [Pair.enclosedAll, Pair.enclosed, Bool.and_eq_true, Bool.and_eq_true] at h
      exact List.forall_mem_cons.2 ⟨h.1, ih h.2⟩

theorem Statement.enclosed_of_mem {statements : List Statement}
    (h : Statement.enclosedAll inLoop statements = true) :
    ∀ statement ∈ statements, statement.enclosed inLoop = true := by
  induction statements with
  | nil => exact List.forall_mem_nil _
  | cons statement rest ih =>
      rw [Statement.enclosedAll, Bool.and_eq_true] at h
      exact List.forall_mem_cons.2 ⟨h.1, ih h.2⟩

theorem Block.enclosed_statements {block : Block} (h : block.enclosed inLoop = true) :
    ∀ statement ∈ block.statements, statement.enclosed inLoop = true := by
  cases block
  exact Statement.enclosed_of_mem h

theorem Block.enclosed_of_option {choice : Option Block}
    (h : Block.enclosedOption inLoop choice = true) :
    ∀ block ∈ choice, ∀ statement ∈ block.statements, statement.enclosed inLoop = true := by
  intro block hblock
  cases choice with
  | none => cases hblock
  | some block =>
      cases hblock
      exact Block.enclosed_statements h

end Script
