import Script.Proofs.Grammar.Phrase
import Script.Proofs.Token.Joining

/-!
# Programs at other places

`Statement.relocated` changes the places of all nodes, and of the tokens that open blocks and
statements. A program is read from relocated tokens as from the tokens themselves, at the changed
places: `Reads.relocated`.
-/

namespace Script

/-- A name at another place. -/
def Identifier.relocated (change : Location → Location) (identifier : Identifier) : Identifier :=
  ⟨identifier.name, change identifier.location⟩

mutual

/-- An expression at other places. -/
def Expr.relocated (change : Location → Location) : Expr → Expr
  | .identifier name => .identifier (name.relocated change)
  | .integer location digits value => .integer (change location) digits value
  | .float location digits value => .float (change location) digits value
  | .boolean location value => .boolean (change location) value
  | .string location value => .string (change location) value
  | .array location elements => .array (change location) (Expr.relocatedAll change elements)
  | .hash location pairs => .hash (change location) (Pair.relocatedAll change pairs)
  | .function literal => .function (literal.relocated change)
  | .unary location operator operand =>
    .unary (change location) operator (operand.relocated change)
  | .binary location left operator right =>
    .binary (change location) (left.relocated change) operator (right.relocated change)
  | .assign location target value =>
    .assign (change location) (target.relocated change) (value.relocated change)
  | .index location collection index =>
    .index (change location) (collection.relocated change) (index.relocated change)
  | .call location callee arguments =>
    .call (change location) (callee.relocated change) (Expr.relocatedAll change arguments)
  | .conditional location condition consequence alternative =>
    .conditional (change location) (condition.relocated change) (consequence.relocated change)
      (Block.relocatedOption change alternative)
termination_by structural expr => expr

/-- Several expressions at other places. -/
def Expr.relocatedAll (change : Location → Location) : List Expr → List Expr
  | [] => []
  | expr :: rest => expr.relocated change :: Expr.relocatedAll change rest
termination_by structural exprs => exprs

/-- A key and its value at other places. -/
def Pair.relocated (change : Location → Location) : Pair → Pair
  | ⟨key, value⟩ => ⟨key.relocated change, value.relocated change⟩
termination_by structural pair => pair

/-- The pairs of a hash literal at other places. -/
def Pair.relocatedAll (change : Location → Location) : List Pair → List Pair
  | [] => []
  | pair :: rest => pair.relocated change :: Pair.relocatedAll change rest
termination_by structural pairs => pairs

/-- A function at other places. -/
def FunctionLiteral.relocated (change : Location → Location) : FunctionLiteral → FunctionLiteral
  | ⟨location, name, parameters, body⟩ =>
    ⟨change location, name, parameters.map (Identifier.relocated change), body.relocated change⟩
termination_by structural literal => literal

/-- A block at other places, with the token that opens it. -/
def Block.relocated (change : Location → Location) : Block → Block
  | ⟨first, statements⟩ => ⟨first.relocated change, Statement.relocatedAll change statements⟩
termination_by structural block => block

/-- A block that may be absent, at other places. -/
def Block.relocatedOption (change : Location → Location) : Option Block → Option Block
  | none => none
  | some block => some (block.relocated change)
termination_by structural block => block

/-- A statement at other places, with the token that opens it. -/
def Statement.relocated (change : Location → Location) : Statement → Statement
  | .letBinding location target value =>
    .letBinding (change location) (target.relocated change) (value.relocated change)
  | .returnValue location value => .returnValue (change location) (value.relocated change)
  | .expression first value => .expression (first.relocated change) (value.relocated change)
  | .forLoop location element iterable body =>
    .forLoop (change location) (element.relocated change) (iterable.relocated change)
      (body.relocated change)
  | .whileLoop location condition body =>
    .whileLoop (change location) (condition.relocated change) (body.relocated change)
  | .breakLoop location => .breakLoop (change location)
  | .continueLoop location => .continueLoop (change location)
  | .tryCatch location body error handler finalizer =>
    .tryCatch (change location) (body.relocated change) (error.relocated change)
      (handler.relocated change) (Block.relocatedOption change finalizer)
termination_by structural statement => statement

/-- Several statements at other places. -/
def Statement.relocatedAll (change : Location → Location) : List Statement → List Statement
  | [] => []
  | statement :: rest => statement.relocated change :: Statement.relocatedAll change rest
termination_by structural statements => statements

end

section

variable (change : Location → Location)

/-! ## Lists, options and names of functions -/

@[simp] theorem Expr.relocatedAll_eq (exprs : List Expr) :
    Expr.relocatedAll change exprs = exprs.map (Expr.relocated change) := by
  induction exprs with
  | nil => rfl
  | cons expr rest ih => rw [Expr.relocatedAll, ih, List.map_cons]

@[simp] theorem Pair.relocatedAll_eq (pairs : List Pair) :
    Pair.relocatedAll change pairs = pairs.map (Pair.relocated change) := by
  induction pairs with
  | nil => rfl
  | cons pair rest ih => rw [Pair.relocatedAll, ih, List.map_cons]

@[simp] theorem Statement.relocatedAll_eq (statements : List Statement) :
    Statement.relocatedAll change statements = statements.map (Statement.relocated change) := by
  induction statements with
  | nil => rfl
  | cons statement rest ih => rw [Statement.relocatedAll, ih, List.map_cons]

@[simp] theorem Block.relocatedOption_eq (block : Option Block) :
    Block.relocatedOption change block = block.map (Block.relocated change) := by
  cases block <;> rfl

/-- A function literal is named by what it is, wherever it stands. -/
theorem Expr.relocated_named (name : String) (expr : Expr) :
    (expr.named name).relocated change = (expr.relocated change).named name := by
  cases expr with
  | function literal => cases literal; rfl
  | _ => rfl

/-! ## Readings -/

@[simp] theorem firstLexeme_relocated (tokens : List Token) :
    firstLexeme (tokens.map (Token.relocated change)) = firstLexeme tokens := by
  cases tokens <;> rfl

/-- A phrase that goes on after an operand, with the operand at other places. -/
def Phrase.relocated : {α : Type} → Phrase α → Phrase α
  | _, .extension precedence left => .extension precedence (left.relocated change)
  | _, .continuation left => .continuation (left.relocated change)
  | _, phrase => phrase

theorem Phrase.IsItem.relocated {α : Type} {item : Phrase α} (h : item.IsItem) :
    item.relocated change = item := by
  cases h <;> rfl

/-- What a phrase means, at other places. -/
def Phrase.relocate : {α : Type} → Phrase α → α → α
  | _, .expression _ | _, .operand | _, .extension _ _ | _, .continuation _ | _, .conditional =>
    Expr.relocated change
  | _, .list _ item | _, .listTail _ item => List.map item.relocate
  | _, .parameter | _, .errorName => Identifier.relocated change
  | _, .pairs => List.map (Pair.relocated change)
  | _, .alternative | _, .finalizer => Option.map (Block.relocated change)
  | _, .block => Block.relocated change
  | _, .statements _ => List.map (Statement.relocated change)
  | _, .form => Statement.relocated change
  | _, .statement => Option.map (Statement.relocated change)

variable {lenient : Prop} {α : Type} {phrase : Phrase α} {before after : List Token} {result : α}

/-- From tokens at other places the same is read, at these places. -/
theorem Reads.relocated (h : Reads lenient phrase before result after) :
    Reads lenient (phrase.relocated change) (before.map (Token.relocated change))
      (phrase.relocate change result) (after.map (Token.relocated change)) := by
  induction h with
  | identifier => exact .identifier
  | integer h => exact .integer h
  | float h => exact .float h
  | string => exact .string
  | trueLiteral => exact .trueLiteral
  | falseLiteral => exact .falseLiteral
  | listEmpty hclosing => exact .listEmpty hclosing
  | tailEmpty hclosing => exact .tailEmpty hclosing
  | parameter => exact .parameter
  | pairsEmpty => exact .pairsEmpty
  | breakLoop => exact .breakLoop
  | continueLoop => exact .continueLoop
  | bareName => exact .bareName
  | parenName => exact .parenName
  | empty => exact .empty
  | expression _ _ ih ih' => exact .expression ih ih'
  | unary _ ih => exact .unary ih
  | group _ ih => exact .group ih
  | choice _ ih => exact .choice ih
  | index _ ih => exact .index ih
  | assign _ ih => exact .assign ih
  | binary _ ih => exact .binary ih
  | function _ _ ih ih' => exact .function ih ih'
  | tailCons hitem _ _ ih ih' =>
      rw [hitem.relocated] at ih
      exact .tailCons hitem ih ih'
  | pairsCons _ _ _ ih ih' ih'' => exact .pairsCons ih ih' ih''
  | alternative _ ih => exact .alternative ih
  | elseIf _ ih => exact .elseIf ih
  | returnValue _ ih => exact .returnValue ih
  | bareLoop _ _ ih ih' => exact .bareLoop ih ih'
  | parenLoop _ _ ih ih' => exact .parenLoop ih ih'
  | whileLoop _ _ ih ih' => exact .whileLoop ih ih'
  | finalizer _ ih => exact .finalizer ih
  | expressionForm _ ih => exact .expressionForm ih
  | terminated _ ih => exact .terminated ih
  -- what is looked at beyond a phrase is the lexeme of a token
  | complete h => exact .complete (by rwa [firstLexeme_relocated])
  | extended hbinds _ _ ih ih' => exact .extended (by rwa [firstLexeme_relocated]) ih ih'
  | listCons hitem hne _ _ ih ih' =>
      rw [hitem.relocated] at ih
      exact .listCons hitem (by rwa [firstLexeme_relocated]) ih ih'
  | pairsLast _ _ hbrace _ ih ih' ih'' =>
      exact .pairsLast ih ih' (by rwa [firstLexeme_relocated]) ih''
  | noAlternative h => exact .noAlternative (by rwa [firstLexeme_relocated])
  | noFinalizer h => exact .noFinalizer (by rwa [firstLexeme_relocated])
  | statementsEnd h => exact .statementsEnd (by rwa [firstLexeme_relocated])
  | unterminated _ hne ih => exact .unterminated ih (by rwa [firstLexeme_relocated])
  | @statementsMore _ _ statement _ rest _ hstops _ _ ih ih' =>
      have hsplit : (statement.toList ++ rest).map (Statement.relocated change) =
          (statement.map (Statement.relocated change)).toList ++
            rest.map (Statement.relocated change) := by
        cases statement <;> rfl
      show Reads lenient _ _ ((statement.toList ++ rest).map _) _
      rw [hsplit]
      exact .statementsMore (by rwa [firstLexeme_relocated]) ih ih'
  -- the lists and options in the results are relocated by functions of their own
  | array _ ih =>
      simp only [Phrase.relocate, Expr.relocated, Expr.relocatedAll_eq]
      exact .array ih
  | hash _ ih =>
      simp only [Phrase.relocate, Expr.relocated, Pair.relocatedAll_eq]
      exact .hash ih
  | call _ ih =>
      simp only [Phrase.relocate, Expr.relocated, Expr.relocatedAll_eq]
      exact .call ih
  | conditional _ _ _ ih ih' ih'' =>
      simp only [Phrase.relocate, Expr.relocated, Block.relocatedOption_eq]
      exact .conditional ih ih' ih''
  | block _ ih =>
      simp only [Phrase.relocate, Block.relocated, Statement.relocatedAll_eq]
      exact .block ih
  | tryCatch _ _ _ _ ih ihNamed ihHandler ihLast =>
      simp only [Phrase.relocate, Statement.relocated, Block.relocatedOption_eq]
      exact .tryCatch ih ihNamed ihHandler ihLast
  | letBinding _ ih =>
      simp only [Phrase.relocate, Statement.relocated, Expr.relocated_named]
      exact .letBinding ih
  | @comment first last skipped after hskipped =>
      rw [List.map_cons, List.map_append, List.map_cons]
      exact .comment (List.forall_mem_map.2 hskipped)
  | openComment hskipped => exact .openComment (List.forall_mem_map.2 hskipped)
  | skipped hlenient hsuffix hshorter =>
      exact .skipped hlenient (hsuffix.map _) (by simpa using hshorter)

end

end Script
