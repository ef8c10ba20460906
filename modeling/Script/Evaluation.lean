import Script.Builtin.Operation
import Script.Value.Operator

/-!
# The evaluation of programs

Every operand of an expression is evaluated, from left to right, before its operator. Branches
of a conditional and the body of a `try` run among the bindings around them; a loop has one
frame for all its iterations, a call and the handler of an error have one each. The rules refer
to the evaluation of smaller parts through `Evaluators`; `Expr.evaluate` and
`Statement.execute` tie them together under a bound on nested evaluations and iterations.
-/

namespace Script

/-- The bindings of parameters to arguments. -/
def FunctionLiteral.bind (literal : FunctionLiteral) (arguments : List Value) : Frame :=
  Frame.ofPairs ((literal.parameters.map Identifier.name).zip arguments)

/-- The evaluation of the parts of a construct. -/
structure Evaluators where
  /-- The value of an expression. -/
  expr : Expr → Evaluation Value
  /-- The value of a statement. -/
  statement : Statement → Evaluation Value

namespace Evaluators

open Evaluation

variable [Host] (parts : Evaluators)

/-- Statements in order. Their value is that of the last one, and `last` if there is none. -/
def statements (last : Value) : List Statement → Evaluation Value
  | [] => pure last
  | statement :: rest => do
    let value ← parts.statement statement
    statements value rest

/-- The statements of a block among the current bindings. -/
def block (block : Block) : Evaluation Value :=
  parts.statements .null block.statements

/-- The values of several expressions, in order. -/
def exprs : List Expr → Evaluation (List Value)
  | [] => pure []
  | expr :: rest => do
    let value ← parts.expr expr
    let values ← exprs rest
    pure (value :: values)

/-- Files the pairs of a hash literal among `entries`, in order. A key is evaluated and checked
before its value. -/
def pairs (entries : List Entry) : List Pair → Evaluation (List Entry)
  | [] => pure entries
  | pair :: rest => do
    let key ← parts.expr pair.key
    match key.hashKey? with
    | none => raise (.unhashable key.kind)
    | some hashKey => do
      let value ← parts.expr pair.value
      pairs (Entry.insert ⟨hashKey, key, value⟩ entries) rest

/-- The body of a loop for each element in turn. -/
def forEach (name : String) (body : Block) : List Value → Evaluation Value
  | [] => pure .null
  | element :: rest => do
    define name element
    if ← settleIteration (parts.block body) then forEach name body rest else pure .null

/-- The body of a loop as long as its condition holds, at most `count` times. -/
def whileTrue (condition : Expr) (body : Block) : (count : Nat) → Evaluation Value
  | 0 => exhausted
  | count + 1 => do
    let value ← parts.expr condition
    if value.truthy then
      if ← settleIteration (parts.block body) then whileTrue condition body count else pure .null
    else
      pure .null

/-- A call of a function of the program. The number of arguments is checked first, then the
number of active calls. -/
def callFunction (settings : Settings) (location : Location) (closure : Environment)
    (literal : FunctionLiteral) (arguments : List Value) : Evaluation Value := do
  let want := literal.parameters.length
  if arguments.length ≠ want then
    raise (.argumentCount literal.displayName arguments.length want)
  else
    let current ← state
    if settings.maxDepth ≤ current.depth then
      interrupt (.overflowed ⟨location, settings.maxDepth⟩)
    else
      settleCall (asCall (withFrame closure (literal.bind arguments) (parts.block literal.body)))

/-- A call of any value. -/
def call (settings : Settings) (location : Location) (callee : Value) (arguments : List Value) :
    Evaluation Value :=
  match callee with
  | .function _ closure literal => parts.callFunction settings location closure literal arguments
  | .builtin function => function.call settings.sink arguments
  | other => raise (.notCallable other.kind)

/-- An expression from the values of its parts. -/
def evaluate (settings : Settings) : Expr → Evaluation Value
  | .identifier name => lookup name
  | .integer _ _ value => pure (.integer value)
  | .float _ _ value => pure (.float value)
  | .boolean _ value => pure (.boolean value)
  | .string _ value => pure (.string value)
  | .array _ elements => do
    let values ← parts.exprs elements
    newArray values
  | .hash _ pairs => do
    let entries ← parts.pairs [] pairs
    newHash entries
  | .function literal => newFunction literal
  | .unary _ operator operand => do
    let value ← parts.expr operand
    ofExcept (operator.apply value)
  | .binary _ left operator right => do
    let left ← parts.expr left
    let right ← parts.expr right
    ofExcept (operator.apply left right)
  | .assign _ target value => do
    let value ← parts.expr value
    assign target value
    pure value
  | .index _ collection index => do
    let collection ← parts.expr collection
    let index ← parts.expr index
    ofExcept (collection.index index)
  | .call location callee arguments => do
    let callee ← parts.expr callee
    let arguments ← parts.exprs arguments
    parts.call settings location callee arguments
  | .conditional _ condition consequence alternative => do
    let value ← parts.expr condition
    if value.truthy then
      parts.block consequence
    else
      match alternative with
      | some alternative => parts.block alternative
      | none => pure .null

/-- The handler of an error, with the name of the error bound to its value. -/
def handle (name : Identifier) (handler : Block) (fault : Fault) : Evaluation Value := do
  let error ← newError fault
  withChildFrame [(name.name, error)] (parts.block handler)

/-- A statement from the values of its parts; `count` bounds the iterations of a loop. -/
def execute (count : Nat) : Statement → Evaluation Value
  | .letBinding _ target value => do
    let value ← parts.expr value
    define target.name value
    pure .null
  | .returnValue _ value => do
    let value ← parts.expr value
    interrupt (.returned value)
  | .expression _ value => parts.expr value
  | .forLoop _ element iterable body => do
    let value ← parts.expr iterable
    match value.elements? with
    | some elements => withChildFrame [] (parts.forEach element.name body elements)
    | none => raise (.notIterable value.kind)
  | .whileLoop _ condition body => withChildFrame [] (parts.whileTrue condition body count)
  | .breakLoop location => interrupt (.broken location)
  | .continueLoop location => interrupt (.continued location)
  | .tryCatch _ body error handler finalizer =>
    let handled := handling (parts.block body) (parts.handle error handler)
    match finalizer with
    | some finalizer => ensuring handled (parts.block finalizer)
    | none => handled

end Evaluators

variable [Host]

mutual

/-- The value of an expression, with at most `count` nested evaluations. -/
def Expr.evaluate (settings : Settings) : (count : Nat) → Expr → Evaluation Value
  | 0, _ => Evaluation.exhausted
  | count + 1, expr =>
    Evaluators.evaluate ⟨Expr.evaluate settings count, Statement.execute settings count⟩
      settings expr

/-- The value of a statement, with at most `count` nested evaluations. -/
def Statement.execute (settings : Settings) : (count : Nat) → Statement → Evaluation Value
  | 0, _ => Evaluation.exhausted
  | count + 1, statement =>
    Evaluators.execute ⟨Expr.evaluate settings count, Statement.execute settings count⟩
      count statement

end

/-- The value of statements in order, with at most `count` nested evaluations. -/
def Statement.executeAll (settings : Settings) (count : Nat) (statements : List Statement) :
    Evaluation Value :=
  Evaluators.statements ⟨Expr.evaluate settings count, Statement.execute settings count⟩ .null
    statements

end Script
