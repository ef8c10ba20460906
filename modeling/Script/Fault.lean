import Script.Builtin
import Script.Program

/-!
# Faults

What can go wrong while a program is evaluated. A fault is caught by `try`, or becomes the
result of the program. Each cause is a constructor; its wording is `Fault.message`.
-/

namespace Script

/-- The kinds of values. -/
inductive Kind where
  | integer | float | string | boolean | array | hash | null | function | builtin | error
deriving DecidableEq, Repr

/-- How programs and messages name a kind. -/
def Kind.display : Kind → String
  | integer => "INTEGER"
  | float => "FLOAT"
  | string => "STRING"
  | boolean => "BOOLEAN"
  | array => "ARRAY"
  | hash => "HASH"
  | null => "NULL"
  | function => "FUNCTION"
  | builtin => "BUILTIN"
  | error => "ERROR"

/-- How many arguments a builtin function takes. -/
inductive Arity where
  | exactly (count : Nat)
  | atLeast (count : Nat)
  | between (least most : Nat)
deriving DecidableEq, Repr

/-- How messages write an arity. -/
def Arity.text : Arity → String
  | exactly count => toString count
  | atLeast count => "minimum " ++ toString count
  | between least most => "(min:" ++ toString least ++ ", max: " ++ toString most ++ ")"

/-- How messages name an argument of a builtin function. -/
inductive ArgumentRole where
  | only | first | separator
deriving DecidableEq, Repr

/-- The name of a role at the start of a message. -/
def ArgumentRole.display : ArgumentRole → String
  | only => "Argument"
  | first => "First argument"
  | separator => "Separator"

/-- Why an evaluation cannot go on. -/
inductive Fault where
  /-- A name has no binding where it is used. -/
  | notFound (name : Identifier)
  /-- A name has no binding where it is assigned to. -/
  | notDefined (name : Identifier)
  /-- A `break` that no loop surrounds. -/
  | strayBreak (location : Location)
  /-- A `continue` that no loop surrounds. -/
  | strayContinue (location : Location)
  /-- The operator is not defined for operands of these kinds. -/
  | operands (left : Kind) (operator : BinaryOperator) (right : Kind)
  /-- Nothing can be a member of a value of this kind. -/
  | membership (kind : Kind)
  /-- A value of this kind has no negative. -/
  | negation (kind : Kind)
  | overflow (left : Int64) (operator : BinaryOperator) (right : Int64)
  | negationOverflow (operand : Int64)
  | divisionByZero
  /-- A value of this kind is no key of a hash. -/
  | unhashable (kind : Kind)
  /-- A value of the first kind cannot be indexed by one of the second. -/
  | indexing (collection index : Kind)
  | notIterable (kind : Kind)
  | notCallable (kind : Kind)
  /-- A function was called with a wrong number of arguments. -/
  | argumentCount (callee : String) (got want : Nat)
  /-- A builtin function was called with a wrong number of arguments. -/
  | builtinArgumentCount (got : Nat) (want : Arity)
  /-- A builtin function wants an argument of another kind. -/
  | argument (role : ArgumentRole) (callee : Builtin) (want got : Kind)
  | noLength (kind : Kind)
  | notReversible (kind : Kind)
  | notSliceable (kind : Kind)
  /-- The ends of a slice are not both integers. -/
  | sliceKinds (start stop : Kind)
  /-- The ends of a slice do not lie in the sequence. -/
  | sliceEnds (start stop : Int)
  /-- The ends of a range are in the wrong order. -/
  | rangeEnds (start stop : Int)
  /-- An element cannot be taken from an empty array. -/
  | emptyArray (callee : Builtin)
  /-- A value of this kind is no key that could be deleted. -/
  | undeletable (kind : Kind)
  /-- The output refuses what is printed. -/
  | printing (reason : String)

namespace Fault

/-- The wording of a fault. -/
def message : Fault → String
  | notFound name => s!"Identifier: {name.name} not found at {name.location.text}"
  | notDefined name => s!"Identifier: {name.name} is not defined at {name.location.text}"
  | strayBreak location => s!"'break' outside of a loop at {location.text}"
  | strayContinue location => s!"'continue' outside of a loop at {location.text}"
  | operands left operator right =>
    (if left = right then "Unknown operator: " else "Type mismatch: ") ++
      s!"{left.display} {operator.lexeme.literal} {right.display}"
  | membership kind => s!"Invalid operand: in {kind.display}"
  | negation kind => s!"Invalid operand: -{kind.display}"
  | overflow left operator right =>
    s!"Integer overflow: {left.toInt} {operator.lexeme.literal} {right.toInt}"
  | negationOverflow operand => s!"Integer overflow: -({operand.toInt})"
  | divisionByZero => "Division by zero"
  | unhashable kind => s!"Key: {kind.display} cannot be hashed"
  | indexing collection index =>
    s!"Index operation not supported for: {collection.display}[{index.display}]"
  | notIterable kind => s!"{kind.display}: is not iterable"
  | notCallable kind => s!"{kind.display}: not a function"
  | argumentCount callee got want =>
    s!"Wrong number of arguments to {callee}. Got={got} want={want}"
  | builtinArgumentCount got want => s!"Wrong number of arguments. Got={got} want={want.text}"
  | argument role callee want got =>
    s!"{role.display} to {callee.name} must be {want.display}. Got {got.display}"
  | noLength kind => s!"Cannot calculate len for argument of type {kind.display}"
  | notReversible kind => s!"Cannot reverse value for argument of type {kind.display}"
  | notSliceable kind => s!"Cannot perform slice on argument of type {kind.display}"
  | sliceKinds start stop =>
    s!"Start and End values should be INTEGER. Got={start.display}, {stop.display}"
  | sliceEnds start stop =>
    "For slicing, (0 <= start <= length) and (start <= end). " ++
      s!"Got start={start}, end={stop}"
  | rangeEnds start stop => s!"Need (end >= start). Got start={start} end={stop}"
  | emptyArray callee => s!"Cannot {callee.name} from an empty array"
  | undeletable kind => s!"Key of type {kind.display} cannot be hashed"
  | printing reason => s!"Cannot print: {reason}"

end Fault

end Script
