import Script.Evaluation.Basic
import Script.Text.Case
import Script.Value.Sequence

/-!
# What builtin functions do

A builtin function checks the number of its arguments first, then their kinds, then their
values. Arrays and hashes are never changed: the result is a new one.
-/

namespace Script

namespace Builtin

/-- The number of arguments that a function takes. -/
def arity : Builtin → Arity
  | print => .atLeast 0
  | type | str | len | reversed | lower | upper | split | pop | shift | keys | values =>
    .exactly 1
  | range | delete => .exactly 2
  | slice => .exactly 3
  | join => .between 1 2
  | push | unshift => .atLeast 2

/-- The length of a string in characters, of an array or of a hash. -/
def length : Value → Evaluation Value
  | .string text => pure (.integer (.ofNat text.length))
  | .array _ elements => pure (.integer (.ofNat elements.length))
  | .hash _ entries => pure (.integer (.ofNat entries.length))
  | other => Evaluation.raise (.noLength other.kind)

/-- The same sequence from its end to its start. -/
def reverse : Value → Evaluation Value
  | .string text => pure (.string (String.ofList text.toList.reverse))
  | .array _ elements => Evaluation.newArray elements.reverse
  | other => Evaluation.raise (.notReversible other.kind)

/-- The ends of a slice of a sequence of the given length. An end past the sequence means the end
of the sequence; a start past it is a fault. -/
def sliceEnds (length : Nat) (start stop : Value) : Except Fault (Nat × Nat) :=
  match start, stop with
  | .integer start, .integer stop =>
    let stop := min stop.toInt length
    if start.toInt < 0 ∨ start.toInt > length ∨ start.toInt > stop then
      .error (.sliceEnds start.toInt stop)
    else
      .ok (start.toInt.toNat, stop.toNat)
  | start, stop => .error (.sliceKinds start.kind stop.kind)

/-- The elements from `start` up to `stop`, without that at `stop`. -/
def between {α : Type} (start stop : Nat) (elements : List α) : List α :=
  (elements.drop start).take (stop - start)

/-- A part of a sequence. -/
def sliceOf (sequence start stop : Value) : Evaluation Value :=
  match sequence with
  | .string text => do
    let (start, stop) ← Evaluation.ofExcept (sliceEnds text.length start stop)
    pure (.string (String.ofList (between start stop text.toList)))
  | .array _ elements => do
    let (start, stop) ← Evaluation.ofExcept (sliceEnds elements.length start stop)
    Evaluation.newArray (between start stop elements)
  | other => Evaluation.raise (.notSliceable other.kind)

/-- The most elements that an array can be made for: each of them takes 16 bytes, and all of them
together less than `2 ^ 63`. -/
def capacity : Nat := 0x7fffffffffffffff / 16

/-- The integers from `start` up to `stop`, without `stop`. The array is made in one piece, and
asking for one beyond the capacity is no fault that a program could catch. -/
def rangeOf (start stop : Value) : Evaluation Value :=
  match start, stop with
  | .integer start, .integer stop =>
    if stop.toInt < start.toInt then
      Evaluation.raise (.rangeEnds start.toInt stop.toInt)
    else
      let count := (stop.toInt - start.toInt).toNat
      if capacity < count then
        Evaluation.interrupt .crashed
      else
        Evaluation.newArray ((List.range count).map fun (place : Nat) =>
          .integer (.ofInt (start.toInt + place)))
  | .integer _, other => Evaluation.raise (.argument .only .range .integer other.kind)
  | other, _ => Evaluation.raise (.argument .only .range .integer other.kind)

/-- The contents of an argument that has to be a string. -/
def stringArgument (callee : Builtin) : Value → Evaluation String
  | .string text => pure text
  | other => Evaluation.raise (.argument .only callee .string other.kind)

/-- The elements of an argument that has to be an array. -/
def arrayArgument (role : ArgumentRole) (callee : Builtin) : Value → Evaluation (List Value)
  | .array _ elements => pure elements
  | other => Evaluation.raise (.argument role callee .array other.kind)

/-- The entries of an argument that has to be a hash. -/
def hashArgument (role : ArgumentRole) (callee : Builtin) : Value → Evaluation (List Entry)
  | .hash _ entries => pure entries
  | other => Evaluation.raise (.argument role callee .hash other.kind)

/-- The texts of the elements with a separator between them. -/
def joinWith (array : Value) (separator : Option Value) : Evaluation Value := do
  let elements ← arrayArgument .first join array
  let separator ← match separator with
    | none => pure ", "
    | some (.string separator) => pure separator
    | some other => Evaluation.raise (.argument .separator join .string other.kind)
  pure (.string (separator.intercalate (elements.map Value.text)))

/-- All elements but one at an end, which `rest` takes off. -/
def without (callee : Builtin) (rest : List Value → List Value) (array : Value) :
    Evaluation Value := do
  let elements ← arrayArgument .only callee array
  if elements.isEmpty then
    Evaluation.raise (.emptyArray callee)
  else
    Evaluation.newArray (rest elements)

/-- The hash without the entry of a key. -/
def deleteFrom [Host] (hash key : Value) : Evaluation Value := do
  let entries ← hashArgument .first delete hash
  match key.hashKey? with
  | some hashKey => Evaluation.newHash (Entry.erase hashKey entries)
  | none => Evaluation.raise (.undeletable key.kind)

/-- Calls a builtin function. -/
def call [Host] (sink : Sink) : Builtin → (arguments : List Value) → Evaluation Value
  | print, arguments => do
    Evaluation.printLine sink (" ".intercalate (arguments.map Value.text))
    pure .null
  | type, [value] => pure (.string value.kind.display)
  | str, [value] => pure (.string value.text)
  | len, [value] => length value
  | reversed, [value] => reverse value
  | slice, [sequence, start, stop] => sliceOf sequence start stop
  | range, [start, stop] => rangeOf start stop
  | lower, [value] => do
    let text ← stringArgument lower value
    pure (.string (Text.lower text))
  | upper, [value] => do
    let text ← stringArgument upper value
    pure (.string (Text.upper text))
  | split, [value] => do
    let text ← stringArgument split value
    Evaluation.newArray (text.toList.map Value.character)
  | join, [array] => joinWith array none
  | join, [array, separator] => joinWith array (some separator)
  | push, array :: first :: rest => do
    let elements ← arrayArgument .first push array
    Evaluation.newArray (elements ++ first :: rest)
  | unshift, array :: first :: rest => do
    let elements ← arrayArgument .first unshift array
    Evaluation.newArray (first :: rest ++ elements)
  | pop, [array] => without pop List.dropLast array
  | shift, [array] => without shift List.tail array
  | keys, [hash] => do
    let entries ← hashArgument .only keys hash
    Evaluation.newArray (entries.map Entry.key)
  | values, [hash] => do
    let entries ← hashArgument .only values hash
    Evaluation.newArray (entries.map Entry.value)
  | delete, [hash, key] => deleteFrom hash key
  | callee, arguments =>
    Evaluation.raise (.builtinArgumentCount arguments.length callee.arity)

end Builtin

end Script
