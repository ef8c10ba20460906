import Script.Binary64.Decimal
import Script.Fault

/-!
# Values

Values are never changed. Arrays, hashes, functions and errors carry the identity they were
created with, which is what their equality compares. A function refers to the bindings it was
created under by an environment, a list of places in the store.
-/

namespace Script

/-- Tells apart compound values that were created separately. -/
abbrev Identity := Nat

/-- The place of a group of bindings in the store. -/
abbrev FrameId := Nat

/-- The frames that are visible somewhere, the innermost first. -/
abbrev Environment := List FrameId

/-- What a hash compares keys by. -/
structure HashKey where
  /-- The kind of the key, which is that of an integer for every number that equals one. -/
  kind : Kind
  /-- What the key is compared by within its kind. -/
  hash : UInt64
deriving DecidableEq, Repr

mutual

/-- Values of programs. -/
inductive Value where
  | integer (value : Int64)
  | float (value : Binary64)
  | string (value : String)
  | boolean (value : Bool)
  | array (identity : Identity) (elements : List Value)
  | hash (identity : Identity) (entries : List Entry)
  | null
  | function (identity : Identity) (closure : Environment) (literal : FunctionLiteral)
  | builtin (function : Builtin)
  | error (identity : Identity) (fault : Fault)

/-- An entry of a hash. -/
structure Entry where
  /-- What the entry is filed under. -/
  hashKey : HashKey
  /-- The key as it was given. -/
  key : Value
  /-- The value filed under the key. -/
  value : Value

end

instance : Inhabited Value := ⟨.null⟩

namespace Value

/-- The kind of a value. -/
def kind : Value → Kind
  | integer _ => .integer
  | float _ => .float
  | string _ => .string
  | boolean _ => .boolean
  | array _ _ => .array
  | hash _ _ => .hash
  | null => .null
  | function _ _ _ => .function
  | builtin _ => .builtin
  | error _ _ => .error

/-- Whether a value counts as true in a condition. -/
def truthy : Value → Bool
  | boolean value => value
  | integer value => value ≠ 0
  | float value => !Binary64.isZero value
  | string value => !value.isEmpty
  | array _ elements => !elements.isEmpty
  | hash _ entries => !entries.isEmpty
  | function _ _ _ => true
  | builtin _ => true
  | null => false
  | error _ _ => false

end Value

/-- The name of a function in messages. -/
def FunctionLiteral.displayName (literal : FunctionLiteral) : String :=
  literal.name.getD "anonymous"

/-- How a function is shown: its name, if it has one, and its parameters. -/
def FunctionLiteral.signature (literal : FunctionLiteral) : String :=
  let name := match literal.name with
    | some name => " " ++ name
    | none => ""
  "fn" ++ name ++ "(" ++ ", ".intercalate (literal.parameters.map Identifier.name) ++
    ") \x7b...\x7d"

mutual

/-- How a value is shown. Strings are shown as they are, also inside of other values. -/
def Value.text : Value → String
  | .integer value => toString value.toInt
  | .float value => Binary64.text value
  | .string value => value
  | .boolean value => if value then "true" else "false"
  | .array _ elements => "[" ++ ", ".intercalate (Value.texts elements) ++ "]"
  | .hash _ entries => "\x7b" ++ ", ".intercalate (Entry.texts entries) ++ "\x7d"
  | .null => "null"
  | .function _ _ literal => literal.signature
  | .builtin function => "<builtin " ++ function.name ++ ">"
  | .error _ fault => "ERROR: " ++ fault.message
termination_by structural value => value

/-- How several values are shown. -/
def Value.texts : List Value → List String
  | [] => []
  | value :: rest => value.text :: Value.texts rest
termination_by structural values => values

/-- How an entry of a hash is shown. -/
def Entry.text : Entry → String
  | ⟨_, key, value⟩ => key.text ++ ": " ++ value.text
termination_by structural entry => entry

/-- How several entries of a hash are shown. -/
def Entry.texts : List Entry → List String
  | [] => []
  | entry :: rest => entry.text :: Entry.texts rest
termination_by structural entries => entries

end

end Script
