import Script.Host
import Script.Value

/-!
# Equality and hash keys

Numbers are equal by value across kinds, strings and booleans by content, builtin functions
by name, and all other compound values by identity. A hash files its entries under hash keys that
agree with equality: a float that is a whole number in the range of integers has the hash key of
that integer. Floats are otherwise told apart by their encodings and strings by their hashes, so
what is not a number has a hash key as well, and two strings may share one.
-/

namespace Script

namespace Value

/-- The equality of the language. -/
def equal : Value → Value → Bool
  | integer a, integer b => a = b
  | float x, float y => Binary64.equal x y
  | integer a, float x => Binary64.integral? x = some a
  | float x, integer a => Binary64.integral? x = some a
  | string s, string t => s = t
  | boolean b, boolean c => b = c
  | null, null => true
  | array i _, array j _ => i = j
  | hash i _, hash j _ => i = j
  | function i _ _, function j _ _ => i = j
  | builtin f, builtin g => f = g
  | error i _, error j _ => i = j
  | _, _ => false

/-- The hash key of a value, if it can be a key. -/
def hashKey? [Host] : Value → Option HashKey
  | integer value => some ⟨.integer, value.toUInt64⟩
  | float value =>
    match Binary64.integral? value with
    | some whole => some ⟨.integer, whole.toUInt64⟩
    | none => some ⟨.float, value.bits⟩
  | string value => some ⟨.string, Host.hash value⟩
  | boolean value => some ⟨.boolean, value.toUInt64⟩
  | _ => none

end Value

namespace Entry

/-- Whether an entry is filed under a hash key. -/
def filedUnder (hashKey : HashKey) (entry : Entry) : Bool :=
  entry.hashKey = hashKey

/-- The entry filed under a hash key. -/
def find? (hashKey : HashKey) (entries : List Entry) : Option Entry :=
  entries.find? (filedUnder hashKey)

/-- Files an entry: in the place of the one filed under its hash key before, or at the end. -/
def insert (entry : Entry) : List Entry → List Entry
  | [] => [entry]
  | first :: rest =>
    if first.filedUnder entry.hashKey then entry :: rest else first :: insert entry rest

/-- Removes the entry filed under a hash key and keeps the order of the others. -/
def erase (hashKey : HashKey) (entries : List Entry) : List Entry :=
  entries.eraseP (filedUnder hashKey)

end Entry

end Script
