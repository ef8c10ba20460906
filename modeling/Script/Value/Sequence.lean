import Script.Value.Key

/-!
# Sequences

Strings, arrays and hashes can be iterated: over characters, elements and keys.
-/

namespace Script

namespace Value

/-- A string of one character. -/
def character (c : Char) : Value :=
  string (String.singleton c)

/-- What a loop visits: the characters of a string, the elements of an array, or the keys of a
hash. -/
def elements? : Value → Option (List Value)
  | string text => some (text.toList.map character)
  | array _ elements => some elements
  | hash _ entries => some (entries.map Entry.key)
  | _ => none

/-- The element of a list at an integer place, or null where there is none. -/
def elementAt (elements : List Value) (place : Int64) : Value :=
  if place.toInt < 0 then null else (elements[place.toInt.toNat]?).getD null

/-- The element at a place of an array or string, or the value filed under a key of a hash. -/
def index [Host] (collection place : Value) : Except Fault Value :=
  match collection, place with
  | array _ elements, integer place => .ok (elementAt elements place)
  | string text, integer place => .ok (elementAt (text.toList.map character) place)
  | hash _ entries, key =>
    match key.hashKey? with
    | some hashKey => .ok ((Entry.find? hashKey entries).elim null Entry.value)
    | none => .error (.unhashable key.kind)
  | _, _ => .error (.indexing collection.kind place.kind)

end Value

end Script
