/-!
# Builtin functions

The functions that every program can call without defining them. A name is looked up here
after all bindings, so a program may bind it to something else.
-/

namespace Script

/-- The builtin functions. -/
inductive Builtin where
  | print | type | str | len | reversed | slice | range | lower | upper | split | join
  | push | unshift | pop | shift | keys | values | delete
deriving DecidableEq, Repr

namespace Builtin

/-- Every builtin function. -/
def all : List Builtin :=
  [print, type, str, len, reversed, slice, range, lower, upper, split, join, push, unshift,
    pop, shift, keys, values, delete]

/-- The name that programs call a function by. -/
def name : Builtin → String
  | print => "print"
  | type => "type"
  | str => "str"
  | len => "len"
  | reversed => "reversed"
  | slice => "slice"
  | range => "range"
  | lower => "lower"
  | upper => "upper"
  | split => "split"
  | join => "join"
  | push => "push"
  | unshift => "unshift"
  | pop => "pop"
  | shift => "shift"
  | keys => "keys"
  | values => "values"
  | delete => "delete"

/-- The builtin function with the given name. -/
def ofName? (name : String) : Option Builtin :=
  all.find? (·.name == name)

end Builtin

end Script
