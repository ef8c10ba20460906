import Script.Program

/-!
# Hosts

Two things about values are left to the host of an interpreter: the hash of a string, and which of
the many encodings of what is not a number an operation gives. What is said about programs holds on
every host.
-/

namespace Script

/-- What is left to the host of an interpreter. It is inferred, so that statements which hold on
every host need not name it. -/
class Host where
  /-- The hash of a string. -/
  hash : String → UInt64
  /-- What an operation on two doubles gives if its result is not a number. -/
  nan : BinaryOperator → Binary64 → Binary64 → { x : Binary64 // x.isNaN }

namespace Host

/-- The host of the command: it mixes the characters of a string one by one, and passes on the
first operand that is not a number. It is inferred only where it is opened. -/
scoped instance standard : Host where
  hash text :=
    text.toList.foldl (fun mixed c => (mixed ^^^ c.val.toUInt64) * 0x100000001b3)
      0xcbf29ce484222325
  nan _ x y :=
    if hx : x.isNaN then ⟨x, hx⟩
    else if hy : y.isNaN then ⟨y, hy⟩
    else ⟨⟨0xfff8000000000000⟩, by decide⟩

end Host

/-- An operation on doubles, which is computed with floats as long as the result is a number. -/
def Binary64.operate [Host] (operator : BinaryOperator) (rounded : Float → Float → Float)
    (x y : Binary64) : Binary64 :=
  let result := ofFloat (rounded x.toFloat y.toFloat)
  if result.isNaN then Host.nan operator x y else result

end Script
