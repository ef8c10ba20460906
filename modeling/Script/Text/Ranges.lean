/-!
# Ranges of code points

A character class of the Unicode standard is a list of closed ranges of code points. All tables
of characters are those of version 17.0 of the standard.
-/

namespace Script.Text

/-- Closed ranges of code points, in increasing order. -/
abbrev Ranges := List (Nat × Nat)

/-- A character is covered when its code point lies in one of the ranges. -/
def Ranges.covers (ranges : Ranges) (c : Char) : Bool :=
  ranges.any fun range => range.1 ≤ c.toNat && c.toNat ≤ range.2

end Script.Text
