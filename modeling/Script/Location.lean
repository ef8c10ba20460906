/-!
# Places in a source text

Lines and columns count from one. A column counts code points since the last line feed.
-/

namespace Script

/-- The place of a character in a source text. -/
structure Location where
  /-- One more than the number of line feeds before the place. -/
  line : Nat
  /-- One more than the number of characters since the last line feed. -/
  column : Nat
deriving DecidableEq, Repr, Inhabited

namespace Location

/-- The place of the first character. -/
def start : Location := ⟨1, 1⟩

/-- The place `count` columns to the right. -/
def right (place : Location) (count : Nat) : Location :=
  ⟨place.line, place.column + count⟩

/-- The first place of the next line. -/
def newLine (place : Location) : Location :=
  ⟨place.line + 1, 1⟩

/-- The place after a character that was counted properly. -/
def after (place : Location) (c : Char) : Location :=
  if c = '\n' then place.newLine else place.right 1

/-- The place after a run of characters. -/
def afterAll (place : Location) (chars : List Char) : Location :=
  chars.foldl after place

/-- The written form, `line:column`. -/
def text (place : Location) : String :=
  s!"{place.line}:{place.column}"

end Location

end Script
