import Script.Text.CaseTables

/-!
# Letter case

Full case mappings of the Unicode standard, without any locale: one character may become
several, and a capital sigma at the end of a word becomes `ς` rather than `σ`.
-/

namespace Script.Text

/-- The full mapping of a character outside ASCII by the given tables. -/
def mapCase (shifts : List Shift) (expansions : List (Nat × List Nat)) (c : Char) : List Char :=
  match expansions.lookup c.toNat with
  | some codes => codes.map Char.ofNat
  | none =>
    match shifts.findSome? (·.image? c.toNat) with
    | some code => [Char.ofNat code]
    | none => [c]

/-- The lower case form of a character, without its neighbours. -/
def lowerChar (c : Char) : List Char :=
  if c.toNat < 0x80 then [c.toLower] else mapCase lowerShifts lowerExpansions c

/-- The upper case form of a character. -/
def upperChar (c : Char) : List Char :=
  if c.toNat < 0x80 then [c.toUpper] else mapCase upperShifts upperExpansions c

/-- Whether the first character that does not merely modify its neighbours is a cased letter. -/
def meetsCased (chars : List Char) : Bool :=
  (chars.dropWhile caseIgnorableRanges.covers).head?.any casedRanges.covers

/-- Lower case forms of `rest`, where `before` holds the preceding characters, nearest first.
A capital sigma is final when a cased letter comes before it and none after it. -/
def lowerChars (before : List Char) : (rest : List Char) → List Char
  | [] => []
  | c :: rest =>
    let form :=
      if c = 'Σ' then
        if meetsCased before && !meetsCased rest then ['ς'] else ['σ']
      else
        lowerChar c
    form ++ lowerChars (c :: before) rest

/-- The text in lower case. -/
def lower (text : String) : String :=
  String.ofList (lowerChars [] text.toList)

/-- The text in upper case. -/
def upper (text : String) : String :=
  String.ofList (text.toList.flatMap upperChar)

end Script.Text
