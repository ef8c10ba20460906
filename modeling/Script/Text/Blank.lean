import Script.Text.Ranges

/-!
# Blank text

The Unicode property `White_Space`. A line of an interactive session that holds nothing else
is skipped. Between tokens only the four characters of `Script.Token.Stream` are skipped.
-/

namespace Script.Text

/-- All white space characters. -/
def whiteSpaceRanges : Ranges := [
  (0x0009, 0x000D), (0x0020, 0x0020), (0x0085, 0x0085), (0x00A0, 0x00A0), (0x1680, 0x1680),
  (0x2000, 0x200A), (0x2028, 0x2029), (0x202F, 0x202F), (0x205F, 0x205F), (0x3000, 0x3000)]

/-- The Unicode property `White_Space`. -/
def isWhiteSpace (c : Char) : Bool :=
  whiteSpaceRanges.covers c

/-- A text is blank when it holds white space only. -/
def isBlank (text : String) : Bool :=
  text.toList.all isWhiteSpace

end Script.Text
