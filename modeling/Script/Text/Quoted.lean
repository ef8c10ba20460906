/-!
# Quoted text

A string literal stands between double quotes. Five characters are written as a backslash and
a sign; `unescape?_of_escapeSign?` says that the sign gives the character back.
-/

namespace Script.Text

/-- The sign written after a backslash for a character that cannot stand for itself, or is not
written as itself. -/
def escapeSign? : Char → Option Char
  | '"' => some '"'
  | '\\' => some '\\'
  | '\n' => some 'n'
  | '\t' => some 't'
  | '\r' => some 'r'
  | _ => none

/-- The character that a backslash followed by `sign` stands for. -/
def unescape? : (sign : Char) → Option Char
  | '"' => some '"'
  | '\\' => some '\\'
  | 'n' => some '\n'
  | 't' => some '\t'
  | 'r' => some '\r'
  | _ => none

/-- A character as it stands between quotes. -/
def escape (c : Char) : List Char :=
  match escapeSign? c with
  | some sign => ['\\', sign]
  | none => [c]

/-- A text between quotes. -/
def quoted (text : String) : String :=
  String.ofList ('"' :: (text.toList.flatMap escape ++ ['"']))

theorem unescape?_of_escapeSign? {c sign : Char} (h : escapeSign? c = some sign) :
    unescape? sign = some c := by
  unfold escapeSign? at h
  split at h <;> simp_all <;> subst h <;> rfl

/-- A character that stands for itself is neither a quote nor a backslash. -/
theorem ne_of_escapeSign?_eq_none {c : Char} (h : escapeSign? c = none) : c ≠ '"' ∧ c ≠ '\\' := by
  constructor <;> rintro rfl <;> simp [escapeSign?] at h

end Script.Text
