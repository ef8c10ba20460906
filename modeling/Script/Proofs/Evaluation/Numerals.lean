import Script.Proofs.Evaluation.Arithmetic
import Script.Proofs.Program.Sequence

/-!
# Numerals

A text of digits and dots that starts with a digit is one token. Whether it is a number is decided
when it is read: an integer if it has no dot and is small enough, a float if it has one dot, and an
error otherwise. The integers that are shown by values are read back with the sign in front of them
as an operator. All of this is `numerals_read`.
-/

namespace Script

/-! ## Digits -/

namespace Text

/-- The number that decimal digits stand for, each one by its place. -/
def decimal : List Char → Nat
  | [] => 0
  | digit :: rest => (digit.toNat - '0'.toNat) * 10 ^ rest.length + decimal rest

/-- Reading digit by digit gives this number. -/
theorem ofDigitChars_eq_decimal (digits : List Char) :
    Nat.ofDigitChars 10 digits 0 = decimal digits := by
  induction digits with
  | nil => rfl
  | cons digit rest ih =>
      rw [Nat.ofDigitChars_cons, Nat.ofDigitChars_eq_ofDigitChars_zero, ih, decimal, Nat.mul_zero,
        Nat.zero_add, Nat.mul_comm]

theorem decimal_toDigits (number : Nat) : decimal (Nat.toDigits 10 number) = number := by
  rw [← ofDigitChars_eq_decimal, Nat.ofDigitChars_ten_toDigits]

/-- Digits and dots, the first one a digit. -/
structure IsNumeral (chars : List Char) : Prop where
  starts : ∃ first ∈ chars.head?, first.isDigit = true
  continues : ∀ c ∈ chars, c.isDigit = true ∨ c = '.'

instance (chars : List Char) : Decidable (IsNumeral chars) :=
  decidable_of_iff (chars.head?.any Char.isDigit = true ∧ chars.all Scan.continuesNumber = true)
    ⟨fun h => ⟨by simpa [Option.any_eq_true] using h.1, by simpa [Scan.continuesNumber] using h.2⟩,
      fun h => ⟨by simpa [Option.any_eq_true] using h.starts,
        by simpa [Scan.continuesNumber] using h.continues⟩⟩

/-- The digits of a number are a numeral without a dot. -/
theorem isNumeral_toDigits (number : Nat) :
    IsNumeral (Nat.toDigits 10 number) ∧ '.' ∉ Nat.toDigits 10 number := by
  have hdigits : ∀ c ∈ Nat.toDigits 10 number, c.isDigit = true := fun c hc =>
    Nat.isDigit_of_mem_toDigits (by decide) (by decide) hc
  refine ⟨⟨?_, fun c hc => .inl (hdigits c hc)⟩, fun hdot => ?_⟩
  · have hne : Nat.toDigits 10 number ≠ [] := Nat.toDigits_ne_nil
    obtain ⟨first, tail, hchars⟩ := List.exists_cons_of_ne_nil hne
    rw [hchars] at hdigits ⊢
    exact ⟨first, rfl, hdigits first (.head _)⟩
  · cases hdigits '.' hdot

/-- A numeral is scanned as a number. -/
theorem IsNumeral.isNumber {chars : List Char} (h : IsNumeral chars) :
    ∃ first tail, chars = first :: tail ∧ Scan.IsNumber first tail := by
  obtain ⟨⟨first, hfirst, hdigit⟩, hcontinues⟩ := h
  cases chars with
  | nil => cases hfirst
  | cons first tail =>
      cases hfirst
      refine ⟨first, tail, rfl, ⟨?_, ?_, hdigit, fun c hc => ?_⟩⟩
      · unfold Scan.single?
        split <;> first | rfl | cases hdigit
      · rintro rfl
        cases hdigit
      · simpa [Scan.continuesNumber] using hcontinues c (List.mem_cons_of_mem _ hc)

end Text

/-! ## One token -/

variable {text : String} {first : Token} {finish : Location} {error : SyntaxError}

/-- A number at the end of a text is its last token. -/
theorem Cut.numeral (before : List Char) {chars : List Char} (h : Text.IsNumeral chars) :
    Cut before chars [⟨Scan.number chars, .behind before⟩] := by
  obtain ⟨first, tail, rfl, hnumber⟩ := h.isNumber
  have hfits : Piece.Fits before ⟨[], first :: tail, ⟨Scan.number (first :: tail), .behind before⟩⟩
      [] :=
    ⟨List.forall_mem_nil _, by rw [List.append_nil], Scan.number_covers hnumber nofun⟩
  have hcut := Cut.piece hfits (.blank (List.forall_mem_nil _))
  rwa [List.append_nil] at hcut

/-- The lexeme of a numeral. -/
theorem number_toList (text : String) :
    Scan.number text.toList = if '.' ∈ text.toList then .float text else .integer text := by
  unfold Scan.number
  rw [String.ofList_toList]
  by_cases hdot : '.' ∈ text.toList
  · rw [if_pos hdot, if_pos (List.contains_iff_mem.2 hdot)]
  · rw [if_neg hdot, if_neg fun h => hdot (List.contains_iff_mem.1 h)]

theorem scan_numeral (h : Text.IsNumeral text.toList) :
    (scan text).tokens =
        [⟨if '.' ∈ text.toList then .float text else .integer text, .start⟩] ∧
      (scan text).failure = none := by
  rw [← number_toList]
  exact scan_cut_iff.1 (Cut.numeral [] h)

/-- A number that cannot be read is skipped at the end of a text. -/
theorem Phrases.wholeStatement_skipped {phrases : Phrases} {count : Nat}
    (hnumber : first.kind = .integer ∨ first.kind = .float)
    (h : phrases.statementForm count ⟨[first], finish, none, [], 0⟩ =
      .rejected ⟨[first], finish, none, [error], 0⟩) :
    phrases.wholeStatement count ⟨[first], finish, none, [], 0⟩ =
      .parsed none ⟨[], finish, none, [error], 0⟩ := by
  have hattempt := Rule.attempt_eq_rejected h
  obtain ⟨lexeme, location⟩ := first
  cases lexeme with
  | integer | float => exact Rule.bind_eq hattempt
  | _ => rcases hnumber with hkind | hkind <;> cases hkind

/-- If it is the only token of the text, then its error is the only one. -/
theorem Program.ofScanned_skipped (hnumber : first.kind = .integer ∨ first.kind = .float)
    (h : ∀ (phrases : Phrases) (count : Nat),
      phrases.operand count ⟨[first], finish, none, [], 0⟩ =
        .rejected ⟨[first], finish, none, [error], 0⟩) :
    Program.ofScanned ⟨[first], finish, none⟩ = ⟨⟨[]⟩, [error]⟩ := by
  have hoperand : first.lexeme.startsOperand := by
    obtain ⟨lexeme, location⟩ := first
    cases lexeme with
    | integer | float => rfl
    | _ => rcases hnumber with hkind | hkind <;> cases hkind
  have heof : first.lexeme ≠ .eof := by
    intro heof
    rw [heof] at hoperand
    cases hoperand
  have hexpression : expressionRule 5 .lowest ⟨[first], finish, none, [], 0⟩ =
      .rejected ⟨[first], finish, none, [error], 0⟩ := Rule.bind_eq_rejected (h _ 4)
  have hform : Phrases.statementForm ⟨expressionRule 5, statementRule 5⟩ 5
      ⟨[first], finish, none, [], 0⟩ = .rejected ⟨[first], finish, none, [error], 0⟩ :=
    (Phrase.Applies.statementForm_eq _ 5 hoperand ⟨finish, [], 0⟩).trans
      (Rule.bind_eq_rejected hexpression)
  have hstatement : statementRule 6 ⟨[first], finish, none, [], 0⟩ =
      .parsed none ⟨[], finish, none, [error], 0⟩ :=
    Phrases.wholeStatement_skipped hnumber hform
  have hprogram : programRule (phraseBound [first]) ⟨[first], finish, none, [], 0⟩ =
      .parsed [] ⟨[], finish, none, [error], 0⟩ := by
    show (if decide (first.lexeme = .eof) = true then pure [] else
      statementRule 6 >>= fun _ => _ : Rule (List Statement)) _ = _
    rw [if_neg (by simpa using heof)]
    exact Rule.bind_eq hstatement
  have hstart : Cursor.ofScanned ⟨[first], finish, none⟩ = ⟨[first], finish, none, [], 0⟩ := rfl
  rw [Program.ofScanned, hstart]
  dsimp only
  rw [hprogram]

/-- Behind the last token no operator follows. -/
theorem Precedence.not_lt_last (precedence : Precedence) :
    ¬ precedence.level < (firstLexeme []).precedence.level :=
  Nat.not_lt_zero _

/-- A text of one operand is a program of one statement. -/
theorem Program.ofScanned_operand {rest : List Token} {value : Expr}
    (hfirst : first.lexeme ≠ .eof) (h : Reads False .operand (first :: rest) value []) :
    Program.ofScanned ⟨first :: rest, finish, none⟩ = ⟨⟨[.expression first value]⟩, []⟩ := by
  have hform : Reads False .form (first :: rest) (.expression first value) [] :=
    .expressionForm (.expression h (.complete (Precedence.not_lt_last _)))
  exact Program.ofScanned_eq rfl
    (.statementsMore (decide_eq_false hfirst) (.unterminated hform nofun) (.statementsEnd rfl))

/-! ## Reading a numeral -/

/-- The result of reading a text whose only token is a numeral without a dot. -/
theorem Program.ofScanned_integer (text : String) (place finish : Location) :
    Program.ofScanned ⟨[⟨.integer text, place⟩], finish, none⟩ =
      if Text.decimal text.toList ≤ 2 ^ 63 - 1 then
        ⟨⟨[.expression ⟨.integer text, place⟩
          (.integer place text (.ofNat (Text.decimal text.toList)))]⟩, []⟩
      else
        ⟨⟨[]⟩, [.parse (.integerRange text) place]⟩ := by
  have hvalue := Text.ofDigitChars_eq_decimal text.toList
  by_cases hrange : Text.decimal text.toList ≤ 2 ^ 63 - 1
  · rw [if_pos hrange, ← hvalue]
    refine ofScanned_operand nofun (.integer ?_)
    rw [Int64.toInt_maxValue, hvalue]
    omega
  · rw [if_neg hrange]
    refine ofScanned_skipped (.inl rfl) fun phrases count => ?_
    show Phrases.integer place text _ = _
    rw [Phrases.integer, if_neg]
    · rfl
    · rw [Int64.toInt_maxValue, hvalue]
      omega

/-- Digits with one dot among them are the whole part and the fraction of a number. -/
theorem Text.ofDigits?_of_count {chars : List Char} (h : chars.count '.' = 1) :
    ∃ whole fraction, chars = whole ++ '.' :: fraction ∧ Binary64.ofDigits? chars =
      some (Binary64.ofScientific (decimal (whole ++ fraction)) true fraction.length) := by
  have hchars : chars.takeWhile (· ≠ '.') ++ chars.dropWhile (· ≠ '.') = chars :=
    List.takeWhile_append_dropWhile
  have hvalue : Binary64.ofDigits? chars = some (Binary64.ofScientific
      (decimal (chars.takeWhile (· ≠ '.') ++ (chars.dropWhile (· ≠ '.')).drop 1)) true
      ((chars.dropWhile (· ≠ '.')).drop 1).length) := by
    rw [Binary64.ofDigits?, if_pos h, ← ofDigitChars_eq_decimal]
  refine ⟨_, _, ?_, hvalue⟩
  have hfirst := List.head?_dropWhile_not (· ≠ '.') chars
  cases hrest : chars.dropWhile (· ≠ '.') with
  | nil =>
      have hnone := List.dropWhile_eq_nil_iff.1 hrest '.'
        (List.count_pos_iff.1 (by rw [h]; exact Nat.one_pos))
      simp at hnone
  | cons dot fraction =>
      rw [hrest] at hfirst hchars
      obtain rfl : dot = '.' := by simpa using hfirst
      exact hchars.symm

/-- The result of reading a text whose only token is a numeral with one dot. -/
theorem Program.ofScanned_float {text : String} (hdot : text.toList.count '.' = 1)
    (place finish : Location) :
    ∃ whole fraction, text.toList = whole ++ '.' :: fraction ∧
      Program.ofScanned ⟨[⟨.float text, place⟩], finish, none⟩ =
        ⟨⟨[.expression ⟨.float text, place⟩ (.float place text
          (.ofScientific (Text.decimal (whole ++ fraction)) true fraction.length))]⟩, []⟩ := by
  obtain ⟨whole, fraction, hchars, hvalue⟩ := Text.ofDigits?_of_count hdot
  exact ⟨whole, fraction, hchars, ofScanned_operand nofun (.float hvalue)⟩

/-- More dots than one are an error. -/
theorem Program.ofScanned_floatDots {text : String} (hdots : text.toList.count '.' ≠ 1)
    (place finish : Location) :
    Program.ofScanned ⟨[⟨.float text, place⟩], finish, none⟩ =
      ⟨⟨[]⟩, [.parse (.floatDots text) place]⟩ := by
  refine ofScanned_skipped (.inr rfl) fun phrases count => ?_
  show Phrases.float place text _ = _
  rw [Phrases.float, Binary64.ofDigits?, if_neg hdots]
  rfl

/-- A text is read from what is scanned. -/
theorem Program.read_eq {tokens : List Token} (htokens : (scan text).tokens = tokens)
    (hfailure : (scan text).failure = none) :
    Program.read text = Program.ofScanned ⟨tokens, (scan text).finish, none⟩ := by
  rw [Program.read, ← htokens, ← hfailure]

/-- What is read from a text that is a numeral. -/
structure Program.ReadsNumeral (text : String) : Prop where
  token : (scan text).failure = none ∧ (scan text).tokens =
    [⟨if '.' ∈ text.toList then .float text else .integer text, .start⟩]
  accepted : (Program.read text).errors = [] ↔
    '.' ∉ text.toList ∧ Text.decimal text.toList ≤ 2 ^ 63 - 1 ∨ text.toList.count '.' = 1
  integer : '.' ∉ text.toList → Text.decimal text.toList ≤ 2 ^ 63 - 1 →
    ∃ word : Int64, word.toInt = Text.decimal text.toList ∧ Program.read text =
      ⟨⟨[.expression ⟨.integer text, .start⟩ (.integer .start text word)]⟩, []⟩
  /-- The value is that of the digits, scaled down by their number behind the dot. -/
  float : text.toList.count '.' = 1 → ∃ whole fraction, text.toList = whole ++ '.' :: fraction ∧
    Program.read text = ⟨⟨[.expression ⟨.float text, .start⟩ (.float .start text
      (Binary64.ofScientific (Text.decimal (whole ++ fraction)) true fraction.length))]⟩, []⟩
  rejected : (Program.read text).errors ≠ [] → Program.read text = ⟨⟨[]⟩,
    [.parse (if '.' ∈ text.toList then .floatDots text else .integerRange text) .start]⟩

theorem Program.ReadsNumeral.of_rejected (h : Text.IsNumeral text.toList)
    (hread : Program.read text = ⟨⟨[]⟩,
      [.parse (if '.' ∈ text.toList then .floatDots text else .integerRange text) .start]⟩)
    (hinteger : '.' ∉ text.toList → ¬ Text.decimal text.toList ≤ 2 ^ 63 - 1)
    (hfloat : text.toList.count '.' ≠ 1) : Program.ReadsNumeral text := by
  have herrors : (Program.read text).errors ≠ [] := by
    rw [hread]
    exact nofun
  refine ⟨(scan_numeral h).symm, iff_of_false herrors ?_,
    fun hdot hle => absurd hle (hinteger hdot), fun hone => absurd hone hfloat, fun _ => hread⟩
  rintro (⟨hdot, hle⟩ | hone)
  · exact hinteger hdot hle
  · exact hfloat hone

/-- By the number of dots, and the value if there is none. -/
theorem Program.readsNumeral (h : Text.IsNumeral text.toList) : Program.ReadsNumeral text := by
  obtain ⟨htokens, hfailure⟩ := scan_numeral h
  have hread := Program.read_eq htokens hfailure
  by_cases hdot : '.' ∈ text.toList
  · rw [if_pos hdot] at hread
    by_cases hone : text.toList.count '.' = 1
    · obtain ⟨whole, fraction, hchars, hparsed⟩ :=
        ofScanned_float hone .start (scan text).finish
      rw [hparsed] at hread
      have herrors : (Program.read text).errors = [] := by rw [hread]
      exact ⟨⟨hfailure, htokens⟩, iff_of_true herrors (.inr hone), fun hnone => absurd hdot hnone,
        fun _ => ⟨whole, fraction, hchars, hread⟩, absurd herrors⟩
    · rw [ofScanned_floatDots hone] at hread
      exact .of_rejected h (by rwa [if_pos hdot]) (absurd hdot) hone
  · have hone : text.toList.count '.' ≠ 1 := by
      rw [List.count_eq_zero.2 hdot]
      exact nofun
    rw [if_neg hdot, ofScanned_integer] at hread
    by_cases hrange : Text.decimal text.toList ≤ 2 ^ 63 - 1
    · rw [if_pos hrange] at hread
      have herrors : (Program.read text).errors = [] := by rw [hread]
      have hword : (Int64.ofNat (Text.decimal text.toList)).toInt = Text.decimal text.toList :=
        Int64.toInt_ofNat_of_lt (by omega)
      exact ⟨⟨hfailure, htokens⟩, iff_of_true herrors (.inl ⟨hdot, hrange⟩),
        fun _ _ => ⟨_, hword, hread⟩, fun heq => absurd heq hone, absurd herrors⟩
    · rw [if_neg hrange] at hread
      exact .of_rejected h (by rwa [if_neg hdot]) (fun _ => hrange) hone

/-! ## Integers as they are shown -/

/-- The text of a natural number is a program of that number. -/
theorem Program.ofText_repr {number : Nat} (h : number ≤ 2 ^ 63 - 1) :
    Program.ofText number.repr = .ok ⟨[.expression ⟨.integer number.repr, .start⟩
      (.integer .start number.repr (.ofNat number))]⟩ := by
  obtain ⟨hnumeral, hdot⟩ := Text.isNumeral_toDigits number
  rw [← Nat.toList_repr] at hnumeral hdot
  obtain ⟨htokens, hfailure⟩ := scan_numeral hnumeral
  rw [if_neg hdot] at htokens
  have hvalue : Text.decimal number.repr.toList = number := by
    rw [Nat.toList_repr, Text.decimal_toDigits]
  rw [Program.ofText_eq_ok, Program.read_eq htokens hfailure, ofScanned_integer, hvalue, if_pos h]

/-- With a sign in front of it, it is a program of the negative number. -/
theorem Program.ofText_minus_repr {number : Nat} (h : number ≤ 2 ^ 63 - 1) :
    Program.ofText ("-" ++ number.repr) = .ok ⟨[.expression ⟨.mark .minus, .start⟩
      (.unary .start .negate (.integer ⟨1, 2⟩ number.repr (.ofNat number)))]⟩ := by
  obtain ⟨hnumeral, hdot⟩ := Text.isNumeral_toDigits number
  rw [← Nat.toList_repr] at hnumeral hdot
  have hminus : Piece.Fits [] ⟨[], ['-'], ⟨.mark .minus, .start⟩⟩ number.repr.toList :=
    ⟨List.forall_mem_nil _, rfl, trivial, fun _ => rfl, nofun, fun _ _ => rfl⟩
  have hcut : Cut [] ("-" ++ number.repr).toList
      [⟨.mark .minus, .start⟩, ⟨.integer number.repr, ⟨1, 2⟩⟩] := by
    have hrest := Cut.numeral ['-'] hnumeral
    rw [number_toList, if_neg hdot] at hrest
    rw [String.toList_append]
    exact .piece hminus hrest
  obtain ⟨htokens, hfailure⟩ := scan_cut_iff.1 hcut
  have hvalue : Nat.ofDigitChars 10 number.repr.toList 0 = number := by
    rw [Nat.toList_repr, Nat.ofDigitChars_ten_toDigits]
  have hliteral : Reads False .operand [⟨.integer number.repr, ⟨1, 2⟩⟩]
      (.integer ⟨1, 2⟩ number.repr (.ofNat (Nat.ofDigitChars 10 number.repr.toList 0))) [] := by
    refine .integer ?_
    rw [hvalue, Int64.toInt_maxValue]
    omega
  rw [hvalue] at hliteral
  have hoperand : Reads False .operand
      [⟨UnaryOperator.negate.lexeme, .start⟩, ⟨.integer number.repr, ⟨1, 2⟩⟩] _ [] :=
    .unary (.expression hliteral (.complete (Precedence.not_lt_last _)))
  rw [Program.ofText_eq_ok, Program.read_eq htokens hfailure]
  exact ofScanned_operand nofun hoperand

/-- The text of a number in range is a program that calculates it. -/
theorem Program.ofText_toString {number : Int} (h : number.natAbs ≤ 2 ^ 63 - 1) :
    ∃ (first : Token) (calculation : Calculation),
      Program.ofText (toString number) = .ok ⟨[.expression first calculation.expr]⟩ ∧
      calculation.exact = number ∧ calculation.height ≤ 1 ∧
      calculation.operations.findSome? Calculation.offence? = none := by
  have hword (value : Nat) (hvalue : value ≤ 2 ^ 63 - 1) : (Int64.ofNat value).toInt = value :=
    Int64.toInt_ofNat_of_lt (by omega)
  cases number with
  | ofNat value =>
      exact ⟨_, .literal .start value.repr (.ofNat value), ofText_repr h, hword value h,
        Nat.zero_le 1, rfl⟩
  | negSucc value =>
      have hexact : (Calculation.literal ⟨1, 2⟩ (value + 1).repr (.ofNat (value + 1))).exact =
          (value + 1 : Nat) := hword _ h
      refine ⟨_, .negate .start (.literal ⟨1, 2⟩ (value + 1).repr (.ofNat (value + 1))),
        ofText_minus_repr h, ?_, Nat.le_refl 1, ?_⟩
      · rw [Calculation.exact, hexact]
        rfl
      · rw [Calculation.operations, Calculation.operations, List.nil_append,
          List.findSome?_singleton, Calculation.offence?, hexact, if_pos]
        rw [Int.natAbs_negSucc] at h
        unfold Calculation.InRange
        omega

/-- A program of one calculation gives its value. -/
theorem Calculation.executeAll [Host] {calculation : Calculation} {word : Int64}
    (hright : calculation.operations.findSome? offence? = none)
    (hword : word.toInt = calculation.exact) {bound : Nat} (hbound : calculation.height + 1 < bound)
    (settings : Settings) (first : Token) (state : State) :
    Statement.executeAll settings bound [.expression first calculation.expr] state =
      (.ok (.integer word), state) := by
  obtain ⟨count, rfl⟩ := Nat.exists_eq_add_one.2 (Nat.zero_lt_of_lt hbound)
  have hanswers := calculation.evaluate_answers settings (Nat.lt_of_succ_lt_succ hbound) state
  rw [hright] at hanswers
  obtain ⟨found, hfound, heval⟩ := hanswers
  obtain rfl : found = word := Int64.toInt_inj.1 (hfound.trans hword.symm)
  show (Expr.evaluate settings count calculation.expr >>= pure : Evaluation Value) state = _
  rw [Evaluation.bind_apply, heval]
  rfl

/-- A session answers with it. -/
theorem Session.submit_calculation [Host] {text : String} {first : Token}
    {calculation : Calculation} {word : Int64}
    (htext : Program.ofText text = .ok ⟨[.expression first calculation.expr]⟩)
    (hright : calculation.operations.findSome? Calculation.offence? = none)
    (hword : word.toInt = calculation.exact) {bound : Nat} (hbound : calculation.height + 1 < bound)
    (session : Session) :
    session.submit bound text = (.evaluated "" (.value (.integer word)),
      { session with state := { session.state with printed := "" } }) := by
  have hexecute := Calculation.executeAll hright hword hbound session.settings first
    { session.state with printed := "" }
  unfold submit
  generalize Program.ofText text = parsed at htext ⊢
  subst htext
  dsimp only
  rw [run]
  dsimp only
  rw [hexecute]

/-! ## Numerals and integers -/

/-- A numeral is read as it should be, and a number in range is the answer to its own text. -/
theorem numerals_read [Host] :
    (∀ text : String, Text.IsNumeral text.toList → Program.ReadsNumeral text) ∧
    ∀ number : Int, number.natAbs ≤ 2 ^ 63 - 1 →
      ∃ word : Int64, word.toInt = number ∧ (Value.integer word).text = toString number ∧
        ∀ (bound : Nat) (session : Session), 3 ≤ bound →
          session.submit bound (toString number) = (.evaluated "" (.value (.integer word)),
            { session with state := { session.state with printed := "" } }) := by
  refine ⟨fun text h => Program.readsNumeral h, fun number h => ?_⟩
  obtain ⟨first, calculation, htext, hexact, hheight, hright⟩ := Program.ofText_toString h
  have hrange : Calculation.InRange number := by
    unfold Calculation.InRange
    omega
  obtain ⟨word, -, hword⟩ := word?_eq_some hrange
  refine ⟨word, hword, ?_, fun bound session hbound => ?_⟩
  · rw [Value.text, hword]
  · exact Session.submit_calculation htext hright (hword.trans hexact.symm) (by omega) session

open scoped Host in
/-- The largest integer with zeros in front of it, one more than it, and its negative. -/
theorem numerals_read_limit :
    (Text.IsNumeral "009223372036854775807".toList ∧
      (Program.read "009223372036854775807").errors = []) ∧
    (Text.IsNumeral "9223372036854775808".toList ∧
      Program.read "9223372036854775808" =
        ⟨⟨[]⟩, [.parse (.integerRange "9223372036854775808") .start]⟩) ∧
    (-9223372036854775807 : Int).natAbs ≤ 2 ^ 63 - 1 ∧
      ((Session.new .standard).submit 3 "-9223372036854775807").1 =
        .evaluated "" (.value (.integer (-9223372036854775807))) := by
  have hlargest : Text.IsNumeral "009223372036854775807".toList := by decide
  have hbeyond : Text.IsNumeral "9223372036854775808".toList := by decide
  have hrange : (-9223372036854775807 : Int).natAbs ≤ 2 ^ 63 - 1 := by decide
  refine ⟨⟨hlargest, ?_⟩, ⟨hbeyond, ?_⟩, hrange, ?_⟩
  · exact (numerals_read.1 _ hlargest).accepted.2 (.inl (by decide +kernel))
  · refine (numerals_read.1 _ hbeyond).rejected fun herrors => ?_
    exact absurd ((numerals_read.1 _ hbeyond).accepted.1 herrors) (by decide +kernel)
  · obtain ⟨word, hword, -, hsubmit⟩ := numerals_read.2 _ hrange
    have hnegative : word = -9223372036854775807 := Int64.toInt_inj.1 hword
    rw [← hnegative]
    exact congrArg Prod.fst (hsubmit 3 (Session.new .standard) (Nat.le_refl 3))

end Script
