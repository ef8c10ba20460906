import Script.Proofs.Evaluation.Membership

/-!
# Exact arithmetic

A calculation is an expression of integer literals, signs and the four operators of arithmetic. Its
value is the exact one, as long as every intermediate result is a 64-bit integer and nothing is
divided by zero. Otherwise the first operation at which this fails, with operands before operators
and from left to right, is the fault of the whole calculation: `calculations_exact`.
-/

namespace Script

/-- The operators of arithmetic. -/
inductive ArithmeticOperator where
  | add | subtract | multiply | divide
deriving DecidableEq, Repr

namespace ArithmeticOperator

/-- The operator in programs. -/
def operator : ArithmeticOperator → BinaryOperator
  | add => .add
  | subtract => .subtract
  | multiply => .multiply
  | divide => .divide

/-- How messages write the operator. -/
def symbol : ArithmeticOperator → String
  | add => "+"
  | subtract => "-"
  | multiply => "*"
  | divide => "/"

/-- The result for whole numbers; division truncates toward zero. -/
def exact : ArithmeticOperator → Int → Int → Int
  | add, left, right => left + right
  | subtract, left, right => left - right
  | multiply, left, right => left * right
  | divide, left, right => left.tdiv right

end ArithmeticOperator

/-- Expressions of integer literals, signs and operators of arithmetic. -/
inductive Calculation where
  | literal (location : Location) (digits : String) (value : Int64)
  | negate (location : Location) (operand : Calculation)
  | operate (location : Location) (left : Calculation) (operator : ArithmeticOperator)
      (right : Calculation)

namespace Calculation

/-- The expression of a program. -/
def expr : Calculation → Expr
  | literal location digits value => .integer location digits value
  | negate location operand => .unary location .negate operand.expr
  | operate location left operator right =>
    .binary location left.expr operator.operator right.expr

/-- The value over all whole numbers. -/
def exact : Calculation → Int
  | literal _ _ value => value.toInt
  | negate _ operand => -operand.exact
  | operate _ left operator right => operator.exact left.exact right.exact

/-- The number of operations around the innermost literal. -/
def height : Calculation → Nat
  | literal _ _ _ => 0
  | negate _ operand => operand.height + 1
  | operate _ left _ right => max left.height right.height + 1

/-- The parts that are operations, operands first and from left to right. -/
def operations : Calculation → List Calculation
  | literal _ _ _ => []
  | negate location operand => operand.operations ++ [negate location operand]
  | operate location left operator right =>
    left.operations ++ (right.operations ++ [operate location left operator right])

/-- The whole numbers that are 64-bit integers. -/
def InRange (number : Int) : Prop :=
  -2 ^ 63 ≤ number ∧ number < 2 ^ 63

instance (number : Int) : Decidable (InRange number) :=
  inferInstanceAs (Decidable (_ ∧ _))

/-- What is wrong with the last operation of a calculation, if anything is. -/
def offence? : Calculation → Option String
  | literal _ _ _ => none
  | negate _ operand =>
    if InRange (-operand.exact) then none else some s!"Integer overflow: -({operand.exact})"
  | operate _ left operator right =>
    if operator = .divide ∧ right.exact = 0 then
      some "Division by zero"
    else if InRange (operator.exact left.exact right.exact) then
      none
    else
      some s!"Integer overflow: {left.exact} {operator.symbol} {right.exact}"

end Calculation

/-- The evaluation gives the number, or raises a fault with the given message. It leaves the state
alone. -/
def Evaluation.Answers (evaluation : Evaluation Value) (state : State) (number : Int) :
    Option String → Prop
  | none => ∃ word : Int64, word.toInt = number ∧ evaluation state = (.ok (.integer word), state)
  | some message => ∃ fault : Fault, fault.message = message ∧
      evaluation state = (.error (.raised fault), state)

/-- What follows an operand is evaluated only if the operand has a value. -/
theorem Evaluation.Answers.bind {evaluation : Evaluation Value} {next : Value → Evaluation Value}
    {state : State} {operand number : Int} {message message' : Option String}
    (h : evaluation.Answers state operand message)
    (hnext : ∀ word : Int64, word.toInt = operand →
      (next (.integer word)).Answers state number message') :
    (evaluation >>= next).Answers state number (message.or message') := by
  cases message with
  | none =>
      obtain ⟨word, hword, heval⟩ := h
      have heq : (evaluation >>= next) state = next (.integer word) state := by
        rw [bind_apply, heval]
      have hanswer := hnext word hword
      unfold Answers at hanswer ⊢
      rwa [Option.none_or, heq]
  | some message =>
      obtain ⟨fault, hmessage, heval⟩ := h
      refine ⟨fault, hmessage, ?_⟩
      rw [bind_apply, heval]

/-! ## One operation -/

theorem word?_eq_some {number : Int} (h : Calculation.InRange number) :
    ∃ word, word? number = some word ∧ word.toInt = number := by
  have hword : word? number = some (.ofInt number) := by
    rw [word?, if_pos]
    rw [Int64.toInt_minValue, Int64.toInt_maxValue]
    unfold Calculation.InRange at h
    omega
  exact ⟨_, hword, toInt_of_word? hword⟩

theorem word?_eq_none {number : Int} (h : ¬ Calculation.InRange number) : word? number = none := by
  rw [word?, if_neg]
  rw [Int64.toInt_minValue, Int64.toInt_maxValue]
  unfold Calculation.InRange at h
  omega

/-- The negative of a number. -/
theorem Evaluation.answers_negate {operand : Calculation} {word : Int64} (location : Location)
    (hword : word.toInt = operand.exact) (state : State) :
    (ofExcept (Value.negate (.integer word))).Answers state (-operand.exact)
      (Calculation.negate location operand).offence? := by
  rw [Value.negate, hword, Calculation.offence?]
  by_cases hrange : Calculation.InRange (-operand.exact)
  · obtain ⟨result, hresult, hexact⟩ := word?_eq_some hrange
    rw [hresult, if_pos hrange]
    exact ⟨result, hexact, rfl⟩
  · rw [word?_eq_none hrange, if_neg hrange]
    refine ⟨.negationOverflow word, ?_, rfl⟩
    rw [← hword]
    rfl

section Calculations

variable [Host]

/-- An operator of arithmetic computes the exact result, unless a divisor is zero. -/
theorem ArithmeticOperator.apply_integer (operator : ArithmeticOperator) (left right : Int64)
    (h : ¬ (operator = .divide ∧ right.toInt = 0)) :
    operator.operator.apply (.integer left) (.integer right) =
      match word? (operator.exact left.toInt right.toInt) with
      | some word => .ok (.integer word)
      | none => .error (.overflow left operator.operator right) := by
  cases operator with
  | add | subtract | multiply => rfl
  | divide =>
      have hright : right ≠ 0 := fun hzero => h ⟨rfl, by rw [hzero]; rfl⟩
      show Value.divide _ _ = _
      rw [Value.divide, Value.isZero, decide_eq_false hright, Bool.false_and,
        if_neg Bool.false_ne_true]
      rfl

theorem ArithmeticOperator.apply_zero (left right : Int64) (h : right.toInt = 0) :
    ArithmeticOperator.divide.operator.apply (.integer left) (.integer right) =
      .error .divisionByZero := by
  have hright : right = 0 := Int64.toInt_inj.1 h
  rw [hright]
  rfl

namespace Evaluation

/-- The result of an operator. -/
theorem answers_operate {left right : Calculation} {first second : Int64} (location : Location)
    (operator : ArithmeticOperator) (hfirst : first.toInt = left.exact)
    (hsecond : second.toInt = right.exact) (state : State) :
    (ofExcept (operator.operator.apply (.integer first) (.integer second))).Answers state
      (operator.exact left.exact right.exact)
      (Calculation.operate location left operator right).offence? := by
  rw [Calculation.offence?]
  by_cases hzero : operator = .divide ∧ right.exact = 0
  · obtain ⟨rfl, hright⟩ := hzero
    rw [ArithmeticOperator.apply_zero first second (hsecond.trans hright), if_pos ⟨rfl, hright⟩]
    exact ⟨.divisionByZero, rfl, rfl⟩
  · rw [operator.apply_integer first second (by rwa [hsecond]), hfirst, hsecond, if_neg hzero]
    by_cases hrange : Calculation.InRange (operator.exact left.exact right.exact)
    · obtain ⟨result, hresult, hexact⟩ := word?_eq_some hrange
      rw [hresult, if_pos hrange]
      exact ⟨result, hexact, rfl⟩
    · rw [word?_eq_none hrange, if_neg hrange]
      refine ⟨.overflow first operator.operator second, ?_, rfl⟩
      rw [← hfirst, ← hsecond]
      cases operator <;> rfl

end Evaluation

/-- A calculation answers with its exact value, or with the first thing that is wrong. -/
theorem Calculation.evaluate_answers (settings : Settings) (calculation : Calculation)
    {count : Nat} (hcount : calculation.height < count) (state : State) :
    (Expr.evaluate settings count calculation.expr).Answers state calculation.exact
      (calculation.operations.findSome? offence?) := by
  induction calculation generalizing count with
  | literal location digits value =>
      obtain ⟨count, rfl⟩ := Nat.exists_eq_add_one.2 (Nat.zero_lt_of_lt hcount)
      exact ⟨value, rfl, rfl⟩
  | negate location operand ih =>
      obtain ⟨count, rfl⟩ := Nat.exists_eq_add_one.2 (Nat.zero_lt_of_lt hcount)
      rw [operations, List.findSome?_append, List.findSome?_singleton]
      exact (ih (Nat.lt_of_succ_lt_succ hcount)).bind fun word hword =>
        Evaluation.answers_negate location hword state
  | operate location left operator right ihleft ihright =>
      obtain ⟨count, rfl⟩ := Nat.exists_eq_add_one.2 (Nat.zero_lt_of_lt hcount)
      rw [height] at hcount
      rw [operations, List.findSome?_append, List.findSome?_append, List.findSome?_singleton]
      refine (ihleft (by omega)).bind fun first hfirst => ?_
      refine (ihright (by omega)).bind fun second hsecond => ?_
      exact Evaluation.answers_operate location operator hfirst hsecond state

/-- The value of a calculation is the exact one, if no operation is wrong. Otherwise the first
operation that is wrong is the fault of the calculation, with its operands as they are in exact
arithmetic. In both cases the state stays as it is. -/
theorem calculations_exact (settings : Settings) (calculation : Calculation) (count : Nat)
    (hcount : calculation.height < count) (state : State) :
    ((∀ operation ∈ calculation.operations, operation.offence? = none) →
      ∃ word : Int64, word.toInt = calculation.exact ∧
        Expr.evaluate settings count calculation.expr state = (.ok (.integer word), state)) ∧
    ∀ before operation after message,
      calculation.operations = before ++ operation :: after →
      (∀ earlier ∈ before, earlier.offence? = none) → operation.offence? = some message →
      ∃ fault : Fault, fault.message = message ∧
        Expr.evaluate settings count calculation.expr state = (.error (.raised fault), state) := by
  have hanswers := calculation.evaluate_answers settings hcount state
  constructor
  · intro hright
    rwa [List.findSome?_eq_none_iff.2 hright] at hanswers
  · intro before operation after message hoperations hbefore hoperation
    rwa [hoperations, List.findSome?_append, List.findSome?_eq_none_iff.2 hbefore,
      Option.none_or, List.findSome?_cons, hoperation] at hanswers

end Calculations

/-- The smallest integer has no negative. -/
def Calculation.negatedMinimum : Calculation :=
  .negate default (.operate default
    (.negate default (.literal default "9223372036854775807" 9223372036854775807)) .subtract
    (.literal default "1" 1))

open scoped Host in
theorem calculations_exact_negatedMinimum :
    Calculation.negatedMinimum.height < 4 ∧ ∃ fault : Fault,
      fault.message = "Integer overflow: -(-9223372036854775808)" ∧
      Expr.evaluate .standard 4 Calculation.negatedMinimum.expr .initial =
        (.error (.raised fault), .initial) := by
  refine ⟨by decide, ?_⟩
  refine (calculations_exact .standard .negatedMinimum 4 (by decide) .initial).2 _ _ []
    "Integer overflow: -(-9223372036854775808)" rfl ?_ ?_
  · decide
  · decide

end Script
