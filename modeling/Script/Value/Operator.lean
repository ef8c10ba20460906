import Script.Value.Key

/-!
# Operators

Integer arithmetic is exact or a fault: a result out of the 64-bit range never wraps. Two
numbers of which one is a float are computed as floats. Comparison is defined for numbers.
-/

namespace Script

/-- A whole number as a 64-bit integer, if it is in range. -/
def word? (n : Int) : Option Int64 :=
  if Int64.minValue.toInt ≤ n ∧ n ≤ Int64.maxValue.toInt then some (.ofInt n) else none

/-- The integer of a number in range is that number. -/
theorem toInt_of_word? {n : Int} {w : Int64} (h : word? n = some w) : w.toInt = n := by
  unfold word? at h
  split at h
  · next range =>
    cases h
    rw [Int64.toInt_minValue, Int64.toInt_maxValue] at range
    exact Int64.toInt_ofInt_of_le (by omega) (by omega)
  · cases h

variable [Host]

namespace Value

/-- Whether one of the elements equals the needle. -/
def anyEqual (needle : Value) (elements : List Value) : Bool :=
  elements.any (·.equal needle)

/-- Whether the needle is a key of a hash, equals an element of an array, or is a character of
a string. -/
def contains (collection needle : Value) : Except Fault Bool :=
  match collection with
  | hash _ entries =>
    match needle.hashKey? with
    | some key => .ok (Entry.find? key entries).isSome
    | none => .ok false
  | array _ elements => .ok (anyEqual needle elements)
  | string text =>
    match needle with
    | string part =>
      match part.toList with
      | [c] => .ok (text.toList.contains c)
      | _ => .ok false
    | _ => .ok false
  | _ => .error (.membership collection.kind)

/-- The double nearest to a number. -/
def float? : Value → Option Binary64
  | integer a => some (.ofInt a.toInt)
  | float x => some x
  | _ => none

/-- The doubles that two numbers are computed as. -/
def floats? (left right : Value) : Option (Binary64 × Binary64) :=
  match left.float?, right.float? with
  | some x, some y => some (x, y)
  | _, _ => none

/-- An arithmetic operator on integers by its exact result, and otherwise on doubles. -/
def arithmetic (operator : BinaryOperator) (exact : Int → Int → Int)
    (rounded : Float → Float → Float) (left right : Value) : Except Fault Value :=
  match left, right with
  | integer a, integer b =>
    match word? (exact a.toInt b.toInt) with
    | some n => .ok (integer n)
    | none => .error (.overflow a operator b)
  | _, _ =>
    match floats? left right with
    | some (x, y) => .ok (float (Binary64.operate operator rounded x y))
    | none => .error (.operands left.kind operator right.kind)

/-- Addition of numbers, and concatenation of strings. -/
def add (left right : Value) : Except Fault Value :=
  match left, right with
  | string s, string t => .ok (string (s ++ t))
  | _, _ => arithmetic .add (· + ·) (· + ·) left right

/-- Subtraction of numbers. -/
def subtract (left right : Value) : Except Fault Value :=
  arithmetic .subtract (· - ·) (· - ·) left right

/-- Multiplication of numbers. -/
def multiply (left right : Value) : Except Fault Value :=
  arithmetic .multiply (· * ·) (· * ·) left right

/-- Whether a value is the number zero. -/
def isZero : Value → Bool
  | integer b => b = 0
  | float y => Binary64.isZero y
  | _ => false

/-- Division of numbers, of integers toward zero. -/
def divide (left right : Value) : Except Fault Value :=
  if right.isZero && (floats? left right).isSome then
    .error .divisionByZero
  else
    arithmetic .divide Int.tdiv (· / ·) left right

/-- The order of two numbers, nothing in it if one of them is not a number. An integer beside a
double is compared as a double. -/
def order? (left right : Value) : Option (Option Ordering) :=
  match left, right with
  | integer a, integer b => some (some (compare a.toInt b.toInt))
  | _, _ => (floats? left right).map fun (x, y) => Binary64.order? x y

/-- A comparison that holds for the orders in `holds`. -/
def comparison (operator : BinaryOperator) (holds : Ordering → Bool) (left right : Value) :
    Except Fault Value :=
  match order? left right with
  | some order => .ok (boolean (order.any holds))
  | none => .error (.operands left.kind operator right.kind)

/-- The negative of a number. -/
def negate : Value → Except Fault Value
  | integer a =>
    match word? (-a.toInt) with
    | some n => .ok (integer n)
    | none => .error (.negationOverflow a)
  | float x => .ok (float x.negate)
  | value => .error (.negation value.kind)

/-- The negation of a condition. -/
def not (value : Value) : Value :=
  boolean (!value.truthy)

end Value

/-- The value of an operator for its operand. -/
def UnaryOperator.apply (operator : UnaryOperator) (operand : Value) : Except Fault Value :=
  match operator with
  | .negate => operand.negate
  | .not => .ok operand.not

/-- The value of an operator for its operands. -/
def BinaryOperator.apply (operator : BinaryOperator) (left right : Value) : Except Fault Value :=
  match operator with
  | .equal => .ok (.boolean (left.equal right))
  | .notEqual => .ok (.boolean (!left.equal right))
  | .and => .ok (.boolean (left.truthy && right.truthy))
  | .or => .ok (.boolean (left.truthy || right.truthy))
  | .member => do
    let found ← right.contains left
    pure (.boolean found)
  | .less => Value.comparison .less Ordering.isLT left right
  | .lessEqual => Value.comparison .lessEqual Ordering.isLE left right
  | .greater => Value.comparison .greater Ordering.isGT left right
  | .greaterEqual => Value.comparison .greaterEqual Ordering.isGE left right
  | .add => left.add right
  | .subtract => left.subtract right
  | .multiply => left.multiply right
  | .divide => left.divide right

end Script
