import Mathlib.Data.List.Forall2
import Mathlib.Data.Option.Basic
import Script.Value.Operator
import Script.Value.Sequence

/-!
# Values that are alike

Two runs that are compared need not work on the same values: their functions may come from texts
that differ in their places. A `Likeness` says which pieces of code stand for each other; values are
alike when they differ in such pieces only. The language cannot tell alike values apart: they have
the same text, the same keys and the same comparisons, and operators take them to alike results.
-/

namespace Script

/-- Which pieces of code stand for each other. -/
structure Likeness where
  /-- Places that stand for each other. -/
  place : Location → Location → Prop
  /-- Expressions that stand for each other. -/
  expr : Expr → Expr → Prop
  /-- Statements that stand for each other. -/
  statement : Statement → Statement → Prop
  /-- Functions that stand for each other, as they are written. -/
  literal : FunctionLiteral → FunctionLiteral → Prop

namespace Likeness

variable (L : Likeness)

/-- The same name, at places that stand for each other. -/
def name (first second : Identifier) : Prop :=
  first.name = second.name ∧ L.place first.location second.location

/-- A key and a value that stand for those of another pair. -/
def pair (first second : Pair) : Prop :=
  L.expr first.key second.key ∧ L.expr first.value second.value

/-- Statements that stand for each other, one by one. -/
def block (first second : Block) : Prop :=
  List.Forall₂ L.statement first.statements second.statements

end Likeness

/-- Expressions of the same form whose parts stand for each other. -/
inductive Expr.SameForm (L : Likeness) : Expr → Expr → Prop where
  | identifier {name name'} :
    L.name name name' → SameForm L (.identifier name) (.identifier name')
  | integer {place place' digits digits' value} :
    SameForm L (.integer place digits value) (.integer place' digits' value)
  | float {place place' digits digits' value} :
    SameForm L (.float place digits value) (.float place' digits' value)
  | boolean {place place' value} : SameForm L (.boolean place value) (.boolean place' value)
  | string {place place' value} : SameForm L (.string place value) (.string place' value)
  | array {place place' elements elements'} :
    List.Forall₂ L.expr elements elements' →
    SameForm L (.array place elements) (.array place' elements')
  | hash {place place' pairs pairs'} :
    List.Forall₂ L.pair pairs pairs' → SameForm L (.hash place pairs) (.hash place' pairs')
  | function {literal literal'} :
    L.literal literal literal' → SameForm L (.function literal) (.function literal')
  | unary {place place' operator operand operand'} :
    L.expr operand operand' →
    SameForm L (.unary place operator operand) (.unary place' operator operand')
  | binary {place place' left left' operator right right'} :
    L.expr left left' → L.expr right right' →
    SameForm L (.binary place left operator right) (.binary place' left' operator right')
  | assign {place place' target target' value value'} :
    L.name target target' → L.expr value value' →
    SameForm L (.assign place target value) (.assign place' target' value')
  | index {place place' collection collection' index index'} :
    L.expr collection collection' → L.expr index index' →
    SameForm L (.index place collection index) (.index place' collection' index')
  | call {place place' callee callee' arguments arguments'} :
    L.place place place' → L.expr callee callee' → List.Forall₂ L.expr arguments arguments' →
    SameForm L (.call place callee arguments) (.call place' callee' arguments')
  | conditional {place place' condition condition' consequence consequence' alternative
      alternative'} :
    L.expr condition condition' → L.block consequence consequence' →
    Option.Rel L.block alternative alternative' →
    SameForm L (.conditional place condition consequence alternative)
      (.conditional place' condition' consequence' alternative')

/-- Statements of the same form whose parts stand for each other. -/
inductive Statement.SameForm (L : Likeness) : Statement → Statement → Prop where
  | letBinding {place place' target target' value value'} :
    target.name = target'.name → L.expr value value' →
    SameForm L (.letBinding place target value) (.letBinding place' target' value')
  | returnValue {place place' value value'} :
    L.expr value value' → SameForm L (.returnValue place value) (.returnValue place' value')
  | expression {first first' value value'} :
    L.expr value value' → SameForm L (.expression first value) (.expression first' value')
  | forLoop {place place' element element' iterable iterable' body body'} :
    element.name = element'.name → L.expr iterable iterable' → L.block body body' →
    SameForm L (.forLoop place element iterable body) (.forLoop place' element' iterable' body')
  | whileLoop {place place' condition condition' body body'} :
    L.expr condition condition' → L.block body body' →
    SameForm L (.whileLoop place condition body) (.whileLoop place' condition' body')
  | breakLoop {place place'} :
    L.place place place' → SameForm L (.breakLoop place) (.breakLoop place')
  | continueLoop {place place'} :
    L.place place place' → SameForm L (.continueLoop place) (.continueLoop place')
  | tryCatch {place place' body body' error error' handler handler' finalizer finalizer'} :
    L.block body body' → error.name = error'.name → L.block handler handler' →
    Option.Rel L.block finalizer finalizer' →
    SameForm L (.tryCatch place body error handler finalizer)
      (.tryCatch place' body' error' handler' finalizer')

/-- Functions with the same name and the same parameters, whose bodies stand for each other. -/
structure FunctionLiteral.SameForm (L : Likeness) (first second : FunctionLiteral) : Prop where
  name : first.name = second.name
  parameters : first.parameters.map Identifier.name = second.parameters.map Identifier.name
  body : L.block first.body second.body

/-- Pieces of code that stand for each other have the same form. -/
structure Likeness.Lawful (L : Likeness) : Prop where
  expr {first second : Expr} : L.expr first second → first.SameForm L second
  statement {first second : Statement} : L.statement first second → first.SameForm L second
  literal {first second : FunctionLiteral} : L.literal first second → first.SameForm L second

mutual

/-- Values that differ in functions that stand for each other, and in nothing else. -/
inductive Value.Alike (L : Likeness) : Value → Value → Prop where
  | integer {value} : Value.Alike L (.integer value) (.integer value)
  | float {value} : Value.Alike L (.float value) (.float value)
  | string {value} : Value.Alike L (.string value) (.string value)
  | boolean {value} : Value.Alike L (.boolean value) (.boolean value)
  | array {identity elements elements'} :
    List.Forall₂ (Value.Alike L) elements elements' →
    Value.Alike L (.array identity elements) (.array identity elements')
  | hash {identity entries entries'} :
    List.Forall₂ (Entry.Alike L) entries entries' →
    Value.Alike L (.hash identity entries) (.hash identity entries')
  | null : Value.Alike L .null .null
  | function {identity closure literal literal'} :
    L.literal literal literal' →
    Value.Alike L (.function identity closure literal) (.function identity closure literal')
  | builtin {function} : Value.Alike L (.builtin function) (.builtin function)
  | error {identity fault} : Value.Alike L (.error identity fault) (.error identity fault)

/-- Entries with alike keys and alike values, filed under the same hash key. -/
inductive Entry.Alike (L : Likeness) : Entry → Entry → Prop where
  | mk {hashKey key key' value value'} :
    Value.Alike L key key' → Value.Alike L value value' →
    Entry.Alike L ⟨hashKey, key, value⟩ ⟨hashKey, key', value'⟩

end

variable {L : Likeness}

/-! ## Likeness as a relation -/

mutual

/-- A value is alike to itself if functions stand for themselves. -/
theorem Value.Alike.refl (hrefl : ∀ literal, L.literal literal literal) :
    (value : Value) → value.Alike L value
  | .integer _ => .integer
  | .float _ => .float
  | .string _ => .string
  | .boolean _ => .boolean
  | .array _ elements => .array (Value.Alike.reflAll hrefl elements)
  | .hash _ entries => .hash (Entry.Alike.reflAll hrefl entries)
  | .null => .null
  | .function _ _ literal => .function (hrefl literal)
  | .builtin _ => .builtin
  | .error _ _ => .error
termination_by structural value => value

theorem Value.Alike.reflAll (hrefl : ∀ literal, L.literal literal literal) :
    (values : List Value) → List.Forall₂ (Value.Alike L) values values
  | [] => .nil
  | value :: rest => .cons (Value.Alike.refl hrefl value) (Value.Alike.reflAll hrefl rest)
termination_by structural values => values

theorem Entry.Alike.refl (hrefl : ∀ literal, L.literal literal literal) :
    (entry : Entry) → entry.Alike L entry
  | ⟨_, key, value⟩ => .mk (Value.Alike.refl hrefl key) (Value.Alike.refl hrefl value)
termination_by structural entry => entry

theorem Entry.Alike.reflAll (hrefl : ∀ literal, L.literal literal literal) :
    (entries : List Entry) → List.Forall₂ (Entry.Alike L) entries entries
  | [] => .nil
  | entry :: rest => .cons (Entry.Alike.refl hrefl entry) (Entry.Alike.reflAll hrefl rest)
termination_by structural entries => entries

end

mutual

/-- Alike values are equal if functions stand for nothing but themselves. -/
theorem Value.Alike.eq (hL : ∀ {first second}, L.literal first second → first = second) :
    (value : Value) → {other : Value} → value.Alike L other → value = other
  | .integer _, _, .integer | .float _, _, .float | .string _, _, .string
  | .boolean _, _, .boolean | .null, _, .null | .builtin _, _, .builtin
  | .error _ _, _, .error => rfl
  | .array _ elements, _, .array h => by rw [Value.Alike.eqAll hL elements h]
  | .hash _ entries, _, .hash h => by rw [Entry.Alike.eqAll hL entries h]
  | .function _ _ _, _, .function h => by rw [hL h]
termination_by structural value => value

theorem Value.Alike.eqAll (hL : ∀ {first second}, L.literal first second → first = second) :
    (values : List Value) → {others : List Value} →
      List.Forall₂ (Value.Alike L) values others → values = others
  | [], _, .nil => rfl
  | value :: rest, _, .cons h hrest => by
      rw [Value.Alike.eq hL value h, Value.Alike.eqAll hL rest hrest]
termination_by structural values => values

theorem Entry.Alike.eq (hL : ∀ {first second}, L.literal first second → first = second) :
    (entry : Entry) → {other : Entry} → entry.Alike L other → entry = other
  | ⟨_, key, value⟩, _, .mk hkey hvalue => by
      rw [Value.Alike.eq hL key hkey, Value.Alike.eq hL value hvalue]
termination_by structural entry => entry

theorem Entry.Alike.eqAll (hL : ∀ {first second}, L.literal first second → first = second) :
    (entries : List Entry) → {others : List Entry} →
      List.Forall₂ (Entry.Alike L) entries others → entries = others
  | [], _, .nil => rfl
  | entry :: rest, _, .cons h hrest => by
      rw [Entry.Alike.eq hL entry h, Entry.Alike.eqAll hL rest hrest]
termination_by structural entries => entries

end

/-! ## What alike values have in common -/

theorem FunctionLiteral.SameForm.signature_eq {first second : FunctionLiteral}
    (h : first.SameForm L second) : first.signature = second.signature := by
  simp only [FunctionLiteral.signature, h.name, h.parameters]

theorem FunctionLiteral.SameForm.length_eq {first second : FunctionLiteral}
    (h : first.SameForm L second) : first.parameters.length = second.parameters.length := by
  simpa only [List.length_map] using congrArg List.length h.parameters

mutual

/-- Alike values are shown alike. -/
theorem Value.Alike.text_eq (hL : L.Lawful) :
    (value : Value) → {other : Value} → value.Alike L other → value.text = other.text
  | .integer _, _, .integer | .float _, _, .float | .string _, _, .string
  | .boolean _, _, .boolean | .null, _, .null | .builtin _, _, .builtin
  | .error _ _, _, .error => rfl
  | .array _ elements, _, .array h => by
      rw [Value.text, Value.text, Value.Alike.texts_eq hL elements h]
  | .hash _ entries, _, .hash h => by
      rw [Value.text, Value.text, Entry.Alike.texts_eq hL entries h]
  | .function _ _ _, _, .function h => (hL.literal h).signature_eq
termination_by structural value => value

theorem Value.Alike.texts_eq (hL : L.Lawful) :
    (values : List Value) → {others : List Value} →
      List.Forall₂ (Value.Alike L) values others → Value.texts values = Value.texts others
  | [], _, .nil => rfl
  | value :: rest, _, .cons h hrest => by
      rw [Value.texts, Value.texts, Value.Alike.text_eq hL value h,
        Value.Alike.texts_eq hL rest hrest]
termination_by structural values => values

theorem Entry.Alike.text_eq (hL : L.Lawful) :
    (entry : Entry) → {other : Entry} → entry.Alike L other → entry.text = other.text
  | ⟨_, key, value⟩, _, .mk hkey hvalue => by
      rw [Entry.text, Entry.text, Value.Alike.text_eq hL key hkey,
        Value.Alike.text_eq hL value hvalue]
termination_by structural entry => entry

theorem Entry.Alike.texts_eq (hL : L.Lawful) :
    (entries : List Entry) → {others : List Entry} →
      List.Forall₂ (Entry.Alike L) entries others → Entry.texts entries = Entry.texts others
  | [], _, .nil => rfl
  | entry :: rest, _, .cons h hrest => by
      rw [Entry.texts, Entry.texts, Entry.Alike.text_eq hL entry h,
        Entry.Alike.texts_eq hL rest hrest]
termination_by structural entries => entries

end

/-- The texts of several values, as they are shown in a row. -/
theorem Value.Alike.joined_eq (hL : L.Lawful) (separator : String) {values values' : List Value}
    (h : List.Forall₂ (Value.Alike L) values values') :
    separator.intercalate (values.map Value.text) =
      separator.intercalate (values'.map Value.text) := by
  congr 1
  induction h with
  | nil => rfl
  | cons hfirst _ ih => rw [List.map_cons, List.map_cons, hfirst.text_eq hL, ih]

namespace Value.Alike

variable {value value' left left' right right' : Value}

theorem kind_eq (h : value.Alike L value') : value.kind = value'.kind := by
  cases h <;> rfl

theorem truthy_eq (h : value.Alike L value') : value.truthy = value'.truthy := by
  cases h with
  | array h => cases h <;> rfl
  | hash h => cases h <;> rfl
  | _ => rfl

theorem hashKey?_eq [Host] (h : value.Alike L value') : value.hashKey? = value'.hashKey? := by
  cases h <;> rfl

theorem equal_eq (hleft : left.Alike L left') (hright : right.Alike L right') :
    left.equal right = left'.equal right' := by
  cases hleft <;> cases hright <;> rfl

theorem floats?_eq (hleft : left.Alike L left') (hright : right.Alike L right') :
    Value.floats? left right = Value.floats? left' right' := by
  cases hleft <;> cases hright <;> rfl

theorem order?_eq (hleft : left.Alike L left') (hright : right.Alike L right') :
    Value.order? left right = Value.order? left' right' := by
  cases hleft <;> cases hright <;> rfl

theorem arithmetic_eq [Host] {operator : BinaryOperator} {exact : Int → Int → Int}
    {rounded : Float → Float → Float} (hleft : left.Alike L left') (hright : right.Alike L right') :
    Value.arithmetic operator exact rounded left right =
      Value.arithmetic operator exact rounded left' right' := by
  cases hleft <;> cases hright <;> rfl

theorem anyEqual_eq {elements elements' : List Value} (h : value.Alike L value')
    (helements : List.Forall₂ (Value.Alike L) elements elements') :
    value.anyEqual elements = value'.anyEqual elements' := by
  induction helements with
  | nil => rfl
  | cons hfirst _ ih =>
      simp only [Value.anyEqual, List.any_cons] at ih ⊢
      rw [hfirst.equal_eq h, ih]

end Value.Alike

/-! ## Entries -/

namespace Entry.Alike

variable {hashKey : HashKey} {entry entry' : Entry} {entries entries' : List Entry}

theorem key (h : entry.Alike L entry') : entry.key.Alike L entry'.key := by
  cases h with
  | mk hkey _ => exact hkey

theorem value (h : entry.Alike L entry') : entry.value.Alike L entry'.value := by
  cases h with
  | mk _ hvalue => exact hvalue

theorem hashKey_eq (h : entry.Alike L entry') : entry.hashKey = entry'.hashKey := by
  cases h
  rfl

theorem filedUnder_eq (h : entry.Alike L entry') :
    entry.filedUnder hashKey = entry'.filedUnder hashKey := by
  simp only [Entry.filedUnder, h.hashKey_eq]

/-- What is filed under a key in alike hashes is alike. -/
theorem find? (h : List.Forall₂ (Entry.Alike L) entries entries') :
    Option.Rel (Entry.Alike L) (Entry.find? hashKey entries) (Entry.find? hashKey entries') := by
  induction h with
  | nil => exact .none
  | cons hfirst _ ih =>
      simp only [Entry.find?, List.find?_cons] at ih ⊢
      rw [hfirst.filedUnder_eq]
      split
      · exact .some hfirst
      · exact ih

theorem insert (hentry : entry.Alike L entry') (h : List.Forall₂ (Entry.Alike L) entries entries') :
    List.Forall₂ (Entry.Alike L) (Entry.insert entry entries) (Entry.insert entry' entries') := by
  induction h with
  | nil => exact .cons hentry .nil
  | cons hfirst hrest ih =>
      simp only [Entry.insert]
      rw [hentry.hashKey_eq, hfirst.filedUnder_eq]
      split
      · exact .cons hentry hrest
      · exact .cons hfirst ih

theorem erase (h : List.Forall₂ (Entry.Alike L) entries entries') :
    List.Forall₂ (Entry.Alike L) (Entry.erase hashKey entries) (Entry.erase hashKey entries') := by
  induction h with
  | nil => exact .nil
  | @cons first first' _ _ hfirst hrest ih =>
      have hsame : first.filedUnder hashKey = first'.filedUnder hashKey := hfirst.filedUnder_eq
      simp only [Entry.erase] at ih ⊢
      cases hfiled : first.filedUnder hashKey with
      | true =>
          rw [List.eraseP_cons_of_pos hfiled, List.eraseP_cons_of_pos (hsame ▸ hfiled)]
          exact hrest
      | false =>
          rw [List.eraseP_cons_of_neg (by simp [hfiled]),
            List.eraseP_cons_of_neg (by simp [← hsame, hfiled])]
          exact .cons hfirst ih

end Entry.Alike

/-! ## Operators -/

/-- The same fault, or alike values. -/
inductive Value.SameResult (L : Likeness) : Except Fault Value → Except Fault Value → Prop where
  | ok {value value'} : value.Alike L value' → SameResult L (.ok value) (.ok value')
  | error {fault} : SameResult L (.error fault) (.error fault)

namespace Value.SameResult

variable {left left' right right' : Value}

theorem arithmetic [Host] {operator : BinaryOperator} {exact : Int → Int → Int}
    {rounded : Float → Float → Float} (hleft : left.Alike L left') (hright : right.Alike L right') :
    SameResult L (Value.arithmetic operator exact rounded left right)
      (Value.arithmetic operator exact rounded left' right') := by
  rw [← hleft.arithmetic_eq hright]
  unfold Value.arithmetic
  split
  · split
    · exact .ok .integer
    · exact .error
  · split
    · exact .ok .float
    · exact .error

theorem add [Host] (hleft : left.Alike L left') (hright : right.Alike L right') :
    SameResult L (left.add right) (left'.add right') := by
  have hnumbers : SameResult L (Value.arithmetic .add (· + ·) (· + ·) left right)
      (Value.arithmetic .add (· + ·) (· + ·) left' right') := arithmetic hleft hright
  -- strings are put together, and anything else is computed
  cases hleft with
  | string =>
      cases hright with
      | string => exact .ok .string
      | _ => exact hnumbers
  | _ => exact hnumbers

theorem divide [Host] (hleft : left.Alike L left') (hright : right.Alike L right') :
    SameResult L (left.divide right) (left'.divide right') := by
  have hzero : right.isZero = right'.isZero := by cases hright <;> rfl
  unfold Value.divide
  rw [hzero, hleft.floats?_eq hright]
  split
  · exact .error
  · exact arithmetic hleft hright

theorem comparison {operator : BinaryOperator} {holds : Ordering → Bool}
    (hleft : left.Alike L left') (hright : right.Alike L right') :
    SameResult L (Value.comparison operator holds left right)
      (Value.comparison operator holds left' right') := by
  unfold Value.comparison
  rw [hleft.order?_eq hright, hleft.kind_eq, hright.kind_eq]
  split
  · exact .ok .boolean
  · exact .error

theorem negate {operand operand' : Value} (h : operand.Alike L operand') :
    SameResult L operand.negate operand'.negate := by
  cases h with
  | integer =>
      unfold Value.negate
      dsimp only
      split
      · exact .ok .integer
      · exact .error
  | float => exact .ok .float
  | _ => exact .error

/-- An operator gives the same result for operands that are alike. -/
theorem unary {operator : UnaryOperator} {operand operand' : Value} (h : operand.Alike L operand') :
    SameResult L (operator.apply operand) (operator.apply operand') := by
  cases operator with
  | negate => exact negate h
  | not =>
      simp only [UnaryOperator.apply, Value.not, h.truthy_eq]
      exact .ok .boolean

end Value.SameResult

/-- Alike collections contain alike values. -/
theorem Value.Alike.contains_eq [Host] {collection collection' needle needle' : Value}
    (hcollection : collection.Alike L collection') (hneedle : needle.Alike L needle') :
    collection.contains needle = collection'.contains needle' := by
  cases hcollection with
  | @hash _ entries entries' hentries =>
      simp only [Value.contains, hneedle.hashKey?_eq]
      split
      · next key _ =>
          have hfound : Option.Rel (Entry.Alike L) (Entry.find? key entries)
            (Entry.find? key entries') := Entry.Alike.find? hentries
          generalize Entry.find? key entries = entry, Entry.find? key entries' = entry' at hfound ⊢
          cases hfound <;> rfl
      · rfl
  | array helements => simp only [Value.contains, hneedle.anyEqual_eq helements]
  | string => cases hneedle <;> rfl
  | _ => rfl

/-- An operator gives the same result for operands that are alike. -/
theorem Value.SameResult.binary [Host] {operator : BinaryOperator}
    {left left' right right' : Value}
    (hleft : left.Alike L left') (hright : right.Alike L right') :
    SameResult L (operator.apply left right) (operator.apply left' right') := by
  cases operator with
  | equal | notEqual =>
      simp only [BinaryOperator.apply, hleft.equal_eq hright]
      exact .ok .boolean
  | and | or =>
      simp only [BinaryOperator.apply, hleft.truthy_eq, hright.truthy_eq]
      exact .ok .boolean
  | member =>
      simp only [BinaryOperator.apply, hright.contains_eq hleft]
      cases right'.contains left' with
      | ok found => exact .ok .boolean
      | error fault => exact .error
  | less | lessEqual | greater | greaterEqual => exact comparison hleft hright
  | add => exact add hleft hright
  | subtract | multiply => exact arithmetic hleft hright
  | divide => exact divide hleft hright

/-! ## Sequences -/

namespace Value.Alike

/-- Strings of one character. -/
theorem characters (chars : List Char) :
    List.Forall₂ (Value.Alike L) (chars.map Value.character) (chars.map Value.character) := by
  rw [List.forall₂_map_left_iff, List.forall₂_map_right_iff, List.forall₂_same]
  exact fun _ _ => .string

theorem keys {entries entries' : List Entry} (h : List.Forall₂ (Entry.Alike L) entries entries') :
    List.Forall₂ (Value.Alike L) (entries.map Entry.key) (entries'.map Entry.key) := by
  rw [List.forall₂_map_left_iff, List.forall₂_map_right_iff]
  exact h.imp fun _ _ => Entry.Alike.key

theorem values {entries entries' : List Entry} (h : List.Forall₂ (Entry.Alike L) entries entries') :
    List.Forall₂ (Value.Alike L) (entries.map Entry.value) (entries'.map Entry.value) := by
  rw [List.forall₂_map_left_iff, List.forall₂_map_right_iff]
  exact h.imp fun _ _ => Entry.Alike.value

/-- The keys of entries, each with its value. -/
theorem keysAndValues {entries entries' : List Entry}
    (h : List.Forall₂ (Entry.Alike L) entries entries') :
    List.Forall₂ (Value.Alike L) (entries.flatMap fun entry => [entry.key, entry.value])
      (entries'.flatMap fun entry => [entry.key, entry.value]) := by
  induction h with
  | nil => exact .nil
  | cons hfirst _ ih =>
      rw [List.flatMap_cons, List.flatMap_cons]
      exact .cons hfirst.key (.cons hfirst.value ih)

/-- Alike values are iterated over alike elements. -/
theorem elements? {value value' : Value} (h : value.Alike L value') :
    Option.Rel (List.Forall₂ (Value.Alike L)) value.elements? value'.elements? := by
  cases h with
  | string => exact .some (characters _)
  | array helements => exact .some helements
  | hash hentries => exact .some (keys hentries)
  | _ => exact .none

theorem elementAt {elements elements' : List Value} (place : Int64)
    (h : List.Forall₂ (Value.Alike L) elements elements') :
    (Value.elementAt elements place).Alike L (Value.elementAt elements' place) := by
  have hat : ∀ place : Nat, ((elements[place]?).getD .null).Alike L
      ((elements'[place]?).getD .null) := by
    induction h with
    | nil => exact fun _ => .null
    | cons hfirst _ ih =>
        intro place
        cases place with
        | zero => exact hfirst
        | succ place => exact ih place
  unfold Value.elementAt
  split
  · exact .null
  · exact hat _

end Value.Alike

/-- Alike collections have alike elements at the same places and under the same keys. -/
theorem Value.SameResult.index [Host] {collection collection' place place' : Value}
    (hcollection : collection.Alike L collection') (hplace : place.Alike L place') :
    SameResult L (collection.index place) (collection'.index place') := by
  have hindexing : ∀ {kind : Kind}, SameResult L (.error (.indexing kind place.kind))
      (.error (.indexing kind place'.kind)) := by
    rw [hplace.kind_eq]
    exact .error
  cases hcollection with
  | array helements =>
      cases hplace with
      | integer => exact .ok (.elementAt _ helements)
      | _ => exact hindexing
  | string =>
      cases hplace with
      | integer => exact .ok (.elementAt _ (Value.Alike.characters _))
      | _ => exact hindexing
  | @hash _ entries entries' hentries =>
      simp only [Value.index, hplace.hashKey?_eq, hplace.kind_eq]
      split
      · next key _ =>
          have hfound : Option.Rel (Entry.Alike L) (Entry.find? key entries)
            (Entry.find? key entries') := Entry.Alike.find? hentries
          generalize Entry.find? key entries = entry, Entry.find? key entries' = entry' at hfound ⊢
          cases hfound with
          | some hentry => exact .ok hentry.value
          | none => exact .ok .null
      · exact .error
  | _ => exact hindexing

end Script
