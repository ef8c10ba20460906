import Script.Proofs.Grammar.Phrase

/-!
# Chains of operators

A chain is a sequence of operands with operators between them; an operand is a name or a literal
with operators in front of it and suffixes behind it. `Expr.reading` reads such a sequence off a
tree, in order, and `Expr.Grouped` says that the tree groups it by precedence, as a condition on
every operator and its operands. `Chain.tree` builds a tree from a chain, one operator after
another; it has the reading of the chain and is grouped.
-/

namespace Script

/-- How tightly an operator between two operands binds. -/
abbrev BinaryOperator.level (operator : BinaryOperator) : Nat :=
  operator.precedence.level

/-! ## Chains -/

/-- What may stand behind an operand. -/
inductive Suffix where
  | call (location : Location) (arguments : List Expr)
  | index (location : Location) (index : Expr)

/-- The tree of an operand and a suffix behind it. -/
def Suffix.on : Suffix → Expr → Expr
  | call location arguments, callee => .call location callee arguments
  | index location position, collection => .index location collection position

/-- The parts of a chain. -/
inductive Symbol where
  /-- A name or a literal. -/
  | primary (expr : Expr)
  /-- An operator in front of its operand. -/
  | sign (location : Location) (operator : UnaryOperator)
  /-- An operator between two operands. -/
  | operator (location : Location) (operator : BinaryOperator)
  | suffix (suffix : Suffix)

/-- A name or a literal, with operators in front of it and suffixes behind it. -/
structure Operand where
  /-- The operators in front, from left to right. -/
  signs : List (Location × UnaryOperator)
  /-- The name or the literal. -/
  primary : Expr
  /-- The suffixes, from left to right. -/
  suffixes : List Suffix

/-- The parts of an operand. -/
def Operand.symbols (operand : Operand) : List Symbol :=
  operand.signs.map (fun sign => .sign sign.1 sign.2) ++
    .primary operand.primary :: operand.suffixes.map .suffix

/-- An operator and the operand behind it. -/
structure Link where
  /-- The place of the operator. -/
  location : Location
  /-- The operator. -/
  operator : BinaryOperator
  /-- The operand behind it. -/
  operand : Operand

/-- The parts of a link. -/
def Link.symbols (link : Link) : List Symbol :=
  .operator link.location link.operator :: link.operand.symbols

/-- Operands with operators between them. -/
structure Chain where
  /-- The first operand. -/
  first : Operand
  /-- The operators and the operands behind them, from left to right. -/
  links : List Link

/-- The parts of a chain. -/
def Chain.symbols (chain : Chain) : List Symbol :=
  chain.first.symbols ++ chain.links.flatMap Link.symbols

/-- A name alone. -/
def Chain.name (name : Identifier) : Chain :=
  ⟨⟨[], .identifier name, []⟩, []⟩

/-! ## Trees -/

namespace Expr

/-- The parts of a tree of operators, in order. Arguments and indices belong to their suffixes. -/
def reading : Expr → List Symbol
  | unary location operator operand => .sign location operator :: operand.reading
  | binary location left operator right =>
    left.reading ++ .operator location operator :: right.reading
  | call location callee arguments => callee.reading ++ [.suffix (.call location arguments)]
  | index location collection position =>
    collection.reading ++ [.suffix (.index location position)]
  | expr => [.primary expr]

/-- The operator between two operands that makes the expression. -/
def rootOperator? : Expr → Option BinaryOperator
  | binary _ _ operator _ => some operator
  | _ => none

/-- Whether an operator in front or between operands makes the expression. -/
def isOperation : Expr → Bool
  | unary _ _ _ | binary _ _ _ _ => true
  | _ => false

/-- Operators are grouped by precedence. An operator to the left binds at least as tightly as the
one above it, an operator to the right more tightly; operators in front bind more tightly than those
between operands, and suffixes more tightly than both. -/
def Grouped : Expr → Prop
  | unary _ _ operand => operand.rootOperator? = none ∧ operand.Grouped
  | binary _ left operator right =>
    (∀ inner ∈ left.rootOperator?, operator.level ≤ inner.level) ∧
      (∀ inner ∈ right.rootOperator?, operator.level < inner.level) ∧
      left.Grouped ∧ right.Grouped
  | call _ callee _ => callee.isOperation = false ∧ callee.Grouped
  | index _ collection _ => collection.isOperation = false ∧ collection.Grouped
  | _ => True

/-- The tree with an operator and an operand behind it: they go to the right of the operators that
bind less tightly. -/
def attach (left : Expr) (location : Location) (operator : BinaryOperator) (right : Expr) : Expr :=
  match left with
  | binary place first outer inner =>
    if outer.level < operator.level then
      .binary place first outer (inner.attach location operator right)
    else
      .binary location (.binary place first outer inner) operator right
  | left => .binary location left operator right

variable {location : Location} {operator : BinaryOperator} {left right : Expr}

theorem attach_reading : (left.attach location operator right).reading =
    left.reading ++ .operator location operator :: right.reading := by
  fun_induction attach left location operator right with
  | case1 place first outer inner _ ih => simp [reading, ih]
  | case2 => rfl
  | case3 => rfl

/-- The root is the new operator, or still the old one. -/
theorem attach_rootOperator? {root : BinaryOperator}
    (h : root ∈ (left.attach location operator right).rootOperator?) :
    root = operator ∨ root ∈ left.rootOperator? := by
  fun_induction attach left location operator right with
  | case1 => exact .inr h
  | case2 | case3 => exact .inl (Option.some.inj h).symm

theorem Grouped.attach (h : left.Grouped) (hright : right.Grouped)
    (hroot : right.rootOperator? = none) : (left.attach location operator right).Grouped := by
  fun_induction Expr.attach left location operator right with
  | case1 place first outer inner hlevel ih =>
      obtain ⟨hfirst, hinner, hgroupedFirst, hgroupedInner⟩ := h
      refine ⟨hfirst, fun root hmem => ?_, hgroupedFirst, ih hgroupedInner⟩
      rcases attach_rootOperator? hmem with rfl | hmem
      · exact hlevel
      · exact hinner root hmem
  | case2 place first outer inner hlevel =>
      refine ⟨?_, by simp [hroot], h, hright⟩
      rintro _ ⟨⟩
      exact Nat.le_of_not_lt hlevel
  | case3 left hnot =>
      refine ⟨?_, by simp [hroot], h, hright⟩
      cases left with
      | binary => exact (hnot _ _ _ _ rfl).elim
      | _ => nofun

/-- Names, and literals of which the digits make a value. -/
def IsPrimary : Expr → Prop
  | identifier _ | string _ _ | boolean _ _ => True
  | integer _ digits value =>
    (Nat.ofDigitChars 10 digits.toList 0 : Int) ≤ Int64.maxValue.toInt ∧
      value = .ofNat (Nat.ofDigitChars 10 digits.toList 0)
  | float _ digits value => Binary64.ofDigits? digits.toList = some value
  | _ => False

theorem IsPrimary.reading {expr : Expr} (h : expr.IsPrimary) : expr.reading = [.primary expr] := by
  cases expr <;> first | rfl | exact h.elim

theorem IsPrimary.grouped {expr : Expr} (h : expr.IsPrimary) : expr.Grouped := by
  cases expr <;> trivial

theorem IsPrimary.isOperation {expr : Expr} (h : expr.IsPrimary) : expr.isOperation = false := by
  cases expr <;> first | rfl | exact h.elim

theorem rootOperator?_of_isOperation {expr : Expr} (h : expr.isOperation = false) :
    expr.rootOperator? = none := by
  cases expr with
  | binary => cases h
  | _ => rfl

/-- The tree of an expression with suffixes behind it. -/
def withSuffixes (expr : Expr) (suffixes : List Suffix) : Expr :=
  suffixes.foldl (fun tree suffix => suffix.on tree) expr

/-- Suffixes stand behind an expression without operators. -/
theorem withSuffixes_grouped {expr : Expr} (hgrouped : expr.Grouped)
    (hsimple : expr.isOperation = false) (suffixes : List Suffix) :
    (expr.withSuffixes suffixes).reading = expr.reading ++ suffixes.map .suffix ∧
      (expr.withSuffixes suffixes).Grouped ∧
      (expr.withSuffixes suffixes).isOperation = false := by
  induction suffixes generalizing expr with
  | nil => exact ⟨(List.append_nil _).symm, hgrouped, hsimple⟩
  | cons suffix suffixes ih =>
      have hon : (suffix.on expr).reading = expr.reading ++ [.suffix suffix] ∧
          (suffix.on expr).Grouped ∧ (suffix.on expr).isOperation = false := by
        cases suffix <;> exact ⟨rfl, ⟨hsimple, hgrouped⟩, rfl⟩
      obtain ⟨hreading, hgrouped', hsimple'⟩ := hon
      have hrest := ih hgrouped' hsimple'
      rw [hreading, List.append_assoc] at hrest
      exact hrest

/-- The tree of an expression with operators in front of it. -/
def withSigns (expr : Expr) (signs : List (Location × UnaryOperator)) : Expr :=
  signs.foldr (fun sign tree => .unary sign.1 sign.2 tree) expr

/-- Operators stand in front of an expression that no operator between operands makes. -/
theorem withSigns_grouped {expr : Expr} (hgrouped : expr.Grouped)
    (hroot : expr.rootOperator? = none) (signs : List (Location × UnaryOperator)) :
    (expr.withSigns signs).reading =
        signs.map (fun sign => .sign sign.1 sign.2) ++ expr.reading ∧
      (expr.withSigns signs).Grouped ∧ (expr.withSigns signs).rootOperator? = none := by
  induction signs with
  | nil => exact ⟨rfl, hgrouped, hroot⟩
  | cons sign signs ih =>
      obtain ⟨hreading, hgrouped', hroot'⟩ := ih
      exact ⟨congrArg (Symbol.sign sign.1 sign.2 :: ·) hreading, ⟨hroot', hgrouped'⟩, rfl⟩

end Expr

/-- The tree of an operand: suffixes bind more tightly than the operators in front. -/
def Operand.tree (operand : Operand) : Expr :=
  (operand.primary.withSuffixes operand.suffixes).withSigns operand.signs

theorem Operand.tree_grouped {operand : Operand} (h : operand.primary.IsPrimary) :
    operand.tree.reading = operand.symbols ∧ operand.tree.Grouped ∧
      operand.tree.rootOperator? = none := by
  obtain ⟨hreading, hgrouped, hsimple⟩ :=
    Expr.withSuffixes_grouped h.grouped h.isOperation operand.suffixes
  have hroot := Expr.rootOperator?_of_isOperation hsimple
  have hsigned := Expr.withSigns_grouped hgrouped hroot operand.signs
  rw [hreading, h.reading] at hsigned
  exact hsigned

/-- The tree of an expression with operators and operands behind it, attached one by one. -/
def Expr.withLinks (expr : Expr) (links : List Link) : Expr :=
  links.foldl (fun tree link => tree.attach link.location link.operator link.operand.tree) expr

theorem Expr.withLinks_grouped {expr : Expr} (hgrouped : expr.Grouped) {links : List Link}
    (h : ∀ link ∈ links, link.operand.primary.IsPrimary) :
    (expr.withLinks links).reading = expr.reading ++ links.flatMap Link.symbols ∧
      (expr.withLinks links).Grouped := by
  induction links generalizing expr with
  | nil => exact ⟨(List.append_nil _).symm, hgrouped⟩
  | cons link links ih =>
      obtain ⟨hlink, hlinks⟩ := List.forall_mem_cons.1 h
      obtain ⟨hreading, hoperand, hroot⟩ := Operand.tree_grouped hlink
      have hnext : (expr.attach link.location link.operator link.operand.tree).Grouped :=
        hgrouped.attach hoperand hroot
      have hrest := ih hnext hlinks
      rw [attach_reading, hreading, List.append_assoc] at hrest
      exact hrest

/-- The tree of a chain. -/
def Chain.tree (chain : Chain) : Expr :=
  chain.first.tree.withLinks chain.links

/-! ## Tokens -/

/-- `symbol.WrittenAs tokens` says that these are the tokens of a part of a chain. What stands
between the brackets of a suffix is read by itself. -/
inductive Symbol.WrittenAs : Symbol → List Token → Prop where
  | primary {expr : Expr} : expr.IsPrimary → Symbol.WrittenAs (.primary expr) [expr.token]
  | sign {location : Location} {operator : UnaryOperator} :
    Symbol.WrittenAs (.sign location operator) [⟨operator.lexeme, location⟩]
  | operator {location : Location} {operator : BinaryOperator} :
    Symbol.WrittenAs (.operator location operator) [⟨operator.lexeme, location⟩]
  | call {location : Location} {inner : List Token} {arguments : List Expr} :
    Reads False (.list .rightParen (.expression .lowest)) inner arguments [] →
    Symbol.WrittenAs (.suffix (.call location arguments)) (⟨.mark .leftParen, location⟩ :: inner)
  | index {location last : Location} {inner : List Token} {position : Expr} :
    Reads False (.expression .lowest) inner position [] →
    Symbol.WrittenAs (.suffix (.index location position))
      (⟨.mark .leftBracket, location⟩ :: (inner ++ [⟨.mark .rightBracket, last⟩]))

/-- The tokens of parts that stand one behind the other. -/
inductive Written : List Symbol → List Token → Prop where
  | nil : Written [] []
  | cons {symbol : Symbol} {symbols : List Symbol} {tokens rest : List Token} :
    symbol.WrittenAs tokens → Written symbols rest → Written (symbol :: symbols) (tokens ++ rest)

namespace Written

variable {symbols more : List Symbol} {tokens : List Token}

/-- The tokens of the first part. -/
theorem cons_inv {symbol : Symbol} (h : Written (symbol :: symbols) tokens) :
    ∃ front rest, tokens = front ++ rest ∧ symbol.WrittenAs front ∧ Written symbols rest := by
  cases h with
  | cons hfront hrest => exact ⟨_, _, rfl, hfront, hrest⟩

/-- The tokens of parts in two groups. -/
theorem append_inv (h : Written (symbols ++ more) tokens) :
    ∃ front rest, tokens = front ++ rest ∧ Written symbols front ∧ Written more rest := by
  induction symbols generalizing tokens with
  | nil => exact ⟨[], tokens, rfl, .nil, h⟩
  | cons symbol symbols ih =>
      obtain ⟨first, rest, rfl, hfirst, hrest⟩ := h.cons_inv
      obtain ⟨front, rest, rfl, hfront, hmore⟩ := ih hrest
      exact ⟨first ++ front, rest, (List.append_assoc ..).symm, .cons hfirst hfront, hmore⟩

/-- Names and literals that are written are readable. -/
theorem isPrimary (h : Written symbols tokens) {expr : Expr}
    (hmem : Symbol.primary expr ∈ symbols) : expr.IsPrimary := by
  induction h with
  | nil => cases hmem
  | cons hfront _ ih =>
      rcases List.mem_cons.1 hmem with rfl | hmem
      · cases hfront
        assumption
      · exact ih hmem

end Written

/-- The tree of a chain that is written has the parts of the chain, in order, and is grouped. -/
theorem Chain.tree_grouped {chain : Chain} {tokens : List Token}
    (h : Written chain.symbols tokens) :
    chain.tree.reading = chain.symbols ∧ chain.tree.Grouped := by
  have hfirst : chain.first.primary.IsPrimary :=
    h.isPrimary (by simp [Chain.symbols, Operand.symbols])
  have hlinks : ∀ link ∈ chain.links, link.operand.primary.IsPrimary := by
    intro link hlink
    refine h.isPrimary (List.mem_append_right _ (List.mem_flatMap.2 ⟨link, hlink, ?_⟩))
    simp [Link.symbols, Operand.symbols]
  obtain ⟨hreading, hgrouped, _⟩ := Operand.tree_grouped hfirst
  have hlinked := Expr.withLinks_grouped hgrouped hlinks
  rw [hreading] at hlinked
  exact hlinked

end Script
