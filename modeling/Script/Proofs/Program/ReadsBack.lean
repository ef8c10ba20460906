import Script.Proofs.Grammar.Phrase
import Script.Proofs.Program.Unplaced
import Script.Proofs.Token.Scanning

/-!
# Texts that read back

`Spells phrase follow chars same` says that some characters scan to tokens that can be read as
`phrase`, and `Expr.ReadsBack`, `Block.ReadsBack` and `Statement.ReadsBack` that the text of a tree
reads back as the tree, apart from its places. An expression reads back as a whole if its text is an
operand: `Expr.ReadsBack.of_operand`.
-/

namespace Script

/-- The characters, in front of any rest that ends them, scan to tokens that are read as `phrase`,
with a result that is the `same`, provided that a lexeme comes next that may `follow`. -/
def Spells {α : Type} (phrase : Phrase α) (follow : Lexeme → Prop) (chars : List Char)
    (same : α → Prop) : Prop :=
  ∀ ⦃place rest tokens last⦄, Ends rest → Scans place (chars ++ rest) tokens last →
    ∃ reached after copy, Scans reached rest after last ∧ same copy ∧
      (follow (firstLexeme after) → Reads False phrase tokens copy after)

/-- The text of the expression reads back in every place for an operand or a callee: the operators
after it are those that would come after the expression itself. -/
def Expr.ReadsBack (expr : Expr) : Prop :=
  ∀ ⦃place rest tokens last⦄, Ends rest → Scans place (expr.text.toList ++ rest) tokens last →
    ∃ reached after copy, Scans reached rest after last ∧ copy.unplaced = expr.unplaced ∧
      ∀ ⦃precedence result final⦄, precedence.level < Precedence.call.level →
        firstLexeme after ≠ .word .elseWord →
        Reads False (.extension precedence copy) after result final →
        Reads False (.expression precedence) tokens result final

/-- The text of the block reads back. -/
def Block.ReadsBack (block : Block) : Prop :=
  Spells .block (fun _ => True) block.text.toList (·.unplaced = block.unplaced)

/-- Lexemes before which a statement may end without a semicolon. -/
def Lexeme.mayFollow (lexeme : Lexeme) : Prop :=
  lexeme ≠ .mark .semicolon ∧ lexeme ≠ .word .finallyWord

/-- The text of the statement reads back. -/
def Statement.ReadsBack (statement : Statement) : Prop :=
  Spells .statement Lexeme.mayFollow statement.text.toList
    fun copy => copy.map Statement.unplaced = some statement.unplaced

/-- The name can be scanned again. -/
def Identifier.Legible (identifier : Identifier) : Prop :=
  (Lexeme.identifier identifier.name).Legible

namespace Spells

variable {α : Type} {phrase : Phrase α} {follow : Lexeme → Prop} {chars : List Char}
  {same : α → Prop}

/-- Fewer lexemes may follow. -/
theorem mono {fewer : Lexeme → Prop} (h : Spells phrase follow chars same)
    (hfewer : ∀ lexeme, fewer lexeme → follow lexeme) : Spells phrase fewer chars same := by
  intro place rest tokens last hends hscans
  obtain ⟨reached, after, copy, hrest, hsame, hreads⟩ := h hends hscans
  exact ⟨reached, after, copy, hrest, hsame, fun hfollow => hreads (hfewer _ hfollow)⟩

/-! ## Operands -/

/-- Parentheses make an operand of an expression. -/
theorem group {same : Expr → Prop}
    (h : Spells (.expression .lowest) Lexeme.closes chars same) :
    Spells .operand (fun _ => True) ('(' :: (chars ++ [')'])) same := by
  intro place rest tokens last hends hscans
  rw [List.cons_append, List.append_assoc, List.singleton_append] at hscans
  obtain ⟨middle, rfl, hinner⟩ := hscans.mark rfl fun _ _ => rfl
  obtain ⟨reached, after, copy, hparen, hsame, hreads⟩ := h (.cons rfl rfl) hinner
  obtain ⟨after, rfl, hrest⟩ := hparen.mark rfl fun _ _ => rfl
  exact ⟨_, after, copy, hrest, hsame, fun _ => .group (hreads ⟨rfl, nofun⟩)⟩

end Spells

/-- No operator extends an expression that ends. -/
theorem Lexeme.closes.complete {precedence : Precedence} {left : Expr} {after : List Token}
    (h : (firstLexeme after).closes) :
    Reads False (.extension precedence left) after left after := by
  apply Reads.complete
  rw [h.1]
  exact Nat.not_lt_zero _

namespace Expr.ReadsBack

/-- An operand in front of a lexeme that ends it is a whole expression. -/
theorem of_operand {expr : Expr} (h : Spells .operand (· ≠ .word .elseWord)
    expr.text.toList (·.unplaced = expr.unplaced)) : expr.ReadsBack := by
  intro place rest tokens last hends hscans
  obtain ⟨reached, after, copy, hrest, hsame, hreads⟩ := h hends hscans
  refine ⟨reached, after, copy, hrest, hsame, ?_⟩
  intro precedence result final _ helse hext
  exact .expression (hreads helse) hext

/-- A single token is a whole expression. -/
theorem of_token {expr : Expr} {lexeme : Lexeme} (hspelled : lexeme.SpelledBy expr.text.toList)
    (hreads : ∀ location after, ∃ copy : Expr, copy.unplaced = expr.unplaced ∧
      Reads False .operand (⟨lexeme, location⟩ :: after) copy after) : expr.ReadsBack := by
  apply of_operand
  intro place rest tokens last hends hscans
  obtain ⟨reached, after, rfl, hrest⟩ := hscans.spelled hspelled hends
  obtain ⟨copy, hsame, hcopy⟩ := hreads place after
  exact ⟨reached, after, copy, hrest, hsame, fun _ => hcopy⟩

/-- An expression in parentheses is a whole expression. -/
theorem of_group {expr : Expr} {chars : List Char}
    (htext : expr.text.toList = '(' :: (chars ++ [')']))
    (h : Spells (.expression .lowest) Lexeme.closes chars (·.unplaced = expr.unplaced)) :
    expr.ReadsBack := by
  apply of_operand
  rw [htext]
  exact h.group.mono fun _ _ => trivial

/-- An expression with no operator after it. -/
theorem closed {expr : Expr} (h : expr.ReadsBack) (precedence : Precedence)
    (hlevel : precedence.level < Precedence.call.level) :
    Spells (.expression precedence) Lexeme.closes expr.text.toList
      (·.unplaced = expr.unplaced) := by
  intro place rest tokens last hends hscans
  obtain ⟨reached, after, copy, hrest, hsame, hreads⟩ := h hends hscans
  exact ⟨reached, after, copy, hrest, hsame, fun hcloses =>
    hreads hlevel hcloses.2 hcloses.complete⟩

/-- An expression of its own. -/
theorem whole {expr : Expr} (h : expr.ReadsBack) :
    Spells (.expression .lowest) Lexeme.closes expr.text.toList (·.unplaced = expr.unplaced) :=
  h.closed .lowest (by decide)

end Expr.ReadsBack

end Script
