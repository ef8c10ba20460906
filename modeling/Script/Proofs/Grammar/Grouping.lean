import Script.Proofs.Grammar.Chain
import Script.Proofs.Grammar.Locality

/-!
# Chains are read as grouped trees

A grouped tree is what the tokens of its parts are read as, wherever they stand:
`Expr.Grouped.reads_iff`, by induction on the tree. What follows the tokens goes on after the whole
tree, provided that it leaves every operator on the right edge of the tree alone
(`Expr.FinishedBy`). Since tokens are read in one way, a chain has one grouped tree only.
-/

namespace Script

theorem BinaryOperator.lexeme_precedence (operator : BinaryOperator) :
    operator.lexeme.precedence = operator.precedence := by
  cases operator <;> rfl

/-- Operators between operands bind less tightly than all others. -/
theorem BinaryOperator.level_lt_unary (operator : BinaryOperator) :
    operator.level < Precedence.unary.level := by
  cases operator <;> decide

/-- Operators between operands bind at least as tightly as an assignment. -/
theorem BinaryOperator.equality_le_level (operator : BinaryOperator) :
    Precedence.equality.level ≤ operator.level := by
  cases operator <;> decide

/-! ## Readings of operators -/

namespace Reads

variable {precedence : Precedence} {before middle after : List Token} {left longer result : Expr}

/-- After its first operand an expression is read as an extension of it. -/
theorem expression_iff (h : Reads False .operand before left middle) :
    Reads False (.expression precedence) before result after ↔
      Reads False (.extension precedence left) middle result after := by
  refine ⟨fun hread => ?_, .expression h⟩
  obtain ⟨left', middle', hleft, hext⟩ := hread.inverts
  obtain ⟨rfl, rfl⟩ := h.unique hleft
  exact hext

/-- After an operator that binds more tightly, a longer expression is extended. -/
theorem extension_iff (hbinds : precedence.level < (firstLexeme before).precedence.level)
    (h : Reads False (.continuation left) before longer middle) :
    Reads False (.extension precedence left) before result after ↔
      Reads False (.extension precedence longer) middle result after := by
  refine ⟨fun hread => ?_, .extended hbinds h⟩
  obtain ⟨longer', middle', hlonger, hext⟩ := hread.inverts hbinds
  obtain ⟨rfl, rfl⟩ := h.unique hlonger
  exact hext

end Reads

namespace Suffix

variable {suffix : Suffix} {tokens after : List Token}

/-- A suffix goes on behind every expression, whatever follows. -/
theorem reads (h : Symbol.WrittenAs (.suffix suffix) tokens) (left : Expr) (after : List Token) :
    Reads False (.continuation left) (tokens ++ after) (suffix.on left) after := by
  cases h with
  | @call location inner arguments harguments =>
      rw [← List.append_nil inner] at harguments
      exact .call (harguments.transfer trivial)
  | @index location last inner position hposition =>
      have hclose : Phrase.Alike [] (⟨.mark .rightBracket, last⟩ :: after)
          (.expression .lowest) := .inr ⟨⟨rfl, nofun⟩, ⟨rfl, nofun⟩⟩
      rw [← List.append_nil inner] at hposition
      rw [List.cons_append, List.append_assoc]
      exact .index (hposition.transfer hclose)

/-- Suffixes bind more tightly than all operators. -/
theorem call_le (h : Symbol.WrittenAs (.suffix suffix) tokens) :
    Precedence.call.level ≤ (firstLexeme (tokens ++ after)).precedence.level := by
  cases h with
  | call => exact Nat.le_refl _
  | index => exact Nat.le_succ _

/-- A suffix belongs to the expression in front of it, if that is read from its own tokens whatever
follows. -/
theorem reads_iff (suffix : Suffix) {precedence : Precedence} {left result : Expr}
    {final : List Token} (hwritten : Written (left.reading ++ [.suffix suffix]) tokens)
    (hcall : precedence.level < Precedence.call.level)
    (hleft : ∀ {front}, Written left.reading front → ∀ after,
      (Reads False (.expression precedence) (front ++ after) result final ↔
        Reads False (.extension precedence left) after result final)) :
    Reads False (.expression precedence) (tokens ++ after) result final ↔
      Reads False (.extension precedence (suffix.on left)) after result final := by
  obtain ⟨front, back, rfl, hfront, hback⟩ := hwritten.append_inv
  obtain ⟨last, _, rfl, hsuffix, ⟨⟩⟩ := hback.cons_inv
  rw [List.append_nil, List.append_assoc, hleft hfront]
  exact Reads.extension_iff (Nat.lt_of_lt_of_le hcall (call_le hsuffix)) (reads hsuffix left after)

end Suffix

/-! ## Grouped trees -/

namespace Expr

/-- A name or a literal is read from its token. -/
theorem IsPrimary.reads {expr : Expr} (h : expr.IsPrimary) (after : List Token) :
    Reads False .operand (expr.token :: after) expr after := by
  cases expr with
  | identifier => exact .identifier
  | string => exact .string
  | boolean _ value => cases value <;> constructor
  | integer =>
      obtain ⟨hrange, rfl⟩ := h
      exact .integer hrange
  | float => exact .float h
  | _ => exact h.elim

/-- An operator of this level that follows the expression leaves all operators on its right edge
alone: they bind at least as tightly. -/
def FinishedBy (level : Nat) : Expr → Prop
  | unary _ _ operand => level ≤ Precedence.unary.level ∧ operand.FinishedBy level
  | binary _ _ operator right => level ≤ operator.level ∧ right.FinishedBy level
  | _ => True

theorem finishedBy_of_isOperation {expr : Expr} (h : expr.isOperation = false) (level : Nat) :
    expr.FinishedBy level := by
  cases expr with
  | unary | binary => cases h
  | _ => trivial

/-- If an operator leaves the root of a grouped tree alone, then all operators on its right edge,
which bind more tightly. -/
theorem Grouped.finishedBy {expr : Expr} {level : Nat} (h : expr.Grouped)
    (hroot : ∀ root ∈ expr.rootOperator?, level ≤ root.level)
    (hlevel : level ≤ Precedence.unary.level) : expr.FinishedBy level := by
  match expr with
  | .unary _ _ operand =>
      obtain ⟨hnone, hoperand⟩ := h
      exact ⟨hlevel, hoperand.finishedBy (by simp [hnone]) hlevel⟩
  | .binary _ _ operator right =>
      obtain ⟨_, hright, _, hgrouped⟩ := h
      have hoperator : level ≤ operator.level := hroot operator rfl
      have hinner : ∀ root ∈ right.rootOperator?, level ≤ root.level :=
        fun root hmem => Nat.le_trans hoperator (Nat.le_of_lt (hright root hmem))
      exact ⟨hoperator, hgrouped.finishedBy hinner hlevel⟩
  | .identifier _ | .integer _ _ _ | .float _ _ _ | .boolean _ _ | .string _ _ | .array _ _
  | .hash _ _ | .function _ | .assign _ _ _ | .index _ _ _ | .call _ _ _
  | .conditional _ _ _ _ => trivial

/-- A grouped tree is read from the tokens of its parts, and what follows them goes on after it. -/
theorem Grouped.reads_iff {expr : Expr} {precedence : Precedence} {tokens after final : List Token}
    {result : Expr} (h : expr.Grouped) (hwritten : Written expr.reading tokens)
    (hroot : ∀ root ∈ expr.rootOperator?, precedence.level < root.level)
    (hcall : precedence.level < Precedence.call.level)
    (hfinished : expr.FinishedBy (firstLexeme after).precedence.level) :
    Reads False (.expression precedence) (tokens ++ after) result final ↔
      Reads False (.extension precedence expr) after result final := by
  match expr with
  | .unary location operator operand =>
      obtain ⟨hnone, hoperand⟩ := h
      obtain ⟨hlevel, hedge⟩ := hfinished
      obtain ⟨front, rest, rfl, hsign, hrest⟩ := hwritten.cons_inv
      cases hsign
      have hread : Reads False (.expression .unary) (rest ++ after) operand after :=
        (hoperand.reads_iff hrest (by simp [hnone]) (by decide) hedge).2
          (.complete (Nat.not_lt_of_le hlevel))
      exact Reads.expression_iff (.unary hread)
  | .binary location left operator right =>
      obtain ⟨hleft, hright, hgroupedLeft, hgroupedRight⟩ := h
      obtain ⟨hlevel, hedge⟩ := hfinished
      obtain ⟨front, back, rfl, hfront, hback⟩ := hwritten.append_inv
      obtain ⟨middle, rest, rfl, hoperator, hrest⟩ := hback.cons_inv
      cases hoperator
      have hunary := operator.level_lt_unary
      have hbinds : precedence.level < operator.level := hroot operator rfl
      have hread : Reads False (.expression operator.precedence) (rest ++ after) right after :=
        (hgroupedRight.reads_iff hrest hright (Nat.lt_succ_of_lt hunary) hedge).2
          (.complete (Nat.not_lt_of_le hlevel))
      -- the operator is what follows the left operand
      have hnext : (firstLexeme (⟨operator.lexeme, location⟩ :: (rest ++ after))).precedence.level =
          operator.level := congrArg Precedence.level operator.lexeme_precedence
      have hfinished : left.FinishedBy
          (firstLexeme (⟨operator.lexeme, location⟩ :: (rest ++ after))).precedence.level :=
        hnext ▸ hgroupedLeft.finishedBy hleft (Nat.le_of_lt hunary)
      have hleft' : ∀ root ∈ left.rootOperator?, precedence.level < root.level :=
        fun root hmem => Nat.lt_of_lt_of_le hbinds (hleft root hmem)
      rw [List.append_assoc, List.append_assoc, List.singleton_append,
        hgroupedLeft.reads_iff hfront hleft' hcall hfinished]
      exact Reads.extension_iff (hnext ▸ hbinds) (.binary hread)
  | .call location callee arguments =>
      obtain ⟨hsimple, hcallee⟩ := h
      have hnone := rootOperator?_of_isOperation hsimple
      exact Suffix.reads_iff (.call location arguments) hwritten hcall fun hfront _ =>
        hcallee.reads_iff hfront (by simp [hnone]) hcall (finishedBy_of_isOperation hsimple _)
  | .index location collection position =>
      obtain ⟨hsimple, hcollection⟩ := h
      have hnone := rootOperator?_of_isOperation hsimple
      exact Suffix.reads_iff (.index location position) hwritten hcall fun hfront _ =>
        hcollection.reads_iff hfront (by simp [hnone]) hcall (finishedBy_of_isOperation hsimple _)
  | .identifier _ | .integer _ _ _ | .float _ _ _ | .boolean _ _ | .string _ _ | .array _ _
  | .hash _ _ | .function _ | .assign _ _ _ | .conditional _ _ _ _ =>
      obtain ⟨front, rest, rfl, hfront, ⟨⟩⟩ := hwritten.cons_inv
      cases hfront with
      | primary hprimary => exact Reads.expression_iff (hprimary.reads after)

end Expr

end Script
