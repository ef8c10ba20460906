import Script.Proofs.Grammar.Grouping
import Script.Proofs.Grammar.TokenOrder
import Script.Proofs.Token.Spacing

/-!
# Programs that are chains of operators

A chain is read as the one tree that has its parts in order and groups them by precedence. Chains
with `=` between them are read without an error if all but the last one are names, and then the
assignments nest to the right: `Program.read_chains`.
-/

namespace Script

/-! ## Chains -/

namespace Expr.Grouped

variable {expr : Expr} {tokens after final : List Token} {result : Expr}

/-- A grouped tree is a whole expression, or the target of an assignment. -/
theorem whole_iff (h : expr.Grouped) (hwritten : Written expr.reading tokens)
    (hafter : (firstLexeme after).precedence.level ≤ Precedence.equality.level) :
    Reads False (.expression .lowest) (tokens ++ after) result final ↔
      Reads False (.extension .lowest expr) after result final := by
  have hpos : ∀ root ∈ expr.rootOperator?, Precedence.lowest.level < root.level :=
    fun root _ => root.equality_le_level
  have hroot : ∀ root ∈ expr.rootOperator?,
      (firstLexeme after).precedence.level ≤ root.level :=
    fun root _ => Nat.le_trans hafter root.equality_le_level
  have hfinished := h.finishedBy hroot (Nat.le_trans hafter (by decide))
  exact h.reads_iff hwritten hpos (by decide) hfinished

/-- It is read from its tokens. -/
theorem reads (h : expr.Grouped) (hwritten : Written expr.reading tokens) :
    Reads False (.expression .lowest) tokens expr [] := by
  have hend : (firstLexeme []).precedence.level ≤ Precedence.equality.level := by decide
  have hread := (h.whole_iff hwritten hend).2 (.complete (by decide))
  rwa [List.append_nil] at hread

/-- No other grouped tree has the same parts. -/
theorem unique (h : expr.Grouped) (hwritten : Written expr.reading tokens) {other : Expr}
    (hother : other.Grouped) (hreading : other.reading = expr.reading) : other = expr :=
  ((h.reads hwritten).unique (hother.reads (hreading ▸ hwritten))).1

end Expr.Grouped

/-- A chain starts with an operand. -/
theorem Chain.starts {chain : Chain} {tokens : List Token} (h : Written chain.symbols tokens) :
    ∃ first rest, tokens = first :: rest ∧ first.lexeme.startsOperand := by
  obtain ⟨hreading, hgrouped⟩ := Chain.tree_grouped h
  have hstart : (firstLexeme tokens).startsOperand = true :=
    (hgrouped.reads (hreading ▸ h)).startsWith
  cases tokens with
  | nil => cases hstart
  | cons first rest => exact ⟨first, rest, rfl, hstart⟩

/-- A chain with the part of a name only is that name. -/
theorem Chain.eq_name {chain : Chain} {name : Identifier}
    (h : chain.symbols = [.primary (.identifier name)]) : chain = .name name := by
  obtain ⟨⟨signs, primary, suffixes⟩, links⟩ := chain
  cases signs with
  | cons sign signs => cases h
  | nil =>
      obtain ⟨hprimary, hrest⟩ := List.cons.inj h
      obtain ⟨hsuffixes, hlinks⟩ := List.append_eq_nil_iff.1 hrest
      obtain rfl := List.map_eq_nil_iff.1 hsuffixes
      obtain rfl : primary = .identifier name := Symbol.primary.inj hprimary
      cases links with
      | nil => rfl
      | cons link links => cases hlinks

/-! ## Assignments -/

/-- A chain and the place of the `=` behind it. -/
structure Segment where
  /-- The chain. -/
  chain : Chain
  /-- The place of the `=`. -/
  location : Location

/-- An assignment to a name. -/
def Segment.ofTarget (target : Identifier × Location) : Segment :=
  ⟨.name target.1, target.2⟩

/-- Segments that are names have the targets of assignments. -/
theorem Segment.exists_targets {front : List Segment}
    (h : ∀ segment ∈ front, ∃ name, segment.chain = .name name) :
    ∃ targets : List (Identifier × Location), front = targets.map Segment.ofTarget := by
  induction front with
  | nil => exact ⟨[], rfl⟩
  | cons segment front ih =>
      obtain ⟨⟨name, hname⟩, hfront⟩ := List.forall_mem_cons.1 h
      obtain ⟨targets, rfl⟩ := ih hfront
      obtain ⟨chain, location⟩ := segment
      obtain rfl : chain = .name name := hname
      exact ⟨(name, location) :: targets, rfl⟩

/-- `Joined front last tokens` says that these are the tokens of the segments in `front` and of the
chain `last` behind them. -/
inductive Joined : List Segment → Chain → List Token → Prop where
  | last {last : Chain} {tokens : List Token} :
    Written last.symbols tokens → Joined [] last tokens
  | segment {segment : Segment} {front : List Segment} {last : Chain} {tokens rest : List Token} :
    Written segment.chain.symbols tokens → Joined front last rest →
    Joined (segment :: front) last (tokens ++ ⟨.mark .assign, segment.location⟩ :: rest)

/-- The value is assigned to the targets, from the last one to the first. -/
def Expr.assignedTo (value : Expr) (targets : List (Identifier × Location)) : Expr :=
  targets.foldr (fun target value => .assign target.2 target.1 value) value

namespace Joined

variable {front : List Segment} {last : Chain} {tokens : List Token}

/-- The last chain is written. -/
theorem last_written (h : Joined front last tokens) : ∃ tokens, Written last.symbols tokens := by
  induction h with
  | last hwritten => exact ⟨_, hwritten⟩
  | segment _ _ ih => exact ih

/-- They start with an operand. -/
theorem startsOperand (h : Joined front last tokens) :
    (firstLexeme tokens).startsOperand := by
  cases h with
  | last hwritten | segment hwritten _ =>
      obtain ⟨first, rest, rfl, hstart⟩ := Chain.starts hwritten
      exact hstart

/-- If an expression is read, then all segments are names. -/
theorem names (h : Joined front last tokens) {result : Expr} {final : List Token}
    (hread : Reads False (.expression .lowest) tokens result final) :
    ∀ segment ∈ front, ∃ name, segment.chain = .name name := by
  induction h generalizing result final with
  | last => exact List.forall_mem_nil _
  | segment hwritten _ ih =>
      obtain ⟨hreading, hgrouped⟩ := Chain.tree_grouped hwritten
      rw [← hreading] at hwritten
      -- after the tree of the segment the mark goes on, which an assignment alone does
      obtain ⟨longer, middle, hlonger, _⟩ :=
        ((hgrouped.whole_iff hwritten (Nat.le_refl _)).1 hread).inverts (Nat.zero_lt_succ _)
      obtain ⟨target, value, htree, _, hvalue⟩ := hlonger.inverts _ _ rfl
      rw [htree] at hreading
      exact List.forall_mem_cons.2 ⟨⟨target, Chain.eq_name hreading.symm⟩, ih hvalue⟩

/-- If all segments are names, then the assignments are read. -/
theorem reads {targets : List (Identifier × Location)}
    (h : Joined front last tokens) (hfront : front = targets.map Segment.ofTarget) :
    Reads False (.expression .lowest) tokens (last.tree.assignedTo targets) [] := by
  induction h generalizing targets with
  | last hwritten =>
      obtain rfl := List.map_eq_nil_iff.1 hfront.symm
      obtain ⟨hreading, hgrouped⟩ := Chain.tree_grouped hwritten
      exact hgrouped.reads (hreading ▸ hwritten)
  | @segment segment front last tokens rest hwritten _ ih =>
      cases targets with
      | nil => cases hfront
      | cons target targets =>
          obtain ⟨rfl, hrest⟩ := List.cons.inj hfront
          have hname : (Expr.identifier target.1).Grouped := trivial
          refine (hname.whole_iff hwritten (Nat.le_refl _)).2 ?_
          exact .extended (Nat.zero_lt_succ _) (.assign (ih hrest)) (.complete (by decide))

end Joined

/-! ## Programs -/

/-- No operand starts where the statements of a program end. -/
theorem Lexeme.ne_eof_of_startsOperand {lexeme : Lexeme} (h : lexeme.startsOperand) :
    decide (lexeme = .eof) = false := by
  refine decide_eq_false fun heof => ?_
  rw [heof] at h
  cases h

/-- Tokens that are read as an expression make a program. -/
theorem Program.ofScanned_expression {scanned : Scanned} {value : Expr}
    (hfailure : scanned.failure = none)
    (h : Reads False (.expression .lowest) scanned.tokens value []) :
    ∃ first ∈ scanned.tokens.head?,
      Program.ofScanned scanned = ⟨⟨[.expression first value]⟩, []⟩ := by
  have hstart : (firstLexeme scanned.tokens).startsOperand = true := h.startsWith
  cases htokens : scanned.tokens with
  | nil =>
      rw [htokens] at hstart
      cases hstart
  | cons first rest =>
      rw [htokens] at h hstart
      have hmore : decide (first.lexeme = .eof) = false := Lexeme.ne_eof_of_startsOperand hstart
      have hstatements : Reads False (.statements fun lexeme => lexeme = .eof) (first :: rest)
          [.expression first value] [] :=
        .statementsMore hmore (.unterminated (.expressionForm h) nofun) (.statementsEnd rfl)
      exact ⟨first, rfl, Program.ofScanned_eq hfailure (htokens ▸ hstatements)⟩

/-- Without errors, tokens that start an operand are read as an expression. -/
theorem Program.expression_of_ofScanned {scanned : Scanned}
    (hproper : ∀ token ∈ scanned.tokens, token.lexeme ≠ .eof)
    (hstart : (firstLexeme scanned.tokens).startsOperand)
    (h : (Program.ofScanned scanned).errors = []) :
    ∃ value after, Reads False (.expression .lowest) scanned.tokens value after := by
  have hread := Program.ofScanned_reads hproper
  rw [h] at hread
  have hnone : (0 < ([] : List SyntaxError).length) = False := by simp
  rw [hnone] at hread
  obtain ⟨statement, middle, hstatement⟩ :=
    hread.inverts (Lexeme.ne_eof_of_startsOperand hstart)
  obtain ⟨form, after, hform⟩ := hstatement.inverts hstart
  obtain ⟨value, hvalue⟩ := hform.inverts hstart
  exact ⟨value, after, hvalue⟩

/-- Chains with `=` between them, written with blanks between their tokens, are accepted exactly
if all but the last one are names. The last chain has one tree that has its parts in order and
groups its operators by precedence. A single chain is read as this tree, in one statement; behind
names the tree is the value of assignments that nest to the right. -/
theorem Program.read_chains {source : String} {tokens : List Token} {front : List Segment}
    {last : Chain} (hspaced : Spaced [] source.toList tokens) (hjoined : Joined front last tokens) :
    ((Program.read source).errors = [] ↔
      ∀ segment ∈ front, ∃ name, segment.chain = .name name) ∧
    ∃ tree : Expr, (tree.reading = last.symbols ∧ tree.Grouped) ∧
      (∀ other : Expr, other.reading = last.symbols → other.Grouped → other = tree) ∧
      ∀ targets : List (Identifier × Location), front = targets.map Segment.ofTarget →
        ∃ first ∈ tokens.head?,
          Program.read source = ⟨⟨[.expression first (tree.assignedTo targets)]⟩, []⟩ := by
  obtain ⟨htokens, hfailure⟩ := hspaced.scan
  have hread : ∀ targets : List (Identifier × Location), front = targets.map Segment.ofTarget →
      ∃ first ∈ tokens.head?,
        Program.read source = ⟨⟨[.expression first (last.tree.assignedTo targets)]⟩, []⟩ := by
    intro targets hfront
    rw [← htokens] at hjoined ⊢
    exact Program.ofScanned_expression hfailure (hjoined.reads hfront)
  refine ⟨⟨fun herrors => ?_, fun hnames => ?_⟩, ?_⟩
  · rw [← htokens] at hjoined
    obtain ⟨value, after, hvalue⟩ :=
      Program.expression_of_ofScanned (scan_proper source) hjoined.startsOperand herrors
    exact hjoined.names hvalue
  · obtain ⟨targets, hfront⟩ := Segment.exists_targets hnames
    obtain ⟨first, _, hprogram⟩ := hread targets hfront
    rw [hprogram]
  · obtain ⟨tokens, hwritten⟩ := hjoined.last_written
    obtain ⟨hreading, hgrouped⟩ := Chain.tree_grouped hwritten
    refine ⟨last.tree, ⟨hreading, hgrouped⟩, fun other hother hgrouped' => ?_, hread⟩
    exact hgrouped.unique (hreading ▸ hwritten) hgrouped' (hother.trans hreading.symm)

/-- A name is assigned a sum, of which the second term is a product with a call behind a sign. -/
theorem Program.read_chains_signedCall :
    ∃ tokens front last, Spaced [] " x = 1 + - f ( ) * 2 ".toList tokens ∧
      Joined front last tokens ∧ ∃ first, Program.read " x = 1 + - f ( ) * 2 " =
        ⟨⟨[.expression first (.assign ⟨1, 4⟩ ⟨"x", ⟨1, 2⟩⟩
          (.binary ⟨1, 8⟩ (.integer ⟨1, 6⟩ "1" 1) .add
            (.binary ⟨1, 18⟩
              (.unary ⟨1, 10⟩ .negate (.call ⟨1, 14⟩ (.identifier ⟨"f", ⟨1, 12⟩⟩) []))
              .multiply (.integer ⟨1, 20⟩ "2" 2))))]⟩, []⟩ := by
  have hmark (mark : Mark) : (Lexeme.mark mark).Covers mark.spelling.toList [] :=
    ⟨trivial, fun _ => rfl, nofun, nofun⟩
  have hx : (Lexeme.identifier "x").Covers ['x'] [] :=
    ⟨⟨⟨'x', [], rfl, rfl, by decide, rfl, by decide, nofun⟩, by decide⟩, fun _ => rfl, nofun, nofun⟩
  have hf : (Lexeme.identifier "f").Covers ['f'] [] :=
    ⟨⟨⟨'f', [], rfl, rfl, by decide, rfl, by decide, nofun⟩, by decide⟩, fun _ => rfl, nofun, nofun⟩
  have hone : (Lexeme.integer "1").Covers ['1'] [] :=
    ⟨⟨'1', [], rfl, ⟨rfl, by decide, rfl, nofun⟩, by decide⟩, fun _ => rfl, nofun, nofun⟩
  have htwo : (Lexeme.integer "2").Covers ['2'] [] :=
    ⟨⟨'2', [], rfl, ⟨rfl, by decide, rfl, nofun⟩, by decide⟩, fun _ => rfl, nofun, nofun⟩
  have hspaced : Spaced [] " x = 1 + - f ( ) * 2 ".toList
      [⟨.identifier "x", ⟨1, 2⟩⟩, ⟨.mark .assign, ⟨1, 4⟩⟩, ⟨.integer "1", ⟨1, 6⟩⟩,
        ⟨.mark .plus, ⟨1, 8⟩⟩, ⟨.mark .minus, ⟨1, 10⟩⟩, ⟨.identifier "f", ⟨1, 12⟩⟩,
        ⟨.mark .leftParen, ⟨1, 14⟩⟩, ⟨.mark .rightParen, ⟨1, 16⟩⟩, ⟨.mark .star, ⟨1, 18⟩⟩,
        ⟨.integer "2", ⟨1, 20⟩⟩] :=
    .between hx (.between (hmark .assign) (.between hone (.between (hmark .plus)
      (.between (hmark .minus) (.between hf (.between (hmark .leftParen)
        (.between (hmark .rightParen) (.between (hmark .star) (.between htwo
          (.blank (List.forall_mem_singleton.2 rfl)))))))))))
  have hnone : Reads False (.list .rightParen (.expression .lowest))
      [⟨.mark .rightParen, ⟨1, 16⟩⟩] [] [] := .listEmpty .paren
  have hjoined : Joined [⟨.name ⟨"x", ⟨1, 2⟩⟩, ⟨1, 4⟩⟩]
      ⟨⟨[], .integer ⟨1, 6⟩ "1" 1, []⟩,
        [⟨⟨1, 8⟩, .add, ⟨[(⟨1, 10⟩, .negate)], .identifier ⟨"f", ⟨1, 12⟩⟩, [.call ⟨1, 14⟩ []]⟩⟩,
          ⟨⟨1, 18⟩, .multiply, ⟨[], .integer ⟨1, 20⟩ "2" 2, []⟩⟩]⟩ _ :=
    .segment (.cons (.primary trivial) .nil) (.last (.cons (.primary ⟨by decide, rfl⟩)
      (.cons .operator (.cons .sign (.cons (.primary trivial) (.cons (.call hnone)
        (.cons .operator (.cons (.primary ⟨by decide, rfl⟩) .nil))))))))
  have hgrouped : (Expr.binary ⟨1, 8⟩ (.integer ⟨1, 6⟩ "1" 1) .add (.binary ⟨1, 18⟩
      (.unary ⟨1, 10⟩ .negate (.call ⟨1, 14⟩ (.identifier ⟨"f", ⟨1, 12⟩⟩) [])) .multiply
      (.integer ⟨1, 20⟩ "2" 2))).Grouped := by
    have hlevel : BinaryOperator.add.level < BinaryOperator.multiply.level := by decide
    simp [Expr.Grouped, Expr.rootOperator?, Expr.isOperation, hlevel]
  obtain ⟨tree, _, hunique, hread⟩ := (Program.read_chains hspaced hjoined).2
  obtain ⟨first, _, hprogram⟩ := hread [(⟨"x", ⟨1, 2⟩⟩, ⟨1, 4⟩)] rfl
  rw [← hunique _ rfl hgrouped] at hprogram
  exact ⟨_, _, _, hspaced, hjoined, first, hprogram⟩

end Script
