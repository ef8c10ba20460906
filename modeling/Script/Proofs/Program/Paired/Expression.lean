import Script.Proofs.Program.Paired

/-!
# Expressions at paired positions

The rules of expressions, of lists and of blocks agree at paired positions, provided that the rules
of smaller phrases do: `Phrases.Agree`. An expression may start at the semicolon of a fence, where
both runs reject it, but it never ends there. Braces cannot stand in front of a fence, so what is
read between them is in a second run that has no other tokens.
-/

namespace Script

/-- Rules for smaller phrases that agree. Behind a statement nothing needs to be left. -/
structure Phrases.Agree (pairing : Pairing) (phrases phrases' : Phrases) : Prop where
  expression (precedence : Precedence) {cursor cursor' : Cursor} :
    pairing.Along 1 cursor cursor' →
      (phrases.expression precedence).Agrees pairing 2 (Expr.relocated pairing.change)
        (phrases'.expression precedence) cursor cursor'
  statement {cursor cursor' : Cursor} :
    pairing.Along 1 cursor cursor' →
      phrases.statement.Agrees pairing 0 (Option.map (Statement.relocated pairing.change))
        phrases'.statement cursor cursor'

variable {pairing : Pairing} {cursor cursor' : Cursor}

/-- A parameter of a function. -/
theorem Phrases.parameter_agrees (h : pairing.Along 1 cursor cursor') :
    Phrases.parameter.Agrees pairing 2 (Identifier.relocated pairing.change) Phrases.parameter
      cursor cursor' := by
  refine Rule.agrees_current h ?_
  have hpast := h.past
  generalize cursor.current = token at hpast
  obtain ⟨lexeme, location⟩ := token
  cases lexeme with
  | identifier name => exact Rule.agrees_pure (hpast Lexeme.noConfusion) rfl
  | _ => exact Rule.agrees_reject h _ _

theorem Phrases.integer_agrees (h : pairing.Along 2 cursor cursor') (location : Location)
    (digits : String) :
    (Phrases.integer location digits).Agrees pairing 2 (Expr.relocated pairing.change)
      (Phrases.integer (pairing.change location) digits) cursor cursor' := by
  unfold Phrases.integer
  dsimp only
  split
  · exact Rule.agrees_pure h rfl
  · exact Rule.agrees_reject h _ _

theorem Phrases.float_agrees (h : pairing.Along 2 cursor cursor') (location : Location)
    (digits : String) :
    (Phrases.float location digits).Agrees pairing 2 (Expr.relocated pairing.change)
      (Phrases.float (pairing.change location) digits) cursor cursor' := by
  unfold Phrases.float
  split
  · exact Rule.agrees_pure h rfl
  · exact Rule.agrees_reject h _ _

namespace Phrases.Agree

variable {phrases phrases' : Phrases}

/-- Statements in a second run that has no other tokens. -/
theorem statements (hphrases : phrases.Agree pairing phrases') (hopen : ¬ pairing.fenced)
    (stops : Lexeme → Bool) (count count' : Nat) (h : pairing.Along 0 cursor cursor') :
    (phrases.statements stops count).Agrees pairing 0
      (List.map (Statement.relocated pairing.change)) (phrases'.statements stops count') cursor
      cursor' := by
  induction count generalizing count' cursor cursor' with
  | zero => exact Rule.agrees_exhausted _
  | succ count ih =>
      cases count' with
      | zero => exact Rule.agrees_exhausted' _
      | succ count' =>
          have halong : pairing.Along 1 cursor cursor' := h.unfenced hopen
          refine Rule.agrees_current halong ?_
          dsimp only [Token.relocated]
          split
          · exact Rule.agrees_pure h rfl
          · refine (hphrases.statement halong).bind fun statement first first' hfirst => ?_
            refine (ih count' hfirst).bind fun rest last last' hlast => ?_
            refine Rule.agrees_pure hlast ?_
            cases statement <;> rfl

/-- A block from its brace. -/
theorem block (hphrases : phrases.Agree pairing phrases') (hopen : ¬ pairing.fenced)
    (count count' : Nat) (h : pairing.Along 1 cursor cursor') :
    (phrases.block count).Agrees pairing 2 (Block.relocated pairing.change)
      (phrases'.block count') cursor cursor' := by
  refine Rule.agrees_current h ?_
  refine (Rule.agrees_advance h).bind fun _ first first' hfirst => ?_
  refine (Rule.agrees_blocks hfirst hopen (· + 1)).bind fun _ second second' hsecond => ?_
  refine (hphrases.statements hopen _ count count' hsecond).bind
    fun statements third third' hthird => ?_
  have hclosing : pairing.Along 2 third third' := hthird.unfenced hopen
  refine (Rule.agrees_blocks hclosing hopen (· - 1)).bind fun _ last last' hlast => ?_
  refine Rule.agrees_current hlast ?_
  dsimp only [Token.relocated, id_eq]
  split
  · refine Rule.agrees_pure hlast ?_
    rw [Block.relocated, Statement.relocatedAll_eq]
    rfl
  · exact Rule.agrees_reject hlast _ _

/-- A block whose brace comes next. There is no such brace in front of a fence. -/
theorem bracedBlock (hphrases : phrases.Agree pairing phrases') (count count' : Nat)
    (h : pairing.Along 2 cursor cursor') :
    (phrases.bracedBlock count).Agrees pairing 2 (Block.relocated pairing.change)
      (phrases'.bracedBlock count') cursor cursor' := by
  refine Rule.agrees_expectBrace h fun hopen first first' hfirst => ?_
  exact hphrases.block hopen count count' hfirst

/-- The pairs of a hash literal whose brace was read. -/
theorem pairs (hphrases : phrases.Agree pairing phrases') (count count' : Nat)
    (h : pairing.Along 2 cursor cursor') :
    (phrases.pairs count).Agrees pairing 2 (List.map (Pair.relocated pairing.change))
      (phrases'.pairs count') cursor cursor' := by
  induction count generalizing count' cursor cursor' with
  | zero => exact Rule.agrees_exhausted _
  | succ count ih =>
      cases count' with
      | zero => exact Rule.agrees_exhausted' _
      | succ count' =>
          refine (Rule.agrees_takeMark (by decide) h).bind fun taken first first' hfirst => ?_
          cases taken with
          | true => exact Rule.agrees_pure hfirst rfl
          | false =>
              refine (Rule.agrees_advance hfirst).bind fun _ second second' hsecond => ?_
              refine (hphrases.expression .lowest hsecond).bind fun key third third' hthird => ?_
              refine (Rule.agrees_expectMark (by decide) hthird).bind
                fun _ fourth fourth' hfourth => ?_
              refine (Rule.agrees_advance hfourth).bind fun _ fifth fifth' hfifth => ?_
              refine (hphrases.expression .lowest hfifth).bind fun value sixth sixth' hsixth => ?_
              -- the remaining pairs are read alike with and without a comma in front of them
              refine Rule.agrees_meetsMark hsixth (fun _ => ?_) fun _ => ?_
              · exact Rule.agrees_cons ⟨key, value⟩ (ih count' hsixth)
              · refine (Rule.agrees_expectMark (by decide) hsixth).bind
                  fun _ last last' hlast => ?_
                exact Rule.agrees_cons ⟨key, value⟩ (ih count' hlast)

/-- A function from its `fn`. -/
theorem function (hphrases : phrases.Agree pairing phrases') (count count' : Nat)
    (h : pairing.Along 2 cursor cursor') :
    (phrases.function count).Agrees pairing 2 (FunctionLiteral.relocated pairing.change)
      (phrases'.function count') cursor cursor' := by
  refine Rule.agrees_current h ?_
  refine (Rule.agrees_expectMark (by decide) h).bind fun _ first first' hfirst => ?_
  refine (Rule.agrees_list (by decide) Phrases.parameter_agrees count count' hfirst).bind
    fun parameters second second' hsecond => ?_
  refine (hphrases.bracedBlock count count' hsecond).bind fun body last last' hlast => ?_
  exact Rule.agrees_pure hlast rfl

/-- What may follow the consequence of a conditional. -/
theorem alternative (hphrases : phrases.Agree pairing phrases') {nested nested' : Rule Expr}
    (hnested : ∀ {cursor cursor'}, pairing.Along 2 cursor cursor' →
      nested.Agrees pairing 2 (Expr.relocated pairing.change) nested' cursor cursor')
    (count count' : Nat) (h : pairing.Along 2 cursor cursor') :
    (phrases.alternative nested count).Agrees pairing 2
      (Option.map (Block.relocated pairing.change)) (phrases'.alternative nested' count') cursor
      cursor' := by
  refine Rule.agrees_meetsWord h (fun helse => ?_) fun _ => Rule.agrees_pure h rfl
  refine (Rule.agrees_advance_word h helse).bind fun _ first first' hfirst => ?_
  refine Rule.agrees_meetsWord hfirst (fun hif => ?_) fun _ => ?_
  · refine (Rule.agrees_advance_word hfirst hif).bind fun _ second second' hsecond => ?_
    refine Rule.agrees_current hsecond ?_
    refine (hnested hsecond).bind fun inner last last' hlast => ?_
    exact Rule.agrees_pure hlast rfl
  · refine (hphrases.bracedBlock count count' hfirst).bind fun block last last' hlast => ?_
    exact Rule.agrees_pure hlast rfl

/-- A conditional from its `if`. -/
theorem conditional (hphrases : phrases.Agree pairing phrases') (count count' : Nat)
    (h : pairing.Along 2 cursor cursor') :
    (phrases.conditional count).Agrees pairing 2 (Expr.relocated pairing.change)
      (phrases'.conditional count') cursor cursor' := by
  induction count generalizing count' cursor cursor' with
  | zero => exact Rule.agrees_exhausted _
  | succ count ih =>
      cases count' with
      | zero => exact Rule.agrees_exhausted' _
      | succ count' =>
          refine Rule.agrees_current h ?_
          refine (Rule.agrees_advance h).bind fun _ first first' hfirst => ?_
          refine (hphrases.expression .lowest hfirst).bind
            fun condition second second' hsecond => ?_
          refine (hphrases.bracedBlock count count' hsecond).bind
            fun consequence third third' hthird => ?_
          refine (hphrases.alternative (fun hcursor => ih count' hcursor) count count' hthird).bind
            fun alternative last last' hlast => ?_
          refine Rule.agrees_pure hlast ?_
          rw [Expr.relocated, Block.relocatedOption_eq]
          rfl

/-- A prefix operator at the current token. -/
theorem unary (hphrases : phrases.Agree pairing phrases') (h : pairing.Along 2 cursor cursor')
    (location : Location) (operator : UnaryOperator) :
    (phrases.unary location operator).Agrees pairing 2 (Expr.relocated pairing.change)
      (phrases'.unary (pairing.change location) operator) cursor cursor' := by
  refine (Rule.agrees_advance h).bind fun _ first first' hfirst => ?_
  refine (hphrases.expression .unary hfirst).bind fun operand last last' hlast => ?_
  exact Rule.agrees_pure hlast rfl

/-- What an expression starts with. -/
theorem operand (hphrases : phrases.Agree pairing phrases') (count count' : Nat)
    (h : pairing.Along 1 cursor cursor') :
    (phrases.operand count).Agrees pairing 2 (Expr.relocated pairing.change)
      (phrases'.operand count') cursor cursor' := by
  refine Rule.agrees_current h ?_
  have hpast := h.past
  generalize cursor.current = token at hpast
  obtain ⟨lexeme, location⟩ := token
  dsimp only at hpast
  cases lexeme with
  | identifier name => exact Rule.agrees_pure (hpast Lexeme.noConfusion) rfl
  | integer digits => exact Phrases.integer_agrees (hpast Lexeme.noConfusion) location digits
  | float digits => exact Phrases.float_agrees (hpast Lexeme.noConfusion) location digits
  | string contents => exact Rule.agrees_pure (hpast Lexeme.noConfusion) rfl
  | illegal character => exact Rule.agrees_reject h _ _
  | eof => exact Rule.agrees_reject h _ _
  | word keyword =>
      have halong := hpast Lexeme.noConfusion
      cases keyword with
      | trueWord | falseWord => exact Rule.agrees_pure halong rfl
      | fnWord =>
          refine (hphrases.function count count' halong).bind fun literal last last' hlast => ?_
          exact Rule.agrees_pure hlast rfl
      | ifWord => exact hphrases.conditional count count' halong
      | _ => exact Rule.agrees_reject h _ _
  | mark mark =>
      cases mark with
      | minus => exact hphrases.unary (hpast (by decide)) location .negate
      | bang => exact hphrases.unary (hpast (by decide)) location .not
      | leftParen =>
          refine (Rule.agrees_advance (hpast (by decide))).bind fun _ first first' hfirst => ?_
          refine (hphrases.expression .lowest hfirst).bind fun inner second second' hsecond => ?_
          refine (Rule.agrees_expectMark (by decide) hsecond).bind fun _ last last' hlast => ?_
          exact Rule.agrees_pure hlast rfl
      | leftBracket =>
          have halong := hpast (by decide)
          refine (Rule.agrees_list (by decide) (hphrases.expression .lowest) count count'
            halong).bind fun elements last last' hlast => ?_
          refine Rule.agrees_pure hlast ?_
          rw [Expr.relocated, Expr.relocatedAll_eq]
      | leftBrace =>
          have halong := hpast (by decide)
          refine (hphrases.pairs count count' halong).bind fun pairs last last' hlast => ?_
          refine Rule.agrees_pure hlast ?_
          rw [Expr.relocated, Pair.relocatedAll_eq]
      | _ => exact Rule.agrees_reject h _ _

/-- An operator after an operand, with what belongs to it. -/
theorem continuation (hphrases : phrases.Agree pairing phrases') (count count' : Nat)
    (left : Expr) (h : pairing.Along 2 cursor cursor') :
    (phrases.continuation count left).Agrees pairing 2 (Expr.relocated pairing.change)
      (phrases'.continuation count' (left.relocated pairing.change)) cursor cursor' := by
  refine Rule.agrees_current h ?_
  obtain ⟨lexeme, location⟩ := cursor.current
  dsimp only [Token.relocated]
  split
  · refine (Rule.agrees_list (by decide) (hphrases.expression .lowest) count count' h).bind
      fun arguments last last' hlast => ?_
    refine Rule.agrees_pure hlast ?_
    rw [Expr.relocated, Expr.relocatedAll_eq]
  · refine (Rule.agrees_advance h).bind fun _ first first' hfirst => ?_
    refine (hphrases.expression .lowest hfirst).bind fun index second second' hsecond => ?_
    refine (Rule.agrees_expectMark (by decide) hsecond).bind fun _ last last' hlast => ?_
    exact Rule.agrees_pure hlast rfl
  · refine (Rule.agrees_advance h).bind fun _ first first' hfirst => ?_
    refine (hphrases.expression .lowest hfirst).bind fun value last last' hlast => ?_
    cases left with
    | identifier target => exact Rule.agrees_pure hlast rfl
    | _ => exact Rule.agrees_reject hlast _ _
  · split
    · next operator hoperator =>
        refine (Rule.agrees_advance h).bind fun _ first first' hfirst => ?_
        refine (hphrases.expression operator.precedence hfirst).bind
          fun right last last' hlast => ?_
        exact Rule.agrees_pure hlast rfl
    · exact Rule.agrees_pure h rfl

/-- The operators after an operand. No operator binds at the semicolon of a fence. -/
theorem extend (hphrases : phrases.Agree pairing phrases') (precedence : Precedence)
    (count count' : Nat) (left : Expr) (h : pairing.Along 2 cursor cursor') :
    (phrases.extend precedence count left).Agrees pairing 2 (Expr.relocated pairing.change)
      (phrases'.extend precedence count' (left.relocated pairing.change)) cursor cursor' := by
  induction count generalizing count' cursor cursor' left with
  | zero => exact Rule.agrees_exhausted _
  | succ count ih =>
      cases count' with
      | zero => exact Rule.agrees_exhausted' _
      | succ count' =>
          refine Rule.agrees_upcoming h ?_
          dsimp only [Token.relocated]
          split
          · next hbinds =>
              have hne : cursor.upcoming.lexeme ≠ .mark .semicolon := by
                intro hsemicolon
                rw [hsemicolon] at hbinds
                exact Nat.not_lt_zero _ hbinds
              refine (Rule.agrees_advance_past h hne).bind fun _ first first' hfirst => ?_
              refine (hphrases.continuation count count' left hfirst).bind
                fun longer second second' hsecond => ?_
              exact ih count' longer hsecond
          · exact Rule.agrees_pure h rfl

/-- A whole expression, which may start but not end at the semicolon of a fence. -/
theorem wholeExpression (hphrases : phrases.Agree pairing phrases') (precedence : Precedence)
    (count count' : Nat) (h : pairing.Along 1 cursor cursor') :
    (phrases.wholeExpression count precedence).Agrees pairing 2 (Expr.relocated pairing.change)
      (phrases'.wholeExpression count' precedence) cursor cursor' := by
  refine (hphrases.operand count count' h).bind fun left first first' hfirst => ?_
  exact hphrases.extend precedence count count' left hfirst

end Phrases.Agree

end Script
