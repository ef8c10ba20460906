import Script.Proofs.Grammar.Ending

/-!
# Rules of expressions end

The rules of expressions, lists and blocks end if the rules of smaller phrases do: `Phrases.End`.
Before a smaller phrase of the same kind a rule always moves on, so bounds that exceed twice the
number of tokens by a little are enough. A block counts as one around its statements only.
-/

namespace Script

/-- Rules for smaller phrases, which end if `nested` is large enough for the tokens. -/
structure Phrases.End (nested : Nat) (phrases phrases' : Phrases) : Prop where
  expression (precedence : Precedence) (cursor : Cursor) :
    (phrases.expression precedence).Ends (2 * cursor.rest.length + 2 ≤ nested)
      (phrases'.expression precedence) cursor
  statement (cursor : Cursor) :
    phrases.statement.Ends (2 * cursor.rest.length + 3 ≤ nested) phrases'.statement cursor
  /-- A broken statement is skipped. -/
  settles : phrases.statement.Settles
  /-- A statement has a token. -/
  shorter {cursor last : Cursor} {result : Option Statement} :
    cursor.current.lexeme ≠ .eof → phrases.statement cursor = .parsed result last →
      last.rest.length < cursor.rest.length

/-- A parameter of a function. -/
theorem Phrases.parameter_ends {enough : Prop} (cursor : Cursor) :
    Phrases.parameter.Ends enough Phrases.parameter cursor := by
  refine Rule.ends_current ?_
  split
  · exact Rule.ends_pure _
  · exact Rule.ends_reject _ _

namespace Phrases.End

variable {enough : Prop} {nested count count' : Nat} {phrases phrases' : Phrases}
  {cursor : Cursor}

/-- An expression where the bound is large enough. -/
theorem smaller (h : phrases.End nested phrases') (precedence : Precedence)
    (hnested : enough → 2 * cursor.rest.length + 2 ≤ nested) :
    (phrases.expression precedence).Ends enough (phrases'.expression precedence) cursor :=
  (h.expression precedence cursor).weaken hnested

/-- Statements up to a token at which `stops` holds, which the end of the text has to be. -/
theorem statements (h : phrases.End nested phrases') {stops : Lexeme → Bool}
    (hstops : enough → stops .eof = true) (hle : count ≤ count')
    (hbounds : enough → 2 * cursor.rest.length + 3 ≤ nested ∧
      cursor.rest.length < count) :
    (phrases.statements stops count).Ends enough (phrases'.statements stops count') cursor := by
  induction count generalizing count' cursor with
  | zero => exact Rule.ends_exhausted fun henough => Nat.not_lt_zero _ (hbounds henough).2
  | succ count ih =>
      obtain ⟨count', rfl⟩ := Nat.exists_eq_add_one.2 (Nat.zero_lt_of_lt hle)
      rw [Phrases.statements, Phrases.statements]
      refine Rule.ends_current ?_
      cases hend : stops cursor.current.lexeme with
      | true =>
          rw [if_pos rfl, if_pos rfl]
          exact Rule.ends_pure _
      | false =>
          rw [if_neg Bool.false_ne_true, if_neg Bool.false_ne_true]
          have hstatement := (h.statement cursor).weaken fun henough => (hbounds henough).1
          refine hstatement.bind fun statement middle hrun hmiddle => ?_
          have hshorter (henough : enough) : middle.rest.length < cursor.rest.length := by
            refine h.shorter (fun heof => ?_) hrun
            rw [heof, hstops henough] at hend
            cases hend
          refine Rule.Ends.bind (ih (Nat.le_of_succ_le_succ hle) fun henough => ?_)
            fun rest last _ _ => Rule.ends_pure _
          have hlength := hshorter henough
          have hbound := hbounds henough
          omega

/-- A block whose brace comes next. -/
theorem bracedBlock (h : phrases.End nested phrases') (hle : count ≤ count')
    (hbounds : enough → 2 * (cursor.rest.length - 1) + 1 ≤ nested ∧
      cursor.rest.length - 1 ≤ count) :
    (phrases.bracedBlock count).Ends enough (phrases'.bracedBlock count') cursor := by
  refine Rule.ends_expectMark .leftBrace fun first _ hlength htwo => ?_
  refine Rule.ends_current ?_
  refine Rule.ends_advance fun second _ hlength' => ?_
  refine Rule.Ends.enclosed (h.statements (fun _ => rfl) hle fun henough => ?_)
    (Phrases.statements_settles h.settles _ _) fun statements last _ => ?_
  · have hbound := hbounds henough
    show 2 * second.rest.length + 3 ≤ nested ∧ second.rest.length < count
    omega
  · refine Rule.ends_current ?_
    split
    · exact Rule.ends_pure _
    · exact Rule.ends_reject _ _

/-- The pairs of a hash literal whose brace was read. -/
theorem pairs (h : phrases.End nested phrases') (hle : count ≤ count')
    (hbounds : enough → 2 * (cursor.rest.length - 1) + 2 ≤ nested ∧
      cursor.rest.length - 1 < count) :
    (phrases.pairs count).Ends enough (phrases'.pairs count') cursor := by
  induction count generalizing count' cursor with
  | zero => exact Rule.ends_exhausted fun henough => Nat.not_lt_zero _ (hbounds henough).2
  | succ count ih =>
      obtain ⟨count', rfl⟩ := Nat.exists_eq_add_one.2 (Nat.zero_lt_of_lt hle)
      have hle := Nat.le_of_succ_le_succ hle
      rw [Phrases.pairs, Phrases.pairs]
      refine Rule.ends_takeMark .rightBrace (fun _ _ _ _ => Rule.ends_pure _) ?_
      refine Rule.ends_advance fun first _ hfirst => ?_
      refine (h.smaller .lowest fun henough => ?_).bind fun key second _ hsecond => ?_
      · have hbound := hbounds henough
        omega
      have hsecond := hsecond.length_le
      refine Rule.ends_expectMark .colon fun third _ hthird hcolon => ?_
      refine Rule.ends_advance fun fourth _ hfourth => ?_
      refine (h.smaller .lowest fun henough => ?_).bind fun value fifth _ hfifth => ?_
      · have hbound := hbounds henough
        omega
      have hfifth := hfifth.length_le
      -- whether a comma was taken or not, fewer tokens are left for the remaining pairs
      have hrest {last : Cursor} (hlast : last.rest.length ≤ fifth.rest.length) :
          (phrases.pairs count >>= fun rest => pure (Pair.mk key value :: rest)).Ends enough
            (phrases'.pairs count' >>= fun rest => pure (Pair.mk key value :: rest)) last := by
        refine Rule.Ends.bind (ih hle fun henough => ?_)
          fun rest _ _ _ => Rule.ends_pure _
        · have hbound := hbounds henough
          omega
      refine Rule.ends_meetsMark .rightBrace (fun _ => hrest (Nat.le_refl _)) ?_
      exact Rule.ends_expectMark .comma fun last hlast _ _ => hrest hlast.length_le

/-- A function from its `fn`. -/
theorem function (h : phrases.End nested phrases') (hle : count ≤ count')
    (hbounds : enough → 2 * (cursor.rest.length - 1) + 1 ≤ nested ∧
      cursor.rest.length - 1 ≤ count) :
    (phrases.function count).Ends enough (phrases'.function count') cursor := by
  refine Rule.ends_current ?_
  refine Rule.ends_expectMark .leftParen fun first _ hfirst htwo => ?_
  refine Rule.Ends.bind (Rule.ends_list (fun last _ _ => Phrases.parameter_ends last) hle
    fun henough => ?_) fun parameters second _ hsecond => ?_
  · have hbound := hbounds henough
    omega
  have hsecond := hsecond.length_le
  refine (h.bracedBlock hle fun henough => ?_).bind
    fun body last _ _ => Rule.ends_pure _
  · have hbound := hbounds henough
    omega

/-- What may follow the consequence of a conditional. -/
theorem alternative (h : phrases.End nested phrases') {inner inner' : Rule Expr}
    (hinner : ∀ last : Cursor, last.rest.length + 2 ≤ cursor.rest.length →
      inner.Ends enough inner' last)
    (hle : count ≤ count') (hbounds : enough → 2 * (cursor.rest.length - 1) + 1 ≤ nested ∧
      cursor.rest.length - 1 ≤ count) :
    (phrases.alternative inner count).Ends enough (phrases'.alternative inner' count')
      cursor := by
  refine Rule.ends_meetsWord .elseWord (fun htwo => ?_) (Rule.ends_pure _)
  refine Rule.ends_advance fun first _ hfirst => ?_
  refine Rule.ends_meetsWord .ifWord (fun htwo' => ?_) ?_
  · refine Rule.ends_advance fun second _ hsecond => ?_
    refine Rule.ends_current ?_
    exact (hinner second (by omega)).bind fun _ _ _ _ => Rule.ends_pure _
  · refine (h.bracedBlock hle fun henough => ?_).bind
      fun block last _ _ => Rule.ends_pure _
    · have hbound := hbounds henough
      omega

/-- A conditional from its `if`. -/
theorem conditional (h : phrases.End nested phrases') (hle : count ≤ count')
    (hbounds : enough → 2 * (cursor.rest.length - 1) + 2 ≤ nested ∧
      cursor.rest.length - 1 < count) :
    (phrases.conditional count).Ends enough (phrases'.conditional count') cursor := by
  induction count generalizing count' cursor with
  | zero => exact Rule.ends_exhausted fun henough => Nat.not_lt_zero _ (hbounds henough).2
  | succ count ih =>
      obtain ⟨count', rfl⟩ := Nat.exists_eq_add_one.2 (Nat.zero_lt_of_lt hle)
      have hle := Nat.le_of_succ_le_succ hle
      rw [Phrases.conditional, Phrases.conditional]
      refine Rule.ends_current ?_
      refine Rule.ends_advance fun first _ hfirst => ?_
      refine (h.smaller .lowest fun henough => ?_).bind fun condition second _ hsecond => ?_
      · have hbound := hbounds henough
        omega
      have hsecond := hsecond.length_le
      refine (h.bracedBlock hle fun henough => ?_).bind
        fun consequence third _ hthird => ?_
      · have hbound := hbounds henough
        omega
      have hthird := hthird.length_le
      refine (h.alternative (fun inner hinner => ih hle fun henough => ?_) hle
        fun henough => ?_).bind fun alternative last _ _ => Rule.ends_pure _
      · have hbound := hbounds henough
        omega
      · have hbound := hbounds henough
        omega

/-- A prefix operator at the current token. -/
theorem unary (h : phrases.End nested phrases') (location : Location) (operator : UnaryOperator)
    (hnested : enough → 2 * (cursor.rest.length - 1) + 2 ≤ nested) :
    (phrases.unary location operator).Ends enough (phrases'.unary location operator) cursor := by
  refine Rule.ends_advance fun first _ hfirst => ?_
  exact (h.smaller .unary fun henough => hfirst ▸ hnested henough).bind
    fun operand last _ _ => Rule.ends_pure _

end Phrases.End

/-- An integer literal. -/
theorem Phrases.integer_ends {enough : Prop} (location : Location) (digits : String)
    (cursor : Cursor) :
    (Phrases.integer location digits).Ends enough (Phrases.integer location digits) cursor := by
  unfold Phrases.integer
  dsimp only
  split
  · exact Rule.ends_pure _
  · exact Rule.ends_reject _ _

/-- A literal with a dot. -/
theorem Phrases.float_ends {enough : Prop} (location : Location) (digits : String)
    (cursor : Cursor) :
    (Phrases.float location digits).Ends enough (Phrases.float location digits) cursor := by
  unfold Phrases.float
  split
  · exact Rule.ends_pure _
  · exact Rule.ends_reject _ _

namespace Phrases.End

variable {enough : Prop} {nested count count' : Nat} {phrases phrases' : Phrases}
  {cursor : Cursor}

/-- What an expression starts with. -/
theorem operand (h : phrases.End nested phrases') (hle : count ≤ count')
    (hbounds : enough → 2 * cursor.rest.length ≤ nested ∧
      cursor.rest.length ≤ count) :
    (phrases.operand count).Ends enough (phrases'.operand count') cursor := by
  refine Rule.ends_current ?_
  have htoken := cursor.length_pos_of_current
  generalize cursor.current = token at htoken
  obtain ⟨lexeme, location⟩ := token
  cases lexeme with
  | identifier | string => exact Rule.ends_pure _
  | integer digits => exact Phrases.integer_ends location digits cursor
  | float digits => exact Phrases.float_ends location digits cursor
  | illegal | eof => exact Rule.ends_reject _ _
  | word keyword =>
      have hpos := htoken Lexeme.noConfusion
      cases keyword with
      | trueWord | falseWord => exact Rule.ends_pure _
      | fnWord =>
          refine (h.function hle fun henough => ?_).bind
            fun literal last _ _ => Rule.ends_pure _
          · have hbound := hbounds henough
            omega
      | ifWord =>
          refine h.conditional hle fun henough => ?_
          · have hbound := hbounds henough
            omega
      | _ => exact Rule.ends_reject _ _
  | mark mark =>
      have hpos := htoken Lexeme.noConfusion
      have hinner (henough : enough) :
          2 * (cursor.rest.length - 1) + 2 ≤ nested ∧ cursor.rest.length - 1 < count := by
        have hbound := hbounds henough
        omega
      cases mark with
      | minus => exact h.unary location .negate fun henough => (hinner henough).1
      | bang => exact h.unary location .not fun henough => (hinner henough).1
      | leftParen =>
          refine Rule.ends_advance fun first _ hfirst => ?_
          refine (h.smaller .lowest fun henough => hfirst ▸ (hinner henough).1).bind
            fun inner second _ _ => ?_
          exact Rule.ends_expectMark .rightParen fun last _ _ _ => Rule.ends_pure _
      | leftBracket =>
          refine Rule.Ends.bind (Rule.ends_list (fun last _ hlast => ?_) hle
            fun henough => (hinner henough).2) fun elements last _ _ => Rule.ends_pure _
          refine h.smaller .lowest fun henough => ?_
          have hbound := hinner henough
          omega
      | leftBrace =>
          exact (h.pairs hle hinner).bind fun pairs last _ _ => Rule.ends_pure _
      | _ => exact Rule.ends_reject _ _

/-- An operator after an operand, with what belongs to it. -/
theorem continuation (h : phrases.End nested phrases') (hle : count ≤ count') (left : Expr)
    (hbounds : enough → 2 * (cursor.rest.length - 1) + 2 ≤ nested ∧
      cursor.rest.length - 1 < count) :
    (phrases.continuation count left).Ends enough (phrases'.continuation count' left) cursor := by
  have hvalue (precedence : Precedence) {last : Cursor}
      (hlast : last.rest.length ≤ cursor.rest.length - 1) :
      (phrases.expression precedence).Ends enough (phrases'.expression precedence) last := by
    refine h.smaller precedence fun henough => ?_
    have hbound := hbounds henough
    omega
  refine Rule.ends_current ?_
  obtain ⟨lexeme, location⟩ := cursor.current
  dsimp only
  split
  · refine Rule.Ends.bind (Rule.ends_list (fun last _ hlast => hvalue .lowest hlast) hle
      fun henough => (hbounds henough).2) fun arguments last _ _ => Rule.ends_pure _
  · refine Rule.ends_advance fun first _ hfirst => ?_
    refine (hvalue .lowest (Nat.le_of_eq hfirst)).bind fun index second _ _ => ?_
    exact Rule.ends_expectMark .rightBracket fun last _ _ _ => Rule.ends_pure _
  · refine Rule.ends_advance fun first _ hfirst => ?_
    refine (hvalue .lowest (Nat.le_of_eq hfirst)).bind fun value last _ _ => ?_
    cases left with
    | identifier target => exact Rule.ends_pure _
    | _ => exact Rule.ends_reject _ _
  · split
    · next operator _ =>
        refine Rule.ends_advance fun first _ hfirst => ?_
        exact (hvalue operator.precedence (Nat.le_of_eq hfirst)).bind
          fun right last _ _ => Rule.ends_pure _
    · exact Rule.ends_pure _

/-- The operators after an operand. -/
theorem extend (h : phrases.End nested phrases') (precedence : Precedence) (hle : count ≤ count')
    (left : Expr) (hbounds : enough → 2 * (cursor.rest.length - 1) ≤ nested ∧
      cursor.rest.length - 1 < count) :
    (phrases.extend precedence count left).Ends enough (phrases'.extend precedence count' left)
      cursor := by
  induction count generalizing count' cursor left with
  | zero => exact Rule.ends_exhausted fun henough => Nat.not_lt_zero _ (hbounds henough).2
  | succ count ih =>
      obtain ⟨count', rfl⟩ := Nat.exists_eq_add_one.2 (Nat.zero_lt_of_lt hle)
      have hle := Nat.le_of_succ_le_succ hle
      rw [Phrases.extend, Phrases.extend]
      refine Rule.ends_upcoming ?_
      split
      · next hbinds =>
          -- the end of the text does not bind
          have htwo : 2 ≤ cursor.rest.length := by
            refine Cursor.two_le_of_upcoming fun heof => ?_
            rw [heof] at hbinds
            exact Nat.not_lt_zero _ hbinds
          refine Rule.ends_advance fun first _ hfirst => ?_
          refine (h.continuation hle left fun henough => ?_).bind
            fun longer second _ hsecond => ?_
          · have hbound := hbounds henough
            omega
          have hsecond := hsecond.length_le
          refine ih hle longer fun henough => ?_
          · have hbound := hbounds henough
            omega
      · exact Rule.ends_pure _

/-- A whole expression, one level of nesting above its parts. -/
theorem wholeExpression (h : phrases.End count phrases') (precedence : Precedence)
    (hle : count ≤ count') (hcount : enough → 2 * cursor.rest.length + 1 ≤ count) :
    (phrases.wholeExpression count precedence).Ends enough
      (phrases'.wholeExpression count' precedence) cursor := by
  refine (h.operand hle fun henough => ?_).bind fun left first _ hfirst => ?_
  · have hbound := hcount henough
    omega
  have hfirst := hfirst.length_le
  refine h.extend precedence hle left fun henough => ?_
  · have hbound := hcount henough
    omega

end Phrases.End

end Script
