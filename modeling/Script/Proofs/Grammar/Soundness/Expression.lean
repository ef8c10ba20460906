import Script.Proofs.Grammar.Progress

/-!
# Expression rules read phrases

Given large enough bounds, a rule that applies has read its phrase: the tokens up to the cursor
can be read as the phrase with the result of the rule. The reading is lenient when an error was
recorded, since a statement was skipped then. This module says so of the rules of expressions, of
lists and of blocks, provided that the rules of smaller phrases do: `Phrases.Sound`.
-/

namespace Script

/-- The phrase was read from the tokens up to the cursor, which stands on the last one of them. At
most `limit` errors are recorded in the end. -/
def Found (limit : Nat) {α : Type} (phrase : Phrase α) (before : List Token) (result : α)
    (cursor : Cursor) : Prop :=
  ∃ last after, cursor.rest = last :: after ∧
    (cursor.errors.length ≤ limit → Reads (0 < limit) phrase before result after)

/-- Rules for smaller phrases, which are bounded by `count`. -/
structure Phrases.Sound (limit count : Nat) (phrases : Phrases) : Prop where
  expression (precedence : Precedence) (cursor : Cursor) :
    2 * cursor.rest.length + 1 ≤ count →
      (phrases.expression precedence).Meets (Found limit (.expression precedence) cursor.rest)
        cursor
  statement (cursor : Cursor) :
    2 * cursor.rest.length + 2 ≤ count → firstLexeme cursor.rest ≠ .eof →
      phrases.statement.Meets
        (fun result last => last.rest.length < cursor.rest.length ∧
          (last.errors.length ≤ limit →
            Reads (0 < limit) .statement cursor.rest result last.rest)) cursor

/-- A phrase in front of others. -/
theorem Rule.Meets.bindFound {α β : Type} {rule : Rule α} {next : α → Rule β} {limit : Nat}
    {phrase : Phrase α} {before : List Token} {post : β → Cursor → Prop} {cursor : Cursor}
    (h : rule.Meets (Found limit phrase before) cursor)
    (hnext : ∀ result last token after, cursor.Leads last → last.rest = token :: after →
      after.length < cursor.rest.length →
      (last.errors.length ≤ limit → Reads (0 < limit) phrase before result after) →
      (next result).Meets post last) :
    (rule >>= next).Meets post cursor := by
  refine h.bind fun result last hleads hfound => ?_
  obtain ⟨token, after, hafter, hreads⟩ := hfound
  have hshorter := hleads.rest.length_le
  rw [hafter, List.length_cons] at hshorter
  exact hnext result last token after hleads hafter hshorter hreads

namespace Rule

variable {α : Type} {limit count : Nat} {item : Rule α} {phrase : Phrase α} {closing : Mark}
  {cursor : Cursor} {last : Token} {before : List Token}

/-- Items after commas. -/
theorem listTail_meets (hphrase : phrase.IsItem) (hmark : closing.ClosesList)
    (hitem : ∀ cursor, 2 * cursor.rest.length + 1 ≤ count →
      item.Meets (Found limit phrase cursor.rest) cursor)
    (bound : Nat) (hrest : cursor.rest = last :: before)
    (hcount : 2 * before.length + 1 ≤ count) (hbound : before.length < bound) :
    (Rule.listTail closing item bound).Meets (Found limit (.listTail closing phrase) before)
      cursor := by
  induction bound generalizing cursor last before with
  | zero => exact False.elim (Nat.not_lt_zero _ hbound)
  | succ bound ih =>
      rw [Rule.listTail]
      refine (meets_takeMark .comma).bind fun taken first _ htaken => ?_
      rw [hrest, List.tail_cons] at htaken
      -- a comma is followed by an item and a shorter tail, otherwise the list is closed
      rcases htaken with ⟨rfl, hcomma, location, items, rfl⟩ | ⟨rfl, rfl, hcomma⟩
      · rw [if_pos rfl]
        refine meets_advance.bind fun _ second _ hitems => ?_
        rw [hcomma, List.tail_cons] at hitems
        rw [List.length_cons] at hcount hbound
        refine (hitem second (by rw [hitems]; omega)).bindFound ?_
        rw [hitems]
        intro value third token middle _ hmiddle hshorter hvalue
        refine (ih hmiddle (by omega) (by omega)).bindFound ?_
        intro values fourth token' after hfourth hafter _ hvalues
        exact meets_pure ⟨token', after, hafter, fun hlimit =>
          .tailCons hphrase (hvalue (hfourth.le hlimit)) (hvalues hlimit)⟩
      · rw [if_neg Bool.false_ne_true]
        refine (meets_expectMark closing).bind fun _ last' _ hclosing => ?_
        rw [hrest, List.tail_cons] at hclosing
        obtain ⟨hlast, location, after, rfl⟩ := hclosing
        exact meets_pure ⟨_, after, hlast, fun _ => .tailEmpty hmark⟩

/-- Items separated by commas. -/
theorem list_meets (hphrase : phrase.IsItem) (hmark : closing.ClosesList)
    (hitem : ∀ cursor, 2 * cursor.rest.length + 1 ≤ count →
      item.Meets (Found limit phrase cursor.rest) cursor)
    (bound : Nat) (hrest : cursor.rest = last :: before)
    (hcount : 2 * before.length + 1 ≤ count) (hbound : before.length < bound) :
    (Rule.list closing item bound).Meets (Found limit (.list closing phrase) before) cursor := by
  refine (meets_takeMark closing).bind fun taken first _ htaken => ?_
  rw [hrest, List.tail_cons] at htaken
  rcases htaken with ⟨rfl, hclosing, location, after, rfl⟩ | ⟨rfl, rfl, hclosing⟩
  · rw [if_pos rfl]
    exact meets_pure ⟨_, after, hclosing, fun _ => .listEmpty hmark⟩
  · rw [if_neg Bool.false_ne_true]
    refine meets_advance.bind fun _ second _ hitems => ?_
    rw [hrest, List.tail_cons] at hitems
    refine (hitem second (by rw [hitems]; omega)).bindFound ?_
    rw [hitems]
    intro value third token middle _ hmiddle hshorter hvalue
    refine (listTail_meets hphrase hmark hitem bound hmiddle (by omega) (by omega)).bindFound ?_
    intro values fourth token' after hfourth hafter _ hvalues
    exact meets_pure ⟨token', after, hafter, fun hlimit =>
      .listCons hphrase hclosing (hvalue (hfourth.le hlimit)) (hvalues hlimit)⟩

end Rule

/-- A parameter of a function. -/
theorem Phrases.parameter_meets (limit : Nat) (cursor : Cursor) :
    Phrases.parameter.Meets (Found limit .parameter cursor.rest) cursor := by
  refine Rule.meets_current ?_
  split
  · next name hname =>
      cases hrest : cursor.rest with
      | nil =>
          rw [cursor.current_lexeme, hrest] at hname
          cases hname
      | cons token after =>
          rw [Cursor.current_eq hrest] at hname ⊢
          obtain ⟨lexeme, location⟩ := token
          cases hname
          exact Rule.meets_pure ⟨_, after, hrest, fun _ => .parameter⟩
  · exact Rule.meets_reject _ _

/-- The lexeme of an operator stands for no other operator. -/
theorem Lexeme.eq_of_binaryOperator? {lexeme : Lexeme} {operator : BinaryOperator}
    (h : lexeme.binaryOperator? = some operator) : lexeme = operator.lexeme := by
  unfold Lexeme.binaryOperator? at h
  split at h <;> cases h <;> rfl

namespace Phrases.Sound

variable {limit count : Nat} {phrases : Phrases} {cursor : Cursor} {last : Token}
  {before : List Token}

/-- The statements up to a token at which `stops` holds. The end of the text is one. -/
theorem statements (h : phrases.Sound limit count) {stops : Lexeme → Bool} (hstops : stops .eof)
    (bound : Nat) (hcount : 2 * cursor.rest.length + 2 ≤ count)
    (hbound : cursor.rest.length < bound) :
    (phrases.statements stops bound).Meets
      (fun result last => stops (firstLexeme last.rest) ∧
        (last.errors.length ≤ limit →
          Reads (0 < limit) (.statements stops) cursor.rest result last.rest)) cursor := by
  induction bound generalizing cursor with
  | zero => exact False.elim (Nat.not_lt_zero _ hbound)
  | succ bound ih =>
      rw [Phrases.statements]
      refine Rule.meets_current ?_
      rw [cursor.current_lexeme]
      cases hend : stops (firstLexeme cursor.rest) with
      | true =>
          rw [if_pos rfl]
          exact Rule.meets_pure ⟨hend, fun _ => .statementsEnd hend⟩
      | false =>
          rw [if_neg Bool.false_ne_true]
          have hne : firstLexeme cursor.rest ≠ .eof := by
            intro heof
            rw [heof, hstops] at hend
            cases hend
          refine (h.statement cursor hcount hne).bind fun statement middle _ hmiddle => ?_
          obtain ⟨hshorter, hstatement⟩ := hmiddle
          refine (ih (by omega) (by omega)).bind fun rest last hlast hrest => ?_
          exact Rule.meets_pure ⟨hrest.1, fun hlimit =>
            .statementsMore hend (hstatement (hlast.le hlimit)) (hrest.2 hlimit)⟩

/-- A block whose brace comes next. -/
theorem block (h : phrases.Sound limit count) (bound : Nat) (hrest : cursor.rest = last :: before)
    (hcount : 2 * before.length ≤ count) (hbound : before.length ≤ bound) :
    (phrases.bracedBlock bound).Meets (Found limit .block before) cursor := by
  refine (Rule.meets_expectMark .leftBrace).bind fun _ first _ hbrace => ?_
  rw [hrest, List.tail_cons] at hbrace
  obtain ⟨hfirst, location, inner, rfl⟩ := hbrace
  rw [List.length_cons] at hcount hbound
  refine Rule.meets_current ?_
  rw [Cursor.current_eq (hfirst.trans rfl)]
  refine Rule.meets_advance.bind fun _ second _ hsecond => ?_
  rw [hfirst, List.tail_cons] at hsecond
  -- the number of blocks around a position has no influence on the reading
  refine (Rule.meets_modify (Cursor.blocks_leads _ _)).bind fun _ third _ hthird => ?_
  subst hthird
  refine (h.statements (by rfl) bound (by rw [hsecond]; omega) (by rw [hsecond]; omega)).bind
    fun statements fourth _ hfourth => ?_
  obtain ⟨-, hstatements⟩ := hfourth
  refine (Rule.meets_modify (Cursor.blocks_leads _ _)).bind fun _ fifth _ hfifth => ?_
  subst hfifth
  refine Rule.meets_current ?_
  split
  · next hclosed =>
      rw [Cursor.current_lexeme] at hclosed
      obtain ⟨location', after, hafter⟩ :=
        Rule.exists_of_kind_mark (congrArg Lexeme.kind hclosed)
      refine Rule.meets_pure ⟨_, after, hafter, fun hlimit => ?_⟩
      have hreads := hstatements hlimit
      rw [hsecond, hafter] at hreads
      exact .block hreads
  · exact Rule.meets_reject _ _

/-- The pairs of a hash literal whose brace was read. -/
theorem pairs (h : phrases.Sound limit count) (bound : Nat) (hrest : cursor.rest = last :: before)
    (hcount : 2 * before.length + 1 ≤ count) (hbound : before.length < bound) :
    (phrases.pairs bound).Meets (Found limit .pairs before) cursor := by
  induction bound generalizing cursor last before with
  | zero => exact False.elim (Nat.not_lt_zero _ hbound)
  | succ bound ih =>
      rw [Phrases.pairs]
      refine (Rule.meets_takeMark .rightBrace).bind fun taken first _ htaken => ?_
      rw [hrest, List.tail_cons] at htaken
      rcases htaken with ⟨rfl, hclosing, location, after, rfl⟩ | ⟨rfl, rfl, hclosing⟩
      · rw [if_pos rfl]
        exact Rule.meets_pure ⟨_, after, hclosing, fun _ => .pairsEmpty⟩
      · rw [if_neg Bool.false_ne_true]
        refine Rule.meets_advance.bind fun _ second _ hsecond => ?_
        rw [hrest, List.tail_cons] at hsecond
        refine (h.expression .lowest second (by rw [hsecond]; omega)).bindFound ?_
        rw [hsecond]
        intro key third token middle _ hmiddle hshorter hkey
        refine (Rule.meets_expectMark .colon).bind fun _ fourth hfourth hcolon => ?_
        rw [hmiddle, List.tail_cons] at hcolon
        obtain ⟨hcolon, location, values, rfl⟩ := hcolon
        refine Rule.meets_advance.bind fun _ fifth hfifth hvalues => ?_
        rw [hcolon, List.tail_cons] at hvalues
        rw [List.length_cons] at hshorter
        refine (h.expression .lowest fifth (by rw [hvalues]; omega)).bindFound ?_
        rw [hvalues]
        intro value sixth token' last' hsixth hlast hshorter' hvalue
        have hkey' := fun hlimit => hkey (hfourth.le (hfifth.le (hsixth.le hlimit)))
        refine Rule.meets_meetsMark .rightBrace ?_
        rw [hlast, List.tail_cons]
        -- the comma may be missing after the last pair only
        by_cases hbrace : firstLexeme last' = .mark .rightBrace
        · rw [decide_eq_true hbrace]
          refine (ih hlast (by omega) (by omega)).bindFound ?_
          intro rest seventh token'' after hseventh hafter _ hrest'
          exact Rule.meets_pure ⟨token'', after, hafter, fun hlimit =>
            .pairsLast (hkey' (hseventh.le hlimit)) (hvalue (hseventh.le hlimit)) hbrace
              (hrest' hlimit)⟩
        · rw [decide_eq_false hbrace]
          refine (Rule.meets_expectMark .comma).bind fun _ comma hcomma hnext => ?_
          rw [hlast, List.tail_cons] at hnext
          obtain ⟨hnext, location', more, rfl⟩ := hnext
          rw [List.length_cons] at hshorter'
          refine (ih hnext (by omega) (by omega)).bindFound ?_
          intro rest seventh token'' after hseventh hafter _ hrest'
          exact Rule.meets_pure ⟨token'', after, hafter, fun hlimit =>
            have hlimit' := hcomma.le (hseventh.le hlimit)
            .pairsCons (hkey' hlimit') (hvalue hlimit') (hrest' hlimit)⟩

/-- What may follow the consequence of a conditional. -/
theorem alternative (h : phrases.Sound limit count) {nested : Rule Expr} (bound : Nat)
    (hnested : ∀ (cursor : Cursor) (location : Location) (rest : List Token),
      cursor.rest = ⟨.word .ifWord, location⟩ :: rest → rest.length < before.length →
      nested.Meets (Found limit .conditional cursor.rest) cursor)
    (hrest : cursor.rest = last :: before) (hcount : 2 * before.length ≤ count)
    (hbound : before.length ≤ bound) :
    (phrases.alternative nested bound).Meets (Found limit .alternative before) cursor := by
  refine Rule.meets_meetsWord .elseWord ?_
  rw [hrest, List.tail_cons]
  by_cases helse : firstLexeme before = .word .elseWord
  · rw [decide_eq_true helse, if_pos rfl]
    obtain ⟨place, rest, rfl⟩ := Rule.exists_of_kind_word (congrArg Lexeme.kind helse)
    simp only [List.length_cons] at hnested hcount hbound
    refine Rule.meets_advance.bind fun _ first _ hfirst => ?_
    rw [hrest, List.tail_cons] at hfirst
    refine Rule.meets_meetsWord .ifWord ?_
    rw [hfirst, List.tail_cons]
    by_cases hif : firstLexeme rest = .word .ifWord
    · rw [decide_eq_true hif, if_pos rfl]
      obtain ⟨place', inner, rfl⟩ := Rule.exists_of_kind_word (congrArg Lexeme.kind hif)
      rw [List.length_cons] at hnested
      refine Rule.meets_advance.bind fun _ second _ hsecond => ?_
      rw [hfirst, List.tail_cons] at hsecond
      refine Rule.meets_current ?_
      rw [Cursor.current_eq hsecond]
      have hinner := hnested second place' inner hsecond (by omega)
      rw [hsecond] at hinner
      refine hinner.bindFound ?_
      intro conditional third token after _ hafter _ hreads
      exact Rule.meets_pure ⟨token, after, hafter, fun hlimit => .elseIf (hreads hlimit)⟩
    · rw [decide_eq_false hif, if_neg Bool.false_ne_true]
      refine (h.block bound hfirst (by omega) (by omega)).bindFound ?_
      intro block second token after _ hafter _ hblock
      exact Rule.meets_pure ⟨token, after, hafter, fun hlimit => .alternative (hblock hlimit)⟩
  · rw [decide_eq_false helse, if_neg Bool.false_ne_true]
    exact Rule.meets_pure ⟨last, before, hrest, fun _ => .noAlternative helse⟩

/-- A conditional from its `if`. -/
theorem conditional (h : phrases.Sound limit count) (bound : Nat) {location : Location}
    (hrest : cursor.rest = ⟨.word .ifWord, location⟩ :: before)
    (hcount : 2 * before.length + 1 ≤ count) (hbound : before.length < bound) :
    (phrases.conditional bound).Meets (Found limit .conditional cursor.rest) cursor := by
  induction bound generalizing cursor before location with
  | zero => exact False.elim (Nat.not_lt_zero _ hbound)
  | succ bound ih =>
      rw [Phrases.conditional]
      refine Rule.meets_current ?_
      rw [Cursor.current_eq hrest, hrest]
      refine Rule.meets_advance.bind fun _ first _ hfirst => ?_
      rw [hrest, List.tail_cons] at hfirst
      refine (h.expression .lowest first (by rw [hfirst]; omega)).bindFound ?_
      rw [hfirst]
      intro condition second token middle _ hmiddle hshorter hcondition
      refine (h.block bound hmiddle (by omega) (by omega)).bindFound ?_
      rw [hmiddle, List.length_cons]
      intro consequence third token' rest hthird hlast hshorter' hconsequence
      -- a conditional after `else` is covered by the induction hypothesis
      have hnested : ∀ (cursor : Cursor) (location : Location) (inner : List Token),
          cursor.rest = ⟨.word .ifWord, location⟩ :: inner → inner.length < rest.length →
          (phrases.conditional bound).Meets (Found limit .conditional cursor.rest) cursor :=
        fun cursor location inner hcursor hinner => ih hcursor (by omega) (by omega)
      refine (h.alternative bound hnested hlast (by omega) (by omega)).bindFound ?_
      intro alternative fourth token'' after hfourth hafter _ hreads
      exact Rule.meets_pure ⟨token'', after, hafter, fun hlimit =>
        have hlimit' := hfourth.le hlimit
        .conditional (hcondition (hthird.le hlimit')) (hconsequence hlimit') (hreads hlimit)⟩

/-- A function from its `fn`. -/
theorem function (h : phrases.Sound limit count) (bound : Nat) {location : Location}
    (hrest : cursor.rest = ⟨.word .fnWord, location⟩ :: before)
    (hcount : 2 * before.length + 1 ≤ count) (hbound : before.length < bound) :
    (phrases.function bound).Meets
      (fun literal last => Found limit .operand cursor.rest (.function literal) last) cursor := by
  refine Rule.meets_current ?_
  rw [Cursor.current_eq hrest, hrest]
  refine (Rule.meets_expectMark .leftParen).bind fun _ first _ hparen => ?_
  rw [hrest, List.tail_cons] at hparen
  obtain ⟨hfirst, place, inner, rfl⟩ := hparen
  rw [List.length_cons] at hcount hbound
  refine (Rule.list_meets .parameter .paren
    (fun cursor _ => Phrases.parameter_meets limit cursor) bound hfirst (Nat.le_refl _)
    (by omega)).bindFound ?_
  rw [hfirst, List.length_cons]
  intro parameters second token middle _ hmiddle hshorter hparameters
  refine (h.block bound hmiddle (by omega) (by omega)).bindFound ?_
  intro body third token' after hthird hafter _ hbody
  exact Rule.meets_pure ⟨token', after, hafter, fun hlimit =>
    .function (hparameters (hthird.le hlimit)) (hbody hlimit)⟩

/-- A prefix operator at the current token. -/
theorem unary (h : phrases.Sound limit count) {location : Location} (operator : UnaryOperator)
    (hrest : cursor.rest = ⟨operator.lexeme, location⟩ :: before)
    (hcount : 2 * before.length + 1 ≤ count) :
    (phrases.unary location operator).Meets (Found limit .operand cursor.rest) cursor := by
  refine Rule.meets_advance.bind fun _ first _ hfirst => ?_
  rw [hrest, List.tail_cons] at hfirst
  refine (h.expression .unary first (by rw [hfirst]; omega)).bindFound ?_
  rw [hfirst, hrest]
  intro operand second token after _ hafter _ hoperand
  exact Rule.meets_pure ⟨token, after, hafter, fun hlimit => .unary (hoperand hlimit)⟩

/-- What an expression starts with. -/
theorem operand (h : phrases.Sound limit count) (bound : Nat)
    (hcount : 2 * cursor.rest.length ≤ count) (hbound : cursor.rest.length ≤ bound) :
    (phrases.operand bound).Meets (Found limit .operand cursor.rest) cursor := by
  refine Rule.meets_current ?_
  cases hrest : cursor.rest with
  | nil =>
      have heof : cursor.current = ⟨.eof, cursor.finish⟩ := by
        rw [Cursor.current, hrest]
        rfl
      rw [heof]
      exact Rule.meets_reject _ _
  | cons token before =>
      rw [hrest, List.length_cons] at hcount hbound
      rw [Cursor.current_eq hrest, ← hrest]
      obtain ⟨lexeme, location⟩ := token
      cases lexeme with
      | identifier name =>
          exact Rule.meets_pure ⟨_, before, hrest, fun _ => hrest ▸ .identifier⟩
      | integer digits =>
          dsimp only [Phrases.integer]
          split
          · next hrange =>
              exact Rule.meets_pure ⟨_, before, hrest, fun _ => hrest ▸ .integer hrange⟩
          · exact Rule.meets_reject _ _
      | float digits =>
          dsimp only [Phrases.float]
          split
          · next value hvalue =>
              exact Rule.meets_pure ⟨_, before, hrest, fun _ => hrest ▸ .float hvalue⟩
          · exact Rule.meets_reject _ _
      | string contents => exact Rule.meets_pure ⟨_, before, hrest, fun _ => hrest ▸ .string⟩
      | word keyword =>
          cases keyword with
          | trueWord => exact Rule.meets_pure ⟨_, before, hrest, fun _ => hrest ▸ .trueLiteral⟩
          | falseWord => exact Rule.meets_pure ⟨_, before, hrest, fun _ => hrest ▸ .falseLiteral⟩
          | fnWord =>
              refine (h.function bound hrest (by omega) (by omega)).bind ?_
              intro literal last _ hliteral
              exact Rule.meets_pure hliteral
          | ifWord =>
              refine (h.conditional bound hrest (by omega) (by omega)).weaken ?_
              intro result last _ hfound
              obtain ⟨token, after, hafter, hreads⟩ := hfound
              exact ⟨token, after, hafter, fun hlimit => .choice (hreads hlimit)⟩
          | letWord | inWord | elseWord | forWord | whileWord | returnWord | breakWord
          | continueWord | tryWord | catchWord | finallyWord =>
              exact Rule.meets_reject _ _
      | mark mark =>
          cases mark with
          | minus => exact h.unary .negate hrest (by omega)
          | bang => exact h.unary .not hrest (by omega)
          | leftParen =>
              refine Rule.meets_advance.bind fun _ first _ hfirst => ?_
              rw [hrest, List.tail_cons] at hfirst
              refine (h.expression .lowest first (by rw [hfirst]; omega)).bindFound ?_
              rw [hfirst, hrest]
              intro inner second token middle _ hmiddle _ hinner
              refine (Rule.meets_expectMark .rightParen).bind fun _ third hthird hparen => ?_
              rw [hmiddle, List.tail_cons] at hparen
              obtain ⟨hafter, place, after, rfl⟩ := hparen
              exact Rule.meets_pure ⟨_, after, hafter, fun hlimit =>
                .group (hinner (hthird.le hlimit))⟩
          | leftBracket =>
              refine (Rule.list_meets .expression .bracket (h.expression .lowest) bound hrest
                (by omega) (by omega)).bindFound ?_
              rw [hrest]
              intro elements first token after _ hafter _ helements
              exact Rule.meets_pure ⟨token, after, hafter, fun hlimit => .array (helements hlimit)⟩
          | leftBrace =>
              refine (h.pairs bound hrest (by omega) (by omega)).bindFound ?_
              rw [hrest]
              intro pairs first token after _ hafter _ hpairs
              exact Rule.meets_pure ⟨token, after, hafter, fun hlimit => .hash (hpairs hlimit)⟩
          | plus | star | slash | assign | equal | notEqual | less | lessEqual | greater
          | greaterEqual | and | or | rightParen | rightBrace | rightBracket | comma | semicolon
          | colon | commentOpen | commentClose =>
              exact Rule.meets_reject _ _
      | illegal character => exact Rule.meets_reject _ _
      | eof => exact Rule.meets_reject _ _

/-- An operator after an operand, with what belongs to it. -/
theorem continuation (h : phrases.Sound limit count) (bound : Nat) (left : Expr) {token : Token}
    (hrest : cursor.rest = token :: before) (htoken : 0 < token.lexeme.precedence.level)
    (hcount : 2 * before.length + 1 ≤ count) (hbound : before.length < bound) :
    (phrases.continuation bound left).Meets (Found limit (.continuation left) cursor.rest)
      cursor := by
  refine Rule.meets_current ?_
  rw [Cursor.current_eq hrest]
  obtain ⟨lexeme, location⟩ := token
  dsimp only
  -- one case for each branch of the rule: arguments, an index, a value, other operators
  split
  · refine (Rule.list_meets .expression .paren (h.expression .lowest) bound hrest hcount
      hbound).bindFound ?_
    rw [hrest]
    intro arguments first token after _ hafter _ harguments
    exact Rule.meets_pure ⟨token, after, hafter, fun hlimit => .call (harguments hlimit)⟩
  · refine Rule.meets_advance.bind fun _ first _ hfirst => ?_
    rw [hrest, List.tail_cons] at hfirst
    refine (h.expression .lowest first (by rw [hfirst]; exact hcount)).bindFound ?_
    rw [hfirst, hrest]
    intro index second token middle _ hmiddle _ hindex
    refine (Rule.meets_expectMark .rightBracket).bind fun _ third hthird hbracket => ?_
    rw [hmiddle, List.tail_cons] at hbracket
    obtain ⟨hafter, place, after, rfl⟩ := hbracket
    exact Rule.meets_pure ⟨_, after, hafter, fun hlimit => .index (hindex (hthird.le hlimit))⟩
  · refine Rule.meets_advance.bind fun _ first _ hfirst => ?_
    rw [hrest, List.tail_cons] at hfirst
    refine (h.expression .lowest first (by rw [hfirst]; exact hcount)).bindFound ?_
    rw [hfirst, hrest]
    intro value second token after _ hafter _ hvalue
    cases left with
    | identifier target =>
        exact Rule.meets_pure ⟨token, after, hafter, fun hlimit => .assign (hvalue hlimit)⟩
    | _ => exact Rule.meets_reject _ _
  · next hparen hbracket hassign =>
      split
      · next operator hoperator =>
          obtain rfl := Lexeme.eq_of_binaryOperator? hoperator
          refine Rule.meets_advance.bind fun _ first _ hfirst => ?_
          rw [hrest, List.tail_cons] at hfirst
          have hright : 2 * first.rest.length + 1 ≤ count := by
            rw [hfirst]
            exact hcount
          refine (h.expression operator.precedence first hright).bindFound ?_
          rw [hfirst, hrest]
          intro right second token after _ hafter _ hright
          exact Rule.meets_pure ⟨token, after, hafter, fun hlimit => .binary (hright hlimit)⟩
      · next hnone =>
          -- no other lexeme binds to an operand
          have hlowest : lexeme.precedence = .lowest := by
            simp only [Lexeme.precedence, hnone]
          rw [hlowest] at htoken
          exact False.elim (Nat.not_lt_zero _ htoken)

/-- The operators after an operand. -/
theorem extend (h : phrases.Sound limit count) (precedence : Precedence) (bound : Nat) (left : Expr)
    (hrest : cursor.rest = last :: before) (hcount : 2 * before.length ≤ count)
    (hbound : before.length < bound) :
    (phrases.extend precedence bound left).Meets (Found limit (.extension precedence left) before)
      cursor := by
  induction bound generalizing cursor last before left with
  | zero => exact False.elim (Nat.not_lt_zero _ hbound)
  | succ bound ih =>
      rw [Phrases.extend]
      refine Rule.meets_upcoming ?_
      rw [cursor.upcoming_lexeme, hrest, List.tail_cons]
      split
      · next hbinds =>
          refine Rule.meets_advance.bind fun _ first _ hfirst => ?_
          rw [hrest, List.tail_cons] at hfirst
          cases before with
          | nil => exact False.elim (Nat.not_lt_zero _ hbinds)
          | cons token inner =>
              rw [List.length_cons] at hcount hbound
              refine (h.continuation bound left hfirst (Nat.zero_lt_of_lt hbinds) (by omega)
                (by omega)).bindFound ?_
              rw [hfirst, List.length_cons]
              intro longer second token' middle _ hmiddle hshorter hlonger
              refine (ih longer hmiddle (by omega) (by omega)).weaken ?_
              intro result third hthird hfound
              obtain ⟨token'', after, hafter, hresult⟩ := hfound
              exact ⟨token'', after, hafter, fun hlimit =>
                .extended hbinds (hlonger (hthird.le hlimit)) (hresult hlimit)⟩
      · next hends =>
          exact Rule.meets_pure ⟨last, before, hrest, fun _ => .complete hends⟩

/-- A whole expression, one level of nesting above its parts. -/
theorem wholeExpression (h : phrases.Sound limit count) (precedence : Precedence)
    (hcount : 2 * cursor.rest.length ≤ count) :
    (phrases.wholeExpression count precedence).Meets
      (Found limit (.expression precedence) cursor.rest) cursor := by
  refine (h.operand count hcount (by omega)).bindFound ?_
  intro left first token middle _ hmiddle hshorter hleft
  refine (h.extend precedence count left hmiddle (by omega) (by omega)).weaken ?_
  intro result last hlast hfound
  obtain ⟨token', after, hafter, hresult⟩ := hfound
  exact ⟨token', after, hafter, fun hlimit =>
    .expression (hleft (hlast.le hlimit)) (hresult hlimit)⟩

end Phrases.Sound

end Script
