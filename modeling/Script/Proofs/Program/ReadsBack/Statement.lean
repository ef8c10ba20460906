import Script.Proofs.Program.ReadsBack.Expression

/-!
# Texts of blocks and statements

The text of a block or a statement reads back if the texts of its parts do, and so do the texts of
statements that stand in a row: `Scans.statements`. A statement is ended by a semicolon or by the
brace of a block, and what follows it starts another one or ends the row.
-/

namespace Script

/-! ## Blocks -/

theorem Ends.blank {c : Char} {rest : List Char} (h : Stream.separates c = true) :
    Ends (c :: rest) := by
  have hblank : ((c = ' ' ∨ c = '\t') ∨ c = '\r') ∨ c = '\n' := by
    simpa [Stream.separates] using h
  rcases hblank with ((rfl | rfl) | rfl) | rfl <;> exact .cons rfl rfl

theorem Lexeme.startsForm.mayFollow {lexeme : Lexeme} (h : lexeme.startsForm) :
    lexeme.mayFollow := by
  constructor
  · intro hsemicolon
    subst hsemicolon
    rcases h with h | h <;> cases h
  · intro hfinally
    subst hfinally
    rcases h with h | h <;> cases h

/-- No statement starts where a block may end. -/
theorem Lexeme.startsForm.closesBlock {lexeme : Lexeme} (h : lexeme.startsForm) :
    lexeme.closesBlock = false := by
  apply decide_eq_false
  intro hend
  rcases hend with rfl | rfl <;> rcases h with h | h <;> cases h

theorem Lexeme.mayFollow_of_closesBlock {lexeme : Lexeme} (h : lexeme.closesBlock = true) :
    lexeme.mayFollow := by
  rcases of_decide_eq_true h with rfl | rfl <;> constructor <;> intro heq <;> cases heq

/-- Statements, each after a blank, up to a lexeme at which they stop. -/
theorem Scans.statements {gap : Char} (hgap : Stream.separates gap = true) {stops : Lexeme → Bool}
    (hstops : ∀ lexeme, stops lexeme = true → lexeme.closesBlock = true)
    {statements : List Statement}
    (h : ∀ statement ∈ statements, statement.ReadsBack) {rest : List Char} (hends : Ends rest)
    {last : Stream} {place : Location} {tokens : List Token}
    (hscans : Scans place
      (statements.flatMap (fun statement => gap :: statement.text.toList) ++ rest) tokens last) :
    ∃ reached after copies, Scans reached rest after last ∧
      Statement.unplacedAll copies = Statement.unplacedAll statements ∧
      (stops (firstLexeme after) = true →
        (firstLexeme tokens).mayFollow ∧ Reads False (.statements stops) tokens copies after) := by
  induction statements generalizing place tokens with
  | nil =>
      refine ⟨place, tokens, [], hscans, rfl, fun hstop => ?_⟩
      exact ⟨Lexeme.mayFollow_of_closesBlock (hstops _ hstop), .statementsEnd hstop⟩
  | cons statement statements ih =>
      obtain ⟨hstatement, hstatements⟩ := List.forall_mem_cons.1 h
      simp only [List.flatMap_cons, List.cons_append, List.append_assoc] at hscans
      have htail : Ends
          (statements.flatMap (fun statement => gap :: statement.text.toList) ++ rest) := by
        cases statements with
        | nil => exact hends
        | cons => exact .blank hgap
      -- the other statements are read first: their first lexeme tells where this one ends
      obtain ⟨reached, middle, copy, hmiddle, hsame, hreads⟩ :=
        hstatement htail ((Scans.blank hgap).1 hscans)
      obtain ⟨reached, after, copies, hrest, hsame', hreads'⟩ := ih hstatements hmiddle
      obtain ⟨copy, rfl, hunplaced⟩ := Option.map_eq_some_iff.1 hsame
      refine ⟨reached, after, copy :: copies, hrest, ?_, fun hstop => ?_⟩
      · rw [Statement.unplacedAll, Statement.unplacedAll, hunplaced, hsame']
      · obtain ⟨hmay, hcopies⟩ := hreads' hstop
        have hcopy := hreads hmay
        have hstart : (firstLexeme tokens).startsForm := hcopy.startsWith
        have hmore : stops (firstLexeme tokens) = false := by
          cases hstop : stops (firstLexeme tokens) with
          | false => rfl
          | true =>
              have hclosed := hstops _ hstop
              rw [hstart.closesBlock] at hclosed
              cases hclosed
        exact ⟨hstart.mayFollow, .statementsMore hmore hcopy hcopies⟩

theorem Statement.spacedText_toList (statements : List Statement) :
    (Statement.spacedText statements).toList =
      statements.flatMap fun statement => ' ' :: statement.text.toList := by
  induction statements with
  | nil => rfl
  | cons statement statements ih => simp [Statement.spacedText, ih]

theorem Block.ReadsBack.statements {first : Token} {statements : List Statement}
    (h : ∀ statement ∈ statements, statement.ReadsBack) :
    (Block.mk first statements).ReadsBack := by
  intro place rest tokens last hends hscans
  have hchars : (Block.mk first statements).text.toList ++ rest =
      '\x7b' :: (statements.flatMap (fun statement => ' ' :: statement.text.toList) ++
        ' ' :: '\x7d' :: rest) := by
    simp [Block.text, Statement.spacedText_toList]
  rw [hchars] at hscans
  obtain ⟨middle, rfl, hinner⟩ := hscans.mark rfl fun _ _ => rfl
  obtain ⟨reached, after, copies, hblank, hsame, hreads⟩ :=
    Scans.statements rfl (fun _ hstop => hstop) h (.cons rfl rfl) hinner
  obtain ⟨after, rfl, hrest⟩ := hblank.space.mark rfl fun _ _ => rfl
  refine ⟨_, after, ⟨⟨.mark .leftBrace, place⟩, copies⟩, hrest, ?_, fun _ => ?_⟩
  · show Block.unplaced _ = Block.unplaced _
    rw [Block.unplaced, Block.unplaced, hsame]
  · exact .block (hreads rfl).2

/-- A block that may be absent is followed by what ends words and numbers. -/
theorem Block.optionText_ends {introduction : String} {block : Option Block} {rest tail : List Char}
    (hends : Ends rest) (hblank : introduction.toList = ' ' :: tail) :
    Ends ((Block.optionText introduction block).toList ++ rest) := by
  cases block with
  | none => exact hends
  | some block =>
      rw [Block.optionText, String.toList_append, hblank]
      exact .cons rfl rfl

/-- A block after a word, with a blank on each side of the word. -/
theorem Block.ReadsBack.introduced {block : Block} (h : block.ReadsBack) (word : Keyword)
    {introduction : String}
    (hword : introduction.toList = ' ' :: (word.spelling.toList ++ [' ']))
    {place : Location} {rest : List Char} {tokens : List Token} {last : Stream} (hends : Ends rest)
    (hscans :
      Scans place ((Block.optionText introduction (some block)).toList ++ rest) tokens last) :
    ∃ reached middle after copy, Scans reached rest after last ∧
      copy.unplaced = block.unplaced ∧ tokens = ⟨.word word, place.after ' '⟩ :: middle ∧
      Reads False .block middle copy after := by
  have hchars : (Block.optionText introduction (some block)).toList ++ rest =
      ' ' :: (word.spelling.toList ++ ' ' :: (block.text.toList ++ rest)) := by
    simp [Block.optionText, hword]
  rw [hchars] at hscans
  obtain ⟨reached, middle, htokens, hblank⟩ :=
    hscans.space.spelled (Scan.keyword_spelledBy word) (.cons rfl rfl)
  obtain ⟨reached, after, copy, hrest, hsame, hreads⟩ := h hends hblank.space
  exact ⟨reached, middle, after, copy, hrest, hsame, htokens, hreads trivial⟩

/-- What follows the consequence of a conditional. -/
theorem Spells.alternative {alternative : Option Block}
    (h : ∀ block ∈ alternative, block.ReadsBack) :
    Spells .alternative (· ≠ .word .elseWord) (Block.optionText " else " alternative).toList
      (Block.unplacedOption · = Block.unplacedOption alternative) := by
  intro place rest tokens last hends hscans
  cases alternative with
  | none => exact ⟨place, tokens, none, hscans, rfl, .noAlternative⟩
  | some block =>
      obtain ⟨reached, middle, after, copy, hrest, hsame, rfl, hreads⟩ :=
        (h block rfl).introduced .elseWord rfl hends hscans
      refine ⟨reached, after, some copy, hrest, ?_, fun _ => .alternative hreads⟩
      show some copy.unplaced = some block.unplaced
      rw [hsame]

/-- What follows the handler of errors. -/
theorem Spells.finalizer {finalizer : Option Block} (h : ∀ block ∈ finalizer, block.ReadsBack) :
    Spells .finalizer (· ≠ .word .finallyWord) (Block.optionText " finally " finalizer).toList
      (Block.unplacedOption · = Block.unplacedOption finalizer) := by
  intro place rest tokens last hends hscans
  cases finalizer with
  | none => exact ⟨place, tokens, none, hscans, rfl, .noFinalizer⟩
  | some block =>
      obtain ⟨reached, middle, after, copy, hrest, hsame, rfl, hreads⟩ :=
        (h block rfl).introduced .finallyWord rfl hends hscans
      refine ⟨reached, after, some copy, hrest, ?_, fun _ => .finalizer hreads⟩
      show some copy.unplaced = some block.unplaced
      rw [hsame]

/-- A block ends the expression in front of it. -/
theorem Reads.closes {before after : List Token} {block : Block}
    (h : Reads False .block before block after) : (firstLexeme before).closes := by
  have hbrace : firstLexeme before = .mark .leftBrace := h.startsWith
  rw [hbrace]
  exact ⟨rfl, nofun⟩

/-- An expression in parentheses. -/
theorem Spells.parenthesised {expr : Expr} (h : expr.ReadsBack) :
    Spells (.expression .lowest) Lexeme.closes ('(' :: (expr.text.toList ++ [')']))
      (·.unplaced = expr.unplaced) := by
  intro place rest tokens last hends hscans
  obtain ⟨reached, after, copy, hrest, hsame, hreads⟩ := group h.whole hends hscans
  exact ⟨reached, after, copy, hrest, hsame, fun hcloses =>
    .expression (hreads trivial) hcloses.complete⟩

theorem Expr.ReadsBack.conditional {location : Location} {condition : Expr} {consequence : Block}
    {alternative : Option Block} (hcondition : condition.ReadsBack)
    (hconsequence : consequence.ReadsBack) (halternative : ∀ block ∈ alternative, block.ReadsBack) :
    (Expr.conditional location condition consequence alternative).ReadsBack := by
  refine .of_operand fun place rest tokens last hends hscans => ?_
  have hchars : (Expr.conditional location condition consequence alternative).text.toList ++ rest =
      'i' :: 'f' :: ' ' :: ('(' :: (condition.text.toList ++ [')']) ++ ' ' ::
        (consequence.text.toList ++
          ((Block.optionText " else " alternative).toList ++ rest))) := by
    simp [Expr.text]
  rw [hchars] at hscans
  obtain ⟨middle, rfl, hblank⟩ := hscans.token rfl rfl
  obtain ⟨reached, before, condition', hblank, hsame, hreads⟩ :=
    Spells.parenthesised hcondition (.cons rfl rfl) hblank.space
  obtain ⟨reached, middle', consequence', hrest, hsame', hreads'⟩ :=
    hconsequence (Block.optionText_ends hends rfl) hblank.space
  obtain ⟨reached, after, alternative', hrest, hsame'', hreads''⟩ :=
    Spells.alternative halternative hends hrest
  refine ⟨reached, after, .conditional place condition' consequence' alternative', hrest, ?_,
    fun helse => ?_⟩
  · simp only [Expr.unplaced, hsame, hsame', hsame'']
  · have hblock := hreads' trivial
    exact .choice (.conditional (hreads hblock.closes) hblock (hreads'' helse))

/-! ## Statements -/

namespace Statement.ReadsBack

variable {location : Location}

/-- A statement that ends with a semicolon. -/
theorem terminated {statement : Statement} {chars : List Char}
    (htext : statement.text.toList = chars ++ [';'])
    (h : Spells .form Lexeme.closes chars (·.unplaced = statement.unplaced)) :
    statement.ReadsBack := by
  intro place rest tokens last hends hscans
  rw [htext, List.append_assoc, List.singleton_append] at hscans
  obtain ⟨reached, middle, copy, hsemicolon, hsame, hreads⟩ := h (.cons rfl rfl) hscans
  obtain ⟨after, rfl, hrest⟩ := hsemicolon.mark rfl fun _ _ => rfl
  refine ⟨_, after, some copy, hrest, ?_, fun _ => .terminated (hreads ⟨rfl, nofun⟩)⟩
  show some copy.unplaced = _
  rw [hsame]

/-- A statement that ends with a block. -/
theorem unterminated {statement : Statement}
    (h : Spells .form (· ≠ .word .finallyWord) statement.text.toList
      (·.unplaced = statement.unplaced)) : statement.ReadsBack := by
  intro place rest tokens last hends hscans
  obtain ⟨reached, after, copy, hrest, hsame, hreads⟩ := h hends hscans
  refine ⟨reached, after, some copy, hrest, ?_, fun hmay => ?_⟩
  · show some copy.unplaced = _
    rw [hsame]
  · exact .unterminated (hreads hmay.2) hmay.1

theorem letBinding {target : Identifier} {value : Expr} (htarget : target.Legible)
    (hvalue : value.ReadsBack) :
    (Statement.letBinding location target (value.named target.name)).ReadsBack := by
  have htext : (Statement.letBinding location target (value.named target.name)).text.toList =
      'l' :: 'e' :: 't' :: ' ' :: (target.name.toList ++ ' ' :: '=' :: ' ' :: value.text.toList) ++
        [';'] := by
    simp [Statement.text, Expr.text_named]
  refine terminated htext fun place rest tokens last hends hscans => ?_
  simp only [List.append_assoc, List.cons_append] at hscans
  obtain ⟨middle, rfl, hname⟩ := hscans.token rfl rfl
  obtain ⟨reached, middle, rfl, hequals⟩ := hname.space.spelled htarget (.cons rfl rfl)
  obtain ⟨middle, rfl, hafter⟩ := hequals.space.token rfl rfl
  obtain ⟨reached, after, value', hrest, hsame, hreads⟩ := hvalue.whole hends hafter.space
  refine ⟨reached, after, _, hrest, ?_, fun hcloses => .letBinding (hreads hcloses)⟩
  simp only [Statement.unplaced, Identifier.unplaced, Expr.unplaced_named, hsame]

theorem returnValue {value : Expr} (h : value.ReadsBack) :
    (Statement.returnValue location value).ReadsBack := by
  have htext : (Statement.returnValue location value).text.toList =
      'r' :: 'e' :: 't' :: 'u' :: 'r' :: 'n' :: ' ' :: value.text.toList ++ [';'] := by
    simp [Statement.text]
  refine terminated htext fun place rest tokens last hends hscans => ?_
  obtain ⟨middle, rfl, hblank⟩ := hscans.token rfl rfl
  obtain ⟨reached, after, value', hrest, hsame, hreads⟩ :=
    h.whole hends hblank.space
  refine ⟨reached, after, .returnValue place value', hrest, ?_, fun hcloses =>
    .returnValue (hreads hcloses)⟩
  simp only [Statement.unplaced, hsame]

theorem expression {first : Token} {value : Expr} (h : value.ReadsBack) :
    (Statement.expression first value).ReadsBack := by
  have htext : (Statement.expression first value).text.toList = value.text.toList ++ [';'] := by
    simp [Statement.text]
  refine terminated htext fun place rest tokens last hends hscans => ?_
  obtain ⟨reached, after, value', hrest, hsame, hreads⟩ := h.whole hends hscans
  refine ⟨reached, after, .expression (tokens.headD default) value', hrest, ?_, fun hcloses => ?_⟩
  · simp only [Statement.unplaced, hsame]
  · have hvalue := hreads hcloses
    have hstart : (firstLexeme tokens).startsOperand = true := hvalue.startsWith
    cases tokens with
    | nil => cases hstart
    | cons first before => exact .expressionForm hvalue

theorem forLoop {element : Identifier} {iterable : Expr} {body : Block} (helement : element.Legible)
    (hiterable : iterable.ReadsBack) (hbody : body.ReadsBack) :
    (Statement.forLoop location element iterable body).ReadsBack := by
  refine unterminated fun place rest tokens last hends hscans => ?_
  have hchars : (Statement.forLoop location element iterable body).text.toList ++ rest =
      'f' :: 'o' :: 'r' :: ' ' :: '(' :: (element.name.toList ++ ' ' :: 'i' :: 'n' :: ' ' ::
        (iterable.text.toList ++ ')' :: ' ' :: (body.text.toList ++ rest))) := by
    simp [Statement.text]
  rw [hchars] at hscans
  obtain ⟨middle, rfl, hfirst⟩ := hscans.token rfl rfl
  obtain ⟨middle, rfl, hname⟩ := hfirst.space.mark rfl fun _ _ => rfl
  obtain ⟨reached, middle, rfl, hword⟩ := hname.spelled helement (.cons rfl rfl)
  obtain ⟨middle, rfl, hafter⟩ := hword.space.token rfl rfl
  obtain ⟨reached, middle, iterable', hlast, hsame, hreads⟩ :=
    hiterable.whole (.cons rfl rfl) hafter.space
  obtain ⟨middle, rfl, hblock⟩ := hlast.mark rfl fun _ _ => rfl
  obtain ⟨reached, after, body', hrest, hsame', hreads'⟩ := hbody hends hblock.space
  refine ⟨reached, after, _, hrest, ?_, fun _ =>
    .parenLoop (hreads ⟨rfl, nofun⟩) (hreads' trivial)⟩
  simp only [Statement.unplaced, Identifier.unplaced, hsame, hsame']

theorem whileLoop {condition : Expr} {body : Block} (hcondition : condition.ReadsBack)
    (hbody : body.ReadsBack) : (Statement.whileLoop location condition body).ReadsBack := by
  refine unterminated fun place rest tokens last hends hscans => ?_
  have hchars : (Statement.whileLoop location condition body).text.toList ++ rest =
      'w' :: 'h' :: 'i' :: 'l' :: 'e' :: ' ' :: ('(' :: (condition.text.toList ++ [')']) ++ ' ' ::
        (body.text.toList ++ rest)) := by
    simp [Statement.text]
  rw [hchars] at hscans
  obtain ⟨middle, rfl, hblank⟩ := hscans.token rfl rfl
  obtain ⟨reached, before, condition', hblank, hsame, hreads⟩ :=
    Spells.parenthesised hcondition (.cons rfl rfl) hblank.space
  obtain ⟨reached, after, body', hrest, hsame', hreads'⟩ :=
    hbody hends hblank.space
  refine ⟨reached, after, .whileLoop place condition' body', hrest, ?_, fun _ => ?_⟩
  · simp only [Statement.unplaced, hsame, hsame']
  · have hblock := hreads' trivial
    exact .whileLoop (hreads hblock.closes) hblock

/-- A statement that is only a word. -/
theorem of_word {statement : Statement} (word : Keyword)
    (htext : statement.text = word.spelling ++ ";")
    (hreads : ∀ location after, ∃ copy : Statement, copy.unplaced = statement.unplaced ∧
      Reads False .form (⟨.word word, location⟩ :: after) copy after) : statement.ReadsBack := by
  have hchars : statement.text.toList = word.spelling.toList ++ [';'] := by
    simp [htext]
  refine terminated hchars fun place rest tokens last hends hscans => ?_
  obtain ⟨reached, after, rfl, hrest⟩ := hscans.spelled (Scan.keyword_spelledBy word) hends
  obtain ⟨copy, hsame, hcopy⟩ := hreads place after
  exact ⟨reached, after, copy, hrest, hsame, fun _ => hcopy⟩

theorem breakLoop : (Statement.breakLoop location).ReadsBack :=
  of_word .breakWord rfl fun place _ => ⟨.breakLoop place, rfl, .breakLoop⟩

theorem continueLoop : (Statement.continueLoop location).ReadsBack :=
  of_word .continueWord rfl fun place _ => ⟨.continueLoop place, rfl, .continueLoop⟩

theorem tryCatch {body handler : Block} {error : Identifier} {finalizer : Option Block}
    (hbody : body.ReadsBack) (herror : error.Legible) (hhandler : handler.ReadsBack)
    (hfinalizer : ∀ block ∈ finalizer, block.ReadsBack) :
    (Statement.tryCatch location body error handler finalizer).ReadsBack := by
  refine unterminated fun place rest tokens last hends hscans => ?_
  have hchars : (Statement.tryCatch location body error handler finalizer).text.toList ++ rest =
      't' :: 'r' :: 'y' :: ' ' :: (body.text.toList ++ ' ' :: 'c' :: 'a' :: 't' :: 'c' :: 'h' ::
        ' ' :: '(' :: (error.name.toList ++ ')' :: ' ' :: (handler.text.toList ++
          ((Block.optionText " finally " finalizer).toList ++ rest)))) := by
    simp [Statement.text]
  rw [hchars] at hscans
  obtain ⟨middle, rfl, hblock⟩ := hscans.token rfl rfl
  obtain ⟨reached, middle, body', hword, hsame, hreads⟩ := hbody (.cons rfl rfl) hblock.space
  obtain ⟨middle, rfl, hfirst⟩ := hword.space.token rfl rfl
  obtain ⟨middle, rfl, hname⟩ := hfirst.space.mark rfl fun _ _ => rfl
  obtain ⟨reached, middle, rfl, hlast⟩ := hname.spelled herror (.cons rfl rfl)
  obtain ⟨middle, rfl, hafter⟩ := hlast.mark rfl fun _ _ => rfl
  obtain ⟨reached, middle, handler', hrest, hsame', hreads'⟩ :=
    hhandler (Block.optionText_ends hends rfl) hafter.space
  obtain ⟨reached, after, finalizer', hrest, hsame'', hreads''⟩ :=
    Spells.finalizer hfinalizer hends hrest
  refine ⟨reached, after, _, hrest, ?_, fun hfinally =>
    .tryCatch (hreads trivial) .parenName (hreads' trivial) (hreads'' hfinally)⟩
  simp only [Statement.unplaced, Identifier.unplaced, hsame, hsame', hsame'']

end Statement.ReadsBack

end Script
