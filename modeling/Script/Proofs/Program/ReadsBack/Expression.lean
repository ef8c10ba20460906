import Script.Proofs.Program.ReadsBack

/-!
# Texts of expressions

The text of an expression reads back if the texts of its parts do: one lemma for each kind of
expression. An operator stands in parentheses, so that it is an operand whatever is around it, and
no lexeme of it runs into the next one.
-/

namespace Script

/-! ## Literals and names -/

theorem Expr.ReadsBack.identifier {name : Identifier} (h : name.Legible) :
    (Expr.identifier name).ReadsBack :=
  .of_token h fun location _ => ⟨.identifier ⟨name.name, location⟩, rfl, .identifier⟩

theorem Expr.ReadsBack.integer {location : Location} {digits : String}
    (h : (Lexeme.integer digits).Legible)
    (hrange : (Nat.ofDigitChars 10 digits.toList 0 : Int) ≤ Int64.maxValue.toInt) :
    (Expr.integer location digits (.ofNat (Nat.ofDigitChars 10 digits.toList 0))).ReadsBack :=
  .of_token h fun place _ => ⟨.integer place digits _, rfl, .integer hrange⟩

theorem Expr.ReadsBack.float {location : Location} {digits : String} {value : Binary64}
    (h : (Lexeme.float digits).Legible) (hvalue : Binary64.ofDigits? digits.toList = some value) :
    (Expr.float location digits value).ReadsBack :=
  .of_token h fun place _ => ⟨.float place digits value, rfl, .float hvalue⟩

theorem Expr.ReadsBack.string {location : Location} {value : String} :
    (Expr.string location value).ReadsBack :=
  .of_token (Scan.quoted_spelledBy value) fun place _ => ⟨.string place value, rfl, .string⟩

theorem Expr.ReadsBack.boolean {location : Location} {value : Bool} :
    (Expr.boolean location value).ReadsBack := by
  cases value with
  | true =>
      exact .of_token (Scan.keyword_spelledBy .trueWord) fun place _ =>
        ⟨.boolean place true, rfl, .trueLiteral⟩
  | false =>
      exact .of_token (Scan.keyword_spelledBy .falseWord) fun place _ =>
        ⟨.boolean place false, rfl, .falseLiteral⟩

/-! ## Operators -/

/-- Characters that start with an equals sign scan to no operand. -/
theorem Scans.equals {place : Location} {rest : List Char} {tokens : List Token} {last : Stream}
    (h : Scans place ('=' :: rest) tokens last) : (firstLexeme tokens).startsOperand = false := by
  by_cases hequals : rest.head? = some '='
  · obtain ⟨tail, rfl⟩ := List.head?_eq_some_iff.1 hequals
    obtain ⟨after, rfl, _⟩ := h.token rfl rfl
    rfl
  · obtain ⟨after, rfl, _⟩ := h.mark rfl (by
      intro c hc
      have hne : c ≠ '=' := by
        intro hc'
        rw [hc'] at hc
        exact hequals hc
      simp [Scan.double?, hne])
    rfl

/-- The text of an expression starts with a character other than an equals sign. -/
theorem Expr.ReadsBack.head {expr : Expr} (h : expr.ReadsBack) :
    ∃ c tail, expr.text.toList = c :: tail ∧ c ≠ '=' := by
  obtain ⟨tokens, last, hscans⟩ := Scans.total .start (expr.text.toList ++ [])
  obtain ⟨reached, after, copy, hrest, _, hreads⟩ := h.whole .nil hscans
  obtain ⟨rfl, _⟩ := hrest.nil
  have hstart : (firstLexeme tokens).startsOperand = true := (hreads ⟨rfl, nofun⟩).startsWith
  rw [List.append_nil] at hscans
  cases htext : expr.text.toList with
  | nil =>
      rw [htext] at hscans
      obtain ⟨rfl, _⟩ := hscans.nil
      cases hstart
  | cons c tail =>
      refine ⟨c, tail, rfl, ?_⟩
      intro hequals
      rw [htext, hequals] at hscans
      rw [hscans.equals] at hstart
      cases hstart

/-- An operator in front of its operand is scanned by itself. -/
theorem Scans.unary {operator : UnaryOperator} {expr : Expr} (h : expr.ReadsBack)
    {place : Location} {rest : List Char} {tokens : List Token} {last : Stream}
    (hscans :
      Scans place (operator.lexeme.literal.toList ++ (expr.text.toList ++ rest)) tokens last) :
    ∃ reached after, tokens = ⟨operator.lexeme, place⟩ :: after ∧
      Scans reached (expr.text.toList ++ rest) after last := by
  cases operator with
  | negate =>
      obtain ⟨after, htokens, hrest⟩ := hscans.mark rfl fun _ _ => rfl
      exact ⟨_, after, htokens, hrest⟩
  | not =>
      -- with an equals sign after it, the mark would be another one
      obtain ⟨c, tail, htext, hequals⟩ := h.head
      have hdouble : Scan.double? '!' c = none := by simp [Scan.double?, hequals]
      obtain ⟨after, htokens, hrest⟩ := hscans.mark rfl (by
        intro d hd
        rw [htext] at hd
        cases hd
        exact hdouble)
      exact ⟨_, after, htokens, hrest⟩

/-- An operator between blanks is scanned by itself. -/
theorem Scans.binary {operator : BinaryOperator} {place : Location} {rest : List Char}
    {tokens : List Token} {last : Stream}
    (h : Scans place (operator.lexeme.literal.toList ++ ' ' :: rest) tokens last) :
    ∃ reached after, tokens = ⟨operator.lexeme, place⟩ :: after ∧
      Scans reached rest after last := by
  have htoken : ∃ reached after, tokens = ⟨operator.lexeme, place⟩ :: after ∧
      Scans reached (' ' :: rest) after last := by
    cases operator <;> obtain ⟨after, htokens, hrest⟩ := h.token rfl rfl <;>
      exact ⟨_, after, htokens, hrest⟩
  obtain ⟨reached, after, htokens, hrest⟩ := htoken
  exact ⟨_, after, htokens, (Scans.blank rfl).1 hrest⟩

namespace Expr.ReadsBack

variable {location : Location}

theorem unary {operator : UnaryOperator} {operand : Expr} (h : operand.ReadsBack) :
    (Expr.unary location operator operand).ReadsBack := by
  have htext : (Expr.unary location operator operand).text.toList =
      '(' :: (operator.lexeme.literal.toList ++ operand.text.toList ++ [')']) := by
    simp [Expr.text]
  refine .of_group htext fun place rest tokens last hends hscans => ?_
  rw [List.append_assoc] at hscans
  obtain ⟨reached, middle, rfl, hoperand⟩ := hscans.unary h
  obtain ⟨reached, after, copy, hrest, hsame, hreads⟩ :=
    h.closed .unary (by decide) hends hoperand
  refine ⟨reached, after, .unary place operator copy, hrest, ?_, fun hcloses => ?_⟩
  · simp only [Expr.unplaced, hsame]
  · exact .expression (.unary (hreads hcloses)) hcloses.complete

theorem binary {left right : Expr} {operator : BinaryOperator} (hleft : left.ReadsBack)
    (hright : right.ReadsBack) : (Expr.binary location left operator right).ReadsBack := by
  have htext : (Expr.binary location left operator right).text.toList =
      '(' :: (left.text.toList ++ ' ' :: (operator.lexeme.literal.toList ++ ' ' ::
        right.text.toList) ++ [')']) := by
    simp [Expr.text]
  refine .of_group htext fun place rest tokens last hends hscans => ?_
  simp only [List.append_assoc, List.cons_append] at hscans
  obtain ⟨gap, middle, left', hoperator, hsame, hreads⟩ := hleft (.cons rfl rfl) hscans
  obtain ⟨reached, middle, rfl, hoperand⟩ := hoperator.space.binary
  have hlevel : operator.precedence.level < Precedence.call.level := by
    cases operator <;> decide
  obtain ⟨reached, after, right', hrest, hsame', hreads'⟩ :=
    hright.closed operator.precedence hlevel hends hoperand
  refine ⟨reached, after, .binary (gap.after ' ') left' operator right', hrest, ?_,
    fun hcloses => ?_⟩
  · simp only [Expr.unplaced, hsame, hsame']
  · -- nothing precedes the left operand in its parentheses, so every operator extends it
    have helse : operator.lexeme ≠ .word .elseWord := by cases operator <;> decide
    have hbinds : Precedence.lowest.level < operator.lexeme.precedence.level := by
      cases operator <;> decide
    exact hreads (by decide) helse (.extended hbinds (.binary (hreads' hcloses)) hcloses.complete)

theorem assign {target : Identifier} {value : Expr} (htarget : (Expr.identifier target).ReadsBack)
    (hvalue : value.ReadsBack) : (Expr.assign location target value).ReadsBack := by
  have htext : (Expr.assign location target value).text.toList =
      '(' :: ((Expr.identifier target).text.toList ++ ' ' :: '=' :: ' ' :: value.text.toList ++
        [')']) := by
    simp [Expr.text]
  refine .of_group htext fun place rest tokens last hends hscans => ?_
  simp only [List.append_assoc, List.cons_append] at hscans
  obtain ⟨gap, middle, copy, hequals, hsame, hreads⟩ := htarget (.cons rfl rfl) hscans
  obtain ⟨target', rfl, hname⟩ := unplaced_identifier hsame
  obtain ⟨middle, rfl, hblank⟩ := hequals.space.token rfl rfl
  obtain ⟨reached, after, value', hrest, hsame', hreads'⟩ := hvalue.whole hends hblank.space
  refine ⟨reached, after, .assign (gap.after ' ') target' value', hrest, ?_, fun hcloses => ?_⟩
  · simp only [Expr.unplaced, hname, hsame']
  · exact hreads (by decide) nofun
      (.extended (Nat.zero_lt_succ _) (.assign (hreads' hcloses)) hcloses.complete)

theorem index {collection index : Expr} (hcollection : collection.ReadsBack)
    (hindex : index.ReadsBack) : (Expr.index location collection index).ReadsBack := by
  have htext : (Expr.index location collection index).text.toList =
      '(' :: (collection.text.toList ++ '[' :: (index.text.toList ++ [']']) ++ [')']) := by
    simp [Expr.text]
  refine .of_group htext fun place rest tokens last hends hscans => ?_
  simp only [List.append_assoc, List.cons_append, List.nil_append] at hscans
  obtain ⟨bracket, middle, collection', hbracket, hsame, hreads⟩ :=
    hcollection (.cons rfl rfl) hscans
  obtain ⟨middle, rfl, hinner⟩ := hbracket.mark rfl fun _ _ => rfl
  obtain ⟨reached, after, index', hbracket, hsame', hreads'⟩ := hindex.whole (.cons rfl rfl) hinner
  obtain ⟨after, rfl, hrest⟩ := hbracket.mark rfl fun _ _ => rfl
  refine ⟨_, after, .index bracket collection' index', hrest, ?_, fun hcloses => ?_⟩
  · simp only [Expr.unplaced, hsame, hsame']
  · have hindex' := hreads' ⟨rfl, nofun⟩
    exact hreads (by decide) nofun
      (.extended (Nat.zero_lt_succ _) (.index hindex') hcloses.complete)

end Expr.ReadsBack

/-! ## Lists -/

namespace Mark.ClosesList

variable {closing : Mark}

/-- The mark that closes a list is scanned by itself. -/
theorem scans (hclosing : closing.ClosesList) {place : Location} {rest : List Char}
    {tokens : List Token} {last : Stream}
    (h : Scans place (closing.spelling.toList ++ rest) tokens last) :
    ∃ reached after, tokens = ⟨.mark closing, place⟩ :: after ∧ Scans reached rest after last := by
  cases hclosing with
  | paren | bracket =>
      obtain ⟨after, htokens, hrest⟩ := h.mark rfl fun _ _ => rfl
      exact ⟨_, after, htokens, hrest⟩

/-- The mark that closes a list ends the last item. -/
theorem ends (hclosing : closing.ClosesList) (rest : List Char) :
    Ends (closing.spelling.toList ++ rest) := by
  cases hclosing with
  | paren | bracket => exact .cons rfl rfl

theorem closes (hclosing : closing.ClosesList) : (Lexeme.mark closing).closes := by
  cases hclosing with
  | paren | bracket => exact ⟨rfl, nofun⟩

/-- No item starts with the mark that closes its list. -/
theorem ne_first (hclosing : closing.ClosesList) {α : Type} {item : Phrase α} (hitem : item.IsItem)
    {before after : List Token} {result : α} (h : Reads False item before result after) :
    firstLexeme before ≠ .mark closing := by
  intro hfirst
  cases hitem with
  | expression =>
      have hstart : (firstLexeme before).startsOperand = true := h.startsWith
      rw [hfirst] at hstart
      cases hclosing <;> cases hstart
  | parameter =>
      have hstart : (firstLexeme before).kind = .identifier := h.startsWith
      rw [hfirst] at hstart
      cases hstart

end Mark.ClosesList

/-- The characters of items after commas, with the mark that closes their list. -/
def listTailChars (closing : Mark) (texts : List String) : List Char :=
  texts.flatMap (fun text => ',' :: ' ' :: text.toList) ++ closing.spelling.toList

theorem Mark.ClosesList.tail_ends {closing : Mark} (hclosing : closing.ClosesList)
    (texts : List String) (rest : List Char) : Ends (listTailChars closing texts ++ rest) := by
  cases texts with
  | nil => exact hclosing.ends rest
  | cons text texts => exact .cons rfl rfl

namespace Spells

variable {α : Type} {item : Phrase α} {text : α → String} {shape : α → α} {closing : Mark}
  {first : α} {items : List α}

/-- An item and the items after it. -/
theorem itemCons (hclosing : closing.ClosesList)
    (hfirst : Spells item Lexeme.closes (text first).toList (shape · = shape first))
    (hitems : Spells (.listTail closing item) (fun _ => True)
      (listTailChars closing (items.map text)) (·.map shape = items.map shape))
    {place : Location} {rest : List Char} {tokens : List Token} {last : Stream} (hends : Ends rest)
    (hscans : Scans place
      ((text first).toList ++ (listTailChars closing (items.map text) ++ rest)) tokens last) :
    ∃ reached middle after first' items', Scans reached rest after last ∧
      (first' :: items').map shape = (first :: items).map shape ∧
      Reads False item tokens first' middle ∧
      Reads False (.listTail closing item) middle items' after := by
  obtain ⟨reached, middle, first', htail, hsame, hreads⟩ :=
    hfirst (hclosing.tail_ends _ rest) hscans
  obtain ⟨reached, after, items', hrest, hsame', hreads'⟩ := hitems hends htail
  -- a comma or the closing mark comes after the first item, and both end it
  have htail' : Reads False (.listTail closing item) middle items' after := hreads' trivial
  have hcloses : (firstLexeme middle).closes := by
    rcases htail'.startsWith with hcomma | hclosed
    · rw [hcomma]
      exact ⟨rfl, nofun⟩
    · rw [hclosed]
      exact hclosing.closes
  refine ⟨reached, middle, after, first', items', hrest, ?_, hreads hcloses, htail'⟩
  rw [List.map_cons, List.map_cons, hsame, hsame']

/-- Items after commas. -/
theorem listTail (hitem : item.IsItem) (hclosing : closing.ClosesList)
    (h : ∀ x ∈ items, Spells item Lexeme.closes (text x).toList (shape · = shape x)) :
    Spells (.listTail closing item) (fun _ => True) (listTailChars closing (items.map text))
      (·.map shape = items.map shape) := by
  induction items with
  | nil =>
      intro place rest tokens last hends hscans
      obtain ⟨reached, after, rfl, hrest⟩ := hclosing.scans hscans
      exact ⟨reached, after, [], hrest, rfl, fun _ => .tailEmpty hclosing⟩
  | cons first items ih =>
      intro place rest tokens last hends hscans
      obtain ⟨hfirst, hitems⟩ := List.forall_mem_cons.1 h
      have hchars : listTailChars closing ((first :: items).map text) ++ rest =
          ',' :: ' ' ::
            ((text first).toList ++ (listTailChars closing (items.map text) ++ rest)) := by
        simp [listTailChars]
      rw [hchars] at hscans
      obtain ⟨middle, rfl, hblank⟩ := hscans.mark rfl fun _ _ => rfl
      obtain ⟨reached, middle', after, first', items', hrest, hsame, hreads, htail⟩ :=
        itemCons hclosing hfirst (ih hitems) hends hblank.space
      exact ⟨reached, after, first' :: items', hrest, hsame, fun _ => .tailCons hitem hreads htail⟩

/-- Items separated by commas. -/
theorem list (hitem : item.IsItem) (hclosing : closing.ClosesList)
    (h : ∀ x ∈ items, Spells item Lexeme.closes (text x).toList (shape · = shape x)) :
    Spells (.list closing item) (fun _ => True)
      ((", ".intercalate (items.map text)).toList ++ closing.spelling.toList)
      (·.map shape = items.map shape) := by
  intro place rest tokens last hends hscans
  cases items with
  | nil =>
      obtain ⟨reached, after, rfl, hrest⟩ := hclosing.scans hscans
      exact ⟨reached, after, [], hrest, rfl, fun _ => .listEmpty hclosing⟩
  | cons first items =>
      obtain ⟨hfirst, hitems⟩ := List.forall_mem_cons.1 h
      have hchars : (", ".intercalate ((first :: items).map text)).toList ++
          closing.spelling.toList ++ rest =
          (text first).toList ++ (listTailChars closing (items.map text) ++ rest) := by
        rw [List.map_cons, intercalate_toList, listTailChars]
        simp only [List.append_assoc]
        rfl
      rw [hchars] at hscans
      obtain ⟨reached, middle, after, first', items', hrest, hsame, hreads, htail⟩ :=
        itemCons hclosing hfirst (listTail hitem hclosing hitems) hends hscans
      have hne := hclosing.ne_first hitem hreads
      exact ⟨reached, after, first' :: items', hrest, hsame, fun _ =>
        .listCons hitem hne hreads htail⟩

end Spells

/-- The expressions of a list. -/
theorem Spells.exprs {closing : Mark} {exprs : List Expr} (hclosing : closing.ClosesList)
    (h : ∀ expr ∈ exprs, expr.ReadsBack) :
    Spells (.list closing (.expression .lowest)) (fun _ => True)
      ((", ".intercalate (Expr.texts exprs)).toList ++ closing.spelling.toList)
      (Expr.unplacedAll · = Expr.unplacedAll exprs) := by
  simp only [Expr.texts_eq, Expr.unplacedAll_eq]
  exact .list .expression hclosing fun expr hexpr => (h expr hexpr).whole

/-- The parameters of a function. -/
theorem Spells.parameters {parameters : List Identifier} (h : ∀ name ∈ parameters, name.Legible) :
    Spells (.list .rightParen .parameter) (fun _ => True)
      ((", ".intercalate (parameters.map Identifier.name)).toList ++ [')'])
      (·.map Identifier.unplaced = parameters.map Identifier.unplaced) := by
  refine .list .parameter .paren fun name hname place rest tokens last hends hscans => ?_
  obtain ⟨reached, after, rfl, hrest⟩ := hscans.spelled (h name hname) hends
  exact ⟨reached, after, ⟨name.name, place⟩, hrest, rfl, fun _ => .parameter⟩

/-- A key, a colon and a value. -/
theorem Spells.pair {pair : Pair} (hkey : pair.key.ReadsBack) (hvalue : pair.value.ReadsBack)
    {place : Location} {rest : List Char} {tokens : List Token} {last : Stream} (hends : Ends rest)
    (hscans : Scans place (pair.text.toList ++ rest) tokens last) :
    ∃ reached colon middle after key' value', Scans reached rest after last ∧
      Pair.unplaced ⟨key', value'⟩ = pair.unplaced ∧
      Reads False (.expression .lowest) tokens key' (⟨.mark .colon, colon⟩ :: middle) ∧
      ((firstLexeme after).closes → Reads False (.expression .lowest) middle value' after) := by
  obtain ⟨key, value⟩ := pair
  have hchars : (Pair.text ⟨key, value⟩).toList ++ rest =
      key.text.toList ++ ':' :: ' ' :: (value.text.toList ++ rest) := by
    simp [Pair.text]
  rw [hchars] at hscans
  obtain ⟨colon, middle, key', hcolon, hsame, hreads⟩ := hkey.whole (.cons rfl rfl) hscans
  obtain ⟨middle, rfl, hblank⟩ := hcolon.mark rfl fun _ _ => rfl
  obtain ⟨reached, after, value', hrest, hsame', hreads'⟩ :=
    hvalue.whole hends hblank.space
  refine ⟨reached, colon, middle, after, key', value', hrest, ?_, hreads ⟨rfl, nofun⟩, hreads'⟩
  rw [Pair.unplaced, Pair.unplaced, hsame, hsame']

/-- The pairs of a hash literal, of which there is one at least. -/
theorem Spells.pairsCons {first : Pair} {pairs : List Pair}
    (h : ∀ pair ∈ first :: pairs, pair.key.ReadsBack ∧ pair.value.ReadsBack) :
    Spells .pairs (fun _ => True)
      (first.text.toList ++ listTailChars .rightBrace (pairs.map Pair.text))
      (Pair.unplacedAll · = Pair.unplacedAll (first :: pairs)) := by
  induction pairs generalizing first with
  | nil =>
      intro place rest tokens last hends hscans
      obtain ⟨hkey, hvalue⟩ := h first List.mem_cons_self
      rw [List.append_assoc] at hscans
      obtain ⟨brace, colon, middle, after, key', value', hbrace, hsame, hreads, hreads'⟩ :=
        pair hkey hvalue (.cons rfl rfl) hscans
      obtain ⟨after, rfl, hrest⟩ := hbrace.mark rfl fun _ _ => rfl
      refine ⟨_, after, [⟨key', value'⟩], hrest, ?_, fun _ => ?_⟩
      · show Pair.unplaced _ :: _ = _
        rw [hsame]
        rfl
      · exact .pairsLast hreads (hreads' ⟨rfl, nofun⟩) rfl .pairsEmpty
  | cons second pairs ih =>
      intro place rest tokens last hends hscans
      obtain ⟨⟨hkey, hvalue⟩, hpairs⟩ := List.forall_mem_cons.1 h
      have hchars : first.text.toList ++
          listTailChars .rightBrace ((second :: pairs).map Pair.text) ++ rest =
          first.text.toList ++ ',' :: ' ' ::
            (second.text.toList ++ listTailChars .rightBrace (pairs.map Pair.text) ++ rest) := by
        simp [listTailChars]
      rw [hchars] at hscans
      obtain ⟨comma, colon, middle, after, key', value', hcomma, hsame, hreads, hreads'⟩ :=
        pair hkey hvalue (.cons rfl rfl) hscans
      obtain ⟨middle', rfl, hblank⟩ := hcomma.mark rfl fun _ _ => rfl
      obtain ⟨reached, after, pairs', hrest, hsame', hreadsPairs⟩ :=
        ih hpairs hends hblank.space
      refine ⟨reached, after, ⟨key', value'⟩ :: pairs', hrest, ?_, fun _ => ?_⟩
      · show Pair.unplaced _ :: Pair.unplacedAll pairs' = _
        rw [hsame, hsame']
        rfl
      · exact .pairsCons hreads (hreads' ⟨rfl, nofun⟩) (hreadsPairs trivial)

/-- The pairs of a hash literal. -/
theorem Spells.pairs {pairs : List Pair}
    (h : ∀ pair ∈ pairs, pair.key.ReadsBack ∧ pair.value.ReadsBack) :
    Spells .pairs (fun _ => True) ((", ".intercalate (Pair.texts pairs)).toList ++ ['\x7d'])
      (Pair.unplacedAll · = Pair.unplacedAll pairs) := by
  cases pairs with
  | nil =>
      intro place rest tokens last hends hscans
      obtain ⟨after, rfl, hrest⟩ := hscans.mark rfl fun _ _ => rfl
      exact ⟨_, after, [], hrest, rfl, fun _ => .pairsEmpty⟩
  | cons first pairs =>
      have hchars : (", ".intercalate (Pair.texts (first :: pairs))).toList ++ ['\x7d'] =
          first.text.toList ++ listTailChars .rightBrace (pairs.map Pair.text) := by
        rw [Pair.texts, Pair.texts_eq, intercalate_toList, List.append_assoc]
        rfl
      rw [hchars]
      exact pairsCons h

namespace Expr.ReadsBack

variable {location : Location}

theorem array {elements : List Expr} (h : ∀ expr ∈ elements, expr.ReadsBack) :
    (Expr.array location elements).ReadsBack := by
  refine .of_operand fun place rest tokens last hends hscans => ?_
  have hchars : (Expr.array location elements).text.toList ++ rest =
      '[' :: ((", ".intercalate (Expr.texts elements)).toList ++
        Mark.rightBracket.spelling.toList ++ rest) := by
    simp [Expr.text, Mark.spelling]
  rw [hchars] at hscans
  obtain ⟨middle, rfl, hlist⟩ := hscans.mark rfl fun _ _ => rfl
  obtain ⟨reached, after, elements', hrest, hsame, hreads⟩ := Spells.exprs .bracket h hends hlist
  refine ⟨reached, after, .array place elements', hrest, ?_, fun _ => .array (hreads trivial)⟩
  simp only [Expr.unplaced, hsame]

theorem hash {pairs : List Pair} (h : ∀ pair ∈ pairs, pair.key.ReadsBack ∧ pair.value.ReadsBack) :
    (Expr.hash location pairs).ReadsBack := by
  refine .of_operand fun place rest tokens last hends hscans => ?_
  have hchars : (Expr.hash location pairs).text.toList ++ rest =
      '\x7b' :: ((", ".intercalate (Pair.texts pairs)).toList ++ ['\x7d'] ++ rest) := by
    simp [Expr.text]
  rw [hchars] at hscans
  obtain ⟨middle, rfl, hpairs⟩ := hscans.mark rfl fun _ _ => rfl
  obtain ⟨reached, after, pairs', hrest, hsame, hreads⟩ := Spells.pairs h hends hpairs
  refine ⟨reached, after, .hash place pairs', hrest, ?_, fun _ => .hash (hreads trivial)⟩
  simp only [Expr.unplaced, hsame]

theorem call {callee : Expr} {arguments : List Expr} (hcallee : callee.ReadsBack)
    (harguments : ∀ expr ∈ arguments, expr.ReadsBack) :
    (Expr.call location callee arguments).ReadsBack := by
  intro place rest tokens last hends hscans
  have hchars : (Expr.call location callee arguments).text.toList ++ rest =
      callee.text.toList ++ '(' :: ((", ".intercalate (Expr.texts arguments)).toList ++
        Mark.rightParen.spelling.toList ++ rest) := by
    simp [Expr.text, Mark.spelling]
  rw [hchars] at hscans
  obtain ⟨paren, middle, callee', hparen, hsame, hreads⟩ := hcallee (.cons rfl rfl) hscans
  obtain ⟨middle, rfl, hlist⟩ := hparen.mark rfl fun _ _ => rfl
  obtain ⟨reached, after, arguments', hrest, hsame', hreads'⟩ :=
    Spells.exprs .paren harguments hends hlist
  refine ⟨reached, after, .call paren callee' arguments', hrest, ?_, ?_⟩
  · simp only [Expr.unplaced, hsame, hsame']
  · intro precedence result final hlevel helse hext
    exact hreads hlevel nofun (.extended hlevel (.call (hreads' trivial)) hext)

theorem function {parameters : List Identifier} {body : Block}
    (hparameters : ∀ name ∈ parameters, name.Legible) (hbody : body.ReadsBack) :
    (Expr.function ⟨location, none, parameters, body⟩).ReadsBack := by
  refine .of_operand fun place rest tokens last hends hscans => ?_
  have hchars : (Expr.function ⟨location, none, parameters, body⟩).text.toList ++ rest =
      'f' :: 'n' :: '(' :: ((", ".intercalate (parameters.map Identifier.name)).toList ++ [')'] ++
        ' ' :: (body.text.toList ++ rest)) := by
    simp [Expr.text, FunctionLiteral.text]
  rw [hchars] at hscans
  obtain ⟨middle, rfl, hparen⟩ := hscans.token rfl rfl
  obtain ⟨middle, rfl, hlist⟩ := hparen.mark rfl fun _ _ => rfl
  obtain ⟨reached, middle, parameters', hblank, hsame, hreads⟩ :=
    Spells.parameters hparameters (.cons rfl rfl) hlist
  obtain ⟨reached, after, body', hrest, hsame', hreads'⟩ := hbody hends hblank.space
  refine ⟨reached, after, .function ⟨place, none, parameters', body'⟩, hrest, ?_, fun _ => ?_⟩
  · simp only [Expr.unplaced, FunctionLiteral.unplaced, hsame, hsame']
  · exact .function (hreads trivial) (hreads' trivial)

end Expr.ReadsBack

end Script
