import Script.Proofs.Grammar.Soundness.Expression

/-!
# Statement rules read phrases

A statement that is read, with the semicolon after it, has the form of its first token. An empty
statement, a comment or a skipped statement gives nothing, and the last one only where an error was
recorded.
-/

namespace Script

namespace Phrases.Sound

variable {limit count : Nat} {phrases : Phrases} {cursor : Cursor} {last : Token}
  {before : List Token}

/-- A binding from its `let`. -/
theorem letBinding (h : phrases.Sound limit count) {location : Location}
    (hrest : cursor.rest = ⟨.word .letWord, location⟩ :: before)
    (hcount : 2 * before.length + 1 ≤ count) :
    (phrases.letBinding location).Meets (Found limit .form cursor.rest) cursor := by
  refine Rule.meets_expectIdentifier.bind fun target first _ htarget => ?_
  rw [hrest, List.tail_cons] at htarget
  obtain ⟨hfirst, rest, rfl⟩ := htarget
  refine (Rule.meets_expectMark .assign).bind fun _ second _ hassign => ?_
  rw [hfirst, List.tail_cons] at hassign
  obtain ⟨hsecond, place, inner, rfl⟩ := hassign
  refine Rule.meets_advance.bind fun _ third _ hthird => ?_
  rw [hsecond, List.tail_cons] at hthird
  simp only [List.length_cons] at hcount
  refine (h.expression .lowest third (by rw [hthird]; omega)).bindFound ?_
  rw [hthird, hrest]
  intro value fourth token after _ hafter _ hvalue
  exact Rule.meets_pure ⟨token, after, hafter, fun hlimit => .letBinding (hvalue hlimit)⟩

/-- A return from its `return`. -/
theorem returnValue (h : phrases.Sound limit count) {location : Location}
    (hrest : cursor.rest = ⟨.word .returnWord, location⟩ :: before)
    (hcount : 2 * before.length + 1 ≤ count) :
    (phrases.returnValue location).Meets (Found limit .form cursor.rest) cursor := by
  refine Rule.meets_advance.bind fun _ first _ hfirst => ?_
  rw [hrest, List.tail_cons] at hfirst
  refine (h.expression .lowest first (by rw [hfirst]; exact hcount)).bindFound ?_
  rw [hfirst, hrest]
  intro value second token after _ hafter _ hvalue
  exact Rule.meets_pure ⟨token, after, hafter, fun hlimit => .returnValue (hvalue hlimit)⟩

/-- A loop with a condition from its `while`. -/
theorem whileLoop (h : phrases.Sound limit count) (bound : Nat) {location : Location}
    (hrest : cursor.rest = ⟨.word .whileWord, location⟩ :: before)
    (hcount : 2 * before.length + 1 ≤ count) (hbound : before.length ≤ bound) :
    (phrases.whileLoop bound location).Meets (Found limit .form cursor.rest) cursor := by
  refine Rule.meets_advance.bind fun _ first _ hfirst => ?_
  rw [hrest, List.tail_cons] at hfirst
  refine (h.expression .lowest first (by rw [hfirst]; exact hcount)).bindFound ?_
  rw [hfirst, hrest]
  intro condition second token middle _ hmiddle hshorter hcondition
  refine (h.block bound hmiddle (by omega) (by omega)).bindFound ?_
  intro body third token' after hthird hafter _ hbody
  exact Rule.meets_pure ⟨token', after, hafter, fun hlimit =>
    .whileLoop (hcondition (hthird.le hlimit)) (hbody hlimit)⟩

/-- The name and the iterable of a loop over elements, in front of what follows them. -/
theorem loopHeader (h : phrases.Sound limit count) {β : Type} {next : Identifier → Expr → Rule β}
    {post : β → Cursor → Prop} (hrest : cursor.rest = last :: before)
    (hcount : 2 * before.length + 1 ≤ count)
    (hnext : ∀ element word inner iterable middle token after,
      before = ⟨.identifier element.name, element.location⟩ :: ⟨.word .inWord, word⟩ :: inner →
      cursor.Leads middle → middle.rest = token :: after → after.length < before.length →
      (middle.errors.length ≤ limit →
        Reads (0 < limit) (.expression .lowest) inner iterable after) →
      (next element iterable).Meets post middle) :
    (do
      let element ← Rule.expectIdentifier
      Rule.expectWord .inWord
      Rule.advance
      let iterable ← phrases.expression .lowest
      next element iterable).Meets post cursor := by
  refine Rule.meets_expectIdentifier.bind fun element first hfirst helement => ?_
  rw [hrest, List.tail_cons] at helement
  obtain ⟨hname, rest, rfl⟩ := helement
  refine (Rule.meets_expectWord .inWord).bind fun _ second hsecond hword => ?_
  rw [hname, List.tail_cons] at hword
  obtain ⟨hword, place, inner, rfl⟩ := hword
  refine Rule.meets_advance.bind fun _ third hthird hinner => ?_
  rw [hword, List.tail_cons] at hinner
  simp only [List.length_cons] at hcount
  refine (h.expression .lowest third (by rw [hinner]; omega)).bindFound ?_
  rw [hinner]
  intro iterable fourth token after hfourth hafter hshorter hiterable
  refine hnext element place inner iterable fourth token after rfl ?_ hafter ?_ hiterable
  · exact ((hfirst.trans hsecond).trans hthird).trans hfourth
  · simp only [List.length_cons]
    omega

/-- A loop over elements from its `for`. -/
theorem forLoop (h : phrases.Sound limit count) (bound : Nat) {location : Location}
    (hrest : cursor.rest = ⟨.word .forWord, location⟩ :: before)
    (hcount : 2 * before.length + 1 ≤ count) (hbound : before.length ≤ bound) :
    (phrases.forLoop bound location).Meets (Found limit .form cursor.rest) cursor := by
  refine (Rule.meets_takeMark .leftParen).bind fun parenthesised first _ hparen => ?_
  rw [hrest, List.tail_cons] at hparen
  rcases hparen with ⟨rfl, hparen, place, header, rfl⟩ | ⟨rfl, rfl, -⟩
  · rw [List.length_cons] at hcount hbound
    refine h.loopHeader hparen (by omega) ?_
    intro element word inner iterable second token middle htokens _ hmiddle hshorter hiterable
    subst htokens
    refine (Rule.meets_expectMark .rightParen).bind fun _ third hthird hclosing => ?_
    rw [hmiddle, List.tail_cons] at hclosing
    obtain ⟨hclosing, place', last, rfl⟩ := hclosing
    rw [List.length_cons] at hshorter
    refine (h.block bound hclosing (by omega) (by omega)).bindFound ?_
    intro body fourth token' after hfourth hafter _ hbody
    rw [hrest]
    exact Rule.meets_pure ⟨token', after, hafter, fun hlimit =>
      .parenLoop (hiterable (hthird.le (hfourth.le hlimit))) (hbody hlimit)⟩
  · refine h.loopHeader hrest hcount ?_
    intro element word inner iterable second token middle htokens _ hmiddle hshorter hiterable
    subst htokens
    refine (h.block bound hmiddle (by omega) (by omega)).bindFound ?_
    intro body third token' after hthird hafter _ hbody
    rw [hrest]
    exact Rule.meets_pure ⟨token', after, hafter, fun hlimit =>
      .bareLoop (hiterable (hthird.le hlimit)) (hbody hlimit)⟩

/-- The name of an error. -/
theorem errorName (limit : Nat) (hrest : cursor.rest = last :: before) :
    Phrases.errorName.Meets (Found limit .errorName before) cursor := by
  refine (Rule.meets_takeMark .leftParen).bind fun parenthesised first _ hparen => ?_
  rw [hrest, List.tail_cons] at hparen
  rcases hparen with ⟨rfl, hparen, place, inner, rfl⟩ | ⟨rfl, rfl, -⟩
  · refine Rule.meets_expectIdentifier.bind fun error second _ herror => ?_
    rw [hparen, List.tail_cons] at herror
    obtain ⟨herror, rest, rfl⟩ := herror
    refine (Rule.meets_expectMark .rightParen).bind fun _ third _ hclosing => ?_
    rw [herror, List.tail_cons] at hclosing
    obtain ⟨hclosing, place', after, rfl⟩ := hclosing
    exact Rule.meets_pure ⟨_, after, hclosing, fun _ => .parenName⟩
  · refine Rule.meets_expectIdentifier.bind fun error second _ herror => ?_
    rw [hrest, List.tail_cons] at herror
    obtain ⟨herror, after, rfl⟩ := herror
    exact Rule.meets_pure ⟨_, after, herror, fun _ => .bareName⟩

/-- What may follow the handler of errors. -/
theorem finalizer (h : phrases.Sound limit count) (bound : Nat)
    (hrest : cursor.rest = last :: before) (hcount : 2 * before.length ≤ count)
    (hbound : before.length ≤ bound) :
    (phrases.finalizer bound).Meets (Found limit .finalizer before) cursor := by
  refine Rule.meets_meetsWord .finallyWord ?_
  rw [hrest, List.tail_cons]
  by_cases hfinally : firstLexeme before = .word .finallyWord
  · rw [decide_eq_true hfinally, if_pos rfl]
    obtain ⟨place, rest, rfl⟩ := Rule.exists_of_kind_word (congrArg Lexeme.kind hfinally)
    rw [List.length_cons] at hcount hbound
    refine Rule.meets_advance.bind fun _ first _ hfirst => ?_
    rw [hrest, List.tail_cons] at hfirst
    refine (h.block bound hfirst (by omega) (by omega)).bindFound ?_
    intro block second token after _ hafter _ hblock
    exact Rule.meets_pure ⟨token, after, hafter, fun hlimit => .finalizer (hblock hlimit)⟩
  · rw [decide_eq_false hfinally, if_neg Bool.false_ne_true]
    exact Rule.meets_pure ⟨last, before, hrest, fun _ => .noFinalizer hfinally⟩

/-- A statement that handles errors from its `try`. -/
theorem tryCatch (h : phrases.Sound limit count) (bound : Nat) {location : Location}
    (hrest : cursor.rest = ⟨.word .tryWord, location⟩ :: before)
    (hcount : 2 * before.length + 1 ≤ count) (hbound : before.length ≤ bound) :
    (phrases.tryCatch bound location).Meets (Found limit .form cursor.rest) cursor := by
  refine (h.block bound hrest (by omega) hbound).bindFound ?_
  rw [hrest, List.length_cons]
  intro body first token middle _ hmiddle hshorter hbody
  refine (Rule.meets_expectWord .catchWord).bind fun _ second hsecond hword => ?_
  rw [hmiddle, List.tail_cons] at hword
  obtain ⟨hword, place, named, rfl⟩ := hword
  rw [List.length_cons] at hshorter
  refine (errorName limit hword).bindFound ?_
  rw [hword, List.length_cons]
  intro error third token' inner hthird hinner hshorter' herror
  refine (h.block bound hinner (by omega) (by omega)).bindFound ?_
  rw [hinner, List.length_cons]
  intro handler fourth token'' rest hfourth hlast hshorter'' hhandler
  refine (h.finalizer bound hlast (by omega) (by omega)).bindFound ?_
  intro finalizer fifth close after hfifth hafter _ hfinalizer
  exact Rule.meets_pure ⟨close, after, hafter, fun hlimit =>
    have hlimit' := hfifth.le hlimit
    have hlimit'' := hfourth.le hlimit'
    .tryCatch (hbody (hsecond.le (hthird.le hlimit''))) (herror hlimit'') (hhandler hlimit')
      (hfinalizer hlimit)⟩

/-- A statement without the semicolon after it. -/
theorem statementForm (h : phrases.Sound limit count) (bound : Nat) (hne : cursor.rest ≠ [])
    (hcount : 2 * cursor.rest.length + 1 ≤ count) (hbound : cursor.rest.length ≤ bound) :
    (phrases.statementForm bound).Meets (Found limit .form cursor.rest) cursor := by
  refine Rule.meets_current ?_
  obtain ⟨⟨lexeme, location⟩, before, hrest⟩ := List.exists_cons_of_ne_nil hne
  rw [Cursor.current_eq hrest]
  -- the last branch is stated before the cases, as the other lexemes do not matter in it
  have hexpression : (do
      let value ← phrases.expression .lowest
      pure (Statement.expression ⟨lexeme, location⟩ value)).Meets (Found limit .form cursor.rest)
        cursor := by
    refine (h.expression .lowest cursor hcount).bindFound ?_
    rw [hrest]
    intro value first token after _ hafter _ hvalue
    exact Rule.meets_pure ⟨token, after, hafter, fun hlimit => .expressionForm (hvalue hlimit)⟩
  rw [hrest, List.length_cons] at hcount hbound
  dsimp only
  split
  · exact h.letBinding hrest (by omega)
  · exact h.returnValue hrest (by omega)
  · exact h.forLoop bound hrest (by omega) (by omega)
  · exact h.whileLoop bound hrest (by omega) (by omega)
  · exact Rule.meets_pure ⟨_, before, hrest, fun _ => hrest ▸ .breakLoop⟩
  · exact Rule.meets_pure ⟨_, before, hrest, fun _ => hrest ▸ .continueLoop⟩
  · exact h.tryCatch bound hrest (by omega) (by omega)
  · exact hexpression

end Phrases.Sound

/-- A comment is read up to its end, or up to the end of the text. -/
theorem Cursor.skipComment_reads {cursor : Cursor} {first : Location} {before : List Token}
    (hrest : cursor.rest = ⟨.mark .commentOpen, first⟩ :: before) (hproper : cursor.Proper)
    (lenient : Prop) :
    Reads lenient .statement cursor.rest none cursor.skipComment.rest := by
  have hproper' : ∀ token ∈ before, token.lexeme ≠ .eof := fun token htoken =>
    hproper token (hrest ▸ .tail _ htoken)
  rcases exists_commentClose before hproper' with ⟨skipped, last, after, rfl, hskipped⟩ | hskipped
  · rw [skipComment_closed hskipped hrest, hrest]
    exact .comment hskipped
  · rw [skipComment_open hskipped hrest, hrest]
    exact .openComment hskipped

/-- One statement, one level of nesting above its parts. -/
theorem Phrases.Sound.wholeStatement {limit count : Nat} {phrases : Phrases} {cursor : Cursor}
    (h : phrases.Sound limit count) (hcount : 2 * cursor.rest.length + 1 ≤ count)
    (hne : firstLexeme cursor.rest ≠ .eof) :
    (phrases.wholeStatement count).Meets
      (fun result last => last.rest.length < cursor.rest.length ∧
        (last.errors.length ≤ limit →
          Reads (0 < limit) .statement cursor.rest result last.rest)) cursor := by
  refine Rule.Meets.of_proper fun hproper => Rule.meets_current ?_
  have hnil : cursor.rest ≠ [] := fun hnil => hne (hnil ▸ rfl)
  obtain ⟨⟨lexeme, location⟩, before, hrest⟩ := List.exists_cons_of_ne_nil hnil
  rw [Cursor.current_eq hrest]
  dsimp only
  split
  · -- an empty statement
    refine Rule.meets_advance.bind fun _ first _ hfirst => ?_
    rw [hrest, List.tail_cons] at hfirst
    rw [hrest]
    exact Rule.meets_pure ⟨hfirst ▸ Nat.lt_succ_self _, fun _ => hfirst ▸ .empty⟩
  · -- a comment
    refine (Rule.meets_modify cursor.skipComment_leads).bind fun _ first _ hfirst => ?_
    subst hfirst
    have hreads := Cursor.skipComment_reads hrest hproper
    exact Rule.meets_pure ⟨(hreads True).least_le, fun _ => hreads _⟩
  · refine Rule.meets_remaining ?_
    refine (h.statementForm count hnil hcount (by omega)).attempt.bind ?_
    intro result first hfirst hresult
    rcases hresult with ⟨statement, rfl, token, middle, hmiddle, hform⟩ | ⟨rfl, herror⟩
    · -- a statement was read, and a semicolon after it is taken
      have hshorter := hfirst.rest.length_le
      rw [hmiddle, List.length_cons] at hshorter
      refine (Rule.meets_takeMark .semicolon).bind fun taken second hsecond htaken => ?_
      rw [hmiddle, List.tail_cons] at htaken
      refine Rule.meets_advance.bind fun _ third hthird hrest' => ?_
      rcases htaken with ⟨-, htaken, place, after, rfl⟩ | ⟨-, rfl, hnone⟩
      · rw [htaken, List.tail_cons] at hrest'
        rw [List.length_cons] at hshorter
        refine Rule.meets_pure ⟨by rw [hrest']; omega, fun hlimit => ?_⟩
        rw [hrest']
        exact .terminated (hform (hsecond.le (hthird.le hlimit)))
      · rw [hmiddle, List.tail_cons] at hrest'
        refine Rule.meets_pure ⟨by rw [hrest']; omega, fun hlimit => ?_⟩
        rw [hrest']
        exact .unterminated (hform (hthird.le hlimit)) hnone
    · -- an error was recorded, so the reading may be lenient about what is skipped
      have hlength := hfirst.rest.length_le
      refine (Rule.meets_modify (first.synchronize_leads _)).bind fun _ second hsecond hskip => ?_
      subst hskip
      have hpositive : 0 < cursor.rest.length := by
        rw [hrest]
        exact Nat.succ_pos _
      have hshorter := Cursor.synchronize_shorter hlength hpositive
        fun hunmoved => hfirst.rest.eq_of_length hunmoved ▸ hne
      refine Rule.meets_pure ⟨hshorter, fun hlimit => ?_⟩
      refine .skipped ?_ (hsecond.rest.trans hfirst.rest) hshorter
      exact Nat.lt_of_lt_of_le (Nat.zero_lt_of_lt herror) (hsecond.le hlimit)

end Script
