import Script.Proofs.Grammar.Ending.Expression

/-!
# Rules of statements end

The rules of statements end like those of expressions. A statement is read, or skipped where it is
broken, and in each case at least one token is passed: `Phrases.End.wholeStatement_shorter`.
-/

namespace Script

/-- The name of an error. -/
theorem Phrases.errorName_ends {enough : Prop} (cursor : Cursor) :
    Phrases.errorName.Ends enough Phrases.errorName cursor := by
  refine (Rule.takeMark_ends .leftParen).bind fun parenthesised first _ _ => ?_
  refine Rule.ends_expectIdentifier fun error second _ _ => ?_
  cases parenthesised with
  | true => exact Rule.ends_expectMark .rightParen fun last _ _ _ => Rule.ends_pure _
  | false => exact Rule.ends_pure _

namespace Phrases.End

variable {enough : Prop} {nested count count' : Nat} {phrases phrases' : Phrases}
  {cursor : Cursor}

/-- A binding from its `let`. -/
theorem letBinding (h : phrases.End nested phrases') (location : Location)
    (hnested : enough → 2 * cursor.rest.length + 2 ≤ nested) :
    (phrases.letBinding location).Ends enough (phrases'.letBinding location) cursor := by
  refine Rule.ends_expectIdentifier fun target first _ hfirst => ?_
  refine Rule.ends_expectMark .assign fun second _ hsecond _ => ?_
  refine Rule.ends_advance fun third _ hthird => ?_
  refine (h.smaller .lowest fun henough => ?_).bind fun value last _ _ => Rule.ends_pure _
  have hbound := hnested henough
  omega

/-- A return from its `return`. -/
theorem returnValue (h : phrases.End nested phrases') (location : Location)
    (hnested : enough → 2 * cursor.rest.length + 2 ≤ nested) :
    (phrases.returnValue location).Ends enough (phrases'.returnValue location) cursor := by
  refine Rule.ends_advance fun first _ hfirst => ?_
  refine (h.smaller .lowest fun henough => ?_).bind fun value last _ _ => Rule.ends_pure _
  have hbound := hnested henough
  omega

/-- A loop over elements from its `for`. -/
theorem forLoop (h : phrases.End nested phrases') (hle : count ≤ count') (location : Location)
    (hbounds : enough → 2 * cursor.rest.length + 2 ≤ nested ∧ cursor.rest.length ≤ count) :
    (phrases.forLoop count location).Ends enough (phrases'.forLoop count' location) cursor := by
  refine (Rule.takeMark_ends .leftParen).bind fun parenthesised first _ hfirst => ?_
  refine Rule.ends_expectIdentifier fun element second _ hsecond => ?_
  refine Rule.ends_expectWord .inWord fun third _ hthird _ => ?_
  refine Rule.ends_advance fun fourth _ hfourth => ?_
  have hfirst := hfirst.length_le
  refine (h.smaller .lowest fun henough => ?_).bind fun iterable fifth _ hfifth => ?_
  · have hbound := hbounds henough
    omega
  have hfifth := hfifth.length_le
  have hbody {sixth : Cursor} (hsixth : sixth.rest.length ≤ fifth.rest.length) :
      (phrases.bracedBlock count >>= fun body =>
        pure (Statement.forLoop location element iterable body)).Ends enough
          (phrases'.bracedBlock count' >>= fun body =>
            pure (Statement.forLoop location element iterable body)) sixth := by
    refine (h.bracedBlock hle fun henough => ?_).bind fun body last _ _ => Rule.ends_pure _
    have hbound := hbounds henough
    omega
  cases parenthesised with
  | true => exact Rule.ends_expectMark .rightParen fun sixth hsixth _ _ => hbody hsixth.length_le
  | false => exact hbody (Nat.le_refl _)

/-- A loop with a condition from its `while`. -/
theorem whileLoop (h : phrases.End nested phrases') (hle : count ≤ count') (location : Location)
    (hbounds : enough → 2 * cursor.rest.length + 2 ≤ nested ∧ cursor.rest.length ≤ count) :
    (phrases.whileLoop count location).Ends enough (phrases'.whileLoop count' location)
      cursor := by
  refine Rule.ends_advance fun first _ hfirst => ?_
  refine (h.smaller .lowest fun henough => ?_).bind fun condition second _ hsecond => ?_
  · have hbound := hbounds henough
    omega
  have hsecond := hsecond.length_le
  refine (h.bracedBlock hle fun henough => ?_).bind fun body last _ _ => Rule.ends_pure _
  have hbound := hbounds henough
  omega

/-- What may follow the handler of errors. -/
theorem finalizer (h : phrases.End nested phrases') (hle : count ≤ count')
    (hbounds : enough → 2 * cursor.rest.length + 2 ≤ nested ∧ cursor.rest.length ≤ count) :
    (phrases.finalizer count).Ends enough (phrases'.finalizer count') cursor := by
  refine Rule.ends_meetsWord .finallyWord (fun _ => ?_) (Rule.ends_pure _)
  refine Rule.ends_advance fun first _ hfirst => ?_
  refine (h.bracedBlock hle fun henough => ?_).bind fun block last _ _ => Rule.ends_pure _
  have hbound := hbounds henough
  omega

/-- A statement that handles errors from its `try`. -/
theorem tryCatch (h : phrases.End nested phrases') (hle : count ≤ count') (location : Location)
    (hbounds : enough → 2 * cursor.rest.length + 2 ≤ nested ∧ cursor.rest.length ≤ count) :
    (phrases.tryCatch count location).Ends enough (phrases'.tryCatch count' location)
      cursor := by
  refine (h.bracedBlock hle fun henough => ?_).bind fun body first _ hfirst => ?_
  · have hbound := hbounds henough
    omega
  refine Rule.ends_expectWord .catchWord fun second hsecond _ _ => ?_
  refine (Phrases.errorName_ends second).bind fun error third _ hthird => ?_
  have hthird := ((hfirst.trans hsecond).trans hthird).length_le
  refine (h.bracedBlock hle fun henough => ?_).bind fun handler fourth _ hfourth => ?_
  · have hbound := hbounds henough
    omega
  have hfourth := hfourth.length_le
  refine (h.finalizer hle fun henough => ?_).bind fun finalizer last _ _ => Rule.ends_pure _
  have hbound := hbounds henough
  omega

/-- A statement without the semicolon after it. -/
theorem statementForm (h : phrases.End nested phrases') (hle : count ≤ count')
    (hbounds : enough → 2 * cursor.rest.length + 2 ≤ nested ∧ cursor.rest.length ≤ count) :
    (phrases.statementForm count).Ends enough (phrases'.statementForm count') cursor := by
  refine Rule.ends_current ?_
  split
  · exact h.letBinding _ fun henough => (hbounds henough).1
  · exact h.returnValue _ fun henough => (hbounds henough).1
  · exact h.forLoop hle _ hbounds
  · exact h.whileLoop hle _ hbounds
  · exact Rule.ends_pure _
  · exact Rule.ends_pure _
  · exact h.tryCatch hle _ hbounds
  · exact (h.smaller .lowest fun henough => (hbounds henough).1).bind
      fun value last _ _ => Rule.ends_pure _

/-- One statement, one level of nesting above its parts. -/
theorem wholeStatement (h : phrases.End count phrases') (hle : count ≤ count')
    (hcount : enough → 2 * cursor.rest.length + 2 ≤ count) :
    (phrases.wholeStatement count).Ends enough (phrases'.wholeStatement count') cursor := by
  refine Rule.ends_current ?_
  split
  · exact Rule.ends_advance fun last _ _ => Rule.ends_pure _
  · exact (Rule.ends_modify cursor.skipComment_passes).bind fun _ last _ _ => Rule.ends_pure _
  · refine Rule.ends_remaining ?_
    refine (h.statementForm hle fun henough => ?_).attempt.bind fun result first _ _ => ?_
    · have hbound := hcount henough
      omega
    cases result with
    | some statement =>
        refine (Rule.takeMark_ends .semicolon).bind fun _ second _ _ => ?_
        exact Rule.ends_advance fun last _ _ => Rule.ends_pure _
    | none =>
        exact (Rule.ends_modify (first.synchronize_passes _)).bind
          fun _ last _ _ => Rule.ends_pure _

/-- A statement that is read, skipped or empty passes at least one token. -/
theorem wholeStatement_shorter (h : phrases.End count phrases') {last : Cursor}
    {result : Option Statement} (htoken : cursor.current.lexeme ≠ .eof)
    (hrun : phrases.wholeStatement count cursor = .parsed result last) :
    last.rest.length < cursor.rest.length := by
  have hpos := Cursor.length_pos_of_current htoken
  obtain ⟨token, start, hcurrent, hrun⟩ := Rule.bind_eq_parsed hrun
  cases hcurrent
  generalize hlexeme : cursor.current.lexeme = lexeme at hrun htoken
  split at hrun
  · obtain ⟨_, first, hadvance, hrun⟩ := Rule.bind_eq_parsed hrun
    cases hadvance
    cases hrun
    rw [Cursor.advance_rest, List.length_tail]
    exact Nat.sub_lt hpos Nat.one_pos
  · obtain ⟨_, first, hskip, hrun⟩ := Rule.bind_eq_parsed hrun
    cases hskip
    cases hrun
    exact Cursor.skipComment_shorter hlexeme
  · obtain ⟨length, start, hremaining, hrun⟩ := Rule.bind_eq_parsed hrun
    cases hremaining
    obtain ⟨form, first, hattempt, hrun⟩ := Rule.bind_eq_parsed hrun
    have hform : (phrases.statementForm count).Ends False (phrases'.statementForm count) cursor :=
      h.statementForm (Nat.le_refl _) False.elim
    have hfirst := hform.attempt.passes hattempt
    cases form with
    | some statement =>
        -- the statement may have passed no token, but the last step does
        obtain ⟨taken, second, htaken, hrun⟩ := Rule.bind_eq_parsed hrun
        obtain ⟨_, third, hadvance, hrun⟩ := Rule.bind_eq_parsed hrun
        cases hadvance
        cases hrun
        have hmark : (Rule.takeMark .semicolon).Ends False (Rule.takeMark .semicolon) first :=
          Rule.takeMark_ends .semicolon
        have hsecond := hmark.passes htaken
        have hlength := (hfirst.trans hsecond).length_le
        rw [Cursor.advance_rest, List.length_tail]
        omega
    | none =>
        obtain ⟨_, second, hskip, hrun⟩ := Rule.bind_eq_parsed hrun
        cases hskip
        cases hrun
        refine Cursor.synchronize_shorter hfirst.length_le hpos fun hunmoved => ?_
        rwa [hfirst.leads.rest.eq_of_length hunmoved, ← Cursor.current_lexeme, hlexeme]

end Phrases.End

end Script
