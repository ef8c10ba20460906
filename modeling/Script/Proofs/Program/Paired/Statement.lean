import Script.Proofs.Program.Paired.Expression

/-!
# Statements at paired positions

A statement is read, or skipped after an error, by the same steps in both runs. Skipping stops at
the semicolon of a fence at the latest, and behind it the first run has no tokens left.
-/

namespace Script

variable {pairing : Pairing} {cursor cursor' : Cursor}

/-! ## Skipping -/

theorem Cursor.advanceUntil_of_stops {stops : Cursor → Bool} (hstops : stops cursor = true)
    (count : Nat) : cursor.advanceUntil stops count = cursor := by
  cases count with
  | zero => rfl
  | succ count => rw [advanceUntil, if_pos hstops]

namespace Pairing.Along

/-- Searches that stop at the same positions, and at the semicolon of a fence, find positions that
are passed side by side. -/
theorem advanceUntil {stops stops' : Cursor → Bool}
    (hstops : ∀ {cursor cursor'}, pairing.Along 1 cursor cursor' → stops' cursor' = stops cursor)
    (hend : ∀ cursor : Cursor, cursor.rest = [] → stops cursor = true)
    (hfence : pairing.fenced → ∀ cursor : Cursor,
      cursor.current.lexeme = .mark .semicolon → stops cursor = true)
    (count count' : Nat) (h : pairing.Along 1 cursor cursor')
    (hcount : cursor.rest.length ≤ count) (hcount' : cursor'.rest.length ≤ count') :
    pairing.Along 1 (cursor.advanceUntil stops count) (cursor'.advanceUntil stops' count') := by
  induction count generalizing count' cursor cursor' with
  | zero =>
      have hstop := hend cursor (List.eq_nil_of_length_eq_zero (Nat.le_zero.1 hcount))
      rwa [Cursor.advanceUntil_of_stops hstop,
        Cursor.advanceUntil_of_stops ((hstops h).trans hstop)]
  | succ count ih =>
      cases hstop : stops cursor with
      | true =>
          rwa [Cursor.advanceUntil_of_stops hstop,
            Cursor.advanceUntil_of_stops ((hstops h).trans hstop)]
      | false =>
          have hlength := h.length
          have hpositive : 0 < cursor.rest.length := by
            refine List.length_pos_iff.2 fun hnil => ?_
            cases hstop.symm.trans (hend cursor hnil)
          -- the first run is not at the semicolon of a fence, so both runs can go on
          have hnext : pairing.Along 1 cursor.advance cursor'.advance := by
            by_cases hfenced : pairing.fenced
            · refine (h.past fun hsemicolon => ?_).advance
              cases hstop.symm.trans (hfence hfenced cursor hsemicolon)
            · have hmore : pairing.Along 2 cursor cursor' := h.unfenced hfenced
              exact hmore.advance
          cases count' with
          | zero => omega
          | succ count' =>
              rw [Cursor.advanceUntil, Cursor.advanceUntil, hstops h, hstop,
                if_neg Bool.false_ne_true, if_neg Bool.false_ne_true]
              refine ih count' hnext ?_ ?_
              · rw [Cursor.advance_rest, List.length_tail]
                omega
              · rw [Cursor.advance_rest, List.length_tail]
                omega

/-- Both runs skip the tokens up to a position that a search finds, and a mark there. -/
theorem skip {stops stops' : Cursor → Bool} (mark : Mark) (h : pairing.Along 1 cursor cursor')
    (hstops : ∀ {cursor cursor'}, pairing.Along 1 cursor cursor' → stops' cursor' = stops cursor)
    (hend : ∀ cursor : Cursor, cursor.current.lexeme = .eof → stops cursor = true)
    (hfence : pairing.fenced → ∀ cursor : Cursor,
      cursor.current.lexeme = .mark .semicolon → stops cursor = true) :
    pairing.Along 0
      (if (cursor.advanceUntil stops cursor.rest.length).current.lexeme = .mark mark then
        (cursor.advanceUntil stops cursor.rest.length).advance
      else cursor.advanceUntil stops cursor.rest.length)
      (if (cursor'.advanceUntil stops' cursor'.rest.length).current.lexeme = .mark mark then
        (cursor'.advanceUntil stops' cursor'.rest.length).advance
      else cursor'.advanceUntil stops' cursor'.rest.length) := by
  have hnil (cursor : Cursor) (hrest : cursor.rest = []) : stops cursor = true := by
    refine hend cursor ?_
    rw [Cursor.current_lexeme, hrest]
    rfl
  have hfound := h.advanceUntil hstops hnil hfence _ _ (Nat.le_refl _) (Nat.le_refl _)
  rw [hfound.current_lexeme]
  split
  · exact hfound.advance
  · exact hfound.weaken (Nat.zero_le 1)

/-- A comment is skipped by both runs. There is none in front of a fence. -/
theorem skipComment (h : pairing.Along 1 cursor cursor') (hopen : ¬ pairing.fenced) :
    pairing.Along 0 cursor.skipComment cursor'.skipComment := by
  unfold Cursor.skipComment
  dsimp only
  refine h.skip .commentClose (fun hcursor => ?_) (fun cursor heof => ?_)
    fun hfenced => absurd hfenced hopen
  · rw [hcursor.current_lexeme]
  · exact decide_eq_true (.inr heof)

/-- The rest of a statement is skipped by both runs, up to the fence at most. -/
theorem synchronize (h : pairing.Along 1 cursor cursor') (length : Nat) :
    pairing.Along 0 (cursor.synchronize length)
      (cursor'.synchronize (length + pairing.beyond.length)) := by
  unfold Cursor.synchronize
  dsimp only
  refine h.skip .semicolon (fun hcursor => ?_) (fun cursor heof => ?_)
    fun _ cursor hsemicolon => ?_
  · -- the second run has moved if the first one has, as both started with more tokens alike
    rw [hcursor.current_lexeme, hcursor.length, hcursor.blocks]
    simp only [Nat.add_lt_add_iff_right]
  · rw [heof]
    rfl
  · rw [hsemicolon]
    rfl

end Pairing.Along

namespace Phrases.Agree

variable {phrases phrases' : Phrases}

/-- A binding from its `let`. -/
theorem letBinding (hphrases : phrases.Agree pairing phrases') (location : Location)
    (h : pairing.Along 2 cursor cursor') :
    (phrases.letBinding location).Agrees pairing 2 (Statement.relocated pairing.change)
      (phrases'.letBinding (pairing.change location)) cursor cursor' := by
  refine (Rule.agrees_expectIdentifier h).bind fun target first first' hfirst => ?_
  refine (Rule.agrees_expectMark (by decide) hfirst).bind fun _ second second' hsecond => ?_
  refine (Rule.agrees_advance hsecond).bind fun _ third third' hthird => ?_
  refine (hphrases.expression .lowest hthird).bind fun value last last' hlast => ?_
  refine Rule.agrees_pure hlast ?_
  rw [Statement.relocated, Expr.relocated_named]
  rfl

/-- A return from its `return`. -/
theorem returnValue (hphrases : phrases.Agree pairing phrases') (location : Location)
    (h : pairing.Along 2 cursor cursor') :
    (phrases.returnValue location).Agrees pairing 2 (Statement.relocated pairing.change)
      (phrases'.returnValue (pairing.change location)) cursor cursor' := by
  refine (Rule.agrees_advance h).bind fun _ first first' hfirst => ?_
  refine (hphrases.expression .lowest hfirst).bind fun value last last' hlast => ?_
  exact Rule.agrees_pure hlast rfl

/-- A loop over elements from its `for`. -/
theorem forLoop (hphrases : phrases.Agree pairing phrases') (count count' : Nat)
    (location : Location) (h : pairing.Along 2 cursor cursor') :
    (phrases.forLoop count location).Agrees pairing 2 (Statement.relocated pairing.change)
      (phrases'.forLoop count' (pairing.change location)) cursor cursor' := by
  refine (Rule.agrees_takeMark (by decide) h).bind fun parenthesised first first' hfirst => ?_
  refine (Rule.agrees_expectIdentifier hfirst).bind fun element second second' hsecond => ?_
  refine (Rule.agrees_expectWord .inWord hsecond).bind fun _ third third' hthird => ?_
  refine (Rule.agrees_advance hthird).bind fun _ fourth fourth' hfourth => ?_
  refine (hphrases.expression .lowest hfourth).bind fun iterable fifth fifth' hfifth => ?_
  have hbody {sixth sixth' : Cursor} (hsixth : pairing.Along 2 sixth sixth') :
      (phrases.bracedBlock count >>= fun body =>
        pure (Statement.forLoop location element iterable body)).Agrees pairing 2
          (Statement.relocated pairing.change)
          (phrases'.bracedBlock count' >>= fun body => pure
            (Statement.forLoop (pairing.change location) (element.relocated pairing.change)
              (iterable.relocated pairing.change) body)) sixth sixth' :=
    (hphrases.bracedBlock count count' hsixth).bind fun body last last' hlast =>
      Rule.agrees_pure hlast rfl
  cases parenthesised with
  | true =>
      exact (Rule.agrees_expectMark (by decide) hfifth).bind fun _ sixth sixth' hsixth =>
        hbody hsixth
  | false => exact hbody hfifth

/-- A loop with a condition from its `while`. -/
theorem whileLoop (hphrases : phrases.Agree pairing phrases') (count count' : Nat)
    (location : Location) (h : pairing.Along 2 cursor cursor') :
    (phrases.whileLoop count location).Agrees pairing 2 (Statement.relocated pairing.change)
      (phrases'.whileLoop count' (pairing.change location)) cursor cursor' := by
  refine (Rule.agrees_advance h).bind fun _ first first' hfirst => ?_
  refine (hphrases.expression .lowest hfirst).bind fun condition second second' hsecond => ?_
  refine (hphrases.bracedBlock count count' hsecond).bind fun body last last' hlast => ?_
  exact Rule.agrees_pure hlast rfl

end Phrases.Agree

/-- The name of an error. -/
theorem Phrases.errorName_agrees (h : pairing.Along 2 cursor cursor') :
    Phrases.errorName.Agrees pairing 2 (Identifier.relocated pairing.change) Phrases.errorName
      cursor cursor' := by
  refine (Rule.agrees_takeMark (by decide) h).bind fun parenthesised first first' hfirst => ?_
  refine (Rule.agrees_expectIdentifier hfirst).bind fun error second second' hsecond => ?_
  cases parenthesised with
  | true =>
      refine (Rule.agrees_expectMark (by decide) hsecond).bind fun _ last last' hlast => ?_
      exact Rule.agrees_pure hlast rfl
  | false => exact Rule.agrees_pure hsecond rfl

namespace Phrases.Agree

variable {phrases phrases' : Phrases}

/-- What may follow the handler of errors. -/
theorem finalizer (hphrases : phrases.Agree pairing phrases') (count count' : Nat)
    (h : pairing.Along 2 cursor cursor') :
    (phrases.finalizer count).Agrees pairing 2 (Option.map (Block.relocated pairing.change))
      (phrases'.finalizer count') cursor cursor' := by
  refine Rule.agrees_meetsWord h (fun hfinally => ?_) fun _ => Rule.agrees_pure h rfl
  refine (Rule.agrees_advance_word h hfinally).bind fun _ first first' hfirst => ?_
  refine (hphrases.bracedBlock count count' hfirst).bind fun block last last' hlast => ?_
  exact Rule.agrees_pure hlast rfl

/-- A statement that handles errors from its `try`. -/
theorem tryCatch (hphrases : phrases.Agree pairing phrases') (count count' : Nat)
    (location : Location) (h : pairing.Along 2 cursor cursor') :
    (phrases.tryCatch count location).Agrees pairing 2 (Statement.relocated pairing.change)
      (phrases'.tryCatch count' (pairing.change location)) cursor cursor' := by
  refine (hphrases.bracedBlock count count' h).bind fun body first first' hfirst => ?_
  refine (Rule.agrees_expectWord .catchWord hfirst).bind fun _ second second' hsecond => ?_
  refine (Phrases.errorName_agrees hsecond).bind fun error third third' hthird => ?_
  refine (hphrases.bracedBlock count count' hthird).bind fun handler fourth fourth' hfourth => ?_
  refine (hphrases.finalizer count count' hfourth).bind fun finalizer last last' hlast => ?_
  refine Rule.agrees_pure hlast ?_
  rw [Statement.relocated, Block.relocatedOption_eq]

/-- A statement without the semicolon after it. -/
theorem statementForm (hphrases : phrases.Agree pairing phrases') (count count' : Nat)
    (h : pairing.Along 1 cursor cursor') :
    (phrases.statementForm count).Agrees pairing 2 (Statement.relocated pairing.change)
      (phrases'.statementForm count') cursor cursor' := by
  refine Rule.agrees_current h ?_
  have hpast := h.past
  generalize cursor.current = token at hpast
  obtain ⟨lexeme, location⟩ := token
  dsimp only [Token.relocated] at hpast ⊢
  split
  · exact hphrases.letBinding location (hpast (by decide))
  · exact hphrases.returnValue location (hpast (by decide))
  · exact hphrases.forLoop count count' location (hpast (by decide))
  · exact hphrases.whileLoop count count' location (hpast (by decide))
  · exact Rule.agrees_pure (hpast (by decide)) rfl
  · exact Rule.agrees_pure (hpast (by decide)) rfl
  · exact hphrases.tryCatch count count' location (hpast (by decide))
  · refine (hphrases.expression .lowest h).bind fun value last last' hlast => ?_
    exact Rule.agrees_pure hlast rfl

/-- A statement with the semicolon after it, which may be that of the fence. -/
theorem wholeStatement (hphrases : phrases.Agree pairing phrases') (count count' : Nat)
    (h : pairing.Along 1 cursor cursor') :
    (phrases.wholeStatement count).Agrees pairing 0
      (Option.map (Statement.relocated pairing.change)) (phrases'.wholeStatement count') cursor
      cursor' := by
  refine Rule.agrees_current h ?_
  dsimp only [Token.relocated]
  split
  · exact (Rule.agrees_advance h).bind fun _ last last' hlast => Rule.agrees_pure hlast rfl
  · next hcomment =>
      have hopen : ¬ pairing.fenced := fun hfenced => (h.plain hfenced).2.2.1 hcomment
      refine (Rule.agrees_modify (h.skipComment hopen)).bind fun _ last last' hlast => ?_
      exact Rule.agrees_pure hlast rfl
  · show ((phrases.statementForm count).attempt >>= _).Agrees pairing 0 _
      ((phrases'.statementForm count').attempt >>= _) cursor cursor'
    rw [h.length]
    refine (hphrases.statementForm count count' h).bindAttempt
      (fun statement first first' hfirst => ?_) fun first first' hfirst => ?_
    · refine (Rule.agrees_takeSemicolon hfirst).bind fun _ second second' hsecond => ?_
      refine (Rule.agrees_advance hsecond).bind fun _ last last' hlast => ?_
      exact Rule.agrees_pure hlast rfl
    · refine (Rule.agrees_modify (hfirst.synchronize cursor.rest.length)).bind
        fun _ last last' hlast => ?_
      exact Rule.agrees_pure hlast rfl

end Phrases.Agree

end Script
