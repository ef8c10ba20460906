import Script.Proofs.Grammar.Soundness

/-!
# Rules that end

A rule is given bounds on nested and repeated phrases. `Rule.Ends` compares a rule with the same one
under larger bounds, at one position: where the first one ends, whether it applies or rejects, the
second one ends alike, further on and among as many blocks; and the first one does end if its bounds
are enough. So a rule that ends does the same within all larger bounds, whatever the tokens are.

The lemmas here cover the primitive rules, each in front of the rules that follow it, and lists.
They tell how many tokens are left, since the bounds are compared with that number.
-/

namespace Script

namespace Cursor

/-- The last position comes after the first one, among as many blocks. -/
structure Passes (first last : Cursor) : Prop where
  leads : first.Leads last
  blocks : last.blocks = first.blocks

variable {cursor first second third : Cursor}

theorem Passes.refl (cursor : Cursor) : cursor.Passes cursor :=
  ⟨.refl _, rfl⟩

theorem Passes.trans (h : first.Passes second) (h' : second.Passes third) : first.Passes third :=
  ⟨h.leads.trans h'.leads, h'.blocks.trans h.blocks⟩

theorem Passes.length_le (h : first.Passes second) : second.rest.length ≤ first.rest.length :=
  h.leads.rest.length_le

theorem record_passes (cursor : Cursor) (fault : SyntaxFault) (location : Location) :
    cursor.Passes (cursor.record (.parse fault location)) :=
  ⟨cursor.record_leads fault location, rfl⟩

theorem surface_blocks (cursor : Cursor) : cursor.surface.blocks = cursor.blocks := by
  unfold surface
  split <;> rfl

theorem advance_passes (cursor : Cursor) : cursor.Passes cursor.advance :=
  ⟨cursor.advance_leads, surface_blocks _⟩

theorem advanceUntil_passes (stops : Cursor → Bool) (count : Nat) (cursor : Cursor) :
    cursor.Passes (cursor.advanceUntil stops count) := by
  refine ⟨advanceUntil_leads stops count cursor, ?_⟩
  induction count generalizing cursor with
  | zero => rfl
  | succ count ih =>
      rw [advanceUntil]
      split
      · rfl
      · exact (ih _).trans cursor.advance_passes.blocks

/-- At a token there is one. -/
theorem length_pos_of_current (h : cursor.current.lexeme ≠ .eof) : 0 < cursor.rest.length := by
  rw [current_lexeme] at h
  refine List.length_pos_iff.2 fun hnil => h ?_
  rw [hnil, firstLexeme_nil]

/-- In front of a token there are two. -/
theorem two_le_of_upcoming (h : cursor.upcoming.lexeme ≠ .eof) : 2 ≤ cursor.rest.length := by
  rw [upcoming_lexeme] at h
  have htail : 0 < cursor.rest.tail.length := by
    refine List.length_pos_iff.2 fun hnil => h ?_
    rw [hnil, firstLexeme_nil]
  rw [List.length_tail] at htail
  omega

/-- A comment is skipped up to a token that closes it, or to the end. -/
theorem skipComment_ends (cursor : Cursor) :
    ∃ found, cursor.Passes found ∧
      (found.current.lexeme = .mark .commentClose ∧ cursor.skipComment = found.advance ∨
        found.current.lexeme = .eof ∧ cursor.skipComment = found) := by
  have hstops (stops : Cursor → Bool) (hend : ∀ cursor : Cursor, cursor.rest = [] → stops cursor) :=
    advanceUntil_stops hend cursor.rest.length cursor (Nat.le_refl _)
  unfold skipComment
  dsimp only
  generalize hfound : cursor.advanceUntil _ _ = found
  have hpasses : cursor.Passes found := hfound ▸ advanceUntil_passes _ _ cursor
  have hstops := hfound ▸ hstops _ fun cursor hrest => by rw [current_lexeme, hrest]; rfl
  refine ⟨found, hpasses, ?_⟩
  rcases of_decide_eq_true hstops with hclose | heof
  · exact .inl ⟨hclose, if_pos hclose⟩
  · exact .inr ⟨heof, if_neg (by rw [heof]; exact nofun)⟩

/-- The rest of a statement is skipped up to a semicolon, to the end, or to the first token after
the start of the statement that closes a surrounding block or starts another statement. -/
theorem synchronize_ends (length : Nat) (cursor : Cursor) :
    ∃ found, cursor.Passes found ∧
      (found.current.lexeme = .mark .semicolon ∧ cursor.synchronize length = found.advance ∨
        (found.current.lexeme = .eof ∨ found.rest.length < length ∧
          (found.current.lexeme = .mark .rightBrace ∧ 0 < found.blocks ∨
            startsStatement found.current.lexeme)) ∧ cursor.synchronize length = found) := by
  have hstops (stops : Cursor → Bool) (hend : ∀ cursor : Cursor, cursor.rest = [] → stops cursor) :=
    advanceUntil_stops hend cursor.rest.length cursor (Nat.le_refl _)
  unfold synchronize
  dsimp only
  generalize hfound : cursor.advanceUntil _ _ = found
  have hpasses : cursor.Passes found := hfound ▸ advanceUntil_passes _ _ cursor
  have hstops := hfound ▸ hstops _ fun cursor hrest => by rw [current_lexeme, hrest]; rfl
  refine ⟨found, hpasses, ?_⟩
  simp only [Bool.or_eq_true, Bool.and_eq_true, decide_eq_true_eq] at hstops
  by_cases hsemicolon : found.current.lexeme = .mark .semicolon
  · exact .inl ⟨hsemicolon, if_pos hsemicolon⟩
  · refine .inr ⟨?_, if_neg hsemicolon⟩
    rcases hstops with (heof | hsemicolon') | hmoved
    · exact .inl heof
    · exact absurd hsemicolon' hsemicolon
    · exact .inr hmoved

theorem skipComment_passes (cursor : Cursor) : cursor.Passes cursor.skipComment := by
  obtain ⟨found, hpasses, ⟨-, heq⟩ | ⟨-, heq⟩⟩ := cursor.skipComment_ends
  · exact heq ▸ hpasses.trans found.advance_passes
  · exact heq ▸ hpasses

theorem synchronize_passes (length : Nat) (cursor : Cursor) :
    cursor.Passes (cursor.synchronize length) := by
  obtain ⟨found, hpasses, ⟨-, heq⟩ | ⟨-, heq⟩⟩ := cursor.synchronize_ends length
  · exact heq ▸ hpasses.trans found.advance_passes
  · exact heq ▸ hpasses

/-- Skipping a comment skips at least the mark that opens it. -/
theorem skipComment_shorter (h : cursor.current.lexeme = .mark .commentOpen) :
    cursor.skipComment.rest.length < cursor.rest.length := by
  obtain ⟨⟨lexeme, location⟩, rest, hrest⟩ := List.exists_cons_of_ne_nil <|
    List.length_pos_iff.1 (length_pos_of_current (by rw [h]; exact nofun))
  obtain rfl : lexeme = .mark .commentOpen := by rwa [current_eq hrest] at h
  have hending := (List.dropWhile_suffix (fun token : Token =>
    !decide (token.lexeme = .mark .commentClose ∨ token.lexeme = .eof)) (l := rest)).length_le
  rw [skipComment_rest, hrest, List.dropWhile_cons_of_pos (by rfl), List.length_cons]
  refine Nat.lt_succ_of_le (Nat.le_trans ?_ hending)
  split
  · exact List.length_tail ▸ Nat.sub_le ..
  · exact Nat.le_refl _

end Cursor

/-- The second step ends as the first one does, behind the first position and among as many blocks.
The first one ends if what it was given is enough. -/
def Step.Alike {α : Type} (enough : Prop) (first : Cursor) (step step' : Step α) : Prop :=
  match step with
  | .parsed result last => step' = .parsed result last ∧ first.Passes last
  | .rejected last => step' = .rejected last ∧ first.Passes last
  | .exhausted => ¬ enough

namespace Step.Alike

variable {α : Type} {enough more : Prop} {first middle : Cursor} {step step' : Step α}

theorem weaken (h : step.Alike enough first step') (himp : more → enough) :
    step.Alike more first step' := by
  cases step with
  | parsed | rejected => exact h
  | exhausted => exact fun hmore => h (himp hmore)

theorem ne_exhausted (h : step.Alike enough first step') (henough : enough) :
    step ≠ .exhausted := by
  rintro rfl
  exact h henough

theorem eq_of_ends (h : step.Alike enough first step') (hends : step ≠ .exhausted) :
    step' = step := by
  cases step with
  | parsed | rejected => exact h.1
  | exhausted => exact absurd rfl hends

theorem behind (h : step.Alike enough middle step') (hmiddle : first.Passes middle) :
    step.Alike enough first step' := by
  cases step with
  | parsed | rejected => exact ⟨h.1, hmiddle.trans h.2⟩
  | exhausted => exact h

end Step.Alike

namespace Rule

variable {α β : Type}

/-- Where the first rule ends, the second one ends alike. The first one ends if what it is given is
enough. -/
def Ends (enough : Prop) (rule rule' : Rule α) (cursor : Cursor) : Prop :=
  (rule cursor).Alike enough cursor (rule' cursor)

variable {enough more : Prop} {rule rule' : Rule α} {next next' : α → Rule β} {cursor : Cursor}

theorem Ends.weaken (h : rule.Ends enough rule' cursor) (himp : more → enough) :
    rule.Ends more rule' cursor :=
  Step.Alike.weaken h himp

/-- A rule that applies moves on. -/
theorem Ends.passes (h : rule.Ends enough rule' cursor) {result : α} {last : Cursor}
    (hrun : rule cursor = .parsed result last) : cursor.Passes last := by
  unfold Ends at h
  rw [hrun] at h
  exact h.2

/-- Rules in sequence. -/
theorem Ends.bind (h : rule.Ends enough rule' cursor)
    (hnext : ∀ result last, rule cursor = .parsed result last → cursor.Passes last →
      (next result).Ends enough (next' result) last) :
    (rule >>= next).Ends enough (rule' >>= next') cursor := by
  unfold Ends at h hnext ⊢
  rw [bind_apply, bind_apply]
  cases hrule : rule cursor with
  | parsed result middle =>
      rw [hrule] at h
      obtain ⟨hrule', hmiddle⟩ := h
      rw [hrule']
      exact (hnext result middle hrule hmiddle).behind hmiddle
  | rejected last =>
      rw [hrule] at h
      rw [h.1]
      exact ⟨rfl, h.2⟩
  | exhausted =>
      rw [hrule] at h
      exact h

/-- The block around a rule that does not reject is left again before what follows. -/
theorem Ends.enclosed (h : rule.Ends enough rule' { cursor with blocks := cursor.blocks + 1 })
    (hsettles : rule.Settles)
    (hnext : ∀ result last, cursor.Passes last → (next result).Ends enough (next' result) last) :
    (do
      Rule.modify fun cursor => { cursor with blocks := cursor.blocks + 1 }
      let result ← rule
      Rule.modify fun cursor => { cursor with blocks := cursor.blocks - 1 }
      next result).Ends enough
    (do
      Rule.modify fun cursor => { cursor with blocks := cursor.blocks + 1 }
      let result ← rule'
      Rule.modify fun cursor => { cursor with blocks := cursor.blocks - 1 }
      next' result) cursor := by
  unfold Ends at h hnext ⊢
  simp only [bind_apply, Rule.modify]
  cases hrule : rule { cursor with blocks := cursor.blocks + 1 } with
  | parsed result middle =>
      rw [hrule] at h
      obtain ⟨hrule', hmiddle⟩ := h
      rw [hrule']
      have hleft : cursor.Passes { middle with blocks := middle.blocks - 1 } := by
        refine ⟨?_, ?_⟩
        · exact ((cursor.blocks_leads _).trans hmiddle.leads).trans (middle.blocks_leads _)
        · show middle.blocks - 1 = cursor.blocks
          rw [hmiddle.blocks, Nat.add_sub_cancel]
      exact (hnext result _ hleft).behind hleft
  | rejected last => exact absurd hrule (hsettles _ last)
  | exhausted =>
      rw [hrule] at h
      exact h

/-- A rule that was given too small a bound. -/
theorem ends_exhausted (h : ¬ enough) : (Rule.exhausted : Rule α).Ends enough rule' cursor := h

theorem ends_pure (result : α) :
    (pure result : Rule α).Ends enough (pure result) cursor :=
  ⟨rfl, .refl _⟩

theorem ends_reject (fault : SyntaxFault) (location : Location) :
    (Rule.reject fault location : Rule α).Ends enough (Rule.reject fault location) cursor :=
  ⟨rfl, cursor.record_passes fault location⟩

theorem ends_modify {change : Cursor → Cursor} (h : cursor.Passes (change cursor)) :
    (Rule.modify change).Ends enough (Rule.modify change) cursor :=
  ⟨rfl, h⟩

/-- An attempt ends where the rule does. -/
theorem Ends.attempt (h : rule.Ends enough rule' cursor) :
    rule.attempt.Ends enough rule'.attempt cursor := by
  unfold Ends Rule.attempt at *
  cases hrule : rule cursor with
  | parsed result last | rejected last =>
      rw [hrule] at h
      rw [h.1]
      exact ⟨rfl, h.2⟩
  | exhausted =>
      rw [hrule] at h
      exact h

/-! ## Primitive rules in front of others -/

theorem ends_current {next next' : Token → Rule β}
    (h : (next cursor.current).Ends enough (next' cursor.current) cursor) :
    (Rule.current >>= next).Ends enough (Rule.current >>= next') cursor := h

theorem ends_upcoming {next next' : Token → Rule β}
    (h : (next cursor.upcoming).Ends enough (next' cursor.upcoming) cursor) :
    (Rule.upcoming >>= next).Ends enough (Rule.upcoming >>= next') cursor := h

theorem ends_remaining {next next' : Nat → Rule β}
    (h : (next cursor.rest.length).Ends enough (next' cursor.rest.length) cursor) :
    (Rule.remaining >>= next).Ends enough (Rule.remaining >>= next') cursor := h

theorem ends_advance {next next' : Unit → Rule β}
    (h : ∀ last, cursor.Passes last → last.rest.length = cursor.rest.length - 1 →
      (next ()).Ends enough (next' ()) last) :
    (Rule.advance >>= next).Ends enough (Rule.advance >>= next') cursor := by
  refine (ends_modify cursor.advance_passes).bind fun _ last hrun hlast => h last hlast ?_
  cases hrun
  rw [Cursor.advance_rest, List.length_tail]

theorem ends_expect {next next' : Unit → Rule β} {wanted : TokenKind} (hwanted : wanted ≠ .eof)
    (h : ∀ last, cursor.Passes last → last.rest.length = cursor.rest.length - 1 →
      2 ≤ cursor.rest.length → (next ()).Ends enough (next' ()) last) :
    (Rule.expect wanted >>= next).Ends enough (Rule.expect wanted >>= next') cursor := by
  rw [Rule.expect, bind_assoc, bind_assoc]
  refine ends_upcoming ?_
  split
  · next hkind =>
      refine ends_advance fun last hlast hlength => h last hlast hlength ?_
      refine Cursor.two_le_of_upcoming fun heof => hwanted ?_
      rw [← hkind, Token.kind, heof]
      rfl
  · exact (ends_reject _ _).bind fun _ _ hrun => by cases hrun

theorem ends_expectMark {next next' : Unit → Rule β} (mark : Mark)
    (h : ∀ last, cursor.Passes last → last.rest.length = cursor.rest.length - 1 →
      2 ≤ cursor.rest.length → (next ()).Ends enough (next' ()) last) :
    (Rule.expectMark mark >>= next).Ends enough (Rule.expectMark mark >>= next') cursor :=
  ends_expect nofun h

theorem ends_expectWord {next next' : Unit → Rule β} (word : Keyword)
    (h : ∀ last, cursor.Passes last → last.rest.length = cursor.rest.length - 1 →
      2 ≤ cursor.rest.length → (next ()).Ends enough (next' ()) last) :
    (Rule.expectWord word >>= next).Ends enough (Rule.expectWord word >>= next') cursor :=
  ends_expect nofun h

theorem ends_expectIdentifier {next next' : Identifier → Rule β}
    (h : ∀ name last, cursor.Passes last → last.rest.length = cursor.rest.length - 1 →
      (next name).Ends enough (next' name) last) :
    (Rule.expectIdentifier >>= next).Ends enough (Rule.expectIdentifier >>= next') cursor := by
  rw [Rule.expectIdentifier, bind_assoc, bind_assoc]
  refine ends_upcoming ?_
  split
  · rw [bind_assoc, bind_assoc]
    exact ends_advance fun last hlast hlength => h _ last hlast hlength
  · exact (ends_reject _ _).bind fun _ _ hrun => by cases hrun

theorem ends_meetsMark {next next' : Bool → Rule β} (mark : Mark)
    (hmet : 2 ≤ cursor.rest.length → (next true).Ends enough (next' true) cursor)
    (hnot : (next false).Ends enough (next' false) cursor) :
    (Rule.meetsMark mark >>= next).Ends enough (Rule.meetsMark mark >>= next') cursor := by
  show (next (decide _)).Ends enough (next' (decide _)) cursor
  by_cases hmark : cursor.upcoming.lexeme = .mark mark
  · rw [decide_eq_true hmark]
    exact hmet (Cursor.two_le_of_upcoming (by rw [hmark]; exact nofun))
  · rwa [decide_eq_false hmark]

theorem ends_meetsWord {next next' : Bool → Rule β} (word : Keyword)
    (hmet : 2 ≤ cursor.rest.length → (next true).Ends enough (next' true) cursor)
    (hnot : (next false).Ends enough (next' false) cursor) :
    (Rule.meetsWord word >>= next).Ends enough (Rule.meetsWord word >>= next') cursor := by
  show (next (decide _)).Ends enough (next' (decide _)) cursor
  by_cases hword : cursor.upcoming.lexeme = .word word
  · rw [decide_eq_true hword]
    exact hmet (Cursor.two_le_of_upcoming (by rw [hword]; exact nofun))
  · rwa [decide_eq_false hword]

theorem ends_takeMark {next next' : Bool → Rule β} (mark : Mark)
    (htaken : ∀ last, cursor.Passes last → last.rest.length = cursor.rest.length - 1 →
      2 ≤ cursor.rest.length → (next true).Ends enough (next' true) last)
    (hnot : (next false).Ends enough (next' false) cursor) :
    (Rule.takeMark mark >>= next).Ends enough (Rule.takeMark mark >>= next') cursor := by
  rw [Rule.takeMark, bind_assoc, bind_assoc]
  refine ends_meetsMark mark (fun hlength => ?_) hnot
  rw [if_pos rfl, bind_assoc, bind_assoc]
  exact ends_advance fun last hlast hshorter => htaken last hlast hshorter hlength

/-- A mark that may come next. -/
theorem takeMark_ends (mark : Mark) :
    (Rule.takeMark mark).Ends enough (Rule.takeMark mark) cursor := by
  have h : (Rule.takeMark mark >>= pure).Ends enough (Rule.takeMark mark >>= pure) cursor :=
    ends_takeMark mark (fun _ _ _ _ => ends_pure _) (ends_pure _)
  rwa [bind_pure] at h

/-! ## Lists -/

variable {item item' : Rule α} {closing : Mark} {count count' : Nat}

/-- Items after commas. Each comma is a token of its own, so the list is not longer than the tokens
behind the current one. -/
theorem ends_listTail (hitem : ∀ last, cursor.Passes last →
      last.rest.length ≤ cursor.rest.length - 1 → item.Ends enough item' last)
    (hle : count ≤ count') (hcount : enough → cursor.rest.length - 1 < count) :
    (Rule.listTail closing item count).Ends enough (Rule.listTail closing item' count')
      cursor := by
  induction count generalizing count' cursor with
  | zero => exact ends_exhausted fun henough => Nat.not_lt_zero _ (hcount henough)
  | succ count ih =>
      obtain ⟨count', rfl⟩ := Nat.exists_eq_add_one.2 (Nat.zero_lt_of_lt hle)
      rw [Rule.listTail, Rule.listTail]
      refine ends_takeMark .comma (fun first hfirst hlength hmore => ?_) ?_
      · rw [if_pos rfl, if_pos rfl]
        refine ends_advance fun second hsecond hlength' => ?_
        have hpassed := hfirst.trans hsecond
        refine (hitem second hpassed (by omega)).bind fun value third _ hthird => ?_
        have hshorter := hthird.length_le
        refine Ends.bind (ih (fun last hlast hlength'' => ?_) (Nat.le_of_succ_le_succ hle)
          fun henough => ?_) fun values last _ _ => ends_pure _
        · exact hitem last ((hpassed.trans hthird).trans hlast) (by omega)
        · have hbound := hcount henough
          omega
      · rw [if_neg Bool.false_ne_true, if_neg Bool.false_ne_true]
        exact ends_expectMark closing fun last _ _ _ => ends_pure _

/-- Items separated by commas. -/
theorem ends_list (hitem : ∀ last, cursor.Passes last →
      last.rest.length ≤ cursor.rest.length - 1 → item.Ends enough item' last)
    (hle : count ≤ count') (hcount : enough → cursor.rest.length - 1 < count) :
    (Rule.list closing item count).Ends enough (Rule.list closing item' count') cursor := by
  refine ends_takeMark closing (fun last _ _ _ => ?_) ?_
  · rw [if_pos rfl, if_pos rfl]
    exact ends_pure _
  · rw [if_neg Bool.false_ne_true, if_neg Bool.false_ne_true]
    refine ends_advance fun first hfirst hlength => ?_
    refine (hitem first hfirst (by omega)).bind fun value second _ hsecond => ?_
    have hshorter := hsecond.length_le
    refine Ends.bind (ends_listTail (fun last hlast hlength' => ?_) hle fun henough => ?_)
      fun values last _ _ => ends_pure _
    · exact hitem last ((hfirst.trans hsecond).trans hlast) (by omega)
    · have hbound := hcount henough
      omega

end Rule

end Script
