import Script.Proofs.Grammar.Phrase

/-!
# What rules do to a cursor

A rule moves the cursor forward and adds to the recorded errors, whether it applies or not, and
when it rejects it has recorded an error: `Rule.Meets` says this of a rule that is given large
enough bounds, together with what holds of its result. On the way no failure of scanning is lost.
The lemmas here cover the primitive rules and the ways in which rules are put together.
-/

namespace Script

/-- The rules of bounded nesting. -/
abbrev Phrases.upTo (count : Nat) : Phrases :=
  ⟨expressionRule count, statementRule count⟩

/-- The failure of scanning that an error reports. -/
def SyntaxError.failure? : SyntaxError → Option ScanError
  | scan error => some error
  | parse _ _ => none

namespace Cursor

/-- The failures that are recorded, and the one that is still to be. -/
def failures (cursor : Cursor) : List ScanError :=
  cursor.errors.filterMap SyntaxError.failure? ++ cursor.failure.toList

/-- A failure that is still to be recorded lies beyond the next token. -/
def Ahead (cursor : Cursor) : Prop :=
  cursor.failure = none ∨ 2 ≤ cursor.rest.length

/-- The last position comes after the first one, and keeps the errors recorded there. -/
structure Leads (first last : Cursor) : Prop where
  /-- Tokens were taken off the front. -/
  rest : last.rest <:+ first.rest
  /-- Errors were added at the end. -/
  errors : first.errors <+: last.errors
  /-- No failure was lost or recorded twice. -/
  failures : last.failures = first.failures
  /-- A failure was recorded in time. -/
  ahead : first.Ahead → last.Ahead

/-- The tokens of a position are tokens before the end of the text. -/
def Proper (cursor : Cursor) : Prop :=
  ∀ token ∈ cursor.rest, token.lexeme ≠ .eof

variable {cursor first second third : Cursor}

theorem Leads.refl (cursor : Cursor) : cursor.Leads cursor :=
  ⟨List.suffix_rfl, List.prefix_rfl, rfl, id⟩

theorem Leads.trans (h : first.Leads second) (h' : second.Leads third) : first.Leads third :=
  ⟨h'.rest.trans h.rest, h.errors.trans h'.errors, h'.failures.trans h.failures,
    fun hahead => h'.ahead (h.ahead hahead)⟩

theorem Leads.proper (h : first.Leads second) (hfirst : first.Proper) : second.Proper :=
  fun token htoken => hfirst token (h.rest.subset htoken)

/-- Only past the last token the current one is `eof`. -/
theorem Proper.rest_eq_nil (h : cursor.Proper) (heof : firstLexeme cursor.rest = .eof) :
    cursor.rest = [] := by
  cases hrest : cursor.rest with
  | nil => rfl
  | cons token rest =>
      rw [hrest] at heof
      exact False.elim (h token (hrest ▸ .head _) heof)

/-- Where no token is left, no failure is still to be recorded. -/
theorem Ahead.failure_eq_none (h : cursor.Ahead) (hrest : cursor.rest = []) :
    cursor.failure = none := by
  rcases h with hnone | hahead
  · exact hnone
  · rw [hrest] at hahead
    cases hahead

/-- A bound on the errors at a position is one on the errors before. -/
theorem Leads.le (h : first.Leads second) {bound : Nat} (hbound : second.errors.length ≤ bound) :
    first.errors.length ≤ bound :=
  Nat.le_trans h.errors.length_le hbound

theorem current_lexeme (cursor : Cursor) : cursor.current.lexeme = firstLexeme cursor.rest := by
  unfold current
  cases cursor.rest <;> rfl

theorem current_eq {token : Token} {rest : List Token} (h : cursor.rest = token :: rest) :
    cursor.current = token := by
  rw [current, h]
  rfl

theorem upcoming_lexeme (cursor : Cursor) :
    cursor.upcoming.lexeme = firstLexeme cursor.rest.tail := by
  unfold upcoming
  cases cursor.rest.tail <;> rfl

/-- The number of blocks around a position tells nothing of its tokens and errors. -/
theorem blocks_leads (cursor : Cursor) (blocks : Nat) :
    cursor.Leads { cursor with blocks := blocks } :=
  ⟨List.suffix_rfl, List.prefix_rfl, rfl, id⟩

theorem record_leads (cursor : Cursor) (fault : SyntaxFault) (location : Location) :
    cursor.Leads (cursor.record (.parse fault location)) where
  rest := List.suffix_rfl
  errors := List.prefix_append ..
  failures := by simp [failures, record, SyntaxError.failure?]
  ahead := id

theorem surface_rest (cursor : Cursor) : cursor.surface.rest = cursor.rest := by
  unfold surface
  split <;> rfl

theorem surface_errors (cursor : Cursor) : cursor.errors <+: cursor.surface.errors := by
  unfold surface
  split
  · exact List.prefix_append ..
  · exact List.prefix_append ..
  · exact List.prefix_rfl

theorem surface_failures (cursor : Cursor) : cursor.surface.failures = cursor.failures := by
  unfold surface
  split
  · next hfailure _ => simp [failures, record, SyntaxError.failure?, hfailure]
  · next hfailure _ => simp [failures, record, SyntaxError.failure?, hfailure]
  · rfl

/-- Once no token follows the current one, the failure is recorded. -/
theorem surface_ahead (cursor : Cursor) : cursor.surface.Ahead := by
  unfold surface
  split
  · exact .inl rfl
  · exact .inl rfl
  · next hnil hone =>
      cases hfailure : cursor.failure with
      | none => exact .inl hfailure
      | some error =>
          refine .inr ?_
          rcases hrest : cursor.rest with _ | ⟨token, _ | ⟨next, rest⟩⟩
          · exact False.elim (hnil error hfailure hrest)
          · exact False.elim (hone error token hfailure hrest)
          · simp only [List.length_cons]
            omega

@[simp] theorem advance_rest (cursor : Cursor) : cursor.advance.rest = cursor.rest.tail :=
  surface_rest _

theorem advance_leads (cursor : Cursor) : cursor.Leads cursor.advance where
  rest := by
    rw [advance_rest]
    exact List.tail_suffix _
  errors := surface_errors { cursor with rest := cursor.rest.tail }
  failures := surface_failures { cursor with rest := cursor.rest.tail }
  ahead _ := surface_ahead { cursor with rest := cursor.rest.tail }

theorem advanceUntil_leads (stops : Cursor → Bool) (count : Nat) (cursor : Cursor) :
    cursor.Leads (cursor.advanceUntil stops count) := by
  induction count generalizing cursor with
  | zero => exact .refl _
  | succ count ih =>
      rw [advanceUntil]
      split
      · exact .refl _
      · exact (advance_leads cursor).trans (ih _)

/-- With as many tokens allowed as there are, the place where a search stops is found. -/
theorem advanceUntil_stops {stops : Cursor → Bool}
    (hend : ∀ cursor : Cursor, cursor.rest = [] → stops cursor = true) (count : Nat)
    (cursor : Cursor) (hcount : cursor.rest.length ≤ count) :
    stops (cursor.advanceUntil stops count) = true := by
  induction count generalizing cursor with
  | zero => exact hend _ (List.eq_nil_of_length_eq_zero (Nat.le_zero.1 hcount))
  | succ count ih =>
      rw [advanceUntil]
      split
      · assumption
      · refine ih _ ?_
        rw [advance_rest, List.length_tail]
        exact Nat.sub_le_of_le_add hcount

/-- A search that looks at the current token only drops the tokens in front of the one found. -/
theorem advanceUntil_rest {stops : Cursor → Bool} {stopsAt : Lexeme → Bool}
    (hstops : ∀ cursor : Cursor, stops cursor = stopsAt (firstLexeme cursor.rest))
    (hend : stopsAt .eof = true) (count : Nat) (cursor : Cursor)
    (hcount : cursor.rest.length ≤ count) :
    (cursor.advanceUntil stops count).rest =
      cursor.rest.dropWhile fun token => !stopsAt token.lexeme := by
  induction count generalizing cursor with
  | zero =>
      rw [advanceUntil, List.eq_nil_of_length_eq_zero (Nat.le_zero.1 hcount)]
      rfl
  | succ count ih =>
      rw [advanceUntil, hstops]
      cases hrest : cursor.rest with
      | nil =>
          rw [firstLexeme_nil, if_pos hend, hrest]
          rfl
      | cons token rest =>
          rw [firstLexeme_cons]
          split
          · next h => rw [hrest, List.dropWhile_cons_of_neg (by simp [h])]
          · next h =>
              rw [ih, advance_rest, hrest, List.tail_cons,
                List.dropWhile_cons_of_pos (by simp [h])]
              rw [advance_rest, List.length_tail]
              exact Nat.sub_le_of_le_add hcount

/-- A comment ends where its closing mark, or the end of the text, comes first. -/
theorem skipComment_rest (cursor : Cursor) :
    let ending := cursor.rest.dropWhile fun token =>
      !decide (token.lexeme = .mark .commentClose ∨ token.lexeme = .eof)
    cursor.skipComment.rest =
      if firstLexeme ending = .mark .commentClose then ending.tail else ending := by
  let stopsAt : Lexeme → Bool := fun lexeme => lexeme = .mark .commentClose ∨ lexeme = .eof
  have hsearch := advanceUntil_rest (fun cursor => congrArg stopsAt cursor.current_lexeme) rfl
    cursor.rest.length cursor (Nat.le_refl _)
  unfold skipComment
  dsimp only
  rw [apply_ite rest, advance_rest, current_lexeme, hsearch]

theorem skipComment_closed {skipped after : List Token} {first last : Location}
    (hskipped : ∀ token ∈ skipped, token.lexeme ≠ .mark .commentClose ∧ token.lexeme ≠ .eof)
    (hrest : cursor.rest =
      ⟨.mark .commentOpen, first⟩ :: (skipped ++ ⟨.mark .commentClose, last⟩ :: after)) :
    cursor.skipComment.rest = after := by
  rw [skipComment_rest, hrest, List.dropWhile_cons_of_pos (by rfl),
    List.dropWhile_append_of_pos (fun token htoken => by simp [hskipped token htoken]),
    List.dropWhile_cons_of_neg (by simp)]
  rfl

theorem skipComment_open {skipped : List Token} {first : Location}
    (hskipped : ∀ token ∈ skipped, token.lexeme ≠ .mark .commentClose ∧ token.lexeme ≠ .eof)
    (hrest : cursor.rest = ⟨.mark .commentOpen, first⟩ :: skipped) :
    cursor.skipComment.rest = [] := by
  rw [skipComment_rest, hrest, List.dropWhile_cons_of_pos (by rfl), ← List.append_nil skipped,
    List.dropWhile_append_of_pos (fun token htoken => by simp [hskipped token htoken])]
  rfl

/-- The first closing mark among tokens. -/
theorem exists_commentClose (tokens : List Token) (h : ∀ token ∈ tokens, token.lexeme ≠ .eof) :
    (∃ skipped last after, tokens = skipped ++ ⟨.mark .commentClose, last⟩ :: after ∧
      ∀ token ∈ skipped, token.lexeme ≠ .mark .commentClose ∧ token.lexeme ≠ .eof) ∨
    ∀ token ∈ tokens, token.lexeme ≠ .mark .commentClose ∧ token.lexeme ≠ .eof := by
  induction tokens with
  | nil => exact .inr fun _ htoken => by cases htoken
  | cons token rest ih =>
      obtain ⟨lexeme, location⟩ := token
      by_cases hclose : lexeme = .mark .commentClose
      · subst hclose
        exact .inl ⟨[], location, rest, rfl, fun _ htoken => by cases htoken⟩
      · have hfirst : lexeme ≠ .mark .commentClose ∧ lexeme ≠ .eof := ⟨hclose, h _ (.head _)⟩
        rcases ih fun token htoken => h token (.tail _ htoken) with
          ⟨skipped, last, after, rfl, hskipped⟩ | hskipped
        · exact .inl ⟨⟨lexeme, location⟩ :: skipped, last, after, rfl,
            List.forall_mem_cons.2 ⟨hfirst, hskipped⟩⟩
        · exact .inr (List.forall_mem_cons.2 ⟨hfirst, hskipped⟩)

theorem skipComment_leads (cursor : Cursor) : cursor.Leads cursor.skipComment := by
  rw [skipComment]
  split
  · exact (advanceUntil_leads ..).trans (advance_leads _)
  · exact advanceUntil_leads ..

theorem synchronize_leads (length : Nat) (cursor : Cursor) :
    cursor.Leads (cursor.synchronize length) := by
  rw [synchronize]
  split
  · exact (advanceUntil_leads ..).trans (advance_leads _)
  · exact advanceUntil_leads ..

/-- Skipping the rest of a statement skips at least one of its tokens, unless there is none. -/
theorem synchronize_shorter {length : Nat} (hlength : cursor.rest.length ≤ length)
    (hpos : 0 < length) (hstart : cursor.rest.length = length → firstLexeme cursor.rest ≠ .eof) :
    (cursor.synchronize length).rest.length < length := by
  have hleads := fun stops => advanceUntil_leads stops cursor.rest.length cursor
  have hstops (stops : Cursor → Bool) (hend : ∀ cursor : Cursor, cursor.rest = [] → stops cursor) :=
    advanceUntil_stops hend cursor.rest.length cursor (Nat.le_refl _)
  unfold synchronize
  dsimp only
  generalize hfound : cursor.advanceUntil _ _ = found
  have hleads := hfound ▸ hleads _
  have hle := hleads.rest.length_le
  have hstops := hfound ▸ hstops _ ?_
  · intro cursor hrest
    rw [current_lexeme, hrest]
    rfl
  · simp only [Bool.or_eq_true, Bool.and_eq_true, decide_eq_true_eq] at hstops
    split
    · rw [advance_rest, List.length_tail]
      omega
    · next hsemicolon =>
        rcases hstops with (heof | hsemicolon') | ⟨hmoved, -⟩
        · -- the end of the text is none of the tokens of the statement, so it lies behind them
          refine Nat.lt_of_le_of_ne (Nat.le_trans hle hlength) fun hunmoved => ?_
          have hrest := hleads.rest.eq_of_length_le (hunmoved ▸ hlength)
          rw [current_lexeme, hrest] at heof
          exact hstart (hrest ▸ hunmoved) heof
        · exact False.elim (hsemicolon hsemicolon')
        · exact hmoved

end Cursor

namespace Rule

variable {α β : Type}

/-- At the given position, the rule applies with a result and a cursor of which `post` holds, or
rejects after it recorded an error. -/
def Meets (rule : Rule α) (post : α → Cursor → Prop) (cursor : Cursor) : Prop :=
  cursor.Proper →
    match rule cursor with
    | .parsed result last => cursor.Leads last ∧ post result last
    | .rejected last => cursor.Leads last ∧ cursor.errors.length < last.errors.length
    | .exhausted => False

variable {rule : Rule α} {next : α → Rule β} {middle : α → Cursor → Prop}
  {post : β → Cursor → Prop} {cursor : Cursor}

/-- A sequence of rules applies if each of them does. -/
theorem bind_eq_parsed {last : Cursor} {result : β}
    (h : (rule >>= next) cursor = .parsed result last) :
    ∃ value middle, rule cursor = .parsed value middle ∧
      next value middle = .parsed result last := by
  rw [bind_apply] at h
  cases hrule : rule cursor with
  | parsed value middle =>
      rw [hrule] at h
      exact ⟨value, middle, rfl, h⟩
  | rejected middle =>
      rw [hrule] at h
      cases h
  | exhausted =>
      rw [hrule] at h
      cases h

theorem Meets.weaken {rule : Rule β} {post' : β → Cursor → Prop} (h : rule.Meets post' cursor)
    (hpost : ∀ result last, cursor.Leads last → post' result last → post result last) :
    rule.Meets post cursor := by
  intro hproper
  have hrule := h hproper
  generalize rule cursor = step at hrule ⊢
  cases step with
  | parsed result last => exact ⟨hrule.1, hpost result last hrule.1 hrule.2⟩
  | rejected last => exact hrule
  | exhausted => exact hrule

theorem Meets.of_proper {rule : Rule β} (h : cursor.Proper → rule.Meets post cursor) :
    rule.Meets post cursor :=
  fun hproper => h hproper hproper

theorem meets_pure {result : β} (h : post result cursor) :
    (Pure.pure result : Rule β).Meets post cursor :=
  fun _ => ⟨.refl _, h⟩

/-- Rules in sequence. -/
theorem Meets.bind (h : rule.Meets middle cursor)
    (hnext : ∀ result last, cursor.Leads last → middle result last →
      (next result).Meets post last) :
    (rule >>= next).Meets post cursor := by
  intro hproper
  have hrule := h hproper
  rw [bind_apply]
  generalize rule cursor = step at hrule
  cases step with
  | parsed result last =>
      obtain ⟨hleads, hmiddle⟩ := hrule
      have hrest := hnext result last hleads hmiddle (hleads.proper hproper)
      show match next result last with
        | .parsed result last => cursor.Leads last ∧ post result last
        | .rejected last => cursor.Leads last ∧ cursor.errors.length < last.errors.length
        | .exhausted => False
      generalize next result last = step at hrest
      cases step with
      | parsed result' last' => exact ⟨hleads.trans hrest.1, hrest.2⟩
      | rejected last' =>
          exact ⟨hleads.trans hrest.1, Nat.lt_of_le_of_lt hleads.errors.length_le hrest.2⟩
      | exhausted => exact hrest
  | rejected last => exact hrule
  | exhausted => exact hrule

theorem meets_current {next : Token → Rule β} (h : (next cursor.current).Meets post cursor) :
    (Rule.current >>= next).Meets post cursor := h

theorem meets_upcoming {next : Token → Rule β} (h : (next cursor.upcoming).Meets post cursor) :
    (Rule.upcoming >>= next).Meets post cursor := h

theorem meets_remaining {next : Nat → Rule β} (h : (next cursor.rest.length).Meets post cursor) :
    (Rule.remaining >>= next).Meets post cursor := h

/-- A change of the cursor that leads forward. -/
theorem meets_modify {change : Cursor → Cursor} (h : cursor.Leads (change cursor)) :
    (Rule.modify change).Meets (fun _ last => last = change cursor) cursor :=
  fun _ => ⟨h, rfl⟩

theorem meets_advance :
    Rule.advance.Meets (fun _ last => last.rest = cursor.rest.tail) cursor :=
  fun _ => ⟨cursor.advance_leads, cursor.advance_rest⟩

theorem meets_reject (fault : SyntaxFault) (location : Location) :
    (Rule.reject fault location).Meets post cursor := by
  refine fun _ => ⟨cursor.record_leads _ _, ?_⟩
  show cursor.errors.length < (cursor.errors ++ [SyntaxError.parse fault location]).length
  rw [List.length_append]
  exact Nat.lt_succ_self _

theorem meets_expect (wanted : TokenKind) :
    (Rule.expect wanted).Meets
      (fun _ last => last.rest = cursor.rest.tail ∧ (firstLexeme cursor.rest.tail).kind = wanted)
      cursor := by
  refine meets_upcoming ?_
  rw [Token.kind, cursor.upcoming_lexeme]
  split
  · next hkind => exact meets_advance.weaken fun _ _ _ hrest => ⟨hrest, hkind⟩
  · exact meets_reject _ _

/-- The token of a wanted mark. -/
theorem exists_of_kind_mark {tokens : List Token} {mark : Mark}
    (h : (firstLexeme tokens).kind = .mark mark) :
    ∃ location rest, tokens = ⟨.mark mark, location⟩ :: rest := by
  rcases tokens with _ | ⟨⟨lexeme, location⟩, rest⟩
  · cases h
  · cases lexeme <;> cases h
    exact ⟨location, rest, rfl⟩

/-- The token of a wanted word. -/
theorem exists_of_kind_word {tokens : List Token} {word : Keyword}
    (h : (firstLexeme tokens).kind = .word word) :
    ∃ location rest, tokens = ⟨.word word, location⟩ :: rest := by
  rcases tokens with _ | ⟨⟨lexeme, location⟩, rest⟩
  · cases h
  · cases lexeme <;> cases h
    exact ⟨location, rest, rfl⟩

theorem meets_expectMark (mark : Mark) :
    (Rule.expectMark mark).Meets
      (fun _ last => last.rest = cursor.rest.tail ∧
        ∃ location after, cursor.rest.tail = ⟨.mark mark, location⟩ :: after) cursor :=
  (meets_expect _).weaken fun _ _ _ h => ⟨h.1, exists_of_kind_mark h.2⟩

theorem meets_expectWord (word : Keyword) :
    (Rule.expectWord word).Meets
      (fun _ last => last.rest = cursor.rest.tail ∧
        ∃ location after, cursor.rest.tail = ⟨.word word, location⟩ :: after) cursor :=
  (meets_expect _).weaken fun _ _ _ h => ⟨h.1, exists_of_kind_word h.2⟩

theorem meets_expectIdentifier :
    Rule.expectIdentifier.Meets
      (fun name last => last.rest = cursor.rest.tail ∧
        ∃ after, cursor.rest.tail = ⟨.identifier name.name, name.location⟩ :: after) cursor := by
  refine meets_upcoming ?_
  split
  · next name hname =>
      rw [cursor.upcoming_lexeme] at hname
      refine meets_advance.bind fun _ last _ hrest => meets_pure ⟨hrest, ?_⟩
      cases htail : cursor.rest.tail with
      | nil =>
          rw [htail] at hname
          cases hname
      | cons token after =>
          rw [htail] at hname
          obtain ⟨lexeme, location⟩ := token
          cases hname
          exact ⟨after, by simp [Cursor.upcoming, htail]⟩
  · exact meets_reject _ _

theorem meets_meetsMark {next : Bool → Rule β} (mark : Mark)
    (h : (next (firstLexeme cursor.rest.tail = .mark mark)).Meets post cursor) :
    (Rule.meetsMark mark >>= next).Meets post cursor := by
  rw [← cursor.upcoming_lexeme] at h
  exact h

theorem meets_meetsWord {next : Bool → Rule β} (word : Keyword)
    (h : (next (firstLexeme cursor.rest.tail = .word word)).Meets post cursor) :
    (Rule.meetsWord word >>= next).Meets post cursor := by
  rw [← cursor.upcoming_lexeme] at h
  exact h

theorem meets_takeMark (mark : Mark) :
    (Rule.takeMark mark).Meets
      (fun taken last =>
        (taken = true ∧ last.rest = cursor.rest.tail ∧
          ∃ location after, cursor.rest.tail = ⟨.mark mark, location⟩ :: after) ∨
        (taken = false ∧ last = cursor ∧ firstLexeme cursor.rest.tail ≠ .mark mark)) cursor := by
  refine meets_meetsMark mark ?_
  simp only [decide_eq_true_eq]
  split
  · next hmark =>
      refine meets_advance.bind fun _ last _ hrest => meets_pure (.inl ⟨rfl, hrest, ?_⟩)
      exact exists_of_kind_mark (congrArg Lexeme.kind hmark)
  · next hmark => exact meets_pure (.inr ⟨rfl, rfl, hmark⟩)

/-- An attempt settles a rejection. -/
theorem Meets.attempt (h : rule.Meets middle cursor) :
    rule.attempt.Meets
      (fun result last =>
        (∃ value, result = some value ∧ middle value last) ∨
        (result = none ∧ cursor.errors.length < last.errors.length)) cursor := by
  intro hproper
  have hrule := h hproper
  unfold Rule.attempt
  generalize rule cursor = step at hrule
  cases step with
  | parsed result last => exact ⟨hrule.1, .inl ⟨result, rfl, hrule.2⟩⟩
  | rejected last => exact ⟨hrule.1, .inr ⟨rfl, hrule.2⟩⟩
  | exhausted => exact hrule

end Rule

end Script
