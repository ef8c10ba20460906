import Script.Proofs.Grammar.Soundness
import Script.Proofs.Program.Relocated

/-!
# Rules at paired positions

The same rule is run at two positions. Either the tokens of the second one are all the tokens of the
first one at other places, or more tokens follow a semicolon that the first ones end with. In both
cases the rule does the same at both positions: `Rule.Agrees`. For the second case this says that no
rule goes beyond the semicolon, since it would look at different tokens there. How far a rule may
look ahead is counted by `Pairing.Along`; past any token but the semicolon there is one more.

The lemmas here cover the primitive rules and the ways in which rules are put together. The bounds
of the two rules are unrelated, and nothing is said when one of them is too small.
-/

namespace Script

namespace Cursor

variable {cursor : Cursor}

/-- When nothing is to be recorded, only the token changes. -/
theorem advance_eq (hfailure : cursor.failure = none) :
    cursor.advance = { cursor with rest := cursor.rest.tail } := by
  rw [advance, surface, hfailure]

/-- The upcoming token is the next current one. -/
theorem advance_current (hfailure : cursor.failure = none) :
    cursor.advance.current = cursor.upcoming := by
  rw [advance_eq hfailure]
  rfl

end Cursor

/-- An error at another place. -/
def SyntaxError.relocated (change : Location → Location) : SyntaxError → SyntaxError
  | scan error => .scan { error with location := change error.location }
  | parse fault location => .parse fault (change location)

/-- Tokens that end with a semicolon, if there are any, and have no brace and no start of a comment
among them. -/
structure Fenced (tokens : List Token) : Prop where
  plain : ∀ token ∈ tokens, token.lexeme ≠ .mark .leftBrace ∧ token.lexeme ≠ .mark .rightBrace ∧
    token.lexeme ≠ .mark .commentOpen ∧ token.lexeme ≠ .eof
  last : ∀ token ∈ tokens.getLast?, token.lexeme = .mark .semicolon

namespace Fenced

variable {tokens : List Token}

theorem tail (h : Fenced tokens) : Fenced tokens.tail where
  plain token htoken := h.plain token (List.mem_of_mem_tail htoken)
  last token htoken := by
    rcases tokens with _ | ⟨first, _ | ⟨second, rest⟩⟩
    · cases htoken
    · cases htoken
    · exact h.last token (by rwa [List.getLast?_cons_cons])

/-- The semicolon comes after every other token. -/
theorem length_of_ne (h : Fenced tokens) (hlength : 0 < tokens.length)
    (hne : firstLexeme tokens ≠ .mark .semicolon) : 2 ≤ tokens.length := by
  rcases tokens with _ | ⟨first, _ | ⟨second, rest⟩⟩
  · exact False.elim (Nat.lt_irrefl 0 hlength)
  · exact False.elim (hne (h.last first rfl))
  · exact Nat.le_add_left 2 rest.length

end Fenced

/-- How two runs of a rule are related. -/
structure Pairing where
  /-- The places at which the tokens of the first run stand in the second one. -/
  change : Location → Location
  /-- The errors recorded before the second run. -/
  earlier : List SyntaxError
  /-- The tokens of the second run that the first one does not have. -/
  beyond : List Token
  /-- The place behind all tokens of the second run. -/
  finish : Location
  /-- Whether the tokens of the first run are fenced. Otherwise the second run has no other ones. -/
  fenced : Prop

namespace Pairing

/-- Two positions are passed side by side. At a fence at least `ahead` tokens are left of those that
both runs have. -/
structure Along (pairing : Pairing) (ahead : Nat) (cursor cursor' : Cursor) : Prop where
  rest : cursor'.rest = cursor.rest.map (Token.relocated pairing.change) ++ pairing.beyond
  errors : cursor'.errors =
    pairing.earlier ++ cursor.errors.map (SyntaxError.relocated pairing.change)
  failure : cursor.failure = none
  failure' : cursor'.failure = none
  blocks : cursor'.blocks = cursor.blocks
  finish : cursor'.finish = pairing.finish
  whole : ¬ pairing.fenced → pairing.beyond = [] ∧ pairing.finish = pairing.change cursor.finish
  fence : pairing.fenced →
    cursor.blocks = 0 ∧ Fenced cursor.rest ∧ ahead ≤ cursor.rest.length

variable {pairing : Pairing} {ahead fewer : Nat} {cursor cursor' : Cursor}

namespace Along

theorem weaken (h : pairing.Along ahead cursor cursor') (hle : fewer ≤ ahead) :
    pairing.Along fewer cursor cursor' := by
  refine { h with fence := fun hfenced => ?_ }
  obtain ⟨hblocks, htokens, hlength⟩ := h.fence hfenced
  exact ⟨hblocks, htokens, Nat.le_trans hle hlength⟩

/-- Without a fence any number of tokens may be looked at. -/
theorem unfenced (h : pairing.Along fewer cursor cursor') (hopen : ¬ pairing.fenced) :
    pairing.Along ahead cursor cursor' :=
  { h with fence := fun hfenced => absurd hfenced hopen }

/-- In front of the fence there is a token. -/
theorem exists_cons (h : pairing.Along (ahead + 1) cursor cursor') (hfenced : pairing.fenced) :
    ∃ token rest, cursor.rest = token :: rest := by
  obtain ⟨-, -, hlength⟩ := h.fence hfenced
  exact List.exists_cons_of_ne_nil (List.ne_nil_of_length_pos (Nat.zero_lt_of_lt hlength))

/-- Without a token there is no fence. -/
theorem not_fenced (h : pairing.Along (ahead + 1) cursor cursor') (hrest : cursor.rest = []) :
    ¬ pairing.fenced := by
  intro hfenced
  obtain ⟨token, rest, hcons⟩ := h.exists_cons hfenced
  cases hrest.symm.trans hcons

/-- The current tokens correspond to each other. -/
theorem current (h : pairing.Along (ahead + 1) cursor cursor') :
    cursor'.current = cursor.current.relocated pairing.change := by
  have hrest := h.rest
  cases hcursor : cursor.rest with
  | cons token rest =>
      rw [hcursor] at hrest
      rw [Cursor.current_eq hcursor, Cursor.current_eq hrest]
  | nil =>
      -- both runs are at the end of their tokens, and see it at corresponding places
      obtain ⟨hbeyond, hfinish⟩ := h.whole (h.not_fenced hcursor)
      rw [hcursor, hbeyond] at hrest
      rw [Cursor.current, Cursor.current, hcursor, hrest, h.finish, hfinish]
      rfl

theorem current_lexeme (h : pairing.Along (ahead + 1) cursor cursor') :
    cursor'.current.lexeme = cursor.current.lexeme := by
  rw [h.current, Token.relocated]

/-- How many tokens the second run has left. -/
theorem length (h : pairing.Along ahead cursor cursor') :
    cursor'.rest.length = cursor.rest.length + pairing.beyond.length := by
  rw [h.rest, List.length_append, List.length_map]

/-- Both positions move on. -/
theorem advance (h : pairing.Along (ahead + 1) cursor cursor') :
    pairing.Along ahead cursor.advance cursor'.advance := by
  rw [Cursor.advance_eq h.failure, Cursor.advance_eq h.failure']
  refine { h with rest := ?_, fence := fun hfenced => ?_ }
  · show cursor'.rest.tail = cursor.rest.tail.map _ ++ _
    rw [h.rest]
    cases hcursor : cursor.rest with
    | cons token rest => rfl
    | nil =>
        obtain ⟨hbeyond, -⟩ := h.whole (h.not_fenced hcursor)
        rw [hbeyond]
        rfl
  · obtain ⟨hblocks, htokens, hlength⟩ := h.fence hfenced
    refine ⟨hblocks, htokens.tail, ?_⟩
    show ahead ≤ cursor.rest.tail.length
    rw [List.length_tail]
    exact Nat.le_sub_of_add_le hlength

/-- The upcoming tokens correspond to each other: each is the current one of the next position. -/
theorem upcoming (h : pairing.Along (ahead + 2) cursor cursor') :
    cursor'.upcoming = cursor.upcoming.relocated pairing.change := by
  rw [← Cursor.advance_current h.failure, ← Cursor.advance_current h.failure']
  exact h.advance.current

/-- Only a semicolon may be the last token in front of the fence. -/
theorem past (h : pairing.Along (ahead + 1) cursor cursor')
    (hne : cursor.current.lexeme ≠ .mark .semicolon) : pairing.Along 2 cursor cursor' := by
  rw [Cursor.current_lexeme] at hne
  refine { h with fence := fun hfenced => ?_ }
  obtain ⟨hblocks, htokens, hlength⟩ := h.fence hfenced
  exact ⟨hblocks, htokens, htokens.length_of_ne (Nat.zero_lt_of_lt hlength) hne⟩

/-- Both positions move on to a token other than the semicolon. -/
theorem advance_past (h : pairing.Along (ahead + 2) cursor cursor')
    (hne : cursor.upcoming.lexeme ≠ .mark .semicolon) :
    pairing.Along 2 cursor.advance cursor'.advance := by
  refine h.advance.past ?_
  rwa [Cursor.current_lexeme, Cursor.advance_rest, ← Cursor.upcoming_lexeme]

/-- The current token is none that cannot stand in front of a fence. -/
theorem plain (h : pairing.Along (ahead + 1) cursor cursor') (hfenced : pairing.fenced) :
    cursor.current.lexeme ≠ .mark .leftBrace ∧ cursor.current.lexeme ≠ .mark .rightBrace ∧
      cursor.current.lexeme ≠ .mark .commentOpen ∧ cursor.current.lexeme ≠ .eof := by
  obtain ⟨token, rest, hrest⟩ := h.exists_cons hfenced
  rw [Cursor.current_eq hrest]
  obtain ⟨-, htokens, -⟩ := h.fence hfenced
  exact htokens.plain token (hrest ▸ .head _)

/-- Both runs record an error. -/
theorem record (h : pairing.Along ahead cursor cursor') (fault : SyntaxFault)
    (location : Location) :
    pairing.Along ahead (cursor.record (.parse fault location))
      (cursor'.record (.parse fault (pairing.change location))) := by
  refine { h with errors := ?_ }
  show cursor'.errors ++ _ = _ ++ (cursor.errors ++ _).map _
  rw [h.errors, List.map_append, List.append_assoc]
  rfl

end Along

/-- Two rules end alike: with results of which the second one is the first one relocated, or with a
rejection. Behind a result there are `ahead` tokens again, and behind a rejection one. -/
def Ends {α : Type} (pairing : Pairing) (ahead : Nat) (relocate : α → α) : Step α → Step α → Prop
  | .parsed result last, .parsed result' last' =>
    result' = relocate result ∧ pairing.Along ahead last last'
  | .rejected last, .rejected last' => pairing.Along 1 last last'
  | .exhausted, _ | _, .exhausted => True
  | .parsed _ _, .rejected _ | .rejected _, .parsed _ _ => False

theorem ends_exhausted {α : Type} {relocate : α → α} (step : Step α) :
    pairing.Ends ahead relocate step .exhausted := by
  cases step <;> exact trivial

end Pairing

namespace Rule

/-- At two positions, two rules end alike. -/
def Agrees {α : Type} (pairing : Pairing) (ahead : Nat) (relocate : α → α) (rule rule' : Rule α)
    (cursor cursor' : Cursor) : Prop :=
  pairing.Ends ahead relocate (rule cursor) (rule' cursor')

variable {α β : Type} {pairing : Pairing} {ahead more : Nat} {relocate : α → α}
  {relocate' : β → β} {cursor cursor' : Cursor}

/-- Rules in sequence. -/
theorem Agrees.bind {rule rule' : Rule α} {next next' : α → Rule β}
    (h : rule.Agrees pairing more relocate rule' cursor cursor')
    (hnext : ∀ result last last', pairing.Along more last last' →
      (next result).Agrees pairing ahead relocate' (next' (relocate result)) last last') :
    (rule >>= next).Agrees pairing ahead relocate' (rule' >>= next') cursor cursor' := by
  unfold Agrees at h ⊢
  rw [bind_apply, bind_apply]
  generalize rule cursor = step at h
  generalize rule' cursor' = step' at h
  cases step with
  | parsed result last =>
      cases step' with
      | parsed result' last' =>
          obtain ⟨rfl, halong⟩ := h
          exact hnext result last last' halong
      | rejected last' => exact h.elim
      | exhausted => exact Pairing.ends_exhausted (next result last)
  | rejected last =>
      cases step' with
      | parsed result' last' => exact h.elim
      | rejected last' => exact h
      | exhausted => exact trivial
  | exhausted => exact trivial

theorem agrees_exhausted (rule' : Rule α) :
    (Rule.exhausted : Rule α).Agrees pairing ahead relocate rule' cursor cursor' :=
  trivial

theorem agrees_exhausted' (rule : Rule α) :
    rule.Agrees pairing ahead relocate Rule.exhausted cursor cursor' :=
  Pairing.ends_exhausted (rule cursor)

theorem agrees_pure (h : pairing.Along ahead cursor cursor') {result result' : α}
    (hresult : result' = relocate result) :
    (pure result : Rule α).Agrees pairing ahead relocate (pure result') cursor cursor' :=
  ⟨hresult, h⟩

theorem agrees_reject (h : pairing.Along (more + 1) cursor cursor') (fault : SyntaxFault)
    (location : Location) :
    (Rule.reject fault location : Rule α).Agrees pairing ahead relocate
      (Rule.reject fault (pairing.change location)) cursor cursor' :=
  (h.weaken (Nat.le_add_left 1 more)).record fault location

theorem agrees_current {next next' : Token → Rule β} (h : pairing.Along (more + 1) cursor cursor')
    (hnext : (next cursor.current).Agrees pairing ahead relocate'
      (next' (cursor.current.relocated pairing.change)) cursor cursor') :
    (Rule.current >>= next).Agrees pairing ahead relocate' (Rule.current >>= next') cursor
      cursor' := by
  rw [← h.current] at hnext
  exact hnext

theorem agrees_upcoming {next next' : Token → Rule β} (h : pairing.Along (more + 2) cursor cursor')
    (hnext : (next cursor.upcoming).Agrees pairing ahead relocate'
      (next' (cursor.upcoming.relocated pairing.change)) cursor cursor') :
    (Rule.upcoming >>= next).Agrees pairing ahead relocate' (Rule.upcoming >>= next') cursor
      cursor' := by
  rw [← h.upcoming] at hnext
  exact hnext

/-- Both positions are changed. -/
theorem agrees_modify {change change' : Cursor → Cursor}
    (h : pairing.Along ahead (change cursor) (change' cursor')) :
    (Rule.modify change).Agrees pairing ahead id (Rule.modify change') cursor cursor' :=
  ⟨rfl, h⟩

/-- No block is around a fence, so the blocks are counted without one only. -/
theorem agrees_blocks (h : pairing.Along ahead cursor cursor') (hopen : ¬ pairing.fenced)
    (change : Nat → Nat) :
    let rule := Rule.modify fun cursor => { cursor with blocks := change cursor.blocks }
    rule.Agrees pairing ahead id rule cursor cursor' :=
  agrees_modify { h with
    blocks := congrArg change h.blocks
    fence := fun hfenced => absurd hfenced hopen }

theorem agrees_advance (h : pairing.Along (ahead + 1) cursor cursor') :
    Rule.advance.Agrees pairing ahead id Rule.advance cursor cursor' :=
  agrees_modify h.advance

/-- Both positions move on to a token other than the semicolon. -/
theorem agrees_advance_past (h : pairing.Along (more + 2) cursor cursor')
    (hne : cursor.upcoming.lexeme ≠ .mark .semicolon) :
    Rule.advance.Agrees pairing 2 id Rule.advance cursor cursor' :=
  agrees_modify (h.advance_past hne)

theorem agrees_advance_word {word : Keyword} (h : pairing.Along (more + 2) cursor cursor')
    (hword : cursor.upcoming.lexeme = .word word) :
    Rule.advance.Agrees pairing 2 id Rule.advance cursor cursor' := by
  refine agrees_advance_past h ?_
  rw [hword]
  exact Lexeme.noConfusion

theorem agrees_expect {wanted : TokenKind} (hwanted : wanted ≠ .mark .semicolon)
    (h : pairing.Along 2 cursor cursor') :
    (Rule.expect wanted).Agrees pairing 2 id (Rule.expect wanted) cursor cursor' := by
  refine agrees_upcoming h ?_
  have hkind : (cursor.upcoming.relocated pairing.change).kind = cursor.upcoming.kind := rfl
  rw [hkind]
  split
  · next hmet =>
      refine agrees_advance_past h fun hsemicolon => hwanted ?_
      rw [← hmet, Token.kind, hsemicolon]
      rfl
  · exact agrees_reject h _ _

theorem agrees_expectMark {mark : Mark} (hmark : mark ≠ .semicolon)
    (h : pairing.Along 2 cursor cursor') :
    (Rule.expectMark mark).Agrees pairing 2 id (Rule.expectMark mark) cursor cursor' :=
  agrees_expect (fun hwanted => hmark (TokenKind.mark.inj hwanted)) h

/-- A brace that opens a block never comes next in front of a fence. -/
theorem agrees_expectBrace {next next' : Unit → Rule β}
    (h : pairing.Along (more + 2) cursor cursor')
    (hnext : ¬ pairing.fenced → ∀ last last', pairing.Along (more + 1) last last' →
      (next ()).Agrees pairing ahead relocate' (next' ()) last last') :
    (Rule.expectMark .leftBrace >>= next).Agrees pairing ahead relocate'
      (Rule.expectMark .leftBrace >>= next') cursor cursor' := by
  rw [Rule.expectMark, Rule.expect, bind_assoc, bind_assoc]
  refine agrees_upcoming h ?_
  have hkind : (cursor.upcoming.relocated pairing.change).kind = cursor.upcoming.kind := rfl
  rw [hkind]
  split
  · next hbrace =>
      refine hnext (fun hfenced => ?_) cursor.advance cursor'.advance h.advance
      obtain ⟨hplain, -⟩ := h.advance.plain hfenced
      rw [Cursor.current_lexeme, Cursor.advance_rest] at hplain
      rw [Token.kind, Cursor.upcoming_lexeme] at hbrace
      obtain ⟨location, rest, hrest⟩ := exists_of_kind_mark hbrace
      exact hplain (congrArg firstLexeme hrest)
  · exact agrees_reject h _ _

theorem agrees_expectWord (word : Keyword) (h : pairing.Along 2 cursor cursor') :
    (Rule.expectWord word).Agrees pairing 2 id (Rule.expectWord word) cursor cursor' :=
  agrees_expect TokenKind.noConfusion h

theorem agrees_expectIdentifier (h : pairing.Along 2 cursor cursor') :
    Rule.expectIdentifier.Agrees pairing 2 (Identifier.relocated pairing.change)
      Rule.expectIdentifier cursor cursor' := by
  refine agrees_upcoming h ?_
  have hlexeme : (cursor.upcoming.relocated pairing.change).lexeme = cursor.upcoming.lexeme := rfl
  rw [hlexeme]
  cases hname : cursor.upcoming.lexeme with
  | identifier name =>
      have hne : cursor.upcoming.lexeme ≠ .mark .semicolon := by
        rw [hname]
        exact Lexeme.noConfusion
      exact (agrees_advance_past h hne).bind fun _ last last' halong => agrees_pure halong rfl
  | _ => exact agrees_reject h _ _

/-- Both rules decide by the same upcoming lexeme. -/
theorem agrees_decide (lexeme : Lexeme) {next next' : Bool → Rule β}
    (h : pairing.Along (more + 2) cursor cursor')
    (hmet : cursor.upcoming.lexeme = lexeme →
      (next true).Agrees pairing ahead relocate' (next' true) cursor cursor')
    (hother : cursor.upcoming.lexeme ≠ lexeme →
      (next false).Agrees pairing ahead relocate' (next' false) cursor cursor') :
    pairing.Ends ahead relocate' (next (decide (cursor.upcoming.lexeme = lexeme)) cursor)
      (next' (decide (cursor'.upcoming.lexeme = lexeme)) cursor') := by
  rw [h.upcoming, Token.relocated]
  by_cases hlexeme : cursor.upcoming.lexeme = lexeme
  · rw [decide_eq_true hlexeme]
    exact hmet hlexeme
  · rw [decide_eq_false hlexeme]
    exact hother hlexeme

theorem agrees_meetsMark {mark : Mark} {next next' : Bool → Rule β}
    (h : pairing.Along (more + 2) cursor cursor')
    (hmet : cursor.upcoming.lexeme = .mark mark →
      (next true).Agrees pairing ahead relocate' (next' true) cursor cursor')
    (hother : cursor.upcoming.lexeme ≠ .mark mark →
      (next false).Agrees pairing ahead relocate' (next' false) cursor cursor') :
    (Rule.meetsMark mark >>= next).Agrees pairing ahead relocate' (Rule.meetsMark mark >>= next')
      cursor cursor' :=
  agrees_decide (.mark mark) h hmet hother

theorem agrees_meetsWord {word : Keyword} {next next' : Bool → Rule β}
    (h : pairing.Along (more + 2) cursor cursor')
    (hmet : cursor.upcoming.lexeme = .word word →
      (next true).Agrees pairing ahead relocate' (next' true) cursor cursor')
    (hother : cursor.upcoming.lexeme ≠ .word word →
      (next false).Agrees pairing ahead relocate' (next' false) cursor cursor') :
    (Rule.meetsWord word >>= next).Agrees pairing ahead relocate' (Rule.meetsWord word >>= next')
      cursor cursor' :=
  agrees_decide (.word word) h hmet hother

/-- A mark other than the semicolon is taken by both rules or by none. -/
theorem agrees_takeMark {mark : Mark} (hmark : mark ≠ .semicolon)
    (h : pairing.Along 2 cursor cursor') :
    (Rule.takeMark mark).Agrees pairing 2 id (Rule.takeMark mark) cursor cursor' := by
  refine agrees_meetsMark h (fun hmet => ?_) fun _ => agrees_pure h rfl
  have hne : cursor.upcoming.lexeme ≠ .mark .semicolon := by
    rw [hmet]
    exact fun hsemicolon => hmark (Lexeme.mark.inj hsemicolon)
  exact (agrees_advance_past h hne).bind fun _ last last' halong => agrees_pure halong rfl

/-- A semicolon is taken by both rules or by none. -/
theorem agrees_takeSemicolon (h : pairing.Along 2 cursor cursor') :
    (Rule.takeMark .semicolon).Agrees pairing 1 id (Rule.takeMark .semicolon) cursor cursor' := by
  refine agrees_meetsMark h (fun _ => ?_) fun _ => agrees_pure (h.weaken (by decide)) rfl
  exact (agrees_advance h).bind fun _ last last' halong => agrees_pure halong rfl

/-- An attempt settles a rejection. Behind it there may be fewer tokens than behind a result. -/
theorem Agrees.bindAttempt {rule rule' : Rule α} {next next' : Option α → Rule β}
    (h : rule.Agrees pairing 2 relocate rule' cursor cursor')
    (hsome : ∀ result last last', pairing.Along 2 last last' →
      (next (some result)).Agrees pairing ahead relocate' (next' (some (relocate result))) last
        last')
    (hnone : ∀ last last', pairing.Along 1 last last' →
      (next none).Agrees pairing ahead relocate' (next' none) last last') :
    (rule.attempt >>= next).Agrees pairing ahead relocate' (rule'.attempt >>= next') cursor
      cursor' := by
  unfold Agrees at h ⊢
  rw [bind_apply, bind_apply, Rule.attempt, Rule.attempt]
  generalize rule cursor = step at h
  generalize rule' cursor' = step' at h
  cases step with
  | parsed result last =>
      cases step' with
      | parsed result' last' =>
          obtain ⟨rfl, halong⟩ := h
          exact hsome result last last' halong
      | rejected last' => exact h.elim
      | exhausted => exact Pairing.ends_exhausted (next (some result) last)
  | rejected last =>
      cases step' with
      | parsed result' last' => exact h.elim
      | rejected last' => exact hnone last last' h
      | exhausted => exact Pairing.ends_exhausted (next none last)
  | exhausted => exact trivial

/-! ## Lists -/

variable {closing : Mark} {item item' : Rule α}

/-- One more item in front of the others. -/
theorem agrees_cons {rule rule' : Rule (List α)} (value : α)
    (h : rule.Agrees pairing ahead (List.map relocate) rule' cursor cursor') :
    (rule >>= fun rest => pure (value :: rest)).Agrees pairing ahead (List.map relocate)
      (rule' >>= fun rest => pure (relocate value :: rest)) cursor cursor' :=
  h.bind fun _ _ _ hlast => agrees_pure hlast rfl

/-- Items after commas. -/
theorem agrees_listTail (hclosing : closing ≠ .semicolon)
    (hitem : ∀ {cursor cursor'}, pairing.Along 1 cursor cursor' →
      item.Agrees pairing 2 relocate item' cursor cursor')
    (count count' : Nat) (h : pairing.Along 2 cursor cursor') :
    (Rule.listTail closing item count).Agrees pairing 2 (List.map relocate)
      (Rule.listTail closing item' count') cursor cursor' := by
  induction count generalizing count' cursor cursor' with
  | zero => exact agrees_exhausted _
  | succ count ih =>
      cases count' with
      | zero => exact agrees_exhausted' _
      | succ count' =>
          refine (agrees_takeMark (by decide) h).bind fun taken first first' hfirst => ?_
          cases taken with
          | true =>
              refine (agrees_advance hfirst).bind fun _ second second' hsecond => ?_
              refine (hitem hsecond).bind fun value third third' hthird => ?_
              exact agrees_cons value (ih count' hthird)
          | false =>
              refine (agrees_expectMark hclosing hfirst).bind fun _ last last' hlast => ?_
              exact agrees_pure hlast rfl

/-- Items separated by commas. -/
theorem agrees_list (hclosing : closing ≠ .semicolon)
    (hitem : ∀ {cursor cursor'}, pairing.Along 1 cursor cursor' →
      item.Agrees pairing 2 relocate item' cursor cursor')
    (count count' : Nat) (h : pairing.Along 2 cursor cursor') :
    (Rule.list closing item count).Agrees pairing 2 (List.map relocate)
      (Rule.list closing item' count') cursor cursor' := by
  refine (agrees_takeMark hclosing h).bind fun taken first first' hfirst => ?_
  cases taken with
  | true => exact agrees_pure hfirst rfl
  | false =>
      refine (agrees_advance hfirst).bind fun _ second second' hsecond => ?_
      refine (hitem hsecond).bind fun value third third' hthird => ?_
      exact agrees_cons value (agrees_listTail hclosing hitem count count' hthird)

end Rule

end Script
