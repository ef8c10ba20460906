import Script.Proofs.Grammar.Application
import Script.Proofs.Grammar.TokenOrder

/-!
# Errors at tokens

An error of the grammar speaks of a token: one of another kind than wanted, one that no expression
starts with, digits that make no number. It is reported at the place of that token, and past the
last token of a text at the end of the text: `SyntaxError.Located`. The rules of the grammar keep
this of all recorded errors, by induction over the bound: `Phrases.upTo_locate`.
-/

namespace Script

/-- The token that a fault speaks of. -/
def SyntaxFault.Concerns (token : Token) : SyntaxFault → Prop
  | unexpected _ got | noExpression got => token.kind = got
  | illegalCharacter character => token.lexeme = .illegal character
  | integerRange digits => token.lexeme = .integer digits
  | floatDots digits => token.lexeme = .float digits
  | assignmentTarget => token.lexeme = .mark .assign

/-- The tokens that rules meet in a scanned text: past the last one there is an `eof` token where
scanning ends. -/
def Scanned.met (scanned : Scanned) : List Token :=
  scanned.tokens ++ [⟨.eof, scanned.finish⟩]

/-- The error is the failure of scanning, or is reported at a token of the text that it speaks
of. -/
def SyntaxError.Located (scanned : Scanned) : SyntaxError → Prop
  | scan error => scanned.failure = some error
  | parse fault location =>
    ∃ token ∈ scanned.met, token.location = location ∧ fault.Concerns token

namespace Cursor

/-- A position in the tokens of a scanned text, with errors that are located in it. -/
structure Within (scanned : Scanned) (cursor : Cursor) : Prop where
  rest : ∀ token ∈ cursor.rest, token ∈ scanned.tokens
  finish : cursor.finish = scanned.finish
  failure : ∀ error ∈ cursor.failure, scanned.failure = some error
  errors : ∀ error ∈ cursor.errors, error.Located scanned

namespace Within

variable {scanned : Scanned} {cursor : Cursor}

theorem headD_mem (h : cursor.Within scanned) {tokens : List Token}
    (htokens : ∀ token ∈ tokens, token ∈ scanned.tokens) :
    tokens.headD ⟨.eof, cursor.finish⟩ ∈ scanned.met := by
  cases tokens with
  | nil =>
      rw [h.finish]
      exact List.mem_append_right _ (.head _)
  | cons token rest => exact List.mem_append_left _ (htokens token (.head _))

theorem current (h : cursor.Within scanned) : cursor.current ∈ scanned.met :=
  h.headD_mem h.rest

theorem upcoming (h : cursor.Within scanned) : cursor.upcoming ∈ scanned.met :=
  h.headD_mem fun token htoken => h.rest token (List.mem_of_mem_tail htoken)

theorem record (h : cursor.Within scanned) {error : SyntaxError} (herror : error.Located scanned) :
    (cursor.record error).Within scanned :=
  { h with errors := List.forall_mem_append.2 ⟨h.errors, List.forall_mem_singleton.2 herror⟩ }

theorem blocks (h : cursor.Within scanned) (blocks : Nat) :
    { cursor with blocks := blocks }.Within scanned :=
  { h with }

theorem surface (h : cursor.Within scanned) : cursor.surface.Within scanned := by
  unfold Cursor.surface
  have hscan {error : ScanError} (hfailure : cursor.failure = some error) :
      { cursor.record (.scan error) with failure := none }.Within scanned := by
    have hlocated : (SyntaxError.scan error).Located scanned := h.failure error hfailure
    exact { h.record hlocated with failure := nofun }
  split
  · next hfailure _ => exact hscan hfailure
  · next hfailure _ => exact hscan hfailure
  · exact h

theorem advance (h : cursor.Within scanned) : cursor.advance.Within scanned :=
  surface { h with rest := fun token htoken => h.rest token (List.mem_of_mem_tail htoken) }

theorem advanceUntil (h : cursor.Within scanned) (stops : Cursor → Bool) (count : Nat) :
    (cursor.advanceUntil stops count).Within scanned := by
  induction count generalizing cursor with
  | zero => exact h
  | succ count ih =>
      rw [Cursor.advanceUntil]
      split
      · exact h
      · exact ih h.advance

theorem skipComment (h : cursor.Within scanned) : cursor.skipComment.Within scanned := by
  unfold Cursor.skipComment
  dsimp only
  split
  · exact (h.advanceUntil _ _).advance
  · exact h.advanceUntil _ _

theorem synchronize (h : cursor.Within scanned) (length : Nat) :
    (cursor.synchronize length).Within scanned := by
  unfold Cursor.synchronize
  dsimp only
  split
  · exact (h.advanceUntil _ _).advance
  · exact h.advanceUntil _ _

end Within

/-- At the start of a text nothing is recorded but the failure of scanning. -/
theorem within_ofScanned (scanned : Scanned) : (ofScanned scanned).Within scanned :=
  Within.surface ⟨fun _ => id, rfl, fun _ => id, List.forall_mem_nil _⟩

end Cursor

namespace Rule

variable {α β : Type} {scanned : Scanned}

/-- Whether it applies or not, the rule leaves the cursor in the text, and the errors that it
records are located there. -/
def Locates (scanned : Scanned) (rule : Rule α) : Prop :=
  ∀ cursor : Cursor, cursor.Within scanned →
    match rule cursor with
    | .parsed _ last | .rejected last => last.Within scanned
    | .exhausted => True

variable {rule : Rule α} {next : α → Rule β}

theorem Locates.bind (h : rule.Locates scanned) (hnext : ∀ result, (next result).Locates scanned) :
    (rule >>= next).Locates scanned := by
  intro cursor hcursor
  have hrule := h cursor hcursor
  rw [bind_apply]
  cases hstep : rule cursor with
  | parsed result last =>
      rw [hstep] at hrule
      exact hnext result last hrule
  | rejected last =>
      rw [hstep] at hrule
      exact hrule
  | exhausted => trivial

theorem locates_exhausted : (Rule.exhausted : Rule α).Locates scanned :=
  fun _ _ => trivial

theorem locates_pure (result : α) : (pure result : Rule α).Locates scanned :=
  fun _ h => h

/-- What is rejected is reported at the token that the fault speaks of. -/
theorem locates_reject {token : Token} {fault : SyntaxFault} (htoken : token ∈ scanned.met)
    (hfault : fault.Concerns token) :
    (Rule.reject fault token.location : Rule α).Locates scanned :=
  fun _ h => h.record ⟨token, htoken, rfl, hfault⟩

theorem locates_current {next : Token → Rule β}
    (h : ∀ token ∈ scanned.met, (next token).Locates scanned) :
    (Rule.current >>= next).Locates scanned :=
  fun cursor hcursor => h cursor.current hcursor.current cursor hcursor

theorem locates_upcoming {next : Token → Rule β}
    (h : ∀ token ∈ scanned.met, (next token).Locates scanned) :
    (Rule.upcoming >>= next).Locates scanned :=
  fun cursor hcursor => h cursor.upcoming hcursor.upcoming cursor hcursor

theorem locates_remaining : Rule.remaining.Locates scanned :=
  fun _ h => h

theorem locates_modify {change : Cursor → Cursor}
    (h : ∀ cursor : Cursor, cursor.Within scanned → (change cursor).Within scanned) :
    (Rule.modify change).Locates scanned :=
  h

theorem locates_advance : Rule.advance.Locates scanned :=
  fun _ h => h.advance

theorem locates_expect (wanted : TokenKind) : (Rule.expect wanted).Locates scanned := by
  refine locates_upcoming fun token htoken => ?_
  split
  · exact locates_advance
  · exact locates_reject htoken rfl

theorem locates_expectIdentifier : Rule.expectIdentifier.Locates scanned := by
  refine locates_upcoming fun token htoken => ?_
  split
  · exact locates_advance.bind fun _ => locates_pure _
  · exact locates_reject htoken rfl

theorem locates_meetsMark (mark : Mark) : (Rule.meetsMark mark).Locates scanned :=
  locates_upcoming fun _ _ => locates_pure _

theorem locates_meetsWord (word : Keyword) : (Rule.meetsWord word).Locates scanned :=
  locates_upcoming fun _ _ => locates_pure _

theorem locates_takeMark (mark : Mark) : (Rule.takeMark mark).Locates scanned := by
  refine (locates_meetsMark mark).bind fun met => ?_
  split
  · exact locates_advance.bind fun _ => locates_pure _
  · exact locates_pure _

theorem Locates.attempt (h : rule.Locates scanned) : rule.attempt.Locates scanned := by
  intro cursor hcursor
  have hrule := h cursor hcursor
  rw [Rule.attempt]
  cases hstep : rule cursor with
  | parsed | rejected =>
      rw [hstep] at hrule
      exact hrule
  | exhausted => trivial

variable {item : Rule α} {closing : Mark}

/-- Items after commas. -/
theorem locates_listTail (hitem : item.Locates scanned) (count : Nat) :
    (Rule.listTail closing item count).Locates scanned := by
  induction count with
  | zero => exact locates_exhausted
  | succ count ih =>
      refine (locates_takeMark .comma).bind fun taken => ?_
      split
      · refine locates_advance.bind fun _ => hitem.bind fun first => ?_
        exact ih.bind fun rest => locates_pure _
      · exact (locates_expect _).bind fun _ => locates_pure _

/-- Items separated by commas. -/
theorem locates_list (hitem : item.Locates scanned) (count : Nat) :
    (Rule.list closing item count).Locates scanned := by
  refine (locates_takeMark closing).bind fun taken => ?_
  split
  · exact locates_pure _
  · refine locates_advance.bind fun _ => hitem.bind fun first => ?_
    exact (locates_listTail hitem count).bind fun rest => locates_pure _

end Rule

namespace Phrases

open Rule

variable {scanned : Scanned}

/-- Rules for smaller phrases that report errors at tokens of the text. -/
structure Locate (scanned : Scanned) (phrases : Phrases) : Prop where
  expression (precedence : Precedence) : (phrases.expression precedence).Locates scanned
  statement : phrases.statement.Locates scanned

theorem parameter_locates : Phrases.parameter.Locates scanned := by
  refine locates_current fun token htoken => ?_
  split
  · exact locates_pure _
  · exact locates_reject htoken rfl

/-- Digits are reported where they stand. -/
theorem integer_locates {token : Token} {digits : String} (htoken : token ∈ scanned.met)
    (hdigits : token.lexeme = .integer digits) :
    (Phrases.integer token.location digits).Locates scanned := by
  unfold Phrases.integer
  dsimp only
  split
  · exact locates_pure _
  · exact locates_reject htoken hdigits

theorem float_locates {token : Token} {digits : String} (htoken : token ∈ scanned.met)
    (hdigits : token.lexeme = .float digits) :
    (Phrases.float token.location digits).Locates scanned := by
  unfold Phrases.float
  split
  · exact locates_pure _
  · exact locates_reject htoken hdigits

namespace Locate

variable {phrases : Phrases}

/-! ## Expressions -/

theorem statements (h : phrases.Locate scanned) (stops : Lexeme → Bool) (count : Nat) :
    (phrases.statements stops count).Locates scanned := by
  induction count with
  | zero => exact locates_exhausted
  | succ count ih =>
      refine locates_current fun token _ => ?_
      split
      · exact locates_pure _
      · exact h.statement.bind fun statement => ih.bind fun rest => locates_pure _

/-- A block that is not closed is reported at the token where its brace is missing. -/
theorem bracedBlock (h : phrases.Locate scanned) (count : Nat) :
    (phrases.bracedBlock count).Locates scanned := by
  refine (locates_expect _).bind fun _ => ?_
  refine locates_current fun first _ => locates_advance.bind fun _ => ?_
  refine (locates_modify fun cursor hcursor => hcursor.blocks _).bind fun _ => ?_
  refine (h.statements _ count).bind fun statements => ?_
  refine (locates_modify fun cursor hcursor => hcursor.blocks _).bind fun _ => ?_
  refine locates_current fun last hlast => ?_
  split
  · exact locates_pure _
  · exact locates_reject hlast rfl

theorem pairs (h : phrases.Locate scanned) (count : Nat) :
    (phrases.pairs count).Locates scanned := by
  induction count with
  | zero => exact locates_exhausted
  | succ count ih =>
      refine (locates_takeMark .rightBrace).bind fun taken => ?_
      split
      · exact locates_pure _
      · refine locates_advance.bind fun _ => (h.expression .lowest).bind fun key => ?_
        refine (locates_expect _).bind fun _ => locates_advance.bind fun _ => ?_
        refine (h.expression .lowest).bind fun value => ?_
        refine (locates_meetsMark .rightBrace).bind fun met => ?_
        have hrest (last : Unit) : (phrases.pairs count >>= fun rest =>
            pure ((⟨key, value⟩ : Pair) :: rest)).Locates scanned :=
          ih.bind fun rest => locates_pure _
        split
        · exact (locates_pure ()).bind hrest
        · exact (locates_expect _).bind hrest

theorem function (h : phrases.Locate scanned) (count : Nat) :
    (phrases.function count).Locates scanned := by
  refine locates_current fun token _ => (locates_expect _).bind fun _ => ?_
  refine (locates_list parameter_locates count).bind fun parameters => ?_
  exact (h.bracedBlock count).bind fun body => locates_pure _

theorem alternative (h : phrases.Locate scanned) {nested : Rule Expr}
    (hnested : nested.Locates scanned) (count : Nat) :
    (phrases.alternative nested count).Locates scanned := by
  refine (locates_meetsWord .elseWord).bind fun met => ?_
  split
  · refine locates_advance.bind fun _ => (locates_meetsWord .ifWord).bind fun nests => ?_
    split
    · refine locates_advance.bind fun _ => locates_current fun first _ => ?_
      exact hnested.bind fun inner => locates_pure _
    · exact (h.bracedBlock count).bind fun block => locates_pure _
  · exact locates_pure _

theorem conditional (h : phrases.Locate scanned) (count : Nat) :
    (phrases.conditional count).Locates scanned := by
  induction count with
  | zero => exact locates_exhausted
  | succ count ih =>
      refine locates_current fun token _ => locates_advance.bind fun _ => ?_
      refine (h.expression .lowest).bind fun condition => ?_
      refine (h.bracedBlock count).bind fun consequence => ?_
      exact (h.alternative ih count).bind fun alternative => locates_pure _

theorem unary (h : phrases.Locate scanned) (location : Location) (operator : UnaryOperator) :
    (phrases.unary location operator).Locates scanned :=
  locates_advance.bind fun _ => (h.expression .unary).bind fun _ => locates_pure _

/-- What no expression starts with is reported where it stands. -/
theorem operand (h : phrases.Locate scanned) (count : Nat) :
    (phrases.operand count).Locates scanned := by
  refine locates_current fun token htoken => ?_
  obtain ⟨lexeme, location⟩ := token
  dsimp only
  split
  · exact locates_pure _
  · exact integer_locates htoken rfl
  · exact float_locates htoken rfl
  · exact locates_pure _
  · exact locates_pure _
  · exact locates_pure _
  · exact h.unary location .negate
  · exact h.unary location .not
  · refine locates_advance.bind fun _ => (h.expression .lowest).bind fun inner => ?_
    exact (locates_expect _).bind fun _ => locates_pure _
  · exact (locates_list (h.expression .lowest) count).bind fun elements => locates_pure _
  · exact (h.pairs count).bind fun pairs => locates_pure _
  · exact (h.function count).bind fun literal => locates_pure _
  · exact h.conditional count
  · exact locates_reject htoken rfl
  · exact locates_reject htoken rfl

/-- An assignment to something else than a name is reported at its mark. -/
theorem continuation (h : phrases.Locate scanned) (count : Nat) (left : Expr) :
    (phrases.continuation count left).Locates scanned := by
  refine locates_current fun token htoken => ?_
  obtain ⟨lexeme, location⟩ := token
  dsimp only
  split
  · exact (locates_list (h.expression .lowest) count).bind fun arguments => locates_pure _
  · refine locates_advance.bind fun _ => (h.expression .lowest).bind fun index => ?_
    exact (locates_expect _).bind fun _ => locates_pure _
  · refine locates_advance.bind fun _ => (h.expression .lowest).bind fun value => ?_
    split
    · exact locates_pure _
    · exact locates_reject htoken rfl
  · split
    · refine locates_advance.bind fun _ => (h.expression _).bind fun right => locates_pure _
    · exact locates_pure _

theorem extend (h : phrases.Locate scanned) (precedence : Precedence) (count : Nat) (left : Expr) :
    (phrases.extend precedence count left).Locates scanned := by
  induction count generalizing left with
  | zero => exact locates_exhausted
  | succ count ih =>
      refine locates_upcoming fun next _ => ?_
      split
      · refine locates_advance.bind fun _ => (h.continuation count left).bind fun longer => ?_
        exact ih longer
      · exact locates_pure _

theorem wholeExpression (h : phrases.Locate scanned) (count : Nat) (precedence : Precedence) :
    (phrases.wholeExpression count precedence).Locates scanned :=
  (h.operand count).bind fun left => h.extend precedence count left

/-! ## Statements -/

theorem forLoop (h : phrases.Locate scanned) (count : Nat) (location : Location) :
    (phrases.forLoop count location).Locates scanned := by
  refine (locates_takeMark .leftParen).bind fun parenthesised => ?_
  refine locates_expectIdentifier.bind fun element => (locates_expect _).bind fun _ => ?_
  refine locates_advance.bind fun _ => (h.expression .lowest).bind fun iterable => ?_
  have hbody (last : Unit) : (phrases.bracedBlock count >>= fun body =>
      pure (Statement.forLoop location element iterable body)).Locates scanned :=
    (h.bracedBlock count).bind fun body => locates_pure _
  split
  · exact (locates_expect _).bind hbody
  · exact (locates_pure ()).bind hbody

theorem errorName : Phrases.errorName.Locates scanned := by
  refine (locates_takeMark .leftParen).bind fun parenthesised => ?_
  refine locates_expectIdentifier.bind fun error => ?_
  split
  · exact (locates_expect _).bind fun _ => locates_pure _
  · exact (locates_pure _).bind fun _ => locates_pure _

theorem finalizer (h : phrases.Locate scanned) (count : Nat) :
    (phrases.finalizer count).Locates scanned := by
  refine (locates_meetsWord .finallyWord).bind fun met => ?_
  split
  · refine locates_advance.bind fun _ => ?_
    exact (h.bracedBlock count).bind fun block => locates_pure _
  · exact locates_pure _

theorem tryCatch (h : phrases.Locate scanned) (count : Nat) (location : Location) :
    (phrases.tryCatch count location).Locates scanned := by
  refine (h.bracedBlock count).bind fun body => (locates_expect _).bind fun _ => ?_
  refine errorName.bind fun error => (h.bracedBlock count).bind fun handler => ?_
  exact (h.finalizer count).bind fun finalizer => locates_pure _

theorem statementForm (h : phrases.Locate scanned) (count : Nat) :
    (phrases.statementForm count).Locates scanned := by
  refine locates_current fun token _ => ?_
  split
  · refine locates_expectIdentifier.bind fun target => (locates_expect _).bind fun _ => ?_
    exact locates_advance.bind fun _ => (h.expression .lowest).bind fun value => locates_pure _
  · exact locates_advance.bind fun _ => (h.expression .lowest).bind fun value => locates_pure _
  · exact h.forLoop count _
  · refine locates_advance.bind fun _ => (h.expression .lowest).bind fun condition => ?_
    exact (h.bracedBlock count).bind fun body => locates_pure _
  · exact locates_pure _
  · exact locates_pure _
  · exact h.tryCatch count _
  · exact (h.expression .lowest).bind fun value => locates_pure _

theorem wholeStatement (h : phrases.Locate scanned) (count : Nat) :
    (phrases.wholeStatement count).Locates scanned := by
  refine locates_current fun token _ => ?_
  split
  · exact locates_advance.bind fun _ => locates_pure _
  · refine (locates_modify fun cursor hcursor => hcursor.skipComment).bind fun _ => ?_
    exact locates_pure _
  · refine locates_remaining.bind fun length => (h.statementForm count).attempt.bind fun found => ?_
    cases found with
    | some statement =>
        refine (locates_takeMark .semicolon).bind fun _ => ?_
        exact locates_advance.bind fun _ => locates_pure _
    | none =>
        refine (locates_modify fun cursor hcursor => hcursor.synchronize length).bind fun _ => ?_
        exact locates_pure _

end Locate

/-- The rules of every bound report errors at tokens of the text. -/
theorem upTo_locate (scanned : Scanned) (count : Nat) : (Phrases.upTo count).Locate scanned := by
  induction count with
  | zero => exact ⟨fun _ => locates_exhausted, locates_exhausted⟩
  | succ count ih =>
      exact ⟨fun precedence => ih.wholeExpression count precedence, ih.wholeStatement count⟩

end Phrases

/-- So do the rules of all phrases. -/
theorem Phrase.rule_locates {α : Type} (phrase : Phrase α) (scanned : Scanned)
    (nested inner count : Nat) :
    (phrase.rule (Phrases.upTo nested) inner count).Locates scanned := by
  have h := Phrases.upTo_locate scanned nested
  induction phrase generalizing count with
  | expression precedence => exact h.expression precedence
  | operand => exact h.operand count
  | extension precedence left => exact h.extend precedence count left
  | continuation left => exact h.continuation count left
  | list closing item ih => exact Rule.locates_list (ih inner) count
  | listTail closing item ih => exact Rule.locates_listTail (ih inner) count
  | parameter => exact Phrases.parameter_locates
  | pairs => exact h.pairs count
  | conditional => exact h.conditional count
  | alternative => exact h.alternative (h.conditional count) count
  | block => exact h.bracedBlock count
  | statements stops => exact h.statements stops count
  | errorName => exact Phrases.Locate.errorName
  | finalizer => exact h.finalizer count
  | form => exact h.statementForm count
  | statement => exact h.statement

/-! ## Programs -/

/-- The errors of a text are located in it. -/
theorem Program.errors_located (text : String) :
    ∀ error ∈ (Program.read text).errors, error.Located (scan text) := by
  have hprogram : (programRule (phraseBound (scan text).tokens)).Locates (scan text) :=
    (Phrases.upTo_locate _ _).statements _ _
  have hlast := hprogram _ (Cursor.within_ofScanned (scan text))
  unfold Program.read Program.ofScanned
  split
  · next hstep =>
      rw [hstep] at hlast
      exact hlast.errors
  · next hstep =>
      rw [hstep] at hlast
      exact hlast.errors
  · exact List.forall_mem_nil _

/-- The only `eof` token that rules meet is the one where scanning ends. -/
theorem scan_met_eof {text : String} {token : Token} (htoken : token ∈ (scan text).met)
    (hend : token.lexeme = .eof) : token.location = (scan text).finish := by
  rcases List.mem_append.1 htoken with htoken | htoken
  · exact absurd hend (scan_proper text token htoken)
  · rw [List.mem_singleton.1 htoken]

end Script
