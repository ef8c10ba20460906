import Script.Proofs.Grammar.Application
import Script.Proofs.Grammar.Ending.Statement
import Script.Proofs.Grammar.TokenOrder
import Script.Proofs.Token.Cutting

/-!
# Reading ends

The rules of every bound end alike within all larger bounds, by induction over the bound, and the
bound of a program is large enough wherever its rules are used. So each rule ends at every position,
however broken the tokens are, and the bound is never what ends it: `reading_ends`.
-/

namespace Script

/-- Rules of bounded nesting end alike within all larger bounds. -/
theorem Phrases.upTo_end {count count' : Nat} (hle : count ≤ count') :
    (Phrases.upTo count).End count (Phrases.upTo count') := by
  induction count generalizing count' with
  | zero =>
      exact {
        expression := fun _ _ => Rule.ends_exhausted (Nat.not_succ_le_zero _)
        statement := fun _ => Rule.ends_exhausted (Nat.not_succ_le_zero _)
        settles := .exhausted
        shorter := fun _ hrun => by cases hrun }
  | succ count ih =>
      obtain ⟨count', rfl⟩ := Nat.exists_eq_add_one.2 (Nat.zero_lt_of_lt hle)
      have hle := Nat.le_of_succ_le_succ hle
      have hsmaller := ih hle
      exact {
        expression := fun precedence _ =>
          hsmaller.wholeExpression precedence hle Nat.le_of_succ_le_succ
        statement := fun _ => hsmaller.wholeStatement hle Nat.le_of_succ_le_succ
        settles := Phrases.wholeStatement_settles _ _
        shorter := hsmaller.wholeStatement_shorter }

namespace Phrase

/-- Phrases that end with the text at the latest. -/
def EndsWithText : {α : Type} → Phrase α → Prop
  | _, .list _ item | _, .listTail _ item => item.EndsWithText
  | _, .statements stops => stops .eof = true
  | _, _ => True

/-- Bounds that are large enough at a position. -/
structure Suffices (cursor : Cursor) (nested inner count : Nat) : Prop where
  nested : phraseBound cursor.rest ≤ nested
  inner : phraseBound cursor.rest ≤ inner
  count : phraseBound cursor.rest ≤ count

variable {cursor last : Cursor} {nested nested' inner inner' count count' : Nat}

theorem Suffices.lengths (h : Suffices cursor nested inner count) :
    2 * cursor.rest.length + 4 ≤ nested ∧ 2 * cursor.rest.length + 4 ≤ count :=
  ⟨h.nested, h.count⟩

/-- The items of a list are bounded as the list is. -/
theorem Suffices.item (h : Suffices cursor nested inner count) (hlast : cursor.Passes last) :
    Suffices last nested inner inner := by
  have hbound : phraseBound last.rest ≤ phraseBound cursor.rest :=
    Nat.add_le_add_right (Nat.mul_le_mul_left 2 hlast.length_le) 4
  exact ⟨hbound.trans h.nested, hbound.trans h.inner, hbound.trans h.inner⟩

/-- The rule of a phrase ends alike within all larger bounds. -/
theorem rule_ends {α : Type} (phrase : Phrase α) (hnested : nested ≤ nested')
    (hinner : inner ≤ inner') (hcount : count ≤ count') (cursor : Cursor) :
    (phrase.rule (Phrases.upTo nested) inner count).Ends
      (phrase.EndsWithText ∧ Suffices cursor nested inner count)
      (phrase.rule (Phrases.upTo nested') inner' count') cursor := by
  have h := Phrases.upTo_end hnested
  induction phrase generalizing count count' cursor with
  | expression precedence =>
      refine h.smaller precedence fun henough => ?_
      have hbound := henough.2.lengths
      omega
  | operand =>
      refine h.operand hcount fun henough => ?_
      have hbound := henough.2.lengths
      omega
  | extension precedence left =>
      refine h.extend precedence hcount left fun henough => ?_
      have hbound := henough.2.lengths
      omega
  | continuation left =>
      refine h.continuation hcount left fun henough => ?_
      have hbound := henough.2.lengths
      omega
  | list closing item ih =>
      refine Rule.ends_list (fun last hlast _ => ?_) hcount fun henough => ?_
      · exact (ih hinner last).weaken fun henough => ⟨henough.1, henough.2.item hlast⟩
      · have hbound := henough.2.lengths
        omega
  | listTail closing item ih =>
      refine Rule.ends_listTail (fun last hlast _ => ?_) hcount fun henough => ?_
      · exact (ih hinner last).weaken fun henough => ⟨henough.1, henough.2.item hlast⟩
      · have hbound := henough.2.lengths
        omega
  | parameter => exact Phrases.parameter_ends cursor
  | pairs =>
      refine h.pairs hcount fun henough => ?_
      have hbound := henough.2.lengths
      omega
  | conditional =>
      refine h.conditional hcount fun henough => ?_
      have hbound := henough.2.lengths
      omega
  | alternative =>
      refine h.alternative (fun last hlast => ?_) hcount fun henough => ?_
      · refine h.conditional hcount fun henough => ?_
        have hbound := henough.2.lengths
        omega
      · have hbound := henough.2.lengths
        omega
  | block =>
      refine h.bracedBlock hcount fun henough => ?_
      have hbound := henough.2.lengths
      omega
  | statements stops =>
      refine h.statements And.left hcount fun henough => ?_
      have hbound := henough.2.lengths
      omega
  | errorName => exact Phrases.errorName_ends cursor
  | finalizer =>
      refine h.finalizer hcount fun henough => ?_
      have hbound := henough.2.lengths
      omega
  | form =>
      refine h.statementForm hcount fun henough => ?_
      have hbound := henough.2.lengths
      omega
  | statement =>
      refine (h.statement cursor).weaken fun henough => ?_
      have hbound := henough.2.lengths
      omega

end Phrase

/-- How rules go on from a position. -/
structure Cursor.Continues (cursor : Cursor) : Prop where
  /-- Before the end, a statement that is read, skipped or empty takes at least one token. -/
  statement : cursor.current.lexeme ≠ .eof → ∃ result last,
    (∀ count, phraseBound cursor.rest ≤ count →
      statementRule count cursor = .parsed result last) ∧
    cursor.Passes last ∧ last.rest.length < cursor.rest.length
  /-- Whether a rule applies or not, it goes on, and there are as many blocks after it as before.
  The rule of a single kind of statement or operand is part of one that starts and ends with it. -/
  passes {α : Type} (phrase : Phrase α) (nested inner count : Nat) :
    match phrase.rule (Phrases.upTo nested) inner count cursor with
    | .parsed _ last | .rejected last => cursor.Passes last
    | .exhausted => True
  /-- Each rule ends, and does the same within all bounds that are large enough. -/
  ends {α : Type} (phrase : Phrase α) : phrase.EndsWithText → ∃ step, step ≠ .exhausted ∧
    ∀ nested inner count, Phrase.Suffices cursor nested inner count →
      phrase.rule (Phrases.upTo nested) inner count cursor = step
  /-- A comment is skipped to its closing mark, or to the end. -/
  comment : ∃ found, cursor.Passes found ∧
    (found.current.lexeme = .mark .commentClose ∧ cursor.skipComment = found.advance ∨
      found.current.lexeme = .eof ∧ cursor.skipComment = found)
  /-- A broken statement, at whose start `length` tokens were left, is skipped to a semicolon, to
  the end, or to a later token that may follow it. -/
  recovery (length : Nat) : ∃ found, cursor.Passes found ∧
    (found.current.lexeme = .mark .semicolon ∧ cursor.synchronize length = found.advance ∨
      (found.current.lexeme = .eof ∨ found.rest.length < length ∧
        (found.current.lexeme = .mark .rightBrace ∧ 0 < found.blocks ∨
          Cursor.startsStatement found.current.lexeme)) ∧ cursor.synchronize length = found)

/-- A rule that ends does the same within all bounds that are large enough. -/
theorem Phrase.rule_stable {α : Type} (phrase : Phrase α) (cursor : Cursor)
    (hends : phrase.EndsWithText) : ∃ step, step ≠ .exhausted ∧
    ∀ nested inner count, Suffices cursor nested inner count →
      phrase.rule (Phrases.upTo nested) inner count cursor = step := by
  have hsuffices : Suffices cursor (phraseBound cursor.rest) (phraseBound cursor.rest)
      (phraseBound cursor.rest) := ⟨Nat.le_refl _, Nat.le_refl _, Nat.le_refl _⟩
  have hrule {nested inner count : Nat} (h : Suffices cursor nested inner count) :
      Step.Alike _ cursor _ (phrase.rule (Phrases.upTo nested) inner count cursor) :=
    phrase.rule_ends h.nested h.inner h.count cursor
  have hends := (hrule hsuffices).ne_exhausted ⟨hends, hsuffices⟩
  exact ⟨_, hends, fun nested inner count h => (hrule h).eq_of_ends hends⟩

/-- Within any bounds a rule goes on, if it ends. -/
theorem Phrase.rule_passes {α : Type} (phrase : Phrase α) (nested inner count : Nat)
    (cursor : Cursor) :
    match phrase.rule (Phrases.upTo nested) inner count cursor with
    | .parsed _ last | .rejected last => cursor.Passes last
    | .exhausted => True := by
  have hrule := phrase.rule_ends (Nat.le_refl nested) (Nat.le_refl inner) (Nat.le_refl count) cursor
  unfold Rule.Ends at hrule
  cases hstep : phrase.rule (Phrases.upTo nested) inner count cursor with
  | parsed | rejected =>
      rw [hstep] at hrule
      exact hrule.2
  | exhausted => trivial

/-- Before the end a statement ends further on. -/
theorem statementRule_shorter (cursor : Cursor) (htoken : cursor.current.lexeme ≠ .eof) :
    ∃ result last, (∀ count, phraseBound cursor.rest ≤ count →
        statementRule count cursor = .parsed result last) ∧
      cursor.Passes last ∧ last.rest.length < cursor.rest.length := by
  obtain ⟨step, hends, hstep⟩ := Phrase.statement.rule_stable cursor trivial
  have hrun (count : Nat) (hcount : phraseBound cursor.rest ≤ count) :
      statementRule count cursor = step :=
    hstep count count count ⟨hcount, hcount, hcount⟩
  have hstatement := hrun _ (Nat.le_refl _)
  have hsmaller := Phrases.upTo_end (Nat.le_refl (phraseBound cursor.rest))
  cases step with
  | parsed result last =>
      exact ⟨result, last, hrun, (hsmaller.statement cursor).passes hstatement,
        hsmaller.shorter htoken hstatement⟩
  | rejected last => exact absurd hstatement (hsmaller.settles cursor last)
  | exhausted => exact absurd rfl hends

theorem Cursor.continues (cursor : Cursor) : cursor.Continues where
  statement := statementRule_shorter cursor
  passes phrase nested inner count := phrase.rule_passes nested inner count cursor
  ends phrase := phrase.rule_stable cursor
  comment := cursor.skipComment_ends
  recovery length := cursor.synchronize_ends length

/-- The rule of programs reads up to the end, within every bound that is large enough. -/
theorem programRule_ends (cursor : Cursor) (hproper : cursor.Proper) :
    ∃ statements last, (∀ count, phraseBound cursor.rest ≤ count →
        programRule count cursor = .parsed statements last) ∧
      cursor.Leads last ∧ last.rest = [] := by
  obtain ⟨step, hends, hstep⟩ :=
    (Phrase.statements fun lexeme => lexeme = .eof).rule_stable cursor rfl
  have hrun (count : Nat) (hcount : phraseBound cursor.rest ≤ count) :
      programRule count cursor = step :=
    hstep count count count ⟨hcount, hcount, hcount⟩
  have hprogram := hrun _ (Nat.le_refl _)
  have hmeets := programRule_meets 0 cursor hproper
  rw [hprogram] at hmeets
  cases step with
  | parsed statements last => exact ⟨statements, last, hrun, hmeets.1, hmeets.2.1⟩
  | rejected last => exact absurd hprogram (programRule_settles _ cursor last)
  | exhausted => exact absurd rfl hends

/-- The rules of the grammar end at every position, and before the end each statement takes a token.
So a text is read to its end within every bound that is large enough: no token is left of those that
the stream of the text yields, and a failure of scanning is recorded. -/
theorem reading_ends :
    (∀ cursor : Cursor, cursor.Continues) ∧
    ∀ text : String,
      (∀ number, (Stream.ofText text).pulled number = (scan text).yielded[number]?) ∧
      ∃ statements last, (∀ count, phraseBound (scan text).tokens ≤ count →
          programRule count (Cursor.ofScanned (scan text)) = .parsed statements last) ∧
        Program.read text = ⟨⟨statements⟩, last.errors⟩ ∧ last.rest = [] ∧ last.failure = none ∧
        last.errors.filterMap SyntaxError.failure? = (scan text).failure.toList := by
  refine ⟨Cursor.continues, fun text => ⟨scan_pulled text, ?_⟩⟩
  have hrest : (Cursor.ofScanned (scan text)).rest = (scan text).tokens := Cursor.surface_rest _
  have hproper : (Cursor.ofScanned (scan text)).Proper := by
    intro token htoken
    rw [hrest] at htoken
    exact scan_proper text token htoken
  obtain ⟨statements, last, hrun, hleads, hlast⟩ := programRule_ends _ hproper
  rw [hrest] at hrun
  have hread : Program.read text = ⟨⟨statements⟩, last.errors⟩ := by
    rw [Program.read, Program.ofScanned, hrun _ (Nat.le_refl _)]
  have hfailures := Program.ofScanned_failures (scan_proper text)
  rw [← Program.read, hread] at hfailures
  have hnone := (hleads.ahead (Cursor.surface_ahead _)).failure_eq_none hlast
  exact ⟨statements, last, hrun, hread, hlast, hnone, hfailures⟩

end Script
