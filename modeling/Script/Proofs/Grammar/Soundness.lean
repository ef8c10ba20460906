import Script.Proofs.Grammar.Soundness.Statement

/-!
# Programs are read from their tokens

The rules of every bound read phrases, by induction over the bound, and the bound of a program is
large enough for its tokens. So the rule of programs applies everywhere, and what it gives can be
read from all tokens, leniently if an error was recorded: `Program.ofScanned_reads`.
-/

namespace Script

/-- Rules read phrases, whatever the bound. -/
theorem Phrases.upTo_sound (limit count : Nat) : (Phrases.upTo count).Sound limit count := by
  induction count with
  | zero =>
      exact ⟨fun _ _ h => False.elim (Nat.not_succ_le_zero _ h),
        fun _ h => False.elim (Nat.not_succ_le_zero _ h)⟩
  | succ count ih =>
      exact ⟨fun precedence cursor h => ih.wholeExpression precedence (by omega),
        fun cursor h hne => ih.wholeStatement (by omega) hne⟩

/-- The rule of programs applies at every position, and reads up to the end. -/
theorem programRule_meets (limit : Nat) (cursor : Cursor) :
    (programRule (phraseBound cursor.rest)).Meets
      (fun result last => last.rest = [] ∧
        (last.errors.length ≤ limit →
          Reads (0 < limit) (.statements (fun lexeme => lexeme = .eof)) cursor.rest result []))
      cursor := by
  refine Rule.Meets.of_proper fun hproper => ?_
  have hsound := Phrases.upTo_sound limit (phraseBound cursor.rest)
  refine (hsound.statements rfl (phraseBound cursor.rest) (by unfold phraseBound; omega)
    (by unfold phraseBound; omega)).weaken ?_
  intro result last hleads h
  have hend : last.rest = [] := (hleads.proper hproper).rest_eq_nil (of_decide_eq_true h.1)
  rw [hend] at h
  exact ⟨hend, h.2⟩

/-- A rule that never rejects. -/
def Rule.Settles {α : Type} (rule : Rule α) : Prop :=
  ∀ cursor last, rule cursor ≠ .rejected last

namespace Rule.Settles

variable {α β : Type} {rule : Rule α} {next : α → Rule β}

theorem pure (result : α) : (Pure.pure result : Rule α).Settles := by
  intro cursor last hrejected
  cases hrejected

theorem current : Rule.current.Settles := by
  intro cursor last hrejected
  cases hrejected

theorem upcoming : Rule.upcoming.Settles := by
  intro cursor last hrejected
  cases hrejected

theorem remaining : Rule.remaining.Settles := by
  intro cursor last hrejected
  cases hrejected

theorem exhausted : (Rule.exhausted : Rule α).Settles := by
  intro cursor last hrejected
  cases hrejected

theorem modify (change : Cursor → Cursor) : (Rule.modify change).Settles := by
  intro cursor last hrejected
  cases hrejected

theorem bind (h : rule.Settles) (hnext : ∀ result, (next result).Settles) :
    (rule >>= next).Settles := by
  intro cursor last hrejected
  rw [Rule.bind_apply] at hrejected
  cases hrule : rule cursor with
  | parsed result middle =>
      rw [hrule] at hrejected
      exact hnext result middle last hrejected
  | rejected middle => exact h cursor middle hrule
  | exhausted =>
      rw [hrule] at hrejected
      cases hrejected

theorem attempt (rule : Rule α) : rule.attempt.Settles := by
  intro cursor last hrejected
  rw [Rule.attempt] at hrejected
  split at hrejected <;> cases hrejected

theorem takeMark (mark : Mark) : (Rule.takeMark mark).Settles := by
  refine bind (upcoming.bind fun token => .pure _) fun met => ?_
  split
  · exact bind (.modify _) fun _ => .pure true
  · exact .pure false

end Rule.Settles

/-- A statement is read or skipped. -/
theorem Phrases.wholeStatement_settles (phrases : Phrases) (count : Nat) :
    (phrases.wholeStatement count).Settles := by
  refine Rule.Settles.current.bind fun token => ?_
  split
  · exact Rule.Settles.bind (.modify _) fun _ => .pure none
  · exact Rule.Settles.bind (.modify _) fun _ => .pure none
  · refine Rule.Settles.remaining.bind fun length => ?_
    refine Rule.Settles.bind (.attempt _) fun result => ?_
    cases result with
    | some statement =>
        refine Rule.Settles.bind (.takeMark .semicolon) fun _ => ?_
        exact Rule.Settles.bind (.modify _) fun _ => .pure (some statement)
    | none => exact Rule.Settles.bind (.modify _) fun _ => .pure none

/-- So are statements in sequence. -/
theorem Phrases.statements_settles {phrases : Phrases} (h : phrases.statement.Settles)
    (stops : Lexeme → Bool) (bound : Nat) : (phrases.statements stops bound).Settles := by
  induction bound with
  | zero => exact .exhausted
  | succ bound ih =>
      refine Rule.Settles.current.bind fun token => ?_
      split
      · exact .pure []
      · exact h.bind fun statement => ih.bind fun rest => .pure (statement.toList ++ rest)

theorem programRule_settles (count : Nat) : (programRule count).Settles := by
  refine Phrases.statements_settles ?_ _ count
  cases count with
  | zero => exact .exhausted
  | succ count => exact Phrases.wholeStatement_settles _ _

/-- The rule of programs reads all scanned tokens, and some statements are skipped only if there are
errors. -/
theorem Program.ofScanned_parsed {scanned : Scanned}
    (h : ∀ token ∈ scanned.tokens, token.lexeme ≠ .eof) :
    ∃ statements last, Program.ofScanned scanned = ⟨⟨statements⟩, last.errors⟩ ∧
      (Cursor.ofScanned scanned).Leads last ∧ last.rest = [] ∧
      Reads (0 < last.errors.length) (.statements fun lexeme => lexeme = .eof) scanned.tokens
        statements [] := by
  have hrest : (Cursor.ofScanned scanned).rest = scanned.tokens := Cursor.surface_rest _
  have hmeets := fun limit => programRule_meets limit (Cursor.ofScanned scanned)
  simp only [Rule.Meets, Cursor.Proper, hrest] at hmeets
  rw [Program.ofScanned]
  cases hstep : programRule (phraseBound scanned.tokens) (Cursor.ofScanned scanned) with
  | parsed statements last =>
      have hread := hmeets last.errors.length h
      rw [hstep] at hread
      exact ⟨statements, last, rfl, hread.1, hread.2.1, hread.2.2 (Nat.le_refl _)⟩
  | rejected last => exact False.elim (programRule_settles _ _ _ hstep)
  | exhausted =>
      have hread := hmeets 0 h
      rw [hstep] at hread
      exact False.elim hread

/-- The statements of a program are read from the scanned tokens, up to the last one. -/
theorem Program.ofScanned_reads {scanned : Scanned}
    (h : ∀ token ∈ scanned.tokens, token.lexeme ≠ .eof) :
    Reads (0 < (Program.ofScanned scanned).errors.length)
      (.statements fun lexeme => lexeme = .eof) scanned.tokens
      (Program.ofScanned scanned).program.statements [] := by
  obtain ⟨statements, last, hparsed, -, -, hreads⟩ := ofScanned_parsed h
  rw [hparsed]
  exact hreads

/-- Among the errors of a program the failure of scanning is reported once. -/
theorem Program.ofScanned_failures {scanned : Scanned}
    (h : ∀ token ∈ scanned.tokens, token.lexeme ≠ .eof) :
    (Program.ofScanned scanned).errors.filterMap SyntaxError.failure? =
      scanned.failure.toList := by
  obtain ⟨statements, last, hparsed, hleads, hrest, -⟩ := ofScanned_parsed h
  have hstart : (Cursor.ofScanned scanned).failures = scanned.failure.toList :=
    Cursor.surface_failures _
  have hfailure : last.failure = none :=
    (hleads.ahead (Cursor.surface_ahead _)).failure_eq_none hrest
  have hlast : last.failures = last.errors.filterMap SyntaxError.failure? := by
    rw [Cursor.failures, hfailure, Option.toList_none, List.append_nil]
  rw [hparsed, ← hlast, hleads.failures, hstart]

end Script
