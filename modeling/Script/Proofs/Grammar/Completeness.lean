import Script.Proofs.Grammar.Completeness.Statement

/-!
# Phrases are read by rules

What can be read as a phrase, with no statement skipped, the rule of the phrase reads, with the same
result and without a new error. `Reads.applies` says this of all phrases, by one induction over
readings, and `Program.ofScanned_eq` of programs.
-/

namespace Script

/-- No expression starts with a closing brace. -/
theorem Reads.not_closing {lenient : Prop} {precedence : Precedence} {before after : List Token}
    {result : Expr} (h : Reads lenient (.expression precedence) before result after) :
    firstLexeme before ≠ .mark .rightBrace := by
  intro hbrace
  have hstart : (firstLexeme before).startsOperand = true := h.startsWith
  rw [hbrace] at hstart
  cases hstart

/-- What can be read without skipping statements is read by the rule of the phrase. -/
theorem Reads.applies {α : Type} {phrase : Phrase α} {before after : List Token} {result : α}
    (h : Reads False phrase before result after) : phrase.Applies before result after := by
  induction h with
  | expression hleft _ ih ih' => exact .expression ih hleft.least_le ih'
  | identifier | string | trueLiteral | falseLiteral | parameter | breakLoop | continueLoop =>
      intro nested inner count _ site _ henters
      obtain rfl := henters
      exact ⟨_, ⟨_, rfl⟩, rfl⟩
  | integer h => exact .integer h
  | float h => exact .float h
  | unary _ ih => exact .unary _ ih
  | group _ ih => exact .group ih
  | array _ ih => exact .array ih
  | hash _ ih => exact .hash ih
  | function hparameters _ ih ih' => exact .function ih hparameters.least_le ih'
  | choice hconditional ih => exact .choice hconditional.startsWith ih
  | complete h => exact .complete h
  | extended hbinds hlonger _ ih ih' => exact .extended hbinds ih hlonger.least_le ih'
  | call _ ih => exact .call _ ih
  | index _ ih => exact .index _ ih
  | assign _ ih => exact .assign _ ih
  | binary _ ih => exact .binary _ _ ih
  | listEmpty _ => exact .listEmpty
  | listCons hitem hne hfirst _ ih ih' => exact .listCons hitem hne ih hfirst.suffix.length_le ih'
  | tailEmpty hclosing => exact .tailEmpty hclosing
  | tailCons hitem hfirst _ ih ih' => exact .tailCons hitem ih hfirst.suffix.length_le ih'
  | pairsEmpty => exact .pairsEmpty
  | pairsLast hkey hvalue hbrace _ ih ih' ih'' =>
      have hmiddle := Nat.lt_of_succ_lt (Nat.lt_of_succ_le hkey.least_le)
      exact .pairsLast (not_closing hkey) ih hmiddle ih' hvalue.least_le hbrace ih''
  | pairsCons hkey hvalue _ ih ih' ih'' =>
      have hmiddle := Nat.lt_of_succ_lt (Nat.lt_of_succ_le hkey.least_le)
      have hlast := Nat.lt_of_succ_lt (Nat.lt_of_succ_le hvalue.least_le)
      exact .pairsCons (not_closing hkey) ih hmiddle ih' hlast ih''
  | conditional hcondition hconsequence _ ih ih' ih'' =>
      exact .conditional ih hcondition.least_le ih' hconsequence.least_le ih''
  | noAlternative h => exact .noAlternative h
  | alternative hblock ih =>
      have hbrace : firstLexeme _ = .mark .leftBrace := hblock.startsWith
      exact .alternative (hbrace ▸ by simp) ih
  | elseIf _ ih => exact .elseIf ih
  | block _ ih => exact .block ih
  | statementsEnd h => exact .statementsEnd h
  | statementsMore h hstatement _ ih ih' => exact .statementsMore h ih hstatement.least_le ih'
  | letBinding _ ih => exact .letBinding ih
  | returnValue _ ih => exact .returnValue ih
  | bareLoop hiterable _ ih ih' => exact .bareLoop ih hiterable.least_le ih'
  | parenLoop hiterable _ ih ih' =>
      have hmiddle := Nat.lt_of_succ_lt (Nat.lt_of_succ_le hiterable.least_le)
      exact .parenLoop ih hmiddle ih'
  | whileLoop hcondition _ ih ih' => exact .whileLoop ih hcondition.least_le ih'
  | tryCatch hbody herror hhandler _ ih ih' ih'' ihLast =>
      have hnamed := Nat.lt_of_succ_lt (Nat.lt_of_succ_le hbody.least_le)
      exact .tryCatch ih hnamed ih' herror.least_le ih'' hhandler.least_le ihLast
  | bareName => exact .bareName
  | parenName => exact .parenName
  | noFinalizer h => exact .noFinalizer h
  | finalizer _ ih => exact .finalizer ih
  | expressionForm hvalue ih => exact .expressionForm hvalue.startsWith ih
  | terminated hform ih => exact .terminated hform.startsWith ih
  | unterminated hform hne ih => exact .unterminated hform.startsWith ih hne
  | empty => exact .empty
  | comment hskipped => exact .skipped fun _ hrest => Cursor.skipComment_closed hskipped hrest
  | openComment hskipped => exact .skipped fun _ hrest => Cursor.skipComment_open hskipped hrest
  | skipped hlenient => exact False.elim hlenient

/-- A program that can be read from scanned tokens, with no statement skipped, is read from them
without an error. -/
theorem Program.ofScanned_eq {scanned : Scanned} {statements : List Statement}
    (hfailure : scanned.failure = none)
    (h : Reads False (.statements fun lexeme => lexeme = .eof) scanned.tokens statements []) :
    Program.ofScanned scanned = ⟨⟨statements⟩, []⟩ := by
  have hcursor : Cursor.ofScanned scanned =
      Site.cursor ⟨scanned.finish, [], 0⟩ scanned.tokens := by
    rw [Cursor.ofScanned, hfailure]
    rfl
  have hbound : 2 * scanned.tokens.length + 2 ≤ phraseBound scanned.tokens := by
    unfold phraseBound
    omega
  obtain ⟨_, rfl, hrun⟩ := h.applies _ _ _ scanned.tokens ⟨scanned.finish, [], 0⟩
    ⟨hbound, hbound, hbound⟩ rfl
  have hprogram : programRule (phraseBound scanned.tokens) (Cursor.ofScanned scanned) =
      .parsed statements (Site.cursor ⟨scanned.finish, [], 0⟩ []) := by
    rw [hcursor]
    exact hrun
  rw [Program.ofScanned, hprogram]

end Script
