import Script.CommandLine
import Script.Proofs.Grammar.Locating
import Script.Proofs.Grammar.Soundness
import Script.Proofs.Token.Position

/-!
# The diagnosis of a text

The stream of a text stands at the place that is counted over what was read of it, and this is where
a text that ends too early is reported to end: `positions_counted`. A text whose stream fails is
reported to do so once, at the string literal that cannot be read, and is not evaluated:
`failures_reported`.
-/

namespace Script

/-! ## The place where a text ends -/

/-- The error says that the text ends too early. -/
def SyntaxError.reportsEnd : SyntaxError → Bool
  | parse (.unexpected _ got) _ | parse (.noExpression got) _ => got = .eof
  | _ => false

/-- The end of the text is the only token that can come too early. -/
theorem location_of_reportsEnd {text : String} {error : SyntaxError}
    (h : error.Located (scan text)) (hend : error.reportsEnd = true) :
    error.location = (scan text).finish := by
  cases error with
  | scan error => cases hend
  | parse fault location =>
      obtain ⟨token, htoken, rfl, hconcerns⟩ := h
      have hkind : token.kind = .eof := by
        cases fault with
        | unexpected wanted got | noExpression got =>
            exact hconcerns.trans (of_decide_eq_true hend)
        | _ => cases hend
      refine scan_met_eof htoken ?_
      unfold Token.kind at hkind
      cases hlexeme : token.lexeme with
      | eof => rfl
      | _ =>
          rw [hlexeme] at hkind
          cases hkind

/-- From a position, the end of the text is seen at the given place. -/
structure Cursor.SeesEnd (place : Location) (cursor : Cursor) : Prop where
  current : cursor.current.lexeme = .eof → cursor.current.location = place
  upcoming : cursor.upcoming.lexeme = .eof → cursor.upcoming.location = place

theorem Cursor.Within.seesEnd {text : String} {cursor : Cursor}
    (h : cursor.Within (scan text)) : cursor.SeesEnd (scan text).finish :=
  ⟨scan_met_eof h.current, scan_met_eof h.upcoming⟩

/-- After any number of pulls the stream of a text stands at the place that is counted from the
start of the text, over all that was read of it. Only a line feed behind a backslash, at which the
stream fails, is counted as a column. Once the stream is done, its place is where every rule that is
run on the text sees the end, and where the text is reported to end too early. -/
theorem positions_counted (text : String) :
    (∀ number, ∃ consumed,
      text.toList = consumed ++ ((Stream.ofText text).after number).rest ∧
      ((Stream.ofText text).after number).Stands consumed) ∧
    ∀ number, ((Stream.ofText text).after number).status ≠ .reading →
      let place := ((Stream.ofText text).after number).location
      (∀ (α : Type) (phrase : Phrase α) (nested inner count : Nat),
        match phrase.rule (Phrases.upTo nested) inner count (Cursor.ofScanned (scan text)) with
        | .parsed _ last | .rejected last => last.SeesEnd place
        | .exhausted => True) ∧
      ∀ error ∈ (Program.read text).errors, error.reportsEnd = true → error.location = place := by
  refine ⟨fun number => Stream.after_stands [] text.toList number, fun number hdone => ?_⟩
  obtain ⟨last, hfinish, -, -, hlast⟩ := scan_after text
  intro place
  have hplace : place = (scan text).finish := by
    rw [← hfinish, ← hlast number hdone]
  rw [hplace]
  refine ⟨fun α phrase nested inner count => ?_, fun error herror hend => ?_⟩
  · have hrule := phrase.rule_locates (scan text) nested inner count _
      (Cursor.within_ofScanned (scan text))
    generalize phrase.rule _ _ _ _ = step at hrule ⊢
    cases step with
    | parsed | rejected => exact hrule.seesEnd
    | exhausted => trivial
  · exact location_of_reportsEnd (Program.errors_located text error herror) hend

/-- A call that is not closed, behind a string of two lines. -/
theorem positions_counted_unclosedCall :
    ((Stream.ofText "f(\"a\nb\", ").after 5).status ≠ .reading ∧
    SyntaxError.parse (.noExpression .eof) ⟨2, 5⟩ ∈ (Program.read "f(\"a\nb\", ").errors ∧
    (SyntaxError.parse (.noExpression .eof) ⟨2, 5⟩).location =
      ((Stream.ofText "f(\"a\nb\", ").after 5).location := by
  have hended : ((Stream.ofText "f(\"a\nb\", ").after 5).status = .ended := rfl
  have hdone : ((Stream.ofText "f(\"a\nb\", ").after 5).status ≠ .reading := by
    rw [hended]
    exact nofun
  have herror : SyntaxError.parse (.noExpression .eof) ⟨2, 5⟩ ∈
      (Program.read "f(\"a\nb\", ").errors := by decide +kernel
  exact ⟨hdone, herror, ((positions_counted _).2 5 hdone).2 _ herror rfl⟩

/-- Behind a backslash a line feed does not start a line, though it is one of the characters that
are read. -/
theorem escaped_feed_uncounted :
    ((Stream.ofText "\"\\\n").after 1).rest = [] ∧
    ((Stream.ofText "\"\\\n").after 1).location = ⟨1, 4⟩ ∧
    Location.behind "\"\\\n".toList = ⟨2, 1⟩ := by
  decide

/-! ## Texts that cannot be scanned -/

section

variable [Host]

/-- The text is refused with these errors wherever it may be given: in a session, on a line of an
interactive session, and on the command line. No session is changed by it. -/
structure RefusedWith (text : String) (errors : List SyntaxError) : Prop where
  submit (bound : Nat) (session : Session) :
    session.submit bound text = (.rejected errors, session)
  respond (bound : Nat) (session : Session) :
    Repl.respond bound session text = (Repl.errorLines errors, some session)
  runSource (bound : Nat) (settings : Settings) :
    CommandLine.runSource bound settings text = ⟨1, Repl.errorLines errors, ""⟩

/-- A text with errors is refused unless it is blank. -/
theorem Program.refused_of_errors {text : String} (herrors : (Program.read text).errors ≠ [])
    (hblank : Text.isBlank text = false) : RefusedWith text (Program.read text).errors := by
  have htext : Program.ofText text = .error (Program.read text).errors := by
    unfold Program.ofText
    dsimp only
    rw [if_neg (by simpa using herrors)]
  have hsubmit (bound : Nat) (session : Session) :
      session.submit bound text = (.rejected (Program.read text).errors, session) := by
    unfold Session.submit
    generalize Program.ofText text = parsed at htext ⊢
    subst htext
    rfl
  refine ⟨hsubmit, fun bound session => ?_, fun bound settings => ?_⟩
  · rw [Repl.respond, if_neg (by rw [hblank]; exact Bool.false_ne_true), hsubmit]
    rfl
  · have hanswer := hsubmit bound (Session.new settings)
    unfold CommandLine.runSource
    generalize (Session.new settings).submit bound text = answer at hanswer ⊢
    generalize (Program.read text).errors = errors at hanswer ⊢
    subst hanswer
    rfl

omit [Host] in
/-- A text whose stream fails has a quote in it, and so is not blank. -/
theorem not_blank_of_failure {text : String} {error : ScanError}
    (h : (scan text).failure = some error) : Text.isBlank text = false := by
  obtain ⟨before, rest, htext, -, -⟩ := scan_failure_place h
  have hquote : '"' ∈ text.toList := by
    rw [htext]
    exact List.mem_append_right _ (.head _)
  exact List.all_eq_false.2 ⟨'"', hquote, by decide⟩

/-- Among the errors of a text there is one failure of scanning if its stream fails, which is that
of the stream, and none if it does not. It is reported at the opening quote of the string literal
that cannot be read, and a text with such a failure is refused. -/
theorem failures_reported (text : String) :
    (∀ error, (∃ number, ((Stream.ofText text).after number).status = .failed error) ↔
      (Program.read text).errors.filterMap SyntaxError.failure? = [error]) ∧
    ((∀ number error, ((Stream.ofText text).after number).status ≠ .failed error) ↔
      (Program.read text).errors.filterMap SyntaxError.failure? = []) ∧
    ∀ number error, ((Stream.ofText text).after number).status = .failed error →
      (∃ before rest, text.toList = before ++ '"' :: rest ∧ error.fault.Holds rest ∧
        (SyntaxError.scan error).location = .behind before) ∧
      RefusedWith text (Program.read text).errors := by
  have hfailures : (Program.read text).errors.filterMap SyntaxError.failure? =
      (scan text).failure.toList := Program.ofScanned_failures (scan_proper text)
  rw [hfailures]
  refine ⟨fun error => ?_, ?_, fun number error hfailed => ?_⟩
  · rw [scan_failure_iff]
    cases (scan text).failure <;> simp
  · constructor
    · intro hnever
      rw [Option.toList_eq_nil_iff, Option.eq_none_iff_forall_ne_some]
      intro error hfailure
      obtain ⟨number, hfailed⟩ := scan_failure_iff.2 hfailure
      exact hnever number error hfailed
    · intro hnone number error hfailed
      rw [scan_failure_iff.1 ⟨number, hfailed⟩] at hnone
      cases hnone
  · have hfailure := scan_failure_iff.1 ⟨number, hfailed⟩
    refine ⟨scan_failure_place hfailure, ?_⟩
    refine Program.refused_of_errors (fun hnil => ?_) (not_blank_of_failure hfailure)
    rw [hnil, hfailure] at hfailures
    cases hfailures

end

open scoped Host in
/-- An unknown escape in a comment in a block that is not closed. -/
theorem failures_reported_comment :
    ((Stream.ofText "fn() \x7b /* \"\\q").after 6).status = .failed ⟨.unknownEscape 'q', ⟨1, 11⟩⟩ ∧
    RefusedWith "fn() \x7b /* \"\\q" [.scan ⟨.unknownEscape 'q', ⟨1, 11⟩⟩,
      .parse (.unexpected (.mark .rightBrace) .eof) ⟨1, 14⟩] := by
  have hfailed : ((Stream.ofText "fn() \x7b /* \"\\q").after 6).status =
      .failed ⟨.unknownEscape 'q', ⟨1, 11⟩⟩ := rfl
  have herrors : (Program.read "fn() \x7b /* \"\\q").errors =
      [.scan ⟨.unknownEscape 'q', ⟨1, 11⟩⟩,
        .parse (.unexpected (.mark .rightBrace) .eof) ⟨1, 14⟩] := by decide +kernel
  refine ⟨hfailed, ?_⟩
  rw [← herrors]
  exact ((failures_reported _).2.2 6 _ hfailed).2

end Script
