import Script.Proofs.Evaluation.Joining
import Script.Proofs.Evaluation.Termination
import Script.Proofs.Text.Lines

/-!
# Transcripts of interactive sessions

An interactive session is a session for the programs of its lines, and shows nothing else but
prompts and errors: `Repl.transcript_answers`. It drops what a program has printed before it runs
the next one, and it could as well write everything where its programs print. Neither makes a
difference, since sessions that differ in printed text only run `Alongside` each other.
-/

namespace Script

/-! ## Sessions that have printed different texts -/

namespace Session

/-- The two sessions may differ in the text printed so far only. -/
structure Alongside (first second : Session) : Prop where
  settings : first.settings = second.settings
  state : first.state.silenced = second.state.silenced

/-- The session with a text behind what it has printed. -/
def write (session : Session) (text : String) : Session :=
  { session with state := { session.state with printed := session.state.printed ++ text } }

theorem Alongside.write {first second : Session} (h : first.Alongside second) (text : String) :
    first.Alongside (second.write text) :=
  ⟨h.settings, h.state⟩

/-- Text printed so far may be dropped. -/
theorem Alongside.silenced {first second : Session} (h : first.Alongside second) :
    Alongside ⟨first.settings, first.state.silenced⟩ second :=
  ⟨h.settings, h.state⟩

end Session

namespace Repl

/-- The program of a line, if the line is evaluated: it is not blank, and has no errors. -/
def program? (line : String) : Option Program :=
  if Text.isBlank line then none else (Program.ofText line).toOption

variable {line : String} {program : Program}

theorem program?_eq_some :
    program? line = some program ↔
      Text.isBlank line = false ∧ Program.ofText line = .ok program := by
  unfold program?
  cases Text.isBlank line with
  | true => simp
  | false => cases Program.ofText line <;> simp [Except.toOption]

theorem program?_eq_none :
    program? line = none ↔
      Text.isBlank line = true ∨
        Text.isBlank line = false ∧ ∃ errors, Program.ofText line = .error errors := by
  unfold program?
  cases Text.isBlank line with
  | true => simp
  | false => cases Program.ofText line <;> simp [Except.toOption]

/-- Without a line that is not evaluated the same programs are left. -/
theorem filterMap_eraseIdx {lines : List String} {place : Nat} (h : lines[place]? = some line)
    (hskipped : program? line = none) :
    (lines.eraseIdx place).filterMap program? = lines.filterMap program? := by
  induction lines generalizing place with
  | nil => cases h
  | cons first rest ih =>
      cases place with
      | zero =>
          obtain rfl : first = line := Option.some.inj h
          rw [List.eraseIdx_cons_zero, List.filterMap_cons_none hskipped]
      | succ place => rw [List.eraseIdx_cons_succ, List.filterMap_cons, List.filterMap_cons, ih h]

end Repl

section Lines

variable [Host]

namespace Session

/-- Run next, the program adds a text to what the session has printed, gives a result and leaves the
session `after`. -/
structure Prints (bound : Nat) (session : Session) (program : Program) (printed : String)
    (result : Result) (after : Session) : Prop where
  run : session.run bound program = (result, after)
  printed : after.state.printed = session.state.printed ++ printed

/-- A program runs as it does where nothing was printed before, and what was printed stays in front
of what it prints. -/
theorem run_eq_silenced (bound : Nat) (session : Session) (program : Program) :
    let silenced := run bound ⟨session.settings, session.state.silenced⟩ program
    session.run bound program =
      (silenced.1,
        ⟨session.settings, silenced.2.state.printedAfter session.state.printed⟩) := by
  have hstatements := Statement.executeAll_printedAfter session.settings bound program.statements
    session.state.printed session.state.silenced
  rw [State.printedAfter_silenced] at hstatements
  exact run_printedAfter hstatements

theorem result_silenced (bound : Nat) (session : Session) (program : Program) :
    (run bound ⟨session.settings, session.state.silenced⟩ program).1 =
      (session.run bound program).1 := by
  rw [run_eq_silenced bound session]

/-- In sessions that have printed different texts a program gives the same and prints the same. -/
theorem Alongside.run {first second : Session} (h : first.Alongside second) (bound : Nat)
    (program : Program) :
    ∃ printed result after after', first.Prints bound program printed result after ∧
      second.Prints bound program printed result after' ∧ after.Alongside after' := by
  have hfirst := first.run_eq_silenced bound program
  have hsecond := second.run_eq_silenced bound program
  rw [← h.settings, ← h.state] at hsecond
  exact ⟨_, _, _, _, ⟨hfirst, rfl⟩, ⟨hsecond, rfl⟩, rfl, rfl⟩

/-- So the result is the same. -/
theorem Alongside.result_eq {first second : Session} (h : first.Alongside second) (bound : Nat)
    (program : Program) : (first.run bound program).1 = (second.run bound program).1 := by
  obtain ⟨printed, result, after, after', hprints, hprints', -⟩ := h.run bound program
  rw [hprints.run, hprints'.run]

theorem submit_rejected {source : String} {errors : List SyntaxError}
    (h : Program.ofText source = .error errors) (bound : Nat) (session : Session) :
    session.submit bound source = (.rejected errors, session) := by
  unfold submit
  rw [h]

/-- A program that is submitted runs after what was printed so far is dropped. -/
theorem submit_program {source : String} {program : Program}
    (h : Program.ofText source = .ok program) (bound : Nat) (session : Session) :
    let ended := run bound ⟨session.settings, session.state.silenced⟩ program
    session.submit bound source = (.evaluated ended.2.state.printed ended.1, ended.2) := by
  unfold submit
  rw [h]
  rfl

/-- A single program leaves what it leaves by itself, even if it crashes. -/
theorem runAll_single (bound : Nat) (session : Session) (program : Program) :
    (runAll bound session [program]).2 = (run bound session program).2 := by
  by_cases hcrashed : (run bound session program).1 = .crashed
  · rw [runAll_crashed hcrashed]
  · rw [runAll_cons hcrashed]
    rfl

/-- More programs run behind programs of which none has crashed. -/
theorem runAll_append {bound : Nat} {session : Session} {programs : List Program}
    (h : .crashed ∉ (runAll bound session programs).1) (more : List Program) :
    runAll bound session (programs ++ more) =
      ((runAll bound session programs).1 ++
          (runAll bound (runAll bound session programs).2 more).1,
        (runAll bound (runAll bound session programs).2 more).2) := by
  induction programs generalizing session with
  | nil => rfl
  | cons program rest ih =>
      have hcrashed : (run bound session program).1 ≠ .crashed := by
        intro hcrashed
        rw [runAll_crashed hcrashed] at h
        exact h (.head _)
      rw [runAll_cons hcrashed] at h
      rw [List.cons_append, runAll_cons hcrashed, runAll_cons hcrashed,
        ih fun hmem => h (.tail _ hmem)]
      rfl

/-- Programs lead from states of a session to states of the session. -/
theorem Reached.runAll {settings : Settings} {state : State} (h : Reached settings state)
    (bound : Nat) (programs : List Program) :
    Reached settings (runAll bound ⟨settings, state⟩ programs).2.state := by
  induction programs generalizing state with
  | nil => exact h
  | cons program rest ih =>
      have hrun : Session.run bound ⟨settings, state⟩ program = _ := run_congr rfl
      by_cases hcrashed : (Session.run bound ⟨settings, state⟩ program).1 = .crashed
      · rw [runAll_crashed hcrashed]
        exact h.run bound program
      · rw [runAll_cons hcrashed, hrun]
        exact ih (h.run bound program)

end Session

namespace Repl

/-! ## Answers -/

/-- A session that was given the programs of these lines, one after another, and nothing else. What
they have printed stands together. -/
def evaluated (bound : Nat) (settings : Settings) (lines : List String) : Session :=
  (Session.runAll bound (.new settings) (lines.filterMap program?)).2

/-- Within the bound every program of the lines ends, run after those of the lines before it. -/
def AllEnd (bound : Nat) (session : Session) (lines : List String) : Prop :=
  ∀ result ∈ (session.runAll bound (lines.filterMap program?)).1, result.isEnded = true

instance (bound : Nat) (session : Session) (lines : List String) :
    Decidable (AllEnd bound session lines) :=
  inferInstanceAs (Decidable (∀ result ∈ _, _))

/-- `Shows bound settings before line shown` says what a line shows that comes after the lines
`before`. Its program is run as the next one of the session that was given the programs of these
lines, and ends. -/
inductive Shows (bound : Nat) (settings : Settings) (before : List String) (line : String) :
    String → Prop where
  | blank : Text.isBlank line = true → Shows bound settings before line ""
  | rejected {errors : List SyntaxError} :
    Text.isBlank line = false → Program.ofText line = .error errors →
    Shows bound settings before line
      (String.join (errors.map fun error => "PARSE ERROR: " ++ error.text ++ "\n"))
  | null {program : Program} {printed : String} {after : Session} :
    program? line = some program →
    (evaluated bound settings before).Prints bound program printed (.value .null) after →
    Shows bound settings before line printed
  | value {program : Program} {printed : String} {value : Value} {after : Session} :
    program? line = some program → value ≠ .null →
    (evaluated bound settings before).Prints bound program printed (.value value) after →
    Shows bound settings before line (printed ++ value.text ++ "\n")
  | aborted {program : Program} {printed : String} {overflow : StackOverflow} {after : Session} :
    program? line = some program →
    (evaluated bound settings before).Prints bound program printed (.aborted overflow) after →
    Shows bound settings before line (printed ++ "FATAL: " ++ overflow.text ++ "\n")

/-- Lines that come after the lines `before`, and what each of them shows. -/
inductive Conversation (bound : Nat) (settings : Settings) :
    (before lines answers : List String) → Prop where
  | nil {before : List String} : Conversation bound settings before [] []
  | cons {before rest answers : List String} {line answer : String} :
    Shows bound settings before line answer →
    Conversation bound settings (before ++ [line]) rest answers →
    Conversation bound settings before (line :: rest) (answer :: answers)

/-- The text of an interactive session in which lines have these answers. -/
def record (answers : List String) : String :=
  banner ++ String.join (answers.map (prompt ++ ·)) ++ prompt ++ "\n"

/-- What an interactive session shows that goes on to the end of its input, if the given text is all
that it has to write. What is refused ends it at the first line. -/
def written (sink : Sink) (text : String) : String × Ending :=
  match sink with
  | .accepting => (text, .finished)
  | .refusing reason => ("", .unwritable reason)

/-- Answers a line where the programs of the session print. -/
def serve (bound : Nat) (session : Session) (line : String) : Session :=
  if Text.isBlank line then
    session
  else
    match Program.ofText line with
    | .error errors => session.write (errorLines errors)
    | .ok program =>
      match session.run bound program with
      | (result, session) => session.write (resultLine result)

/-- An interactive session that writes all that it shows where its programs print. -/
def serveAll (bound : Nat) : Session → List String → Session
  | session, [] => session.write (prompt ++ "\n")
  | session, line :: rest => serveAll bound (serve bound (session.write prompt) line) rest

/-- What each of several lines shows, up to one that crashes the interpreter. -/
def respondAll (bound : Nat) : Session → List String → List String
  | _, [] => []
  | session, line :: rest =>
    match respond bound session line with
    | (answer, none) => [answer]
    | (answer, some session) => answer :: respondAll bound session rest

/-! ## One line -/

variable {bound larger : Nat} {settings : Settings} {session whole : Session}
  {line : String} {before lines rest : List String} {program : Program}

/-- A line that is not evaluated has the same answer everywhere, and leaves the session as it
was. -/
theorem respond_skipped (h : program? line = none) :
    ∃ answer, (∀ bound settings before, Shows bound settings before line answer) ∧
      (∀ bound session, respond bound session line = (answer, some session)) ∧
      ∀ bound session, serve bound session line = session.write answer := by
  rcases program?_eq_none.1 h with hblank | ⟨hblank, errors, herrors⟩
  · refine ⟨"", fun _ _ _ => .blank hblank, fun _ _ => if_pos hblank, fun bound session => ?_⟩
    rw [serve, if_pos hblank, Session.write, String.append_empty]
  · have hevaluated : ¬ Text.isBlank line = true := Bool.eq_false_iff.1 hblank
    refine ⟨errorLines errors, fun _ _ _ => .rejected hblank herrors, fun bound session => ?_,
      fun bound session => ?_⟩
    · rw [respond, if_neg hevaluated, Session.submit_rejected herrors]
      rfl
    · rw [serve, if_neg hevaluated, herrors]

theorem respond_evaluated (h : program? line = some program)
    (hcrashed : (session.run bound program).1 ≠ .crashed) :
    respond bound session line =
      let ended := Session.run bound ⟨session.settings, session.state.silenced⟩ program
      (ended.2.state.printed ++ resultLine ended.1, some ended.2) := by
  obtain ⟨hblank, hprogram⟩ := program?_eq_some.1 h
  rw [respond, if_neg (Bool.eq_false_iff.1 hblank), Session.submit_program hprogram]
  rw [← Session.result_silenced] at hcrashed
  dsimp only
  generalize Session.run bound ⟨session.settings, session.state.silenced⟩ program = ended
    at hcrashed ⊢
  obtain ⟨result, after⟩ := ended
  cases result with
  | crashed => exact absurd rfl hcrashed
  | value | aborted | exhausted => rfl

/-- What a line shows is what its program prints in any session alongside, and its result. -/
theorem respond_alongside (h : session.Alongside whole) (hprogram : program? line = some program)
    (hcrashed : (whole.run bound program).1 ≠ .crashed) :
    ∃ printed result after after', whole.Prints bound program printed result after' ∧
      respond bound session line = (printed ++ resultLine result, some after) ∧
      after.Alongside after' := by
  obtain ⟨printed, result, after, after', hprints, hprints', hafter⟩ := h.silenced.run bound program
  refine ⟨printed, result, after, after', hprints', ?_, hafter⟩
  rw [respond_evaluated hprogram (by rwa [h.result_eq]), hprints.run]
  dsimp only
  rw [hprints.printed]
  exact congrArg (fun text => (text ++ resultLine result, some after)) String.empty_append

/-- Within a larger bound a line whose program ends is answered in the same way. -/
theorem respond_enough (hle : bound ≤ larger) (hprogram : program? line = some program)
    (hended : (session.run bound program).1.isEnded = true) :
    respond larger session line = respond bound session line := by
  obtain ⟨hcrashed, hexhausted⟩ := Result.isEnded_iff.1 hended
  have hlarger := Session.run_enough hle hexhausted
  have hsilenced : Session.run larger ⟨session.settings, session.state.silenced⟩ program = _ :=
    Session.run_enough hle (by rwa [Session.result_silenced])
  rw [respond_evaluated hprogram hcrashed, respond_evaluated hprogram (by rwa [hlarger]),
    hsilenced]

/-- Printed text and a result are what the line of the program shows. -/
theorem Shows.of_prints {printed : String} {result : Result} {after : Session}
    (hprogram : program? line = some program)
    (h : (evaluated bound settings before).Prints bound program printed result after)
    (hended : result.isEnded = true) :
    Shows bound settings before line (printed ++ resultLine result) := by
  cases result with
  | value value =>
      by_cases hnull : value = .null
      · subst hnull
        rw [resultLine, String.append_empty]
        exact .null hprogram h
      · have hline : resultLine (.value value) = value.text ++ "\n" := by
          cases value with
          | null => exact absurd rfl hnull
          | _ => rfl
        rw [hline, ← String.append_assoc]
        exact .value hprogram hnull h
  | aborted overflow =>
      rw [resultLine, ← String.append_assoc, ← String.append_assoc]
      exact .aborted hprogram h
  | crashed | exhausted => cases hended

/-! ## Lines in order -/

theorem evaluated_skipped (h : program? line = none) :
    evaluated bound settings (before ++ [line]) = evaluated bound settings before := by
  rw [evaluated, List.filterMap_append, List.filterMap_cons_none h, List.filterMap_nil,
    List.append_nil, evaluated]

theorem allEnd_skipped (h : program? line = none) :
    AllEnd bound session (line :: lines) ↔ AllEnd bound session lines := by
  rw [AllEnd, List.filterMap_cons_none h, AllEnd]

theorem allEnd_program (h : program? line = some program) :
    AllEnd bound session (line :: lines) ↔
      (session.run bound program).1.isEnded = true ∧
        AllEnd bound (session.run bound program).2 lines := by
  rw [AllEnd, List.filterMap_cons_some h]
  by_cases hcrashed : (session.run bound program).1 = .crashed
  · rw [Session.runAll_crashed hcrashed, List.forall_mem_singleton, hcrashed]
    exact iff_of_false Bool.false_ne_true fun h => absurd h.1 Bool.false_ne_true
  · rw [Session.runAll_cons hcrashed, List.forall_mem_cons, AllEnd]

theorem allEnd_append :
    AllEnd bound session (before ++ lines) ↔ AllEnd bound session before ∧
      AllEnd bound (session.runAll bound (before.filterMap program?)).2 lines := by
  induction before generalizing session with
  | nil => exact ⟨fun h => ⟨List.forall_mem_nil _, h⟩, And.right⟩
  | cons line rest ih =>
      cases hprogram : program? line with
      | none =>
          rw [List.cons_append, allEnd_skipped hprogram, allEnd_skipped hprogram,
            List.filterMap_cons_none hprogram, ih]
      | some program =>
          rw [List.cons_append, allEnd_program hprogram, allEnd_program hprogram,
            List.filterMap_cons_some hprogram, ih, and_assoc]
          refine and_congr_right fun hended => ?_
          rw [Session.runAll_cons (Result.isEnded_iff.1 hended).1]

/-- A larger bound is enough for all lines as well. -/
theorem AllEnd.enough (h : AllEnd bound session lines) (hle : bound ≤ larger) :
    AllEnd larger session lines := by
  induction lines generalizing session with
  | nil => exact List.forall_mem_nil _
  | cons line rest ih =>
      cases hprogram : program? line with
      | none => exact (allEnd_skipped hprogram).2 (ih ((allEnd_skipped hprogram).1 h))
      | some program =>
          obtain ⟨hended, hrest⟩ := (allEnd_program hprogram).1 h
          rw [allEnd_program hprogram,
            Session.run_enough hle (Result.isEnded_iff.1 hended).2]
          exact ⟨hended, ih hrest⟩

/-- Text printed before keeps no line from ending. -/
theorem AllEnd.alongside (h : AllEnd bound whole lines) (halongside : session.Alongside whole) :
    AllEnd bound session lines := by
  induction lines generalizing session whole with
  | nil => exact List.forall_mem_nil _
  | cons line rest ih =>
      cases hprogram : program? line with
      | none =>
          rw [allEnd_skipped hprogram] at h ⊢
          exact ih h halongside
      | some program =>
          obtain ⟨printed, result, after, after', hprints, hprints', hafter⟩ :=
            halongside.run bound program
          rw [allEnd_program hprogram, hprints'.run] at h
          rw [allEnd_program hprogram, hprints.run]
          exact ⟨h.1, ih h.2 hafter⟩

/-- The first of several lines that end is answered in the same way within any larger bound, and
the others end after it. The answer is what the line shows where the programs print. -/
theorem AllEnd.first (h : AllEnd bound session (line :: rest)) :
    ∃ answer after,
      (∀ larger, bound ≤ larger → respond larger session line = (answer, some after)) ∧
      AllEnd bound after rest ∧
      ∀ whole, session.Alongside whole → after.Alongside (serve bound whole line) ∧
        (serve bound whole line).state.printed = whole.state.printed ++ answer := by
  cases hprogram : program? line with
  | none =>
      obtain ⟨answer, -, hrespond, hserve⟩ := respond_skipped hprogram
      refine ⟨answer, session, fun larger _ => hrespond larger session,
        (allEnd_skipped hprogram).1 h, fun whole halongside => ?_⟩
      rw [hserve]
      exact ⟨halongside.write answer, rfl⟩
  | some program =>
      obtain ⟨hended, hrest⟩ := (allEnd_program hprogram).1 h
      obtain ⟨hcrashed, -⟩ := Result.isEnded_iff.1 hended
      have hself : session.Alongside session := ⟨rfl, rfl⟩
      obtain ⟨printed, result, after, after', hprints, hrespond, hafter⟩ :=
        respond_alongside hself hprogram hcrashed
      rw [hprints.run] at hrest
      refine ⟨printed ++ resultLine result, after,
        fun larger hle => (respond_enough hle hprogram hended).trans hrespond,
        hrest.alongside hafter, fun whole halongside => ?_⟩
      obtain ⟨printed', result', _, last, hwhole, hrespond', hlast⟩ :=
        respond_alongside halongside hprogram (by rwa [← halongside.result_eq])
      rw [hrespond] at hrespond'
      obtain ⟨hanswer, hsame⟩ := Prod.mk.inj hrespond'
      obtain rfl := Option.some.inj hsame
      obtain ⟨hblank, hparsed⟩ := program?_eq_some.1 hprogram
      rw [serve, if_neg (Bool.eq_false_iff.1 hblank), hparsed]
      dsimp only
      rw [hwhole.run]
      refine ⟨hlast.write _, ?_⟩
      show last.state.printed ++ resultLine result' = _
      rw [hwhole.printed, String.append_assoc, hanswer]

theorem evaluated_program (hbefore : AllEnd bound (.new settings) before)
    (h : program? line = some program) :
    evaluated bound settings (before ++ [line]) =
      ((evaluated bound settings before).run bound program).2 := by
  have hcrashed : .crashed ∉ ((Session.new settings).runAll bound (before.filterMap program?)).1 :=
    fun hmem => absurd (hbefore _ hmem) Bool.false_ne_true
  rw [evaluated, List.filterMap_append, List.filterMap_cons_some h, List.filterMap_nil,
    Session.runAll_append hcrashed, Session.runAll_single, evaluated]

theorem respondAll_cons {answer : String} {after : Session}
    (h : respond bound session line = (answer, some after)) (rest : List String) :
    respondAll bound session (line :: rest) = answer :: respondAll bound after rest := by
  rw [respondAll, h]

/-- Lines that end show, one after another, what they are answered by. -/
theorem conversation (h : session.Alongside (evaluated bound settings before))
    (hends : AllEnd bound (.new settings) (before ++ lines)) :
    Conversation bound settings before lines (respondAll bound session lines) := by
  induction lines generalizing session before with
  | nil => exact .nil
  | cons line rest ih =>
      obtain ⟨hbefore, hlines⟩ := allEnd_append.1 hends
      have hnext : AllEnd bound (.new settings) (before ++ [line] ++ rest) := by
        rwa [List.append_assoc]
      cases hprogram : program? line with
      | none =>
          obtain ⟨answer, hshows, hrespond, -⟩ := respond_skipped hprogram
          -- the session given the programs of the lines so far is the same with this line
          rw [← evaluated_skipped hprogram] at h
          rw [respondAll_cons (hrespond ..)]
          exact .cons (hshows ..) (ih h hnext)
      | some program =>
          obtain ⟨hended, -⟩ := (allEnd_program hprogram).1 hlines
          obtain ⟨printed, result, after, after', hprints, hrespond, hafter⟩ :=
            respond_alongside h hprogram (Result.isEnded_iff.1 hended).1
          have hsession : evaluated bound settings (before ++ [line]) = after' := by
            rw [evaluated_program hbefore hprogram, hprints.run]
          have hresult : result.isEnded = true := by
            rw [← hended]
            exact congrArg (fun ended => ended.1.isEnded) hprints.run.symm
          rw [respondAll_cons hrespond]
          exact .cons (.of_prints hprogram hprints hresult) (ih (hsession ▸ hafter) hnext)

/-- Within a larger bound lines that end are answered in the same way. -/
theorem respondAll_enough (hle : bound ≤ larger) (hends : AllEnd bound session lines) :
    respondAll larger session lines = respondAll bound session lines := by
  induction lines generalizing session with
  | nil => rfl
  | cons line rest ih =>
      obtain ⟨answer, after, hrespond, hrest, -⟩ := hends.first
      rw [respondAll_cons (hrespond larger hle), respondAll_cons (hrespond bound (Nat.le_refl _)),
        ih hrest]

/-- Where the programs print, all answers stand in order, each of them behind a prompt. -/
theorem serveAll_printed (h : session.Alongside whole) (hends : AllEnd bound session lines) :
    (serveAll bound whole lines).state.printed =
      whole.state.printed ++
        (String.join ((respondAll bound session lines).map (prompt ++ ·)) ++
          (prompt ++ "\n")) := by
  induction lines generalizing session whole with
  | nil => exact congrArg (whole.state.printed ++ ·) String.empty_append.symm
  | cons line rest ih =>
      obtain ⟨answer, after, hrespond, hrest, hserve⟩ := hends.first
      obtain ⟨hafter, hprinted⟩ := hserve _ (h.write prompt)
      rw [serveAll, ih hafter hrest, hprinted, respondAll_cons (hrespond bound (Nat.le_refl _)),
        List.map_cons, String.join_cons]
      simp only [Session.write, String.append_assoc]

/-- A line that is not evaluated takes its own answer away with it, and no other one. -/
theorem respondAll_eraseIdx {place : Nat} (h : lines[place]? = some line)
    (hskipped : program? line = none) :
    respondAll bound session (lines.eraseIdx place) =
      (respondAll bound session lines).eraseIdx place := by
  induction lines generalizing session place with
  | nil => cases h
  | cons first rest ih =>
      cases place with
      | zero =>
          obtain rfl : first = line := Option.some.inj h
          obtain ⟨answer, -, hrespond, -⟩ := respond_skipped hskipped
          rw [List.eraseIdx_cons_zero, respondAll_cons (hrespond ..), List.eraseIdx_cons_zero]
      | succ place =>
          rw [List.eraseIdx_cons_succ, respondAll, respondAll]
          rcases respond bound session first with ⟨answer, _ | after⟩
          · rfl
          · exact congrArg (answer :: ·) (ih h)

/-! ## Transcripts -/

/-- Lines that are encoded, and that end, are answered one after another, up to the last one. -/
theorem exchange_encode (hends : AllEnd bound session lines) :
    exchange bound session (lines.map Text.encode) =
      (String.join ((respondAll bound session lines).map (prompt ++ ·)) ++ (prompt ++ "\n"),
        .finished) := by
  induction lines generalizing session with
  | nil => exact congrArg (·, Ending.finished) String.empty_append.symm
  | cons line rest ih =>
      obtain ⟨answer, after, hrespond, hrest, -⟩ := hends.first
      have hanswer := hrespond bound (Nat.le_refl _)
      rw [List.map_cons, exchange, decode?_encode]
      dsimp only
      rw [hanswer]
      dsimp only
      rw [ih hrest, respondAll_cons hanswer, List.map_cons, String.join_cons]
      simp only [String.append_assoc]

theorem transcript_encode {text : String} (hlines : Text.CutsInto text lines)
    (hends : AllEnd bound (.new settings) lines) :
    transcript bound settings (Text.encode text) =
      written settings.sink (record (respondAll bound (.new settings) lines)) := by
  rw [transcript]
  cases settings.sink with
  | refusing reason => rfl
  | accepting =>
      dsimp only
      rw [lines_encode hlines, exchange_encode hends, written]
      simp only [record, String.append_assoc]

/-- An interactive session answers the lines of its input as a session does that is given nothing
but their programs. If all of these programs end, each line shows what its program prints and gives
in that session, after the programs of the lines before it, or its errors, or nothing if it is
blank. The transcript is made of these answers in order, up to the last line, if the output accepts
it, and the same text stands where the programs print if everything else is written there too.

Every line finds the session at the root and outside of all calls, whatever the lines before it have
come to, and a line that is not evaluated can be taken out of the input without a change to the
answers of the other lines. -/
theorem transcript_answers (settings : Settings) (text : String) :
    ∃ lines, Text.CutsInto text lines ∧
      (∀ others, Text.CutsInto text others → others = lines) ∧
      ∀ bound, AllEnd bound (.new settings) lines →
        (∀ before, before <+: lines →
          (evaluated bound settings before).state.environment = Store.root ∧
          (evaluated bound settings before).state.depth = 0) ∧
        ∃ answers, Conversation bound settings [] lines answers ∧
          ∀ larger, bound ≤ larger →
            transcript larger settings (Text.encode text) =
              written settings.sink (record answers) ∧
            (serveAll larger ((Session.new settings).write banner) lines).state.printed =
              record answers ∧
            ∀ place line, lines[place]? = some line → program? line = none →
              transcript larger settings (Text.encode (String.join (lines.eraseIdx place))) =
                written settings.sink (record (answers.eraseIdx place)) := by
  obtain ⟨lines, hlines⟩ := Text.CutsInto.exists_lines text
  refine ⟨lines, hlines, fun others hothers => hothers.unique hlines, fun bound hends => ?_⟩
  have hnew : (Session.new settings).Alongside (evaluated bound settings []) := ⟨rfl, rfl⟩
  refine ⟨fun before _ => (Session.Reached.new.runAll bound _).at_root,
    respondAll bound (.new settings) lines, conversation hnew hends, fun larger hle => ?_⟩
  have hlarger := hends.enough hle
  have hserved : (Session.new settings).Alongside ((Session.new settings).write banner) :=
    hnew.write banner
  rw [transcript_encode hlines hlarger, ← respondAll_enough hle hends]
  refine ⟨rfl, ?_, fun place line hline hskipped => ?_⟩
  · -- nothing was printed before the banner
    have hbanner : ((Session.new settings).write banner).state.printed = banner :=
      String.empty_append
    rw [serveAll_printed hserved hlarger, hbanner, record]
    simp only [String.append_assoc]
  · have herased : AllEnd larger (.new settings) (lines.eraseIdx place) := by
      rwa [AllEnd, filterMap_eraseIdx hline hskipped]
    rw [transcript_encode (hlines.eraseIdx place) herased, respondAll_eraseIdx hline hskipped]

end Repl

end Lines

namespace Repl

/-- Lines of a session that allows no calls: a binding, a blank line, a line with an error, a call,
a division by zero, and a line that still finds the binding. -/
def refusedCall : List String :=
  ["let a = 1" ++ "\n", "\u00a0" ++ "\n", "let" ++ "\n", "fn() \x7b a \x7d()" ++ "\n",
    "a / 0" ++ "\n", "print(a)"]

open scoped Host in
/-- The last line finds the binding of the first one, whatever went wrong in between. Without the
line that has an error the transcript is the same without its answer. -/
theorem transcript_answers_refusedCall :
    AllEnd 9 (.new ⟨0, .accepting⟩) refusedCall ∧
    (evaluated 9 ⟨0, .accepting⟩ (refusedCall.take 4)).state.depth = 0 ∧
    ∃ answers, Conversation 9 ⟨0, .accepting⟩ [] refusedCall answers ∧
      record answers =
        "FroLang REPL, type an expression and press enter. Ctrl-D exits.\n" ++
        ">> >> >> PARSE ERROR: [2:1] parse error: Expected next token to be IDENTIFIER, got EOF " ++
        "instead\n>> FATAL: [1:11] stack overflow: more than 0 nested calls\n" ++
        ">> ERROR: Division by zero\n>> 1\n>> \n" ∧
      transcript 9 ⟨0, .accepting⟩ (Text.encode (String.join (refusedCall.eraseIdx 2))) =
        (record (answers.eraseIdx 2), .finished) := by
  have hcut : Text.CutsInto _ refusedCall :=
    .ended (by decide) <| .ended (by decide) <| .ended (by decide) <| .ended (by decide) <|
      .ended (by decide) <| .unended (by decide) (by decide)
  have hends : AllEnd 9 (.new ⟨0, .accepting⟩) refusedCall := by decide +kernel
  obtain ⟨lines, hlines, hunique, hanswers⟩ :=
    transcript_answers ⟨0, .accepting⟩ (String.join refusedCall)
  obtain rfl : refusedCall = lines := hunique _ (hcut.join_eq ▸ hcut)
  obtain ⟨hroot, answers, hconversation, hsame⟩ := hanswers 9 hends
  obtain ⟨htranscript, -, herased⟩ := hsame 9 (Nat.le_refl _)
  have hskipped : program? ("let" ++ "\n") = none :=
    program?_eq_none.2 (.inr ⟨by decide, _, rfl⟩)
  refine ⟨hends, (hroot _ ⟨_, List.take_append_drop 4 _⟩).2, answers, hconversation, ?_,
    herased 2 _ rfl hskipped⟩
  refine (congrArg Prod.fst htranscript).symm.trans ?_
  decide +kernel

end Repl

end Script
