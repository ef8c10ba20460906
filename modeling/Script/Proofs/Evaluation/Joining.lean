import Script.Proofs.Evaluation.Bound
import Script.Proofs.Evaluation.Lockstep.Sound

/-!
# Programs one after another

A session hands nothing from one program to the next one but the state: bindings stay, and the text
printed so far is dropped. So programs that end normally one after another come to the same as a
single program of all their statements: `Session.programs_join`. Text that was printed before an
evaluation makes no difference to it, since two runs that differ in it go on in lockstep.
-/

namespace Script

namespace State

/-- The state without the text printed so far. -/
def silenced (state : State) : State := { state with printed := "" }

/-- The state with the given text printed before its own. -/
def printedAfter (text : String) (state : State) : State :=
  { state with printed := text ++ state.printed }

theorem printedAfter_empty (state : State) : state.printedAfter "" = state := by
  show { state with printed := "" ++ state.printed } = state
  rw [String.empty_append]

theorem printedAfter_append (text more : String) (state : State) :
    state.printedAfter (text ++ more) = (state.printedAfter more).printedAfter text := by
  show { state with printed := text ++ more ++ state.printed } =
    { state with printed := text ++ (more ++ state.printed) }
  rw [String.append_assoc]

theorem printedAfter_silenced (state : State) :
    state.silenced.printedAfter state.printed = state := by
  show { state with printed := state.printed ++ "" } = state
  rw [String.append_empty]

end State

/-! ## Text printed before -/

/-- Two runs of any code, of which the second one started after some text was printed. -/
def Lockstep.printedAfter (text : String) : Lockstep where
  scope _ := True
  name _ := True
  expr _ _ := True
  statement _ _ := True
  literal _ := True
  fault _ := True
  jumps _ := True
  stores store store' := store' = store
  printed printed printed' := printed' = text ++ printed

namespace Lockstep

variable {text : String}

theorem printedAfter_value (value : Value) : (printedAfter text).value value := by
  intro atom _
  cases atom with
  | function => exact ⟨trivial, trivial⟩
  | integer | float | string | boolean | array | hash | null | builtin | error => trivial

theorem printedAfter_block (inLoop : Bool) (block : Block) :
    (printedAfter text).block inLoop block :=
  fun _ _ => trivial

theorem printedAfter_lawful (text : String) : (printedAfter text).Lawful where
  expr {_ expr} _ := by
    cases expr with
    | identifier | integer | float | boolean | string | function | unary => trivial
    | array => exact fun _ _ => trivial
    | hash => exact fun _ _ => ⟨trivial, trivial⟩
    | binary | assign | index => exact ⟨trivial, trivial⟩
    | call => exact ⟨trivial, fun _ _ => trivial⟩
    | conditional =>
        exact ⟨trivial, printedAfter_block _ _, fun block _ => printedAfter_block _ block⟩
  statement {_ statement} _ := by
    cases statement with
    | returnValue | expression | breakLoop | continueLoop => trivial
    | letBinding => exact ⟨trivial, trivial⟩
    | forLoop => exact ⟨trivial, trivial, printedAfter_block _ _⟩
    | whileLoop => exact ⟨trivial, printedAfter_block _ _⟩
    | tryCatch =>
        exact ⟨printedAfter_block _ _, trivial, printedAfter_block _ _,
          fun block _ => printedAfter_block _ block⟩
  literal _ := ⟨fun _ _ => trivial, printedAfter_block _ _⟩
  harmless _ := trivial
  stray _ := trivial
  find hstores _ _ := by
    obtain rfl : _ = _ := hstores
    exact ⟨rfl, fun value _ => printedAfter_value value⟩
  holder hstores _ _ := by
    obtain rfl : _ = _ := hstores
    rfl
  put hstores _ _ _ _ := by
    obtain rfl : _ = _ := hstores
    rfl
  push hstores _ _ := by
    obtain rfl : _ = _ := hstores
    exact ⟨rfl, rfl, trivial⟩
  print {printed _} more hprinted := by
    obtain rfl : _ = text ++ printed := hprinted
    exact String.append_assoc

end Lockstep

/-- Text printed before stays in front of what statements print, and changes nothing else. -/
theorem Statement.executeAll_printedAfter [Host] (settings : Settings) (count : Nat)
    (statements : List Statement) (text : String) (state : State) :
    Statement.executeAll settings count statements (state.printedAfter text) =
      ((Statement.executeAll settings count statements state).1,
        (Statement.executeAll settings count statements state).2.printedAfter text) := by
  have hkeeps : (Lockstep.printedAfter text).Keeps _ true _ :=
    (Lockstep.printedAfter_lawful text).executeAll settings count fun statement
      (_ : statement ∈ statements) => trivial
  have hends := hkeeps state (state.printedAfter text) ⟨rfl, rfl, trivial, rfl, rfl, rfl⟩
  generalize Statement.executeAll settings count statements state = ended,
    Statement.executeAll settings count statements (state.printedAfter text) = ended' at hends ⊢
  cases hends with
  | @intro outcome last last' _ hlast =>
      obtain ⟨hstore, hprinted, -, henvironment, hdepth, hidentities⟩ := hlast
      obtain ⟨store, environment, depth, identities, printed⟩ := last'
      obtain rfl : store = last.store := hstore
      obtain rfl : environment = last.environment := henvironment
      obtain rfl : depth = last.depth := hdepth
      obtain rfl : identities = last.identities := hidentities
      obtain rfl : printed = text ++ last.printed := hprinted
      rfl

/-- A program concludes in the same way after some text was printed. -/
theorem Session.run_printedAfter [Host] {settings : Settings} {bound : Nat}
    {program program' : Program} {text : String} {state state' : State}
    (h : Statement.executeAll settings bound program'.statements state' =
      ((Statement.executeAll settings bound program.statements state).1,
        (Statement.executeAll settings bound program.statements state).2.printedAfter text)) :
    Session.run bound ⟨settings, state'⟩ program' =
      ((Session.run bound ⟨settings, state⟩ program).1,
        ⟨settings, (Session.run bound ⟨settings, state⟩ program).2.state.printedAfter text⟩) := by
  simp only [Session.run, h]
  generalize Statement.executeAll settings bound program.statements state = ended
  obtain ⟨outcome, last⟩ := ended
  cases outcome with
  | ok value => rfl
  | error cause => cases cause <;> rfl

/-! ## Statements one after another -/

/-- Statements give the value of their last one, whatever came before them. -/
theorem Evaluators.statements_of_ne_nil {statements : List Statement} (h : statements ≠ [])
    (parts : Evaluators) (last last' : Value) :
    parts.statements last statements = parts.statements last' statements := by
  cases statements with
  | nil => exact absurd rfl h
  | cons => rfl

/-- Statements in front of others. -/
theorem Evaluators.statements_append (parts : Evaluators) (last : Value)
    (first second : List Statement) :
    parts.statements last (first ++ second) =
      (do let value ← parts.statements last first; parts.statements value second) := by
  induction first generalizing last with
  | nil => rfl
  | cons statement rest ih =>
      show (do let value ← parts.statement statement; parts.statements value (rest ++ second)) =
        (parts.statement statement >>= fun value => parts.statements value rest) >>= _
      rw [bind_assoc]
      exact congrArg _ (funext ih)

section Programs

variable [Host]

/-- Where the first statements come to their end, the others start. -/
theorem Statement.executeAll_append {settings : Settings} {count : Nat}
    {first second : List Statement} {state middle : State} {value : Value}
    (hfirst : Statement.executeAll settings count first state = (.ok value, middle))
    (hsecond : second ≠ []) :
    Statement.executeAll settings count (first ++ second) state =
      Statement.executeAll settings count second middle := by
  unfold Statement.executeAll at hfirst ⊢
  rw [Evaluators.statements_append, Evaluation.bind_apply, hfirst]
  exact congrFun (Evaluators.statements_of_ne_nil hsecond _ value .null) middle

/-! ## Programs one after another -/

/-- One program of all statements of several ones, in order. -/
def Program.join (programs : List Program) : Program :=
  ⟨programs.flatMap Program.statements⟩

namespace Session

/-- Programs that are evaluated one after another and end normally: each comes to the end of its
statements, without an uncaught error, without a `return`, `break` or `continue` outside of all
functions and loops, and without an abort. The texts are what each of them prints. -/
inductive Completes (settings : Settings) : State → List Program → List String → State → Prop where
  | nil {state : State} : Completes settings state [] [] state
  | cons {state last : State} {program : Program} {rest : List Program} {texts : List String}
      {bound : Nat} {value : Value} :
    (Statement.executeAll settings bound program.statements state.silenced).1 = .ok value →
    Completes settings (run bound ⟨settings, state.silenced⟩ program).2.state rest texts last →
    Completes settings state (program :: rest)
      ((run bound ⟨settings, state.silenced⟩ program).2.state.printed :: texts) last

/-- A program that comes to the end of its statements leaves what they leave. -/
theorem run_of_ok {settings : Settings} {bound : Nat} {state : State} {program : Program}
    {value : Value}
    (h : (Statement.executeAll settings bound program.statements state).1 = .ok value) :
    (run bound ⟨settings, state⟩ program).2.state =
      (Statement.executeAll settings bound program.statements state).2 := by
  unfold run
  generalize Statement.executeAll settings bound program.statements state = ended at h ⊢
  obtain ⟨outcome, last⟩ := ended
  obtain rfl : outcome = .ok value := h
  rfl

/-- Statements behind programs that end normally run as they do after these programs. -/
theorem Completes.executeAll {settings : Settings} {state middle : State} {programs : List Program}
    {texts : List String} (h : Completes settings state programs texts middle)
    {statements : List Statement} (hstatements : statements ≠ []) :
    ∃ enough, ∀ bound, enough ≤ bound →
      Statement.executeAll settings bound (programs.flatMap Program.statements ++ statements)
          state.silenced =
        ((Statement.executeAll settings bound statements middle.silenced).1,
          (Statement.executeAll settings bound statements middle.silenced).2.printedAfter
            (String.join texts)) := by
  induction h with
  | nil =>
      refine ⟨0, fun bound _ => ?_⟩
      rw [String.join_nil, State.printedAfter_empty]
      rfl
  | @cons state last program rest texts ownBound value hvalue _ ih =>
      obtain ⟨enough, ih⟩ := ih
      refine ⟨max ownBound enough, fun bound hbound => ?_⟩
      rw [run_of_ok hvalue] at ih ⊢
      obtain ⟨next, heval⟩ : ∃ next, Statement.executeAll settings ownBound program.statements
          state.silenced = (.ok value, next) := ⟨_, Prod.ext hvalue rfl⟩
      -- the bound is also large enough for the first program
      have hlarger : Statement.executeAll settings bound program.statements state.silenced =
          (.ok value, next) := by
        have hle : ownBound ≤ bound := by omega
        rw [Statement.executeAll_enough hle (by rw [heval]; nofun), heval]
      have hrest : rest.flatMap Program.statements ++ statements ≠ [] :=
        List.append_ne_nil_of_right_ne_nil _ hstatements
      rw [heval] at ih ⊢
      rw [List.flatMap_cons, List.append_assoc, Statement.executeAll_append hlarger hrest,
        ← State.printedAfter_silenced next, Statement.executeAll_printedAfter, ih bound (by omega)]
      dsimp only
      rw [State.printedAfter_silenced, String.join_cons, State.printedAfter_append]

/-- Evaluating programs one after another comes to the same as evaluating one program of all their
statements. Let all programs but the last one end normally, from any state, and let the last one
have statements. Then under all bounds that are large enough the single program gives the result of
the last one, leaves the same state, with all bindings of all environments, and prints what all of
them printed. It never ends exactly when the last one never does, and is aborted exactly when the
last one is. -/
theorem programs_join {settings : Settings} {state middle : State} {programs : List Program}
    {texts : List String} {last : Program}
    (h : Completes settings state programs texts middle) (hlast : last.statements ≠ []) :
    let whole bound := run bound ⟨settings, state.silenced⟩ (.join (programs ++ [last]))
    let final bound := run bound ⟨settings, middle.silenced⟩ last
    (∃ enough, ∀ bound, enough ≤ bound →
      whole bound =
        ((final bound).1, ⟨settings, (final bound).2.state.printedAfter (String.join texts)⟩)) ∧
    ((∀ bound, (whole bound).1 = .exhausted) ↔ ∀ bound, (final bound).1 = .exhausted) ∧
    ∀ overflow, (∃ bound, (whole bound).1 = .aborted overflow) ↔
      ∃ bound, (final bound).1 = .aborted overflow := by
  intro whole final
  obtain ⟨enough, hstatements⟩ := h.executeAll hlast
  have hsame : ∀ bound, enough ≤ bound → whole bound =
      ((final bound).1, ⟨settings, (final bound).2.state.printedAfter (String.join texts)⟩) := by
    intro bound hbound
    refine run_printedAfter ?_
    rw [← hstatements bound hbound]
    simp [Program.join]
  -- a run that ends within some bound ends in the same way within one that is large enough
  have hresult (bound : Nat) : (whole (max bound enough)).1 = (final (max bound enough)).1 := by
    rw [hsame _ (Nat.le_max_right ..)]
  have hwhole {bound : Nat} (hends : (whole bound).1 ≠ .exhausted) :
      (final (max bound enough)).1 = (whole bound).1 := by
    rw [← hresult, show whole (max bound enough) = whole bound from
      run_enough (Nat.le_max_left ..) hends]
  have hfinal {bound : Nat} (hends : (final bound).1 ≠ .exhausted) :
      (whole (max bound enough)).1 = (final bound).1 := by
    rw [hresult, show final (max bound enough) = final bound from
      run_enough (Nat.le_max_left ..) hends]
  refine ⟨⟨enough, hsame⟩, ⟨fun hnever bound => ?_, fun hnever bound => ?_⟩,
    fun overflow => ⟨fun ⟨bound, haborted⟩ => ?_, fun ⟨bound, haborted⟩ => ?_⟩⟩
  · by_contra hends
    exact hends ((hfinal hends).symm.trans (hnever _))
  · by_contra hends
    exact hends ((hwhole hends).symm.trans (hnever _))
  · exact ⟨_, (hwhole (by rw [haborted]; nofun)).trans haborted⟩
  · exact ⟨_, (hfinal (by rw [haborted]; nofun)).trans haborted⟩

end Session

end Programs

namespace Session

/-- A program with a function that changes and prints a binding, a second one that calls it, and a
third one that reads the binding. -/
def sharedBinding : List Program × Program :=
  let place : Location := ⟨1, 1⟩
  let name (text : String) : Identifier := ⟨text, place⟩
  let statement (value : Expr) : Statement := .expression ⟨.mark .semicolon, place⟩ value
  let call (callee : String) (argument : Expr) : Statement :=
    statement (.call place (.identifier (name callee)) [argument])
  let keep : FunctionLiteral := ⟨place, some "keep", [name "value"], ⟨⟨.mark .leftBrace, place⟩,
    [statement (.assign place (name "kept") (.identifier (name "value"))),
      call "print" (.identifier (name "kept"))]⟩⟩
  ([⟨[.letBinding place (name "kept") (.boolean place false),
      .letBinding place (name "keep") (.function keep)]⟩,
    ⟨[call "keep" (.boolean place true)]⟩],
    ⟨[statement (.identifier (name "kept"))]⟩)

open scoped Host in
/-- The single program gives and prints what the three programs do. -/
theorem programs_join_sharedBinding :
    (∃ middle, Completes .standard .initial sharedBinding.1 ["", "true\n"] middle) ∧
      sharedBinding.2.statements ≠ [] ∧
      ∃ enough, ∀ bound, enough ≤ bound →
        let ended := run bound (.new .standard) (.join (sharedBinding.1 ++ [sharedBinding.2]))
        ended.1 = .value (.boolean true) ∧ ended.2.state.printed = "true\n" := by
  obtain ⟨middle, after, hcompletes, hfinal, hprinted⟩ : ∃ middle after,
      Completes .standard .initial sharedBinding.1 ["", "true\n"] middle ∧
        run 9 ⟨.standard, middle.silenced⟩ sharedBinding.2 =
          (.value (.boolean true), ⟨.standard, after⟩) ∧ after.printed = "" :=
    ⟨_, _, @Completes.cons _ _ _ _ _ _ _ 9 _ rfl (@Completes.cons _ _ _ _ _ _ _ 9 _ rfl .nil),
      rfl, rfl⟩
  have hlast : sharedBinding.2.statements ≠ [] := List.cons_ne_nil _ _
  obtain ⟨⟨enough, hsame⟩, -⟩ := programs_join hcompletes hlast
  refine ⟨⟨middle, hcompletes⟩, hlast, max 9 enough, fun bound hbound => ?_⟩
  have hended := hsame bound (by omega)
  have hthird : run bound ⟨.standard, middle.silenced⟩ sharedBinding.2 = _ :=
    run_enough (by omega : 9 ≤ bound) (by rw [hfinal]; nofun)
  dsimp only at hended
  rw [hthird, hfinal] at hended
  refine ⟨congrArg Prod.fst hended, (congrArg (·.2.state.printed) hended).trans ?_⟩
  show String.join ["", "true\n"] ++ after.printed = "true\n"
  rw [hprinted]
  rfl

end Session

end Script
