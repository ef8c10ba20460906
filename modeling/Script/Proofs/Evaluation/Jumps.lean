import Script.Proofs.Evaluation.Lockstep.Sound
import Script.Proofs.Evaluation.Termination
import Script.Proofs.Program.Enclosed

/-!
# Jumps stay in loops

A `break` or a `continue` ends the iteration of the loop that it stands in, and a call turns one
that leaves the body of the function into a fault. So the fault never occurs where all jumps stand
in loops: what a part of the code may end in depends on whether it stands in the body of a loop.
The discipline `Lockstep.enclosed` says so, also of the functions that are bound anywhere.
`jumps_stay_in_loops` collects what follows for whole sessions, and what holds of all programs.
-/

namespace Script

/-- Whether an interruption is a `break` or a `continue`. -/
def Interrupt.isJump : Interrupt → Bool
  | .broken _ | .continued _ => true
  | _ => false

/-- An outcome that is neither a `break` nor a `continue`. -/
def Evaluation.Stays {α : Type} (outcome : Except Interrupt α) : Prop :=
  ∀ cause, outcome = .error cause → cause.isJump = false

theorem Evaluation.Stays.ok {α : Type} (result : α) :
    Stays (.ok result : Except Interrupt α) := by
  rintro _ ⟨⟩

theorem Evaluation.Stays.error {α : Type} {cause : Interrupt} (h : cause.isJump = false) :
    Stays (.error cause : Except Interrupt α) := by
  rintro _ ⟨⟩
  exact h

/-- Evaluations in sequence. -/
theorem Evaluation.Stays.bind {α β : Type} {evaluation : Evaluation α} {next : α → Evaluation β}
    {state : State} (h : Stays (evaluation state).1)
    (hnext : ∀ result middle, evaluation state = (.ok result, middle) →
      Stays (next result middle).1) : Stays ((evaluation >>= next) state).1 := by
  rw [bind_apply]
  rcases heval : evaluation state with ⟨cause | result, middle⟩
  · rw [heval] at h
    exact .error (h cause rfl)
  · exact hnext result middle heval

/-! ## Programs whose jumps stand in loops -/

/-- Code whose jumps stand in loops, and no faults about others. -/
def Discipline.enclosed : Discipline where
  scope _ := True
  name _ := True
  expr inLoop expr := expr.enclosed inLoop = true
  statement inLoop statement := statement.enclosed inLoop = true
  literal literal := literal.enclosed = true
  fault fault := fault.isStray = false
  jumps inLoop := inLoop = true

/-- A run of such code beside itself. -/
def Lockstep.enclosed : Lockstep where
  toDiscipline := .enclosed
  stores store store' :=
    store' = store ∧ ∀ id, ∀ binding ∈ store.frame id, Discipline.enclosed.value binding.2
  printed printed printed' := printed' = printed

namespace Lockstep

theorem enclosed_lawful : enclosed.Lawful where
  expr {inLoop expr} h := by
    have h : expr.enclosed inLoop = true := h
    cases expr with
    | identifier | integer | float | boolean | string => trivial
    | array => exact Expr.enclosed_of_mem h
    | hash => exact Pair.enclosed_of_mem h
    | function | unary => exact h
    | assign => exact ⟨trivial, h⟩
    | binary | index =>
        rw [Expr.enclosed, Bool.and_eq_true] at h
        exact h
    | call =>
        rw [Expr.enclosed, Bool.and_eq_true] at h
        exact ⟨h.1, Expr.enclosed_of_mem h.2⟩
    | conditional =>
        rw [Expr.enclosed, Bool.and_eq_true, Bool.and_eq_true] at h
        exact ⟨h.1.1, Block.enclosed_statements h.1.2, Block.enclosed_of_option h.2⟩
  statement {inLoop statement} h := by
    have h : statement.enclosed inLoop = true := h
    cases statement with
    | letBinding => exact ⟨trivial, h⟩
    | returnValue | expression | breakLoop | continueLoop => exact h
    | forLoop =>
        rw [Statement.enclosed, Bool.and_eq_true] at h
        exact ⟨trivial, h.1, Block.enclosed_statements h.2⟩
    | whileLoop =>
        rw [Statement.enclosed, Bool.and_eq_true] at h
        exact ⟨h.1, Block.enclosed_statements h.2⟩
    | tryCatch =>
        rw [Statement.enclosed, Bool.and_eq_true, Bool.and_eq_true] at h
        exact ⟨Block.enclosed_statements h.1.1, trivial, Block.enclosed_statements h.1.2,
          Block.enclosed_of_option h.2⟩
  literal {literal} h := by
    cases literal
    exact ⟨fun _ _ => trivial, Block.enclosed_statements h⟩
  harmless := id
  stray := nofun
  find {store store' _ _} hstores _ _ := by
    obtain ⟨rfl, hbound⟩ : store' = store ∧ _ := hstores
    refine ⟨rfl, fun value hvalue => ?_⟩
    obtain ⟨id, -, hbinding⟩ := Store.exists_of_find? hvalue
    exact hbound id _ hbinding
  holder {store store' _ _} hstores _ _ := by
    obtain ⟨rfl, -⟩ : store' = store ∧ _ := hstores
    rfl
  put {store store' _ _ _ _} hstores _ _ _ hvalue := by
    obtain ⟨rfl, hbound⟩ : store' = store ∧ _ := hstores
    refine ⟨rfl, fun id binding hbinding => ?_⟩
    rcases Store.mem_frame_put hbinding with rfl | hbefore
    · exact hvalue
    · exact hbound id binding hbefore
  push {store store' _ _} hstores _ hframe := by
    obtain ⟨rfl, hbound⟩ : store' = store ∧ _ := hstores
    refine ⟨rfl, ⟨rfl, fun id binding hbinding => ?_⟩, trivial⟩
    rcases Store.mem_frame_push hbinding with hnew | hbefore
    · exact (hframe binding hnew).2
    · exact hbound id binding hbefore
  print {printed printed'} text hprinted := by
    obtain rfl : printed' = printed := hprinted
    rfl

/-- At the start of a session nothing is bound. -/
theorem enclosed_initial : enclosed.states .initial .initial := by
  refine ⟨⟨rfl, fun id binding hbinding => ?_⟩, rfl, trivial, rfl, rfl, rfl⟩
  obtain rfl : id = 0 := Nat.lt_one_iff.1 (Store.lt_of_mem_frame hbinding)
  exact absurd hbinding List.not_mem_nil

/-- Programs whose jumps stand in loops leave only functions of which this holds too. -/
theorem enclosed_runAll [Host] {programs : List Program}
    (h : ∀ program ∈ programs, program.enclosed = true) (bound : Nat) {session : Session}
    (hsession : enclosed.states session.state session.state) :
    enclosed.states (Session.runAll bound session programs).2.state
      (Session.runAll bound session programs).2.state := by
  induction programs generalizing session with
  | nil => exact hsession
  | cons program rest ih =>
      obtain ⟨hprogram, hrest⟩ := List.forall_mem_cons.1 h
      obtain ⟨-, hafter, -⟩ := enclosed_lawful.run trivial session.settings bound
        (Statement.enclosed_of_mem hprogram) hsession
      by_cases hcrashed : (Session.run bound session program).1 = .crashed
      · rw [Session.runAll_crashed hcrashed]
        exact hafter
      · rw [Session.runAll_cons hcrashed]
        exact ih hrest hafter

/-- Outside of a loop the discipline allows no jump. -/
theorem enclosed_stays {α : Type} {valid : α → Prop} {outcome : Except Interrupt α}
    (h : enclosed.outcome valid false outcome) : Evaluation.Stays outcome := by
  rintro cause rfl
  cases cause with
  | broken | continued => cases h
  | returned | raised | overflowed | crashed | exhausted => rfl

/-- An outcome of a run that has the discipline. -/
theorem Keeps.outcome {L : Lockstep} {α : Type} {valid : α → Prop} {inLoop : Bool}
    {evaluation : Evaluation α} {first second : State} (h : L.Keeps valid inLoop evaluation)
    (hstates : L.states first second) : L.outcome valid inLoop (evaluation first).1 := by
  have hends := h first second hstates
  generalize evaluation first = ended, evaluation second = ended' at hends
  cases hends with
  | intro houtcome _ => exact houtcome

end Lockstep

/-! ## All programs -/

namespace Evaluators

/-- A call ends in no return, and in no jump either. -/
theorem callFunction_stays (parts : Evaluators) (settings : Settings) (location : Location)
    (closure : Environment) (literal : FunctionLiteral) (arguments : List Value) (state : State) :
    let outcome := (parts.callFunction settings location closure literal arguments state).1
    Evaluation.Stays outcome ∧ ∀ value, outcome ≠ .error (.returned value) := by
  rw [callFunction_apply]
  split
  · split
    · exact ⟨.error rfl, nofun⟩
    · unfold Evaluation.settleCall
      generalize Evaluation.asCall _ _ = ended
      rcases ended with ⟨(_ | _ | _ | _ | _ | _ | _) | _, last⟩
      case error.returned | ok => exact ⟨.ok _, nofun⟩
      all_goals exact ⟨.error rfl, nofun⟩
  · exact ⟨.error rfl, nofun⟩

/-- What an iteration of a loop ends in is no jump. -/
theorem settleIteration_stays (body : Evaluation Value) (state : State) :
    Evaluation.Stays (Evaluation.settleIteration body state).1 := by
  unfold Evaluation.settleIteration
  rcases body state with ⟨(_ | _ | _ | _ | _ | _ | _) | _, last⟩
  case error.broken | error.continued | ok => exact .ok _
  all_goals exact .error rfl

/-- A loop over elements ends in no jump. -/
theorem forEach_stays (parts : Evaluators) (name : String) (body : Block) (elements : List Value)
    (state : State) : Evaluation.Stays (parts.forEach name body elements state).1 := by
  induction elements generalizing state with
  | nil => exact .ok _
  | cons element rest ih =>
      refine .bind (.ok _) fun _ middle _ => ?_
      refine .bind (settleIteration_stays _ _) fun goesOn last _ => ?_
      cases goesOn with
      | true => exact ih last
      | false => exact .ok _

/-- A loop with a condition ends in a jump only if its condition does, at the start of one of the
iterations. -/
theorem whileTrue_jump [Host] {settings : Settings} {count : Nat} {condition : Expr}
    {body : Block} {iterations : Nat} {state last : State} {cause : Interrupt}
    (h : (upTo settings count).whileTrue condition body iterations state = (.error cause, last))
    (hjump : cause.isJump = true) :
    ∃ earlier state', Reaches settings (.whileTrue condition body) state earlier
        (.whileTrue condition body) state' ∧
      (∀ outer ∈ earlier, outer = .whileTrue condition body) ∧
      Expr.evaluate settings count condition state' = (.error cause, last) := by
  induction iterations generalizing state with
  | zero =>
      cases h
      cases hjump
  | succ iterations ih =>
      rw [whileTrue, Evaluation.bind_apply] at h
      rcases heval : Expr.evaluate settings count condition state with ⟨_ | value, middle⟩
      · -- the condition itself is interrupted
        simp only [heval] at h
        cases h
        exact ⟨[], state, .here, List.forall_mem_nil _, heval⟩
      · simp only [heval] at h
        split at h
        · next htruthy =>
            rw [Evaluation.bind_apply] at h
            have hiteration := settleIteration_stays ((upTo settings count).block body) middle
            rcases hbody : Evaluation.settleIteration ((upTo settings count).block body) middle with
              ⟨_ | goesOn, next⟩
            · simp only [hbody] at h hiteration
              cases h
              rw [hiteration _ rfl] at hjump
              cases hjump
            · simp only [hbody] at h
              cases goesOn with
              | true =>
                  obtain ⟨earlier, state', hreaches, hearlier, hstate'⟩ := ih h
                  have hfirst : Reaches settings (.whileTrue condition body) state _ _ next :=
                    .starts .here (.nextTest heval htruthy hbody)
                  refine ⟨_, state', hfirst.trans hreaches, ?_, hstate'⟩
                  exact List.forall_mem_append.2 ⟨hearlier, List.forall_mem_singleton.2 rfl⟩
              | false => cases h
        · cases h

end Evaluators

/-! ## Sessions -/

/-- Jumps stay in loops. In a session of programs whose jumps all stand in loops, neither a program
nor the body of a function that is called in its course ever ends in a `break` or a `continue`. The
fault about a jump outside of all loops is never raised, and is never the result of a program. Of
all programs it is true that the call of a function ends in no return and in no jump, and that a
jump in the body of a loop does not leave the loop: one with a condition ends in a jump only if its
condition does, at the start of one of the iterations. -/
theorem jumps_stay_in_loops [Host] (settings : Settings) :
    (∀ (bound : Nat) (programs : List Program) (program : Program),
      (∀ earlier ∈ programs, earlier.enclosed = true) → program.enclosed = true →
        let start := (Session.runAll bound (.new settings) programs).2.state
        let whole := Task.statements .null program.statements
        (∀ count, Evaluation.Stays
          (Statement.executeAll settings count program.statements start).1) ∧
        (∀ enclosing location identity closure literal arguments state inner,
          Reaches settings whole start enclosing
            (.call location (.function identity closure literal) arguments) state →
          Starts settings (.call location (.function identity closure literal) arguments) state
            (.block literal.body) inner →
          ∀ count, Evaluation.Stays
            ((Evaluators.upTo settings count).block literal.body inner).1) ∧
        (∀ enclosing task state, Reaches settings whole start enclosing task state →
          ∀ count fault last,
            task.evaluate settings count state = (.error (.raised fault), last) →
              fault.isStray = false) ∧
        ∀ count identity fault, (Session.run count ⟨settings, start⟩ program).1 =
          .value (.error identity fault) → fault.isStray = false) ∧
    (∀ count location identity closure literal arguments state,
      let outcome := ((Evaluators.upTo settings count).call settings location
        (.function identity closure literal) arguments state).1
      Evaluation.Stays outcome ∧ ∀ value, outcome ≠ .error (.returned value)) ∧
    (∀ count name body elements state,
      Evaluation.Stays ((Evaluators.upTo settings count).forEach name body elements state).1) ∧
    ∀ count condition body state cause last,
      (Evaluators.upTo settings count).whileTrue condition body count state =
          (.error cause, last) →
        cause.isJump = true →
        ∃ earlier state', Reaches settings (.whileTrue condition body) state earlier
            (.whileTrue condition body) state' ∧
          (∀ outer ∈ earlier, outer = .whileTrue condition body) ∧
          Expr.evaluate settings count condition state' = (.error cause, last) := by
  have hlawful := Lockstep.enclosed_lawful
  refine ⟨fun bound programs program hprograms hprogram => ?_,
    fun count location identity closure literal arguments state =>
      Evaluators.callFunction_stays _ settings location closure literal arguments state,
    fun count => Evaluators.forEach_stays _,
    fun count condition body state cause last => Evaluators.whileTrue_jump⟩
  intro start whole
  have hstart : Lockstep.enclosed.states start start :=
    Lockstep.enclosed_runAll hprograms bound
      (show Lockstep.enclosed.states (Session.new settings).state _ from Lockstep.enclosed_initial)
  have hstatements := Statement.enclosed_of_mem hprogram
  have hwhole : Lockstep.enclosed.task false whole :=
    ⟨Discipline.value_plain rfl, hstatements⟩
  refine ⟨fun count => ?_, ?_, ?_, fun count identity fault hresult => ?_⟩
  · exact Lockstep.enclosed_stays ((hlawful.executeAll settings count hstatements).outcome hstart)
  · intro enclosing location identity closure literal arguments state inner hreaches hstarts count
    obtain ⟨_, -, hstate, _, hcall⟩ := hlawful.reaches hreaches hstart hwhole
    obtain ⟨_, -, hinner, -⟩ := hlawful.starts hstarts hstate hcall
    obtain ⟨-, hliteral⟩ := Discipline.value_function.1 hcall.1
    have hbody := Lockstep.Lawful.block (hlawful.sound settings count) (hlawful.literal hliteral).2
    exact Lockstep.enclosed_stays (hbody.outcome hinner)
  · intro enclosing task state hreaches count fault last heval
    obtain ⟨_, -, hstate, _, htask⟩ := hlawful.reaches hreaches hstart hwhole
    have houtcome := (hlawful.task settings count htask).outcome hstate
    rw [heval] at houtcome
    exact houtcome
  · have hresults := (hlawful.run trivial settings count hstatements hstart).2.2
    exact Discipline.value_error.1 (hresults _ hresult)

/-- A program with a function that leaves a loop by a `break` inside of a conditional, and a second
one that calls it. -/
def breakingSearch : Program × Program :=
  let place : Location := ⟨1, 1⟩
  let name (text : String) : Identifier := ⟨text, place⟩
  let block (statements : List Statement) : Block := ⟨⟨.mark .leftBrace, place⟩, statements⟩
  let found : Statement := .expression ⟨.word .ifWord, place⟩
    (.conditional place (.identifier (name "item")) (block [.breakLoop place]) none)
  let search : FunctionLiteral := ⟨place, some "search", [name "items"],
    block [.forLoop place (name "item") (.identifier (name "items")) (block [found])]⟩
  (⟨[.letBinding place (name "search") (.function search)]⟩,
    ⟨[.expression (name "search").token (.call place (.identifier (name "search"))
      [.array place [.boolean place false, .boolean place true]])]⟩)

open scoped Host in
theorem jumps_stay_in_loops_breakingSearch :
    breakingSearch.1.enclosed = true ∧ breakingSearch.2.enclosed = true ∧
      let start := (Session.runAll 9 (.new .standard) [breakingSearch.1]).2.state
      (Session.run 9 ⟨.standard, start⟩ breakingSearch.2).1 = .value .null ∧
        ∀ count, Evaluation.Stays
          (Statement.executeAll .standard count breakingSearch.2.statements start).1 := by
  have hfirst : breakingSearch.1.enclosed = true := by decide
  have hsecond : breakingSearch.2.enclosed = true := by decide
  exact ⟨hfirst, hsecond, rfl, ((jumps_stay_in_loops .standard).1 9 [breakingSearch.1]
    breakingSearch.2 (List.forall_mem_singleton.2 hfirst) hsecond).1⟩

end Script
