import Script.Proofs.Evaluation.Parts

/-!
# How failures end an evaluation

A raised fault ends every construct around it but a `try` statement, and an abort or a crash ends
all constructs around it: the construct starts no further part, and only its own environment and
call depth come back. `failures_pass_on` collects this, with what a `try` statement does about a
fault in each of its three blocks.
-/

namespace Script

open Filter Evaluation

/-- The interruptions that a program cannot use to direct its course: faults, aborts and crashes. -/
def Interrupt.isFailure : Interrupt → Bool
  | .raised _ | .overflowed _ | .crashed => true
  | .returned _ | .broken _ | .continued _ | .exhausted => false

/-- The failures that no `try` statement can stop: aborts and crashes. -/
def Interrupt.isFatal : Interrupt → Bool
  | .overflowed _ | .crashed => true
  | .returned _ | .broken _ | .continued _ | .raised _ | .exhausted => false

theorem Interrupt.isFailure_of_isFatal {cause : Interrupt} (h : cause.isFatal = true) :
    cause.isFailure = true := by
  cases cause with
  | overflowed | crashed => rfl
  | returned | broken | continued | raised | exhausted => cases h

theorem Interrupt.ne_exhausted_of_isFailure {cause : Interrupt} (h : cause.isFailure = true) :
    cause ≠ .exhausted := by
  rintro rfl
  cases h

/-- Whether a task is a `try` statement. -/
def Task.isTry : Task → Bool
  | .statement (.tryCatch ..) => true
  | _ => false

/-- A later state in the environment and at the depth of an earlier one. Bindings and printed text
are those of the later state. -/
def State.backTo (last earlier : State) : State :=
  { last with environment := earlier.environment, depth := earlier.depth }

namespace Evaluation

variable {α : Type} {state last : State} {cause : Interrupt}

/-- A failure aborts an evaluation if it is fatal. -/
theorem aborts_iff_isFatal {outcome : Except Interrupt α} :
    aborts outcome = true ↔ (∃ cause, outcome = .error cause ∧ cause.isFatal = true) ∨
      outcome = .error .exhausted := by
  rcases outcome with (_ | _ | _ | _ | _ | _ | _) | _ <;> simp [aborts, Interrupt.isFatal]

/-- What is made of a value does not matter to an abort. -/
theorem aborts_map {β : Type} (make : α → β) (outcome : Except Interrupt α) :
    aborts (outcome.map make) = aborts outcome := by
  rcases outcome with (_ | _ | _ | _ | _ | _ | _) | _ <;> rfl

/-- An iteration that fails is no ordinary end of a loop. -/
theorem settleIteration_failed {body : Evaluation Value} (hcause : cause.isFailure = true)
    (h : body state = (.error cause, last)) :
    settleIteration body state = (.error cause, last) := by
  rw [settleIteration, h]
  cases cause with
  | raised | overflowed | crashed => rfl
  | returned | broken | continued | exhausted => cases hcause

/-- A call whose body fails does so in the same way. -/
theorem settleCall_failed {body : Evaluation Value} (hcause : cause.isFailure = true)
    (h : body state = (.error cause, last)) : settleCall body state = (.error cause, last) := by
  rw [settleCall, h]
  cases cause with
  | raised | overflowed | crashed => rfl
  | returned | broken | continued | exhausted => cases hcause

/-- What is evaluated under a new frame comes back to the environment before. -/
theorem withChildFrame_apply (frame : Frame) (body : Evaluation α) (state : State) :
    withChildFrame frame body state =
      restore state.environment (body (state.enter state.environment frame)) := rfl

/-- A function body comes back to the environment and the depth of its call. -/
theorem asCall_apply (closure : Environment) (frame : Frame) (body : Evaluation α) (state : State) :
    asCall (withFrame closure frame body) state =
      let ended := body (State.enter { state with depth := state.depth + 1 } closure frame)
      (ended.1, { ended.2 with environment := state.environment, depth := ended.2.depth - 1 }) :=
  rfl

end Evaluation

variable [Host]

namespace Task

variable {settings : Settings} {task part : Task} {state state' : State} {cause : Interrupt}

/-- A task that has come to an end is where it started. -/
theorem Ends.backTo_eq {outcome : Except Interrupt (List Value)} {last : State}
    (h : task.Ends settings state outcome last) : last.backTo state = last := by
  obtain ⟨-, count, heval⟩ := h
  have hrestores := task.restores settings count state
  rw [heval] at hrestores
  unfold State.backTo
  rw [← hrestores.1, ← hrestores.2]

/-- When the part ends in the given interruption, so does the task, which starts nothing more and
changes nothing more. -/
def PassesOn (settings : Settings) (cause : Interrupt) (task : Task) (state : State) (part : Task)
    (state' : State) : Prop :=
  ∀ last, part.Ends settings state' (.error cause) last →
    task.Ends settings state (.error cause) (last.backTo state) ∧
      task.EndsWith settings state part state'

/-- It is enough to look at bounds that are large enough, and at states up to the position that
every task comes back to. -/
theorem PassesOn.of_eventually (hcause : cause ≠ .exhausted)
    (h : ∀ last, part.Ends settings state' (.error cause) last → ∀ᶠ count in atTop,
      (∃ bound final, task.evaluate settings bound state = (.error cause, final) ∧
        final.backTo state = last.backTo state) ∧
      (task.parts settings count state).getLast? = some (part, state')) :
    task.PassesOn settings cause state part state' := by
  intro last hpart
  have hcourse := h last hpart
  obtain ⟨_, ⟨bound, final, heval, hfinal⟩, -⟩ := hcourse.exists
  have hends : task.Ends settings state (.error cause) final :=
    ⟨fun heq => hcause (Except.error.inj heq), bound, heval⟩
  rw [← hfinal, hends.backTo_eq]
  exact ⟨hends, hcourse.mono fun _ h => h.2⟩

end Task

/-! ## Loops, calls and `try` statements -/

namespace Starts

variable {settings : Settings} {task part : Task} {state state' : State} {cause : Interrupt}

/-- From the operands of an expression. -/
theorem expr_passesOn {expr : Expr} (h : Starts settings (.expr expr) state part state')
    (hcause : cause ≠ .exhausted) :
    (Task.expr expr).PassesOn settings cause state part state' := by
  refine .of_eventually hcause fun last hpart => ?_
  cases h with
  | array | hash =>
      filter_upwards [hpart.eventually] with count hpart
      simp only [Task.evaluate, mapped_error_iff] at hpart
      refine ⟨⟨count + 1, last, ?_, rfl⟩, rfl⟩
      simp [Task.evaluate, Expr.evaluate, Evaluators.evaluate, bind_apply, hpart]
  | operand | left | assigned | collection | callee | condition =>
      filter_upwards [hpart.eventually] with count hpart
      simp only [Task.evaluate, mapped_error_iff] at hpart
      refine ⟨⟨count + 1, last, ?_, rfl⟩, ?_⟩
      · simp [Task.evaluate, Expr.evaluate, Evaluators.evaluate, bind_apply, hpart]
      · simp [Task.parts, onward, hpart]
  | right heval | place heval | arguments heval =>
      filter_upwards [hpart.eventually, (Expr.steady _ _).ok heval] with count hpart heval
      simp only [Task.evaluate, mapped_error_iff] at hpart
      refine ⟨⟨count + 1, last, ?_, rfl⟩, ?_⟩
      · simp [Task.evaluate, Expr.evaluate, Evaluators.evaluate, bind_apply, heval, hpart]
      · simp [Task.parts, onward, heval, hpart]
  | apply hcallee harguments =>
      filter_upwards [hpart.eventually, (Expr.steady _ _).ok hcallee,
        (Task.steady _ (.exprs _)).ok harguments] with count hpart hcallee harguments
      simp only [Task.evaluate, mapped_error_iff] at hpart harguments
      refine ⟨⟨count + 1, last, ?_, rfl⟩, ?_⟩
      · simp [Task.evaluate, Expr.evaluate, Evaluators.evaluate, bind_apply, hcallee, harguments,
          hpart]
      · simp [Task.parts, onward, hcallee, harguments]
  | consequence heval htruthy | alternative heval htruthy =>
      filter_upwards [hpart.eventually, (Expr.steady _ _).ok heval] with count hpart heval
      simp only [Task.evaluate, mapped_error_iff] at hpart
      refine ⟨⟨count + 1, last, ?_, rfl⟩, ?_⟩
      · simp [Task.evaluate, Expr.evaluate, Evaluators.evaluate, Evaluators.block, bind_apply,
          heval, htruthy, hpart]
      · simp [Task.parts, onward, heval, htruthy]

/-- From the elements of a list of expressions, or of the pairs of a hash. -/
theorem list_passesOn {list : List Expr} (h : Starts settings (.exprs list) state part state')
    (hcause : cause ≠ .exhausted) :
    (Task.exprs list).PassesOn settings cause state part state' := by
  refine .of_eventually hcause fun last hpart => ?_
  cases h with
  | firstExpr =>
      filter_upwards [hpart.eventually] with count hpart
      simp only [Task.evaluate, mapped_error_iff] at hpart
      refine ⟨⟨count, last, ?_, rfl⟩, ?_⟩
      · simp only [Task.evaluate, Evaluators.exprs, bind_apply, hpart]
      · simp [Task.parts, onward, hpart]
  | restExprs heval =>
      filter_upwards [hpart.eventually, (Expr.steady _ _).ok heval] with count hpart heval
      simp only [Task.evaluate] at hpart
      refine ⟨⟨count, last, ?_, rfl⟩, ?_⟩
      · simp only [Task.evaluate, Evaluators.exprs, bind_apply, heval, hpart]
      · simp [Task.parts, onward, heval]

theorem pairs_passesOn {entries : List Entry} {list : List Pair}
    (h : Starts settings (.pairs entries list) state part state')
    (hcause : cause ≠ .exhausted) :
    (Task.pairs entries list).PassesOn settings cause state part state' := by
  refine .of_eventually hcause fun last hpart => ?_
  cases h with
  | key =>
      filter_upwards [hpart.eventually] with count hpart
      simp only [Task.evaluate, mapped_error_iff] at hpart
      refine ⟨⟨count, last, ?_, rfl⟩, ?_⟩
      · simp only [Task.evaluate, Evaluators.pairs, bind_apply, hpart]
      · simp [Task.parts, onward, hpart]
  | filed heval hkey =>
      obtain ⟨hashKey, hkey⟩ := Option.isSome_iff_exists.1 hkey
      filter_upwards [hpart.eventually, (Expr.steady _ _).ok heval] with count hpart heval
      simp only [Task.evaluate, mapped_error_iff] at hpart
      refine ⟨⟨count, last, ?_, rfl⟩, ?_⟩
      · simp only [Task.evaluate, Evaluators.pairs, bind_apply, heval, hkey, hpart]
      · simp [Task.parts, onward, heval, hkey, hpart]
  | restPairs hkey hhash hvalue =>
      filter_upwards [hpart.eventually, (Expr.steady _ _).ok hkey, (Expr.steady _ _).ok hvalue]
        with count hpart hkey hvalue
      simp only [Task.evaluate, mapped_error_iff] at hpart
      refine ⟨⟨count, last, ?_, rfl⟩, ?_⟩
      · simp only [Task.evaluate, Evaluators.pairs, bind_apply, hkey, hhash, hvalue, hpart]
      · simp [Task.parts, onward, hkey, hhash, hvalue]

/-- From one of several statements. -/
theorem statements_passesOn {before : Value} {list : List Statement}
    (h : Starts settings (.statements before list) state part state')
    (hcause : cause ≠ .exhausted) :
    (Task.statements before list).PassesOn settings cause state part state' := by
  refine .of_eventually hcause fun last hpart => ?_
  cases h with
  | firstStatement =>
      filter_upwards [hpart.eventually] with count hpart
      simp only [Task.evaluate, mapped_error_iff] at hpart
      refine ⟨⟨count, last, ?_, rfl⟩, ?_⟩
      · simp only [Task.evaluate, Evaluators.statements, bind_apply, hpart]
      · simp [Task.parts, onward, hpart]
  | restStatements heval =>
      filter_upwards [hpart.eventually, (Statement.steady _ _).ok heval] with count hpart heval
      simp only [Task.evaluate, mapped_error_iff] at hpart
      refine ⟨⟨count, last, ?_, rfl⟩, ?_⟩
      · simp only [Task.evaluate, Evaluators.statements, bind_apply, heval, hpart]
      · simp [Task.parts, onward, heval]

/-- From the iterations of a loop over elements. -/
theorem forEach_passesOn {name : String} {body : Block} {elements : List Value}
    (h : Starts settings (.forEach name body elements) state part state')
    (hcause : cause.isFailure = true) :
    (Task.forEach name body elements).PassesOn settings cause state part state' := by
  refine .of_eventually (Interrupt.ne_exhausted_of_isFailure hcause) fun last hpart => ?_
  cases h with
  | iteration hdefine =>
      filter_upwards [hpart.eventually] with count hpart
      simp only [Task.evaluate, mapped_error_iff] at hpart
      have hiteration := settleIteration_failed hcause hpart
      refine ⟨⟨count, last, ?_, rfl⟩, ?_⟩
      · simp only [Task.evaluate, Evaluators.forEach, bind_apply, hdefine,
          Evaluators.block, hiteration]
      · simp [Task.parts, onward, hdefine, Evaluators.block, hiteration]
  | nextIteration hdefine hbody =>
      filter_upwards [hpart.eventually, (Block.steady _ _).settleIteration.ok hbody]
        with count hpart hbody
      simp only [Task.evaluate, mapped_error_iff] at hpart
      refine ⟨⟨count, last, ?_, rfl⟩, ?_⟩
      · simp only [Task.evaluate, Evaluators.forEach, bind_apply, hdefine, hbody,
          if_true, hpart]
      · simp [Task.parts, onward, hdefine, hbody]

/-- From the condition or an iteration of a loop with a condition. -/
theorem whileTrue_passesOn {condition : Expr} {body : Block}
    (h : Starts settings (.whileTrue condition body) state part state')
    (hcause : cause.isFailure = true) :
    (Task.whileTrue condition body).PassesOn settings cause state part state' := by
  have hsucc {p : Nat → Prop} (h : ∀ᶠ count in atTop, p count) :
      ∀ᶠ count in atTop, p (count + 1) := (tendsto_add_atTop_nat 1).eventually h
  refine .of_eventually (Interrupt.ne_exhausted_of_isFailure hcause) fun last hpart => ?_
  cases h with
  | test =>
      filter_upwards [hpart.eventually, hsucc hpart.eventually] with count hpart hmore
      simp only [Task.evaluate, mapped_error_iff] at hpart hmore
      refine ⟨⟨count + 1, last, ?_, rfl⟩, ?_⟩
      · simp only [Task.evaluate, Evaluators.whileTrue, bind_apply, hmore]
      · simp [Task.parts, onward, hpart]
  | passed heval htruthy =>
      have heval := (Expr.steady _ _).ok heval
      filter_upwards [hpart.eventually, hsucc hpart.eventually, heval, hsucc heval]
        with count hpart hmore heval htest
      simp only [Task.evaluate, mapped_error_iff] at hpart hmore
      have hiteration := settleIteration_failed hcause hpart
      have hlater := settleIteration_failed hcause hmore
      refine ⟨⟨count + 1, last, ?_, rfl⟩, ?_⟩
      · simp only [Task.evaluate, Evaluators.whileTrue, bind_apply, htest,
          htruthy, if_true, Evaluators.block, hlater]
      · simp [Task.parts, onward, heval, htruthy, Evaluators.block, hiteration]
  | nextTest heval htruthy hbody =>
      have heval := (Expr.steady _ _).ok heval
      have hbody := (Block.steady _ _).settleIteration.ok hbody
      filter_upwards [hpart.eventually, heval, hsucc heval, hbody, hsucc hbody]
        with count hpart heval htest hbody hiteration
      simp only [Task.evaluate, mapped_error_iff] at hpart
      -- the rest of the loop may nest one more evaluation
      have hrest : (Evaluators.upTo settings (count + 1)).whileTrue condition body count state' =
          (.error cause, last) := by
        rw [Evaluators.whileTrue_enough (Nat.le_succ count) (Nat.le_refl count), hpart]
        rw [hpart]
        rintro ⟨⟩
        cases hcause
      refine ⟨⟨count + 1, last, ?_, rfl⟩, ?_⟩
      · simp only [Task.evaluate, Evaluators.whileTrue, bind_apply, htest,
          htruthy, if_true, hiteration, hrest]
      · simp [Task.parts, onward, heval, htruthy, hbody]

/-- From the body of a function. -/
theorem call_passesOn {location : Location} {callee : Value} {arguments : List Value}
    (h : Starts settings (.call location callee arguments) state part state')
    (hcause : cause.isFailure = true) :
    (Task.call location callee arguments).PassesOn settings cause state part state' := by
  refine .of_eventually (Interrupt.ne_exhausted_of_isFailure hcause) fun last hpart => ?_
  cases h with
  | @body _ _ closure literal _ _ hcount hdepth =>
      filter_upwards [hpart.eventually] with count hpart
      simp only [Task.evaluate, mapped_error_iff] at hpart
      let final := { last with environment := state.environment, depth := last.depth - 1 }
      have hbody : asCall (withFrame closure (literal.bind arguments)
          ((Evaluators.upTo settings count).block literal.body)) state = (.error cause, final) := by
        rw [asCall_apply, Evaluators.block, hpart]
      refine ⟨⟨count, final, ?_, rfl⟩, ?_⟩
      · simp only [Task.evaluate, mapped_error_iff, Evaluators.call,
          Evaluators.callFunction_apply, if_pos hcount, if_neg (Nat.not_le.2 hdepth)]
        exact settleCall_failed hcause hbody
      · simp [Task.parts, hcount, hdepth]

/-- From the expression or the iterations of a statement that is no `try` statement. -/
theorem statement_passesOn {statement : Statement}
    (h : Starts settings (.statement statement) state part state')
    (htry : (Task.statement statement).isTry = false) (hcause : cause ≠ .exhausted) :
    (Task.statement statement).PassesOn settings cause state part state' := by
  refine .of_eventually hcause fun last hpart => ?_
  cases h with
  | bound | returned | expression | iterable =>
      filter_upwards [hpart.eventually] with count hpart
      simp only [Task.evaluate, mapped_error_iff] at hpart
      refine ⟨⟨count + 1, last, ?_, rfl⟩, ?_⟩
      · simp [Task.evaluate, Statement.execute, Evaluators.execute, bind_apply, hpart]
      · simp [Task.parts, onward, hpart]
  | @forLoop _ _ _ _ _ _ _ middle _ heval helements =>
      filter_upwards [hpart.eventually, (Expr.steady _ _).ok heval] with count hpart heval
      simp only [Task.evaluate, mapped_error_iff] at hpart
      refine ⟨⟨count + 1, { last with environment := middle.environment }, ?_, rfl⟩, ?_⟩
      · simp only [Task.evaluate, Statement.execute, Evaluators.execute, bind_apply, heval,
          helements, withChildFrame_apply, hpart, restore]
      · simp [Task.parts, onward, heval, helements]
  | whileLoop =>
      filter_upwards [hpart.eventually] with count hpart
      simp only [Task.evaluate, mapped_error_iff] at hpart
      refine ⟨⟨count + 1, { last with environment := state.environment }, ?_, rfl⟩, rfl⟩
      simp only [Task.evaluate, mapped_error_iff, Statement.execute, Evaluators.execute,
        withChildFrame_apply, hpart, restore]
  | tried | handled | finalized => cases htry

end Starts

/-! ## `try` statements -/

/-- The task of a `try` statement. -/
abbrev Task.attempt (location : Location) (body : Block) (error : Identifier) (handler : Block)
    (finalizer : Option Block) : Task :=
  .statement (.tryCatch location body error handler finalizer)

namespace Task

variable {settings : Settings} {state middle last : State} {cause : Interrupt}
  {location : Location} {body handler finalizer : Block} {error : Identifier}

/-- What body and handler come to, with or without a finalizer. -/
theorem Ends.handled {outcome : Except Interrupt (List Value)}
    (h : (attempt location body error handler none).Ends settings state outcome middle) :
    ∃ ended, outcome = ended.map (fun value => [value]) ∧
      ∀ᶠ count in atTop, handling ((Evaluators.upTo settings count).block body)
        ((Evaluators.upTo settings count).handle error handler) state = (ended, middle) := by
  obtain ⟨count, hcount⟩ := ((tendsto_add_atTop_nat 1).eventually h.eventually).exists
  simp only [evaluate, single_apply, Statement.execute, Evaluators.execute, Prod.mk.injEq] at hcount
  rcases heval : handling ((Evaluators.upTo settings count).block body)
    ((Evaluators.upTo settings count).handle error handler) state with ⟨ended, middle'⟩
  rw [heval] at hcount
  obtain ⟨rfl, rfl⟩ := hcount
  refine ⟨ended, rfl, Evaluators.handling_steady settings body error handler heval ?_⟩
  rintro rfl
  exact h.1 rfl

/-- A fatal failure of body or handler is one of the whole statement, and no finalizer starts. -/
theorem attempt_aborted (finalizer : Block) (hcause : cause.isFatal = true)
    (h : (attempt location body error handler none).Ends settings state (.error cause) middle) :
    (attempt location body error handler (some finalizer)).Ends settings state (.error cause)
        middle ∧
      ∀ᶠ count in atTop,
        (attempt location body error handler (some finalizer)).parts settings count state =
          (attempt location body error handler none).parts settings count state := by
  obtain ⟨ended, hended, hhandled⟩ := h.handled
  obtain rfl : ended = .error cause := by
    cases ended with
    | ok value => cases hended
    | error cause => exact congrArg Except.error (Except.error.inj hended).symm
  have haborts : aborts (.error cause : Except Interrupt Value) = true :=
    aborts_iff_isFatal.2 (.inl ⟨cause, rfl, hcause⟩)
  refine ⟨⟨h.1, ?_⟩, hhandled.mono fun count hcount => ?_⟩
  · obtain ⟨count, hcount⟩ := hhandled.exists
    refine ⟨count + 1, ?_⟩
    simp only [evaluate, mapped_error_iff, Statement.execute, Evaluators.execute]
    exact ensuring_aborted hcount haborts
  · simp [parts, finalizerPart, hcount, haborts]

/-- After any other outcome of body and handler the finalizer is the one part that is left. The
outcome stands if the finalizer gives a value, and otherwise the finalizer interrupts the
statement. -/
theorem attempt_finalized (finalizer : Block) {outcome : Except Interrupt (List Value)}
    (h : (attempt location body error handler none).Ends settings state outcome middle)
    (haborts : aborts outcome = false) :
    (∀ᶠ count in atTop,
      (attempt location body error handler (some finalizer)).parts settings count state =
        (attempt location body error handler none).parts settings count state ++
          [(.block finalizer, middle)]) ∧
    (∀ values final, (Task.block finalizer).Ends settings middle (.ok values) final →
      (attempt location body error handler (some finalizer)).Ends settings state outcome final) ∧
    (∀ cause final, (Task.block finalizer).Ends settings middle (.error cause) final →
      (attempt location body error handler (some finalizer)).Ends settings state (.error cause)
        final) := by
  obtain ⟨ended, rfl, hhandled⟩ := h.handled
  rw [aborts_map] at haborts
  have heval {count : Nat} (hcount : handling ((Evaluators.upTo settings count).block body)
      ((Evaluators.upTo settings count).handle error handler) state = (ended, middle)) :
      Statement.execute settings (count + 1)
          (.tryCatch location body error handler (some finalizer)) state =
        ((Evaluators.upTo settings count).block finalizer >>= fun _ => ending ended) middle :=
    ensuring_apply hcount haborts
  refine ⟨hhandled.mono fun count hcount => ?_, fun values final hfinal => ⟨h.1, ?_⟩,
    fun cause final hfinal => ⟨hfinal.1, ?_⟩⟩
  · simp [parts, finalizerPart, hcount, haborts]
  · obtain ⟨count, hcount, hfinalizer⟩ := (hhandled.and hfinal.eventually).exists
    refine ⟨count + 1, ?_⟩
    obtain ⟨value, hvalue⟩ := of_single_ok hfinalizer
    rw [evaluate, single_apply, heval hcount, bind_apply, Evaluators.block, hvalue]
    rfl
  · obtain ⟨count, hcount, hfinalizer⟩ := (hhandled.and hfinal.eventually).exists
    rw [evaluate, mapped_error_iff] at hfinalizer
    refine ⟨count + 1, ?_⟩
    rw [evaluate, mapped_error_iff, heval hcount, bind_apply, Evaluators.block, hfinalizer]

/-- The handler interrupts a statement without a finalizer. -/
theorem handler_passesOn {fault : Fault} {value : Value} {caught : State}
    (hbody : (Task.block body).Ends settings state (.error (.raised fault)) middle)
    (herror : newError fault middle = (.ok value, caught)) (hcause : cause ≠ .exhausted) :
    (attempt location body error handler none).PassesOn settings cause state (.block handler)
      (caught.enter caught.environment [(error.name, value)]) := by
  refine .of_eventually hcause fun last hpart => ?_
  filter_upwards [hbody.eventually, hpart.eventually] with count hbody hpart
  simp only [evaluate, mapped_error_iff] at hbody hpart
  refine ⟨⟨count + 1, { last with environment := caught.environment }, ?_, rfl⟩, ?_⟩
  · simp only [evaluate, Statement.execute, Evaluators.execute, handling, Evaluators.block, hbody,
      Evaluators.handle, bind_apply, herror, withChildFrame_apply, hpart,
      restore]
  · simp [parts, handlerPart, finalizerPart, onward, Evaluators.block, hbody, herror]

/-- A fatal failure of the body is one of a statement without a finalizer. -/
theorem body_passesOn (hcause : cause.isFatal = true) :
    (attempt location body error handler none).PassesOn settings cause state (.block body)
      state := by
  refine .of_eventually (Interrupt.ne_exhausted_of_isFailure
    (Interrupt.isFailure_of_isFatal hcause)) fun last hpart => ?_
  filter_upwards [hpart.eventually] with count hpart
  simp only [evaluate, mapped_error_iff] at hpart
  cases cause with
  | overflowed | crashed =>
      refine ⟨⟨count + 1, last, ?_, rfl⟩, ?_⟩
      · simp only [evaluate, mapped_error_iff, Statement.execute, Evaluators.execute, handling,
          Evaluators.block, hpart]
      · simp [parts, handlerPart, finalizerPart, Evaluators.block, hpart]
  | returned | broken | continued | raised | exhausted => cases hcause

/-- A fatal failure of body or handler is one of the statement, also when there is a finalizer. -/
theorem PassesOn.finalized {part : Task} {state' : State} (hcause : cause.isFatal = true)
    (h : (attempt location body error handler none).PassesOn settings cause state part state') :
    (attempt location body error handler (some finalizer)).PassesOn settings cause state part
      state' := by
  intro last hpart
  obtain ⟨hends, hlast⟩ := h last hpart
  obtain ⟨hfull, hparts⟩ := attempt_aborted finalizer hcause hends
  exact ⟨hfull, (hparts.and hlast).mono fun count ⟨heq, h⟩ => heq ▸ h⟩

/-- The finalizer interrupts the statement, whatever came before it. -/
theorem finalizer_passesOn {outcome : Except Interrupt (List Value)}
    (h : (attempt location body error handler none).Ends settings state outcome middle)
    (haborts : aborts outcome = false) :
    (attempt location body error handler (some finalizer)).PassesOn settings cause state
      (.block finalizer) middle := by
  intro last hpart
  obtain ⟨hparts, -, hinterrupted⟩ := attempt_finalized finalizer h haborts
  have hends := hinterrupted cause last hpart
  refine ⟨?_, hparts.mono fun count heq => ?_⟩
  · rwa [hends.backTo_eq]
  · rw [heq, List.getLast?_concat]

end Task

namespace Starts

variable {settings : Settings} {task part : Task} {state state' : State} {cause : Interrupt}

/-- A fatal failure goes through a `try` statement, out of its body, its handler and its
finalizer. -/
theorem attempt_passesOn {location : Location} {body handler : Block} {error : Identifier}
    {finalizer : Option Block} (hcause : cause.isFatal = true)
    (h : Starts settings (.attempt location body error handler finalizer) state part state') :
    (Task.attempt location body error handler finalizer).PassesOn settings cause state part
      state' := by
  cases h with
  | tried =>
      cases finalizer with
      | none => exact Task.body_passesOn hcause
      | some finalizer => exact (Task.body_passesOn hcause).finalized hcause
  | handled hbody herror =>
      have hbody : (Task.block body).Ends settings state (.error (.raised _)) _ :=
        ⟨nofun, _, mapped_error_iff.2 hbody⟩
      have hplain : (Task.attempt location body error handler none).PassesOn settings cause state
          _ _ := Task.handler_passesOn hbody herror
            (Interrupt.ne_exhausted_of_isFailure (Interrupt.isFailure_of_isFatal hcause))
      cases finalizer with
      | none => exact hplain
      | some finalizer => exact hplain.finalized hcause
  | @finalized _ _ _ _ finalizer _ count outcome _ heval hoverflow hcrashed hexhausted =>
      have hplain : (Task.attempt location body error handler none).Ends settings state
          (outcome.map fun value => [value]) state' := by
        refine ⟨?_, count + 1, ?_⟩
        · cases outcome with
          | ok value => nofun
          | error cause => exact fun heq => hexhausted (congrArg _ (Except.error.inj heq))
        · simp only [Task.evaluate, single_apply, Statement.execute, Evaluators.execute, heval]
      refine Task.finalizer_passesOn hplain ?_
      rw [aborts_map]
      exact not_aborts_iff.2 ⟨hoverflow, hcrashed, hexhausted⟩

/-- A failure of a part is one of the task around it, unless it is a fault and the task a `try`
statement. -/
theorem passesOn (h : Starts settings task state part state') (hcause : cause.isFailure = true)
    (htry : task.isTry = false ∨ cause.isFatal = true) :
    task.PassesOn settings cause state part state' := by
  have hends := Interrupt.ne_exhausted_of_isFailure hcause
  cases task with
  | expr expr => exact h.expr_passesOn hends
  | exprs list => exact h.list_passesOn hends
  | pairs entries list => exact h.pairs_passesOn hends
  | statements before list => exact h.statements_passesOn hends
  | forEach name body elements => exact h.forEach_passesOn hcause
  | whileTrue condition body => exact h.whileTrue_passesOn hcause
  | call location callee arguments => exact h.call_passesOn hcause
  | statement statement =>
      rcases htry with htry | hfatal
      · exact h.statement_passesOn htry hends
      · cases statement with
        | tryCatch => exact h.attempt_passesOn hfatal
        | letBinding | returnValue | expression | forLoop | whileLoop | breakLoop | continueLoop =>
            exact h.statement_passesOn rfl hends

end Starts

/-- A failure passes on through any number of tasks, unless it is a fault and one of them a `try`
statement. -/
theorem Reaches.fails {settings : Settings} {task part : Task} {state state' last : State}
    {enclosing : List Task} {cause : Interrupt}
    (h : Reaches settings task state enclosing part state') (hcause : cause.isFailure = true)
    (htry : (∀ outer ∈ enclosing, outer.isTry = false) ∨ cause.isFatal = true)
    (hpart : part.Ends settings state' (.error cause) last) :
    task.Ends settings state (.error cause) (last.backTo state) := by
  induction h generalizing last with
  | here =>
      rwa [hpart.backTo_eq]
  | @starts enclosing middle state' inner state'' _ hstarts ih =>
      have hmiddle : middle.isTry = false ∨ cause.isFatal = true :=
        htry.imp_left fun h => h middle (.head _)
      have houter : (∀ outer ∈ enclosing, outer.isTry = false) ∨ cause.isFatal = true :=
        htry.imp_left fun h outer houter => h outer (.tail _ houter)
      have hends := ih houter (hstarts.passesOn hcause hmiddle last hpart).1
      exact hends

/-- A program in whose course a task is aborted is aborted in the same way. Its bindings and its
printed text stay as they were at that moment. -/
theorem Session.run_overflowed {settings : Settings} {program : Program} {part : Task}
    {state state' last : State} {enclosing : List Task} {overflow : StackOverflow}
    (h : Reaches settings (.statements .null program.statements) state enclosing part state')
    (hpart : part.Ends settings state' (.error (.overflowed overflow)) last) :
    ∀ᶠ bound in atTop, Session.run bound ⟨settings, state⟩ program =
      (.aborted overflow, ⟨settings, { last with environment := Store.root, depth := 0 }⟩) := by
  have hends := h.fails rfl (.inr rfl) hpart
  filter_upwards [hends.eventually] with bound hbound
  have hstatements : Statement.executeAll settings bound program.statements state =
      (.error (.overflowed overflow), last.backTo state) := mapped_error_iff.1 hbound
  simp only [Session.run, hstatements, State.backTo]

/-- `Task.parts` are the parts that a task starts, in order. When one of them raises a fault, a task
that is no `try` statement ends in the same fault, that part is the last one, and bindings and
printed text stay what they are at that moment. So does a `try` statement without a finalizer when
its handler raises a fault.

A finalizer is the one part that follows on body and handler, unless these were aborted. If it gives
a value, the outcome of body and handler stands, and if it raises a fault, the statement does.

An abort goes through all tasks around it, so that no handler and no finalizer starts, and ends the
program. -/
theorem failures_pass_on (settings : Settings) :
    (∀ task state part state', Starts settings task state part state' ↔
      ∃ count, (part, state') ∈ task.parts settings count state) ∧
    (∀ task state part state' fault, task.isTry = false →
      Starts settings task state part state' →
        task.PassesOn settings (.raised fault) state part state') ∧
    (∀ location body error handler state fault middle value caught fault',
      (Task.block body).Ends settings state (.error (.raised fault)) middle →
      newError fault middle = (.ok value, caught) →
        (Task.attempt location body error handler none).PassesOn settings (.raised fault') state
          (.block handler) (caught.enter caught.environment [(error.name, value)])) ∧
    (∀ location body error handler finalizer state outcome middle,
      (Task.attempt location body error handler none).Ends settings state outcome middle →
      aborts outcome = false →
        (∀ᶠ count in atTop,
          (Task.attempt location body error handler (some finalizer)).parts settings count state =
            (Task.attempt location body error handler none).parts settings count state ++
              [(.block finalizer, middle)]) ∧
        (∀ values final, (Task.block finalizer).Ends settings middle (.ok values) final →
          (Task.attempt location body error handler (some finalizer)).Ends settings state outcome
            final) ∧
        (∀ fault, (Task.attempt location body error handler (some finalizer)).PassesOn settings
          (.raised fault) state (.block finalizer) middle)) ∧
    (∀ task state part state' overflow, Starts settings task state part state' →
      task.PassesOn settings (.overflowed overflow) state part state') ∧
    (∀ task state enclosing part state' cause last,
      Reaches settings task state enclosing part state' → cause.isFailure = true →
      (∀ outer ∈ enclosing, outer.isTry = false) ∨ (∃ overflow, cause = .overflowed overflow) →
      part.Ends settings state' (.error cause) last →
        task.Ends settings state (.error cause) (last.backTo state)) ∧
    (∀ program state enclosing part state' overflow last,
      Reaches settings (.statements .null (Program.statements program)) state enclosing part
        state' →
      part.Ends settings state' (.error (.overflowed overflow)) last →
        ∀ᶠ bound in atTop, Session.run bound ⟨settings, state⟩ program =
          (.aborted overflow,
            ⟨settings, { last with environment := Store.root, depth := 0 }⟩)) := by
  refine ⟨fun task state part state' => ⟨fun h => h.eventually.exists, ?_⟩, ?_, ?_, ?_, ?_, ?_, ?_⟩
  · rintro ⟨count, h⟩
    exact starts_of_mem_parts h
  · intro task state part state' fault htry h
    exact h.passesOn rfl (.inl htry)
  · intro location body error handler state fault middle value caught fault' hbody herror
    exact Task.handler_passesOn hbody herror nofun
  · intro location body error handler finalizer state outcome middle h haborts
    obtain ⟨hparts, hvalue, -⟩ := Task.attempt_finalized finalizer h haborts
    exact ⟨hparts, hvalue, fun fault => Task.finalizer_passesOn h haborts⟩
  · intro task state part state' overflow h
    exact h.passesOn rfl (.inr rfl)
  · intro task state enclosing part state' cause last h hcause htry hpart
    refine h.fails hcause (htry.imp_right ?_) hpart
    rintro ⟨overflow, rfl⟩
    rfl
  · intro program state enclosing part state' overflow last h hpart
    exact Session.run_overflowed h hpart

end Script
