import Script.Proofs.Evaluation.Aborts
import Script.Proofs.Evaluation.Restoration

/-!
# Active calls

The counter of active calls counts the calls whose bodies are being evaluated: `Reaches.depth`. A
call of a function of the program is refused exactly when the counter has reached its limit, and
every abort comes from such a call. `calls_counted` states this for all tasks that are started in a
session.
-/

namespace Script

/-- Whether a task is a call. All that a call starts is the body of a function. -/
def Task.isCall : Task → Bool
  | .call _ _ _ => true
  | _ => false

/-- The number of function bodies under way inside of the given tasks. -/
def activeBodies (enclosing : List Task) : Nat :=
  enclosing.countP Task.isCall

/-! ## The counter -/

/-- An evaluation that keeps every position comes back to the depth that it started with. -/
theorem Invariant.position_depth {α : Type} {valid : Environment × Nat → α → Prop}
    {evaluation : Evaluation α} {outcome : Except Interrupt α} {state state' : State}
    (h : ∀ world, position.Keeps valid world evaluation)
    (heval : evaluation state = (outcome, state')) : state'.depth = state.depth := by
  have hkeeps : position.Keeps valid (state.environment, state.depth) evaluation := h _
  obtain ⟨last, rfl, hlast⟩ := hkeeps.after ⟨rfl, rfl⟩ heval
  exact hlast.2

variable [Host]

/-- A call counts while its body is evaluated; nothing else moves the counter. -/
theorem Starts.depth {settings : Settings} {task part : Task} {state state' : State}
    (h : Starts settings task state part state') :
    state'.depth = state.depth + if task.isCall then 1 else 0 := by
  have hI := Invariant.position_lawful
  have hparts (count : Nat) := hI.sound settings count
  have hexpr {expr : Expr} {count : Nat} {outcome : Except Interrupt Value} {state state' : State}
      (heval : Expr.evaluate settings count expr state = (outcome, state')) :
      state'.depth = state.depth :=
    Invariant.position_depth (fun world => (hparts count).expr world expr) heval
  have hblock {body : Block} {count : Nat} {goesOn : Bool} {state state' : State}
      (heval : Evaluation.settleIteration ((Evaluators.upTo settings count).block body) state =
        (.ok goesOn, state')) : state'.depth = state.depth :=
    Invariant.position_depth (fun _ => (hI.block (hparts count) body).settleIteration) heval
  -- a part starts at the depth that the parts before it came back to
  cases h with
  | array | hash | operand | left | assigned | collection | callee | condition | firstExpr | key
  | firstStatement | bound | returned | expression | iterable | whileLoop | tried | test => rfl
  | right heval | place heval | arguments heval | restExprs heval | filed heval _
  | consequence heval _ | alternative heval _ | passed heval _ => exact hexpr heval
  | forLoop heval _ =>
      have hiterable := hexpr heval
      exact hiterable
  | apply hcallee harguments =>
      have hvalues := Invariant.position_depth (fun world => hI.exprs (hparts _) _) harguments
      exact hvalues.trans (hexpr hcallee)
  | restPairs hkey _ hvalue => exact (hexpr hvalue).trans (hexpr hkey)
  | restStatements heval =>
      exact Invariant.position_depth (fun world => (hparts _).statement world _) heval
  | handled heval herror =>
      have hbody := Invariant.position_depth (fun world => hI.block (hparts _) _) heval
      have hnew := Invariant.position_depth (fun world => hI.newError _) herror
      exact hnew.trans hbody
  | finalized heval _ _ _ =>
      exact Invariant.position_depth (fun world => hI.caught (hparts _) _ _ _) heval
  | iteration hdefine =>
      exact Invariant.position_depth (fun world => hI.define _ trivial) hdefine
  | nextIteration hdefine hbody =>
      have hbound := Invariant.position_depth (fun world => hI.define _ trivial) hdefine
      exact (hblock hbody).trans hbound
  | nextTest heval _ hbody => exact (hblock hbody).trans (hexpr heval)
  | body _ _ => rfl

/-- Only a call that is not one too many starts the body of a function. -/
theorem Starts.room {settings : Settings} {task part : Task} {state state' : State}
    (h : Starts settings task state part state') (hcall : task.isCall = true) :
    state.depth < settings.maxDepth := by
  cases h with
  | body _ hdepth => exact hdepth
  | _ => cases hcall

/-- The counter counts the bodies under way, and stays within its limit. -/
theorem Reaches.depth {settings : Settings} {task part : Task} {state state' : State}
    {enclosing : List Task} (h : Reaches settings task state enclosing part state')
    (hdepth : state.depth ≤ settings.maxDepth) :
    state'.depth = state.depth + activeBodies enclosing ∧ state'.depth ≤ settings.maxDepth := by
  induction h with
  | here => exact ⟨rfl, hdepth⟩
  | @starts enclosing part state' inner state'' _ hstarts ih =>
      have hcounted := hstarts.depth
      rw [activeBodies, List.countP_cons, ← activeBodies]
      cases hcall : part.isCall with
      | true =>
          have hroom := hstarts.room hcall
          simp only [hcall, if_true] at hcounted ⊢
          omega
      | false =>
          simp only [hcall, Bool.false_eq_true, if_false] at hcounted ⊢
          omega

/-! ## Refused calls -/

/-- A builtin function is called outside of the count, and is never refused. -/
theorem Task.builtin_not_overflowed (settings : Settings) (location : Location)
    (function : Builtin) (arguments : List Value) (state : State) (count : Nat)
    (overflow : StackOverflow) :
    ((Task.call location (.builtin function) arguments).evaluate settings count state).1 ≠
      .error (.overflowed overflow) := by
  intro h
  obtain ⟨-, enclosing, identity, closure, literal, values, state', hreaches, -⟩ :=
    Task.refused_of_overflowed h
  -- the call of a builtin function starts nothing, so it would have to be the refused call itself
  suffices hall : ∀ {enclosing part state'}, Reaches settings
      (.call location (.builtin function) arguments) state enclosing part state' →
      part = .call location (.builtin function) arguments by
    cases hall hreaches
  intro enclosing part state' hreaches
  induction hreaches with
  | here => rfl
  | starts _ hstarts ih =>
      subst ih
      cases hstarts

/-! ## Sessions -/

/-- In some program of a session, a task is started in the given state, inside of the tasks in
`enclosing`, the innermost first. -/
def Underway (settings : Settings) (enclosing : List Task) (task : Task) (state : State) : Prop :=
  ∃ start program, Session.Reached settings start ∧
    Reaches settings (.statements .null (Program.statements program)) start enclosing task state

/-- Outside of programs no call is active. When a task starts, and when it ends with whatever
outcome, the counter is the number of function bodies under way, which is at most the limit.

A call of a function of the program with the right number of arguments is refused if the limit is
reached, at its place and with the state unchanged; with a wrong number it is a fault, also at the
limit. Every abort of a task comes from such a refused call in its course, made while as many bodies
were active as the limit allows; a call of a builtin function is never refused. -/
theorem calls_counted (settings : Settings) :
    (∀ state, Session.Reached settings state → state.depth = 0) ∧
    (∀ enclosing task state, Underway settings enclosing task state →
      state.depth = activeBodies enclosing ∧ activeBodies enclosing ≤ settings.maxDepth ∧
      ∀ count, (task.evaluate settings count state).2.depth = activeBodies enclosing) ∧
    (∀ enclosing location identity closure literal arguments state count,
      Underway settings enclosing (.call location (.function identity closure literal) arguments)
        state →
      (arguments.length = literal.parameters.length →
        activeBodies enclosing = settings.maxDepth →
        (Task.call location (.function identity closure literal) arguments).evaluate settings count
          state = (.error (.overflowed ⟨location, settings.maxDepth⟩), state)) ∧
      (arguments.length ≠ literal.parameters.length →
        (Task.call location (.function identity closure literal) arguments).evaluate settings count
          state = (.error (.raised (.argumentCount literal.displayName arguments.length
            literal.parameters.length)), state))) ∧
    (∀ enclosing task state count overflow, Underway settings enclosing task state →
      (task.evaluate settings count state).1 = .error (.overflowed overflow) →
      overflow.limit = settings.maxDepth ∧
      ∃ inner identity closure literal arguments state',
        Reaches settings task state inner
          (.call overflow.location (.function identity closure literal) arguments) state' ∧
        arguments.length = literal.parameters.length ∧
        activeBodies (inner ++ enclosing) = settings.maxDepth) ∧
    (∀ location function arguments state count overflow,
      ((Task.call location (.builtin function) arguments).evaluate settings count state).1 ≠
        .error (.overflowed overflow)) := by
  have hdepth {enclosing : List Task} {task : Task} {state : State}
      (h : Underway settings enclosing task state) :
      state.depth = activeBodies enclosing ∧ activeBodies enclosing ≤ settings.maxDepth := by
    obtain ⟨start, program, hstart, hreaches⟩ := h
    have hzero := hstart.at_root.2
    have hcounted := hreaches.depth (hzero ▸ Nat.zero_le _)
    omega
  refine ⟨fun state h => h.at_root.2, fun enclosing task state h => ?_,
    fun enclosing location identity closure literal arguments state count h => ?_,
    fun enclosing task state count overflow h hoverflow => ?_,
    fun location function arguments state count overflow =>
      Task.builtin_not_overflowed settings location function arguments state count overflow⟩
  · obtain ⟨hcounted, hlimit⟩ := hdepth h
    exact ⟨hcounted, hlimit, fun count => (task.restores settings count state).2.trans hcounted⟩
  · obtain ⟨hcounted, -⟩ := hdepth h
    simp only [Task.evaluate, Evaluation.bind_apply, Evaluators.call,
      Evaluators.callFunction_apply]
    constructor
    · intro hcount hfull
      rw [if_pos hcount, if_pos (by omega)]
    · intro hcount
      rw [if_neg hcount]
  · obtain ⟨hlimit, inner, identity, closure, literal, arguments, state', hreaches, hcount,
      hfull⟩ := Task.refused_of_overflowed hoverflow
    obtain ⟨start, program, hstart, houter⟩ := h
    have hinside := hdepth ⟨start, program, hstart, houter.trans hreaches⟩
    exact ⟨hlimit, inner, identity, closure, literal, arguments, state', hreaches, hcount, by omega⟩

end Script
