import Script.Proofs.Evaluation.Invariant.Sound
import Script.Session

/-!
# The course of an evaluation

A run evaluates tasks inside of tasks. `Starts` says which task an evaluation starts next, and in
which state, given how the tasks before it ended. `Visited` collects the tasks that are started in
a session, also in evaluations that never end, and `State.Reachable` the states between two
programs, and at the start and the end of every task. A lawful invariant that holds of the initial
state holds of all of them: `Invariant.Lawful.reachable`.
-/

namespace Script

/-- A call checks the number of its arguments, then the number of active calls, and only then
evaluates the body of the function. -/
theorem Evaluators.callFunction_apply (parts : Evaluators) (settings : Settings)
    (location : Location) (closure : Environment) (literal : FunctionLiteral)
    (arguments : List Value) (state : State) :
    parts.callFunction settings location closure literal arguments state =
      if arguments.length = literal.parameters.length then
        if settings.maxDepth ≤ state.depth then
          (.error (.overflowed ⟨location, settings.maxDepth⟩), state)
        else
          Evaluation.settleCall (Evaluation.asCall (Evaluation.withFrame closure
            (literal.bind arguments) (parts.block literal.body))) state
      else
        (.error (.raised (.argumentCount literal.displayName arguments.length
          literal.parameters.length)), state) := by
  by_cases hcount : arguments.length = literal.parameters.length
  · by_cases hfull : settings.maxDepth ≤ state.depth <;>
      simp [Evaluators.callFunction, Evaluation.bind_apply, Evaluation.state, Evaluation.interrupt,
        hcount, hfull]
  · simp [Evaluators.callFunction, Evaluation.raise, Evaluation.interrupt, hcount]

variable [Host]

/-- The evaluation of parts with at most `count` nested evaluations. -/
abbrev Evaluators.upTo (settings : Settings) (count : Nat) : Evaluators :=
  ⟨Expr.evaluate settings count, Statement.execute settings count⟩

/-- What is evaluated in the course of a run. -/
inductive Task where
  | expr (expr : Expr)
  | exprs (exprs : List Expr)
  /-- The pairs of a hash literal, after the ones filed among `entries`. -/
  | pairs (entries : List Entry) (pairs : List Pair)
  | statement (statement : Statement)
  /-- Statements after one with the value `last`. -/
  | statements (last : Value) (statements : List Statement)
  | forEach (name : String) (body : Block) (elements : List Value)
  | whileTrue (condition : Expr) (body : Block)
  | call (location : Location) (callee : Value) (arguments : List Value)

namespace Task

/-- The statements of a block. -/
abbrev block (block : Block) : Task := .statements .null block.statements

/-- The values that a task gives, with at most `count` nested evaluations and iterations. -/
def evaluate (settings : Settings) (count : Nat) : Task → Evaluation (List Value)
  | expr whole => do
    let value ← Expr.evaluate settings count whole
    pure [value]
  | exprs list => (Evaluators.upTo settings count).exprs list
  | pairs entries list => do
    let entries ← (Evaluators.upTo settings count).pairs entries list
    pure (entries.flatMap fun entry => [entry.key, entry.value])
  | statement whole => do
    let value ← Statement.execute settings count whole
    pure [value]
  | statements last list => do
    let value ← (Evaluators.upTo settings count).statements last list
    pure [value]
  | forEach name body elements => do
    let value ← (Evaluators.upTo settings count).forEach name body elements
    pure [value]
  | whileTrue condition body => do
    let value ← (Evaluators.upTo settings count).whileTrue condition body count
    pure [value]
  | call location callee arguments => do
    let value ← (Evaluators.upTo settings count).call settings location callee arguments
    pure [value]

end Task

/-- The outcome of statements as the single value of a task. -/
theorem Statement.executeAll_task (settings : Settings) (count : Nat) (statements : List Statement)
    (state : State) :
    (Task.statements .null statements).evaluate settings count state =
      ((Statement.executeAll settings count statements state).1.map fun value => [value],
        (Statement.executeAll settings count statements state).2) := by
  simp only [Task.evaluate, Evaluation.bind_apply, Statement.executeAll]
  generalize (Evaluators.upTo settings count).statements .null statements state = result
  obtain ⟨_ | _, _⟩ := result <;> rfl

/-- `Starts settings task state part state'` says that the evaluation of `task` in `state` comes to
start that of `part` in `state'`. -/
inductive Starts (settings : Settings) : Task → State → Task → State → Prop where
  | array {location elements state} :
    Starts settings (.expr (.array location elements)) state (.exprs elements) state
  | hash {location pairs state} :
    Starts settings (.expr (.hash location pairs)) state (.pairs [] pairs) state
  | operand {location operator operand state} :
    Starts settings (.expr (.unary location operator operand)) state (.expr operand) state
  | left {location left operator right state} :
    Starts settings (.expr (.binary location left operator right)) state (.expr left) state
  | right {location left operator right state count value state'} :
    Expr.evaluate settings count left state = (.ok value, state') →
    Starts settings (.expr (.binary location left operator right)) state (.expr right) state'
  | assigned {location target value state} :
    Starts settings (.expr (.assign location target value)) state (.expr value) state
  | collection {location collection index state} :
    Starts settings (.expr (.index location collection index)) state (.expr collection) state
  | place {location collection index state count value state'} :
    Expr.evaluate settings count collection state = (.ok value, state') →
    Starts settings (.expr (.index location collection index)) state (.expr index) state'
  | callee {location callee arguments state} :
    Starts settings (.expr (.call location callee arguments)) state (.expr callee) state
  | arguments {location callee arguments state count value state'} :
    Expr.evaluate settings count callee state = (.ok value, state') →
    Starts settings (.expr (.call location callee arguments)) state (.exprs arguments) state'
  | apply {location callee arguments state count value state' count' values state''} :
    Expr.evaluate settings count callee state = (.ok value, state') →
    (Evaluators.upTo settings count').exprs arguments state' = (.ok values, state'') →
    Starts settings (.expr (.call location callee arguments)) state
      (.call location value values) state''
  | condition {location condition consequence alternative state} :
    Starts settings (.expr (.conditional location condition consequence alternative)) state
      (.expr condition) state
  | consequence {location condition consequence alternative state count value state'} :
    Expr.evaluate settings count condition state = (.ok value, state') →
    value.truthy = true →
    Starts settings (.expr (.conditional location condition consequence alternative)) state
      (.block consequence) state'
  | alternative {location condition consequence alternative state count value state'} :
    Expr.evaluate settings count condition state = (.ok value, state') →
    value.truthy = false →
    Starts settings (.expr (.conditional location condition consequence (some alternative))) state
      (.block alternative) state'
  | firstExpr {expr rest state} :
    Starts settings (.exprs (expr :: rest)) state (.expr expr) state
  | restExprs {expr rest state count value state'} :
    Expr.evaluate settings count expr state = (.ok value, state') →
    Starts settings (.exprs (expr :: rest)) state (.exprs rest) state'
  | key {entries pair rest state} :
    Starts settings (.pairs entries (pair :: rest)) state (.expr pair.key) state
  | filed {entries pair rest state count key state'} :
    Expr.evaluate settings count pair.key state = (.ok key, state') →
    key.hashKey?.isSome →
    Starts settings (.pairs entries (pair :: rest)) state (.expr pair.value) state'
  | restPairs {entries pair rest state count key state' hashKey count' value state''} :
    Expr.evaluate settings count pair.key state = (.ok key, state') →
    key.hashKey? = some hashKey →
    Expr.evaluate settings count' pair.value state' = (.ok value, state'') →
    Starts settings (.pairs entries (pair :: rest)) state
      (.pairs (Entry.insert ⟨hashKey, key, value⟩ entries) rest) state''
  | firstStatement {last statement rest state} :
    Starts settings (.statements last (statement :: rest)) state (.statement statement) state
  | restStatements {last statement rest state count value state'} :
    Statement.execute settings count statement state = (.ok value, state') →
    Starts settings (.statements last (statement :: rest)) state (.statements value rest) state'
  | bound {location target value state} :
    Starts settings (.statement (.letBinding location target value)) state (.expr value) state
  | returned {location value state} :
    Starts settings (.statement (.returnValue location value)) state (.expr value) state
  | expression {first value state} :
    Starts settings (.statement (.expression first value)) state (.expr value) state
  | iterable {location element iterable body state} :
    Starts settings (.statement (.forLoop location element iterable body)) state
      (.expr iterable) state
  | forLoop {location element iterable body state count value state' elements} :
    Expr.evaluate settings count iterable state = (.ok value, state') →
    value.elements? = some elements →
    Starts settings (.statement (.forLoop location element iterable body)) state
      (.forEach element.name body elements) (state'.enter state'.environment [])
  | whileLoop {location condition body state} :
    Starts settings (.statement (.whileLoop location condition body)) state
      (.whileTrue condition body) (state.enter state.environment [])
  | tried {location body error handler finalizer state} :
    Starts settings (.statement (.tryCatch location body error handler finalizer)) state
      (.block body) state
  | handled {location body error handler finalizer state count fault state' value state''} :
    (Evaluators.upTo settings count).block body state = (.error (.raised fault), state') →
    Evaluation.newError fault state' = (.ok value, state'') →
    Starts settings (.statement (.tryCatch location body error handler finalizer)) state
      (.block handler) (state''.enter state''.environment [(error.name, value)])
  | finalized {location body error handler finalizer state count outcome state'} :
    Evaluation.handling ((Evaluators.upTo settings count).block body)
      ((Evaluators.upTo settings count).handle error handler) state = (outcome, state') →
    (∀ overflow, outcome ≠ .error (.overflowed overflow)) → outcome ≠ .error .crashed →
    outcome ≠ .error .exhausted →
    Starts settings (.statement (.tryCatch location body error handler (some finalizer))) state
      (.block finalizer) state'
  | iteration {name body element rest state state'} :
    Evaluation.define name element state = (.ok (), state') →
    Starts settings (.forEach name body (element :: rest)) state (.block body) state'
  | nextIteration {name body element rest state state' count state''} :
    Evaluation.define name element state = (.ok (), state') →
    Evaluation.settleIteration ((Evaluators.upTo settings count).block body) state' =
      (.ok true, state'') →
    Starts settings (.forEach name body (element :: rest)) state (.forEach name body rest) state''
  | test {condition body state} :
    Starts settings (.whileTrue condition body) state (.expr condition) state
  | passed {condition body state count value state'} :
    Expr.evaluate settings count condition state = (.ok value, state') →
    value.truthy = true →
    Starts settings (.whileTrue condition body) state (.block body) state'
  | nextTest {condition body state count value state' count' state''} :
    Expr.evaluate settings count condition state = (.ok value, state') →
    value.truthy = true →
    Evaluation.settleIteration ((Evaluators.upTo settings count').block body) state' =
      (.ok true, state'') →
    Starts settings (.whileTrue condition body) state (.whileTrue condition body) state''
  | body {location identity closure literal arguments state} :
    arguments.length = literal.parameters.length → state.depth < settings.maxDepth →
    Starts settings (.call location (.function identity closure literal) arguments) state
      (.block literal.body)
      (State.enter { state with depth := state.depth + 1 } closure (literal.bind arguments))

/-- The states between two programs of a session. -/
inductive Session.Reached (settings : Settings) : State → Prop where
  | new : Session.Reached settings .initial
  | run {state} (bound : Nat) (program : Program) :
    Session.Reached settings state →
    Session.Reached settings (Session.run bound ⟨settings, state⟩ program).2.state
  /-- The text printed so far is dropped. -/
  | silenced {state} :
    Session.Reached settings state → Session.Reached settings { state with printed := "" }

/-- The tasks that are started in a session, with the states in which they are. -/
inductive Visited (settings : Settings) : Task → State → Prop where
  | program {state} (program : Program) :
    Session.Reached settings state → Visited settings (.statements .null program.statements) state
  | starts {task state part state'} :
    Visited settings task state → Starts settings task state part state' →
    Visited settings part state'

/-- `Reaches settings task state enclosing part state'` says that the evaluation of `task` in
`state` comes to start that of `part` in `state'`, inside of the tasks in `enclosing`, the innermost
first. -/
inductive Reaches (settings : Settings) (task : Task) (state : State) :
    List Task → Task → State → Prop where
  | here : Reaches settings task state [] task state
  | starts {enclosing part state' inner state''} :
    Reaches settings task state enclosing part state' → Starts settings part state' inner state'' →
    Reaches settings task state (part :: enclosing) inner state''

/-- What a reached task reaches is reached as well, inside of both groups of tasks. -/
theorem Reaches.trans {settings : Settings} {task part inner : Task} {state state' state'' : State}
    {enclosing enclosing' : List Task} (h : Reaches settings task state enclosing part state')
    (h' : Reaches settings part state' enclosing' inner state'') :
    Reaches settings task state (enclosing' ++ enclosing) inner state'' := by
  induction h' with
  | here => exact h
  | starts _ hstarts ih => exact .starts ih hstarts

/-- The values that a task is started with. -/
def Task.values : Task → List Value
  | pairs entries _ => entries.flatMap fun entry => [entry.key, entry.value]
  | statements last _ => [last]
  | forEach _ _ elements => elements
  | call _ callee arguments => callee :: arguments
  | expr _ | exprs _ | statement _ | whileTrue _ _ => []

/-- The values in an outcome. -/
def Interrupt.values : Except Interrupt (List Value) → List Value
  | .ok values => values
  | .error (.returned value) => [value]
  | .error _ => []

/-- The states of a session, with the values at hand that are not bound to a name: those between
two programs, and those in which a task starts or ends. -/
inductive State.Reachable (settings : Settings) : State → List Value → Prop where
  | between {state} : Session.Reached settings state → State.Reachable settings state []
  | starting {task state} :
    Visited settings task state → State.Reachable settings state task.values
  | ending {task state} (count : Nat) :
    Visited settings task state →
    State.Reachable settings (task.evaluate settings count state).2
      (Interrupt.values (task.evaluate settings count state).1)

namespace Invariant

variable {I : Invariant} {world : I.World} {settings : Settings} {state : State}

/-- What holds of the values that a task is started with. -/
def task (I : Invariant) (world : I.World) : Task → Prop
  | .pairs entries _ => I.entries world entries
  | .statements last _ => I.value world last
  | .forEach _ _ elements => I.values world elements
  | .call _ callee arguments => I.value world callee ∧ I.values world arguments
  | .expr _ | .exprs _ | .statement _ | .whileTrue _ _ => True

omit [Host] in
/-- The values in a valid outcome. -/
theorem outcome_values {outcome : Except Interrupt (List Value)}
    (h : I.outcome I.values world outcome) : I.values world (Interrupt.values outcome) := by
  cases outcome with
  | ok values => exact h
  | error interrupt =>
      cases interrupt with
      | returned value => exact List.forall_mem_singleton.2 h
      | broken | continued | raised | overflowed | crashed | exhausted =>
          exact List.forall_mem_nil _

namespace Lawful

/-- The single value of a task. -/
theorem single (hI : I.Lawful) {evaluation : Evaluation Value}
    (h : I.Keeps I.value world evaluation) :
    I.Keeps I.values world (do let value ← evaluation; Pure.pure [value]) :=
  hI.bind h fun _ _ _ hvalue => hI.pure (List.forall_mem_singleton.2 hvalue)

/-- The values of filed entries. -/
theorem entries_values (hI : I.Lawful) {entries : List Entry} (h : I.entries world entries) :
    I.values world (entries.flatMap fun entry => [entry.key, entry.value]) := by
  intro value hvalue
  obtain ⟨entry, hentry, hvalue⟩ := List.mem_flatMap.1 hvalue
  obtain ⟨hkey, hfiled⟩ := hI.parts h hentry
  rcases List.mem_cons.1 hvalue with rfl | hvalue
  · exact hkey
  · rw [List.mem_singleton.1 hvalue]
    exact hfiled

/-- The values that a task is started with. -/
theorem task_values (hI : I.Lawful) {task : Task} (h : I.task world task) :
    I.values world task.values := by
  cases task with
  | pairs entries list => exact hI.entries_values h
  | statements last list => exact List.forall_mem_singleton.2 h
  | forEach name body elements => exact h
  | call location callee arguments => exact List.forall_mem_cons.2 h
  | expr | exprs | statement | whileTrue => exact List.forall_mem_nil _

/-- Every task keeps the invariant. -/
theorem task (hI : I.Lawful) (count : Nat) {task : Task} (h : I.task world task) :
    I.Keeps I.values world (task.evaluate settings count) := by
  have hparts := hI.sound settings count
  cases task with
  | expr whole => exact hI.single (hparts.expr world whole)
  | exprs list => exact hI.exprs hparts list
  | pairs entries list =>
      exact hI.bind (hI.pairs hparts list h) fun _ entries _ hentries =>
        hI.pure (hI.entries_values hentries)
  | statement whole => exact hI.single (hparts.statement world whole)
  | statements last list => exact hI.single (hI.statements hparts list h)
  | forEach name body elements => exact hI.single (hI.forEach hparts name body h)
  | whileTrue condition body => exact hI.single (hI.whileTrue hparts condition body count)
  | call location callee arguments =>
      exact hI.single (hI.call hparts settings location h.1 h.2)

/-- A state in a new frame is a state of the invariant. -/
theorem entered (hI : I.Lawful) {parent : Environment} {frame : Frame}
    (hstate : I.state world state) (hparent : I.scope world parent)
    (hframe : ∀ binding ∈ frame, I.value world binding.2) :
    ∃ inner, I.Within world inner ∧ I.state inner (state.enter parent frame) := by
  obtain ⟨inner, hwithin, hinner, -⟩ := hI.inFrame hstate hparent hframe
  exact ⟨inner, hwithin, hinner⟩

/-- So is one in an empty frame on top of the current environment. -/
theorem enteredEmpty (hI : I.Lawful) (hstate : I.state world state) :
    ∃ inner, I.Within world inner ∧ I.state inner (state.enter state.environment []) :=
  hI.entered hstate (hI.environment hstate) (List.forall_mem_nil _)

/-- What a task starts, it starts in a state of the invariant. -/
theorem starts (hI : I.Lawful) {task part : Task} {state' : State}
    (h : Starts settings task state part state') (hstate : I.state world state)
    (htask : I.task world task) :
    ∃ other, I.state other state' ∧ I.task other part := by
  have hparts := hI.sound settings
  -- a part that starts first finds the state of its task, any other the one left before it
  cases h with
  | array | operand | left | assigned | collection | callee | condition | firstExpr | key
  | firstStatement | bound | returned | expression | iterable | test =>
      exact ⟨world, hstate, trivial⟩
  | hash => exact ⟨world, hstate, hI.entries_nil⟩
  | tried => exact ⟨world, hstate, hI.plain rfl⟩
  | right heval | place heval | arguments heval | restExprs heval =>
      obtain ⟨middle, -, hmiddle, -⟩ := ((hparts _).expr world _).ok hstate heval
      exact ⟨middle, hmiddle, trivial⟩
  | filed heval hkey =>
      obtain ⟨middle, -, hmiddle, -⟩ := ((hparts _).expr world _).ok hstate heval
      exact ⟨middle, hmiddle, trivial⟩
  | consequence heval hcondition | alternative heval hcondition | passed heval hcondition =>
      obtain ⟨middle, -, hmiddle, -⟩ := ((hparts _).expr world _).ok hstate heval
      exact ⟨middle, hmiddle, hI.plain rfl⟩
  | apply hcallee harguments =>
      obtain ⟨middle, -, hmiddle, hvalue⟩ := ((hparts _).expr world _).ok hstate hcallee
      obtain ⟨last, hleads, hlast, hvalues⟩ := (hI.exprs (hparts _) _).ok hmiddle harguments
      exact ⟨last, hlast, hI.within hleads _ hvalue, hvalues⟩
  | restPairs hkey hhash hvalue =>
      obtain ⟨middle, hkeyLeads, hmiddle, hkey⟩ := ((hparts _).expr world _).ok hstate hkey
      obtain ⟨last, hleads, hlast, hvalue⟩ := ((hparts _).expr middle _).ok hmiddle hvalue
      have hentries := hI.entries_leads hleads (hI.entries_leads hkeyLeads htask)
      exact ⟨last, hlast, hI.entries_insert hentries (hI.within hleads _ hkey) hvalue hhash⟩
  | restStatements heval =>
      obtain ⟨middle, -, hmiddle, hvalue⟩ := ((hparts _).statement world _).ok hstate heval
      exact ⟨middle, hmiddle, hvalue⟩
  | forLoop heval helements =>
      obtain ⟨middle, -, hmiddle, hvalue⟩ := ((hparts _).expr world _).ok hstate heval
      obtain ⟨inner, hwithin, hinner⟩ := hI.enteredEmpty hmiddle
      exact ⟨inner, hinner, fun element h =>
        hwithin _ ((hI.hereditary middle).elements? hvalue helements element h)⟩
  | whileLoop =>
      obtain ⟨inner, -, hinner⟩ := hI.enteredEmpty hstate
      exact ⟨inner, hinner, trivial⟩
  | @handled _ _ error _ _ _ _ _ _ value _ heval herror =>
      obtain ⟨middle, -, hmiddle⟩ := (hI.block (hparts _) _).after hstate heval
      obtain ⟨last, -, hlast, hvalue⟩ := (hI.newError _).ok hmiddle herror
      have hframe : ∀ binding ∈ [(error.name, value)], I.value last binding.2 :=
        List.forall_mem_singleton.2 hvalue
      obtain ⟨inner, -, hinner⟩ := hI.entered hlast (hI.environment hlast) hframe
      exact ⟨inner, hinner, hI.plain rfl⟩
  | finalized heval _ _ _ =>
      obtain ⟨middle, -, hmiddle⟩ := (hI.caught (hparts _) _ _ _).after hstate heval
      exact ⟨middle, hmiddle, hI.plain rfl⟩
  | iteration hdefine =>
      obtain ⟨middle, -, hmiddle, -⟩ := (hI.define _ (htask _ (.head _))).ok hstate hdefine
      exact ⟨middle, hmiddle, hI.plain rfl⟩
  | nextIteration hdefine hbody =>
      obtain ⟨middle, hfirst, hmiddle, -⟩ := (hI.define _ (htask _ (.head _))).ok hstate hdefine
      obtain ⟨last, hsecond, hlast, -⟩ :=
        (hI.block (hparts _) _).settleIteration.ok hmiddle hbody
      exact ⟨last, hlast, fun element h =>
        hI.within hsecond _ (hI.within hfirst _ (htask element (.tail _ h)))⟩
  | nextTest heval _ hbody =>
      obtain ⟨middle, -, hmiddle, -⟩ := ((hparts _).expr world _).ok hstate heval
      obtain ⟨last, -, hlast, -⟩ := (hI.block (hparts _) _).settleIteration.ok hmiddle hbody
      exact ⟨last, hlast, trivial⟩
  | body hcount hdepth =>
      obtain ⟨counted, hcounted, hdeeper, -⟩ := hI.inCall hstate
      obtain ⟨inner, -, hinner⟩ := hI.entered hdeeper (hI.closure (hcounted _ htask.1))
        fun binding hbinding => value_ofPairs _ (fun b hb =>
          hcounted _ (htask.2 _ (List.of_mem_zip hb).2)) hbinding
      exact ⟨inner, hinner, hI.plain rfl⟩

end Lawful

end Invariant

end Script
