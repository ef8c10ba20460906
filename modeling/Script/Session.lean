import Script.Evaluation
import Script.Grammar

/-!
# Sessions

A session evaluates programs one after another; bindings stay from one to the next. A program
gives a value, unless it was aborted or crashed the interpreter: a fault that nothing catches is its
error value.
-/

namespace Script

/-- What a program gives. -/
inductive Result where
  | value (value : Value)
  | aborted (overflow : StackOverflow)
  /-- The interpreter itself has failed, and the session is over. -/
  | crashed
  /-- The bound on nested evaluations and iterations was too small. -/
  | exhausted

/-- An interpreter between two programs. -/
structure Session where
  /-- What the interpreter is set up with. -/
  settings : Settings
  /-- The state left by the programs so far. -/
  state : State

/-- What a session answers to a source text. -/
inductive Answer where
  /-- The text has syntax errors, and nothing was evaluated. -/
  | rejected (errors : List SyntaxError)
  /-- The text was evaluated, and printed some text meanwhile. -/
  | evaluated (printed : String) (result : Result)

namespace Session

variable [Host]

/-- A session before its first program. -/
def new (settings : Settings) : Session := ⟨settings, .initial⟩

/-- Evaluates a program with at most `bound` nested evaluations. After an abort the next program
starts among the root bindings, outside of all calls. -/
def run (bound : Nat) (session : Session) (program : Program) : Result × Session :=
  let conclude (result : Result) (state : State) : Result × Session :=
    (result, { session with state })
  let concludeError (fault : Fault) (state : State) : Result × Session :=
    match Evaluation.newError fault state with
    | (.ok error, state) => conclude (.value error) state
    | (.error _, state) => conclude .exhausted state
  match Statement.executeAll session.settings bound program.statements session.state with
  | (.ok value, state) => conclude (.value value) state
  | (.error (.returned value), state) => conclude (.value value) state
  | (.error (.raised fault), state) => concludeError fault state
  | (.error (.broken location), state) => concludeError (.strayBreak location) state
  | (.error (.continued location), state) => concludeError (.strayContinue location) state
  | (.error (.overflowed overflow), state) =>
    conclude (.aborted overflow) { state with environment := Store.root, depth := 0 }
  | (.error .crashed, state) => conclude .crashed state
  | (.error .exhausted, state) => conclude .exhausted state

/-- Evaluates a source text. The text printed by earlier programs is dropped. -/
def submit (bound : Nat) (session : Session) (source : String) : Answer × Session :=
  match Program.ofText source with
  | .error errors => (.rejected errors, session)
  | .ok program =>
    let fresh := { session with state := { session.state with printed := "" } }
    match run bound fresh program with
    | (result, after) => (.evaluated after.state.printed result, after)

/-- Evaluates source texts one after another, up to one that crashes the interpreter. -/
def submitAll (bound : Nat) : Session → List String → List Answer × Session
  | session, [] => ([], session)
  | session, source :: rest =>
    match submit bound session source with
    | (.evaluated printed .crashed, session) => ([.evaluated printed .crashed], session)
    | (answer, session) =>
      match submitAll bound session rest with
      | (answers, session) => (answer :: answers, session)

end Session

/-- A bound that no evaluation reaches in practice. -/
def ampleBound : Nat := 1 <<< 62

end Script
