import Script.Store

/-!
# Evaluations

An evaluation changes a state and gives a value, or is interrupted. The interruptions that a
program can handle by itself are returns, breaks, continues and raised faults; too many nested
calls abort the program, and an array too large for any memory makes the interpreter crash. No
construct of the language can stop these.
-/

namespace Script

/-- What happens to printed text. -/
inductive Sink where
  /-- The text is collected. -/
  | accepting
  /-- Printing is a fault. -/
  | refusing (reason : String)

/-- What an interpreter is set up with. -/
structure Settings where
  /-- The number of calls that may be active at a time. -/
  maxDepth : Nat
  /-- What happens to printed text. -/
  sink : Sink

/-- Up to 256 nested calls, and printed text is collected. -/
def Settings.standard : Settings := ⟨256, .accepting⟩

/-- The state of an interpreter. -/
structure State where
  /-- All bindings. -/
  store : Store
  /-- The visible frames. -/
  environment : Environment
  /-- The number of active calls of functions of the program. -/
  depth : Nat
  /-- The number of identities handed out. -/
  identities : Nat
  /-- The printed text. -/
  printed : String

/-- The state before any program. -/
def State.initial : State := ⟨.initial, Store.root, 0, 0, ""⟩

/-- A call that would have been one too many. -/
structure StackOverflow where
  /-- The place of the opening parenthesis of the call. -/
  location : Location
  /-- The number of calls that were allowed. -/
  limit : Nat
deriving DecidableEq, Repr

/-- The written form of the error. -/
def StackOverflow.text (overflow : StackOverflow) : String :=
  s!"[{overflow.location.text}] stack overflow: more than {overflow.limit} nested calls"

/-- What ends an evaluation before it has a value. -/
inductive Interrupt where
  | returned (value : Value)
  | broken (location : Location)
  | continued (location : Location)
  | raised (fault : Fault)
  | overflowed (overflow : StackOverflow)
  /-- An array was asked for that fits into no memory, and the interpreter itself fails. -/
  | crashed
  /-- The bound on nested evaluations and iterations was too small. -/
  | exhausted

/-- An evaluation gives a value or is interrupted, and changes the state in both cases. -/
def Evaluation (α : Type) := State → Except Interrupt α × State

namespace Evaluation

variable {α β : Type}

instance : Monad Evaluation where
  pure value state := (.ok value, state)
  bind evaluation next state :=
    match evaluation state with
    | (.ok value, state) => next value state
    | (.error interrupt, state) => (.error interrupt, state)

theorem bind_apply (evaluation : Evaluation α) (next : α → Evaluation β) (state : State) :
    (evaluation >>= next) state =
      match evaluation state with
      | (.ok value, state) => next value state
      | (.error interrupt, state) => (.error interrupt, state) := rfl

instance : LawfulMonad Evaluation :=
  LawfulMonad.mk' Evaluation
    (fun evaluation => by
      funext state
      simp only [Functor.map]
      rcases evaluation state with ⟨_ | _, _⟩ <;> rfl)
    (fun _ _ => rfl)
    (fun evaluation _ _ => by
      funext state
      simp only [bind_apply]
      rcases evaluation state with ⟨_ | _, _⟩ <;> rfl)

/-- Ends the evaluation. -/
def interrupt (cause : Interrupt) : Evaluation α := fun state => (.error cause, state)

/-- Raises a fault. -/
def raise (fault : Fault) : Evaluation α := interrupt (.raised fault)

/-- The evaluation that was given too small a bound. -/
def exhausted : Evaluation α := interrupt .exhausted

/-- A result that may be a fault. -/
def ofExcept : Except Fault α → Evaluation α
  | .ok value => pure value
  | .error fault => raise fault

/-- The current state. -/
def state : Evaluation State := fun state => (.ok state, state)

/-- An identity that no value has. -/
def freshIdentity : Evaluation Identity := fun state =>
  (.ok state.identities, { state with identities := state.identities + 1 })

/-- A new array. -/
def newArray (elements : List Value) : Evaluation Value := do
  let identity ← freshIdentity
  pure (.array identity elements)

/-- A new hash. -/
def newHash (entries : List Entry) : Evaluation Value := do
  let identity ← freshIdentity
  pure (.hash identity entries)

/-- A new error value. -/
def newError (fault : Fault) : Evaluation Value := do
  let identity ← freshIdentity
  pure (.error identity fault)

/-- A function of the current environment. -/
def newFunction (literal : FunctionLiteral) : Evaluation Value := do
  let identity ← freshIdentity
  let current ← state
  pure (.function identity current.environment literal)

/-- The value of a name: of its innermost visible binding, or the builtin function. -/
def lookup (name : Identifier) : Evaluation Value := do
  let current ← state
  match current.store.find? current.environment name.name with
  | some value => pure value
  | none =>
    match Builtin.ofName? name.name with
    | some function => pure (.builtin function)
    | none => raise (.notFound name)

/-- Binds a name in the innermost frame. -/
def define (name : String) (value : Value) : Evaluation Unit :=
  fun ⟨store, environment, depth, identities, printed⟩ =>
    (.ok (), ⟨store.define environment name value, environment, depth, identities, printed⟩)

/-- Changes the innermost visible binding of a name. -/
def assign (name : Identifier) (value : Value) : Evaluation Unit :=
  fun ⟨store, environment, depth, identities, printed⟩ =>
    match store.assign environment name.name value with
    | (true, store) => (.ok (), ⟨store, environment, depth, identities, printed⟩)
    | (false, store) =>
      (.error (.raised (.notDefined name)), ⟨store, environment, depth, identities, printed⟩)

/-- Prints a line. -/
def printLine (sink : Sink) (line : String) : Evaluation Unit := fun state =>
  match sink with
  | .accepting => (.ok (), { state with printed := state.printed ++ line ++ "\n" })
  | .refusing reason => (.error (.raised (.printing reason)), state)

/-- Comes back to an environment after an evaluation. -/
def restore (environment : Environment) :
    Except Interrupt α × State → Except Interrupt α × State
  | (outcome, after) => (outcome, { after with environment })

/-- Evaluates under a new frame on top of an environment, and comes back to the current
environment whatever the outcome. -/
def withFrame (parent : Environment) (frame : Frame) (body : Evaluation α) : Evaluation α :=
  fun ⟨store, environment, depth, identities, printed⟩ =>
    let place := store.frames.size
    restore environment
      (body ⟨store.push frame, place :: parent, depth, identities, printed⟩)

/-- Evaluates under a new frame on top of the current environment. -/
def withChildFrame (frame : Frame) (body : Evaluation α) : Evaluation α := do
  let current ← state
  withFrame current.environment frame body

/-- Counts the evaluation as an active call. -/
def asCall (body : Evaluation α) : Evaluation α := fun state =>
  match body { state with depth := state.depth + 1 } with
  | (outcome, after) => (outcome, { after with depth := after.depth - 1 })

/-- The outcome of a function body as the outcome of its call. -/
def settleCall (body : Evaluation Value) : Evaluation Value := fun state =>
  match body state with
  | (.error (.returned value), state) => (.ok value, state)
  | (.error (.broken location), state) => (.error (.raised (.strayBreak location)), state)
  | (.error (.continued location), state) => (.error (.raised (.strayContinue location)), state)
  | other => other

/-- The outcome of one iteration of a loop: whether the loop goes on. -/
def settleIteration (body : Evaluation Value) : Evaluation Bool := fun state =>
  match body state with
  | (.ok _, state) => (.ok true, state)
  | (.error (.continued _), state) => (.ok true, state)
  | (.error (.broken _), state) => (.ok false, state)
  | (.error interrupt, state) => (.error interrupt, state)

/-- Handles a raised fault, and no other interruption. -/
def handling (body : Evaluation α) (handler : Fault → Evaluation α) : Evaluation α := fun state =>
  match body state with
  | (.error (.raised fault), state) => handler fault state
  | other => other

/-- Evaluates `finalizer` after every outcome of `body` but an abort. The outcome of `body`
stays, unless the finalizer is interrupted itself. -/
def ensuring (body : Evaluation α) (finalizer : Evaluation Value) : Evaluation α := fun state =>
  match body state with
  | (.error (.overflowed overflow), state) => (.error (.overflowed overflow), state)
  | (.error .crashed, state) => (.error .crashed, state)
  | (.error .exhausted, state) => (.error .exhausted, state)
  | (outcome, state) =>
    match finalizer state with
    | (.ok _, state) => (outcome, state)
    | (.error interrupt, state) => (.error interrupt, state)

end Evaluation

end Script
