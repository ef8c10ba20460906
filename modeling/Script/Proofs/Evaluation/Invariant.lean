import Script.Evaluation

/-!
# Invariants of evaluations

An invariant says what holds of states and values. What it says may depend on a world, such as
the frames created so far, that moves on in the course of an evaluation. An invariant is lawful
when the primitive operations keep it; then the combinators of evaluations keep it too, whatever
their outcome.
-/

namespace Script

/-- Values that have no parts and no identity. -/
def Value.isPlain : Value → Bool
  | .integer _ | .float _ | .string _ | .boolean _ | .null | .builtin _ => true
  | .array _ _ | .hash _ _ | .function _ _ _ | .error _ _ => false

/-- A state in a new frame on top of an environment. -/
def State.enter (state : State) (parent : Environment) (frame : Frame) : State :=
  { state with
    store := state.store.push frame
    environment := state.store.frames.size :: parent }

/-- What is said of states and values. -/
structure Invariant where
  /-- What the statements depend on. -/
  World : Type
  /-- How a world may move on from the start of an evaluation to its end. -/
  Leads : World → World → Prop
  /-- What holds of a state. -/
  state : World → State → Prop
  /-- What holds of a value. -/
  value : World → Value → Prop
  /-- What holds of the entries of a hash. -/
  entries : World → List Entry → Prop
  /-- What holds of the current environment, and of the one that a function was created under. -/
  scope : World → Environment → Prop

/-- An assignment changes the innermost frame that binds the name, or nothing. -/
theorem Evaluation.assign_apply (name : Identifier) (value : Value) (state : State) :
    Evaluation.assign name value state =
      match state.store.holder? state.environment name.name with
      | some id => (.ok (), { state with store := state.store.put id name.name value })
      | none => (.error (.raised (.notDefined name)), state) := by
  simp only [Evaluation.assign, Store.assign]
  cases state.store.holder? state.environment name.name <;> rfl

namespace Evaluation

variable {α : Type}

/-- Has the given outcome, and does nothing else. -/
def ending (outcome : Except Interrupt α) : Evaluation α := fun state => (outcome, state)

/-- Whether an outcome is an abort, after which no finalizer runs. -/
def aborts : Except Interrupt α → Bool
  | .error (.overflowed _) | .error .crashed | .error .exhausted => true
  | _ => false

theorem aborts_iff {outcome : Except Interrupt α} :
    aborts outcome = true ↔ (∃ overflow, outcome = .error (.overflowed overflow)) ∨
      outcome = .error .crashed ∨ outcome = .error .exhausted := by
  rcases outcome with (_ | _ | _ | _ | _ | _ | _) | _ <;> simp [aborts]

theorem not_aborts_iff {outcome : Except Interrupt α} :
    aborts outcome = false ↔ (∀ overflow, outcome ≠ .error (.overflowed overflow)) ∧
      outcome ≠ .error .crashed ∧ outcome ≠ .error .exhausted := by
  rw [← Bool.not_eq_true, aborts_iff, not_or, not_or, not_exists]

/-- After a body that was not aborted its finalizer runs, and then the outcome of the body
stands. -/
theorem ensuring_apply {body : Evaluation α} {finalizer : Evaluation Value}
    {outcome : Except Interrupt α} {state middle : State} (hbody : body state = (outcome, middle))
    (haborts : aborts outcome = false) :
    ensuring body finalizer state = (finalizer >>= fun _ => ending outcome) middle := by
  rw [bind_apply, ensuring, hbody]
  rcases outcome with (_ | _ | _ | _ | overflow | _ | _) | value
  case error.overflowed | error.crashed | error.exhausted => cases haborts
  all_goals
    dsimp only
    rcases finalizer middle with ⟨_ | _, _⟩ <;> rfl

/-- An abort is passed on, and no finalizer runs. -/
theorem ensuring_aborted {body : Evaluation α} {finalizer : Evaluation Value}
    {outcome : Except Interrupt α} {state middle : State} (hbody : body state = (outcome, middle))
    (haborts : aborts outcome = true) : ensuring body finalizer state = (outcome, middle) := by
  rw [ensuring, hbody]
  rcases aborts_iff.1 haborts with ⟨overflow, rfl⟩ | rfl | rfl <;> rfl

end Evaluation

/-- Binding a name leaves only bindings that were there before. -/
theorem Frame.mem_put {frame : Frame} {name : String} {value : Value} {binding : String × Value}
    (h : binding ∈ frame.put name value) : binding = (name, value) ∨ binding ∈ frame := by
  induction frame with
  | nil => exact .inl (List.mem_singleton.1 h)
  | cons first rest ih =>
      obtain ⟨other, old⟩ := first
      rw [Frame.put] at h
      split at h
      · rcases List.mem_cons.1 h with rfl | h
        · exact .inl rfl
        · exact .inr (.tail _ h)
      · rcases List.mem_cons.1 h with rfl | h
        · exact .inr (.head _)
        · exact (ih h).imp_right (List.Mem.tail _)

namespace Invariant

variable {α β : Type} (I : Invariant)

/-- The values of the first world are values of the second one. -/
def Within (first second : I.World) : Prop :=
  ∀ value, I.value first value → I.value second value

/-- What holds of the values of a list. -/
def values (world : I.World) (values : List Value) : Prop :=
  ∀ value ∈ values, I.value world value

/-- What holds of an outcome. Only a return carries a value out of an interruption. -/
def outcome (valid : I.World → α → Prop) (world : I.World) : Except Interrupt α → Prop
  | .ok result => valid world result
  | .error (.returned value) => I.value world value
  | .error _ => True

/-- Started in the given world, an evaluation ends in one that the world leads to, with a valid
outcome. -/
def Keeps (valid : I.World → α → Prop) (world : I.World) (evaluation : Evaluation α) : Prop :=
  ∀ state, I.state world state → ∃ last, I.Leads world last ∧
    I.state last (evaluation state).2 ∧ I.outcome valid last (evaluation state).1

/-! ## Kept invariants -/

section Keeps

variable {I} {valid : I.World → α → Prop} {valid' : I.World → β → Prop} {world : I.World}

/-- What holds of an interruption does not depend on the results that are missing. -/
theorem outcome_error {interrupt : Interrupt} (h : I.outcome valid world (.error interrupt)) :
    I.outcome valid' world (.error interrupt) := by
  cases interrupt with
  | returned value => exact h
  | broken | continued | raised | overflowed | crashed | exhausted => trivial

/-- An outcome stays valid when its values do. -/
theorem outcome_mono {other : I.World} {result : Except Interrupt α}
    {valid' : I.World → α → Prop} (h : I.outcome valid world result)
    (hvalid : ∀ a, valid world a → valid' other a) (hwithin : I.Within world other) :
    I.outcome valid' other result := by
  cases result with
  | ok a => exact hvalid a h
  | error interrupt =>
      cases interrupt with
      | returned value => exact hwithin value h
      | broken | continued | raised | overflowed | crashed | exhausted => trivial

/-- An evaluation that gives a result gives a valid one. -/
theorem Keeps.ok {evaluation : Evaluation α} {result : α} {state state' : State}
    (h : I.Keeps valid world evaluation) (hstate : I.state world state)
    (heval : evaluation state = (.ok result, state')) :
    ∃ last, I.Leads world last ∧ I.state last state' ∧ valid last result := by
  obtain ⟨last, hleads, hlast, hresult⟩ := h state hstate
  rw [heval] at hlast hresult
  exact ⟨last, hleads, hlast, hresult⟩

/-- An interrupted evaluation leaves a state of the invariant as well. -/
theorem Keeps.after {evaluation : Evaluation α} {outcome : Except Interrupt α}
    {state state' : State} (h : I.Keeps valid world evaluation)
    (hstate : I.state world state) (heval : evaluation state = (outcome, state')) :
    ∃ last, I.Leads world last ∧ I.state last state' := by
  obtain ⟨last, hleads, hlast, -⟩ := h state hstate
  rw [heval] at hlast
  exact ⟨last, hleads, hlast⟩

/-- Reading the state leaves the world as it is. -/
theorem Keeps.withState {next : State → Evaluation β}
    (h : ∀ current, I.Keeps valid' world (next current)) :
    I.Keeps valid' world (Evaluation.state >>= next) :=
  fun state hstate => h state state hstate

/-- What an evaluation does with the outcome of a part, when it leaves the state of the part. -/
theorem Keeps.settle {evaluation : Evaluation α} {settled : Evaluation β}
    (h : I.Keeps valid world evaluation)
    (hstate : ∀ state, (settled state).2 = (evaluation state).2)
    (hresult : ∀ state last, I.outcome valid last (evaluation state).1 →
      I.outcome valid' last (settled state).1) :
    I.Keeps valid' world settled := by
  intro state hworld
  obtain ⟨last, hleads, hlast, houtcome⟩ := h state hworld
  refine ⟨last, hleads, ?_, hresult state last houtcome⟩
  rw [hstate]
  exact hlast

theorem Keeps.settleCall {body : Evaluation Value} (h : I.Keeps I.value world body) :
    I.Keeps I.value world (Evaluation.settleCall body) := by
  refine h.settle (fun state => ?_) (fun state last houtcome => ?_)
  · unfold Evaluation.settleCall
    split <;> simp_all
  · unfold Evaluation.settleCall
    split <;> simp_all [outcome]

theorem Keeps.settleIteration {body : Evaluation Value} (h : I.Keeps I.value world body) :
    I.Keeps (fun _ _ => True) world (Evaluation.settleIteration body) := by
  refine h.settle (fun state => ?_) (fun state last houtcome => ?_)
  · unfold Evaluation.settleIteration
    split <;> simp_all
  · unfold Evaluation.settleIteration
    split
    · trivial
    · trivial
    · trivial
    · next heq =>
        rw [heq] at houtcome
        exact outcome_error houtcome

end Keeps

variable [Host]

/-- The laws of an invariant, one for each way in which states and values are read or made. -/
structure Lawful : Prop where
  refl (world : I.World) : I.Leads world world
  trans {first second third : I.World} :
    I.Leads first second → I.Leads second third → I.Leads first third
  within {first second : I.World} : I.Leads first second → I.Within first second
  entries_leads {first second : I.World} {entries : List Entry} :
    I.Leads first second → I.entries first entries → I.entries second entries
  plain {world : I.World} {value : Value} : value.isPlain → I.value world value
  elements {world : I.World} {identity : Identity} {elements : List Value} :
    I.value world (.array identity elements) → I.values world elements
  filed {world : I.World} {identity : Identity} {entries : List Entry} :
    I.value world (.hash identity entries) → I.entries world entries
  parts {world : I.World} {entries : List Entry} {entry : Entry} :
    I.entries world entries → entry ∈ entries →
      I.value world entry.key ∧ I.value world entry.value
  entries_nil {world : I.World} : I.entries world []
  entries_insert {world : I.World} {entries : List Entry} {key value : Value} {hashKey : HashKey} :
    I.entries world entries → I.value world key → I.value world value →
      key.hashKey? = some hashKey → I.entries world (Entry.insert ⟨hashKey, key, value⟩ entries)
  entries_erase {world : I.World} {entries : List Entry} {hashKey : HashKey} :
    I.entries world entries → I.entries world (Entry.erase hashKey entries)
  closure {world : I.World} {identity : Identity} {closure : Environment}
    {literal : FunctionLiteral} :
    I.value world (.function identity closure literal) → I.scope world closure
  environment {world : I.World} {state : State} :
    I.state world state → I.scope world state.environment
  find {world : I.World} {state : State} {name : String} {value : Value} :
    I.state world state → state.store.find? state.environment name = some value →
      I.value world value
  newArray {world : I.World} {elements : List Value} :
    I.values world elements → I.Keeps I.value world (Evaluation.newArray elements)
  newHash {world : I.World} {entries : List Entry} :
    I.entries world entries → I.Keeps I.value world (Evaluation.newHash entries)
  newFunction {world : I.World} (literal : FunctionLiteral) :
    I.Keeps I.value world (Evaluation.newFunction literal)
  newError {world : I.World} (fault : Fault) :
    I.Keeps I.value world (Evaluation.newError fault)
  define {world : I.World} (name : String) {value : Value} :
    I.value world value → I.Keeps (fun _ _ => True) world (Evaluation.define name value)
  assign {world : I.World} (name : Identifier) {value : Value} :
    I.value world value → I.Keeps (fun _ _ => True) world (Evaluation.assign name value)
  printLine {world : I.World} (sink : Sink) (line : String) :
    I.Keeps (fun _ _ => True) world (Evaluation.printLine sink line)
  inFrame {world : I.World} {state : State} {parent : Environment} {frame : Frame} :
    I.state world state → I.scope world parent → (∀ binding ∈ frame, I.value world binding.2) →
      ∃ inner, I.Within world inner ∧ I.state inner (state.enter parent frame) ∧
        ∀ last state', I.Leads inner last → I.state last state' →
          ∃ outer, I.Leads world outer ∧ I.Within last outer ∧
            I.state outer { state' with environment := state.environment }
  inCall {world : I.World} {state : State} :
    I.state world state →
      ∃ inner, I.Within world inner ∧ I.state inner { state with depth := state.depth + 1 } ∧
        ∀ last state', I.Leads inner last → I.state last state' →
          ∃ outer, I.Leads world outer ∧ I.Within last outer ∧
            I.state outer { state' with depth := state'.depth - 1 }

/-! ## Combinators of lawful invariants -/

variable {I} {valid : I.World → α → Prop} {valid' : I.World → β → Prop} {world : I.World}

namespace Lawful

/-- An evaluation that leaves the state alone keeps the invariant if its outcome is valid. -/
theorem still (hI : I.Lawful) {evaluation : Evaluation α} {result : Except Interrupt α}
    (h : ∀ state, evaluation state = (result, state)) (hresult : I.outcome valid world result) :
    I.Keeps valid world evaluation := by
  intro state hstate
  rw [h]
  exact ⟨world, hI.refl world, hstate, hresult⟩

theorem pure (hI : I.Lawful) {result : α} (h : valid world result) :
    I.Keeps valid world (Pure.pure result) :=
  hI.still (fun _ => rfl) h

theorem raise (hI : I.Lawful) (fault : Fault) :
    I.Keeps valid world (Evaluation.raise fault) :=
  hI.still (fun _ => rfl) trivial

theorem exhausted (hI : I.Lawful) : I.Keeps valid world Evaluation.exhausted :=
  hI.still (fun _ => rfl) trivial

theorem ofExcept (hI : I.Lawful) {result : Except Fault α}
    (h : ∀ a, result = .ok a → valid world a) :
    I.Keeps valid world (Evaluation.ofExcept result) := by
  cases result with
  | ok a => exact hI.pure (h a rfl)
  | error fault => exact hI.raise fault

/-- Evaluations in sequence. The second one starts in a world that the first one led to. -/
theorem bind (hI : I.Lawful) {evaluation : Evaluation α} {next : α → Evaluation β}
    (h : I.Keeps valid world evaluation)
    (hnext : ∀ middle a, I.Leads world middle → valid middle a → I.Keeps valid' middle (next a)) :
    I.Keeps valid' world (evaluation >>= next) := by
  intro state hstate
  obtain ⟨middle, hleads, hmiddle, houtcome⟩ := h state hstate
  rw [Evaluation.bind_apply]
  generalize evaluation state = result at hmiddle houtcome
  obtain ⟨outcome, state'⟩ := result
  cases outcome with
  | ok a =>
      obtain ⟨last, hrest, hlast, hresult⟩ := hnext middle a hleads houtcome state' hmiddle
      exact ⟨last, hI.trans hleads hrest, hlast, hresult⟩
  | error interrupt =>
      -- the second evaluation does not start
      exact ⟨middle, hleads, hmiddle, outcome_error houtcome⟩

theorem handling (hI : I.Lawful) {body : Evaluation α} {handler : Fault → Evaluation α}
    (hbody : I.Keeps valid world body)
    (hhandler : ∀ middle fault, I.Leads world middle → I.Keeps valid middle (handler fault)) :
    I.Keeps valid world (Evaluation.handling body handler) := by
  intro state hstate
  obtain ⟨middle, hleads, hmiddle, houtcome⟩ := hbody state hstate
  unfold Evaluation.handling
  split
  · next fault state' heq =>
      rw [heq] at hmiddle
      obtain ⟨last, hrest, hlast, hresult⟩ := hhandler middle fault hleads state' hmiddle
      exact ⟨last, hI.trans hleads hrest, hlast, hresult⟩
  · exact ⟨middle, hleads, hmiddle, houtcome⟩

/-- The outcome of the body stays valid while the finalizer moves the world on. -/
theorem ensuring (hI : I.Lawful) {body finalizer : Evaluation Value}
    (hbody : I.Keeps I.value world body)
    (hfinalizer : ∀ middle, I.Leads world middle → I.Keeps I.value middle finalizer) :
    I.Keeps I.value world (Evaluation.ensuring body finalizer) := by
  intro state hstate
  obtain ⟨middle, hleads, hmiddle, houtcome⟩ := hbody state hstate
  unfold Evaluation.ensuring
  -- after an abort the finalizer does not start, and otherwise only its interruption counts
  split
  · next heq =>
      rw [heq] at hmiddle
      exact ⟨middle, hleads, hmiddle, trivial⟩
  · next heq =>
      rw [heq] at hmiddle
      exact ⟨middle, hleads, hmiddle, trivial⟩
  · next heq =>
      rw [heq] at hmiddle
      exact ⟨middle, hleads, hmiddle, trivial⟩
  · next result state' _ _ _ heq =>
      rw [heq] at hmiddle houtcome
      obtain ⟨last, hrest, hlast, hresult⟩ := hfinalizer middle hleads state' hmiddle
      split
      · next heq' =>
          rw [heq'] at hlast
          exact ⟨last, hI.trans hleads hrest, hlast,
            outcome_mono houtcome (hI.within hrest) (hI.within hrest)⟩
      · next heq' =>
          rw [heq'] at hlast hresult
          refine ⟨last, hI.trans hleads hrest, hlast, ?_⟩
          exact outcome_error hresult

/-- A body in a new frame runs in a world that knows the same values. -/
theorem withFrame (hI : I.Lawful) {parent : Environment} {frame : Frame} {body : Evaluation Value}
    (hparent : I.scope world parent) (hframe : ∀ binding ∈ frame, I.value world binding.2)
    (hbody : ∀ inner, I.Within world inner → I.Keeps I.value inner body) :
    I.Keeps I.value world (Evaluation.withFrame parent frame body) := by
  intro state hstate
  obtain ⟨inner, hwithin, hinner, hleave⟩ := hI.inFrame hstate hparent hframe
  obtain ⟨last, hleads, hlast, houtcome⟩ := hbody inner hwithin _ hinner
  obtain ⟨outer, houter, hvalues, hstate'⟩ := hleave last _ hleads hlast
  exact ⟨outer, houter, hstate', outcome_mono houtcome hvalues hvalues⟩

theorem withChildFrame (hI : I.Lawful) {frame : Frame} {body : Evaluation Value}
    (hframe : ∀ binding ∈ frame, I.value world binding.2)
    (hbody : ∀ inner, I.Within world inner → I.Keeps I.value inner body) :
    I.Keeps I.value world (Evaluation.withChildFrame frame body) := by
  intro state hstate
  exact hI.withFrame (hI.environment hstate) hframe hbody state hstate

/-- The body of a call runs in a world that knows the same values. -/
theorem asCall (hI : I.Lawful) {body : Evaluation Value}
    (hbody : ∀ inner, I.Within world inner → I.Keeps I.value inner body) :
    I.Keeps I.value world (Evaluation.asCall body) := by
  intro state hstate
  obtain ⟨inner, hwithin, hinner, hleave⟩ := hI.inCall hstate
  obtain ⟨last, hleads, hlast, houtcome⟩ := hbody inner hwithin _ hinner
  obtain ⟨outer, houter, hvalues, hstate'⟩ := hleave last _ hleads hlast
  exact ⟨outer, houter, hstate', outcome_mono houtcome hvalues hvalues⟩

theorem lookup (hI : I.Lawful) (name : Identifier) :
    I.Keeps I.value world (Evaluation.lookup name) := by
  intro state hstate
  have hfind : ∀ value, state.store.find? state.environment name.name = some value →
      I.value world value := fun _ => hI.find hstate
  simp only [Evaluation.lookup, Evaluation.bind_apply, Evaluation.state]
  cases hvalue : state.store.find? state.environment name.name with
  | some value => exact ⟨world, hI.refl world, hstate, hfind value hvalue⟩
  | none =>
      cases Builtin.ofName? name.name with
      | some function => exact ⟨world, hI.refl world, hstate, hI.plain rfl⟩
      | none => exact ⟨world, hI.refl world, hstate, trivial⟩

end Lawful

end Invariant

end Script
