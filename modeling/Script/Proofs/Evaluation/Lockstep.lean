import Script.Proofs.Evaluation.Operation
import Script.Proofs.Evaluation.Scopes

/-!
# Runs in lockstep

Two runs of the same code go on in lockstep when every primitive operation has the same outcome in
both. What their states may differ in, the code must not come to see: a `Discipline` says which
code, values and faults may occur, and a `Lockstep` which stores and which printed texts belong
together. When it is lawful, the combinators of evaluations keep the runs together. A run beside
itself is a special case, in which only the discipline counts.
-/

namespace Script

mutual

/-- The values inside of a value that are neither arrays nor hashes. -/
def Value.atoms : Value → List Value
  | .array _ elements => Value.atomsAll elements
  | .hash _ entries => Entry.atomsAll entries
  | value => [value]
termination_by structural value => value

/-- The values inside of several values that are neither arrays nor hashes. -/
def Value.atomsAll : List Value → List Value
  | [] => []
  | value :: rest => value.atoms ++ Value.atomsAll rest
termination_by structural values => values

/-- The values inside of an entry that are neither arrays nor hashes. -/
def Entry.atoms : Entry → List Value
  | ⟨_, key, value⟩ => key.atoms ++ value.atoms
termination_by structural entry => entry

/-- The values inside of several entries that are neither arrays nor hashes. -/
def Entry.atomsAll : List Entry → List Value
  | [] => []
  | entry :: rest => entry.atoms ++ Entry.atomsAll rest
termination_by structural entries => entries

end

theorem Value.mem_atomsAll {atom : Value} {values : List Value} :
    atom ∈ Value.atomsAll values ↔ ∃ value ∈ values, atom ∈ value.atoms := by
  induction values with
  | nil => simp [Value.atomsAll]
  | cons value rest ih => simp [Value.atomsAll, ih]

theorem Entry.mem_atomsAll {atom : Value} {entries : List Entry} :
    atom ∈ Entry.atomsAll entries ↔
      ∃ entry ∈ entries, atom ∈ entry.key.atoms ∨ atom ∈ entry.value.atoms := by
  induction entries with
  | nil => simp [Entry.atomsAll]
  | cons entry rest ih =>
      obtain ⟨hashKey, key, value⟩ := entry
      simp [Entry.atomsAll, Entry.atoms, ih, or_assoc]

/-! ## What may occur -/

/-- What may occur in a run. Code is told whether it stands in the body of a loop of the same
function. -/
structure Discipline where
  /-- The environments that code may run in. -/
  scope : Environment → Prop
  /-- The names that code may bind and look up. -/
  name : String → Prop
  expr : (inLoop : Bool) → Expr → Prop
  statement : (inLoop : Bool) → Statement → Prop
  literal : FunctionLiteral → Prop
  /-- The faults that may be raised. -/
  fault : Fault → Prop
  /-- Whether code may end in a `break` or a `continue`. -/
  jumps : (inLoop : Bool) → Prop

namespace Discipline

variable (D : Discipline)

/-- What holds of a block is what holds of its statements. -/
def block (inLoop : Bool) (block : Block) : Prop :=
  ∀ statement ∈ block.statements, D.statement inLoop statement

/-- What holds of a pair is what holds of its key and of its value. -/
def pair (inLoop : Bool) (pair : Pair) : Prop :=
  D.expr inLoop pair.key ∧ D.expr inLoop pair.value

/-- What holds of the parts of an expression. -/
def exprParts (inLoop : Bool) : Expr → Prop
  | .identifier name => D.name name.name
  | .integer _ _ _ | .float _ _ _ | .boolean _ _ | .string _ _ => True
  | .array _ elements => ∀ element ∈ elements, D.expr inLoop element
  | .hash _ pairs => ∀ pair ∈ pairs, D.pair inLoop pair
  | .function literal => D.literal literal
  | .unary _ _ operand => D.expr inLoop operand
  | .binary _ left _ right => D.expr inLoop left ∧ D.expr inLoop right
  | .assign _ target value => D.name target.name ∧ D.expr inLoop value
  | .index _ collection index => D.expr inLoop collection ∧ D.expr inLoop index
  | .call _ callee arguments =>
    D.expr inLoop callee ∧ ∀ argument ∈ arguments, D.expr inLoop argument
  | .conditional _ condition consequence alternative =>
    D.expr inLoop condition ∧ D.block inLoop consequence ∧
      ∀ block ∈ alternative, D.block inLoop block

/-- What holds of the parts of a statement. The header of a loop is not in its body. -/
def statementParts (inLoop : Bool) : Statement → Prop
  | .letBinding _ target value => D.name target.name ∧ D.expr inLoop value
  | .returnValue _ value | .expression _ value => D.expr inLoop value
  | .forLoop _ element iterable body =>
    D.name element.name ∧ D.expr inLoop iterable ∧ D.block true body
  | .whileLoop _ condition body => D.expr inLoop condition ∧ D.block true body
  | .breakLoop _ | .continueLoop _ => D.jumps inLoop
  | .tryCatch _ body error handler finalizer =>
    D.block inLoop body ∧ D.name error.name ∧ D.block inLoop handler ∧
      ∀ block ∈ finalizer, D.block inLoop block

/-- What holds of a value without elements and entries. -/
def atom : Value → Prop
  | .function _ closure literal => D.scope closure ∧ D.literal literal
  | .error _ fault => D.fault fault
  | _ => True

def value (value : Value) : Prop :=
  ∀ atom ∈ value.atoms, D.atom atom

def values (values : List Value) : Prop :=
  ∀ value ∈ values, D.value value

def entries (entries : List Entry) : Prop :=
  ∀ atom ∈ Entry.atomsAll entries, D.atom atom

/-- What holds of the bindings of a frame. -/
def frame (frame : Frame) : Prop :=
  ∀ binding ∈ frame, D.name binding.1 ∧ D.value binding.2

/-- What holds of an outcome. -/
def outcome {α : Type} (valid : α → Prop) (inLoop : Bool) : Except Interrupt α → Prop
  | .ok result => valid result
  | .error (.returned value) => D.value value
  | .error (.broken _) | .error (.continued _) => D.jumps inLoop
  | .error (.raised fault) => D.fault fault
  | .error (.overflowed _) | .error .crashed | .error .exhausted => True

/-! ## Values and their parts -/

variable {D}

theorem value_plain {value : Value} (h : value.isPlain = true) : D.value value := by
  cases value with
  | array | hash | function | error => cases h
  | integer | float | string | boolean | null | builtin =>
      intro atom hatom
      rw [List.mem_singleton.1 hatom]
      trivial

theorem value_array {identity : Identity} {elements : List Value} :
    D.value (.array identity elements) ↔ D.values elements := by
  constructor
  · intro h element helement atom hatom
    exact h atom (Value.mem_atomsAll.2 ⟨element, helement, hatom⟩)
  · intro h atom hatom
    obtain ⟨element, helement, hmem⟩ := Value.mem_atomsAll.1 hatom
    exact h element helement atom hmem

theorem value_function {identity : Identity} {closure : Environment} {literal : FunctionLiteral} :
    D.value (.function identity closure literal) ↔ D.scope closure ∧ D.literal literal :=
  List.forall_mem_singleton

theorem value_error {identity : Identity} {fault : Fault} :
    D.value (.error identity fault) ↔ D.fault fault :=
  List.forall_mem_singleton

theorem entries_iff {entries : List Entry} :
    D.entries entries ↔ ∀ entry ∈ entries, D.value entry.key ∧ D.value entry.value := by
  constructor
  · exact fun h entry hentry =>
      ⟨fun atom hatom => h atom (Entry.mem_atomsAll.2 ⟨entry, hentry, .inl hatom⟩),
        fun atom hatom => h atom (Entry.mem_atomsAll.2 ⟨entry, hentry, .inr hatom⟩)⟩
  · intro h atom hatom
    obtain ⟨entry, hentry, hmem | hmem⟩ := Entry.mem_atomsAll.1 hatom
    · exact (h entry hentry).1 atom hmem
    · exact (h entry hentry).2 atom hmem

theorem entries_nil : D.entries [] :=
  List.forall_mem_nil _

theorem entries_insert {entries : List Entry} {key value : Value} {hashKey : HashKey}
    (h : D.entries entries) (hkey : D.value key) (hvalue : D.value value) :
    D.entries (Entry.insert ⟨hashKey, key, value⟩ entries) := by
  rw [entries_iff] at h ⊢
  intro entry hentry
  rcases Entry.mem_insert hentry with rfl | hold
  · exact ⟨hkey, hvalue⟩
  · exact h entry hold

theorem entries_erase {entries : List Entry} {hashKey : HashKey} (h : D.entries entries) :
    D.entries (Entry.erase hashKey entries) := by
  rw [entries_iff] at h ⊢
  exact fun entry hentry => h entry (List.mem_of_mem_eraseP hentry)

/-- A frame made of bindings has these bindings only. -/
theorem frame_ofPairs {bindings : List (String × Value)} (h : D.frame bindings) :
    D.frame (Frame.ofPairs bindings) := by
  suffices hfold : ∀ frame : Frame, D.frame frame →
      D.frame (bindings.foldl (fun frame pair => frame.put pair.1 pair.2) frame) from
    hfold [] (List.forall_mem_nil _)
  induction bindings with
  | nil => exact fun frame hframe => hframe
  | cons first rest ih =>
      obtain ⟨hfirst, hrest⟩ := List.forall_mem_cons.1 h
      intro frame hframe
      refine ih hrest _ fun binding hbinding => ?_
      rcases Frame.mem_put hbinding with rfl | hold
      · exact hfirst
      · exact hframe binding hold

/-- The parameters of a function and its arguments. -/
theorem frame_bind {literal : FunctionLiteral} {arguments : List Value}
    (hparameters : ∀ parameter ∈ literal.parameters, D.name parameter.name)
    (harguments : D.values arguments) : D.frame (literal.bind arguments) := by
  refine frame_ofPairs fun binding hbinding => ?_
  obtain ⟨hname, hvalue⟩ := List.of_mem_zip hbinding
  obtain ⟨parameter, hparameter, heq⟩ := List.mem_map.1 hname
  exact ⟨heq ▸ hparameters parameter hparameter, harguments _ hvalue⟩

/-! ## Outcomes -/

variable {α β : Type} {valid : α → Prop} {valid' : β → Prop} {inLoop : Bool}

/-- What holds of an interruption does not depend on the result that is missing. -/
theorem outcome_error {cause : Interrupt} (h : D.outcome valid inLoop (.error cause)) :
    D.outcome valid' inLoop (.error cause) := by
  cases cause <;> exact h

end Discipline

/-! ## Two runs -/

/-- Two runs of the same code, whose states may differ. -/
structure Lockstep extends Discipline where
  /-- The stores that belong together. -/
  stores : Store → Store → Prop
  /-- The printed texts that belong together. -/
  printed : String → String → Prop

namespace Lockstep

variable (L : Lockstep) {α β : Type}

/-- The states that belong together differ in their stores and their printed texts only. -/
structure states (first second : State) : Prop where
  stores : L.stores first.store second.store
  printed : L.printed first.printed second.printed
  scope : L.scope first.environment
  environment : second.environment = first.environment
  depth : second.depth = first.depth
  identities : second.identities = first.identities

/-- Two runs end with the same outcome, in states that belong together. -/
inductive Ends (valid : α → Prop) (inLoop : Bool) :
    Except Interrupt α × State → Except Interrupt α × State → Prop where
  | intro {outcome : Except Interrupt α} {last last' : State} :
    L.outcome valid inLoop outcome → L.states last last' →
    Ends valid inLoop (outcome, last) (outcome, last')

/-- Started in states that belong together, an evaluation ends with the same outcome in both, which
is valid, and in states that belong together again. -/
def Keeps (valid : α → Prop) (inLoop : Bool) (evaluation : Evaluation α) : Prop :=
  ∀ first second, L.states first second →
    L.Ends valid inLoop (evaluation first) (evaluation second)

/-- The laws of a lockstep: what holds of code holds of its parts, and the primitive operations
that read or change a state have the same outcome in both runs. -/
structure Lawful : Prop where
  expr {inLoop : Bool} {expr : Expr} : L.expr inLoop expr → L.exprParts inLoop expr
  statement {inLoop : Bool} {statement : Statement} :
    L.statement inLoop statement → L.statementParts inLoop statement
  literal {literal : FunctionLiteral} :
    L.literal literal →
      (∀ parameter ∈ literal.parameters, L.name parameter.name) ∧ L.block false literal.body
  harmless {fault : Fault} : fault.isStray = false → L.fault fault
  stray {fault : Fault} : L.jumps false → L.fault fault
  find {store store' : Store} {environment : Environment} {name : String} :
    L.stores store store' → L.scope environment → L.name name →
      store'.find? environment name = store.find? environment name ∧
        ∀ value, store.find? environment name = some value → L.value value
  holder {store store' : Store} {environment : Environment} {name : String} :
    L.stores store store' → L.scope environment → L.name name →
      store'.holder? environment name = store.holder? environment name
  put {store store' : Store} {environment : Environment} {id : FrameId} {name : String}
      {value : Value} :
    L.stores store store' → L.scope environment → id ∈ environment → L.name name →
      L.value value → L.stores (store.put id name value) (store'.put id name value)
  push {store store' : Store} {parent : Environment} {frame : Frame} :
    L.stores store store' → L.scope parent → L.frame frame →
      store'.frames.size = store.frames.size ∧ L.stores (store.push frame) (store'.push frame) ∧
        L.scope (store.frames.size :: parent)
  print {printed printed' : String} (text : String) :
    L.printed printed printed' → L.printed (printed ++ text) (printed' ++ text)

/-! ## Combinators -/

variable {L} {valid : α → Prop} {valid' : β → Prop} {inLoop : Bool}

/-- A result that the first run gives, the second one gives too. -/
theorem Keeps.ok {evaluation : Evaluation α} {result : α} {first second last : State}
    (h : L.Keeps valid inLoop evaluation) (hstates : L.states first second)
    (heval : evaluation first = (.ok result, last)) :
    ∃ last', evaluation second = (.ok result, last') ∧ L.states last last' ∧ valid result := by
  have hends := h first second hstates
  rw [heval] at hends
  generalize evaluation second = ended at hends ⊢
  cases hends with
  | intro houtcome hlast => exact ⟨_, rfl, hlast, houtcome⟩

/-- So it is with an interruption. -/
theorem Keeps.after {evaluation : Evaluation α} {outcome : Except Interrupt α}
    {first second last : State} (h : L.Keeps valid inLoop evaluation)
    (hstates : L.states first second) (heval : evaluation first = (outcome, last)) :
    ∃ last', evaluation second = (outcome, last') ∧ L.states last last' ∧
      L.outcome valid inLoop outcome := by
  have hends := h first second hstates
  rw [heval] at hends
  generalize evaluation second = ended at hends ⊢
  cases hends with
  | intro houtcome hlast => exact ⟨_, rfl, hlast, houtcome⟩

/-- An evaluation that leaves the state alone. -/
theorem Keeps.still {evaluation : Evaluation α} {result : Except Interrupt α}
    (h : ∀ state, evaluation state = (result, state)) (hresult : L.outcome valid inLoop result) :
    L.Keeps valid inLoop evaluation := by
  intro first second hstates
  rw [h, h]
  exact .intro hresult hstates

theorem Keeps.pure {result : α} (h : valid result) : L.Keeps valid inLoop (Pure.pure result) :=
  .still (fun _ => rfl) h

theorem Keeps.exhausted : L.Keeps valid inLoop Evaluation.exhausted :=
  .still (fun _ => rfl) trivial

theorem Keeps.bind {evaluation : Evaluation α} {next : α → Evaluation β}
    (h : L.Keeps valid inLoop evaluation)
    (hnext : ∀ result, valid result → L.Keeps valid' inLoop (next result)) :
    L.Keeps valid' inLoop (evaluation >>= next) := by
  intro first second hstates
  have hends := h first second hstates
  rw [Evaluation.bind_apply, Evaluation.bind_apply]
  generalize evaluation first = ended, evaluation second = ended' at hends
  cases hends with
  | @intro outcome last last' houtcome hlast =>
      cases outcome with
      | ok result => exact hnext result houtcome last last' hlast
      | error cause =>
          -- the second evaluation does not start
          exact .intro (Discipline.outcome_error houtcome) hlast

/-- The outcome of a call is no jump: what its body makes of one is a fault. -/
theorem Lawful.settleCall (hL : L.Lawful) {body : Evaluation Value}
    (h : L.Keeps L.value false body) :
    L.Keeps L.value inLoop (Evaluation.settleCall body) := by
  intro first second hstates
  have hends := h first second hstates
  unfold Evaluation.settleCall
  generalize body first = ended, body second = ended' at hends
  cases hends with
  | @intro outcome last last' houtcome hlast =>
      cases outcome with
      | ok value => exact .intro houtcome hlast
      | error cause =>
          cases cause with
          | returned value => exact .intro houtcome hlast
          | broken location | continued location => exact .intro (hL.stray houtcome) hlast
          | raised fault => exact .intro houtcome hlast
          | overflowed | crashed | exhausted => exact .intro trivial hlast

/-- Jumps do not leave an iteration. -/
theorem Keeps.settleIteration {body : Evaluation Value} (h : L.Keeps L.value true body) :
    L.Keeps (fun _ => True) inLoop (Evaluation.settleIteration body) := by
  intro first second hstates
  have hends := h first second hstates
  unfold Evaluation.settleIteration
  generalize body first = ended, body second = ended' at hends
  cases hends with
  | @intro outcome last last' houtcome hlast =>
      cases outcome with
      | ok value => exact .intro trivial hlast
      | error cause =>
          cases cause with
          | returned value => exact .intro houtcome hlast
          | broken location | continued location => exact .intro trivial hlast
          | raised fault => exact .intro houtcome hlast
          | overflowed | crashed | exhausted => exact .intro trivial hlast

theorem Keeps.handling {body : Evaluation α} {handler : Fault → Evaluation α}
    (hbody : L.Keeps valid inLoop body)
    (hhandler : ∀ fault, L.fault fault → L.Keeps valid inLoop (handler fault)) :
    L.Keeps valid inLoop (Evaluation.handling body handler) := by
  intro first second hstates
  have hends := hbody first second hstates
  unfold Evaluation.handling
  generalize body first = ended, body second = ended' at hends
  cases hends with
  | @intro outcome last last' houtcome hlast =>
      rcases outcome with (_ | _ | _ | fault | _ | _ | _) | _
      case error.raised => exact hhandler fault houtcome last last' hlast
      all_goals exact .intro houtcome hlast

/-- The outcome of the body stays, unless the finalizer is interrupted itself. -/
theorem Keeps.ensuring {body : Evaluation α} {finalizer : Evaluation Value}
    (hbody : L.Keeps valid inLoop body) (hfinalizer : L.Keeps L.value inLoop finalizer) :
    L.Keeps valid inLoop (Evaluation.ensuring body finalizer) := by
  intro first second hstates
  have hends := hbody first second hstates
  generalize hfirst : body first = ended, hsecond : body second = ended' at hends
  cases hends with
  | @intro outcome last last' houtcome hlast =>
      cases haborts : Evaluation.aborts outcome with
      | true =>
          rw [Evaluation.ensuring_aborted hfirst haborts,
            Evaluation.ensuring_aborted hsecond haborts]
          exact .intro houtcome hlast
      | false =>
          rw [Evaluation.ensuring_apply hfirst haborts, Evaluation.ensuring_apply hsecond haborts]
          exact hfinalizer.bind (fun _ _ => .still (fun _ => rfl) houtcome) last last' hlast

namespace Lawful

theorem raise (hL : L.Lawful) {fault : Fault} (h : fault.isStray = false) :
    L.Keeps valid inLoop (Evaluation.raise fault) :=
  .still (fun _ => rfl) (hL.harmless h)

theorem ofExcept (hL : L.Lawful) {result : Except Fault α}
    (h : ∀ a, result = .ok a → valid a)
    (hfault : ∀ fault, result = .error fault → fault.isStray = false) :
    L.Keeps valid inLoop (Evaluation.ofExcept result) := by
  cases result with
  | ok a => exact .pure (h a rfl)
  | error fault => exact hL.raise (hfault fault rfl)

/-- Both runs hand out the same identity. -/
theorem freshIdentity : L.Keeps (fun _ => True) inLoop Evaluation.freshIdentity := by
  intro first second hstates
  show L.Ends _ _ (Except.ok first.identities, { first with identities := first.identities + 1 })
    (Except.ok second.identities, { second with identities := second.identities + 1 })
  rw [hstates.identities]
  exact .intro trivial { hstates with identities := rfl }

theorem newArray {elements : List Value} (h : L.values elements) :
    L.Keeps L.value inLoop (Evaluation.newArray elements) :=
  freshIdentity.bind fun _ _ => .pure (Discipline.value_array.2 h)

theorem newHash {entries : List Entry} (h : L.entries entries) :
    L.Keeps L.value inLoop (Evaluation.newHash entries) :=
  freshIdentity.bind fun _ _ => .pure h

theorem newError {fault : Fault} (h : L.fault fault) :
    L.Keeps L.value inLoop (Evaluation.newError fault) :=
  freshIdentity.bind fun _ _ => .pure (Discipline.value_error.2 h)

/-- Both runs make a function of the same environment. -/
theorem newFunction {literal : FunctionLiteral} (h : L.literal literal) :
    L.Keeps L.value inLoop (Evaluation.newFunction literal) := by
  refine freshIdentity.bind fun identity _ first second hstates => ?_
  show L.Ends _ _ (Except.ok (Value.function identity first.environment literal), first)
    (Except.ok (Value.function identity second.environment literal), second)
  rw [hstates.environment]
  exact .intro (Discipline.value_function.2 ⟨hstates.scope, h⟩) hstates

theorem lookup (hL : L.Lawful) {name : Identifier} (h : L.name name.name) :
    L.Keeps L.value inLoop (Evaluation.lookup name) := by
  intro first second hstates
  obtain ⟨hsame, hfound⟩ := hL.find hstates.stores hstates.scope h
  simp only [Evaluation.lookup, Evaluation.bind_apply, Evaluation.state, hstates.environment, hsame]
  cases hvalue : first.store.find? first.environment name.name with
  | some value => exact .intro (hfound value hvalue) hstates
  | none =>
      cases Builtin.ofName? name.name with
      | some function => exact .intro (Discipline.value_plain rfl) hstates
      | none => exact .intro (hL.harmless rfl) hstates

theorem define (hL : L.Lawful) {name : String} {value : Value} (hname : L.name name)
    (hvalue : L.value value) :
    L.Keeps (fun _ => True) inLoop (Evaluation.define name value) := by
  intro first second hstates
  have hstores : L.stores (first.store.define first.environment name value)
      (second.store.define second.environment name value) := by
    rw [hstates.environment]
    cases henvironment : first.environment with
    | nil => exact hstates.stores
    | cons id rest =>
        have hid : id ∈ first.environment := henvironment ▸ .head _
        exact hL.put hstates.stores hstates.scope hid hname hvalue
  exact .intro trivial { hstates with stores := hstores }

/-- Both runs change the binding in the same frame. -/
theorem assign (hL : L.Lawful) {name : Identifier} {value : Value} (hname : L.name name.name)
    (hvalue : L.value value) :
    L.Keeps (fun _ => True) inLoop (Evaluation.assign name value) := by
  intro first second hstates
  have hsame : second.store.holder? second.environment name.name =
      first.store.holder? first.environment name.name := by
    rw [hstates.environment]
    exact hL.holder hstates.stores hstates.scope hname
  rw [Evaluation.assign_apply, Evaluation.assign_apply, hsame]
  cases hholder : first.store.holder? first.environment name.name with
  | some id =>
      have hid : id ∈ first.environment := List.mem_of_find?_eq_some hholder
      exact .intro trivial
        { hstates with stores := hL.put hstates.stores hstates.scope hid hname hvalue }
  | none => exact .intro (hL.harmless rfl) hstates

theorem printLine (hL : L.Lawful) (sink : Sink) (line : String) :
    L.Keeps (fun _ => True) inLoop (Evaluation.printLine sink line) := by
  intro first second hstates
  cases sink with
  | accepting =>
      exact .intro trivial
        { hstates with printed := hL.print "\n" (hL.print line hstates.printed) }
  | refusing reason => exact .intro (hL.harmless rfl) hstates

/-- States that belong together still do in a new frame. -/
theorem states_enter (hL : L.Lawful) {first second : State} {parent : Environment} {frame : Frame}
    (hstates : L.states first second) (hparent : L.scope parent) (hframe : L.frame frame) :
    L.states (first.enter parent frame) (second.enter parent frame) := by
  obtain ⟨hsize, hstores, hscope⟩ := hL.push hstates.stores hparent hframe
  exact { hstates with
    stores := hstores
    scope := hscope
    environment := congrArg (· :: parent) hsize }

theorem withFrame (hL : L.Lawful) {parent : Environment} {frame : Frame} {body : Evaluation Value}
    (hparent : L.scope parent) (hframe : L.frame frame) (hbody : L.Keeps L.value inLoop body) :
    L.Keeps L.value inLoop (Evaluation.withFrame parent frame body) := by
  intro first second hstates
  have hends := hbody _ _ (hL.states_enter hstates hparent hframe)
  show L.Ends _ _ (Evaluation.restore first.environment (body (first.enter parent frame)))
    (Evaluation.restore second.environment (body (second.enter parent frame)))
  generalize body (first.enter parent frame) = ended, body (second.enter parent frame) = ended'
    at hends
  cases hends with
  | intro houtcome hlast =>
      exact .intro houtcome
        { hlast with scope := hstates.scope, environment := hstates.environment }

theorem withChildFrame (hL : L.Lawful) {frame : Frame} {body : Evaluation Value}
    (hframe : L.frame frame) (hbody : L.Keeps L.value inLoop body) :
    L.Keeps L.value inLoop (Evaluation.withChildFrame frame body) := by
  intro first second hstates
  have hends := hL.withFrame hstates.scope hframe hbody first second hstates
  show L.Ends _ _ (Evaluation.withFrame first.environment frame body first)
    (Evaluation.withFrame second.environment frame body second)
  rw [hstates.environment]
  exact hends

end Lawful

theorem Keeps.asCall {body : Evaluation Value} (h : L.Keeps L.value inLoop body) :
    L.Keeps L.value inLoop (Evaluation.asCall body) := by
  intro first second hstates
  have hcounted : L.states { first with depth := first.depth + 1 }
      { second with depth := second.depth + 1 } :=
    { hstates with depth := congrArg (· + 1) hstates.depth }
  have hends := h _ _ hcounted
  unfold Evaluation.asCall
  generalize body { first with depth := first.depth + 1 } = ended,
    body { second with depth := second.depth + 1 } = ended' at hends
  cases hends with
  | intro houtcome hlast =>
      exact .intro houtcome { hlast with depth := congrArg (· - 1) hlast.depth }

end Lockstep

end Script
