import Mathlib.Order.Filter.AtTopBot.Basic
import Script.Proofs.Evaluation.Bound
import Script.Proofs.Evaluation.Restoration

/-!
# The parts of a task in order

`Task.parts` lists what a task starts, one part after the other, each with the state in which it
starts. `Starts.eventually` and `starts_of_mem_parts` say that these are the parts of `Starts`.
How a task ends, and which part is its last one, is settled as soon as the bound on nested
evaluations is large enough: `Task.Ends` and `Task.EndsWith`.
-/

namespace Script

open Filter

/-- What follows on a result. After an interruption nothing does. -/
def Evaluation.onward {α : Type} (ended : Except Interrupt α × State)
    (next : α → State → List (Task × State)) : List (Task × State) :=
  match ended with
  | (.ok result, state) => next result state
  | (.error _, _) => []

theorem Evaluation.mem_onward {α : Type} {ended : Except Interrupt α × State}
    {next : α → State → List (Task × State)} {entry : Task × State} :
    entry ∈ onward ended next ↔
      ∃ result state, ended = (.ok result, state) ∧ entry ∈ next result state := by
  rcases ended with ⟨_ | result, state⟩
  · exact ⟨fun h => absurd h List.not_mem_nil, nofun⟩
  · exact ⟨fun h => ⟨result, state, rfl, h⟩, fun ⟨_, _, heq, h⟩ => by cases heq; exact h⟩

namespace Task

open Evaluation

/-- The handler of an error that the body of a `try` ended in. -/
def handlerPart (body : Except Interrupt Value × State) (name : Identifier) (handler : Block) :
    List (Task × State) :=
  match body with
  | (.error (.raised fault), state) =>
    onward (newError fault state) fun error state =>
      [(.block handler, state.enter state.environment [(name.name, error)])]
  | _ => []

/-- The finalizer after the body and the handler of a `try`. -/
def finalizerPart (handled : Except Interrupt Value × State) (finalizer : Option Block) :
    List (Task × State) :=
  match finalizer with
  | some finalizer => if aborts handled.1 then [] else [(.block finalizer, handled.2)]
  | none => []

/-- What a task starts in the given state, in order. Each part may nest `count` evaluations. -/
def parts [Host] (settings : Settings) (count : Nat) : Task → State → List (Task × State)
  | .expr (.array _ elements), state => [(.exprs elements, state)]
  | .expr (.hash _ list), state => [(.pairs [] list, state)]
  | .expr (.unary _ _ operand), state => [(.expr operand, state)]
  | .expr (.binary _ left _ right), state =>
    (.expr left, state) ::
      onward (Expr.evaluate settings count left state) fun _ state => [(.expr right, state)]
  | .expr (.assign _ _ value), state => [(.expr value, state)]
  | .expr (.index _ collection index), state =>
    (.expr collection, state) ::
      onward (Expr.evaluate settings count collection state) fun _ state => [(.expr index, state)]
  | .expr (.call location callee arguments), state =>
    (.expr callee, state) ::
      onward (Expr.evaluate settings count callee state) fun callee state =>
        (.exprs arguments, state) ::
          onward ((Evaluators.upTo settings count).exprs arguments state) fun values state =>
            [(.call location callee values, state)]
  | .expr (.conditional _ condition consequence alternative), state =>
    (.expr condition, state) ::
      onward (Expr.evaluate settings count condition state) fun value state =>
        if value.truthy then [(.block consequence, state)]
        else alternative.toList.map fun alternative => (.block alternative, state)
  | .expr _, _ => []
  | .exprs [], _ => []
  | .exprs (first :: rest), state =>
    (.expr first, state) ::
      onward (Expr.evaluate settings count first state) fun _ state => [(.exprs rest, state)]
  | .pairs _ [], _ => []
  | .pairs entries (pair :: rest), state =>
    (.expr pair.key, state) ::
      onward (Expr.evaluate settings count pair.key state) fun key state =>
        match key.hashKey? with
        | none => []
        | some hashKey =>
          (.expr pair.value, state) ::
            onward (Expr.evaluate settings count pair.value state) fun value state =>
              [(.pairs (Entry.insert ⟨hashKey, key, value⟩ entries) rest, state)]
  | .statement (.letBinding _ _ value), state => [(.expr value, state)]
  | .statement (.returnValue _ value), state => [(.expr value, state)]
  | .statement (.expression _ value), state => [(.expr value, state)]
  | .statement (.forLoop _ element iterable body), state =>
    (.expr iterable, state) ::
      onward (Expr.evaluate settings count iterable state) fun value state =>
        value.elements?.toList.map fun elements =>
          (.forEach element.name body elements, state.enter state.environment [])
  | .statement (.whileLoop _ condition body), state =>
    [(.whileTrue condition body, state.enter state.environment [])]
  | .statement (.breakLoop _), _ => []
  | .statement (.continueLoop _), _ => []
  | .statement (.tryCatch _ body error handler finalizer), state =>
    let tried := (Evaluators.upTo settings count).block body
    let handled := handling tried ((Evaluators.upTo settings count).handle error handler)
    (.block body, state) ::
      (handlerPart (tried state) error handler ++ finalizerPart (handled state) finalizer)
  | .statements _ [], _ => []
  | .statements _ (first :: rest), state =>
    (.statement first, state) ::
      onward (Statement.execute settings count first state) fun value state =>
        [(.statements value rest, state)]
  | .forEach _ _ [], _ => []
  | .forEach name body (element :: rest), state =>
    onward (define name element state) fun _ state =>
      (.block body, state) ::
        onward (settleIteration ((Evaluators.upTo settings count).block body) state)
          fun goesOn state => if goesOn then [(.forEach name body rest, state)] else []
  | .whileTrue condition body, state =>
    (.expr condition, state) ::
      onward (Expr.evaluate settings count condition state) fun value state =>
        if value.truthy then
          (.block body, state) ::
            onward (settleIteration ((Evaluators.upTo settings count).block body) state)
              fun goesOn state => if goesOn then [(.whileTrue condition body, state)] else []
        else []
  | .call _ (.function _ closure literal) arguments, state =>
    if arguments.length = literal.parameters.length ∧ state.depth < settings.maxDepth then
      [(.block literal.body,
        State.enter { state with depth := state.depth + 1 } closure (literal.bind arguments))]
    else []
  | .call _ _ _, _ => []

end Task

/-! ## Settled outcomes -/

namespace Evaluation

variable {α : Type}

/-- Evaluations under growing bounds, of which all come to the same once one comes to an end. -/
def Steady (family : Nat → Evaluation α) : Prop :=
  ∀ ⦃count state outcome last⦄, family count state = (outcome, last) →
    outcome ≠ .error .exhausted → ∀ᶠ bound in atTop, family bound state = (outcome, last)

/-- What a task with a single value comes to. -/
theorem single_apply (evaluation : Evaluation Value) (state : State) :
    (do let value ← evaluation; pure [value] : Evaluation (List Value)) state =
      ((evaluation state).1.map fun value => [value], (evaluation state).2) := by
  rw [bind_apply]
  rcases evaluation state with ⟨_ | _, _⟩ <;> rfl

/-- What is made of the result does not matter when there is none. -/
theorem mapped_error_iff {β : Type} {evaluation : Evaluation α} {make : α → β}
    {state last : State} {cause : Interrupt} :
    (do let result ← evaluation; pure (make result) : Evaluation β) state = (.error cause, last) ↔
      evaluation state = (.error cause, last) := by
  rw [bind_apply]
  rcases evaluation state with ⟨_ | _, _⟩
  · simp
  · exact ⟨nofun, nofun⟩

/-- A task with a single value gives a value when the evaluation does. -/
theorem of_single_ok {evaluation : Evaluation Value} {state last : State} {values : List Value}
    (h : (do let value ← evaluation; pure [value] : Evaluation (List Value)) state =
      (.ok values, last)) : ∃ value, evaluation state = (.ok value, last) := by
  rw [single_apply] at h
  rcases heval : evaluation state with ⟨_ | value, middle⟩ <;> rw [heval] at h <;> cases h
  exact ⟨value, rfl⟩

namespace Steady

variable {family : Nat → Evaluation α}

/-- A value is an end. -/
theorem ok (h : Steady family) {count : Nat} {state last : State} {value : α}
    (heval : family count state = (.ok value, last)) :
    ∀ᶠ bound in atTop, family bound state = (.ok value, last) :=
  h heval nofun

/-- A larger bound to begin with makes no difference. -/
theorem shift (h : Steady family) : Steady fun count => family (count + 1) :=
  fun _ _ _ _ heval hends => (tendsto_add_atTop_nat 1).eventually (h heval hends)

/-- The value of a task with a single value. -/
theorem of_single {family : Nat → Evaluation Value}
    (h : Steady fun count => do let value ← family count; pure [value]) : Steady family := by
  intro count state outcome last heval hends
  have hsingle := h (single_apply (family count) state)
  rw [heval] at hsingle
  have hsettled : outcome.map (fun value => [value]) ≠ .error .exhausted := by
    cases outcome with
    | ok value => nofun
    | error cause => exact fun heq => hends (congrArg Except.error (Except.error.inj heq))
  filter_upwards [hsingle hsettled] with bound hbound
  rw [single_apply, Prod.mk.injEq] at hbound
  rcases hfamily : family bound state with ⟨outcome', last'⟩
  rw [hfamily] at hbound
  obtain ⟨houtcome, rfl⟩ := hbound
  cases outcome <;> cases outcome' <;> simp_all [Except.map]

/-- One iteration of a loop. -/
theorem settleIteration {family : Nat → Evaluation Value} (h : Steady family) :
    Steady fun count => Evaluation.settleIteration (family count) := by
  intro count state outcome last hsettled hends
  rcases heval : family count state with ⟨ended, middle⟩
  simp only [Evaluation.settleIteration, heval] at hsettled
  have hbody : ended ≠ .error .exhausted := by
    rintro rfl
    exact hends (Prod.mk.inj hsettled).1.symm
  filter_upwards [h heval hbody] with bound hbound
  simp only [Evaluation.settleIteration, hbound]
  exact hsettled

end Steady

end Evaluation

open Evaluation

variable [Host]

/-- Every task comes to the same under all bounds that are large enough for it. -/
theorem Task.steady (settings : Settings) (task : Task) : Steady (task.evaluate settings) := by
  intro count state outcome last (heval : task.evaluate settings count state = _) hends
  filter_upwards [eventually_ge_atTop count] with bound hbound
  rw [Task.evaluate_enough hbound (by rwa [heval]), heval]

theorem Expr.steady (settings : Settings) (expr : Expr) :
    Steady fun count => Expr.evaluate settings count expr :=
  (Task.steady settings (.expr expr)).of_single

theorem Statement.steady (settings : Settings) (statement : Statement) :
    Steady fun count => Statement.execute settings count statement :=
  (Task.steady settings (.statement statement)).of_single

theorem Block.steady (settings : Settings) (block : Block) :
    Steady fun count => (Evaluators.upTo settings count).block block :=
  (Task.steady settings (.block block)).of_single

/-- Whether a `try` statement has a finalizer or not, its body and its handler come to the same. -/
theorem Evaluators.handling_steady (settings : Settings) (body : Block) (error : Identifier)
    (handler : Block) :
    Steady fun count => handling ((Evaluators.upTo settings count).block body)
      ((Evaluators.upTo settings count).handle error handler) :=
  (Statement.steady settings (.tryCatch ⟨0, 0⟩ body error handler none)).shift

namespace Task

variable {settings : Settings} {task part : Task} {state state' last : State}

/-- A task comes to an end with the given outcome, in the given state. -/
def Ends (settings : Settings) (task : Task) (state : State)
    (outcome : Except Interrupt (List Value)) (last : State) : Prop :=
  outcome ≠ .error .exhausted ∧ ∃ count, task.evaluate settings count state = (outcome, last)

/-- The last part that a task starts. -/
def EndsWith (settings : Settings) (task : Task) (state : State) (part : Task) (state' : State) :
    Prop :=
  ∀ᶠ count in atTop, (task.parts settings count state).getLast? = some (part, state')

theorem Ends.eventually {outcome : Except Interrupt (List Value)}
    (h : task.Ends settings state outcome last) :
    ∀ᶠ count in atTop, task.evaluate settings count state = (outcome, last) := by
  obtain ⟨hends, count, heval⟩ := h
  exact Task.steady settings task heval hends

end Task

/-! ## The parts and their starts -/

/-- What a task starts is among its parts, as soon as the bound is large enough. -/
theorem Starts.eventually {settings : Settings} {task part : Task} {state state' : State}
    (h : Starts settings task state part state') :
    ∀ᶠ count in atTop, (part, state') ∈ task.parts settings count state := by
  cases h with
  | array | hash | operand | left | assigned | collection | callee | condition | firstExpr | key
  | firstStatement | bound | returned | expression | iterable | whileLoop | tried | test =>
      refine .of_forall fun _ => ?_
      simp [Task.parts]
  | right heval | place heval | arguments heval | restExprs heval =>
      filter_upwards [(Expr.steady _ _).ok heval] with count hcount
      simp [Task.parts, onward, hcount]
  | consequence heval htruthy | alternative heval htruthy | passed heval htruthy =>
      filter_upwards [(Expr.steady _ _).ok heval] with count hcount
      simp [Task.parts, onward, hcount, htruthy]
  | apply hcallee harguments =>
      filter_upwards [(Expr.steady _ _).ok hcallee, (Task.steady _ (.exprs _)).ok harguments]
        with count hcallee (harguments : (Evaluators.upTo settings count).exprs _ _ = _)
      simp [Task.parts, onward, hcallee, harguments]
  | filed heval hkey =>
      obtain ⟨hashKey, hkey⟩ := Option.isSome_iff_exists.1 hkey
      filter_upwards [(Expr.steady _ _).ok heval] with count hcount
      simp [Task.parts, onward, hcount, hkey]
  | restPairs hkey hhash hvalue =>
      filter_upwards [(Expr.steady _ _).ok hkey, (Expr.steady _ _).ok hvalue]
        with count hkey hvalue
      simp [Task.parts, onward, hkey, hhash, hvalue]
  | restStatements heval =>
      filter_upwards [(Statement.steady _ _).ok heval] with count hcount
      simp [Task.parts, onward, hcount]
  | forLoop heval helements =>
      filter_upwards [(Expr.steady _ _).ok heval] with count hcount
      simp [Task.parts, onward, hcount, helements]
  | handled heval herror =>
      filter_upwards [Block.steady _ _ heval (fun hcause => by cases hcause)] with count hcount
      simp [Task.parts, Task.handlerPart, onward, hcount, herror]
  | @finalized _ _ _ _ finalizer _ _ outcome _ heval hoverflow hcrashed hexhausted =>
      have haborts : aborts outcome = false :=
        not_aborts_iff.2 ⟨hoverflow, hcrashed, hexhausted⟩
      filter_upwards [Evaluators.handling_steady _ _ _ _ heval hexhausted] with count hcount
      simp [Task.parts, Task.finalizerPart, hcount, haborts]
  | iteration hdefine =>
      refine .of_forall fun _ => ?_
      simp [Task.parts, onward, hdefine]
  | nextIteration hdefine hbody =>
      filter_upwards [(Block.steady _ _).settleIteration.ok hbody] with count hcount
      simp [Task.parts, onward, hdefine, hcount]
  | nextTest heval htruthy hbody =>
      filter_upwards [(Expr.steady _ _).ok heval, (Block.steady _ _).settleIteration.ok hbody]
        with count heval hbody
      simp [Task.parts, onward, heval, htruthy, hbody]
  | body hcount hdepth =>
      refine .of_forall fun _ => ?_
      simp [Task.parts, hcount, hdepth]

/-- All parts of a task are started. -/
theorem starts_of_mem_parts {settings : Settings} {count : Nat} {task part : Task}
    {state state' : State} (h : (part, state') ∈ task.parts settings count state) :
    Starts settings task state part state' := by
  cases task with
  | expr expr =>
      cases expr with
      | identifier | integer | float | boolean | string | function => cases h
      | array =>
          cases List.mem_singleton.1 h
          exact .array
      | hash =>
          cases List.mem_singleton.1 h
          exact .hash
      | unary =>
          cases List.mem_singleton.1 h
          exact .operand
      | binary =>
          rcases List.mem_cons.1 h with h | h
          · cases h
            exact .left
          · obtain ⟨_, _, heval, h⟩ := mem_onward.1 h
            cases List.mem_singleton.1 h
            exact .right heval
      | assign =>
          cases List.mem_singleton.1 h
          exact .assigned
      | index =>
          rcases List.mem_cons.1 h with h | h
          · cases h
            exact .collection
          · obtain ⟨_, _, heval, h⟩ := mem_onward.1 h
            cases List.mem_singleton.1 h
            exact .place heval
      | call =>
          rcases List.mem_cons.1 h with h | h
          · cases h
            exact .callee
          · obtain ⟨_, _, hcallee, h⟩ := mem_onward.1 h
            rcases List.mem_cons.1 h with h | h
            · cases h
              exact .arguments hcallee
            · obtain ⟨_, _, harguments, h⟩ := mem_onward.1 h
              cases List.mem_singleton.1 h
              exact .apply hcallee harguments
      | conditional _ _ _ alternative =>
          rcases List.mem_cons.1 h with h | h
          · cases h
            exact .condition
          · obtain ⟨value, _, heval, h⟩ := mem_onward.1 h
            split at h
            · next htruthy =>
                cases List.mem_singleton.1 h
                exact .consequence heval htruthy
            · next htruthy =>
                obtain ⟨_, halternative, h⟩ := List.mem_map.1 h
                cases h
                cases Option.mem_toList.1 halternative
                exact .alternative heval (Bool.eq_false_iff.2 htruthy)
  | exprs list =>
      cases list with
      | nil => cases h
      | cons first rest =>
          rcases List.mem_cons.1 h with h | h
          · cases h
            exact .firstExpr
          · obtain ⟨_, _, heval, h⟩ := mem_onward.1 h
            cases List.mem_singleton.1 h
            exact .restExprs heval
  | pairs entries list =>
      cases list with
      | nil => cases h
      | cons first rest =>
          rcases List.mem_cons.1 h with h | h
          · cases h
            exact .key
          · obtain ⟨key, _, hkey, h⟩ := mem_onward.1 h
            split at h
            · cases h
            · next hashKey hhash =>
                rcases List.mem_cons.1 h with h | h
                · cases h
                  exact .filed hkey (Option.isSome_of_eq_some hhash)
                · obtain ⟨_, _, hvalue, h⟩ := mem_onward.1 h
                  cases List.mem_singleton.1 h
                  exact .restPairs hkey hhash hvalue
  | statement statement =>
      cases statement with
      | breakLoop | continueLoop => cases h
      | letBinding =>
          cases List.mem_singleton.1 h
          exact .bound
      | returnValue =>
          cases List.mem_singleton.1 h
          exact .returned
      | expression =>
          cases List.mem_singleton.1 h
          exact .expression
      | forLoop =>
          rcases List.mem_cons.1 h with h | h
          · cases h
            exact .iterable
          · obtain ⟨_, _, heval, h⟩ := mem_onward.1 h
            obtain ⟨_, helements, h⟩ := List.mem_map.1 h
            cases h
            exact .forLoop heval (Option.mem_toList.1 helements)
      | whileLoop =>
          cases List.mem_singleton.1 h
          exact .whileLoop
      | tryCatch _ body error handler finalizer =>
          rcases List.mem_cons.1 h with h | h
          · cases h
            exact .tried
          rcases List.mem_append.1 h with h | h
          · unfold Task.handlerPart at h
            split at h
            · next hbody =>
                obtain ⟨_, _, herror, h⟩ := mem_onward.1 h
                cases List.mem_singleton.1 h
                exact .handled hbody herror
            · cases h
          · unfold Task.finalizerPart at h
            split at h
            · split at h
              · cases h
              · next haborts =>
                  cases List.mem_singleton.1 h
                  obtain ⟨hoverflow, hcrashed, hexhausted⟩ :=
                    not_aborts_iff.1 (Bool.eq_false_iff.2 haborts)
                  exact .finalized rfl hoverflow hcrashed hexhausted
            · cases h
  | statements last list =>
      cases list with
      | nil => cases h
      | cons first rest =>
          rcases List.mem_cons.1 h with h | h
          · cases h
            exact .firstStatement
          · obtain ⟨_, _, heval, h⟩ := mem_onward.1 h
            cases List.mem_singleton.1 h
            exact .restStatements heval
  | forEach name body elements =>
      cases elements with
      | nil => cases h
      | cons element rest =>
          rw [Task.parts, mem_onward] at h
          obtain ⟨_, _, hdefine, h⟩ := h
          rcases List.mem_cons.1 h with h | h
          · cases h
            exact .iteration hdefine
          · obtain ⟨goesOn, _, hbody, h⟩ := mem_onward.1 h
            cases goesOn with
            | false => cases h
            | true =>
                cases List.mem_singleton.1 h
                exact .nextIteration hdefine hbody
  | whileTrue condition body =>
      rcases List.mem_cons.1 h with h | h
      · cases h
        exact .test
      · obtain ⟨value, _, heval, h⟩ := mem_onward.1 h
        split at h
        · next htruthy =>
            rcases List.mem_cons.1 h with h | h
            · cases h
              exact .passed heval htruthy
            · obtain ⟨goesOn, _, hbody, h⟩ := mem_onward.1 h
              cases goesOn with
              | false => cases h
              | true =>
                  cases List.mem_singleton.1 h
                  exact .nextTest heval htruthy hbody
        · cases h
  | call location callee arguments =>
      cases callee with
      | function =>
          rw [Task.parts] at h
          split at h
          · next hroom =>
              cases List.mem_singleton.1 h
              exact .body hroom.1 hroom.2
          · cases h
      | integer | float | string | boolean | array | hash | null | builtin | error => cases h

end Script
