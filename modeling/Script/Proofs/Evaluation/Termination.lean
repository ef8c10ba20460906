import Script.Proofs.Evaluation.CallDepth
import Script.Proofs.Evaluation.Settling
import Script.Proofs.Program.WhileFree

/-!
# Programs without `while`

Without `while`, evaluation ends, since calls cannot be nested without end and `for` visits the
elements that it found at the start. Code settles by recursion on its form if calls do, and calls
settle by induction on the room that is left under the limit: `callsSettle`. For sessions this is
`Session.whileFree_ends`.
-/

namespace Script

open Evaluation (Settles)

/-! ## States without `while` -/

/-- A run beside itself, over code without `while`. -/
def Comparison.whileFree (settings : Settings) : Comparison where
  likeness := .whileFree
  left := settings
  right := settings
  admits _ _ := True
  cut _ := False
  overflow _ _ := True
  crash := True

/-- The functions in a state contain no `while`, and at most `room` more calls may be nested. -/
structure State.Calm (settings : Settings) (room : Nat) (state : State) : Prop where
  whileFree : state.Alike .whileFree state
  room : settings.maxDepth ≤ state.depth + room

namespace State.Calm

variable {settings : Settings} {room : Nat} {state state' : State}

/-- What a run leaves that stays beside itself. -/
theorem after {α : Type} {valid : α → α → Prop} {kept : Environment × Nat → α → Prop}
    {evaluation : Evaluation α} {outcome : Except Interrupt α} (h : state.Calm settings room)
    (hagree : (Comparison.whileFree settings).Agree valid (evaluation state) (evaluation state))
    (hkeeps : ∀ world, Invariant.position.Keeps kept world evaluation)
    (heval : evaluation state = (outcome, state')) :
    state'.Calm settings room ∧ ∀ result, outcome = .ok result → valid result result := by
  have hdepth := Invariant.position_depth hkeeps heval
  have hcalm (hwhileFree : state'.Alike .whileFree state') : state'.Calm settings room :=
    ⟨hwhileFree, hdepth ▸ h.room⟩
  rw [heval] at hagree
  cases hagree with
  | ok hresult hstate => exact ⟨hcalm hstate, fun _ hsame => Except.ok.inj hsame ▸ hresult⟩
  | error _ hstate => exact ⟨hcalm hstate, nofun⟩
  | cut hcut _ => exact hcut.elim

theorem enter {parent : Environment} {frame : Frame} (h : state.Calm settings room)
    (hframe : frame.Alike .whileFree frame) : (state.enter parent frame).Calm settings room :=
  ⟨h.whileFree.enter hframe, h.room⟩

/-- A call leaves less room for others. -/
theorem counted (h : state.Calm settings (room + 1)) :
    State.Calm settings room { state with depth := state.depth + 1 } where
  whileFree := { h.whileFree with depth := rfl }
  room := by
    have hroom := h.room
    dsimp only
    omega

end State.Calm

section Calls

variable [Host]

theorem Comparison.whileFree_lawful (settings : Settings) : (whileFree settings).Lawful where
  likeness := Likeness.whileFree_lawful
  sink := rfl
  room := Nat.le_refl _
  uncaught := False.elim
  starts _ _ := trivial
  located _ _ _ := id
  limit _ _ _ _ := .inr ⟨rfl, trivial⟩
  capacity _ _ := trivial

theorem Comparison.whileFree_sound (settings : Settings) (count : Nat) :
    (whileFree settings).Sound count count :=
  (whileFree_lawful settings).sound (.inl rfl)

namespace State.Calm

variable {settings : Settings} {room : Nat} {state state' : State}

theorem expr {expr : Expr} {value : Value} (h : state.Calm settings room)
    (hfree : expr.whileFree = true)
    (heval : ∃ count, Expr.evaluate settings count expr state = (.ok value, state')) :
    state'.Calm settings room ∧ value.Alike .whileFree value := by
  obtain ⟨count, heval⟩ := heval
  have hparts := Invariant.position_lawful.sound settings count
  have hagree := (Comparison.whileFree_sound settings count).expr ⟨rfl, hfree⟩ trivial h.whileFree
  exact (h.after hagree (fun world => hparts.expr world expr) heval).imp_right (· value rfl)

theorem exprs {exprs : List Expr} {values : List Value} (h : state.Calm settings room)
    (hfree : Expr.whileFreeAll exprs = true)
    (heval : ∃ count, (Evaluators.upTo settings count).exprs exprs state = (.ok values, state')) :
    state'.Calm settings room ∧ List.Forall₂ (Value.Alike .whileFree) values values := by
  obtain ⟨count, heval⟩ := heval
  have hparts := Invariant.position_lawful.sound settings count
  have hagree := (Comparison.whileFree_lawful settings).exprs
    (Comparison.whileFree_sound settings count) (Likeness.whileFree_exprs hfree) trivial h.whileFree
  exact (h.after hagree (fun _ => Invariant.position_lawful.exprs hparts exprs) heval).imp_right
    (· values rfl)

theorem statement {statement : Statement} {value : Value} (h : state.Calm settings room)
    (hfree : statement.whileFree = true)
    (heval : ∃ count, Statement.execute settings count statement state = (.ok value, state')) :
    state'.Calm settings room := by
  obtain ⟨count, heval⟩ := heval
  have hparts := Invariant.position_lawful.sound settings count
  have hagree := (Comparison.whileFree_sound settings count).statement ⟨rfl, hfree⟩ trivial
    h.whileFree
  exact (h.after hagree (fun world => hparts.statement world statement) heval).1

theorem statements {statements : List Statement} {outcome : Except Interrupt Value}
    (h : state.Calm settings room) (hfree : Statement.whileFreeAll statements = true)
    (heval : ∃ count, Statement.executeAll settings count statements state = (outcome, state')) :
    state'.Calm settings room := by
  obtain ⟨count, heval⟩ := heval
  have hparts := Invariant.position_lawful.sound settings count
  have hagree := (Comparison.whileFree_lawful settings).executeAll
    (.inl rfl : Comparison.Bounds _ count count) (Likeness.whileFree_statements hfree) trivial
    h.whileFree
  exact (h.after hagree (fun _ => Invariant.position_lawful.statements hparts statements trivial)
    heval).1

theorem block {block : Block} {outcome : Except Interrupt Value} (h : state.Calm settings room)
    (hfree : block.whileFree = true)
    (heval : ∃ count, (Evaluators.upTo settings count).block block state = (outcome, state')) :
    state'.Calm settings room := by
  cases block
  exact h.statements hfree heval

/-- An iteration of a loop ends where its body does. -/
theorem iteration {block : Block} {goesOn : Bool} (h : state.Calm settings room)
    (hfree : block.whileFree = true)
    (heval : ∃ count, Evaluation.settleIteration ((Evaluators.upTo settings count).block block)
      state = (.ok goesOn, state')) :
    state'.Calm settings room := by
  obtain ⟨count, heval⟩ := heval
  unfold Evaluation.settleIteration at heval
  split at heval
  · next hbody =>
      cases heval
      exact h.block hfree ⟨count, hbody⟩
  · next hbody =>
      cases heval
      exact h.block hfree ⟨count, hbody⟩
  · next hbody =>
      cases heval
      exact h.block hfree ⟨count, hbody⟩
  · cases heval

/-- The body of a `try`, with its handler. -/
theorem caught {body handler : Block} {error : Identifier} {outcome : Except Interrupt Value}
    (h : state.Calm settings room) (hbody : body.whileFree = true)
    (hhandler : handler.whileFree = true)
    (heval : ∃ count, Evaluation.handling ((Evaluators.upTo settings count).block body)
      ((Evaluators.upTo settings count).handle error handler) state = (outcome, state')) :
    state'.Calm settings room := by
  obtain ⟨count, heval⟩ := heval
  have hparts := Invariant.position_lawful.sound settings count
  have hadmits : (Comparison.whileFree settings).admits
      (.statement (.tryCatch error.location body error handler none)) state := trivial
  have hagree := (Comparison.whileFree_lawful settings).caught
    (Comparison.whileFree_sound settings count) (Likeness.whileFree_block hbody) rfl
    (Likeness.whileFree_block hhandler) hadmits h.whileFree
  exact (h.after hagree (fun _ => Invariant.position_lawful.caught hparts body error handler)
    heval).1

theorem define {value : Value} (name : String) (h : state.Calm settings room)
    (hvalue : value.Alike .whileFree value)
    (heval : ∃ _count : Nat, Evaluation.define name value state = (.ok (), state')) :
    state'.Calm settings room := by
  obtain ⟨-, heval⟩ := heval
  have hagree := Comparison.Agree.define (C := Comparison.whileFree settings) name hvalue
    h.whileFree
  exact (h.after hagree (fun _ => Invariant.position_lawful.define name trivial) heval).1

theorem newError {value : Value} {fault : Fault} (h : state.Calm settings room)
    (heval : ∃ _count : Nat, Evaluation.newError fault state = (.ok value, state')) :
    state'.Calm settings room ∧ value.Alike .whileFree value := by
  obtain ⟨-, heval⟩ := heval
  have hagree := Comparison.Agree.newError (C := Comparison.whileFree settings) fault h.whileFree
  exact (h.after hagree (fun _ => Invariant.position_lawful.newError fault) heval).imp_right
    (· value rfl)

end State.Calm

/-! ## Code without `while` settles -/

/-- While so much room is left, calls settle. -/
def CallsSettle (settings : Settings) (room : Nat) : Prop :=
  ∀ {location : Location} {callee : Value} {arguments : List Value} {state : State},
    state.Calm settings room → callee.Alike .whileFree callee →
    List.Forall₂ (Value.Alike .whileFree) arguments arguments →
    Settles (fun count =>
      (Evaluators.upTo settings count).call settings location callee arguments) state

variable {settings : Settings} {room : Nat}

/-- A loop over elements settles when its body does. -/
theorem Evaluators.forEach_settles {name : String} {body : Block} (hfree : body.whileFree = true)
    (hbody : ∀ {state : State}, state.Calm settings room →
      Settles (fun count => (upTo settings count).block body) state)
    {elements : List Value} (helements : List.Forall₂ (Value.Alike .whileFree) elements elements)
    {state : State} (hcalm : state.Calm settings room) :
    Settles (fun count => (upTo settings count).forEach name body elements) state := by
  induction elements generalizing state with
  | nil => exact .pure _
  | cons element rest ih =>
      cases helements with
      | cons helement hrest =>
          simp only [forEach]
          refine .bind (.of_ok rfl) fun hdefine => ?_
          have hdefined := hcalm.define name helement hdefine
          refine .bind (hbody hdefined).settleIteration fun {goesOn last} heval => ?_
          cases goesOn with
          | true => exact ih hrest (hdefined.iteration hfree heval)
          | false => exact .pure _

mutual

/-- Expressions without `while` settle if calls do. -/
theorem Expr.settles (hcalls : CallsSettle settings room) :
    (expr : Expr) → expr.whileFree = true → {state : State} → state.Calm settings room →
      Settles (fun count => Expr.evaluate settings count expr) state
  | .identifier name, _, _, _ => .nested (.lookup name)
  | .integer _ _ _, _, _, _ => .nested (.pure _)
  | .float _ _ _, _, _, _ => .nested (.pure _)
  | .boolean _ _, _, _, _ => .nested (.pure _)
  | .string _ _, _, _, _ => .nested (.pure _)
  | .array _ elements, h, _, hcalm => by
      refine .nested ?_
      simp only [Expr.evaluate, Evaluators.evaluate]
      exact .bind (Expr.settlesAll hcalls elements h hcalm) fun _ => .of_ok rfl
  | .hash _ pairs, h, _, hcalm => by
      refine .nested ?_
      simp only [Expr.evaluate, Evaluators.evaluate]
      exact .bind (Pair.settlesAll hcalls pairs h hcalm []) fun _ => .of_ok rfl
  | .function literal, _, _, _ => .nested (.of_ok rfl)
  | .unary _ operator operand, h, _, hcalm => by
      refine .nested ?_
      simp only [Expr.evaluate, Evaluators.evaluate]
      exact .bind (operand.settles hcalls h hcalm) fun _ => .ofExcept _
  | .binary _ left operator right, h, _, hcalm => by
      rw [Expr.whileFree, Bool.and_eq_true] at h
      refine .nested ?_
      simp only [Expr.evaluate, Evaluators.evaluate]
      refine .bind (left.settles hcalls h.1 hcalm) fun heval => ?_
      exact .bind (right.settles hcalls h.2 (hcalm.expr h.1 heval).1) fun _ => .ofExcept _
  | .assign _ target value, h, _, hcalm => by
      refine .nested ?_
      simp only [Expr.evaluate, Evaluators.evaluate]
      refine .bind (value.settles hcalls h hcalm) fun _ => ?_
      exact .bind (.assign target _) fun _ => .pure _
  | .index _ collection index, h, _, hcalm => by
      rw [Expr.whileFree, Bool.and_eq_true] at h
      refine .nested ?_
      simp only [Expr.evaluate, Evaluators.evaluate]
      refine .bind (collection.settles hcalls h.1 hcalm) fun heval => ?_
      exact .bind (index.settles hcalls h.2 (hcalm.expr h.1 heval).1) fun _ => .ofExcept _
  | .call _ callee arguments, h, _, hcalm => by
      rw [Expr.whileFree, Bool.and_eq_true] at h
      refine .nested ?_
      simp only [Expr.evaluate, Evaluators.evaluate]
      refine .bind (callee.settles hcalls h.1 hcalm) fun heval => ?_
      obtain ⟨hmiddle, hcallee⟩ := hcalm.expr h.1 heval
      refine .bind (Expr.settlesAll hcalls arguments h.2 hmiddle) fun heval => ?_
      obtain ⟨hlast, harguments⟩ := hmiddle.exprs h.2 heval
      exact hcalls hlast hcallee harguments
  | .conditional _ condition consequence alternative, h, _, hcalm => by
      simp only [Expr.whileFree, Bool.and_eq_true] at h
      refine .nested ?_
      simp only [Expr.evaluate, Evaluators.evaluate]
      refine .bind (condition.settles hcalls h.1.1 hcalm) fun {value _} heval => ?_
      have hmiddle := (hcalm.expr h.1.1 heval).1
      cases value.truthy with
      | true => exact consequence.settles hcalls h.1.2 hmiddle
      | false => exact Block.settlesOption hcalls alternative h.2 hmiddle
termination_by structural expr => expr

/-- Several expressions without `while` settle if calls do. -/
theorem Expr.settlesAll (hcalls : CallsSettle settings room) :
    (exprs : List Expr) → Expr.whileFreeAll exprs = true → {state : State} →
      state.Calm settings room →
      Settles (fun count => (Evaluators.upTo settings count).exprs exprs) state
  | [], _, _, _ => .pure _
  | expr :: rest, h, _, hcalm => by
      rw [Expr.whileFreeAll, Bool.and_eq_true] at h
      simp only [Evaluators.exprs]
      refine .bind (expr.settles hcalls h.1 hcalm) fun heval => ?_
      exact .bind (Expr.settlesAll hcalls rest h.2 (hcalm.expr h.1 heval).1) fun _ => .pure _
termination_by structural exprs => exprs

/-- The pairs of a hash literal without `while` settle if calls do. -/
theorem Pair.settlesAll (hcalls : CallsSettle settings room) :
    (pairs : List Pair) → Pair.whileFreeAll pairs = true → {state : State} →
      state.Calm settings room → (entries : List Entry) →
      Settles (fun count => (Evaluators.upTo settings count).pairs entries pairs) state
  | [], _, _, _, _ => .pure _
  | ⟨key, value⟩ :: rest, h, _, hcalm, _ => by
      simp only [Pair.whileFreeAll, Pair.whileFree, Bool.and_eq_true] at h
      simp only [Evaluators.pairs]
      refine .bind (key.settles hcalls h.1.1 hcalm) fun {found _} heval => ?_
      have hmiddle := (hcalm.expr h.1.1 heval).1
      cases found.hashKey? with
      | none => exact .raise _
      | some hashKey =>
          refine .bind (value.settles hcalls h.1.2 hmiddle) fun heval => ?_
          exact Pair.settlesAll hcalls rest h.2 (hmiddle.expr h.1.2 heval).1 _
termination_by structural pairs => pairs

/-- Blocks without `while` settle if calls do. -/
theorem Block.settles (hcalls : CallsSettle settings room) :
    (block : Block) → block.whileFree = true → {state : State} → state.Calm settings room →
      Settles (fun count => (Evaluators.upTo settings count).block block) state
  | ⟨_, statements⟩, h, _, hcalm => Statement.settlesAll hcalls statements h hcalm .null
termination_by structural block => block

/-- So does a block that may be absent. -/
theorem Block.settlesOption (hcalls : CallsSettle settings room) :
    (choice : Option Block) → Block.whileFreeOption choice = true → {state : State} →
      state.Calm settings room →
      Settles (fun count =>
        match choice with
        | some block => (Evaluators.upTo settings count).block block
        | none => pure .null) state
  | none, _, _, _ => .pure _
  | some block, h, _, hcalm => block.settles hcalls h hcalm
termination_by structural choice => choice

/-- Statements without `while` settle if calls do. -/
theorem Statement.settles (hcalls : CallsSettle settings room) :
    (statement : Statement) → statement.whileFree = true → {state : State} →
      state.Calm settings room →
      Settles (fun count => Statement.execute settings count statement) state
  | .letBinding _ target value, h, _, hcalm => by
      refine .nested ?_
      simp only [Statement.execute, Evaluators.execute]
      refine .bind (value.settles hcalls h hcalm) fun _ => ?_
      exact .bind (.of_ok rfl) fun _ => .pure _
  | .returnValue _ value, h, _, hcalm => by
      refine .nested ?_
      simp only [Statement.execute, Evaluators.execute]
      exact .bind (value.settles hcalls h hcalm) fun _ => .of_constant nofun
  | .expression _ value, h, _, hcalm => .nested (value.settles hcalls h hcalm)
  | .forLoop _ element iterable body, h, _, hcalm => by
      rw [Statement.whileFree, Bool.and_eq_true] at h
      refine .nested ?_
      simp only [Statement.execute, Evaluators.execute]
      refine .bind (iterable.settles hcalls h.1 hcalm) fun {value _} heval => ?_
      obtain ⟨hmiddle, hvalue⟩ := hcalm.expr h.1 heval
      have helements := hvalue.elements?
      generalize value.elements? = found at helements
      cases found with
      | none => exact .raise _
      | some elements =>
          cases helements with
          | some helements =>
              exact .withChildFrame (Evaluators.forEach_settles h.2
                (fun hcalm => body.settles hcalls h.2 hcalm) helements (hmiddle.enter .nil))
  | .whileLoop _ _ _, h, _, _ => nomatch h
  | .breakLoop _, _, _, _ => .nested (.of_constant nofun)
  | .continueLoop _, _, _, _ => .nested (.of_constant nofun)
  | .tryCatch _ body error handler finalizer, h, state, hcalm => by
      simp only [Statement.whileFree, Bool.and_eq_true] at h
      refine .nested ?_
      simp only [Statement.execute, Evaluators.execute]
      have hhandled : Settles (fun count =>
          Evaluation.handling ((Evaluators.upTo settings count).block body)
            ((Evaluators.upTo settings count).handle error handler)) state := by
        refine .handling (body.settles hcalls h.1.1 hcalm) fun {fault middle} heval => ?_
        have hmiddle := hcalm.block h.1.1 heval
        refine .bind (.of_ok rfl) fun heval => ?_
        obtain ⟨hlast, hvalue⟩ := hmiddle.newError heval
        have hframe : Frame.Alike .whileFree [(error.name, _)] [(error.name, _)] :=
          .cons ⟨rfl, hvalue⟩ .nil
        exact .withChildFrame (handler.settles hcalls h.1.2 (hlast.enter hframe))
      have hfinalizer {state : State} (hcalm : state.Calm settings room) :=
        Block.settlesOption hcalls finalizer h.2 hcalm
      cases finalizer with
      | none => exact hhandled
      | some finalizer =>
          exact hhandled.ensuring fun heval => hfinalizer (hcalm.caught h.1.1 h.1.2 heval)
termination_by structural statement => statement

/-- Statements in order settle if calls do. -/
theorem Statement.settlesAll (hcalls : CallsSettle settings room) :
    (statements : List Statement) → Statement.whileFreeAll statements = true → {state : State} →
      state.Calm settings room → (last : Value) →
      Settles (fun count => (Evaluators.upTo settings count).statements last statements) state
  | [], _, _, _, last => .pure last
  | statement :: rest, h, _, hcalm, _ => by
      rw [Statement.whileFreeAll, Bool.and_eq_true] at h
      simp only [Evaluators.statements]
      refine .bind (statement.settles hcalls h.1 hcalm) fun {value _} heval => ?_
      exact Statement.settlesAll hcalls rest h.2 (hcalm.statement h.1 heval) value
termination_by structural statements => statements

end

/-- A call settles if the body of the function does, where the call is not one too many. -/
theorem Evaluators.call_settles {location : Location} {callee : Value} {arguments : List Value}
    {state : State} (hcallee : callee.Alike .whileFree callee)
    (hbody : ∀ (closure : Environment) {literal : FunctionLiteral}, literal.whileFree = true →
      state.depth < settings.maxDepth →
      Settles (fun count => (upTo settings count).block literal.body)
        (State.enter { state with depth := state.depth + 1 } closure (literal.bind arguments))) :
    Settles (fun count => (upTo settings count).call settings location callee arguments) state := by
  cases hcallee with
  | @function _ closure literal _ hliteral =>
      by_cases hcount : arguments.length = literal.parameters.length
      · by_cases hfull : settings.maxDepth ≤ state.depth
        · have hrefused : Settles (fun _ => (Evaluation.interrupt
              (.overflowed ⟨location, settings.maxDepth⟩) : Evaluation Value)) state :=
            .of_constant nofun
          refine hrefused.of_eq fun count => ?_
          simp only [call, callFunction_apply, if_pos hcount, if_pos hfull]
          rfl
        · have hsettles := hbody closure hliteral.2 (Nat.lt_of_not_le hfull)
          refine hsettles.withFrame.asCall.settleCall.of_eq fun count => ?_
          simp only [call, callFunction_apply, if_pos hcount, if_neg hfull]
      · have hmiscounted : Settles (fun _ => (Evaluation.raise (.argumentCount literal.displayName
            arguments.length literal.parameters.length) : Evaluation Value)) state := .raise _
        refine hmiscounted.of_eq fun count => ?_
        simp only [call, callFunction_apply, if_neg hcount]
        rfl
  | builtin => exact Builtin.call_settles ..
  | _ => exact .raise _

/-- Calls settle, by induction on the room that is left: the body of a function has less. -/
theorem callsSettle (settings : Settings) (room : Nat) : CallsSettle settings room := by
  induction room with
  | zero =>
      intro location callee arguments state hcalm hcallee harguments
      refine Evaluators.call_settles hcallee fun _ _ _ hroom => ?_
      exact absurd hcalm.room (Nat.not_le_of_lt hroom)
  | succ room ih =>
      intro location callee arguments state hcalm hcallee harguments
      refine Evaluators.call_settles hcallee fun closure literal hfree _ => ?_
      have hframe : (literal.bind arguments).Alike .whileFree (literal.bind arguments) :=
        (Likeness.whileFree_lawful.literal ⟨rfl, hfree⟩).bind harguments
      cases literal with
      | mk location name parameters body =>
          exact body.settles ih hfree (hcalm.counted.enter hframe)

/-! ## Sessions -/

/-- Whether a program has given a value, which may be an error value, or was aborted by a call that
is one too many. -/
def Result.isEnded : Result → Bool
  | .value _ | .aborted _ => true
  | .crashed | .exhausted => false

omit [Host] in
theorem Result.isEnded_iff {result : Result} :
    result.isEnded = true ↔ result ≠ .crashed ∧ result ≠ .exhausted := by
  cases result <;> simp [isEnded]

namespace Session

/-- Evaluates programs one after another, up to one that crashes the interpreter. -/
def runAll (bound : Nat) : Session → List Program → List Result × Session
  | session, [] => ([], session)
  | session, program :: rest =>
    match run bound session program with
    | (.crashed, session) => ([.crashed], session)
    | (result, session) =>
      match runAll bound session rest with
      | (results, session) => (result :: results, session)

variable {bound : Nat} {session : Session} {program : Program}

theorem runAll_crashed (h : (run bound session program).1 = .crashed) (rest : List Program) :
    runAll bound session (program :: rest) = ([.crashed], (run bound session program).2) := by
  rw [runAll]
  generalize run bound session program = ended at h ⊢
  obtain ⟨result, after⟩ := ended
  subst h
  rfl

theorem runAll_cons (h : (run bound session program).1 ≠ .crashed) (rest : List Program) :
    runAll bound session (program :: rest) =
      ((run bound session program).1 :: (runAll bound (run bound session program).2 rest).1,
        (runAll bound (run bound session program).2 rest).2) := by
  rw [runAll]
  generalize run bound session program = ended at h ⊢
  obtain ⟨result, after⟩ := ended
  cases result with
  | crashed => exact absurd rfl h
  | value | aborted | exhausted => rfl

/-- A program without `while` ends, and leaves functions without `while`. -/
theorem run_settles (hstate : session.state.Alike .whileFree session.state)
    (hfree : program.whileFree = true) :
    ∃ bound, (run bound session program).1 ≠ .exhausted ∧
      (run bound session program).2.state.Alike .whileFree (run bound session program).2.state := by
  obtain ⟨settings, state⟩ := session
  have hcalm : state.Calm settings settings.maxDepth := ⟨hstate, Nat.le_add_left ..⟩
  obtain ⟨result, hended, bound, hbound⟩ :=
    Statement.settlesAll (callsSettle settings _) program.statements hfree hcalm .null
  have heval : Statement.executeAll settings bound program.statements state = result :=
    hbound bound (Nat.le_refl _)
  refine ⟨bound, fun hexhausted => ?_, ?_⟩
  · have hstatements := run_exhausted_iff.1 hexhausted
    rw [heval] at hstatements
    exact hended hstatements
  · have hlast := (hcalm.statements hfree ⟨bound, rfl⟩).whileFree
    rcases run_state settings bound state program with h | ⟨fault, h⟩ | h
    · rw [h]
      exact hlast
    · rw [h]
      exact { hlast with identities := rfl }
    · rw [h]
      exact { hlast with environment := rfl, depth := rfl }

/-- How programs that are evaluated one after another end. Either all of them give a value or are
aborted, or this holds of some of them, and then the next one asks for an array beyond the capacity
and crashes the interpreter. Nothing of this depends on the bound on nested evaluations, once it is
as large as `bound`. -/
def Ends (bound : Nat) (session : Session) (programs : List Program) (results : List Result)
    (after : Session) : Prop :=
  (∀ larger, bound ≤ larger → runAll larger session programs = (results, after)) ∧
    (results.length = programs.length ∧ (∀ result ∈ results, result.isEnded = true) ∨
      ∃ before program rest answered middle,
        programs = before ++ program :: rest ∧ results = answered ++ [.crashed] ∧
        (∀ larger, bound ≤ larger → runAll larger session before = (answered, middle)) ∧
        answered.length = before.length ∧ (∀ result ∈ answered, result.isEnded = true) ∧
        middle.Overreaches program)

/-- Programs without `while` end one after another. -/
theorem runAll_settles {programs : List Program}
    (hstate : session.state.Alike .whileFree session.state)
    (hfree : ∀ program ∈ programs, program.whileFree = true) :
    ∃ bound results after, session.Ends bound programs results after := by
  induction programs generalizing session with
  | nil => exact ⟨0, [], session, fun _ _ => rfl, .inl ⟨rfl, List.forall_mem_nil _⟩⟩
  | cons program rest ih =>
      obtain ⟨hprogram, hrest⟩ := List.forall_mem_cons.1 hfree
      obtain ⟨bound, hended, hafter⟩ := run_settles hstate hprogram
      have hrun {larger : Nat} (hlarger : bound ≤ larger) :
          run larger session program = run bound session program := run_enough hlarger hended
      by_cases hcrashed : (run bound session program).1 = .crashed
      · refine ⟨bound, [.crashed], (run bound session program).2, fun larger hlarger => ?_,
          .inr ⟨[], program, rest, [], session, rfl, rfl, fun _ _ => rfl, rfl,
            List.forall_mem_nil _, run_crashed_iff.1 ⟨bound, hcrashed⟩⟩⟩
        rw [runAll_crashed (by rwa [hrun hlarger]), hrun hlarger]
      · obtain ⟨bound', results, after, hresults, hends⟩ := ih hafter hrest
        have hresult := Result.isEnded_iff.2 ⟨hcrashed, hended⟩
        -- what the rest comes to, it comes to behind the first program
        have hcons {larger : Nat} (hlarger : max bound bound' ≤ larger) (others : List Program) :
            runAll larger session (program :: others) =
              ((run bound session program).1 ::
                  (runAll larger (run bound session program).2 others).1,
                (runAll larger (run bound session program).2 others).2) := by
          have hfirst := hrun (Nat.le_trans (Nat.le_max_left ..) hlarger)
          rw [runAll_cons (by rwa [hfirst]), hfirst]
        have hlater {larger : Nat} (hlarger : max bound bound' ≤ larger) : bound' ≤ larger :=
          Nat.le_trans (Nat.le_max_right ..) hlarger
        refine ⟨max bound bound', (run bound session program).1 :: results, after,
          fun larger hlarger => ?_, ?_⟩
        · rw [hcons hlarger, hresults larger (hlater hlarger)]
        · rcases hends with ⟨hlength, hall⟩ |
            ⟨before, crashing, others, answered, middle, rfl, rfl, hbefore, hlength, hall, hover⟩
          · exact .inl ⟨congrArg (· + 1) hlength, List.forall_mem_cons.2 ⟨hresult, hall⟩⟩
          · refine .inr ⟨program :: before, crashing, others, _ :: answered, middle, rfl, rfl,
              fun larger hlarger => ?_, congrArg (· + 1) hlength,
              List.forall_mem_cons.2 ⟨hresult, hall⟩, hover⟩
            rw [hcons hlarger, hbefore larger (hlater hlarger)]

/-- Programs without `while`, evaluated one after another, all end: each gives a value, which may be
an error, or is aborted by a call that is one too many, unless one of them asks for an array beyond
the capacity. That one crashes the interpreter, whatever handlers stand around it, and it is the
last one. No program crashes in another way. -/
theorem whileFree_ends (settings : Settings) (programs : List Program)
    (hfree : ∀ program ∈ programs, program.whileFree = true) :
    (∃ bound results after, (Session.new settings).Ends bound programs results after) ∧
      ∀ session program, (∃ bound, (run bound session program).1 = .crashed) ↔
        session.Overreaches program := by
  have hframe (id : FrameId) : Store.initial.frame id = [] := by
    unfold Store.frame Store.initial
    cases id <;> rfl
  have hinitial : (new settings).state.Alike .whileFree (new settings).state :=
    ⟨⟨rfl, fun id => (hframe id).symm ▸ .nil⟩, rfl, rfl, rfl, rfl⟩
  exact ⟨runAll_settles hinitial hfree, fun _ _ => run_crashed_iff⟩

end Session

end Calls

namespace Session

/-- A function that does nothing but call itself, and a second program that calls it once more when
the first call fails. -/
def endlessCalls : List Program :=
  let place : Location := ⟨1, 1⟩
  let name : Identifier := ⟨"again", place⟩
  let body : Block := ⟨name.token, [.expression name.token (.call place (.identifier name) [])]⟩
  [⟨[.letBinding place name (.function ⟨place, some "again", [], body⟩)]⟩,
    ⟨[.tryCatch place body ⟨"error", place⟩ body (some body)]⟩]

open scoped Host in
theorem whileFree_ends_endlessCalls :
    (∀ program ∈ endlessCalls, program.whileFree = true) ∧
      ∃ bound results after, (Session.new .standard).Ends bound endlessCalls results after :=
  have hfree : ∀ program ∈ endlessCalls, program.whileFree = true := by decide
  ⟨hfree, (whileFree_ends .standard endlessCalls hfree).1⟩

/-- A program that asks for an array of nearly all integers from 0 on, ready to handle a fault. -/
def overreachingRange : Program :=
  let block (column : Nat) (statements : List Statement) : Block :=
    ⟨⟨.mark .leftBrace, ⟨1, column⟩⟩, statements⟩
  let range : Identifier := ⟨"range", ⟨1, 7⟩⟩
  let limit : Expr := .integer ⟨1, 16⟩ "9223372036854775807" 9223372036854775807
  let call : Expr := .call ⟨1, 12⟩ (.identifier range) [.integer ⟨1, 13⟩ "0" 0, limit]
  let number (column : Nat) (text : String) (value : Int64) : Statement :=
    .expression ⟨.integer text, ⟨1, column⟩⟩ (.integer ⟨1, column⟩ text value)
  ⟨[.tryCatch ⟨1, 1⟩ (block 5 [.expression range.token call]) ⟨"e", ⟨1, 45⟩⟩
      (block 47 [number 49 "1" 1]) none, number 53 "2" 2]⟩

open scoped Host in
/-- Neither the handler nor the statement behind it is evaluated, as the interpreter has crashed. -/
theorem overreachingRange_crashes :
    Program.ofText "try \x7b range(0, 9223372036854775807) \x7d catch e \x7b 1 \x7d 2" =
        .ok overreachingRange ∧
      overreachingRange.whileFree = true ∧
      ∃ bound, ∀ larger, bound ≤ larger →
        (runAll larger (.new .standard) [overreachingRange]).1 = [.crashed] := by
  have hcrashed : (run 9 (.new .standard) overreachingRange).1 = .crashed := rfl
  refine ⟨rfl, rfl, 9, fun larger hlarger => ?_⟩
  have hrun := run_enough hlarger (by rw [hcrashed]; nofun)
  rw [runAll_crashed (by rwa [hrun])]

end Session

end Script
