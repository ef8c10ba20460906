import Script.Proofs.Evaluation.Course

/-!
# Evaluations that settle

The bound on nested evaluations and iterations says nothing about an evaluation that ends. Such an
evaluation `Settles`: all large enough bounds give the same outcome, and this is not for want of a
larger bound. Evaluations that are put together from parts settle when their parts do, and the
primitive operations and builtin functions, which use no bound, settle at once.
-/

namespace Script

namespace Evaluation

variable {α β : Type}

/-- Within all large enough bounds the evaluation comes to the same, and it is not cut short. -/
def Settles (evaluation : Nat → Evaluation α) (state : State) : Prop :=
  ∃ result : Except Interrupt α × State, result.1 ≠ .error .exhausted ∧
    ∃ bound, ∀ count, bound ≤ count → evaluation count state = result

namespace Settles

variable {evaluation : Nat → Evaluation α} {state : State}

/-- An evaluation that uses no bound. -/
theorem of_constant {evaluation : Evaluation α}
    (h : (evaluation state).1 ≠ .error .exhausted) : Settles (fun _ => evaluation) state :=
  ⟨_, h, 0, fun _ _ => rfl⟩

theorem ending {outcome : Except Interrupt α} (h : outcome ≠ .error .exhausted) :
    Settles (fun _ => Evaluation.ending outcome) state :=
  of_constant h

/-- An evaluation that gives a result, and uses no bound. -/
theorem of_ok {evaluation : Evaluation α} {result : α} {last : State}
    (h : evaluation state = (.ok result, last)) : Settles (fun _ => evaluation) state :=
  of_constant (by simp [h])

/-- An evaluation that raises a fault, and uses no bound. -/
theorem of_raised {evaluation : Evaluation α} {fault : Fault} {last : State}
    (h : evaluation state = (.error (.raised fault), last)) : Settles (fun _ => evaluation) state :=
  of_constant (by simp [h])

theorem pure (result : α) : Settles (fun _ => Pure.pure result) state :=
  of_ok rfl

theorem raise (fault : Fault) : Settles (fun _ => (Evaluation.raise fault : Evaluation α)) state :=
  of_raised rfl

theorem ofExcept (result : Except Fault α) :
    Settles (fun _ => Evaluation.ofExcept result) state := by
  cases result with
  | ok value => exact pure value
  | error fault => exact raise fault

/-- An evaluation settles when it starts with a part that settles, and what it does after that
settles as well. -/
theorem after {whole : Nat → Evaluation β} {start : State} (h : Settles evaluation start)
    (hwhole : ∀ {result}, result.1 ≠ .error .exhausted →
      (∃ count, evaluation count start = result) →
      ∃ (others : Nat → Evaluation β) (middle : State), Settles others middle ∧
        ∀ count, evaluation count start = result → whole count state = others count middle) :
    Settles whole state := by
  obtain ⟨result, hended, bound, hbound⟩ := h
  obtain ⟨others, middle, ⟨last, hlast, bound', hbound'⟩, hsame⟩ :=
    hwhole hended ⟨bound, hbound bound (Nat.le_refl _)⟩
  refine ⟨last, hlast, max bound bound', fun count hcount => ?_⟩
  have hfirst := hbound count (Nat.le_trans (Nat.le_max_left ..) hcount)
  rw [hsame count hfirst]
  exact hbound' count (Nat.le_trans (Nat.le_max_right ..) hcount)

/-- What an evaluation does in one state may be what another one does elsewhere. -/
theorem of_eq {others : Nat → Evaluation α} {start : State} (h : Settles others start)
    (hsame : ∀ count, evaluation count state = others count start) : Settles evaluation state := by
  simpa only [Settles, hsame] using h

/-- Evaluations in sequence. -/
theorem bind {next : Nat → α → Evaluation β} (h : Settles evaluation state)
    (hnext : ∀ {value middle}, (∃ count, evaluation count state = (.ok value, middle)) →
      Settles (fun count => next count value) middle) :
    Settles (fun count => evaluation count >>= next count) state := by
  refine h.after fun {result} hended hresult => ?_
  obtain ⟨outcome, middle⟩ := result
  cases outcome with
  | ok value =>
      refine ⟨_, middle, hnext hresult, fun count heval => ?_⟩
      rw [bind_apply, heval]
  | error cause =>
      have hother : Except.error cause ≠ (.error .exhausted : Except Interrupt β) := by
        rintro ⟨⟩
        exact hended rfl
      refine ⟨_, middle, ending hother, fun count heval => ?_⟩
      rw [bind_apply, heval]
      rfl

/-- The rules of a construct evaluate its parts within smaller bounds. -/
theorem nested {whole : Nat → Evaluation α} (h : Settles (fun count => whole (count + 1)) state) :
    Settles whole state := by
  obtain ⟨result, hended, bound, hbound⟩ := h
  refine ⟨result, hended, bound + 1, fun count hcount => ?_⟩
  obtain ⟨count, rfl⟩ := Nat.exists_eq_add_of_le' (Nat.le_trans (Nat.le_add_left 1 bound) hcount)
  exact hbound count (Nat.le_of_add_le_add_right hcount)

/-- What is made of the outcome of a part. -/
theorem settled {whole : Nat → Evaluation β} {start : State} (h : Settles evaluation start)
    (finish : Except Interrupt α × State → Except Interrupt β × State)
    (hwhole : ∀ count, whole count state = finish (evaluation count start))
    (hfinish : ∀ result, result.1 ≠ .error .exhausted → (finish result).1 ≠ .error .exhausted) :
    Settles whole state :=
  h.after fun {result} hended _ =>
    ⟨fun _ _ => finish result, start, of_constant (hfinish result hended), fun count heval => by
      rw [hwhole, heval]⟩

theorem settleIteration {body : Nat → Evaluation Value} (h : Settles body state) :
    Settles (fun count => Evaluation.settleIteration (body count)) state := by
  refine h.settled (fun result => Evaluation.settleIteration (fun _ => result) state)
    (fun _ => rfl) fun result hended => ?_
  unfold Evaluation.settleIteration
  split <;> simp_all

theorem settleCall {body : Nat → Evaluation Value} (h : Settles body state) :
    Settles (fun count => Evaluation.settleCall (body count)) state := by
  refine h.settled (fun result => Evaluation.settleCall (fun _ => result) state)
    (fun _ => rfl) fun result hended => ?_
  unfold Evaluation.settleCall
  split <;> simp_all

theorem asCall (h : Settles evaluation { state with depth := state.depth + 1 }) :
    Settles (fun count => Evaluation.asCall (evaluation count)) state :=
  h.settled (fun result => (result.1, { result.2 with depth := result.2.depth - 1 }))
    (fun _ => rfl) fun _ => id

theorem withFrame {parent : Environment} {frame : Frame}
    (h : Settles evaluation (state.enter parent frame)) :
    Settles (fun count => Evaluation.withFrame parent frame (evaluation count)) state :=
  h.settled (Evaluation.restore state.environment) (fun _ => rfl) fun _ => id

theorem withChildFrame {frame : Frame}
    (h : Settles evaluation (state.enter state.environment frame)) :
    Settles (fun count => Evaluation.withChildFrame frame (evaluation count)) state :=
  h.settled (Evaluation.restore state.environment) (fun _ => rfl) fun _ => id

/-- A body and its handler. -/
theorem handling {handler : Nat → Fault → Evaluation α} (h : Settles evaluation state)
    (hhandler : ∀ {fault middle},
      (∃ count, evaluation count state = (.error (.raised fault), middle)) →
      Settles (fun count => handler count fault) middle) :
    Settles (fun count => Evaluation.handling (evaluation count) (handler count)) state := by
  refine h.after fun {result} hended hresult => ?_
  obtain ⟨outcome, middle⟩ := result
  have hother : Settles (fun _ => Evaluation.ending outcome) middle := ending hended
  rcases outcome with (_ | _ | _ | fault | _ | _ | _) | value
  case error.raised =>
    refine ⟨_, middle, hhandler hresult, fun count heval => ?_⟩
    rw [Evaluation.handling, heval]
  all_goals
    refine ⟨_, middle, hother, fun count heval => ?_⟩
    rw [Evaluation.handling, heval]
    rfl

/-- A body and its finalizer, which runs unless the body was aborted. -/
theorem ensuring {finalizer : Nat → Evaluation Value} (h : Settles evaluation state)
    (hfinalizer : ∀ {outcome middle}, (∃ count, evaluation count state = (outcome, middle)) →
      Settles finalizer middle) :
    Settles (fun count => Evaluation.ensuring (evaluation count) (finalizer count)) state := by
  refine h.after fun {result} hended hresult => ?_
  obtain ⟨outcome, middle⟩ := result
  have hother {last : State} : Settles (fun _ => Evaluation.ending outcome) last := ending hended
  cases haborts : aborts outcome with
  | true => exact ⟨_, middle, hother, fun count heval => ensuring_aborted heval haborts⟩
  | false =>
      exact ⟨_, middle, (hfinalizer hresult).bind fun _ => hother, fun count heval =>
        ensuring_apply heval haborts⟩

end Settles

end Evaluation

/-! ## Operations -/

open Evaluation (Settles)

/-- A name is looked up without a bound. -/
theorem Evaluation.Settles.lookup (name : Identifier) {state : State} :
    Settles (fun _ => Evaluation.lookup name) state := by
  refine .bind (.of_ok rfl) fun {current _} _ => ?_
  cases current.store.find? current.environment name.name with
  | some value => exact .pure value
  | none =>
      cases Builtin.ofName? name.name with
      | some function => exact .pure _
      | none => exact .raise _

/-- A binding is changed without a bound. -/
theorem Evaluation.Settles.assign (name : Identifier) (value : Value) {state : State} :
    Settles (fun _ => Evaluation.assign name value) state := by
  have hassign := Evaluation.assign_apply name value state
  cases hholder : state.store.holder? state.environment name.name with
  | some id => exact .of_ok (by rw [hassign, hholder])
  | none => exact .of_raised (by rw [hassign, hholder])

/-- So is a line printed. -/
theorem Evaluation.Settles.printLine (sink : Sink) (line : String) {state : State} :
    Settles (fun _ => Evaluation.printLine sink line) state := by
  cases sink with
  | accepting => exact .of_ok rfl
  | refusing reason => exact .of_raised rfl

namespace Builtin

variable {state : State}

theorem stringArgument_settles (callee : Builtin) (value : Value) :
    Settles (fun _ => stringArgument callee value) state := by
  cases value <;> first | exact .pure _ | exact .raise _

theorem arrayArgument_settles (role : ArgumentRole) (callee : Builtin) (value : Value) :
    Settles (fun _ => arrayArgument role callee value) state := by
  cases value <;> first | exact .pure _ | exact .raise _

theorem hashArgument_settles (role : ArgumentRole) (callee : Builtin) (value : Value) :
    Settles (fun _ => hashArgument role callee value) state := by
  cases value <;> first | exact .pure _ | exact .raise _

/-- A new array, which is made without a bound. -/
theorem newArray_settles (elements : List Value) :
    Settles (fun _ => Evaluation.newArray elements) state :=
  .of_ok rfl

theorem sliceOf_settles (sequence start stop : Value) :
    Settles (fun _ => sliceOf sequence start stop) state := by
  cases sequence with
  | string => exact .bind (.ofExcept _) fun _ => .pure _
  | array => exact .bind (.ofExcept _) fun _ => newArray_settles _
  | _ => exact .raise _

theorem rangeOf_settles (start stop : Value) : Settles (fun _ => rangeOf start stop) state := by
  unfold rangeOf
  split
  · split
    · exact .raise _
    · dsimp only
      split
      · exact .of_constant nofun
      · exact newArray_settles _
  all_goals exact .raise _

theorem joinWith_settles (array : Value) (separator : Option Value) :
    Settles (fun _ => joinWith array separator) state := by
  refine .bind (arrayArgument_settles ..) fun _ => ?_
  split
  · exact .pure _
  · exact .pure _
  · exact .bind (.raise _) fun _ => .pure _

theorem without_settles (callee : Builtin) (rest : List Value → List Value) (array : Value) :
    Settles (fun _ => without callee rest array) state := by
  refine .bind (arrayArgument_settles ..) fun _ => ?_
  split
  · exact .raise _
  · exact newArray_settles _

theorem deleteFrom_settles [Host] (hash key : Value) :
    Settles (fun _ => deleteFrom hash key) state := by
  refine .bind (hashArgument_settles ..) fun _ => ?_
  split
  · exact .of_ok rfl
  · exact .raise _

/-- Builtin functions use no bound. -/
theorem call_settles [Host] (sink : Sink) (callee : Builtin) (arguments : List Value) :
    Settles (fun _ => callee.call sink arguments) state := by
  unfold call
  split
  case h_1 => exact .bind (.printLine sink _) fun _ => .pure _
  case h_2 | h_3 => exact .pure _
  case h_4 value => cases value <;> first | exact .pure _ | exact .raise _
  case h_5 value =>
    cases value <;> first | exact .pure _ | exact newArray_settles _ | exact .raise _
  case h_6 => exact sliceOf_settles ..
  case h_7 => exact rangeOf_settles ..
  case h_8 | h_9 => exact .bind (stringArgument_settles ..) fun _ => .pure _
  case h_10 => exact .bind (stringArgument_settles ..) fun _ => newArray_settles _
  case h_11 | h_12 => exact joinWith_settles ..
  case h_13 | h_14 => exact .bind (arrayArgument_settles ..) fun _ => newArray_settles _
  case h_15 | h_16 => exact without_settles ..
  case h_17 | h_18 => exact .bind (hashArgument_settles ..) fun _ => newArray_settles _
  case h_19 => exact deleteFrom_settles ..
  case h_20 => exact .raise _

end Builtin

end Script
