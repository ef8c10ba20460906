import Script.Proofs.Evaluation.Course

/-!
# Printed text

Nothing takes printed text back: every evaluation adds to the text printed before it, whatever its
outcome. An evaluation of which this is known `Grows`.
-/

namespace Script

/-- The text printed in the first state is the start of that printed in the second one. -/
def State.Continues (first second : State) : Prop :=
  ∃ text, second.printed = first.printed ++ text

namespace State.Continues

variable {first second third : State}

theorem refl (state : State) : state.Continues state := ⟨"", String.append_empty.symm⟩

theorem of_eq (h : first.printed = second.printed) : first.Continues second :=
  ⟨"", h ▸ String.append_empty.symm⟩

theorem trans (h : first.Continues second) (h' : second.Continues third) :
    first.Continues third := by
  obtain ⟨text, htext⟩ := h
  obtain ⟨text', htext'⟩ := h'
  exact ⟨text ++ text', by rw [htext', htext, String.append_assoc]⟩

end State.Continues

/-- The printed text is a given one, and more is added to it. -/
def Invariant.output : Invariant where
  World := String
  Leads first second := ∃ text, second = first ++ text
  state printed state := state.printed = printed
  value _ _ := True
  entries _ _ := True
  scope _ _ := True

namespace Invariant

theorem output_refl (printed : String) : output.Leads printed printed :=
  ⟨"", String.append_empty.symm⟩

/-- A primitive operation that prints nothing. -/
theorem output_keeps {α : Type} {valid : String → α → Prop} {printed : String}
    {evaluation : Evaluation α} (h : ∀ state, (evaluation state).2.printed = state.printed)
    (hvalid : ∀ state, output.outcome valid printed (evaluation state).1) :
    output.Keeps valid printed evaluation :=
  fun state hstate => ⟨printed, output_refl printed, (h state).trans hstate, hvalid state⟩

theorem output_lawful [Host] : output.Lawful where
  refl := output_refl
  trans := by
    rintro _ _ _ ⟨text, rfl⟩ ⟨text', rfl⟩
    exact ⟨text ++ text', String.append_assoc⟩
  within _ _ _ := trivial
  entries_leads _ _ := trivial
  plain _ := trivial
  elements _ _ _ := trivial
  filed _ := trivial
  parts _ _ := ⟨trivial, trivial⟩
  entries_nil := trivial
  entries_insert _ _ _ _ := trivial
  entries_erase _ := trivial
  closure _ := trivial
  environment _ := trivial
  find _ _ := trivial
  newArray _ := output_keeps (fun _ => rfl) fun _ => trivial
  newHash _ := output_keeps (fun _ => rfl) fun _ => trivial
  newFunction _ := output_keeps (fun _ => rfl) fun _ => trivial
  newError _ := output_keeps (fun _ => rfl) fun _ => trivial
  define _ _ _ := output_keeps (fun _ => rfl) fun _ => trivial
  assign name value _ := by
    refine output_keeps (fun state => ?_) fun state => ?_
    · rw [Evaluation.assign_apply]
      split <;> rfl
    · rw [Evaluation.assign_apply]
      split <;> trivial
  printLine sink line := by
    intro state hstate
    cases sink with
    | accepting =>
        refine ⟨_, ⟨line ++ "\n", ?_⟩, rfl, trivial⟩
        rw [← hstate]
        exact String.append_assoc
    | refusing reason => exact ⟨_, output_refl _, hstate, trivial⟩
  inFrame {printed state parent frame} hstate _ _ :=
    ⟨printed, fun _ _ => trivial, hstate, fun last _ hleads hlast =>
      ⟨last, hleads, fun _ _ => trivial, hlast⟩⟩
  inCall {printed state} hstate :=
    ⟨printed, fun _ _ => trivial, hstate, fun last _ hleads hlast =>
      ⟨last, hleads, fun _ _ => trivial, hlast⟩⟩

end Invariant

namespace Evaluation

variable {α β : Type}

/-- Whatever the outcome, the evaluation adds to the printed text and takes nothing back. -/
def Grows (evaluation : Evaluation α) : Prop :=
  ∀ state : State, state.Continues (evaluation state).2

theorem Grows.of_keeps {evaluation : Evaluation α} {valid : String → α → Prop}
    (h : ∀ printed, Invariant.output.Keeps valid printed evaluation) : evaluation.Grows := by
  intro state
  obtain ⟨_, ⟨text, rfl⟩, hlast, -⟩ := h state.printed state rfl
  exact ⟨text, hlast⟩

/-- An evaluation that prints nothing. -/
theorem Grows.of_eq {evaluation : Evaluation α}
    (h : ∀ state, (evaluation state).2.printed = state.printed) : evaluation.Grows :=
  fun state => .of_eq (h state).symm

theorem Grows.pure (result : α) : Grows (Pure.pure result) := .of_eq fun _ => rfl

theorem Grows.interrupt (cause : Interrupt) : Grows (Evaluation.interrupt cause : Evaluation α) :=
  .of_eq fun _ => rfl

theorem Grows.raise (fault : Fault) : Grows (Evaluation.raise fault : Evaluation α) :=
  .interrupt _

theorem Grows.ofExcept (result : Except Fault α) : Grows (Evaluation.ofExcept result) := by
  cases result with
  | ok value => exact .pure value
  | error fault => exact .raise fault

theorem Grows.bind {evaluation : Evaluation α} {next : α → Evaluation β} (h : evaluation.Grows)
    (hnext : ∀ value, (next value).Grows) : (evaluation >>= next).Grows := by
  intro state
  have hfirst := h state
  rw [bind_apply]
  generalize evaluation state = result at hfirst
  obtain ⟨_ | value, middle⟩ := result
  · exact hfirst
  · exact hfirst.trans (hnext value middle)

theorem Grows.settleIteration {body : Evaluation Value} (h : body.Grows) :
    (settleIteration body).Grows := by
  intro state
  have hsame : (Evaluation.settleIteration body state).2 = (body state).2 := by
    unfold Evaluation.settleIteration
    split <;> simp_all
  rw [hsame]
  exact h state

/-- After a body only its finalizer prints, if it runs at all. -/
theorem Grows.ensuring_continues {body : Evaluation α} {finalizer : Evaluation Value}
    (h : finalizer.Grows) {outcome : Except Interrupt α} {state middle : State}
    (hbody : body state = (outcome, middle)) :
    middle.Continues (ensuring body finalizer state).2 := by
  cases haborts : aborts outcome with
  | true =>
      rw [ensuring_aborted hbody haborts]
      exact .refl middle
  | false =>
      rw [ensuring_apply hbody haborts]
      exact (h.bind fun _ => .of_eq fun _ => rfl) middle

/-- Frames are entered and left without printing. -/
theorem Grows.withChildFrame {frame : Frame} {body : Evaluation Value} (h : body.Grows) :
    (withChildFrame frame body).Grows :=
  fun state => h (state.enter state.environment frame)

end Evaluation

/-! ## Evaluations of programs -/

namespace Evaluators

variable [Host] (settings : Settings) (count : Nat)

theorem expr_grows (expr : Expr) : (Expr.evaluate settings count expr).Grows :=
  .of_keeps fun printed => (Invariant.output_lawful.sound settings count).expr printed expr

theorem statement_grows (statement : Statement) :
    (Statement.execute settings count statement).Grows :=
  .of_keeps fun printed =>
    (Invariant.output_lawful.sound settings count).statement printed statement

theorem exprs_grows (exprs : List Expr) : ((upTo settings count).exprs exprs).Grows :=
  .of_keeps fun _ => Invariant.output_lawful.exprs (Invariant.output_lawful.sound _ _) exprs

theorem pairs_grows (entries : List Entry) (pairs : List Pair) :
    ((upTo settings count).pairs entries pairs).Grows :=
  .of_keeps fun _ => Invariant.output_lawful.pairs (Invariant.output_lawful.sound _ _) pairs trivial

theorem statements_grows (last : Value) (statements : List Statement) :
    ((upTo settings count).statements last statements).Grows :=
  .of_keeps fun _ =>
    Invariant.output_lawful.statements (Invariant.output_lawful.sound _ _) statements trivial

theorem block_grows (block : Block) : ((upTo settings count).block block).Grows :=
  statements_grows settings count _ _

theorem forEach_grows (name : String) (body : Block) (elements : List Value) :
    ((upTo settings count).forEach name body elements).Grows :=
  .of_keeps fun _ => Invariant.output_lawful.forEach (Invariant.output_lawful.sound _ _) name body
    fun _ _ => trivial

theorem whileTrue_grows (condition : Expr) (body : Block) (iterations : Nat) :
    ((upTo settings count).whileTrue condition body iterations).Grows :=
  .of_keeps fun _ => Invariant.output_lawful.whileTrue (Invariant.output_lawful.sound _ _)
    condition body iterations

theorem call_grows (location : Location) (callee : Value) (arguments : List Value) :
    ((upTo settings count).call settings location callee arguments).Grows :=
  .of_keeps fun _ => Invariant.output_lawful.call (Invariant.output_lawful.sound _ _) settings
    location trivial fun _ _ => trivial

theorem handle_grows (name : Identifier) (handler : Block) (fault : Fault) :
    ((upTo settings count).handle name handler fault).Grows :=
  .of_keeps fun _ => Invariant.output_lawful.handle (Invariant.output_lawful.sound _ _) name
    handler fault

end Evaluators

end Script
