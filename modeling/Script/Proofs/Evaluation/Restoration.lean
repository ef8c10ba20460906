import Script.Proofs.Evaluation.Course

/-!
# Coming back

Loops, calls and the handlers of errors change the current environment or the number of active
calls. `Task.restores` says that both are back when any task ends, whatever its outcome, and
`Session.Reached.at_root` that every program of a session starts at the root. A lawful invariant
of the initial state therefore holds in all states of a session: `Invariant.Lawful.reachable`.
-/

namespace Script

/-- The environment and the number of active calls stay what they are. -/
def Invariant.position : Invariant where
  World := Environment × Nat
  Leads := Eq
  state world state := state.environment = world.1 ∧ state.depth = world.2
  value _ _ := True
  entries _ _ := True
  scope _ _ := True

namespace Invariant

/-- A primitive operation that changes bindings, identities or printed text only. -/
theorem position_keeps {α : Type} {valid : Environment × Nat → α → Prop} {world : Environment × Nat}
    {evaluation : Evaluation α}
    (h : ∀ state, (evaluation state).2.environment = state.environment ∧
      (evaluation state).2.depth = state.depth)
    (hvalid : ∀ state, position.outcome valid world (evaluation state).1) :
    position.Keeps valid world evaluation :=
  fun state hstate => ⟨world, rfl, ⟨(h state).1.trans hstate.1, (h state).2.trans hstate.2⟩,
    hvalid state⟩

/-- The primitive operations leave the position alone, and frames and calls come back to it. -/
theorem position_lawful [Host] : position.Lawful where
  refl _ := rfl
  trans := Eq.trans
  within _ _ _ := trivial
  entries_leads _ _ := trivial
  plain _ := trivial
  elements _ _ _ := trivial
  filed _ := trivial
  parts _ _ := ⟨trivial, trivial⟩
  entries_nil := trivial
  entries_insert _ _ _ _ := trivial
  entries_erase _ := trivial
  closure _ := trivial
  environment _ := trivial
  find _ _ := trivial
  newArray _ := position_keeps (fun _ => ⟨rfl, rfl⟩) fun _ => trivial
  newHash _ := position_keeps (fun _ => ⟨rfl, rfl⟩) fun _ => trivial
  newFunction _ := position_keeps (fun _ => ⟨rfl, rfl⟩) fun _ => trivial
  newError _ := position_keeps (fun _ => ⟨rfl, rfl⟩) fun _ => trivial
  define _ _ _ := position_keeps (fun _ => ⟨rfl, rfl⟩) fun _ => trivial
  assign name value _ := by
    refine position_keeps (fun state => ?_) fun state => ?_
    · rw [Evaluation.assign_apply]
      split <;> exact ⟨rfl, rfl⟩
    · rw [Evaluation.assign_apply]
      split <;> trivial
  printLine sink line := by
    refine position_keeps (fun state => ?_) fun state => ?_
    · unfold Evaluation.printLine
      split <;> exact ⟨rfl, rfl⟩
    · unfold Evaluation.printLine
      split <;> trivial
  inFrame {world state parent frame} hstate _ _ := by
    refine ⟨(state.store.frames.size :: parent, state.depth), fun _ _ => trivial, ⟨rfl, rfl⟩, ?_⟩
    intro last state' hleads hstate'
    subst hleads
    obtain ⟨-, hdepth⟩ := hstate'
    exact ⟨world, rfl, fun _ _ => trivial, hstate.1, hdepth.trans hstate.2⟩
  inCall {world state} hstate := by
    refine ⟨(state.environment, state.depth + 1), fun _ _ => trivial, ⟨rfl, rfl⟩, ?_⟩
    intro last state' hleads hstate'
    subst hleads
    obtain ⟨henvironment, hdepth⟩ := hstate'
    refine ⟨world, rfl, fun _ _ => trivial, henvironment.trans hstate.1, ?_⟩
    show state'.depth - 1 = world.2
    rw [hdepth, ← hstate.2]
    rfl

end Invariant

variable [Host]

/-- Every task ends in the environment and at the depth that it started with, whatever its
outcome. -/
theorem Task.restores (settings : Settings) (count : Nat) (task : Task) (state : State) :
    (task.evaluate settings count state).2.environment = state.environment ∧
      (task.evaluate settings count state).2.depth = state.depth := by
  have htask : Invariant.position.task (state.environment, state.depth) task := by
    cases task <;> simp [Invariant.task, Invariant.position, Invariant.values]
  have hkeeps : Invariant.position.Keeps _ _ (task.evaluate settings count) :=
    Invariant.position_lawful.task count htask
  obtain ⟨last, rfl, hlast, -⟩ := hkeeps state ⟨rfl, rfl⟩
  exact hlast

/-! ## Sessions -/

/-- What a program leaves behind: the state at the end of its statements, with one more identity
for an error value, or back at the root after an abort. -/
theorem Session.run_state (settings : Settings) (bound : Nat) (state : State) (program : Program) :
    let last := (Statement.executeAll settings bound program.statements state).2
    let after := (Session.run bound ⟨settings, state⟩ program).2.state
    after = last ∨ (∃ fault, after = (Evaluation.newError fault last).2) ∨
      after = { last with environment := Store.root, depth := 0 } := by
  dsimp only [Session.run]
  generalize Statement.executeAll settings bound program.statements state = result
  obtain ⟨outcome, last⟩ := result
  cases outcome with
  | ok value => exact .inl rfl
  | error interrupt =>
      cases interrupt with
      | returned value => exact .inl rfl
      | raised fault => exact .inr (.inl ⟨fault, rfl⟩)
      | broken location => exact .inr (.inl ⟨.strayBreak location, rfl⟩)
      | continued location => exact .inr (.inl ⟨.strayContinue location, rfl⟩)
      | overflowed overflow => exact .inr (.inr rfl)
      | crashed | exhausted => exact .inl rfl

/-- The statements of a program come back to where they started. -/
theorem Statement.executeAll_restores (settings : Settings) (count : Nat)
    (statements : List Statement) (state : State) :
    (Statement.executeAll settings count statements state).2.environment = state.environment ∧
      (Statement.executeAll settings count statements state).2.depth = state.depth := by
  have h := Task.restores settings count (.statements .null statements) state
  rwa [Statement.executeAll_task] at h

/-- Every program of a session starts, and leaves the session, at the root and outside of all
calls. -/
theorem Session.Reached.at_root {settings : Settings} {state : State}
    (h : Session.Reached settings state) : state.environment = Store.root ∧ state.depth = 0 := by
  induction h with
  | new => exact ⟨rfl, rfl⟩
  | @run state bound program _ ih =>
      have hlast := Statement.executeAll_restores settings bound program.statements state
      rw [ih.1, ih.2] at hlast
      rcases Session.run_state settings bound state program with h | ⟨fault, h⟩ | h
      · rw [h]
        exact hlast
      · rw [h]
        exact hlast
      · rw [h]
        exact ⟨rfl, rfl⟩
  | silenced _ ih => exact ih

namespace Invariant.Lawful

variable {I : Invariant} {settings : Settings}

/-- A lawful invariant of the initial state holds between any two programs. -/
theorem reached (hI : I.Lawful) (hinitial : ∃ world, I.state world .initial)
    (hsilenced : ∀ world state, I.state world state →
      ∃ world', I.state world' { state with printed := "" })
    {state : State} (h : Session.Reached settings state) : ∃ world, I.state world state := by
  induction h with
  | new => exact hinitial
  | @run state bound program hreached ih =>
      obtain ⟨world, hstate⟩ := ih
      have hnull : I.value world .null := hI.plain rfl
      have hstatements := hI.statements (hI.sound settings bound) program.statements hnull
      obtain ⟨last, -, hlast, -⟩ := hstatements state hstate
      rcases Session.run_state settings bound state program with h | ⟨fault, h⟩ | h
      · rw [h]
        exact ⟨last, hlast⟩
      · obtain ⟨after, -, hafter, -⟩ := hI.newError fault _ hlast
        rw [h]
        exact ⟨after, hafter⟩
      · -- the environment and the depth were back before the session reset them
        have hback := Statement.executeAll_restores settings bound program.statements state
        rw [hreached.at_root.1, hreached.at_root.2] at hback
        rw [h, ← hback.1, ← hback.2]
        exact ⟨last, hlast⟩
  | silenced _ ih =>
      obtain ⟨world, hstate⟩ := ih
      exact hsilenced world _ hstate

/-- It holds whenever a task is started. -/
theorem visited (hI : I.Lawful)
    (hreached : ∀ state, Session.Reached settings state → ∃ world, I.state world state)
    {task : Task} {state : State} (h : Visited settings task state) :
    ∃ world, I.state world state ∧ I.task world task := by
  induction h with
  | program program h =>
      obtain ⟨world, hstate⟩ := hreached _ h
      exact ⟨world, hstate, hI.plain rfl⟩
  | starts _ hstarts ih =>
      obtain ⟨world, hstate, htask⟩ := ih
      exact hI.starts hstarts hstate htask

/-- It holds of all states of a session, and of the values at hand. -/
theorem reachable (hI : I.Lawful)
    (hreached : ∀ state, Session.Reached settings state → ∃ world, I.state world state)
    {state : State} {atHand : List Value} (h : State.Reachable settings state atHand) :
    ∃ world, I.state world state ∧ I.values world atHand := by
  cases h with
  | between h =>
      obtain ⟨world, hstate⟩ := hreached _ h
      exact ⟨world, hstate, List.forall_mem_nil _⟩
  | starting h =>
      obtain ⟨world, hstate, htask⟩ := hI.visited hreached h
      exact ⟨world, hstate, hI.task_values htask⟩
  | ending count h =>
      obtain ⟨world, hstate, htask⟩ := hI.visited hreached h
      obtain ⟨last, -, hlast, houtcome⟩ := hI.task count htask _ hstate
      exact ⟨last, hlast, outcome_values houtcome⟩

end Invariant.Lawful

end Script
