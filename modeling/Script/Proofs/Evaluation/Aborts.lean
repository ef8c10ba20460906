import Script.Proofs.Evaluation.Failure

/-!
# Where evaluations are cut short

No construct of the language stops an abort or a crash, so each of them comes from a call in the
course of what is evaluated: an abort from a call of a function that is one too many,
`Task.refused_of_overflowed`, and a crash from a call of `range` for more integers than an array can
hold, `Task.crashed_iff_overreaches`. Both are read off a run that is compared with itself.
-/

namespace Script

open Evaluation (mapped_error_iff)

variable [Host]

/-- A call of a function of the program with the right number of arguments, reached when the counter
is at its limit, in the course of the given task. -/
def Refused (settings : Settings) (task : Task) (state : State) (overflow : StackOverflow) : Prop :=
  overflow.limit = settings.maxDepth ∧
    ∃ enclosing identity closure literal arguments state',
      Reaches settings task state enclosing
        (.call overflow.location (.function identity closure literal) arguments) state' ∧
      arguments.length = literal.parameters.length ∧ settings.maxDepth ≤ state'.depth

/-- A call of `range` for more integers than an array can hold, reached in the course of the given
task. -/
def Overreaches (settings : Settings) (task : Task) (state : State) : Prop :=
  ∃ enclosing location start stop state',
    Reaches settings task state enclosing
      (.call location (.builtin .range) [.integer start, .integer stop]) state' ∧
    Builtin.capacity < stop.toInt - start.toInt

/-- A run beside itself, which aborts at refused calls and crashes at overreaching ones only. -/
def Comparison.traced (settings : Settings) (task : Task) (state : State) : Comparison :=
  .sameCode settings settings
    (fun part state' => ∃ enclosing, Reaches settings task state enclosing part state')
    (fun _ => False)
    (fun overflow _ => Refused settings task state overflow)
    (Overreaches settings task state)

theorem Comparison.traced_lawful (settings : Settings) (task : Task) (state : State) :
    (traced settings task state).Lawful where
  likeness := Likeness.equality_lawful
  sink := rfl
  room := Nat.le_refl _
  uncaught := False.elim
  starts := by
    rintro _ _ _ _ ⟨enclosing, hreaches⟩ hstarts
    exact ⟨_, hreaches.starts hstarts⟩
  located _ _ _ := id
  limit := by
    rintro location _ identity closure literal arguments state' ⟨enclosing, hreaches⟩ hcount hfull -
    exact .inr ⟨rfl, rfl, enclosing, identity, closure, literal, arguments, state', hreaches,
      hcount, hfull⟩
  capacity := by
    rintro location start stop state' ⟨enclosing, hreaches⟩ hbeyond
    exact ⟨enclosing, location, start, stop, state', hreaches, hbeyond⟩

namespace Task

variable {settings : Settings} {count : Nat} {task : Task} {state : State}

/-- A task runs alike beside itself. -/
theorem traced (settings : Settings) (count : Nat) (task : Task) (state : State) :
    (Comparison.traced settings task state).Agree (Comparison.traced settings task state).values
      (task.evaluate settings count state) (task.evaluate settings count state) :=
  (Comparison.traced_lawful settings task state).task
    (.inl rfl : Comparison.Bounds _ count count) (Comparison.sameCode_tasks task) ⟨[], .here⟩
    (.refl (fun _ => rfl) state)

/-- A task is aborted by a refused call, and by nothing else. -/
theorem refused_of_overflowed {overflow : StackOverflow}
    (h : (task.evaluate settings count state).1 = .error (.overflowed overflow)) :
    Refused settings task state overflow := by
  rcases (task.traced settings count state).overflowed h with ⟨_, hrefused, -⟩ | hcut
  · exact hrefused
  · exact hcut.elim

/-- An overreaching call does nothing but crash. -/
theorem range_crashes (location : Location) {start stop : Int64}
    (hbeyond : Builtin.capacity < stop.toInt - start.toInt) :
    (Task.call location (.builtin .range) [.integer start, .integer stop]).Ends settings state
      (.error .crashed) state := by
  refine ⟨nofun, 0, mapped_error_iff.2 ?_⟩
  have hordered : ¬ stop.toInt < start.toInt := by omega
  have hcount : Builtin.capacity < (stop.toInt - start.toInt).toNat := by omega
  simp only [Evaluators.call, Builtin.call, Builtin.rangeOf, if_neg hordered, if_pos hcount]
  rfl

/-- A task makes the interpreter crash by an overreaching call, and by nothing else. -/
theorem crashed_iff_overreaches :
    (∃ count, (task.evaluate settings count state).1 = .error .crashed) ↔
      Overreaches settings task state := by
  constructor
  · rintro ⟨count, h⟩
    exact ((task.traced settings count state).crashed h).resolve_right id
  · rintro ⟨enclosing, location, start, stop, state', hreaches, hbeyond⟩
    obtain ⟨-, count, heval⟩ := hreaches.fails rfl (.inr rfl) (range_crashes location hbeyond)
    exact ⟨count, congrArg Prod.fst heval⟩

end Task

namespace Session

/-- In the course of a program `range` is called for more integers than an array can hold. -/
def Overreaches (session : Session) (program : Program) : Prop :=
  Script.Overreaches session.settings (.statements .null program.statements) session.state

/-- A program makes the interpreter crash by an overreaching call, and by nothing else. -/
theorem run_crashed_iff {session : Session} {program : Program} :
    (∃ bound, (run bound session program).1 = .crashed) ↔ session.Overreaches program := by
  rw [Overreaches, ← Task.crashed_iff_overreaches]
  refine exists_congr fun bound => ?_
  rw [Statement.executeAll_task]
  unfold run
  generalize Statement.executeAll session.settings bound program.statements session.state = result
  obtain ⟨outcome, last⟩ := result
  cases outcome with
  | ok value => exact ⟨nofun, nofun⟩
  | error cause =>
      cases cause with
      | crashed => exact ⟨fun _ => rfl, fun _ => rfl⟩
      | returned | broken | continued | raised | overflowed | exhausted => exact ⟨nofun, nofun⟩

end Session

end Script
