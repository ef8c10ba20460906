import Script.Proofs.Evaluation.Copies
import Script.Proofs.Evaluation.Creations

/-!
# The identities of compound values

Arrays, hashes, functions and errors are equal when they were made by the same evaluation.
`identities_tell_creations` says what this means for programs: equal compound values have the same
contents, passing a value on keeps it equal to itself, and what an operation makes anew is equal to
nothing that existed before.
-/

namespace Script

/-- Evaluations in sequence that give a value both give one. -/
theorem Evaluation.ok_of_bind {α β : Type} {evaluation : Evaluation α} {next : α → Evaluation β}
    {state last : State} {b : β} (h : (evaluation >>= next) state = (.ok b, last)) :
    ∃ a middle, evaluation state = (.ok a, middle) ∧ next a middle = (.ok b, last) := by
  rw [Evaluation.bind_apply] at h
  split at h
  · next a middle heval => exact ⟨a, middle, heval, h⟩
  · cases h

/-! ## Operations that make values -/

/-- Every value that an evaluation gives is a compound value. -/
def Evaluation.Makes (evaluation : Evaluation Value) : Prop :=
  ∀ state value last, evaluation state = (.ok value, last) → value.identity?.isSome

namespace Evaluation.Makes

theorem raise (fault : Fault) : (Evaluation.raise fault).Makes := by
  intro state value last heval
  cases heval

theorem crash : (Evaluation.interrupt .crashed : Evaluation Value).Makes := by
  intro state value last heval
  cases heval

theorem newArray (elements : List Value) : (Evaluation.newArray elements).Makes := by
  intro state value last heval
  cases heval
  rfl

theorem newHash (entries : List Entry) : (Evaluation.newHash entries).Makes := by
  intro state value last heval
  cases heval
  rfl

variable {α : Type} {next : α → Evaluation Value}

/-- What is made after a check of an argument. -/
theorem checked {check : Evaluation α}
    (hcheck : (∃ a, check = pure a) ∨ ∃ fault, check = Evaluation.raise fault)
    (hnext : ∀ a, (next a).Makes) : (check >>= next).Makes := by
  rcases hcheck with ⟨a, rfl⟩ | ⟨fault, rfl⟩
  · rw [pure_bind]
    exact hnext a
  · exact raise fault

end Evaluation.Makes

namespace Builtin

/-- The calls of builtin functions that give an array or a hash. -/
def makes : Builtin → List Value → Bool
  | push, _ | unshift, _ | pop, _ | shift, _ | split, _ | range, _ => true
  | keys, _ | values, _ | delete, _ => true
  | reversed, .array _ _ :: _ | slice, .array _ _ :: _ => true
  | _, _ => false

variable {callee : Builtin} {role : ArgumentRole} {value : Value}

open Evaluation

theorem stringArgument_makes {next : String → Evaluation Value} (h : ∀ text, (next text).Makes) :
    (stringArgument callee value >>= next).Makes := by
  refine Makes.checked ?_ h
  cases value <;> first | exact .inl ⟨_, rfl⟩ | exact .inr ⟨_, rfl⟩

theorem arrayArgument_makes {next : List Value → Evaluation Value}
    (h : ∀ elements, (next elements).Makes) :
    (arrayArgument role callee value >>= next).Makes := by
  refine Makes.checked ?_ h
  cases value <;> first | exact .inl ⟨_, rfl⟩ | exact .inr ⟨_, rfl⟩

theorem hashArgument_makes {next : List Entry → Evaluation Value}
    (h : ∀ entries, (next entries).Makes) :
    (hashArgument role callee value >>= next).Makes := by
  refine Makes.checked ?_ h
  cases value <;> first | exact .inl ⟨_, rfl⟩ | exact .inr ⟨_, rfl⟩

theorem without_makes {rest : List Value → List Value} : (without callee rest value).Makes := by
  refine arrayArgument_makes fun elements => ?_
  split
  · exact Makes.raise _
  · exact Makes.newArray _

theorem sliceOf_makes (identity : Identity) (elements : List Value) (start stop : Value) :
    (sliceOf (.array identity elements) start stop).Makes := by
  refine Makes.checked ?_ fun ends => Makes.newArray _
  cases sliceEnds elements.length start stop with
  | ok ends => exact .inl ⟨ends, rfl⟩
  | error fault => exact .inr ⟨fault, rfl⟩

theorem rangeOf_makes (start stop : Value) : (rangeOf start stop).Makes := by
  unfold rangeOf
  split
  · split
    · exact Makes.raise _
    · dsimp only
      split
      · exact Makes.crash
      · exact Makes.newArray _
  · exact Makes.raise _
  · exact Makes.raise _

theorem deleteFrom_makes [Host] (hash key : Value) : (deleteFrom hash key).Makes := by
  refine hashArgument_makes fun entries => ?_
  split
  · exact Makes.newHash _
  · exact Makes.raise _

/-- These calls give arrays and hashes only. -/
theorem call_makes [Host] (sink : Sink) {function : Builtin} {arguments : List Value}
    (h : function.makes arguments = true) : (function.call sink arguments).Makes := by
  -- a call with a wrong number of arguments is a fault
  cases function with
  | print | type | str | len | lower | upper | join => cases h
  | reversed =>
      rcases arguments with _ | ⟨whole, _ | ⟨second, rest⟩⟩
      case cons.nil =>
        cases whole with
        | array identity elements => exact Makes.newArray _
        | _ => cases h
      all_goals exact Makes.raise _
  | slice =>
      rcases arguments with _ | ⟨whole, _ | ⟨start, _ | ⟨stop, _ | ⟨fourth, rest⟩⟩⟩⟩
      case cons.cons.cons.nil =>
        cases whole with
        | array identity elements => exact sliceOf_makes identity elements start stop
        | _ => cases h
      all_goals exact Makes.raise _
  | range =>
      rcases arguments with _ | ⟨start, _ | ⟨stop, _ | ⟨third, rest⟩⟩⟩
      case cons.cons.nil => exact rangeOf_makes start stop
      all_goals exact Makes.raise _
  | delete =>
      rcases arguments with _ | ⟨hash, _ | ⟨key, _ | ⟨third, rest⟩⟩⟩
      case cons.cons.nil => exact deleteFrom_makes hash key
      all_goals exact Makes.raise _
  | split =>
      rcases arguments with _ | ⟨text, _ | ⟨second, rest⟩⟩
      case cons.nil => exact stringArgument_makes fun text => Makes.newArray _
      all_goals exact Makes.raise _
  | pop | shift =>
      rcases arguments with _ | ⟨array, _ | ⟨second, rest⟩⟩
      case cons.nil => exact without_makes
      all_goals exact Makes.raise _
  | keys | values =>
      rcases arguments with _ | ⟨hash, _ | ⟨second, rest⟩⟩
      case cons.nil => exact hashArgument_makes fun entries => Makes.newArray _
      all_goals exact Makes.raise _
  | push | unshift =>
      rcases arguments with _ | ⟨array, _ | ⟨first, rest⟩⟩
      case cons.cons => exact arrayArgument_makes fun elements => Makes.newArray _
      all_goals exact Makes.raise _

end Builtin

namespace State.Recorded

variable {state last : State} {creations : Creations} {value : Value}

/-- A new array is the last creation. -/
theorem newArray (h : state.Recorded creations) {elements : List Value}
    (helements : ∀ element ∈ elements, creations.Covers element)
    (heval : Evaluation.newArray elements state = (.ok value, last)) :
    last.Recorded (creations ++ [value]) := by
  cases heval
  refine h.create rfl fun part hpart => ?_
  obtain ⟨element, helement, hmem⟩ := Value.mem_insideAll.1 hpart
  exact helements element helement part hmem

/-- So is a new hash. -/
theorem newHash (h : state.Recorded creations) {entries : List Entry}
    (hentries : ∀ part ∈ Entry.insideAll entries, creations.Lists part)
    (heval : Evaluation.newHash entries state = (.ok value, last)) :
    last.Recorded (creations ++ [value]) := by
  cases heval
  exact h.create rfl hentries

end State.Recorded

variable [Host]

/-- The operations that make a new value, with the values that they are given: literals of arrays,
hashes and functions, calls of builtin functions, and the handling of a fault. -/
inductive Creates (settings : Settings) : List Value → Evaluation Value → Prop where
  | array (location : Location) (elements : List Expr) (count : Nat) :
    Creates settings [] (Expr.evaluate settings count (.array location elements))
  | hash (location : Location) (pairs : List Pair) (count : Nat) :
    Creates settings [] (Expr.evaluate settings count (.hash location pairs))
  | function (literal : FunctionLiteral) (count : Nat) :
    Creates settings [] (Expr.evaluate settings count (.function literal))
  | builtin (function : Builtin) (arguments : List Value) :
    function.makes arguments = true →
    Creates settings arguments (function.call settings.sink arguments)
  | error (fault : Fault) : Creates settings [] (Evaluation.newError fault)

namespace State.Recorded

variable {settings : Settings} {state last : State} {creations : Creations} {value : Value}

/-- What a builtin function makes is made of its arguments, and is the last creation. -/
theorem builtin (h : state.Recorded creations) {function : Builtin} {arguments : List Value}
    (harguments : ∀ argument ∈ arguments, creations.Covers argument)
    (hidentity : value.identity?.isSome)
    (heval : function.call settings.sink arguments state = (.ok value, last)) :
    last.Recorded (creations ++ [value]) := by
  have hhereditary := Invariant.recorded_laws.lawful.hereditary creations
  have hacts := Builtin.call_acts settings.sink function arguments
  generalize function.call settings.sink arguments = evaluation at hacts heval
  cases hacts with
  | raise | crash => cases heval
  | plain hplain =>
      cases heval
      rw [Value.isPlain_iff.1 hplain] at hidentity
      cases hidentity
  | newArray helements => exact h.newArray (helements _ _ hhereditary harguments) heval
  | newHash hfiled => exact h.newHash (hfiled _ _ hhereditary harguments).2 heval
  | print line =>
      simp only [Evaluation.bind_apply] at heval
      split at heval <;> cases heval
      cases hidentity

/-- What an operation makes is a new value, and the last one that was made. -/
theorem creates (h : state.Recorded creations) {given : List Value} {evaluation : Evaluation Value}
    (hcreates : Creates settings given evaluation)
    (hgiven : ∀ value ∈ given, creations.Covers value)
    (heval : evaluation state = (.ok value, last)) :
    ∃ created, last.Recorded (creations ++ created ++ [value]) := by
  have halone (hlast : last.Recorded (creations ++ [value])) :
      ∃ created, last.Recorded (creations ++ created ++ [value]) :=
    ⟨[], by rwa [List.append_nil]⟩
  cases hcreates with
  | array location elements count =>
      cases count with
      | zero => cases heval
      | succ count =>
          obtain ⟨values, middle, hvalues, hnew⟩ := Evaluation.ok_of_bind heval
          have htask : (Task.exprs elements).evaluate settings count state =
              (.ok values, middle) := hvalues
          obtain ⟨created, hmiddle, hcovers⟩ := h.task_ok (List.forall_mem_nil _) htask
          exact ⟨created, hmiddle.newArray hcovers hnew⟩
  | hash location pairs count =>
      cases count with
      | zero => cases heval
      | succ count =>
          obtain ⟨entries, middle, hentries, hnew⟩ := Evaluation.ok_of_bind heval
          have htask : (Task.pairs [] pairs).evaluate settings count state =
              (.ok (entries.flatMap fun entry => [entry.key, entry.value]), middle) := by
            rw [Task.evaluate, Evaluation.bind_apply, hentries]
            rfl
          obtain ⟨created, hmiddle, hcovers⟩ := h.task_ok (List.forall_mem_nil _) htask
          refine ⟨created, hmiddle.newHash (fun part hpart => ?_) hnew⟩
          obtain ⟨entry, hentry, hmem⟩ := Entry.mem_insideAll.1 hpart
          rcases hmem with hmem | hmem
          · exact hcovers _ (List.mem_flatMap.2 ⟨entry, hentry, .head _⟩) part hmem
          · exact hcovers _ (List.mem_flatMap.2 ⟨entry, hentry, .tail _ (.head _)⟩) part hmem
  | function literal count =>
      cases count with
      | zero => cases heval
      | succ count =>
          cases heval
          exact halone (h.create rfl (List.forall_mem_nil _))
  | builtin function arguments hmakes =>
      have hidentity := Builtin.call_makes settings.sink hmakes state value last heval
      exact halone (h.builtin hgiven hidentity heval)
  | error fault =>
      cases heval
      exact halone (h.create rfl (List.forall_mem_nil _))

/-- A program adds to the list, also for an error value at its end. -/
theorem run (h : state.Recorded creations) (bound : Nat) (program : Program) :
    ∃ created,
      (Session.run bound ⟨settings, state⟩ program).2.state.Recorded (creations ++ created) ∧
      ∀ value, (Session.run bound ⟨settings, state⟩ program).1 = .value value →
        Creations.Covers (creations ++ created) value := by
  have hnull : ∀ value ∈ (Task.statements .null program.statements).values,
      creations.Covers value :=
    List.forall_mem_singleton.2 (Invariant.recorded_laws.lawful.plain rfl)
  have htask := h.task settings bound hnull
  rw [Statement.executeAll_task] at htask
  dsimp only [Session.run]
  generalize Statement.executeAll settings bound program.statements state = result at htask
  obtain ⟨outcome, last⟩ := result
  obtain ⟨created, hlast, hresults⟩ := htask
  have herror (fault : Fault) :
      ∃ created, State.Recorded (creations ++ created)
          { last with identities := last.identities + 1 } ∧
        ∀ value, Result.value (.error last.identities fault) = .value value →
          Creations.Covers (creations ++ created) value := by
    let error : Value := .error last.identities fault
    have hcreated : State.Recorded (creations ++ created ++ [error])
        { last with identities := last.identities + 1 } :=
      hlast.create rfl (List.forall_mem_nil _)
    rw [List.append_assoc] at hcreated
    refine ⟨created ++ [error], hcreated, fun value hvalue => ?_⟩
    cases hvalue
    have hmem : error ∈ creations ++ (created ++ [error]) := by simp
    exact hcreated.numbered.covered error hmem
  cases outcome with
  | ok value => exact ⟨created, hlast, fun _ hvalue => by cases hvalue; exact hresults _ (.head _)⟩
  | error interrupt =>
      cases interrupt with
      | returned value =>
          exact ⟨created, hlast, fun _ hvalue => by cases hvalue; exact hresults _ (.head _)⟩
      | raised fault => exact herror fault
      | broken location => exact herror (.strayBreak location)
      | continued location => exact herror (.strayContinue location)
      | overflowed overflow =>
          exact ⟨created, ⟨hlast.numbered, hlast.bound⟩, fun _ hvalue => by cases hvalue⟩
      | crashed | exhausted => exact ⟨created, hlast, fun _ hvalue => by cases hvalue⟩

end State.Recorded

/-- Two compound values that a program compares are equal when they are the same one, although the
first was evaluated before the second. -/
theorem Visited.equal_iff {settings : Settings} {location : Location} {left right : Expr}
    {state middle last : State} {count : Nat} {a b : Value}
    (h : Visited settings (.expr (.binary location left .equal right)) state)
    (hleft : Expr.evaluate settings count left state = (.ok a, middle))
    (hright : Expr.evaluate settings count right middle = (.ok b, last))
    (hidentity : a.identity?.isSome) : a.equal b = true ↔ a = b := by
  obtain ⟨creations, hstate, -⟩ := (State.Reachable.starting h).recorded
  obtain ⟨created, hmiddle, ha⟩ :=
    hstate.task_ok (List.forall_mem_nil _) (Task.evaluate_expr hleft)
  obtain ⟨more, -, hb⟩ := hmiddle.task_ok (List.forall_mem_nil _) (Task.evaluate_expr hright)
  have hlists : Creations.Lists (creations ++ created) a := ha a (.head _) a (.head _)
  obtain ⟨identity, hidentity⟩ := Option.isSome_iff_exists.1 hidentity
  exact (hlists.mono (List.prefix_append ..)).equal_iff (hb b (.head _) b (.head _)) hidentity

/-- The compound values of a session can be listed in the order of their creation, at all times. All
values that are bound or at hand are on the list with the contents that they were made with, and
evaluations and programs only add to it. So two compound values are equal when they stand at the
same place of the list, and then they are the same value; passing a value on keeps it the same; and
what an operation makes comes last on the list, and differs from everything that existed before. -/
theorem identities_tell_creations (settings : Settings) :
    (∀ state atHand, State.Reachable settings state atHand →
      ∃ creations, state.Recorded creations ∧
        ∀ part, state.Holds atHand part → creations.Lists part) ∧
    (∀ state creations, state.Recorded creations →
      (∀ task count, (∀ value ∈ Task.values task, creations.Covers value) →
        ∃ created, (task.evaluate settings count state).2.Recorded (creations ++ created) ∧
          ∀ value ∈ Interrupt.values (task.evaluate settings count state).1,
            Creations.Covers (creations ++ created) value) ∧
      ∀ bound program, ∃ created,
        (Session.run bound ⟨settings, state⟩ program).2.state.Recorded (creations ++ created) ∧
          ∀ value, (Session.run bound ⟨settings, state⟩ program).1 = .value value →
            Creations.Covers (creations ++ created) value) ∧
    (∀ (creations : Creations) a b identity, creations.Lists a → creations.Lists b →
      a.identity? = some identity →
        (a.equal b = true ↔ b.identity? = some identity) ∧ (a.equal b = true → a = b)) ∧
    (∀ location left right state middle last count a b,
      Visited settings (.expr (.binary location left .equal right)) state →
      Expr.evaluate settings count left state = (.ok a, middle) →
      Expr.evaluate settings count right middle = (.ok b, last) →
      a.identity?.isSome → (a.equal b = true ↔ a = b)) ∧
    (∀ given evaluation, Creates settings given evaluation →
      ∀ state creations value last, state.Recorded creations →
        (∀ value ∈ given, creations.Covers value) → evaluation state = (.ok value, last) →
        ∃ created, last.Recorded (creations ++ created ++ [value]) ∧
          ∀ other, Creations.Lists (creations ++ created) other →
            value.equal other = false ∧ other.equal value = false) ∧
    (∀ value : Value, value.identity?.isSome → value.equal value = true) ∧
    CopiesKept settings := by
  refine ⟨fun _ _ h => h.recorded, fun state creations h => ⟨?_, ?_⟩, ?_, ?_, ?_,
    fun _ => Value.equal_self, copies_kept settings⟩
  · exact fun task count hvalues => h.task settings count hvalues
  · exact fun bound program => h.run bound program
  · intro creations a b identity ha hb hidentity
    have hequal := ha.equal_iff hb hidentity
    refine ⟨⟨fun h => ?_, fun h => hequal.2 (ha.eq_of_identity hb hidentity h)⟩, hequal.1⟩
    rw [← hequal.1 h]
    exact hidentity
  · exact fun _ _ _ _ _ _ _ _ _ h => h.equal_iff
  · intro given evaluation hcreates state creations value last h hgiven heval
    obtain ⟨created, hlast⟩ := h.creates hcreates hgiven heval
    exact ⟨created, hlast, fun other hother => hlast.fresh hother⟩

end Script
