import Script.Proofs.Evaluation.Bound
import Script.Proofs.Evaluation.Restoration

/-!
# The limit on nested calls

The limit only cuts evaluations off. `Session.run_raised_limit` compares two runs of a program that
differ in it: what ends without an abort under the lower limit is the same under the higher one, and
an aborted run has printed the start of what the other one prints.
-/

namespace Script

/-- Two runs of which the second one may nest calls more deeply. -/
def Comparison.limited (lower higher : Nat) (sink : Sink) : Comparison :=
  .sameCode ⟨lower, sink⟩ ⟨higher, sink⟩ (fun _ _ => True)
    (fun cause => ∃ overflow, cause = .overflowed overflow) Eq True

section Limits

variable [Host]

theorem Comparison.limited_lawful {lower higher : Nat} (sink : Sink) (hle : lower ≤ higher) :
    (limited lower higher sink).Lawful where
  likeness := Likeness.equality_lawful
  sink := rfl
  room := hle
  uncaught := .inr
  starts _ _ := trivial
  located _ _ _ := id
  limit _ _ _ _ := .inl ⟨_, rfl⟩
  capacity _ _ := trivial

/-- Statements come to the same under a higher limit, or are aborted under the lower one, and then
have printed the start of what is printed under the higher one. -/
theorem Statement.executeAll_limited {lower higher : Nat} (sink : Sink) (hle : lower ≤ higher)
    (count : Nat) (statements : List Statement) (state : State) :
    Statement.executeAll ⟨lower, sink⟩ count statements state =
        Statement.executeAll ⟨higher, sink⟩ count statements state ∨
      (∃ overflow, (Statement.executeAll ⟨lower, sink⟩ count statements state).1 =
        .error (.overflowed overflow)) ∧
      (Statement.executeAll ⟨lower, sink⟩ count statements state).2.Continues
        (Statement.executeAll ⟨higher, sink⟩ count statements state).2 := by
  have hC := Comparison.limited_lawful sink hle
  have hagree := hC.executeAll (.inl rfl : Comparison.Bounds _ count count)
    (List.forall₂_same.2 fun statement (_ : statement ∈ statements) => rfl) trivial
    (.refl (fun _ => rfl) state)
  refine (hagree.eq_or_cut (Value.Alike.eq id _) id).imp_right ?_
  rintro ⟨_, hcause, ⟨overflow, rfl⟩, hprinted⟩
  exact ⟨⟨overflow, hcause⟩, hprinted⟩

/-- A program leaves what its statements printed. -/
theorem Session.run_printed (settings : Settings) (bound : Nat) (state : State)
    (program : Program) :
    (Session.run bound ⟨settings, state⟩ program).2.state.printed =
      (Statement.executeAll settings bound program.statements state).2.printed := by
  rcases Session.run_state settings bound state program with h | ⟨fault, h⟩ | h
  · rw [h]
  · rw [h]
    rfl
  · rw [h]

/-- A program that gives a value under some limit gives the same value under every higher one, and
leaves the same bindings and the same printed text. If it is aborted, the text printed so far is the
start of what it has printed when it ends under the higher limit, be it aborted or not. -/
theorem Session.run_raised_limit {lower higher : Nat} (hle : lower ≤ higher) (sink : Sink)
    (state : State) (program : Program) :
    (∀ bound value after,
      Session.run bound ⟨⟨lower, sink⟩, state⟩ program = (.value value, ⟨⟨lower, sink⟩, after⟩) →
      Session.run bound ⟨⟨higher, sink⟩, state⟩ program =
        (.value value, ⟨⟨higher, sink⟩, after⟩)) ∧
    (∀ bound overflow after bound' result after',
      Session.run bound ⟨⟨lower, sink⟩, state⟩ program =
        (.aborted overflow, ⟨⟨lower, sink⟩, after⟩) →
      Session.run bound' ⟨⟨higher, sink⟩, state⟩ program = (result, ⟨⟨higher, sink⟩, after'⟩) →
      result ≠ .exhausted → after.Continues after') := by
  constructor
  · intro bound value after hrun
    rcases Statement.executeAll_limited sink hle bound program.statements state with
      heq | ⟨⟨overflow, haborted⟩, -⟩
    · rw [Session.run_congr heq, hrun]
    · have hresult := Session.run_aborted_iff.2 haborted
      rw [hrun] at hresult
      cases hresult
  · intro bound overflow after bound' result after' haborted hended hresult
    -- both runs end within the larger one of the two bounds
    have hlower : Session.run (max bound bound') ⟨⟨lower, sink⟩, state⟩ program = _ :=
      Session.run_enough (Nat.le_max_left ..) (by rw [haborted]; nofun)
    have hhigher : Session.run (max bound bound') ⟨⟨higher, sink⟩, state⟩ program = _ :=
      Session.run_enough (Nat.le_max_right ..) (by rw [hended]; exact hresult)
    rw [haborted] at hlower
    rw [hended] at hhigher
    have hprinted := Session.run_printed ⟨lower, sink⟩ (max bound bound') state program
    have hprinted' := Session.run_printed ⟨higher, sink⟩ (max bound bound') state program
    rw [hlower] at hprinted
    rw [hhigher] at hprinted'
    rcases Statement.executeAll_limited sink hle (max bound bound') program.statements state with
      heq | ⟨-, hcontinues⟩
    · exact .of_eq (hprinted.trans ((congrArg (·.2.printed) heq).trans hprinted'.symm))
    · obtain ⟨text, htext⟩ := hcontinues
      exact ⟨text, by rw [hprinted', htext, ← hprinted]⟩

end Limits

/-- A program that prints a line, and a second one in a call. -/
def printingCall : Program :=
  let place : Location := ⟨1, 1⟩
  let print (line : String) : Statement := .expression (Identifier.mk "print" place).token
    (.call place (.identifier ⟨"print", place⟩) [.string place line])
  let literal : FunctionLiteral := ⟨place, none, [], ⟨⟨.mark .leftBrace, place⟩, [print "inside"]⟩⟩
  ⟨[print "outside", .expression ⟨.word .fnWord, place⟩ (.call place (.function literal) [])]⟩

open scoped Host in
/-- Under a limit of one call the program ends as it does under a limit of two, and under a limit of
none it has printed the first line only. -/
theorem Session.run_raised_limit_printingCall :
    (∃ after, Session.run 9 ⟨⟨1, .accepting⟩, .initial⟩ printingCall =
        (.value .null, ⟨⟨1, .accepting⟩, after⟩) ∧
      Session.run 9 ⟨⟨2, .accepting⟩, .initial⟩ printingCall =
        (.value .null, ⟨⟨2, .accepting⟩, after⟩)) ∧
    ∃ after after', Session.run 9 ⟨⟨0, .accepting⟩, .initial⟩ printingCall =
        (.aborted ⟨⟨1, 1⟩, 0⟩, ⟨⟨0, .accepting⟩, after⟩) ∧ after.printed = "outside\n" ∧
      Session.run 9 ⟨⟨1, .accepting⟩, .initial⟩ printingCall =
        (.value .null, ⟨⟨1, .accepting⟩, after'⟩) ∧ after.Continues after' := by
  have hone : Session.run 9 ⟨⟨1, .accepting⟩, .initial⟩ printingCall =
      (.value .null, ⟨⟨1, .accepting⟩, _⟩) := rfl
  have hnone : Session.run 9 ⟨⟨0, .accepting⟩, .initial⟩ printingCall =
      (.aborted ⟨⟨1, 1⟩, 0⟩, ⟨⟨0, .accepting⟩, _⟩) := rfl
  refine ⟨⟨_, hone, ?_⟩, _, _, hnone, rfl, hone, ?_⟩
  · exact (Session.run_raised_limit (by decide) .accepting .initial printingCall).1 _ _ _ hone
  · exact (Session.run_raised_limit (by decide) .accepting .initial printingCall).2 _ _ _ _ _ _
      hnone hone nofun

end Script
