import Script.Proofs.Evaluation.Bound
import Script.Proofs.Program.RoundTrip

/-!
# Evaluating the text of a program

The text of a program reads back as the same program at other places, and evaluation looks at places
only to put them into faults. So the text means what the program means, as long as no fault is
raised that names a place: `Session.run_text`. The functions in the two states that are left behind
differ in their places, and the states are alike otherwise.
-/

namespace Script

/-! ## Code at other places -/

/-- Code that differs in its places. -/
def Likeness.unplaced : Likeness where
  place _ _ := True
  expr first second := first.unplaced = second.unplaced
  statement first second := first.unplaced = second.unplaced
  literal first second := first.unplaced = second.unplaced

namespace Likeness

/-- Items that are mapped to the same ones, one by one. -/
theorem forall₂_of_map_eq {α β : Type} {f : α → β} {first second : List α}
    (h : first.map f = second.map f) : List.Forall₂ (fun a b => f a = f b) first second := by
  rw [← List.forall₂_map_left_iff (R := fun a b => a = f b), ← List.forall₂_map_right_iff,
    List.forall₂_eq_eq_eq]
  exact h

theorem unplaced_name {first second : Identifier} (h : first.unplaced = second.unplaced) :
    unplaced.name first second :=
  ⟨(Identifier.mk.inj h).1, trivial⟩

theorem unplaced_exprs {first second : List Expr}
    (h : Expr.unplacedAll first = Expr.unplacedAll second) :
    List.Forall₂ unplaced.expr first second := by
  rw [Expr.unplacedAll_eq, Expr.unplacedAll_eq] at h
  exact forall₂_of_map_eq h

theorem unplaced_statements {first second : List Statement}
    (h : Statement.unplacedAll first = Statement.unplacedAll second) :
    List.Forall₂ unplaced.statement first second := by
  rw [Statement.unplacedAll_eq, Statement.unplacedAll_eq] at h
  exact forall₂_of_map_eq h

theorem unplaced_pairs {first second : List Pair}
    (h : Pair.unplacedAll first = Pair.unplacedAll second) :
    List.Forall₂ unplaced.pair first second := by
  induction first generalizing second with
  | nil =>
      cases second with
      | nil => exact .nil
      | cons => cases h
  | cons pair rest ih =>
      cases second with
      | nil => cases h
      | cons pair' rest' =>
          obtain ⟨key, value⟩ := pair
          obtain ⟨key', value'⟩ := pair'
          obtain ⟨hpair, hrest⟩ := List.cons.inj h
          exact .cons (Pair.mk.inj hpair) (ih hrest)

theorem unplaced_block {first second : Block} (h : first.unplaced = second.unplaced) :
    unplaced.block first second := by
  cases first
  cases second
  exact unplaced_statements (congrArg Block.statements h)

theorem unplaced_choice {first second : Option Block}
    (h : Block.unplacedOption first = Block.unplacedOption second) :
    Option.Rel unplaced.block first second := by
  cases first with
  | none =>
      cases second with
      | none => exact .none
      | some => cases h
  | some block =>
      cases second with
      | none => cases h
      | some block' => exact .some (unplaced_block (Option.some.inj h))

/-- Code that differs in its places has the same form. -/
theorem unplaced_lawful : unplaced.Lawful where
  expr {first second} h := by
    -- each constructor is kept, and any other one is excluded
    cases first with
    | identifier name =>
        cases second with
        | identifier name' => exact .identifier (unplaced_name (Expr.identifier.inj h))
        | _ => cases h
    | integer =>
        cases second with
        | integer =>
            obtain ⟨-, -, rfl⟩ := Expr.integer.inj h
            exact .integer
        | _ => cases h
    | float =>
        cases second with
        | float =>
            obtain ⟨-, -, rfl⟩ := Expr.float.inj h
            exact .float
        | _ => cases h
    | boolean =>
        cases second with
        | boolean =>
            obtain ⟨-, rfl⟩ := Expr.boolean.inj h
            exact .boolean
        | _ => cases h
    | string =>
        cases second with
        | string =>
            obtain ⟨-, rfl⟩ := Expr.string.inj h
            exact .string
        | _ => cases h
    | array =>
        cases second with
        | array => exact .array (unplaced_exprs (Expr.array.inj h).2)
        | _ => cases h
    | hash =>
        cases second with
        | hash => exact .hash (unplaced_pairs (Expr.hash.inj h).2)
        | _ => cases h
    | function =>
        cases second with
        | function => exact .function (Expr.function.inj h)
        | _ => cases h
    | unary =>
        cases second with
        | unary =>
            obtain ⟨-, rfl, hoperand⟩ := Expr.unary.inj h
            exact .unary hoperand
        | _ => cases h
    | binary =>
        cases second with
        | binary =>
            obtain ⟨-, hleft, rfl, hright⟩ := Expr.binary.inj h
            exact .binary hleft hright
        | _ => cases h
    | assign =>
        cases second with
        | assign =>
            obtain ⟨-, htarget, hvalue⟩ := Expr.assign.inj h
            exact .assign (unplaced_name htarget) hvalue
        | _ => cases h
    | index =>
        cases second with
        | index =>
            obtain ⟨-, hcollection, hindex⟩ := Expr.index.inj h
            exact .index hcollection hindex
        | _ => cases h
    | call =>
        cases second with
        | call =>
            obtain ⟨-, hcallee, harguments⟩ := Expr.call.inj h
            exact .call trivial hcallee (unplaced_exprs harguments)
        | _ => cases h
    | conditional =>
        cases second with
        | conditional =>
            obtain ⟨-, hcondition, hconsequence, halternative⟩ := Expr.conditional.inj h
            exact .conditional hcondition (unplaced_block hconsequence)
              (unplaced_choice halternative)
        | _ => cases h
  statement {first second} h := by
    cases first with
    | letBinding =>
        cases second with
        | letBinding =>
            obtain ⟨-, htarget, hvalue⟩ := Statement.letBinding.inj h
            exact .letBinding (unplaced_name htarget).1 hvalue
        | _ => cases h
    | returnValue =>
        cases second with
        | returnValue => exact .returnValue (Statement.returnValue.inj h).2
        | _ => cases h
    | expression =>
        cases second with
        | expression => exact .expression (Statement.expression.inj h).2
        | _ => cases h
    | forLoop =>
        cases second with
        | forLoop =>
            obtain ⟨-, helement, hiterable, hbody⟩ := Statement.forLoop.inj h
            exact .forLoop (unplaced_name helement).1 hiterable (unplaced_block hbody)
        | _ => cases h
    | whileLoop =>
        cases second with
        | whileLoop =>
            obtain ⟨-, hcondition, hbody⟩ := Statement.whileLoop.inj h
            exact .whileLoop hcondition (unplaced_block hbody)
        | _ => cases h
    | breakLoop =>
        cases second with
        | breakLoop => exact .breakLoop trivial
        | _ => cases h
    | continueLoop =>
        cases second with
        | continueLoop => exact .continueLoop trivial
        | _ => cases h
    | tryCatch =>
        cases second with
        | tryCatch =>
            obtain ⟨-, hbody, herror, hhandler, hfinalizer⟩ := Statement.tryCatch.inj h
            exact .tryCatch (unplaced_block hbody) (unplaced_name herror).1
              (unplaced_block hhandler) (unplaced_choice hfinalizer)
        | _ => cases h
  literal {first second} h := by
    cases first
    cases second
    obtain ⟨-, hname, hparameters, hbody⟩ := FunctionLiteral.mk.inj h
    refine ⟨hname, ?_, unplaced_block hbody⟩
    have hnames := congrArg (List.map Identifier.name) hparameters
    rwa [List.map_map, List.map_map] at hnames

end Likeness

/-! ## Programs read back -/

/-- The text of a program that was read without an error is read without an error, as the same
program at other places. -/
theorem Program.ofText_text {source : String} {program : Program}
    (h : Program.ofText source = .ok program) :
    ∃ copy, Program.ofText program.text = .ok copy ∧ program.unplaced = copy.unplaced := by
  have hread : Program.read source = ⟨program, []⟩ := Program.ofText_eq_ok.1 h
  have hreads : Reads (0 < (Program.read source).errors.length) _ (scan source).tokens
      (Program.read source).program.statements [] := Program.ofScanned_reads (scan_proper source)
  rw [hread] at hreads
  obtain ⟨copies, hcopies, hsame⟩ :=
    Program.read_of_readsBack (hreads.readsBack (scan_legible source))
  exact ⟨⟨copies⟩, Program.ofText_eq_ok.2 hcopies, congrArg Program.mk hsame.symm⟩

/-! ## Runs of code at other places -/

section Runs

variable [Host]

/-- In the course of a program a fault is raised: by one of its tasks, whether or not it is handled,
or by a `break` or `continue` that ends the program. -/
inductive Program.Raises (settings : Settings) (state : State) (program : Program) :
    Fault → Prop where
  | within {enclosing part state' count fault last} :
    Reaches settings (.statements .null program.statements) state enclosing part state' →
    part.evaluate settings count state' = (.error (.raised fault), last) →
    Raises settings state program fault
  | strayBreak {count place last} :
    Statement.executeAll settings count program.statements state = (.error (.broken place), last) →
    Raises settings state program (.strayBreak place)
  | strayContinue {count place last} :
    Statement.executeAll settings count program.statements state =
      (.error (.continued place), last) →
    Raises settings state program (.strayContinue place)

/-- Two runs of a program at different places, the first of which raises no fault that names one. -/
def Comparison.unplaced (settings : Settings) (program : Program) (state : State) :
    Comparison where
  likeness := .unplaced
  left := settings
  right := settings
  admits part state' := ∃ enclosing,
    Reaches settings (.statements .null program.statements) state enclosing part state'
  cut _ := False
  overflow _ _ := True
  crash := True

theorem Comparison.unplaced_lawful {settings : Settings} {program : Program} {state : State}
    (hraises : ∀ fault, program.Raises settings state fault → ¬ fault.isLocated) :
    (unplaced settings program state).Lawful where
  likeness := Likeness.unplaced_lawful
  sink := rfl
  room := Nat.le_refl _
  uncaught := False.elim
  starts := by
    rintro _ _ _ _ ⟨enclosing, hreaches⟩ hstarts
    exact ⟨_, hreaches.starts hstarts⟩
  located := by
    rintro task _ _ count fault _ _ ⟨enclosing, hreaches⟩ heval hlocated -
    exact absurd hlocated (hraises fault (.within hreaches heval))
  limit _ _ _ _ := .inr ⟨rfl, trivial⟩
  capacity _ _ := trivial

/-! ## Programs and their texts -/

namespace Session

variable {settings : Settings} {state : State} {program copy : Program}

/-- A program and its copy at other places give alike values, and leave alike states. -/
theorem run_unplaced (hraises : ∀ fault, program.Raises settings state fault → ¬ fault.isLocated)
    (hsame : program.unplaced = copy.unplaced) {bound : Nat} {value : Value} {after : State}
    (hrun : run bound ⟨settings, state⟩ program = (.value value, ⟨settings, after⟩)) :
    ∃ value' after', run bound ⟨settings, state⟩ copy = (.value value', ⟨settings, after'⟩) ∧
      value.Alike .unplaced value' ∧ after.Alike .unplaced after' := by
  have hC := Comparison.unplaced_lawful hraises
  have hagree := hC.executeAll (.inl rfl : Comparison.Bounds _ bound bound)
    (Likeness.unplaced_statements (Program.mk.inj hsame)) ⟨[], .here⟩ (.refl (fun _ => rfl) state)
  have hraised {fault : Fault} {last : State}
      (heval : Statement.executeAll settings bound program.statements state =
        (.error (.raised fault), last)) : ¬ fault.isLocated := by
    have htask : (Task.statements .null program.statements).evaluate settings bound state =
        (.error (.raised fault), last) := by
      rw [Statement.executeAll_task, heval]
      rfl
    exact hraises fault (.within .here htask)
  unfold run at hrun ⊢
  dsimp only [Comparison.unplaced] at hrun hagree ⊢
  generalize hfirst : Statement.executeAll settings bound program.statements state = first
    at hrun hagree
  generalize Statement.executeAll settings bound copy.statements state = second at hagree ⊢
  cases hagree with
  | ok hvalue hlast =>
      cases hrun
      exact ⟨_, _, rfl, hvalue, hlast⟩
  | error hcause hlast =>
      cases hcause with
      | returned hvalue =>
          cases hrun
          exact ⟨_, _, rfl, hvalue, hlast⟩
      | raised hfault =>
          have hplain := hfault.eq fun hlocated => absurd hlocated (hraised hfirst)
          subst hplain
          cases hrun
          cases Comparison.Agree.newError _ hlast with
          | ok hvalue hstate => exact ⟨_, _, rfl, hvalue, hstate⟩
      | broken => exact absurd rfl (hraises _ (.strayBreak hfirst))
      | continued => exact absurd rfl (hraises _ (.strayContinue hfirst))
      | overflowed | crashed | exhausted => cases hrun
  | cut hcut _ => exact hcut.elim

/-- The text of a program means what the program means: it reads back as a program that prints the
same, gives a value of the same kind and the same text, and leaves the same names bound to alike
values. This holds in all states, and under all limits on nested calls, of programs that end without
an abort and raise no fault that names a place. -/
theorem run_text {source : String} (hsource : Program.ofText source = .ok program) {bound : Nat}
    {value : Value} {after : State}
    (hrun : run bound ⟨settings, state⟩ program = (.value value, ⟨settings, after⟩))
    (hraises : ∀ fault, program.Raises settings state fault → ¬ fault.isLocated) :
    ∃ copy value' after', Program.ofText program.text = .ok copy ∧
      run bound ⟨settings, state⟩ copy = (.value value', ⟨settings, after'⟩) ∧
      value'.kind = value.kind ∧ value'.text = value.text ∧ after'.printed = after.printed ∧
      after.Alike .unplaced after' := by
  obtain ⟨copy, hcopy, hsame⟩ := Program.ofText_text hsource
  obtain ⟨value', after', hrun', hvalue, hafter⟩ := run_unplaced hraises hsame hrun
  exact ⟨copy, value', after', hcopy, hrun', hvalue.kind_eq.symm,
    (hvalue.text_eq Likeness.unplaced_lawful).symm, hafter.printed.symm, hafter⟩

end Session

end Runs

namespace Session

/-- A program that binds a function, whose text has the function at another place. -/
def bindingOne : Program :=
  let body : Block :=
    ⟨⟨.mark .leftBrace, ⟨1, 17⟩⟩, [.expression ⟨.integer "1", ⟨1, 19⟩⟩ (.integer ⟨1, 19⟩ "1" 1)]⟩
  ⟨[.letBinding ⟨1, 1⟩ ⟨"one", ⟨1, 6⟩⟩ (.function ⟨⟨1, 12⟩, some "one", [], body⟩)]⟩

/-- The tasks of that program raise nothing, whatever the state. -/
theorem bindingOne_raises_nothing [Host] (settings : Settings) (state : State) (fault : Fault) :
    ¬ bindingOne.Raises settings state fault := by
  intro h
  cases h with
  | @within _ part _ count _ _ hreaches heval =>
      have hpart : part = .statements .null bindingOne.statements ∨
          (∃ statement ∈ bindingOne.statements, part = .statement statement) ∨
          (∃ literal, part = .expr (.function literal)) ∨ ∃ value, part = .statements value [] := by
        clear heval
        induction hreaches with
        | here => exact .inl rfl
        | starts _ hstarts ih =>
            rcases ih with rfl | ⟨statement, hmem, rfl⟩ | ⟨literal, rfl⟩ | ⟨value, rfl⟩
            · cases hstarts with
              | firstStatement => exact .inr (.inl ⟨_, .head _, rfl⟩)
              | restStatements => exact .inr (.inr (.inr ⟨_, rfl⟩))
            · cases List.mem_singleton.1 hmem
              cases hstarts with
              | bound => exact .inr (.inr (.inl ⟨_, rfl⟩))
            · cases hstarts
            · cases hstarts
      rcases hpart with rfl | ⟨statement, hmem, rfl⟩ | ⟨literal, rfl⟩ | ⟨value, rfl⟩
      · rcases count with _ | _ | count <;> cases heval
      · cases List.mem_singleton.1 hmem
        rcases count with _ | _ | count <;> cases heval
      · rcases count with _ | count <;> cases heval
      · cases heval
  | @strayBreak count _ _ heval => rcases count with _ | _ | count <;> cases heval
  | @strayContinue count _ _ heval => rcases count with _ | _ | count <;> cases heval

open scoped Host in
theorem run_text_bindingOne :
    Program.ofText "let  one = fn() { 1 }" = .ok bindingOne ∧
    ∃ after, run 2 ⟨.standard, .initial⟩ bindingOne = (.value .null, ⟨.standard, after⟩) ∧
      (∀ fault, bindingOne.Raises .standard .initial fault → ¬ fault.isLocated) ∧
      ∃ copy value' after', Program.ofText bindingOne.text = .ok copy ∧
        run 2 ⟨.standard, .initial⟩ copy = (.value value', ⟨.standard, after'⟩) ∧
        value'.kind = .null ∧ value'.text = Value.null.text ∧ after'.printed = after.printed ∧
        after.Alike .unplaced after' := by
  have hsource : Program.ofText "let  one = fn() { 1 }" = .ok bindingOne := rfl
  have hrun : run 2 ⟨.standard, .initial⟩ bindingOne = (.value .null, ⟨.standard, _⟩) := rfl
  have hraises (fault : Fault) (h : bindingOne.Raises .standard .initial fault) :
      ¬ fault.isLocated := absurd h (bindingOne_raises_nothing _ _ _)
  exact ⟨hsource, _, hrun, hraises, run_text hsource hrun hraises⟩

end Session

end Script
