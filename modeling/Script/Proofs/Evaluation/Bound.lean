import Script.Proofs.Evaluation.Comparison.Sound

/-!
# Enough nested evaluations

The bound on nested evaluations and iterations only decides whether an evaluation ends within it.
Once it does, a larger bound changes nothing: `Task.evaluate_enough`, and `Session.run_enough` for
whole programs. Both compare two runs of the same code.
-/

namespace Script

/-! ## Runs of the same code -/

/-- Code that stands for itself only. -/
def Likeness.equality : Likeness := ⟨Eq, Eq, Eq, Eq⟩

namespace Likeness

theorem equality_block (block : Block) : equality.block block block :=
  List.forall₂_same.2 fun _ _ => rfl

theorem equality_choice (choice : Option Block) : Option.Rel equality.block choice choice := by
  cases choice with
  | none => exact .none
  | some block => exact .some (equality_block block)

theorem equality_lawful : equality.Lawful where
  expr {expr _} h := by
    subst h
    have hexprs (exprs : List Expr) : List.Forall₂ equality.expr exprs exprs :=
      List.forall₂_same.2 fun _ _ => rfl
    cases expr with
    | identifier => exact .identifier ⟨rfl, rfl⟩
    | integer => exact .integer
    | float => exact .float
    | boolean => exact .boolean
    | string => exact .string
    | array => exact .array (hexprs _)
    | hash => exact .hash (List.forall₂_same.2 fun _ _ => ⟨rfl, rfl⟩)
    | function => exact .function rfl
    | unary => exact .unary rfl
    | binary => exact .binary rfl rfl
    | assign => exact .assign ⟨rfl, rfl⟩ rfl
    | index => exact .index rfl rfl
    | call => exact .call rfl rfl (hexprs _)
    | conditional => exact .conditional rfl (equality_block _) (equality_choice _)
  statement {statement _} h := by
    subst h
    cases statement with
    | letBinding => exact .letBinding rfl rfl
    | returnValue => exact .returnValue rfl
    | expression => exact .expression rfl
    | forLoop => exact .forLoop rfl rfl (equality_block _)
    | whileLoop => exact .whileLoop rfl (equality_block _)
    | breakLoop => exact .breakLoop rfl
    | continueLoop => exact .continueLoop rfl
    | tryCatch => exact .tryCatch (equality_block _) rfl (equality_block _) (equality_choice _)
  literal {literal _} h := by
    subst h
    exact ⟨rfl, rfl, equality_block _⟩

end Likeness

/-- Where code stands for itself only, alike states are equal. -/
theorem State.Alike.eq {state state' : State} (h : state.Alike .equality state') :
    state = state' := by
  obtain ⟨⟨frames⟩, environment, depth, identities, printed⟩ := state
  obtain ⟨⟨frames'⟩, environment', depth', identities', printed'⟩ := state'
  have hbinding {binding binding' : String × Value}
      (h : binding.1 = binding'.1 ∧ binding.2.Alike .equality binding'.2) : binding = binding' :=
    Prod.ext h.1 (Value.Alike.eq id _ h.2)
  have hframes : frames = frames' := by
    refine Array.ext h.store.size fun id hid hid' => ?_
    have hframe : List.Forall₂ Eq (Store.frame ⟨frames⟩ id) (Store.frame ⟨frames'⟩ id) :=
      List.Forall₂.imp (fun _ _ => hbinding) (h.store.frame id)
    rw [List.forall₂_eq_eq_eq] at hframe
    simpa only [Store.frame, Array.getElem?_eq_getElem hid, Array.getElem?_eq_getElem hid',
      Option.getD_some] using hframe
  obtain rfl : environment = environment' := h.environment
  obtain rfl : depth = depth' := h.depth
  obtain rfl : identities = identities' := h.identities
  obtain rfl : printed = printed' := h.printed
  rw [hframes]

namespace Comparison

variable {α : Type} {left right : Settings} {admits : Task → State → Prop}
  {cut : Interrupt → Prop} {overflow : StackOverflow → StackOverflow → Prop} {crash : Prop}

/-- Two runs of the same code. -/
def sameCode (left right : Settings) (admits : Task → State → Prop) (cut : Interrupt → Prop)
    (overflow : StackOverflow → StackOverflow → Prop) (crash : Prop) : Comparison where
  likeness := .equality
  left := left
  right := right
  admits := admits
  cut := cut
  overflow := overflow
  crash := crash

theorem sameCode_tasks (task : Task) :
    (sameCode left right admits cut overflow crash).Tasks task task := by
  have hexprs (exprs : List Expr) : List.Forall₂ Likeness.equality.expr exprs exprs :=
    List.forall₂_same.2 fun _ _ => rfl
  have hvalue (value : Value) : value.Alike .equality value := .refl (fun _ => rfl) value
  have hvalues (values : List Value) : List.Forall₂ (Value.Alike .equality) values values :=
    Value.Alike.reflAll (fun _ => rfl) values
  cases task with
  | expr => exact .expr rfl
  | exprs => exact .exprs (hexprs _)
  | pairs =>
      exact .pairs (Entry.Alike.reflAll (fun _ => rfl) _)
        (List.forall₂_same.2 fun _ _ => ⟨rfl, rfl⟩)
  | statement => exact .statement rfl
  | statements => exact .statements (hvalue _) (List.forall₂_same.2 fun _ _ => rfl)
  | forEach => exact .forEach (Likeness.equality_block _) (hvalues _)
  | whileTrue => exact .whileTrue rfl (Likeness.equality_block _)
  | call => exact .call rfl (hvalue _) (hvalues _)

/-- Runs of the same code come to the same, unless the first one is cut off. -/
theorem Agree.eq_or_cut {valid : α → α → Prop} {first second : Except Interrupt α × State}
    (h : (sameCode left right admits cut overflow crash).Agree valid first second)
    (hvalid : ∀ {result result'}, valid result result' → result = result')
    (hoverflow : ∀ {aborted aborted'}, overflow aborted aborted' → aborted = aborted') :
    first = second ∨
      ∃ cause, first.1 = .error cause ∧ cut cause ∧ first.2.Continues second.2 := by
  cases h with
  | ok hresult hstate => exact .inl (by rw [hvalid hresult, hstate.eq])
  | error hcause hstate =>
      rw [hstate.eq]
      cases hcause with
      | returned hvalue => exact .inl (by rw [Value.Alike.eq id _ hvalue])
      | broken hplace => exact .inl (by rw [show _ = _ from hplace])
      | continued hplace => exact .inl (by rw [show _ = _ from hplace])
      | raised hfault => exact .inl (by rw [hfault.eq fun _ _ _ => id])
      | overflowed haborted => exact .inl (by rw [hoverflow haborted])
      | crashed | exhausted => exact .inl rfl
  | cut hcut hprinted => exact .inr ⟨_, rfl, hcut, hprinted⟩

end Comparison

/-! ## Larger bounds -/

/-- Two runs that differ in their bounds. -/
def Comparison.bounded (settings : Settings) : Comparison :=
  .sameCode settings settings (fun _ _ => True) (· = .exhausted) Eq True

variable [Host]

theorem Comparison.bounded_lawful (settings : Settings) : (bounded settings).Lawful where
  likeness := Likeness.equality_lawful
  sink := rfl
  room := Nat.le_refl _
  uncaught := .inl
  starts _ _ := trivial
  located _ _ _ := id
  limit _ _ _ hplace := .inr ⟨rfl, by rw [show _ = _ from hplace]; rfl⟩
  capacity _ _ := trivial

/-- An evaluation that ends within a bound ends in the same way within any larger one. -/
theorem Task.evaluate_enough {settings : Settings} {count count' : Nat} {task : Task}
    {state : State} (hle : count ≤ count')
    (h : (task.evaluate settings count state).1 ≠ .error .exhausted) :
    task.evaluate settings count' state = task.evaluate settings count state := by
  have hagree := (Comparison.bounded_lawful settings).task (.inr ⟨hle, rfl⟩)
    (Comparison.sameCode_tasks task) trivial (.refl (fun _ => rfl) state)
  rcases hagree.eq_or_cut (Value.Alike.eqAll id _) id with heq | ⟨cause, hcause, rfl, -⟩
  · exact heq.symm
  · exact absurd hcause h

/-- A loop that ends within its bounds ends in the same way when it may nest more evaluations and
go through more iterations. -/
theorem Evaluators.whileTrue_enough {settings : Settings}
    {count count' iterations iterations' : Nat} {condition : Expr} {body : Block} {state : State}
    (hle : count ≤ count') (hiterations : iterations ≤ iterations')
    (h : ((upTo settings count).whileTrue condition body iterations state).1 ≠ .error .exhausted) :
    (upTo settings count').whileTrue condition body iterations' state =
      (upTo settings count).whileTrue condition body iterations state := by
  have hlawful := Comparison.bounded_lawful settings
  have hcondition : Likeness.equality.expr condition condition := rfl
  have hagree := hlawful.whileTrue (hlawful.sound (.inr ⟨hle, rfl⟩)) hcondition
    (Likeness.equality_block body) (.inr ⟨hiterations, rfl⟩) trivial (.refl (fun _ => rfl) state)
  rcases hagree.eq_or_cut (Value.Alike.eq id _) id with heq | ⟨cause, hcause, rfl, -⟩
  · exact heq.symm
  · exact absurd hcause h

/-- Statements that end within a bound end in the same way within any larger one. -/
theorem Statement.executeAll_enough {settings : Settings} {count count' : Nat}
    {statements : List Statement} {state : State} (hle : count ≤ count')
    (h : (Statement.executeAll settings count statements state).1 ≠ .error .exhausted) :
    Statement.executeAll settings count' statements state =
      Statement.executeAll settings count statements state := by
  have htask := Statement.executeAll_task settings count statements state
  have htask' := Statement.executeAll_task settings count' statements state
  generalize Statement.executeAll settings count statements state = first at h htask ⊢
  generalize Statement.executeAll settings count' statements state = second at htask' ⊢
  rw [Task.evaluate_enough hle, htask] at htask'
  · obtain ⟨_ | _, _⟩ := first <;> obtain ⟨_ | _, _⟩ := second <;> simp_all [Except.map]
  · rw [htask]
    obtain ⟨_ | _, _⟩ := first <;> simp_all [Except.map]

/-! ## Programs -/

/-- The result of a program and the state after it depend on its statements only. -/
theorem Session.run_congr {bound bound' : Nat} {settings settings' : Settings}
    {state state' : State} {program program' : Program}
    (h : Statement.executeAll settings bound program.statements state =
      Statement.executeAll settings' bound' program'.statements state') :
    Session.run bound' ⟨settings', state'⟩ program' =
      ((Session.run bound ⟨settings, state⟩ program).1,
        ⟨settings', (Session.run bound ⟨settings, state⟩ program).2.state⟩) := by
  simp only [Session.run, h]
  generalize Statement.executeAll settings' bound' program'.statements state' = result
  obtain ⟨outcome, last⟩ := result
  cases outcome with
  | ok value => rfl
  | error cause => cases cause <;> rfl

/-- A program is aborted when its statements are. -/
theorem Session.run_aborted_iff {bound : Nat} {settings : Settings} {state : State}
    {program : Program} {overflow : StackOverflow} :
    (Session.run bound ⟨settings, state⟩ program).1 = .aborted overflow ↔
      (Statement.executeAll settings bound program.statements state).1 =
        .error (.overflowed overflow) := by
  unfold Session.run
  generalize Statement.executeAll settings bound program.statements state = result
  obtain ⟨outcome, last⟩ := result
  cases outcome with
  | ok value => exact ⟨nofun, nofun⟩
  | error cause =>
      cases cause with
      | overflowed other => simp
      | _ => exact ⟨nofun, nofun⟩

/-- A program runs out of a bound when its statements do. -/
theorem Session.run_exhausted_iff {bound : Nat} {settings : Settings} {state : State}
    {program : Program} :
    (Session.run bound ⟨settings, state⟩ program).1 = .exhausted ↔
      (Statement.executeAll settings bound program.statements state).1 = .error .exhausted := by
  unfold Session.run
  generalize Statement.executeAll settings bound program.statements state = result
  obtain ⟨outcome, last⟩ := result
  cases outcome with
  | ok value => exact ⟨nofun, nofun⟩
  | error cause =>
      cases cause with
      | exhausted => simp
      | _ => exact ⟨nofun, nofun⟩

/-- A program that ends within a bound gives the same, and leaves the same session, within any
larger one. -/
theorem Session.run_enough {bound bound' : Nat} {session : Session} {program : Program}
    (hle : bound ≤ bound') (h : (Session.run bound session program).1 ≠ .exhausted) :
    Session.run bound' session program = Session.run bound session program := by
  unfold Session.run
  rw [Statement.executeAll_enough hle (mt Session.run_exhausted_iff.2 h)]

end Script
