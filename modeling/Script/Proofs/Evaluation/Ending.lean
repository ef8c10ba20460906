import Script.Proofs.Evaluation.Failure

/-!
# The parts of what ends

A task that comes to an end has only started parts that came to an end, and unless it was aborted
itself no part of it was: `Reaches.ends`.
-/

namespace Script

variable [Host]

open Filter Evaluation

namespace Task

variable {settings : Settings} {task : Task} {state : State}

/-- A task that exceeds every bound. -/
def Endless (settings : Settings) (task : Task) (state : State) : Prop :=
  ∀ count, ∃ last, task.evaluate settings count state = (.error .exhausted, last)

/-- A task comes to an end or exceeds every bound. -/
theorem ends_or_endless (settings : Settings) (task : Task) (state : State) :
    (∃ outcome last, task.Ends settings state outcome last) ∨ task.Endless settings state := by
  refine or_iff_not_imp_left.2 fun hends count => ?_
  rcases heval : task.evaluate settings count state with ⟨outcome, last⟩
  by_cases houtcome : outcome = .error .exhausted
  · exact ⟨last, by rw [houtcome]⟩
  · exact absurd ⟨outcome, last, houtcome, count, heval⟩ hends

theorem Endless.not_ends (h : task.Endless settings state) {outcome : Except Interrupt (List Value)}
    {last : State} : ¬ task.Ends settings state outcome last := by
  rintro ⟨hends, count, heval⟩
  obtain ⟨middle, hcut⟩ := h count
  rw [heval] at hcut
  exact hends (congrArg Prod.fst hcut)

/-- It is enough to look at bounds that are large enough. -/
theorem Endless.of_eventually (h : ∀ᶠ count in atTop, ∃ bound, count ≤ bound ∧
    (task.evaluate settings bound state).1 = .error .exhausted) : task.Endless settings state := by
  refine (ends_or_endless settings task state).resolve_left ?_
  rintro ⟨outcome, last, houtcome, count, heval⟩
  obtain ⟨more, ⟨bound, hbound, hcut⟩, hmore⟩ := (h.and (eventually_ge_atTop count)).exists
  have hsame := Task.evaluate_enough (hmore.trans hbound) (by rwa [heval])
  rw [hsame, heval] at hcut
  exact houtcome hcut

/-- A task that hands its bound to an endless part is endless. -/
theorem Endless.starting {part : Task} {state' : State} (hpart : part.Endless settings state')
    (h : ∀ᶠ count in atTop, ∀ last,
      part.evaluate settings count state' = (.error .exhausted, last) →
      (task.evaluate settings count state).1 = .error .exhausted) :
    task.Endless settings state := by
  refine .of_eventually (h.mono fun count hcut => ⟨count, Nat.le_refl count, ?_⟩)
  obtain ⟨last, hlast⟩ := hpart count
  exact hcut last hlast

/-- So is a task that hands on a bound that is smaller by one. -/
theorem Endless.starting_succ {part : Task} {state' : State} (hpart : part.Endless settings state')
    (h : ∀ᶠ count in atTop, ∀ last,
      part.evaluate settings count state' = (.error .exhausted, last) →
      (task.evaluate settings (count + 1) state).1 = .error .exhausted) :
    task.Endless settings state := by
  refine .of_eventually (h.mono fun count hcut => ⟨count + 1, Nat.le_succ count, ?_⟩)
  obtain ⟨last, hlast⟩ := hpart count
  exact hcut last hlast

/-- A task ends in one way only. -/
theorem Ends.unique {outcome outcome' : Except Interrupt (List Value)} {last last' : State}
    (h : task.Ends settings state outcome last) (h' : task.Ends settings state outcome' last') :
    outcome = outcome' ∧ last = last' := by
  obtain ⟨count, hcount, hcount'⟩ := (h.eventually.and h'.eventually).exists
  exact Prod.mk.inj (hcount.symm.trans hcount')

end Task

/-- An exceeded bound is not handled, and no finalizer runs after it. -/
theorem Task.attempt_cut {settings : Settings} {location : Location} {body handler : Block}
    {error : Identifier} {count : Nat} {state last : State}
    (h : handling ((Evaluators.upTo settings count).block body)
      ((Evaluators.upTo settings count).handle error handler) state = (.error .exhausted, last))
    (finalizer : Option Block) :
    ((attempt location body error handler finalizer).evaluate settings (count + 1) state).1 =
      .error .exhausted := by
  cases finalizer with
  | none => simp only [evaluate, Statement.execute, Evaluators.execute, bind_apply, h]
  | some finalizer =>
      have hstatement : Statement.execute settings (count + 1)
          (.tryCatch location body error handler (some finalizer)) state =
            (.error .exhausted, last) := ensuring_aborted h rfl
      simp only [evaluate, bind_apply, hstatement]

namespace Starts

variable {settings : Settings} {task part : Task} {state state' : State}

/-- From the operands of an expression. -/
theorem expr_endless {expr : Expr} (h : Starts settings (.expr expr) state part state')
    (hpart : part.Endless settings state') : (Task.expr expr).Endless settings state := by
  refine hpart.starting_succ ?_
  cases h with
  | array | hash | operand | left | assigned | collection | callee | condition =>
      refine .of_forall fun count last hcut => ?_
      simp only [Task.evaluate, mapped_error_iff] at hcut
      simp [Task.evaluate, Expr.evaluate, Evaluators.evaluate, bind_apply, hcut]
  | right heval | place heval | arguments heval =>
      filter_upwards [(Expr.steady _ _).ok heval] with count heval last hcut
      simp only [Task.evaluate, mapped_error_iff] at hcut
      simp [Task.evaluate, Expr.evaluate, Evaluators.evaluate, bind_apply, heval, hcut]
  | apply hcallee harguments =>
      filter_upwards [(Expr.steady _ _).ok hcallee, (Task.steady _ (.exprs _)).ok harguments]
        with count hcallee harguments last hcut
      simp only [Task.evaluate, mapped_error_iff] at hcut harguments
      simp [Task.evaluate, Expr.evaluate, Evaluators.evaluate, bind_apply, hcallee, harguments,
        hcut]
  | consequence heval htruthy | alternative heval htruthy =>
      filter_upwards [(Expr.steady _ _).ok heval] with count heval last hcut
      simp only [Task.evaluate, mapped_error_iff] at hcut
      simp [Task.evaluate, Expr.evaluate, Evaluators.evaluate, Evaluators.block, bind_apply,
        heval, htruthy, hcut]

/-- From the elements of a list of expressions, of pairs or of statements. -/
theorem exprs_endless {list : List Expr} (h : Starts settings (.exprs list) state part state')
    (hpart : part.Endless settings state') : (Task.exprs list).Endless settings state := by
  refine hpart.starting ?_
  cases h with
  | firstExpr =>
      refine .of_forall fun count last hcut => ?_
      simp only [Task.evaluate, mapped_error_iff] at hcut
      simp only [Task.evaluate, Evaluators.exprs, bind_apply, hcut]
  | restExprs heval =>
      filter_upwards [(Expr.steady _ _).ok heval] with count heval last hcut
      simp only [Task.evaluate] at hcut
      simp only [Task.evaluate, Evaluators.exprs, bind_apply, heval, hcut]

theorem pairs_endless {entries : List Entry} {list : List Pair}
    (h : Starts settings (.pairs entries list) state part state')
    (hpart : part.Endless settings state') : (Task.pairs entries list).Endless settings state := by
  refine hpart.starting ?_
  cases h with
  | key =>
      refine .of_forall fun count last hcut => ?_
      simp only [Task.evaluate, mapped_error_iff] at hcut
      simp only [Task.evaluate, Evaluators.pairs, bind_apply, hcut]
  | filed heval hkey =>
      obtain ⟨hashKey, hkey⟩ := Option.isSome_iff_exists.1 hkey
      filter_upwards [(Expr.steady _ _).ok heval] with count heval last hcut
      simp only [Task.evaluate, mapped_error_iff] at hcut
      simp only [Task.evaluate, Evaluators.pairs, bind_apply, heval, hkey, hcut]
  | restPairs hkey hhash hvalue =>
      filter_upwards [(Expr.steady _ _).ok hkey, (Expr.steady _ _).ok hvalue]
        with count hkey hvalue last hcut
      simp only [Task.evaluate, mapped_error_iff] at hcut
      simp only [Task.evaluate, Evaluators.pairs, bind_apply, hkey, hhash, hvalue, hcut]

theorem statements_endless {before : Value} {list : List Statement}
    (h : Starts settings (.statements before list) state part state')
    (hpart : part.Endless settings state') :
    (Task.statements before list).Endless settings state := by
  refine hpart.starting ?_
  cases h with
  | firstStatement =>
      refine .of_forall fun count last hcut => ?_
      simp only [Task.evaluate, mapped_error_iff] at hcut
      simp only [Task.evaluate, Evaluators.statements, bind_apply, hcut]
  | restStatements heval =>
      filter_upwards [(Statement.steady _ _).ok heval] with count heval last hcut
      simp only [Task.evaluate, mapped_error_iff] at hcut
      simp only [Task.evaluate, Evaluators.statements, bind_apply, heval, hcut]

omit [Host] in
/-- An iteration that exceeds the bound. -/
theorem settleIteration_cut {body : Evaluation Value} {last : State}
    (h : body state = (.error .exhausted, last)) :
    settleIteration body state = (.error .exhausted, last) := by
  rw [settleIteration, h]

theorem forEach_endless {name : String} {body : Block} {elements : List Value}
    (h : Starts settings (.forEach name body elements) state part state')
    (hpart : part.Endless settings state') :
    (Task.forEach name body elements).Endless settings state := by
  refine hpart.starting ?_
  cases h with
  | iteration hdefine =>
      refine .of_forall fun count last hcut => ?_
      simp only [Task.evaluate, mapped_error_iff] at hcut
      simp only [Task.evaluate, Evaluators.forEach, bind_apply, hdefine, Evaluators.block,
        settleIteration_cut hcut]
  | nextIteration hdefine hbody =>
      filter_upwards [(Block.steady _ _).settleIteration.ok hbody] with count hbody last hcut
      simp only [Task.evaluate, mapped_error_iff] at hcut
      simp only [Task.evaluate, Evaluators.forEach, bind_apply, hdefine, hbody, if_true, hcut]

theorem whileTrue_endless {condition : Expr} {body : Block}
    (h : Starts settings (.whileTrue condition body) state part state')
    (hpart : part.Endless settings state') :
    (Task.whileTrue condition body).Endless settings state := by
  refine hpart.starting ?_
  have hpositive : ∀ᶠ count in atTop, ∃ fewer, count = fewer + 1 :=
    (eventually_ge_atTop 1).mono fun _ => Nat.exists_eq_add_of_le'
  cases h with
  | test =>
      filter_upwards [hpositive] with count hcount last hcut
      obtain ⟨fewer, rfl⟩ := hcount
      simp only [Task.evaluate, mapped_error_iff] at hcut
      simp only [Task.evaluate, Evaluators.whileTrue, bind_apply, hcut]
  | passed heval htruthy =>
      filter_upwards [hpositive, (Expr.steady _ _).ok heval] with count hcount heval last hcut
      obtain ⟨fewer, rfl⟩ := hcount
      simp only [Task.evaluate, mapped_error_iff] at hcut
      simp only [Task.evaluate, Evaluators.whileTrue, bind_apply, heval, htruthy, if_true,
        Evaluators.block, settleIteration_cut hcut]
  | nextTest heval htruthy hbody =>
      filter_upwards [hpositive, (Expr.steady _ _).ok heval,
        (Block.steady _ _).settleIteration.ok hbody] with count hcount heval hbody last hcut
      obtain ⟨fewer, rfl⟩ := hcount
      simp only [Task.evaluate, mapped_error_iff] at hcut
      -- the rest of the loop has one iteration less
      rcases hlast : (Evaluators.upTo settings (fewer + 1)).whileTrue condition body fewer state'
        with ⟨outcome, final⟩
      obtain rfl : outcome = .error .exhausted := by
        by_contra hends
        have hsame := Evaluators.whileTrue_enough (Nat.le_refl (fewer + 1)) (Nat.le_succ fewer)
          (by rwa [hlast])
        rw [hcut, hlast] at hsame
        exact hends (congrArg Prod.fst hsame.symm)
      simp only [Task.evaluate, Evaluators.whileTrue, bind_apply, heval, htruthy, if_true, hbody,
        hlast]

/-- From the body of a function. -/
theorem call_endless {location : Location} {callee : Value} {arguments : List Value}
    (h : Starts settings (.call location callee arguments) state part state')
    (hpart : part.Endless settings state') :
    (Task.call location callee arguments).Endless settings state := by
  refine hpart.starting ?_
  cases h with
  | body hcount hdepth =>
      refine .of_forall fun count last hcut => ?_
      simp only [Task.evaluate, mapped_error_iff] at hcut
      simp only [Task.evaluate, Evaluators.call, Evaluators.callFunction_apply, if_pos hcount,
        if_neg (Nat.not_le.2 hdepth), settleCall, asCall_apply, Evaluators.block, hcut, bind_apply]

/-- From the parts of a statement. An exceeded bound is not handled, and no finalizer runs after
it. -/
theorem statement_endless {statement : Statement}
    (h : Starts settings (.statement statement) state part state')
    (hpart : part.Endless settings state') :
    (Task.statement statement).Endless settings state := by
  refine hpart.starting_succ ?_
  cases h with
  | bound | returned | expression | iterable =>
      refine .of_forall fun count last hcut => ?_
      simp only [Task.evaluate, mapped_error_iff] at hcut
      simp [Task.evaluate, Statement.execute, Evaluators.execute, bind_apply, hcut]
  | forLoop heval helements =>
      filter_upwards [(Expr.steady _ _).ok heval] with count heval last hcut
      simp only [Task.evaluate, mapped_error_iff] at hcut
      simp only [Task.evaluate, Statement.execute, Evaluators.execute, bind_apply, heval, helements,
        withChildFrame_apply, hcut, restore]
  | whileLoop =>
      refine .of_forall fun count last hcut => ?_
      simp only [Task.evaluate, mapped_error_iff] at hcut
      simp only [Task.evaluate, Statement.execute, Evaluators.execute, bind_apply,
        withChildFrame_apply, hcut, restore]
  | tried =>
      refine .of_forall fun count last hcut => ?_
      simp only [Task.evaluate, mapped_error_iff] at hcut
      exact Task.attempt_cut (by rw [handling, Evaluators.block, hcut]) _
  | @handled _ body error handler _ _ _ _ _ _ caught hbody herror =>
      filter_upwards [Block.steady _ _ hbody fun hcause => by cases hcause]
        with count hbody last hcut
      simp only [Task.evaluate, mapped_error_iff] at hcut
      rw [Evaluators.block] at hbody
      have hhandled : handling ((Evaluators.upTo settings count).block body)
          ((Evaluators.upTo settings count).handle error handler) state =
            (.error .exhausted, { last with environment := caught.environment }) := by
        simp only [handling, hbody, Evaluators.handle, bind_apply, herror, withChildFrame_apply,
          Evaluators.block, hcut, restore]
      exact Task.attempt_cut hhandled _
  | @finalized location body error handler finalizer _ _ outcome _ heval hoverflow hcrashed
      hexhausted =>
      filter_upwards [Evaluators.handling_steady _ _ _ _ heval hexhausted]
        with count heval last hcut
      simp only [Task.evaluate, mapped_error_iff] at hcut
      have haborts : aborts outcome = false :=
        not_aborts_iff.2 ⟨hoverflow, hcrashed, hexhausted⟩
      have hstatement : Statement.execute settings (count + 1)
          (.tryCatch location body error handler (some finalizer)) state =
            ((Evaluators.upTo settings count).block finalizer >>= fun _ => ending outcome) state' :=
        ensuring_apply heval haborts
      simp only [Task.evaluate, bind_apply, hstatement, Evaluators.block, hcut]

/-- What starts an endless part is endless. -/
theorem endless (h : Starts settings task state part state')
    (hpart : part.Endless settings state') : task.Endless settings state := by
  cases task with
  | expr => exact h.expr_endless hpart
  | exprs => exact h.exprs_endless hpart
  | pairs => exact h.pairs_endless hpart
  | statement => exact h.statement_endless hpart
  | statements => exact h.statements_endless hpart
  | forEach => exact h.forEach_endless hpart
  | whileTrue => exact h.whileTrue_endless hpart
  | call => exact h.call_endless hpart

end Starts

/-- What is reached in the course of a task that ends without an abort ends without an abort. -/
theorem Reaches.ends {settings : Settings} {task part : Task} {state state' last : State}
    {enclosing : List Task} {outcome : Except Interrupt (List Value)}
    (h : Reaches settings task state enclosing part state')
    (htask : task.Ends settings state outcome last) (haborts : aborts outcome = false) :
    ∃ ended final, part.Ends settings state' ended final ∧ aborts ended = false := by
  induction h with
  | here => exact ⟨outcome, last, htask, haborts⟩
  | starts _ hstarts ih =>
      obtain ⟨ended, final, hends, hgoes⟩ := ih
      rcases Task.ends_or_endless settings _ _ with ⟨outcome', last', hpart⟩ | hpart
      · refine ⟨outcome', last', hpart, Bool.eq_false_iff.2 fun habort => ?_⟩
        obtain ⟨cause, rfl, hcause⟩ | rfl := aborts_iff_isFatal.1 habort
        · have hfailure := Interrupt.isFailure_of_isFatal hcause
          obtain ⟨hfails, -⟩ := hstarts.passesOn hfailure (.inr hcause) _ hpart
          obtain ⟨rfl, -⟩ := hends.unique hfails
          rw [aborts_iff_isFatal.2 (.inl ⟨cause, rfl, hcause⟩)] at hgoes
          cases hgoes
        · exact hpart.1 rfl
      · exact absurd hends (hstarts.endless hpart).not_ends

end Script
