import Script.Proofs.Evaluation.Lockstep
import Script.Proofs.Evaluation.Restoration

/-!
# Whole runs in lockstep

Runs of the same code stay in a lawful lockstep, whatever their outcome: `Lockstep.Lawful.sound`, by
one induction over the bound on nested evaluations. What one run starts, the other one starts too,
in a state that belongs to it: `Lockstep.Lawful.starts`, and `Lockstep.Lawful.reaches` for all that
is reached.
-/

namespace Script

namespace Discipline

variable {D : Discipline}

/-- What holds of a value holds of its parts. -/
theorem hereditary (D : Discipline) : Value.Hereditary D.value D.entries where
  plain := value_plain
  elements := value_array.1
  filed h := h
  parts h hentry := entries_iff.1 h _ hentry
  erase := entries_erase

/-- What holds of the code and of the values of a task. -/
def task (D : Discipline) (inLoop : Bool) : Task → Prop
  | .expr expr => D.expr inLoop expr
  | .exprs exprs => ∀ expr ∈ exprs, D.expr inLoop expr
  | .pairs entries pairs => D.entries entries ∧ ∀ pair ∈ pairs, D.pair inLoop pair
  | .statement statement => D.statement inLoop statement
  | .statements last statements =>
    D.value last ∧ ∀ statement ∈ statements, D.statement inLoop statement
  | .forEach name body elements => D.name name ∧ D.block true body ∧ D.values elements
  | .whileTrue condition body => D.expr inLoop condition ∧ D.block true body
  | .call _ callee arguments => D.value callee ∧ D.values arguments

theorem task_block {inLoop : Bool} {block : Block} (h : D.block inLoop block) :
    D.task inLoop (.block block) :=
  ⟨value_plain rfl, h⟩

end Discipline

namespace Lockstep

variable {L : Lockstep} {inLoop : Bool} {parts : Evaluators}

variable (L) in
/-- The parts of a construct keep the lockstep, if nothing but what may occur is in them. -/
structure Sound (parts : Evaluators) : Prop where
  expr {inLoop : Bool} {expr : Expr} :
    L.expr inLoop expr → L.Keeps L.value inLoop (parts.expr expr)
  statement {inLoop : Bool} {statement : Statement} :
    L.statement inLoop statement → L.Keeps L.value inLoop (parts.statement statement)

namespace Lawful

/-! ## Operations -/

theorem computed (hL : L.Lawful) {result : Except Fault Value} (h : Value.Computed result) :
    L.Keeps L.value inLoop (Evaluation.ofExcept result) := by
  refine hL.ofExcept (fun value hvalue => ?_) fun fault hfault => ?_
  · subst hvalue
    exact Discipline.value_plain h
  · subst hfault
    exact h

theorem index [Host] (hL : L.Lawful) {collection place : Value} (h : L.value collection) :
    L.Keeps L.value inLoop (Evaluation.ofExcept (collection.index place)) :=
  hL.ofExcept (fun _ => L.hereditary.index h) fun _ => Value.index_fault

theorem builtin [Host] (hL : L.Lawful) (sink : Sink) (function : Builtin) {arguments : List Value}
    (h : L.values arguments) : L.Keeps L.value inLoop (function.call sink arguments) := by
  have hacts := function.call_acts sink arguments
  generalize function.call sink arguments = evaluation at hacts ⊢
  cases hacts with
  | raise hfault => exact hL.raise hfault
  | plain hplain => exact .pure (Discipline.value_plain hplain)
  | newArray helements => exact newArray (helements _ _ L.hereditary h)
  | newHash hfiled => exact newHash (hfiled _ _ L.hereditary h)
  | crash => exact .still (fun _ => rfl) trivial
  | print line =>
      exact (hL.printLine sink line).bind fun _ _ => .pure (Discipline.value_plain rfl)

/-! ## Constructs -/

theorem statements (hparts : L.Sound parts) {last : Value} {statements : List Statement}
    (hlast : L.value last) (h : ∀ statement ∈ statements, L.statement inLoop statement) :
    L.Keeps L.value inLoop (parts.statements last statements) := by
  induction statements generalizing last with
  | nil => exact .pure hlast
  | cons statement rest ih =>
      obtain ⟨hstatement, hrest⟩ := List.forall_mem_cons.1 h
      exact (hparts.statement hstatement).bind fun _ hvalue => ih hvalue hrest

theorem block (hparts : L.Sound parts) {block : Block} (h : L.block inLoop block) :
    L.Keeps L.value inLoop (parts.block block) :=
  statements hparts (Discipline.value_plain rfl) h

/-- An iteration of a loop may stand anywhere. -/
theorem iteration (inLoop : Bool) (hparts : L.Sound parts) {body : Block} (h : L.block true body) :
    L.Keeps (fun _ => True) inLoop (Evaluation.settleIteration (parts.block body)) :=
  (block hparts h).settleIteration

theorem exprs (hparts : L.Sound parts) {exprs : List Expr}
    (h : ∀ expr ∈ exprs, L.expr inLoop expr) :
    L.Keeps L.values inLoop (parts.exprs exprs) := by
  induction exprs with
  | nil => exact .pure (List.forall_mem_nil _)
  | cons expr rest ih =>
      obtain ⟨hexpr, hrest⟩ := List.forall_mem_cons.1 h
      refine (hparts.expr hexpr).bind fun value hvalue => ?_
      exact (ih hrest).bind fun values hvalues => .pure (List.forall_mem_cons.2 ⟨hvalue, hvalues⟩)

theorem pairs [Host] (hL : L.Lawful) (hparts : L.Sound parts) {entries : List Entry}
    {pairs : List Pair} (hentries : L.entries entries) (h : ∀ pair ∈ pairs, L.pair inLoop pair) :
    L.Keeps L.entries inLoop (parts.pairs entries pairs) := by
  induction pairs generalizing entries with
  | nil => exact .pure hentries
  | cons pair rest ih =>
      obtain ⟨hpair, hrest⟩ := List.forall_mem_cons.1 h
      refine (hparts.expr hpair.1).bind fun key hkey => ?_
      cases key.hashKey? with
      | none => exact hL.raise rfl
      | some hashKey =>
          refine (hparts.expr hpair.2).bind fun value hvalue => ?_
          exact ih (Discipline.entries_insert hentries hkey hvalue) hrest

theorem forEach (hL : L.Lawful) (hparts : L.Sound parts) {name : String} {body : Block}
    {elements : List Value} (hname : L.name name) (hbody : L.block true body)
    (h : L.values elements) :
    L.Keeps L.value inLoop (parts.forEach name body elements) := by
  induction elements with
  | nil => exact .pure (Discipline.value_plain rfl)
  | cons element rest ih =>
      obtain ⟨helement, hrest⟩ := List.forall_mem_cons.1 h
      refine (hL.define hname helement).bind fun _ _ => ?_
      refine (iteration inLoop hparts hbody).bind fun goesOn _ => ?_
      cases goesOn with
      | true => exact ih hrest
      | false => exact .pure (Discipline.value_plain rfl)

theorem whileTrue (hparts : L.Sound parts) {condition : Expr} {body : Block}
    (hcondition : L.expr inLoop condition) (hbody : L.block true body) (count : Nat) :
    L.Keeps L.value inLoop (parts.whileTrue condition body count) := by
  induction count with
  | zero => exact .exhausted
  | succ count ih =>
      refine (hparts.expr hcondition).bind fun value _ => ?_
      split
      · refine (iteration inLoop hparts hbody).bind fun goesOn _ => ?_
        cases goesOn with
        | true => exact ih
        | false => exact .pure (Discipline.value_plain rfl)
      · exact .pure (Discipline.value_plain rfl)

/-- A call runs the body of the function in the same frame in both runs. -/
theorem callFunction (hL : L.Lawful) (hparts : L.Sound parts) (settings : Settings)
    (location : Location) {closure : Environment} {literal : FunctionLiteral}
    {arguments : List Value} (hclosure : L.scope closure) (hliteral : L.literal literal)
    (harguments : L.values arguments) :
    L.Keeps L.value inLoop (parts.callFunction settings location closure literal arguments) := by
  obtain ⟨hparameters, hbody⟩ := hL.literal hliteral
  have hcall : L.Keeps L.value inLoop (Evaluation.settleCall (Evaluation.asCall
      (Evaluation.withFrame closure (literal.bind arguments) (parts.block literal.body)))) :=
    hL.settleCall (hL.withFrame hclosure (Discipline.frame_bind hparameters harguments)
      (block hparts hbody)).asCall
  intro first second hstates
  rw [Evaluators.callFunction_apply, Evaluators.callFunction_apply, hstates.depth]
  split
  · split
    · exact .intro trivial hstates
    · exact hcall first second hstates
  · exact .intro (hL.harmless rfl) hstates

theorem call [Host] (hL : L.Lawful) (hparts : L.Sound parts) (settings : Settings)
    (location : Location) {callee : Value} {arguments : List Value} (hcallee : L.value callee)
    (harguments : L.values arguments) :
    L.Keeps L.value inLoop (parts.call settings location callee arguments) := by
  unfold Evaluators.call
  split
  · obtain ⟨hclosure, hliteral⟩ := Discipline.value_function.1 hcallee
    exact hL.callFunction hparts settings location hclosure hliteral harguments
  · exact hL.builtin _ _ harguments
  · exact hL.raise rfl

/-- An expression keeps the lockstep if its parts do. -/
theorem evaluate [Host] (hL : L.Lawful) (hparts : L.Sound parts) (settings : Settings) {expr : Expr}
    (h : L.expr inLoop expr) : L.Keeps L.value inLoop (parts.evaluate settings expr) := by
  have hinner := hL.expr h
  cases expr with
  | identifier name => exact hL.lookup hinner
  | integer | float | boolean | string => exact .pure (Discipline.value_plain rfl)
  | array location elements => exact (exprs hparts hinner).bind fun _ hvalues => newArray hvalues
  | hash location pairs =>
      refine (hL.pairs hparts Discipline.entries_nil hinner).bind fun _ hentries => ?_
      exact newHash hentries
  | function literal => exact newFunction hinner
  | unary location operator operand =>
      exact (hparts.expr hinner).bind fun _ _ => hL.computed (operator.apply_computed _)
  | binary location left operator right =>
      refine (hparts.expr hinner.1).bind fun _ _ => ?_
      exact (hparts.expr hinner.2).bind fun _ _ => hL.computed (operator.apply_computed _ _)
  | assign location target value =>
      refine (hparts.expr hinner.2).bind fun _ hvalue => ?_
      exact (hL.assign hinner.1 hvalue).bind fun _ _ => .pure hvalue
  | index location collection index =>
      refine (hparts.expr hinner.1).bind fun _ hvalue => ?_
      exact (hparts.expr hinner.2).bind fun _ _ => hL.index hvalue
  | call location callee arguments =>
      refine (hparts.expr hinner.1).bind fun _ hcallee => ?_
      refine (exprs hparts hinner.2).bind fun _ harguments => ?_
      exact hL.call hparts settings location hcallee harguments
  | conditional location condition consequence alternative =>
      obtain ⟨hcondition, hconsequence, halternative⟩ := hinner
      refine (hparts.expr hcondition).bind fun value _ => ?_
      split
      · exact block hparts hconsequence
      · cases alternative with
        | some alternative => exact block hparts (halternative alternative rfl)
        | none => exact .pure (Discipline.value_plain rfl)

/-- The frame of the handler of an error. -/
theorem frame_single {name : String} {value : Value} (hname : L.name name)
    (hvalue : L.value value) : L.frame [(name, value)] :=
  List.forall_mem_singleton.2 ⟨hname, hvalue⟩

/-- A body whose errors are handled, in a frame that has the error. -/
theorem caught (hL : L.Lawful) (hparts : L.Sound parts) {body handler : Block} {name : Identifier}
    (hbody : L.block inLoop body) (hname : L.name name.name) (hhandler : L.block inLoop handler) :
    L.Keeps L.value inLoop
      (Evaluation.handling (parts.block body) (parts.handle name handler)) := by
  refine (block hparts hbody).handling fun fault hfault => ?_
  refine (newError hfault).bind fun error herror => ?_
  exact hL.withChildFrame (frame_single hname herror) (block hparts hhandler)

/-- A statement keeps the lockstep if its parts do. -/
theorem execute (hL : L.Lawful) (hparts : L.Sound parts) (count : Nat) {statement : Statement}
    (h : L.statement inLoop statement) :
    L.Keeps L.value inLoop (parts.execute count statement) := by
  have hinner := hL.statement h
  cases statement with
  | letBinding location target value =>
      refine (hparts.expr hinner.2).bind fun _ hvalue => ?_
      exact (hL.define hinner.1 hvalue).bind fun _ _ => .pure (Discipline.value_plain rfl)
  | returnValue location value =>
      exact (hparts.expr hinner).bind fun _ hvalue => .still (fun _ => rfl) hvalue
  | expression first value => exact hparts.expr hinner
  | forLoop location element iterable body =>
      obtain ⟨hname, hiterable, hbody⟩ := hinner
      refine (hparts.expr hiterable).bind fun value hvalue => ?_
      cases helements : value.elements? with
      | none => exact hL.raise rfl
      | some elements =>
          have hvalues := L.hereditary.elements? hvalue helements
          exact hL.withChildFrame (List.forall_mem_nil _) (hL.forEach hparts hname hbody hvalues)
  | whileLoop location condition body =>
      exact hL.withChildFrame (List.forall_mem_nil _) (whileTrue hparts hinner.1 hinner.2 count)
  | breakLoop location => exact .still (fun _ => rfl) hinner
  | continueLoop location => exact .still (fun _ => rfl) hinner
  | tryCatch location body error handler finalizer =>
      obtain ⟨hbody, hname, hhandler, hfinalizer⟩ := hinner
      have hcaught := hL.caught hparts hbody hname hhandler
      cases finalizer with
      | none => exact hcaught
      | some finalizer => exact hcaught.ensuring (block hparts (hfinalizer finalizer rfl))

variable [Host]

/-- Every evaluation keeps a lawful lockstep. -/
theorem sound (hL : L.Lawful) (settings : Settings) (count : Nat) :
    L.Sound (Evaluators.upTo settings count) := by
  induction count with
  | zero => exact ⟨fun _ => .exhausted, fun _ => .exhausted⟩
  | succ count ih => exact ⟨hL.evaluate ih settings, hL.execute ih count⟩

/-! ## Tasks -/

omit [Host] in
theorem single {evaluation : Evaluation Value} (h : L.Keeps L.value inLoop evaluation) :
    L.Keeps L.values inLoop (do let value ← evaluation; pure [value]) :=
  h.bind fun _ hvalue => .pure (List.forall_mem_singleton.2 hvalue)

/-- Every task keeps the lockstep. -/
theorem task (hL : L.Lawful) (settings : Settings) (count : Nat) {task : Task}
    (h : L.task inLoop task) : L.Keeps L.values inLoop (task.evaluate settings count) := by
  have hparts := hL.sound settings count
  cases task with
  | expr whole => exact single (hparts.expr h)
  | exprs list => exact exprs hparts h
  | pairs entries list =>
      refine (hL.pairs hparts h.1 h.2).bind fun filed hfiled => .pure fun value hvalue => ?_
      obtain ⟨entry, hentry, hmem⟩ := List.mem_flatMap.1 hvalue
      obtain ⟨hkey, hentered⟩ := Discipline.entries_iff.1 hfiled entry hentry
      rcases List.mem_cons.1 hmem with rfl | hmem
      · exact hkey
      · rw [List.mem_singleton.1 hmem]
        exact hentered
  | statement whole => exact single (hparts.statement h)
  | statements last list => exact single (statements hparts h.1 h.2)
  | forEach name body elements => exact single (hL.forEach hparts h.1 h.2.1 h.2.2)
  | whileTrue condition body => exact single (whileTrue hparts h.1 h.2 count)
  | call location callee arguments => exact single (hL.call hparts settings location h.1 h.2)

/-- What one run starts, the other one starts too, and nothing but what may occur is in it. -/
theorem starts (hL : L.Lawful) {settings : Settings} {task part : Task}
    {first second first' : State} (h : Starts settings task first part first')
    (hstates : L.states first second) (htask : L.task inLoop task) :
    ∃ second', Starts settings task second part second' ∧ L.states first' second' ∧
      ∃ inLoop', L.task inLoop' part := by
  have hparts := hL.sound settings
  cases h with
  | array => exact ⟨second, .array, hstates, inLoop, hL.expr htask⟩
  | hash => exact ⟨second, .hash, hstates, inLoop, Discipline.entries_nil, hL.expr htask⟩
  | operand => exact ⟨second, .operand, hstates, inLoop, hL.expr htask⟩
  | left => exact ⟨second, .left, hstates, inLoop, (hL.expr htask).1⟩
  | right heval =>
      obtain ⟨middle, heval, hmiddle, -⟩ := ((hparts _).expr (hL.expr htask).1).ok hstates heval
      exact ⟨middle, .right heval, hmiddle, inLoop, (hL.expr htask).2⟩
  | assigned => exact ⟨second, .assigned, hstates, inLoop, (hL.expr htask).2⟩
  | collection => exact ⟨second, .collection, hstates, inLoop, (hL.expr htask).1⟩
  | place heval =>
      obtain ⟨middle, heval, hmiddle, -⟩ := ((hparts _).expr (hL.expr htask).1).ok hstates heval
      exact ⟨middle, .place heval, hmiddle, inLoop, (hL.expr htask).2⟩
  | callee => exact ⟨second, .callee, hstates, inLoop, (hL.expr htask).1⟩
  | arguments heval =>
      obtain ⟨middle, heval, hmiddle, -⟩ := ((hparts _).expr (hL.expr htask).1).ok hstates heval
      exact ⟨middle, .arguments heval, hmiddle, inLoop, (hL.expr htask).2⟩
  | apply hcallee harguments =>
      obtain ⟨middle, hcallee, hmiddle, hvalue⟩ :=
        ((hparts _).expr (hL.expr htask).1).ok hstates hcallee
      obtain ⟨last, harguments, hlast, hvalues⟩ :=
        (exprs (hparts _) (hL.expr htask).2).ok hmiddle harguments
      exact ⟨last, .apply hcallee harguments, hlast, inLoop, hvalue, hvalues⟩
  | condition => exact ⟨second, .condition, hstates, inLoop, (hL.expr htask).1⟩
  | consequence heval htruthy =>
      obtain ⟨middle, heval, hmiddle, -⟩ := ((hparts _).expr (hL.expr htask).1).ok hstates heval
      exact ⟨middle, .consequence heval htruthy, hmiddle, inLoop,
        Discipline.task_block (hL.expr htask).2.1⟩
  | alternative heval htruthy =>
      obtain ⟨middle, heval, hmiddle, -⟩ := ((hparts _).expr (hL.expr htask).1).ok hstates heval
      exact ⟨middle, .alternative heval htruthy, hmiddle, inLoop,
        Discipline.task_block ((hL.expr htask).2.2 _ rfl)⟩
  | firstExpr => exact ⟨second, .firstExpr, hstates, inLoop, htask _ (.head _)⟩
  | restExprs heval =>
      obtain ⟨middle, heval, hmiddle, -⟩ := ((hparts _).expr (htask _ (.head _))).ok hstates heval
      exact ⟨middle, .restExprs heval, hmiddle, inLoop, fun expr h => htask expr (.tail _ h)⟩
  | key => exact ⟨second, .key, hstates, inLoop, (htask.2 _ (.head _)).1⟩
  | filed heval hkey =>
      obtain ⟨middle, heval, hmiddle, -⟩ :=
        ((hparts _).expr (htask.2 _ (.head _)).1).ok hstates heval
      exact ⟨middle, .filed heval hkey, hmiddle, inLoop, (htask.2 _ (.head _)).2⟩
  | restPairs hkey hhash hvalue =>
      obtain ⟨middle, hkey, hmiddle, hvalidKey⟩ :=
        ((hparts _).expr (htask.2 _ (.head _)).1).ok hstates hkey
      obtain ⟨last, hvalue, hlast, hvalid⟩ :=
        ((hparts _).expr (htask.2 _ (.head _)).2).ok hmiddle hvalue
      exact ⟨last, .restPairs hkey hhash hvalue, hlast, inLoop,
        Discipline.entries_insert htask.1 hvalidKey hvalid, fun pair h => htask.2 pair (.tail _ h)⟩
  | firstStatement => exact ⟨second, .firstStatement, hstates, inLoop, htask.2 _ (.head _)⟩
  | restStatements heval =>
      obtain ⟨middle, heval, hmiddle, hvalue⟩ :=
        ((hparts _).statement (htask.2 _ (.head _))).ok hstates heval
      exact ⟨middle, .restStatements heval, hmiddle, inLoop, hvalue,
        fun statement h => htask.2 statement (.tail _ h)⟩
  | bound => exact ⟨second, .bound, hstates, inLoop, (hL.statement htask).2⟩
  | returned => exact ⟨second, .returned, hstates, inLoop, hL.statement htask⟩
  | expression => exact ⟨second, .expression, hstates, inLoop, hL.statement htask⟩
  | iterable => exact ⟨second, .iterable, hstates, inLoop, (hL.statement htask).2.1⟩
  | forLoop heval helements =>
      obtain ⟨hname, hiterable, hbody⟩ := hL.statement htask
      obtain ⟨middle, heval, hmiddle, hvalue⟩ := ((hparts _).expr hiterable).ok hstates heval
      refine ⟨_, .forLoop heval helements, ?_, inLoop, hname, hbody,
        L.hereditary.elements? hvalue helements⟩
      rw [hmiddle.environment]
      exact hL.states_enter hmiddle hmiddle.scope (List.forall_mem_nil _)
  | whileLoop =>
      refine ⟨_, .whileLoop, ?_, inLoop, hL.statement htask⟩
      rw [hstates.environment]
      exact hL.states_enter hstates hstates.scope (List.forall_mem_nil _)
  | tried => exact ⟨second, .tried, hstates, inLoop, Discipline.task_block (hL.statement htask).1⟩
  | handled heval herror =>
      obtain ⟨hbody, hname, hhandler, -⟩ := hL.statement htask
      obtain ⟨middle, heval, hmiddle, hfault⟩ := (block (hparts _) hbody).after hstates heval
      have hnew : L.Keeps L.value inLoop _ := newError hfault
      obtain ⟨last, herror, hlast, hvalue⟩ := hnew.ok hmiddle herror
      refine ⟨_, .handled heval herror, ?_, inLoop, Discipline.task_block hhandler⟩
      rw [hlast.environment]
      exact hL.states_enter hlast hlast.scope (frame_single hname hvalue)
  | finalized heval hoverflow hcrashed hexhausted =>
      obtain ⟨hbody, hname, hhandler, hfinalizer⟩ := hL.statement htask
      obtain ⟨middle, heval, hmiddle, -⟩ :=
        (hL.caught (hparts _) hbody hname hhandler).after hstates heval
      exact ⟨middle, .finalized heval hoverflow hcrashed hexhausted, hmiddle, inLoop,
        Discipline.task_block (hfinalizer _ rfl)⟩
  | iteration hdefine =>
      obtain ⟨hname, hbody, hvalues⟩ := htask
      have hbinds : L.Keeps _ inLoop _ := hL.define hname (hvalues _ (.head _))
      obtain ⟨middle, hdefine, hmiddle, -⟩ := hbinds.ok hstates hdefine
      exact ⟨middle, .iteration hdefine, hmiddle, true, Discipline.task_block hbody⟩
  | nextIteration hdefine hiteration =>
      obtain ⟨hname, hbody, hvalues⟩ := htask
      have hbinds : L.Keeps _ inLoop _ := hL.define hname (hvalues _ (.head _))
      obtain ⟨middle, hdefine, hmiddle, -⟩ := hbinds.ok hstates hdefine
      obtain ⟨last, hiteration, hlast, -⟩ :=
        (iteration inLoop (hparts _) hbody).ok hmiddle hiteration
      exact ⟨last, .nextIteration hdefine hiteration, hlast, inLoop, hname, hbody,
        fun element h => hvalues element (.tail _ h)⟩
  | test => exact ⟨second, .test, hstates, inLoop, htask.1⟩
  | passed heval htruthy =>
      obtain ⟨middle, heval, hmiddle, -⟩ := ((hparts _).expr htask.1).ok hstates heval
      exact ⟨middle, .passed heval htruthy, hmiddle, true, Discipline.task_block htask.2⟩
  | nextTest heval htruthy hiteration =>
      obtain ⟨middle, heval, hmiddle, -⟩ := ((hparts _).expr htask.1).ok hstates heval
      obtain ⟨last, hiteration, hlast, -⟩ :=
        (iteration inLoop (hparts _) htask.2).ok hmiddle hiteration
      exact ⟨last, .nextTest heval htruthy hiteration, hlast, inLoop, htask⟩
  | @body _ _ closure literal arguments _ hcount hdepth =>
      obtain ⟨hclosure, hliteral⟩ := Discipline.value_function.1 htask.1
      obtain ⟨hparameters, hbody⟩ := hL.literal hliteral
      have hcounted : L.states { first with depth := first.depth + 1 }
          { second with depth := second.depth + 1 } :=
        { hstates with depth := congrArg (· + 1) hstates.depth }
      rw [← hstates.depth] at hdepth
      exact ⟨_, .body hcount hdepth, hL.states_enter hcounted hclosure
        (Discipline.frame_bind hparameters htask.2), false, Discipline.task_block hbody⟩

/-- What one run reaches, the other one reaches too. -/
theorem reaches (hL : L.Lawful) {settings : Settings} {task part : Task} {enclosing : List Task}
    {first second first' : State} (h : Reaches settings task first enclosing part first')
    (hstates : L.states first second) (htask : L.task inLoop task) :
    ∃ second', Reaches settings task second enclosing part second' ∧ L.states first' second' ∧
      ∃ inLoop', L.task inLoop' part := by
  induction h with
  | here => exact ⟨second, .here, hstates, inLoop, htask⟩
  | starts _ hstarts ih =>
      obtain ⟨middle, hreaches, hmiddle, inLoop', hpart⟩ := ih
      obtain ⟨last, hstarts, hlast, hinner⟩ := hL.starts hstarts hmiddle hpart
      exact ⟨last, .starts hreaches hstarts, hlast, hinner⟩

/-! ## Programs -/

/-- The statements of a program. -/
theorem executeAll (hL : L.Lawful) (settings : Settings) (count : Nat)
    {statements : List Statement} (h : ∀ statement ∈ statements, L.statement inLoop statement) :
    L.Keeps L.value inLoop (Statement.executeAll settings count statements) :=
  Lawful.statements (hL.sound settings count) (Discipline.value_plain rfl) h

/-- A program gives the same result in both runs, and leaves states that belong together. -/
theorem run (hL : L.Lawful) (hroot : L.scope Store.root) (settings : Settings) (bound : Nat)
    {program : Program} (h : ∀ statement ∈ program.statements, L.statement false statement)
    {first second : State} (hstates : L.states first second) :
    let ended := Session.run bound ⟨settings, first⟩ program
    let ended' := Session.run bound ⟨settings, second⟩ program
    ended'.1 = ended.1 ∧ L.states ended.2.state ended'.2.state ∧
      ∀ value, ended.1 = .value value → L.value value := by
  have hends := hL.executeAll settings bound h first second hstates
  dsimp only [Session.run]
  generalize Statement.executeAll settings bound program.statements first = ended,
    Statement.executeAll settings bound program.statements second = ended' at hends
  cases hends with
  | @intro outcome last last' houtcome hlast =>
      -- an uncaught fault becomes an error value with a new identity
      have huncaught (fault : Fault) (h : L.fault fault) :
          Result.value (.error last'.identities fault) =
              Result.value (.error last.identities fault) ∧
            L.states { last with identities := last.identities + 1 }
              { last' with identities := last'.identities + 1 } ∧
            ∀ value, Result.value (.error last.identities fault) = .value value →
              L.value value := by
        rw [hlast.identities]
        refine ⟨rfl, { hlast with identities := rfl }, fun value hvalue => ?_⟩
        cases hvalue
        exact Discipline.value_error.2 h
      rcases outcome with (value | location | location | fault | overflow | _ | _) | value
      case ok | error.returned =>
        refine ⟨rfl, hlast, fun other hother => ?_⟩
        cases hother
        exact houtcome
      case error.broken | error.continued => exact huncaught _ (hL.stray houtcome)
      case error.raised => exact huncaught _ houtcome
      case error.overflowed =>
        exact ⟨rfl, { hlast with scope := hroot, environment := rfl, depth := rfl }, nofun⟩
      case error.crashed | error.exhausted => exact ⟨rfl, hlast, nofun⟩

end Lawful

end Lockstep

end Script
