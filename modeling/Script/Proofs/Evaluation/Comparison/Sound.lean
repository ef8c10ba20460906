import Script.Proofs.Evaluation.Comparison.Operation

/-!
# Programs side by side

A lawful comparison holds of whole programs: `Comparison.Lawful.sound`, by one induction over the
bounds on nested evaluations. Each construct keeps the runs together when its parts do, and a part
is started by the task around it.
-/

namespace Script

variable [Host]

namespace Comparison

variable {C : Comparison} {count count' : Nat} {state state' : State}

variable (C) in
/-- Expressions and statements that stand for each other keep the runs together. -/
structure Sound (count count' : Nat) : Prop where
  expr {expr expr' : Expr} {state state' : State} :
    C.likeness.expr expr expr' → C.admits (.expr expr) state → C.state state state' →
    C.Agree C.value (Expr.evaluate C.left count expr state)
      (Expr.evaluate C.right count' expr' state')
  statement {statement statement' : Statement} {state state' : State} :
    C.likeness.statement statement statement' → C.admits (.statement statement) state →
    C.state state state' →
    C.Agree C.value (Statement.execute C.left count statement state)
      (Statement.execute C.right count' statement' state')

namespace Lawful

theorem statements (hC : C.Lawful) (hparts : C.Sound count count')
    {statements statements' : List Statement} {last last' : Value}
    (h : List.Forall₂ C.likeness.statement statements statements') (hlast : C.value last last')
    (hadmits : C.admits (.statements last statements) state) (hstate : C.state state state') :
    C.Agree C.value ((Evaluators.upTo C.left count).statements last statements state)
      ((Evaluators.upTo C.right count').statements last' statements' state') := by
  induction h generalizing last last' state state' with
  | nil => exact .ok hlast hstate
  | cons hfirst _ ih =>
      refine (hparts.statement hfirst (hC.starts hadmits .firstStatement) hstate).bind
        (fun _ => Evaluators.statements_grows _ _ _ _) fun heval hvalue hmiddle => ?_
      exact ih hvalue (hC.starts hadmits (.restStatements heval)) hmiddle

theorem block (hC : C.Lawful) (hparts : C.Sound count count') {block block' : Block}
    (h : C.likeness.block block block') (hadmits : C.admits (.block block) state)
    (hstate : C.state state state') :
    C.Agree C.value ((Evaluators.upTo C.left count).block block state)
      ((Evaluators.upTo C.right count').block block' state') :=
  hC.statements hparts h .null hadmits hstate

theorem exprs (hC : C.Lawful) (hparts : C.Sound count count') {exprs exprs' : List Expr}
    (h : List.Forall₂ C.likeness.expr exprs exprs') (hadmits : C.admits (.exprs exprs) state)
    (hstate : C.state state state') :
    C.Agree C.values ((Evaluators.upTo C.left count).exprs exprs state)
      ((Evaluators.upTo C.right count').exprs exprs' state') := by
  induction h generalizing state state' with
  | nil => exact .ok .nil hstate
  | cons hfirst _ ih =>
      refine (hparts.expr hfirst (hC.starts hadmits .firstExpr) hstate).bind
        (fun _ => (Evaluators.exprs_grows _ _ _).bind fun _ => .pure _)
        fun heval hvalue hmiddle => ?_
      exact (ih (hC.starts hadmits (.restExprs heval)) hmiddle).bind (fun _ => .pure _)
        fun _ hvalues hlast => .ok (.cons hvalue hvalues) hlast

theorem pairs (hC : C.Lawful) (hparts : C.Sound count count') {pairs pairs' : List Pair}
    {entries entries' : List Entry} (h : List.Forall₂ C.likeness.pair pairs pairs')
    (hentries : List.Forall₂ (Entry.Alike C.likeness) entries entries')
    (hadmits : C.admits (.pairs entries pairs) state) (hstate : C.state state state') :
    C.Agree (List.Forall₂ (Entry.Alike C.likeness))
      ((Evaluators.upTo C.left count).pairs entries pairs state)
      ((Evaluators.upTo C.right count').pairs entries' pairs' state') := by
  induction h generalizing entries entries' state state' with
  | nil => exact .ok hentries hstate
  | @cons pair pair' rest rest' hpair _ ih =>
      have hrest (entries : List Entry) :=
        Evaluators.pairs_grows C.right count' entries rest'
      have hgrows (key : Value) (hashKey : HashKey) :=
        (Evaluators.expr_grows C.right count' pair'.value).bind
          fun value => hrest (Entry.insert ⟨hashKey, key, value⟩ entries')
      refine (hparts.expr hpair.1 (hC.starts hadmits .key) hstate).bind (fun key => ?_)
        fun hkeyEval hkey hmiddle => ?_
      · cases key.hashKey? with
        | none => exact .raise _
        | some hashKey => exact hgrows key hashKey
      · -- both runs find the same key
        next key key' middle middle' =>
        dsimp only
        rw [← hkey.hashKey?_eq]
        cases hhash : key.hashKey? with
        | none =>
            rw [← hkey.kind_eq]
            exact .raise .same hmiddle
        | some hashKey =>
            have hfiled : Starts C.left (.pairs entries (pair :: rest)) state (.expr pair.value)
              middle := .filed hkeyEval (hhash ▸ rfl)
            refine (hparts.expr hpair.2 (hC.starts hadmits hfiled) hmiddle).bind
              (fun value => hrest _) fun heval hvalue hlast => ?_
            exact ih (Entry.Alike.insert (.mk hkey hvalue) hentries)
              (hC.starts hadmits (.restPairs hkeyEval hhash heval)) hlast

theorem forEach (hC : C.Lawful) (hparts : C.Sound count count') (name : String)
    {body body' : Block} {elements elements' : List Value} (hbody : C.likeness.block body body')
    (h : C.values elements elements') (hadmits : C.admits (.forEach name body elements) state)
    (hstate : C.state state state') :
    C.Agree C.value ((Evaluators.upTo C.left count).forEach name body elements state)
      ((Evaluators.upTo C.right count').forEach name body' elements' state') := by
  induction h generalizing state state' with
  | nil => exact .ok .null hstate
  | @cons element element' rest rest' hfirst _ ih =>
      have hrest := Evaluators.forEach_grows C.right count' name body' rest'
      have hgoesOn (goesOn : Bool) : Evaluation.Grows
          (if goesOn then (Evaluators.upTo C.right count').forEach name body' rest'
            else pure .null) := by
        split
        · exact hrest
        · exact .pure _
      have hblock := Evaluators.block_grows C.right count' body'
      refine (Agree.define name hfirst hstate).bind
        (fun _ => hblock.settleIteration.bind hgoesOn)
        fun hdefine _ hmiddle => ?_
      have hadmitted := hC.starts hadmits (.iteration hdefine)
      refine ((hC.block hparts hbody hadmitted hmiddle).settleIteration hC).bind hgoesOn
        fun heval hsame hlast => ?_
      subst hsame
      split
      · next h =>
          subst h
          exact ih (hC.starts hadmits (.nextIteration hdefine heval)) hlast
      · exact .ok .null hlast

/-- Every iteration of the first run has its counterpart in the second one, which may go on for
more iterations. -/
theorem whileTrue (hC : C.Lawful) (hparts : C.Sound count count') {condition condition' : Expr}
    {body body' : Block} (hcondition : C.likeness.expr condition condition')
    (hbody : C.likeness.block body body') {iterations iterations' : Nat}
    (hbounds : C.Bounds iterations iterations')
    (hadmits : C.admits (.whileTrue condition body) state) (hstate : C.state state state') :
    C.Agree C.value
      ((Evaluators.upTo C.left count).whileTrue condition body iterations state)
      ((Evaluators.upTo C.right count').whileTrue condition' body' iterations' state') := by
  induction iterations generalizing iterations' state state' with
  | zero =>
      rcases hbounds with rfl | ⟨_, hcut⟩
      · exact .error .exhausted hstate
      · have hgrows := Evaluators.whileTrue_grows C.right count' condition' body' iterations'
        exact .cut_continues hcut (.of_eq hstate.printed) (hgrows state')
  | succ iterations ih =>
      obtain ⟨iterations', rfl, hfewer⟩ := hbounds.succ
      have hrest := Evaluators.whileTrue_grows C.right count' condition' body' iterations'
      have hgoesOn (goesOn : Bool) : Evaluation.Grows
          (if goesOn then (Evaluators.upTo C.right count').whileTrue condition' body' iterations'
            else pure .null) := by
        split
        · exact hrest
        · exact .pure _
      have hblock := Evaluators.block_grows C.right count' body'
      have hiteration := hblock.settleIteration.bind hgoesOn
      refine (hparts.expr hcondition (hC.starts hadmits .test) hstate).bind (fun value => ?_)
        fun htest hvalue hmiddle => ?_
      · split
        · exact hiteration
        · exact .pure _
      · rw [← hvalue.truthy_eq]
        split
        · next htrue =>
            have hadmitted := hC.starts hadmits (.passed htest htrue)
            refine ((hC.block hparts hbody hadmitted hmiddle).settleIteration hC).bind hgoesOn
              fun heval hsame hlast => ?_
            subst hsame
            split
            · next h =>
                subst h
                exact ih hfewer (hC.starts hadmits (.nextTest htest htrue heval)) hlast
            · exact .ok .null hlast
        · exact .ok .null hmiddle

/-- A call is one too many in both runs, in the first one only, or in none. -/
theorem callFunction (hC : C.Lawful) (hparts : C.Sound count count')
    {location location' : Location} {identity : Identity} {closure : Environment}
    {literal literal' : FunctionLiteral} {arguments arguments' : List Value}
    (hlocation : C.likeness.place location location')
    (hliteral : C.likeness.literal literal literal') (h : C.values arguments arguments')
    (hadmits : C.admits (.call location (.function identity closure literal) arguments) state)
    (hstate : C.state state state') :
    C.Agree C.value
      ((Evaluators.upTo C.left count).callFunction C.left location closure literal arguments state)
      ((Evaluators.upTo C.right count').callFunction C.right location' closure literal' arguments'
        state') := by
  have hsame := hC.likeness.literal hliteral
  have hgrows := Evaluators.call_grows C.right count' location'
    (.function identity closure literal') arguments' state'
  have hdisplay : literal.displayName = literal'.displayName :=
    congrArg (fun name => name.getD "anonymous") hsame.name
  simp only [Evaluators.call] at hgrows
  rw [Evaluators.callFunction_apply, ← h.length_eq, ← hsame.length_eq] at hgrows
  rw [Evaluators.callFunction_apply, Evaluators.callFunction_apply, ← h.length_eq,
    ← hsame.length_eq, ← hdisplay]
  split
  · next hcount =>
      split
      · next hfull =>
          rcases hC.limit hadmits hcount hfull hlocation with hcut | ⟨hlimit, hoverflow⟩
          · rw [if_pos hcount] at hgrows
            exact .cut_continues hcut (.of_eq hstate.printed) hgrows
          · rw [if_pos (hlimit ▸ hstate.depth ▸ hfull)]
            exact .error (.overflowed hoverflow) hstate
      · next hfull =>
          have hcounted : C.state { state with depth := state.depth + 1 }
              { state' with depth := state'.depth + 1 } :=
            { hstate with depth := congrArg (· + 1) hstate.depth }
          rw [if_neg ?_]
          · refine Agree.settleCall hC (Agree.asCall (Agree.withFrame hcounted ?_))
            have hbody := hC.starts hadmits (.body hcount (Nat.lt_of_not_le hfull))
            exact hC.block hparts hsame.body hbody (hcounted.enter (hsame.bind h))
          · have hroom := hC.room
            have hdepth := hstate.depth
            omega
  · exact .raise .same hstate

/-- Calls keep the runs together, whatever is called. -/
theorem call (hC : C.Lawful) (hparts : C.Sound count count') {location location' : Location}
    {callee callee' : Value} {arguments arguments' : List Value}
    (hlocation : C.likeness.place location location') (hcallee : C.value callee callee')
    (h : C.values arguments arguments') (hadmits : C.admits (.call location callee arguments) state)
    (hstate : C.state state state') :
    C.Agree C.value
      ((Evaluators.upTo C.left count).call C.left location callee arguments state)
      ((Evaluators.upTo C.right count').call C.right location' callee' arguments' state') := by
  cases hcallee with
  | function hliteral => exact hC.callFunction hparts hlocation hliteral h hadmits hstate
  | builtin =>
      simp only [Evaluators.call, ← hC.sink]
      refine builtin hC.likeness _ _ (fun start stop hcallee harguments hbeyond => ?_) h hstate
      rw [hcallee, harguments] at hadmits
      exact hC.capacity hadmits hbeyond
  | _ => exact .raise .same hstate

/-- Expressions of the same form keep the runs together if their parts do. -/
theorem evaluate (hC : C.Lawful) (hparts : C.Sound count count') {expr expr' : Expr}
    (h : expr.SameForm C.likeness expr') (hadmits : C.admits (.expr expr) state)
    (hstate : C.state state state') :
    C.Agree C.value ((Evaluators.upTo C.left count).evaluate C.left expr state)
      ((Evaluators.upTo C.right count').evaluate C.right expr' state') := by
  have hexpr := Evaluators.expr_grows C.right count'
  have hexprs := Evaluators.exprs_grows C.right count'
  have hblock := Evaluators.block_grows C.right count'
  cases h with
  | identifier hname => exact .lookup hname hstate
  | integer => exact .ok .integer hstate
  | float => exact .ok .float hstate
  | boolean => exact .ok .boolean hstate
  | string => exact .ok .string hstate
  | array helements =>
      exact (hC.exprs hparts helements (hC.starts hadmits .array) hstate).bind
        (fun _ => .of_eq fun _ => rfl) fun _ hvalues hlast => .newArray hvalues hlast
  | hash hpairs =>
      exact (hC.pairs hparts hpairs .nil (hC.starts hadmits .hash) hstate).bind
        (fun _ => .of_eq fun _ => rfl) fun _ hentries hlast => .newHash hentries hlast
  | function hliteral => exact .newFunction hliteral hstate
  | unary hoperand =>
      exact (hparts.expr hoperand (hC.starts hadmits .operand) hstate).bind
        (fun _ => .ofExcept _) fun _ hvalue hlast => .ofExcept (.unary hvalue) hlast
  | binary hleft hright =>
      refine (hparts.expr hleft (hC.starts hadmits .left) hstate).bind
        (fun _ => (hexpr _).bind fun _ => .ofExcept _) fun heval hvalue hmiddle => ?_
      exact (hparts.expr hright (hC.starts hadmits (.right heval)) hmiddle).bind
        (fun _ => .ofExcept _) fun _ hvalue' hlast => .ofExcept (.binary hvalue hvalue') hlast
  | @assign _ _ target target' _ _ hname hvalue =>
      have hassign (value : Value) : (Evaluation.assign target' value).Grows := by
        refine .of_eq fun state => ?_
        rw [Evaluation.assign_apply]
        split <;> rfl
      refine (hparts.expr hvalue (hC.starts hadmits .assigned) hstate).bind
        (fun value => (hassign value).bind fun _ => .pure _) fun _ hvalue hmiddle => ?_
      exact (Agree.assign hname hvalue hmiddle).bind (fun _ => .pure _)
        fun _ _ hlast => .ok hvalue hlast
  | index hcollection hindex =>
      refine (hparts.expr hcollection (hC.starts hadmits .collection) hstate).bind
        (fun _ => (hexpr _).bind fun _ => .ofExcept _) fun heval hvalue hmiddle => ?_
      exact (hparts.expr hindex (hC.starts hadmits (.place heval)) hmiddle).bind
        (fun _ => .ofExcept _) fun _ hvalue' hlast => .ofExcept (.index hvalue hvalue') hlast
  | call hlocation hcallee harguments =>
      have hcall := Evaluators.call_grows C.right count'
      refine (hparts.expr hcallee (hC.starts hadmits .callee) hstate).bind
        (fun _ => (hexprs _).bind fun _ => hcall _ _ _) fun heval hvalue hmiddle => ?_
      refine (hC.exprs hparts harguments (hC.starts hadmits (.arguments heval)) hmiddle).bind
        (fun _ => hcall _ _ _) fun heval' hvalues hlast => ?_
      exact hC.call hparts hlocation hvalue hvalues (hC.starts hadmits (.apply heval heval')) hlast
  | conditional hcondition hconsequence halternative =>
      refine (hparts.expr hcondition (hC.starts hadmits .condition) hstate).bind (fun value => ?_)
        fun heval hvalue hmiddle => ?_
      · split
        · exact hblock _
        · split
          · exact hblock _
          · exact .pure _
      · rw [← hvalue.truthy_eq]
        split
        · next htrue =>
            have hadmitted := hC.starts hadmits (.consequence heval htrue)
            exact hC.block hparts hconsequence hadmitted hmiddle
        · next hfalse =>
            cases halternative with
            | some halternative =>
                have hadmitted := hC.starts hadmits
                  (.alternative heval ((Bool.not_eq_true _).mp hfalse))
                exact hC.block hparts halternative hadmitted hmiddle
            | none => exact .ok .null hmiddle

/-- A body whose errors are handled. The handlers see the same error. -/
theorem caught (hC : C.Lawful) (hparts : C.Sound count count') {location : Location}
    {body body' handler handler' : Block} {error error' : Identifier} {finalizer : Option Block}
    (hbody : C.likeness.block body body') (hname : error.name = error'.name)
    (hhandler : C.likeness.block handler handler')
    (hadmits : C.admits (.statement (.tryCatch location body error handler finalizer)) state)
    (hstate : C.state state state') :
    C.Agree C.value
      (Evaluation.handling ((Evaluators.upTo C.left count).block body)
        ((Evaluators.upTo C.left count).handle error handler) state)
      (Evaluation.handling ((Evaluators.upTo C.right count').block body')
        ((Evaluators.upTo C.right count').handle error' handler') state') := by
  have hadmitted := hC.starts hadmits .tried
  refine (hC.block hparts hbody hadmitted hstate).handling hC
    (fun {fault middle _ _} hraised hlocated hplace => ?_) (Evaluators.handle_grows _ _ _ _)
    fun {fault _ _} hraised hmiddle => ?_
  · have htask : (Task.block body).evaluate C.left count state =
        (.error (.raised fault), middle) := by
      rw [Evaluators.block] at hraised
      simp only [Task.evaluate, Evaluation.bind_apply, hraised]
    exact hC.located hadmitted htask hlocated hplace
  · have hblock := Evaluators.block_grows C.right count' handler'
    refine (Agree.newError fault hmiddle).bind (fun value => hblock.withChildFrame)
      fun heval hvalue hlast => ?_
    have hframe : Frame.Alike C.likeness [(error.name, _)] [(error'.name, _)] :=
      .cons ⟨hname, hvalue⟩ .nil
    have hstarts := hC.starts hadmits (.handled hraised heval)
    exact .withChildFrame hlast (hC.block hparts hhandler hstarts (hlast.enterChild hframe))

/-- Statements of the same form keep the runs together if their parts do. -/
theorem execute (hC : C.Lawful) (hparts : C.Sound count count') (hbounds : C.Bounds count count')
    {statement statement' : Statement} (h : statement.SameForm C.likeness statement')
    (hadmits : C.admits (.statement statement) state) (hstate : C.state state state') :
    C.Agree C.value ((Evaluators.upTo C.left count).execute count statement state)
      ((Evaluators.upTo C.right count').execute count' statement' state') := by
  cases h with
  | letBinding hname hvalue =>
      refine (hparts.expr hvalue (hC.starts hadmits .bound) hstate).bind
        (fun _ => .of_eq fun _ => rfl) fun _ hvalue hmiddle => ?_
      rw [← hname]
      exact (Agree.define _ hvalue hmiddle).bind (fun _ => .pure _) fun _ _ hlast =>
        .ok .null hlast
  | returnValue hvalue =>
      exact (hparts.expr hvalue (hC.starts hadmits .returned) hstate).bind
        (fun _ => .interrupt _) fun _ hvalue hlast => .error (.returned hvalue) hlast
  | expression hvalue => exact hparts.expr hvalue (hC.starts hadmits .expression) hstate
  | @forLoop _ _ element element' _ _ body body' hname hiterable hbody =>
      have hloop := Evaluators.forEach_grows C.right count' element'.name body'
      refine (hparts.expr hiterable (hC.starts hadmits .iterable) hstate).bind (fun value => ?_)
        fun {value value' _ _} heval hvalue hmiddle => ?_
      · split
        · exact (hloop _).withChildFrame
        · exact .raise _
      · have helements := hvalue.elements?
        have hstarts {elements : List Value} (h : value.elements? = some elements) :=
          hC.starts hadmits (.forLoop heval h)
        generalize value.elements? = found, value'.elements? = found' at helements hstarts
        cases helements with
        | none =>
            rw [← hvalue.kind_eq]
            exact .raise .same hmiddle
        | some helements =>
            rw [← hname]
            exact .withChildFrame hmiddle (hC.forEach hparts _ hbody helements (hstarts rfl)
              (hmiddle.enterChild .nil))
  | whileLoop hcondition hbody =>
      exact .withChildFrame hstate (hC.whileTrue hparts hcondition hbody hbounds
        (hC.starts hadmits .whileLoop) (hstate.enterChild .nil))
  | breakLoop hplace => exact .error (.broken hplace) hstate
  | continueLoop hplace => exact .error (.continued hplace) hstate
  | tryCatch hbody hname hhandler hfinalizer =>
      have hcaught := hC.caught hparts hbody hname hhandler hadmits hstate
      cases hfinalizer with
      | none => exact hcaught
      | some hfinalizer =>
          refine hcaught.ensuring hC (Evaluators.block_grows _ _ _)
            fun heval hoverflow hcrashed hexhausted hmiddle => ?_
          have hstarts := hC.starts hadmits (.finalized heval hoverflow hcrashed hexhausted)
          exact hC.block hparts hfinalizer hstarts hmiddle

/-- Programs that stand for each other keep the runs together. -/
theorem sound (hC : C.Lawful) (hbounds : C.Bounds count count') : C.Sound count count' := by
  induction count generalizing count' with
  | zero =>
      rcases hbounds with rfl | ⟨_, hcut⟩
      · exact ⟨fun _ _ hstate => .error .exhausted hstate,
          fun _ _ hstate => .error .exhausted hstate⟩
      · exact ⟨fun _ _ hstate => .cut_continues hcut (.of_eq hstate.printed)
            (Evaluators.expr_grows C.right count' _ _),
          fun _ _ hstate => .cut_continues hcut (.of_eq hstate.printed)
            (Evaluators.statement_grows C.right count' _ _)⟩
  | succ count ih =>
      obtain ⟨count', rfl, hfewer⟩ := hbounds.succ
      have hparts := ih hfewer
      exact ⟨fun hexpr hadmits hstate =>
          hC.evaluate hparts (hC.likeness.expr hexpr) hadmits hstate,
        fun hstatement hadmits hstate =>
          hC.execute hparts hfewer (hC.likeness.statement hstatement) hadmits hstate⟩

/-- Statements that stand for each other, one by one, keep the runs together. -/
theorem executeAll (hC : C.Lawful) (hbounds : C.Bounds count count')
    {statements statements' : List Statement}
    (h : List.Forall₂ C.likeness.statement statements statements')
    (hadmits : C.admits (.statements .null statements) state) (hstate : C.state state state') :
    C.Agree C.value (Statement.executeAll C.left count statements state)
      (Statement.executeAll C.right count' statements' state') :=
  hC.statements (hC.sound hbounds) h .null hadmits hstate

end Lawful

/-! ## Tasks -/

variable (C) in
/-- Tasks of the two runs that stand for each other. -/
inductive Tasks : Task → Task → Prop where
  | expr {expr expr'} : C.likeness.expr expr expr' → Tasks (.expr expr) (.expr expr')
  | exprs {exprs exprs'} :
    List.Forall₂ C.likeness.expr exprs exprs' → Tasks (.exprs exprs) (.exprs exprs')
  | pairs {entries entries' pairs pairs'} :
    List.Forall₂ (Entry.Alike C.likeness) entries entries' →
    List.Forall₂ C.likeness.pair pairs pairs' →
    Tasks (.pairs entries pairs) (.pairs entries' pairs')
  | statement {statement statement'} :
    C.likeness.statement statement statement' → Tasks (.statement statement) (.statement statement')
  | statements {last last' statements statements'} :
    C.value last last' → List.Forall₂ C.likeness.statement statements statements' →
    Tasks (.statements last statements) (.statements last' statements')
  | forEach {name body body' elements elements'} :
    C.likeness.block body body' → C.values elements elements' →
    Tasks (.forEach name body elements) (.forEach name body' elements')
  | whileTrue {condition condition' body body'} :
    C.likeness.expr condition condition' → C.likeness.block body body' →
    Tasks (.whileTrue condition body) (.whileTrue condition' body')
  | call {location location' callee callee' arguments arguments'} :
    C.likeness.place location location' → C.value callee callee' → C.values arguments arguments' →
    Tasks (.call location callee arguments) (.call location' callee' arguments')

omit [Host] in
/-- The single value of a task. -/
theorem Agree.single {evaluation evaluation' : Evaluation Value}
    (h : C.Agree C.value (evaluation state) (evaluation' state')) :
    C.Agree C.values ((do let value ← evaluation; Pure.pure [value] : Evaluation _) state)
      ((do let value ← evaluation'; Pure.pure [value] : Evaluation _) state') :=
  h.bind (fun _ => .pure _) fun _ hvalue hlast => .ok (.cons hvalue .nil) hlast

/-- Tasks that stand for each other keep the runs together. -/
theorem Lawful.task (hC : C.Lawful) (hbounds : C.Bounds count count') {task task' : Task}
    (h : C.Tasks task task') (hadmits : C.admits task state) (hstate : C.state state state') :
    C.Agree C.values (task.evaluate C.left count state) (task'.evaluate C.right count' state') := by
  have hparts := hC.sound hbounds
  cases h with
  | expr h => exact (hparts.expr h hadmits hstate).single
  | exprs h => exact hC.exprs hparts h hadmits hstate
  | pairs hentries h =>
      exact (hC.pairs hparts h hentries hadmits hstate).bind (fun _ => .pure _)
        fun _ hentries hlast => .ok (Value.Alike.keysAndValues hentries) hlast
  | statement h => exact (hparts.statement h hadmits hstate).single
  | statements hlast h => exact (hC.statements hparts h hlast hadmits hstate).single
  | forEach hbody h => exact (hC.forEach hparts _ hbody h hadmits hstate).single
  | whileTrue hcondition hbody =>
      exact (hC.whileTrue hparts hcondition hbody hbounds hadmits hstate).single
  | call hlocation hcallee h =>
      exact (hC.call hparts hlocation hcallee h hadmits hstate).single

end Comparison

end Script
