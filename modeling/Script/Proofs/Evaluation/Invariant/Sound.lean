import Script.Proofs.Evaluation.Operation

/-!
# Invariants of whole evaluations

Every evaluation keeps a lawful invariant, whatever its outcome: `Invariant.Lawful.sound`, by one
induction over the bound on nested evaluations. Each construct keeps it when its parts do.
-/

namespace Script

namespace Invariant

variable {I : Invariant} {world : I.World}

/-- A frame made of bindings binds their values only. -/
theorem value_ofPairs (bindings : List (String × Value)) (h : ∀ b ∈ bindings, I.value world b.2)
    {binding : String × Value} (hbinding : binding ∈ Frame.ofPairs bindings) :
    I.value world binding.2 := by
  suffices hfold : ∀ frame : Frame, (∀ b ∈ frame, I.value world b.2) →
      ∀ b ∈ bindings.foldl (fun frame pair => frame.put pair.1 pair.2) frame, I.value world b.2 from
    hfold [] (List.forall_mem_nil _) binding hbinding
  clear hbinding
  induction bindings with
  | nil => exact fun frame hframe => hframe
  | cons first rest ih =>
      intro frame hframe
      refine ih (fun b hb => h b (.tail _ hb)) _ fun b hb => ?_
      rcases Frame.mem_put hb with rfl | hb
      · exact h first (.head _)
      · exact hframe b hb

variable [Host]

/-! ## Operations -/

namespace Lawful

/-- What holds of a value holds of its parts. -/
theorem hereditary (hI : I.Lawful) (world : I.World) :
    Value.Hereditary (I.value world) (I.entries world) :=
  ⟨hI.plain, hI.elements, hI.filed, hI.parts, hI.entries_erase⟩

/-- An operator gives a value without parts. -/
theorem computed (hI : I.Lawful) {result : Except Fault Value} (h : Value.Computed result) :
    I.Keeps I.value world (Evaluation.ofExcept result) :=
  hI.ofExcept fun _ hvalue => hI.plain (by subst hvalue; exact h)

/-- What is found in a collection is a value of the world. -/
theorem index (hI : I.Lawful) {collection place : Value} (hvalue : I.value world collection) :
    I.Keeps I.value world (Evaluation.ofExcept (collection.index place)) :=
  hI.ofExcept fun _ => (hI.hereditary world).index hvalue

/-- A builtin function makes values of the world out of values of the world. -/
theorem builtin (hI : I.Lawful) (sink : Sink) (function : Builtin) {arguments : List Value}
    (h : I.values world arguments) : I.Keeps I.value world (function.call sink arguments) := by
  have hacts := function.call_acts sink arguments
  generalize function.call sink arguments = evaluation at hacts ⊢
  cases hacts with
  | raise => exact hI.raise _
  | plain hplain => exact hI.pure (hI.plain hplain)
  | newArray helements => exact hI.newArray (helements _ _ (hI.hereditary world) h)
  | newHash hfiled => exact hI.newHash (hfiled _ _ (hI.hereditary world) h)
  | crash => exact hI.still (fun _ => rfl) trivial
  | print line => exact hI.bind (hI.printLine _ line) fun _ _ _ _ => hI.pure (hI.plain rfl)

end Lawful

/-! ## Constructs -/

variable (I) in
/-- The parts of a construct keep the invariant. -/
structure Sound (parts : Evaluators) : Prop where
  expr (world : I.World) (expr : Expr) : I.Keeps I.value world (parts.expr expr)
  statement (world : I.World) (statement : Statement) :
    I.Keeps I.value world (parts.statement statement)

namespace Lawful

variable {parts : Evaluators}

theorem statements (hI : I.Lawful) (hparts : I.Sound parts) {last : Value}
    (statements : List Statement) (hlast : I.value world last) :
    I.Keeps I.value world (parts.statements last statements) := by
  induction statements generalizing world last with
  | nil => exact hI.pure hlast
  | cons statement rest ih =>
      exact hI.bind (hparts.statement world statement) fun _ _ _ hvalue => ih hvalue

theorem block (hI : I.Lawful) (hparts : I.Sound parts) (block : Block) :
    I.Keeps I.value world (parts.block block) :=
  hI.statements hparts _ (hI.plain rfl)

theorem exprs (hI : I.Lawful) (hparts : I.Sound parts) (exprs : List Expr) :
    I.Keeps I.values world (parts.exprs exprs) := by
  induction exprs generalizing world with
  | nil => exact hI.pure (List.forall_mem_nil _)
  | cons expr rest ih =>
      refine hI.bind (hparts.expr world expr) fun middle value _ hvalue => ?_
      refine hI.bind ih fun last values hleads hvalues => ?_
      exact hI.pure (List.forall_mem_cons.2 ⟨hI.within hleads _ hvalue, hvalues⟩)

theorem pairs (hI : I.Lawful) (hparts : I.Sound parts) {entries : List Entry} (pairs : List Pair)
    (hentries : I.entries world entries) :
    I.Keeps I.entries world (parts.pairs entries pairs) := by
  induction pairs generalizing world entries with
  | nil => exact hI.pure hentries
  | cons pair rest ih =>
      refine hI.bind (hparts.expr world pair.key) fun middle key hkeyLeads hkey => ?_
      cases hhash : key.hashKey? with
      | none => exact hI.raise _
      | some hashKey =>
          refine hI.bind (hparts.expr middle pair.value) fun last value hleads hvalue => ?_
          have hentries' := hI.entries_leads hleads (hI.entries_leads hkeyLeads hentries)
          exact ih (hI.entries_insert hentries' (hI.within hleads _ hkey) hvalue hhash)

theorem forEach (hI : I.Lawful) (hparts : I.Sound parts) (name : String) (body : Block)
    {elements : List Value} (h : I.values world elements) :
    I.Keeps I.value world (parts.forEach name body elements) := by
  induction elements generalizing world with
  | nil => exact hI.pure (hI.plain rfl)
  | cons element rest ih =>
      refine hI.bind (hI.define name (h element (.head _))) fun first _ hfirst _ => ?_
      refine hI.bind (hI.block hparts body).settleIteration fun second goesOn hsecond _ => ?_
      split
      · exact ih fun other hother =>
          hI.within hsecond _ (hI.within hfirst _ (h other (.tail _ hother)))
      · exact hI.pure (hI.plain rfl)

theorem whileTrue (hI : I.Lawful) (hparts : I.Sound parts) (condition : Expr) (body : Block)
    (count : Nat) : I.Keeps I.value world (parts.whileTrue condition body count) := by
  induction count generalizing world with
  | zero => exact hI.exhausted
  | succ count ih =>
      refine hI.bind (hparts.expr world condition) fun first value _ _ => ?_
      split
      · refine hI.bind (hI.block hparts body).settleIteration fun second goesOn _ _ => ?_
        split
        · exact ih
        · exact hI.pure (hI.plain rfl)
      · exact hI.pure (hI.plain rfl)

/-- A call runs the body in a frame on top of the frames that the function was created under. -/
theorem callFunction (hI : I.Lawful) (hparts : I.Sound parts) (settings : Settings)
    (location : Location) {identity : Identity} {closure : Environment} {literal : FunctionLiteral}
    {arguments : List Value} (hcallee : I.value world (.function identity closure literal))
    (harguments : I.values world arguments) :
    I.Keeps I.value world
      (parts.callFunction settings location closure literal arguments) := by
  unfold Evaluators.callFunction
  dsimp only
  split
  · exact hI.raise _
  · refine .withState fun current => ?_
    split
    · exact hI.still (fun _ => rfl) trivial
    · -- counting the call changes no value: the function and its arguments are still valid
      refine .settleCall (hI.asCall fun counted hcounted => ?_)
      refine hI.withFrame (hI.closure (hcounted _ hcallee)) ?_ fun inner _ => hI.block hparts _
      exact fun binding hbinding => value_ofPairs _ (fun b hb =>
        hcounted _ (harguments _ (List.of_mem_zip hb).2)) hbinding

/-- Calls keep the invariant, whatever is called. -/
theorem call (hI : I.Lawful) (hparts : I.Sound parts) (settings : Settings) (location : Location)
    {callee : Value} {arguments : List Value} (hcallee : I.value world callee)
    (harguments : I.values world arguments) :
    I.Keeps I.value world (parts.call settings location callee arguments) := by
  unfold Evaluators.call
  split
  · exact hI.callFunction hparts settings location hcallee harguments
  · exact hI.builtin _ _ harguments
  · exact hI.raise _

/-- An expression keeps the invariant if its parts do. -/
theorem evaluate (hI : I.Lawful) (hparts : I.Sound parts) (settings : Settings) (expr : Expr) :
    I.Keeps I.value world (parts.evaluate settings expr) := by
  cases expr with
  | identifier name => exact hI.lookup name
  | integer | float | boolean | string => exact hI.pure (hI.plain rfl)
  | array location elements =>
      exact hI.bind (hI.exprs hparts elements) fun _ _ _ hvalues => hI.newArray hvalues
  | hash location pairs =>
      exact hI.bind (hI.pairs hparts pairs hI.entries_nil) fun _ _ _ hentries =>
        hI.newHash hentries
  | function literal => exact hI.newFunction literal
  | unary location operator operand =>
      exact hI.bind (hparts.expr world operand) fun _ _ _ _ =>
        hI.computed (operator.apply_computed _)
  | binary location left operator right =>
      refine hI.bind (hparts.expr world left) fun middle _ _ _ => ?_
      exact hI.bind (hparts.expr middle right) fun _ _ _ _ =>
        hI.computed (operator.apply_computed _ _)
  | assign location target value =>
      refine hI.bind (hparts.expr world value) fun middle _ _ hvalue => ?_
      exact hI.bind (hI.assign target hvalue) fun _ _ hleads _ =>
        hI.pure (hI.within hleads _ hvalue)
  | index location collection index =>
      refine hI.bind (hparts.expr world collection) fun middle _ _ hvalue => ?_
      exact hI.bind (hparts.expr middle index) fun _ _ hleads _ =>
        hI.index (hI.within hleads _ hvalue)
  | call location callee arguments =>
      refine hI.bind (hparts.expr world callee) fun middle _ _ hcallee => ?_
      exact hI.bind (hI.exprs hparts arguments) fun _ _ hleads harguments =>
        hI.call hparts settings location (hI.within hleads _ hcallee) harguments
  | conditional location condition consequence alternative =>
      refine hI.bind (hparts.expr world condition) fun middle value _ _ => ?_
      split
      · exact hI.block hparts consequence
      · cases alternative with
        | some alternative => exact hI.block hparts alternative
        | none => exact hI.pure (hI.plain rfl)

/-- The handler of an error sees the error in a frame of its own. -/
theorem handle (hI : I.Lawful) (hparts : I.Sound parts) (name : Identifier) (handler : Block)
    (fault : Fault) : I.Keeps I.value world (parts.handle name handler fault) := by
  refine hI.bind (hI.newError fault) fun middle error _ herror => ?_
  exact hI.withChildFrame (List.forall_mem_singleton.2 herror) fun inner _ =>
    hI.block hparts handler

/-- A body whose errors are handled. -/
theorem caught (hI : I.Lawful) (hparts : I.Sound parts) (body : Block) (name : Identifier)
    (handler : Block) :
    I.Keeps I.value world
      (Evaluation.handling (parts.block body) (parts.handle name handler)) :=
  hI.handling (hI.block hparts body) fun _ fault _ => hI.handle hparts name handler fault

/-- A statement keeps the invariant if its parts do. -/
theorem execute (hI : I.Lawful) (hparts : I.Sound parts) (count : Nat) (statement : Statement) :
    I.Keeps I.value world (parts.execute count statement) := by
  cases statement with
  | letBinding location target value =>
      -- the value is bound in the world that its own evaluation led to
      refine hI.bind (hparts.expr world value) fun middle _ _ hvalue => ?_
      exact hI.bind (hI.define target.name hvalue) fun _ _ _ _ => hI.pure (hI.plain rfl)
  | returnValue location value =>
      exact hI.bind (hparts.expr world value) fun _ _ _ hvalue => hI.still (fun _ => rfl) hvalue
  | expression first value => exact hparts.expr world value
  | forLoop location element iterable body =>
      refine hI.bind (hparts.expr world iterable) fun middle value _ hvalue => ?_
      cases helements : value.elements? with
      | none => exact hI.raise _
      | some elements =>
          have hvalues := (hI.hereditary middle).elements? hvalue helements
          exact hI.withChildFrame (List.forall_mem_nil _) fun inner hwithin =>
            hI.forEach hparts element.name body fun element h => hwithin _ (hvalues element h)
  | whileLoop location condition body =>
      exact hI.withChildFrame (List.forall_mem_nil _) fun inner _ =>
        hI.whileTrue hparts condition body count
  | breakLoop location => exact hI.still (fun _ => rfl) trivial
  | continueLoop location => exact hI.still (fun _ => rfl) trivial
  | tryCatch location body error handler finalizer =>
      -- the finalizer runs after the handler, if there is one
      have hcaught : I.Keeps I.value world _ := hI.caught hparts body error handler
      cases finalizer with
      | none => exact hcaught
      | some finalizer => exact hI.ensuring hcaught fun _ _ => hI.block hparts finalizer

/-- Every evaluation keeps a lawful invariant. -/
theorem sound (hI : I.Lawful) (settings : Settings) (count : Nat) :
    I.Sound ⟨Expr.evaluate settings count, Statement.execute settings count⟩ := by
  induction count with
  | zero => exact ⟨fun _ _ => hI.exhausted, fun _ _ => hI.exhausted⟩
  | succ count ih =>
      exact ⟨fun _ expr => hI.evaluate ih settings expr,
        fun _ statement => hI.execute ih count statement⟩

end Lawful

end Invariant

end Script
