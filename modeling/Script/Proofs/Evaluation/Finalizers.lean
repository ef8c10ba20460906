import Mathlib.Data.List.Forall2
import Script.Proofs.Evaluation.Bindings
import Script.Proofs.Evaluation.Encapsulation
import Script.Proofs.Evaluation.Ending
import Script.Proofs.Evaluation.Places

/-!
# Handlers and finalizers

When the handler and the finalizer of a `try` statement run, where, and what the statement comes to.
A `try` statement may be started in the course of another one, in a loop or a call as well as in the
block itself. When the outermost one ends, and is not aborted, all finalizers have run once, those
of the inner statements first: `Attempt.nest_finalized`. The main result is `try_statements`.
-/

namespace Script

open Filter Evaluation Occurrence

/-- The frames of a chain exist. -/
theorem Links.Chain.lt {links : Links} {environment : Environment} (h : links.Chain environment) :
    ∀ id ∈ environment, id < links.length + 1 := by
  induction h with
  | root => exact List.forall_mem_singleton.2 (Nat.succ_pos _)
  | inner hlink _ ih =>
      obtain ⟨hid, -⟩ := List.getElem?_eq_some_iff.1 hlink
      exact List.forall_mem_cons.2 ⟨Nat.succ_lt_succ hid, ih⟩

section Attempts

variable [Host]

/-! ## Body and handler -/

namespace Task

variable {settings : Settings} {state middle : State} {location : Location}
  {body handler finalizer : Block} {error : Identifier} {fault : Fault}

/-- A frame that is made after a part of a task has ended is not visible where the task started. -/
theorem Ends.fresh {task part : Task} {outcome : Except Interrupt (List Value)}
    (hpart : part.Ends settings state outcome middle) (hvisited : Visited settings task state) :
    middle.store.frames.size ∉ state.environment := by
  intro hvisible
  obtain ⟨links, hlinked, -⟩ := (State.Reachable.starting hvisited).linked
  obtain ⟨-, count, heval⟩ := hpart
  obtain ⟨size, hconfined, -⟩ := part.confined settings count state
  rw [heval] at hconfined
  have hlt := hlinked.current.lt _ hvisible
  rw [hconfined.size, ← hlinked.size] at hlt
  exact absurd hconfined.grown (Nat.not_le.2 hlt)

/-- A task that has come to an end is back in its environment, and outside of its calls. -/
theorem Ends.restored {task : Task} {outcome : Except Interrupt (List Value)}
    (h : task.Ends settings state outcome middle) :
    middle.environment = state.environment ∧ middle.depth = state.depth := by
  rw [← h.backTo_eq]
  exact ⟨rfl, rfl⟩

/-- A fault of the body starts the handler, which sees the error in a new frame. The handler decides
on the outcome. -/
theorem attempt_caught (location : Location) (error : Identifier) (handler : Block)
    (hbody : (block body).Ends settings state (.error (.raised fault)) middle) :
    let inHandler := State.enter { middle with identities := middle.identities + 1 }
      state.environment [(error.name, .error middle.identities fault)]
    (∀ᶠ count in atTop, (attempt location body error handler none).parts settings count state =
      [(.block body, state), (.block handler, inHandler)]) ∧
    ∀ outcome last, (block handler).Ends settings inHandler outcome last →
      (attempt location body error handler none).Ends settings state outcome
        (last.backTo state) := by
  intro inHandler
  have herror : newError fault middle =
      (.ok (.error middle.identities fault), { middle with identities := middle.identities + 1 }) :=
    rfl
  constructor
  · filter_upwards [hbody.eventually] with count hcount
    simp only [evaluate, mapped_error_iff] at hcount
    simp [parts, handlerPart, finalizerPart, onward, Evaluators.block, hcount, herror,
      hbody.restored.1, inHandler]
  · intro outcome last hhandler
    have hends : (attempt location body error handler none).Ends settings state outcome
        { last with environment := state.environment } := by
      obtain ⟨count, hcount, hlast⟩ := (hbody.eventually.and hhandler.eventually).exists
      refine ⟨hhandler.1, count + 1, ?_⟩
      simp only [evaluate, mapped_error_iff] at hcount
      rw [evaluate, single_apply] at hlast
      have hhandled : handling ((Evaluators.upTo settings count).block body)
          ((Evaluators.upTo settings count).handle error handler) state =
            restore state.environment
              ((Evaluators.upTo settings count).block handler inHandler) := by
        simp only [handling, Evaluators.block, hcount, Evaluators.handle, bind_apply, herror,
          withChildFrame_apply, hbody.restored.1, inHandler]
      obtain ⟨rfl, rfl⟩ := Prod.mk.inj hlast
      rw [evaluate, single_apply, Statement.execute, Evaluators.execute, hhandled]
      rfl
    rw [← hends.backTo_eq] at hends
    exact hends

/-- Any other outcome of the body is that of the statement, and the handler is not started. -/
theorem attempt_uncaught (location : Location) (error : Identifier) (handler : Block)
    {outcome : Except Interrupt (List Value)}
    (hbody : (block body).Ends settings state outcome middle)
    (hnot : ∀ fault, outcome ≠ .error (.raised fault)) :
    (∀ᶠ count in atTop, (attempt location body error handler none).parts settings count state =
      [(.block body, state)]) ∧
    (attempt location body error handler none).Ends settings state outcome middle := by
  have hhandled : ∀ᶠ count in atTop, ∃ ended, outcome = ended.map (fun value => [value]) ∧
      (Evaluators.upTo settings count).block body state = (ended, middle) ∧
      (∀ fault, ended ≠ .error (.raised fault)) := by
    filter_upwards [hbody.eventually] with count hcount
    rw [evaluate, single_apply] at hcount
    obtain ⟨rfl, rfl⟩ := Prod.mk.inj hcount
    refine ⟨_, rfl, rfl, fun fault hraised => hnot fault ?_⟩
    rw [hraised]
    rfl
  constructor
  · filter_upwards [hhandled] with count hcount
    obtain ⟨ended, -, hcount, hother⟩ := hcount
    have hnone : handlerPart (ended, middle) error handler = [] := by
      unfold handlerPart
      split
      · next heq => exact absurd (congrArg Prod.fst heq) (hother _)
      · rfl
    simp [parts, hcount, hnone, finalizerPart]
  · obtain ⟨count, ended, rfl, hcount, hother⟩ := hhandled.exists
    refine ⟨hbody.1, count + 1, ?_⟩
    rw [evaluate, single_apply, Statement.execute, Evaluators.execute]
    have hplain : handling ((Evaluators.upTo settings count).block body)
        ((Evaluators.upTo settings count).handle error handler) state = (ended, middle) := by
      unfold handling
      split
      · next heq => exact absurd (congrArg Prod.fst (hcount.symm.trans heq)) (hother _)
      · exact hcount
    rw [hplain]

/-- Nor is it when the body does not end. -/
theorem attempt_endless (location : Location) (error : Identifier) (handler : Block)
    (hbody : (block body).Endless settings state) :
    (∀ count, (attempt location body error handler none).parts settings count state =
      [(.block body, state)]) ∧
    (attempt location body error handler none).Endless settings state := by
  refine ⟨fun count => ?_, Starts.tried.endless hbody⟩
  obtain ⟨last, hcut⟩ := hbody count
  simp only [evaluate, mapped_error_iff] at hcut
  simp [parts, handlerPart, finalizerPart, Evaluators.block, hcut]

end Task

/-! ## Finalizers -/

/-- A `try` statement with a finalizer, and the state in which it starts. -/
structure Attempt where
  location : Location
  body : Block
  /-- The name of the error in the handler. -/
  error : Identifier
  handler : Block
  finalizer : Block
  start : State

namespace Attempt

variable {settings : Settings} {attempt outer inner : Attempt} {count : Nat}
  {outcome : Except Interrupt (List Value)} {last middle : State}

/-- The whole statement. -/
def task (attempt : Attempt) : Task :=
  .attempt attempt.location attempt.body attempt.error attempt.handler (some attempt.finalizer)

/-- Its body and its handler: the statement without the finalizer. -/
def guarded (attempt : Attempt) : Task :=
  .attempt attempt.location attempt.body attempt.error attempt.handler none

/-- Body and handler of a statement that ends without an abort end without one as well. -/
theorem guarded_ends (h : attempt.task.Ends settings attempt.start outcome last)
    (haborts : aborts outcome = false) :
    ∃ ended middle, attempt.guarded.Ends settings attempt.start ended middle ∧
      aborts ended = false := by
  rcases Task.ends_or_endless settings attempt.guarded attempt.start with
    ⟨ended, middle, hguarded⟩ | hguarded
  · refine ⟨ended, middle, hguarded, Bool.eq_false_iff.2 fun hended => ?_⟩
    obtain ⟨cause, rfl, hcause⟩ | rfl := aborts_iff_isFatal.1 hended
    · obtain ⟨hwhole, -⟩ := Task.attempt_aborted attempt.finalizer hcause hguarded
      obtain ⟨rfl, -⟩ := h.unique hwhole
      rw [aborts_iff_isFatal.2 (.inl ⟨cause, rfl, hcause⟩)] at haborts
      cases haborts
    · exact hguarded.1 rfl
  · -- what exceeds every bound does so with a finalizer, too
    refine absurd h (Task.Endless.not_ends (.of_eventually (.of_forall fun count => ?_)))
    obtain ⟨last, hcut⟩ := hguarded (count + 1)
    simp only [guarded, Task.evaluate, mapped_error_iff, Statement.execute, Evaluators.execute]
      at hcut
    exact ⟨count + 1, Nat.le_succ count, Task.attempt_cut hcut (some attempt.finalizer)⟩

/-- The second statement is started in the course of the body or the handler of the first one. -/
def Encloses (settings : Settings) (outer inner : Attempt) : Prop :=
  ∃ enclosing, Reaches settings outer.guarded outer.start enclosing inner.task inner.start

/-- The course of the inner statement is a piece of what the parts of the outer one come to. -/
theorem Encloses.infix_course (h : outer.Encloses settings inner) :
    ∃ extra, ∀ᶠ count in atTop, ∃ place, ∀ depth,
      (inner.task.course settings count (depth + 1) inner.start).map (within place) <:+:
        among (Task.course settings count (depth + extra)) 0
          (outer.guarded.parts settings count outer.start) := by
  obtain ⟨enclosing, hreaches⟩ := h
  refine ⟨enclosing.length, ?_⟩
  filter_upwards [hreaches.infix_course] with count ⟨place, _, hcontains⟩
  refine ⟨place, fun depth => ?_⟩
  have hpiece := hcontains (depth + 1)
  rw [Nat.add_right_comm, Task.course] at hpiece
  refine (List.infix_cons_iff.1 hpiece).resolve_left fun hstart => ?_
  -- the first task of the piece has a finalizer
  rw [List.map_cons, List.cons_prefix_cons] at hstart
  have htask : inner.task = outer.guarded := congrArg Occurrence.task hstart.1
  simp [task, guarded] at htask

/-- The finalizer is the last part of the statement, and starts in the environment of the
statement. -/
structure Finalized (settings : Settings) (count : Nat) (course : List Occurrence)
    (attempt : Attempt) (final : Occurrence) : Prop where
  task : final.task = .block attempt.finalizer
  environment : final.state.environment = attempt.start.environment
  parts : attempt.task.parts settings count attempt.start =
    attempt.guarded.parts settings count attempt.start ++ [(final.task, final.state)]
  place : ∃ place, ⟨place, attempt.task, attempt.start⟩ ∈ course ∧
    final.place = place ++ [(attempt.guarded.parts settings count attempt.start).length]

/-- Seen from further outside. -/
theorem Finalized.within {course wider : List Occurrence} {final : Occurrence}
    (h : attempt.Finalized settings count course final) {outside : List Nat}
    (hcourse : course.map (within outside) ⊆ wider) :
    attempt.Finalized settings count wider (final.within outside) where
  task := h.task
  environment := h.environment
  parts := h.parts
  place := by
    obtain ⟨place, hmem, hplace⟩ := h.place
    refine ⟨outside ++ place, hcourse (List.mem_map_of_mem hmem), ?_⟩
    rw [Occurrence.within, hplace, List.append_assoc]

/-- In the course of a statement that is not aborted the finalizer comes after all that body and
handler come to. -/
theorem finalized (h : attempt.guarded.Ends settings attempt.start outcome middle)
    (haborts : aborts outcome = false) :
    ∀ᶠ count in atTop, ∃ number, ∀ depth, ∃ rest,
      let final : Occurrence := ⟨[number], .block attempt.finalizer, middle⟩
      let course := attempt.task.course settings count (depth + 1) attempt.start
      attempt.Finalized settings count course final ∧
        course = ⟨[], attempt.task, attempt.start⟩ ::
          (among (Task.course settings count depth) 0
            (attempt.guarded.parts settings count attempt.start) ++ final :: rest) := by
  obtain ⟨hparts, -⟩ := Task.attempt_finalized attempt.finalizer h haborts
  filter_upwards [hparts] with count hparts
  have hparts : attempt.task.parts settings count attempt.start =
      attempt.guarded.parts settings count attempt.start ++ [(.block attempt.finalizer, middle)] :=
    hparts
  let number := (attempt.guarded.parts settings count attempt.start).length
  refine ⟨number, fun depth => ?_⟩
  obtain ⟨rest, hrest⟩ : ∃ rest, (Task.block attempt.finalizer).course settings count depth middle =
      ⟨[], .block attempt.finalizer, middle⟩ :: rest := Task.course_head ..
  refine ⟨rest.map (within [number]), ⟨rfl, h.restored.1, hparts, [], List.mem_cons_self, rfl⟩, ?_⟩
  rw [Task.course, hparts, among_append, among, among, hrest, List.append_nil, List.map_cons,
    Nat.zero_add]
  rfl

/-- When the outermost one of nested statements ends without an abort, all finalizers have run once,
those of inner statements before those of outer ones. -/
theorem nest_finalized {outermost : Attempt} {nest : List Attempt}
    (hnest : (outermost :: nest).IsChain (Encloses settings))
    (h : outermost.task.Ends settings outermost.start outcome last)
    (haborts : aborts outcome = false) :
    ∃ levels, ∀ᶠ count in atTop, ∀ depth, levels ≤ depth →
      let course := outermost.task.course settings count depth outermost.start
      ∃ finals, List.Forall₂ (Finalized settings count course) (outermost :: nest) finals ∧
        finals.reverse.Sublist course := by
  induction nest generalizing outermost outcome last with
  | nil =>
      obtain ⟨ended, middle, hguarded, hended⟩ := guarded_ends h haborts
      refine ⟨1, ?_⟩
      filter_upwards [finalized hguarded hended] with count ⟨number, hfinal⟩
      intro depth hdepth
      obtain ⟨depth, rfl⟩ := Nat.exists_eq_add_of_le' hdepth
      obtain ⟨rest, hlast, hcourse⟩ := hfinal depth
      refine ⟨[_], .cons hlast .nil, ?_⟩
      rw [hcourse, List.reverse_singleton, List.singleton_sublist]
      exact .tail _ (List.mem_append_right _ (.head _))
  | cons next nest ih =>
      obtain ⟨henclose, hinner⟩ := List.isChain_cons_cons.1 hnest
      obtain ⟨ended, middle, hguarded, hended⟩ := guarded_ends h haborts
      obtain ⟨enclosing, hreaches⟩ := henclose
      obtain ⟨_, _, hnext, hgoes⟩ := hreaches.ends hguarded hended
      obtain ⟨levels, hlevels⟩ := ih hinner hnext hgoes
      obtain ⟨extra, hextra⟩ := Encloses.infix_course ⟨enclosing, hreaches⟩
      refine ⟨levels + extra + 1, ?_⟩
      filter_upwards [hlevels, hextra, finalized hguarded hended]
        with count hinner ⟨place, hcontains⟩ ⟨number, hfinal⟩
      intro depth hdepth
      obtain ⟨depth, rfl⟩ : ∃ less, depth = less + extra + 1 := by
        obtain ⟨more, rfl⟩ := Nat.exists_eq_add_of_le hdepth
        exact ⟨levels + more, by omega⟩
      obtain ⟨finals, hfinals, hsublist⟩ := hinner (depth + 1) (by omega)
      obtain ⟨rest, hlast, hcourse⟩ := hfinal (depth + extra)
      have hpiece := (hcontains depth).sublist
      refine ⟨_ :: finals.map (within place), .cons hlast ?_, ?_⟩
      · refine List.forall₂_map_right_iff.2 (hfinals.imp fun attempt final hattempt => ?_)
        refine hattempt.within fun occurrence hmem => ?_
        rw [hcourse]
        exact .tail _ (List.mem_append_left _ (hpiece.subset hmem))
      · have hfront := (hsublist.map (within place)).trans hpiece
        rw [List.reverse_cons, ← List.map_reverse, hcourse]
        exact ((hfront.append ((List.nil_sublist rest).cons_cons _)).cons _)

end Attempt

/-- What `try` statements do, in every state.

When the body ends in a fault the handler starts, in a new frame on top of the environment of the
statement, with the name of the error bound to the error value. It starts after no other outcome of
the body, and not when the body never ends. The outcome of the handler is that of the statement
without its finalizer, and so is the one of the body where no handler starts.

After body and handler the evaluation is back in the environment of the statement, in which the
frame of the handler is not visible. An abort is passed on. After every other outcome the finalizer
is started, once and there. If it gives a value, the outcome of body and handler stands, and
otherwise the finalizer interrupts the statement.

So let statements with finalizers be nested: each one is started in the course of the body or the
handler of the one before. When the first one ends, by a `return`, a `break`, a `continue` or in any
way but an abort, all their finalizers are in its course, each as the last part of its own
statement, and innermost first. No place in the course is taken twice. -/
theorem try_statements (settings : Settings) :
    (∀ (attempt : Attempt) fault middle,
      (Task.block attempt.body).Ends settings attempt.start (.error (.raised fault)) middle →
        let error : Value := .error middle.identities fault
        let inHandler := State.enter { middle with identities := middle.identities + 1 }
          attempt.start.environment [(attempt.error.name, error)]
        (∀ᶠ count in atTop, attempt.guarded.parts settings count attempt.start =
          [(.block attempt.body, attempt.start), (.block attempt.handler, inHandler)]) ∧
        inHandler.store.find? inHandler.environment attempt.error.name = some error ∧
        (∀ task, Visited settings task attempt.start →
          middle.store.frames.size ∉ attempt.start.environment) ∧
        ∀ outcome last, (Task.block attempt.handler).Ends settings inHandler outcome last →
          attempt.guarded.Ends settings attempt.start outcome (last.backTo attempt.start)) ∧
    (∀ (attempt : Attempt) outcome middle,
      (Task.block attempt.body).Ends settings attempt.start outcome middle →
      (∀ fault, outcome ≠ .error (.raised fault)) →
        (∀ᶠ count in atTop, attempt.guarded.parts settings count attempt.start =
          [(.block attempt.body, attempt.start)]) ∧
        attempt.guarded.Ends settings attempt.start outcome middle) ∧
    (∀ (attempt : Attempt), (Task.block attempt.body).Endless settings attempt.start →
      (∀ count, attempt.guarded.parts settings count attempt.start =
        [(.block attempt.body, attempt.start)]) ∧
      attempt.guarded.Endless settings attempt.start) ∧
    (∀ (attempt : Attempt) outcome middle,
      attempt.guarded.Ends settings attempt.start outcome middle →
        middle.environment = attempt.start.environment ∧ middle.depth = attempt.start.depth ∧
        (aborts outcome = true →
          (∀ᶠ count in atTop, attempt.task.parts settings count attempt.start =
            attempt.guarded.parts settings count attempt.start) ∧
          attempt.task.Ends settings attempt.start outcome middle) ∧
        (aborts outcome = false →
          (∀ᶠ count in atTop, attempt.task.parts settings count attempt.start =
            attempt.guarded.parts settings count attempt.start ++
              [(.block attempt.finalizer, middle)]) ∧
          (∀ values last, (Task.block attempt.finalizer).Ends settings middle (.ok values) last →
            attempt.task.Ends settings attempt.start outcome last) ∧
          ∀ cause last, (Task.block attempt.finalizer).Ends settings middle (.error cause) last →
            attempt.task.Ends settings attempt.start (.error cause) last)) ∧
    (∀ (outermost : Attempt) nest outcome last,
      (outermost :: nest).IsChain (Attempt.Encloses settings) →
      outermost.task.Ends settings outermost.start outcome last → aborts outcome = false →
        ∃ levels, ∀ᶠ count in atTop, ∀ depth, levels ≤ depth →
          let course := outermost.task.course settings count depth outermost.start
          (course.map Occurrence.place).Nodup ∧
          ∃ finals, List.Forall₂ (Attempt.Finalized settings count course) (outermost :: nest)
              finals ∧ finals.reverse.Sublist course) := by
  refine ⟨?_, ?_, ?_, ?_, ?_⟩
  · intro attempt fault middle hbody error inHandler
    obtain ⟨hparts, houtcome⟩ :=
      Task.attempt_caught attempt.location attempt.error attempt.handler hbody
    refine ⟨hparts, ?_, fun task hvisited => hbody.fresh hvisited, houtcome⟩
    exact Store.find?_push_bound (by rw [Frame.find?, if_pos rfl]) attempt.start.environment
  · intro attempt outcome middle hbody hnot
    exact Task.attempt_uncaught attempt.location attempt.error attempt.handler hbody hnot
  · intro attempt hbody
    exact Task.attempt_endless attempt.location attempt.error attempt.handler hbody
  · intro attempt outcome middle hguarded
    refine ⟨hguarded.restored.1, hguarded.restored.2, fun haborts => ?_, fun haborts => ?_⟩
    · obtain ⟨cause, rfl, hcause⟩ | rfl := aborts_iff_isFatal.1 haborts
      · exact (Task.attempt_aborted attempt.finalizer hcause hguarded).symm
      · exact absurd rfl hguarded.1
    · exact Task.attempt_finalized attempt.finalizer hguarded haborts
  · intro outermost nest outcome last hnest hends haborts
    obtain ⟨levels, hlevels⟩ := Attempt.nest_finalized hnest hends haborts
    refine ⟨levels, hlevels.mono fun count hcount depth hdepth => ⟨?_, hcount depth hdepth⟩⟩
    exact Task.course_nodup depth outermost.task outermost.start

end Attempts

namespace Attempt

/-- The place of all that follows. -/
def somewhere : Location := ⟨1, 1⟩

/-- The statement `try { .. } catch e { } finally { }` at the start of a session. -/
def trying (body : List Statement) : Attempt :=
  let block (statements : List Statement) : Block := ⟨⟨.mark .leftBrace, somewhere⟩, statements⟩
  ⟨somewhere, block body, ⟨"e", somewhere⟩, block [], block [], .initial⟩

/-- The body is `return 1`. -/
def returning : Attempt :=
  trying [.returnValue somewhere (.integer somewhere "1" 1)]

/-- The body is the statement before. -/
def nesting : Attempt :=
  trying [.tryCatch somewhere returning.body returning.error returning.handler
    (some returning.finalizer)]

/-- The body is `1()`. -/
def failing : Attempt :=
  trying [.expression ⟨.integer "1", somewhere⟩
    (.call somewhere (.integer somewhere "1" 1) [])]

end Attempt

open Attempt in
open scoped Host in
/-- Both finalizers run, the inner one first, when the inner body returns. The fault in the last
body is bound to the name of the error in a new frame. -/
theorem try_statements_nesting :
    (∃ levels, ∀ᶠ count in atTop, ∀ depth, levels ≤ depth → ∃ first last : Occurrence,
      first.task = .block returning.finalizer ∧ last.task = .block nesting.finalizer ∧
        [first, last].Sublist (nesting.task.course .standard count depth .initial)) ∧
    (∀ᶠ count in atTop, returning.guarded.parts .standard count .initial =
      [(.block returning.body, .initial)]) ∧
    returning.task.Ends .standard .initial (.error (.returned (.integer 1))) .initial ∧
    ∀ᶠ count in atTop, failing.guarded.parts .standard count .initial =
      [(.block failing.body, .initial),
        (.block failing.handler, State.enter { State.initial with identities := 1 } Store.root
          [("e", .error 0 (.notCallable .integer))])] := by
  obtain ⟨hcaught, huncaught, -, hfinalized, hnested⟩ := try_statements .standard
  have hreturn : (Task.block returning.body).Ends .standard .initial
      (.error (.returned (.integer 1))) .initial := ⟨nofun, 3, rfl⟩
  obtain ⟨hparts, hguarded⟩ := huncaught returning _ _ hreturn fun _ heq => by cases heq
  refine ⟨?_, hparts, ?_, ?_⟩
  · have hends : nesting.task.Ends .standard .initial (.error (.returned (.integer 1))) .initial :=
      ⟨nofun, 6, rfl⟩
    have hinside : nesting.Encloses .standard returning :=
      ⟨_, .starts (.starts .here .tried) .firstStatement⟩
    obtain ⟨levels, hlevels⟩ :=
      hnested nesting [returning] _ _ (.cons_cons hinside (.singleton _)) hends rfl
    refine ⟨levels, hlevels.mono fun count hcount depth hdepth => ?_⟩
    obtain ⟨-, finals, hfinals, hsublist⟩ := hcount depth hdepth
    obtain ⟨last, _, hlast, hrest, rfl⟩ := List.forall₂_cons_left_iff.1 hfinals
    obtain ⟨first, _, hfirst, hnil, rfl⟩ := List.forall₂_cons_left_iff.1 hrest
    cases hnil
    exact ⟨first, last, hfirst.task, hlast.task, hsublist⟩
  · have hempty : (Task.block returning.finalizer).Ends .standard .initial (.ok [.null]) .initial :=
      ⟨nofun, 0, rfl⟩
    exact ((hfinalized returning _ _ hguarded).2.2.2 rfl).2.1 _ _ hempty
  · have hfault : (Task.block failing.body).Ends .standard .initial
        (.error (.raised (.notCallable .integer))) .initial := ⟨nofun, 4, rfl⟩
    exact (hcaught failing _ _ hfault).1

end Script
