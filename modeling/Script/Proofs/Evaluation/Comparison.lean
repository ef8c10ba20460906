import Script.Proofs.Evaluation.Output
import Script.Proofs.Value.Likeness

/-!
# Two runs side by side

A `Comparison` relates two runs: of the same program under different limits on nested calls, or of
programs that differ in their places. The runs go through alike states until the first one ends, or
is cut off by an interruption after which the second one only goes on printing. The combinators of
evaluations keep the runs together, whatever the outcome.
-/

namespace Script

/-! ## States that are alike -/

/-- The same names, bound to alike values. -/
def Frame.Alike (L : Likeness) (frame frame' : Frame) : Prop :=
  List.Forall₂ (fun binding binding' =>
    binding.1 = binding'.1 ∧ binding.2.Alike L binding'.2) frame frame'

/-- Alike frames at the same places. -/
structure Store.Alike (L : Likeness) (store store' : Store) : Prop where
  size : store.frames.size = store'.frames.size
  frame (id : FrameId) : (store.frame id).Alike L (store'.frame id)

/-- States that differ in their values only, and those are alike. -/
structure State.Alike (L : Likeness) (state state' : State) : Prop where
  store : state.store.Alike L state'.store
  environment : state.environment = state'.environment
  depth : state.depth = state'.depth
  identities : state.identities = state'.identities
  printed : state.printed = state'.printed

variable {L : Likeness}

namespace Frame.Alike

variable {frame frame' : Frame} {name : String} {value value' : Value}

theorem find? (h : frame.Alike L frame') :
    Option.Rel (Value.Alike L) (frame.find? name) (frame'.find? name) := by
  induction h with
  | nil => exact .none
  | @cons first first' _ _ hfirst _ ih =>
      obtain ⟨first, old⟩ := first
      obtain ⟨first', old'⟩ := first'
      obtain ⟨rfl, hvalue⟩ := hfirst
      simp only [Frame.find?]
      split
      · exact .some hvalue
      · exact ih

theorem binds_eq (h : frame.Alike L frame') : frame.binds name = frame'.binds name := by
  have hfound : Option.Rel (Value.Alike L) (frame.find? name) (frame'.find? name) := h.find?
  unfold Frame.binds
  generalize frame.find? name = found, frame'.find? name = found' at hfound
  cases hfound <;> rfl

theorem put (h : frame.Alike L frame') (hvalue : value.Alike L value') :
    (frame.put name value).Alike L (frame'.put name value') := by
  induction h with
  | nil => exact .cons ⟨rfl, hvalue⟩ .nil
  | @cons first first' _ _ hfirst hrest ih =>
      obtain ⟨first, old⟩ := first
      obtain ⟨first', old'⟩ := first'
      obtain ⟨rfl, hold⟩ := hfirst
      simp only [Frame.put]
      split
      · exact .cons ⟨rfl, hvalue⟩ hrest
      · exact .cons ⟨rfl, hold⟩ ih

/-- Parameters of the same names are bound to alike arguments. -/
theorem ofPairs {bindings bindings' : List (String × Value)}
    (h : Frame.Alike L bindings bindings') :
    (Frame.ofPairs bindings).Alike L (Frame.ofPairs bindings') := by
  suffices hfold : ∀ frame frame' : Frame, frame.Alike L frame' →
      Frame.Alike L (bindings.foldl (fun frame pair => frame.put pair.1 pair.2) frame)
        (bindings'.foldl (fun frame pair => frame.put pair.1 pair.2) frame') from
    hfold [] [] .nil
  induction h with
  | nil => exact fun _ _ hframe => hframe
  | @cons first first' _ _ hfirst _ ih =>
      intro frame frame' hframe
      obtain ⟨hname, hvalue⟩ := hfirst
      rw [List.foldl_cons, List.foldl_cons, hname]
      exact ih _ _ (hframe.put hvalue)

end Frame.Alike

/-- A function binds alike arguments to the same names. -/
theorem FunctionLiteral.SameForm.bind {first second : FunctionLiteral}
    {arguments arguments' : List Value} (h : first.SameForm L second)
    (harguments : List.Forall₂ (Value.Alike L) arguments arguments') :
    (first.bind arguments).Alike L (second.bind arguments') := by
  unfold FunctionLiteral.bind
  rw [h.parameters]
  refine Frame.Alike.ofPairs ?_
  generalize second.parameters.map Identifier.name = names
  induction harguments generalizing names with
  | nil =>
      rw [List.zip_nil_right]
      exact .nil
  | cons hfirst _ ih =>
      cases names with
      | nil => exact .nil
      | cons name names => exact .cons ⟨rfl, hfirst⟩ (ih names)

namespace Store.Alike

variable {store store' : Store} {environment : Environment} {name : String} {value value' : Value}

theorem holder?_eq (h : store.Alike L store') :
    store.holder? environment name = store'.holder? environment name := by
  unfold Store.holder?
  congr 1
  funext id
  exact (h.frame id).binds_eq

theorem find? (h : store.Alike L store') :
    Option.Rel (Value.Alike L) (store.find? environment name) (store'.find? environment name) := by
  unfold Store.find?
  induction environment with
  | nil => exact .none
  | cons id rest ih =>
      have hfound : Option.Rel (Value.Alike L) ((store.frame id).find? name)
        ((store'.frame id).find? name) := (h.frame id).find?
      rw [List.findSome?_cons, List.findSome?_cons]
      generalize (store.frame id).find? name = found, (store'.frame id).find? name = found'
        at hfound
      cases hfound with
      | some hvalue => exact .some hvalue
      | none => exact ih

theorem put (h : store.Alike L store') (id : FrameId) (hvalue : value.Alike L value') :
    (store.put id name value).Alike L (store'.put id name value') where
  size := by simpa only [Store.put, Array.size_modify] using h.size
  frame other := by
    have hother := h.frame other
    simp only [Store.frame, Store.put, Array.getElem?_modify] at hother ⊢
    split
    · -- both frames are there, or none of them
      by_cases hsize : other < store.frames.size
      · have hsize' : other < store'.frames.size := h.size ▸ hsize
        simp only [Array.getElem?_eq_getElem, hsize, hsize', Option.map_some,
          Option.getD_some] at hother ⊢
        exact Frame.Alike.put hother hvalue
      · have hsize' : ¬ other < store'.frames.size := h.size ▸ hsize
        simp only [Array.getElem?_eq_none, Nat.le_of_not_lt hsize, Nat.le_of_not_lt hsize',
          Option.map_none, Option.getD_none]
        exact .nil
    · exact hother

theorem push (h : store.Alike L store') {frame frame' : Frame} (hframe : frame.Alike L frame') :
    (store.push frame).Alike L (store'.push frame') where
  size := by simpa only [Store.push, Array.size_push, Nat.add_right_cancel_iff] using h.size
  frame other := by
    have hother := h.frame other
    simp only [Store.frame, Store.push, Array.getElem?_push, h.size] at hother ⊢
    split
    · exact hframe
    · exact hother

end Store.Alike

namespace State.Alike

/-- Alike frames on top of the same environment. -/
theorem enter {state state' : State} (h : state.Alike L state') {parent : Environment}
    {frame frame' : Frame} (hframe : frame.Alike L frame') :
    (state.enter parent frame).Alike L (state'.enter parent frame') where
  store := h.store.push hframe
  environment := congrArg (· :: parent) h.store.size
  depth := h.depth
  identities := h.identities
  printed := h.printed

/-- Alike frames on top of the current environments, which are the same. -/
theorem enterChild {state state' : State} (h : state.Alike L state') {frame frame' : Frame}
    (hframe : frame.Alike L frame') :
    (state.enter state.environment frame).Alike L (state'.enter state'.environment frame') := by
  rw [← h.environment]
  exact h.enter hframe

/-- A state is alike to itself if functions stand for themselves. -/
theorem refl (hrefl : ∀ literal, L.literal literal literal) (state : State) :
    state.Alike L state where
  store := ⟨rfl, fun _ => List.forall₂_same.2 fun _ _ => ⟨rfl, .refl hrefl _⟩⟩
  environment := rfl
  depth := rfl
  identities := rfl
  printed := rfl

end State.Alike

/-! ## Comparisons -/

/-- Whether the wording of a fault names a place. -/
def Fault.isLocated : Fault → Bool
  | .notFound _ | .notDefined _ | .strayBreak _ | .strayContinue _ => true
  | _ => false

/-- Faults that differ in places that stand for each other. -/
inductive Fault.Alike (L : Likeness) : Fault → Fault → Prop where
  | same {fault} : Alike L fault fault
  | notFound {name name'} : L.name name name' → Alike L (.notFound name) (.notFound name')
  | notDefined {name name'} : L.name name name' → Alike L (.notDefined name) (.notDefined name')
  | strayBreak {place place'} :
    L.place place place' → Alike L (.strayBreak place) (.strayBreak place')
  | strayContinue {place place'} :
    L.place place place' → Alike L (.strayContinue place) (.strayContinue place')

/-- Alike faults are the same if they name no place, or places stand for themselves only. -/
theorem Fault.Alike.eq {fault fault' : Fault} (h : fault.Alike L fault')
    (hplace : fault.isLocated = true → ∀ {place place'}, L.place place place' → place = place') :
    fault = fault' := by
  have hname {name name' : Identifier} (hname : L.name name name')
      (hplace : ∀ {place place'}, L.place place place' → place = place') : name = name' := by
    obtain ⟨name, place⟩ := name
    obtain ⟨name', place'⟩ := name'
    obtain ⟨hsame, hplaces⟩ := hname
    rw [Identifier.mk.injEq]
    exact ⟨hsame, hplace hplaces⟩
  cases h with
  | same => rfl
  | notFound h => rw [hname h (hplace rfl)]
  | notDefined h => rw [hname h (hplace rfl)]
  | strayBreak h => rw [hplace rfl h]
  | strayContinue h => rw [hplace rfl h]

/-- How two runs are compared. -/
structure Comparison where
  /-- The pieces of code, and the values, that stand for each other. -/
  likeness : Likeness
  /-- What the first run is set up with. -/
  left : Settings
  /-- What the second run is set up with. -/
  right : Settings
  /-- What the first run may start. -/
  admits : Task → State → Prop
  /-- The interruptions of the first run after which the second one may go on. -/
  cut : Interrupt → Prop
  /-- Aborts of the two runs that stand for each other. -/
  overflow : StackOverflow → StackOverflow → Prop
  /-- What a crash of both runs comes with. -/
  crash : Prop

namespace Comparison

variable {α β : Type} (C : Comparison)

/-- What keeps the two runs together. -/
structure Lawful [Host] : Prop where
  likeness : C.likeness.Lawful
  sink : C.left.sink = C.right.sink
  /-- The second run may nest calls as deeply as the first one. -/
  room : C.left.maxDepth ≤ C.right.maxDepth
  /-- No construct of the language stops an interruption after which the runs are not compared. -/
  uncaught {cause : Interrupt} :
    C.cut cause → cause = .exhausted ∨ ∃ overflow, cause = .overflowed overflow
  starts {task part : Task} {state state' : State} :
    C.admits task state → Starts C.left task state part state' → C.admits part state'
  /-- Where a fault names a place, places stand for themselves only. -/
  located {task : Task} {state state' : State} {count : Nat} {fault : Fault} {place place'} :
    C.admits task state →
    task.evaluate C.left count state = (.error (.raised fault), state') → fault.isLocated = true →
    C.likeness.place place place' → place = place'
  /-- A call that is one too many in the first run ends the comparison, or is one too many in the
  second run as well. -/
  limit {location location' : Location} {identity : Identity} {closure : Environment}
    {literal : FunctionLiteral} {arguments : List Value} {state : State} :
    C.admits (.call location (.function identity closure literal) arguments) state →
    arguments.length = literal.parameters.length → C.left.maxDepth ≤ state.depth →
    C.likeness.place location location' →
    C.cut (.overflowed ⟨location, C.left.maxDepth⟩) ∨
      C.left.maxDepth = C.right.maxDepth ∧
        C.overflow ⟨location, C.left.maxDepth⟩ ⟨location', C.right.maxDepth⟩
  /-- Nothing but an array beyond the capacity makes the runs crash. -/
  capacity {location : Location} {start stop : Int64} {state : State} :
    C.admits (.call location (.builtin .range) [.integer start, .integer stop]) state →
    Builtin.capacity < stop.toInt - start.toInt → C.crash

/-- Alike states of the two runs. -/
abbrev state (state state' : State) : Prop := state.Alike C.likeness state'

/-- Alike values of the two runs. -/
abbrev value (value value' : Value) : Prop := value.Alike C.likeness value'

/-- Alike values of the two runs, one by one. -/
abbrev values (values values' : List Value) : Prop := List.Forall₂ C.value values values'

/-- Interruptions of the two runs that stand for each other. -/
inductive Interrupted : Interrupt → Interrupt → Prop where
  | returned {value value'} :
    C.value value value' → Interrupted (.returned value) (.returned value')
  | broken {place place'} :
    C.likeness.place place place' → Interrupted (.broken place) (.broken place')
  | continued {place place'} :
    C.likeness.place place place' → Interrupted (.continued place) (.continued place')
  | raised {fault fault'} :
    fault.Alike C.likeness fault' → Interrupted (.raised fault) (.raised fault')
  | overflowed {overflow overflow'} :
    C.overflow overflow overflow' → Interrupted (.overflowed overflow) (.overflowed overflow')
  | crashed : C.crash → Interrupted .crashed .crashed
  | exhausted : Interrupted .exhausted .exhausted

/-- What the two runs come to: alike outcomes in alike states, or an interruption of the first one
that the second one has left behind. -/
inductive Agree (valid : α → α → Prop) :
    Except Interrupt α × State → Except Interrupt α × State → Prop where
  | ok {result result' state state'} :
    valid result result' → C.state state state' →
    Agree valid (.ok result, state) (.ok result', state')
  | error {cause cause' state state'} :
    C.Interrupted cause cause' → C.state state state' →
    Agree valid (.error cause, state) (.error cause', state')
  | cut {cause state outcome state'} :
    C.cut cause → state.Continues state' → Agree valid (.error cause, state) (outcome, state')

/-- The bounds on nested evaluations and iterations of the two runs. -/
def Bounds (count count' : Nat) : Prop :=
  count = count' ∨ count ≤ count' ∧ C.cut .exhausted

theorem Bounds.succ {C : Comparison} {count bound' : Nat} (h : C.Bounds (count + 1) bound') :
    ∃ count', bound' = count' + 1 ∧ C.Bounds count count' := by
  rcases h with rfl | ⟨hle, hcut⟩
  · exact ⟨count, rfl, .inl rfl⟩
  · obtain ⟨count', rfl⟩ := Nat.exists_eq_succ_of_ne_zero (Nat.ne_of_gt (Nat.lt_of_lt_of_le
      (Nat.succ_pos _) hle))
    exact ⟨count', rfl, .inr ⟨Nat.le_of_succ_le_succ hle, hcut⟩⟩

/-! ## Combinators -/

variable {C} {valid : α → α → Prop} {valid' : β → β → Prop} {state state' : State}

/-- When the first run is aborted, the second one is aborted alike, or the comparison has ended. -/
theorem Agree.overflowed {first second : Except Interrupt α × State} {overflow : StackOverflow}
    (h : C.Agree valid first second) (hfirst : first.1 = .error (.overflowed overflow)) :
    (∃ overflow', C.overflow overflow overflow' ∧ second.1 = .error (.overflowed overflow')) ∨
      C.cut (.overflowed overflow) := by
  cases h with
  | ok => cases hfirst
  | error hcause _ =>
      cases hfirst
      cases hcause with
      | overflowed hoverflow => exact .inl ⟨_, hoverflow, rfl⟩
  | cut hcut _ =>
      cases hfirst
      exact .inr hcut

/-- When both runs are compared up to their crashes, a crash shows what it comes with. -/
theorem Agree.crashed {first second : Except Interrupt α × State}
    (h : C.Agree valid first second) (hfirst : first.1 = .error .crashed) :
    C.crash ∨ C.cut .crashed := by
  cases h with
  | ok => cases hfirst
  | error hcause _ =>
      cases hfirst
      cases hcause with
      | crashed hcrash => exact .inl hcrash
  | cut hcut _ =>
      cases hfirst
      exact .inr hcut

theorem Agree.raise {fault fault' : Fault} (h : fault.Alike C.likeness fault')
    (hstate : C.state state state') :
    C.Agree valid (Evaluation.raise fault state) (Evaluation.raise fault' state') :=
  .error (.raised h) hstate

theorem Agree.ofExcept {result result' : Except Fault Value}
    (h : Value.SameResult C.likeness result result') (hstate : C.state state state') :
    C.Agree C.value (Evaluation.ofExcept result state) (Evaluation.ofExcept result' state') := by
  cases h with
  | ok hvalue => exact .ok hvalue hstate
  | error => exact .raise .same hstate

/-- Once the first run is cut off, the second one may go on and print. -/
theorem Agree.cut_continues {cause : Interrupt} {outcome : Except Interrupt α}
    {last : State} (hcut : C.cut cause) (h : state.Continues state')
    (hlast : state'.Continues last) : C.Agree valid (.error cause, state) (outcome, last) :=
  .cut hcut (h.trans hlast)

/-- Evaluations in sequence. -/
theorem Agree.bind {evaluation evaluation' : Evaluation α} {next next' : α → Evaluation β}
    (h : C.Agree valid (evaluation state) (evaluation' state'))
    (hgrows : ∀ result, (next' result).Grows)
    (hnext : ∀ {result result' middle middle'}, evaluation state = (.ok result, middle) →
      valid result result' → C.state middle middle' →
      C.Agree valid' (next result middle) (next' result' middle')) :
    C.Agree valid' ((evaluation >>= next) state) ((evaluation' >>= next') state') := by
  rw [Evaluation.bind_apply, Evaluation.bind_apply]
  generalize evaluation state = first at h hnext
  generalize evaluation' state' = second at h
  cases h with
  | ok hresult hmiddle => exact hnext rfl hresult hmiddle
  | error hcause hmiddle => exact .error hcause hmiddle
  | @cut cause middle outcome middle' hcut hprinted =>
      cases outcome with
      | ok result => exact .cut_continues hcut hprinted (hgrows result middle')
      | error cause => exact .cut hcut hprinted

theorem Agree.settleIteration [Host] (hC : C.Lawful) {body body' : Evaluation Value}
    (h : C.Agree C.value (body state) (body' state')) :
    C.Agree Eq (Evaluation.settleIteration body state)
      (Evaluation.settleIteration body' state') := by
  unfold Evaluation.settleIteration
  generalize body state = first at h
  generalize body' state' = second at h
  cases h with
  | ok _ hlast => exact .ok rfl hlast
  | error hcause hlast =>
      cases hcause with
      | broken => exact .ok rfl hlast
      | continued => exact .ok rfl hlast
      | returned hvalue => exact .error (.returned hvalue) hlast
      | raised hfault => exact .error (.raised hfault) hlast
      | overflowed hoverflow => exact .error (.overflowed hoverflow) hlast
      | crashed hcrash => exact .error (.crashed hcrash) hlast
      | exhausted => exact .error .exhausted hlast
  | cut hcut hprinted =>
      obtain rfl | ⟨_, rfl⟩ := hC.uncaught hcut
      all_goals
        dsimp only
        split <;> exact .cut hcut (by simp_all)

theorem Agree.settleCall [Host] (hC : C.Lawful) {body body' : Evaluation Value}
    (h : C.Agree C.value (body state) (body' state')) :
    C.Agree C.value (Evaluation.settleCall body state) (Evaluation.settleCall body' state') := by
  unfold Evaluation.settleCall
  generalize body state = first at h
  generalize body' state' = second at h
  cases h with
  | ok hvalue hlast => exact .ok hvalue hlast
  | error hcause hlast =>
      cases hcause with
      | returned hvalue => exact .ok hvalue hlast
      | broken hplace => exact .error (.raised (.strayBreak hplace)) hlast
      | continued hplace => exact .error (.raised (.strayContinue hplace)) hlast
      | raised hfault => exact .error (.raised hfault) hlast
      | overflowed hoverflow => exact .error (.overflowed hoverflow) hlast
      | crashed hcrash => exact .error (.crashed hcrash) hlast
      | exhausted => exact .error .exhausted hlast
  | cut hcut hprinted =>
      obtain rfl | ⟨_, rfl⟩ := hC.uncaught hcut
      all_goals
        dsimp only
        split <;> exact .cut hcut (by simp_all)

/-- A fault that the body raises is handled in both runs, or in none. -/
theorem Agree.handling [Host] (hC : C.Lawful) {body body' : Evaluation Value}
    {handler handler' : Fault → Evaluation Value}
    (h : C.Agree C.value (body state) (body' state'))
    (hlocated : ∀ {fault middle place place'}, body state = (.error (.raised fault), middle) →
      fault.isLocated = true → C.likeness.place place place' → place = place')
    (hgrows : ∀ fault, (handler' fault).Grows)
    (hhandler : ∀ {fault middle middle'}, body state = (.error (.raised fault), middle) →
      C.state middle middle' → C.Agree C.value (handler fault middle) (handler' fault middle')) :
    C.Agree C.value (Evaluation.handling body handler state)
      (Evaluation.handling body' handler' state') := by
  unfold Evaluation.handling
  generalize body state = first at h hlocated hhandler
  generalize body' state' = second at h
  cases h with
  | ok hvalue hlast => exact .ok hvalue hlast
  | error hcause hlast =>
      cases hcause with
      | raised hfault =>
          rw [← hfault.eq fun h _ _ => hlocated rfl h]
          exact hhandler rfl hlast
      | returned hvalue => exact .error (.returned hvalue) hlast
      | broken hplace => exact .error (.broken hplace) hlast
      | continued hplace => exact .error (.continued hplace) hlast
      | overflowed hoverflow => exact .error (.overflowed hoverflow) hlast
      | crashed hcrash => exact .error (.crashed hcrash) hlast
      | exhausted => exact .error .exhausted hlast
  | @cut cause middle outcome middle' hcut hprinted =>
      -- the second run may go on with its handler
      have hlast : middle'.Continues
          (Evaluation.handling (fun _ => (outcome, middle')) handler' state').2 := by
        unfold Evaluation.handling
        dsimp only
        split
        · next fault _ heq =>
            cases heq
            exact hgrows fault middle'
        · exact .refl middle'
      obtain rfl | ⟨_, rfl⟩ := hC.uncaught hcut
      all_goals exact .cut_continues hcut hprinted hlast

/-- A finalizer runs in both runs, or in none. -/
theorem Agree.ensuring [Host] (hC : C.Lawful) {body body' finalizer finalizer' : Evaluation Value}
    (h : C.Agree C.value (body state) (body' state')) (hgrows : finalizer'.Grows)
    (hfinalizer : ∀ {outcome middle middle'}, body state = (outcome, middle) →
      (∀ overflow, outcome ≠ .error (.overflowed overflow)) → outcome ≠ .error .crashed →
      outcome ≠ .error .exhausted →
      C.state middle middle' → C.Agree C.value (finalizer middle) (finalizer' middle')) :
    C.Agree C.value (Evaluation.ensuring body finalizer state)
      (Evaluation.ensuring body' finalizer' state') := by
  generalize hfirst : body state = first at h
  generalize hsecond : body' state' = second at h
  -- after a normal finalizer the outcomes before it stand, which were alike
  have hended {outcome outcome' : Except Interrupt Value} {middle middle' : State}
      (hfirst : body state = (outcome, middle)) (hsecond : body' state' = (outcome', middle'))
      (haborts : Evaluation.aborts outcome = false) (haborts' : Evaluation.aborts outcome' = false)
      (hmiddle : C.state middle middle')
      (houtcome : ∀ {last last'}, C.state last last' →
        C.Agree C.value (outcome, last) (outcome', last')) :
      C.Agree C.value (Evaluation.ensuring body finalizer state)
        (Evaluation.ensuring body' finalizer' state') := by
    obtain ⟨hoverflow, hcrashed, hexhausted⟩ := Evaluation.not_aborts_iff.1 haborts
    rw [Evaluation.ensuring_apply hfirst haborts, Evaluation.ensuring_apply hsecond haborts']
    exact (hfinalizer hfirst hoverflow hcrashed hexhausted hmiddle).bind
      (fun _ => .of_eq fun _ => rfl) fun _ _ hlast => houtcome hlast
  cases h with
  | ok hvalue hmiddle => exact hended hfirst hsecond rfl rfl hmiddle (.ok hvalue)
  | error hcause hmiddle =>
      cases hcause with
      | overflowed hoverflow =>
          rw [Evaluation.ensuring_aborted hfirst rfl, Evaluation.ensuring_aborted hsecond rfl]
          exact .error (.overflowed hoverflow) hmiddle
      | crashed hcrash =>
          rw [Evaluation.ensuring_aborted hfirst rfl, Evaluation.ensuring_aborted hsecond rfl]
          exact .error (.crashed hcrash) hmiddle
      | exhausted =>
          rw [Evaluation.ensuring_aborted hfirst rfl, Evaluation.ensuring_aborted hsecond rfl]
          exact .error .exhausted hmiddle
      | returned hvalue => exact hended hfirst hsecond rfl rfl hmiddle (.error (.returned hvalue))
      | broken hplace => exact hended hfirst hsecond rfl rfl hmiddle (.error (.broken hplace))
      | continued hplace => exact hended hfirst hsecond rfl rfl hmiddle (.error (.continued hplace))
      | raised hfault => exact hended hfirst hsecond rfl rfl hmiddle (.error (.raised hfault))
  | @cut cause middle outcome middle' hcut hprinted =>
      -- the second run may go on with its finalizer
      have hlast : middle'.Continues (Evaluation.ensuring body' finalizer' state').2 :=
        hgrows.ensuring_continues hsecond
      have haborts : Evaluation.aborts (.error cause : Except Interrupt Value) = true := by
        obtain rfl | ⟨_, rfl⟩ := hC.uncaught hcut <;> rfl
      rw [Evaluation.ensuring_aborted hfirst haborts]
      exact .cut_continues hcut hprinted hlast

/-- Frames with alike bindings, on top of the same environment. -/
theorem Agree.withFrame {parent : Environment} {frame frame' : Frame}
    {body body' : Evaluation Value} (hstate : C.state state state')
    (h : C.Agree C.value (body (state.enter parent frame)) (body' (state'.enter parent frame'))) :
    C.Agree C.value (Evaluation.withFrame parent frame body state)
      (Evaluation.withFrame parent frame' body' state') := by
  show C.Agree C.value
    (Evaluation.restore state.environment (body (state.enter parent frame)))
    (Evaluation.restore state'.environment (body' (state'.enter parent frame')))
  rw [← hstate.environment]
  generalize body (state.enter parent frame) = first at h ⊢
  generalize body' (state'.enter parent frame') = second at h ⊢
  cases h with
  | ok hvalue hlast => exact .ok hvalue { hlast with environment := rfl }
  | error hcause hlast => exact .error hcause { hlast with environment := rfl }
  | cut hcut hprinted => exact .cut hcut hprinted

/-- Frames with alike bindings, on top of the current environments. -/
theorem Agree.withChildFrame {frame frame' : Frame} {body body' : Evaluation Value}
    (hstate : C.state state state')
    (h : C.Agree C.value (body (state.enter state.environment frame))
      (body' (state'.enter state'.environment frame'))) :
    C.Agree C.value (Evaluation.withChildFrame frame body state)
      (Evaluation.withChildFrame frame' body' state') := by
  show C.Agree C.value (Evaluation.withFrame state.environment frame body state)
    (Evaluation.withFrame state'.environment frame' body' state')
  rw [← hstate.environment] at h ⊢
  exact .withFrame hstate h

/-- The bodies of calls, which count as active meanwhile. -/
theorem Agree.asCall {body body' : Evaluation Value}
    (h : C.Agree C.value (body { state with depth := state.depth + 1 })
      (body' { state' with depth := state'.depth + 1 })) :
    C.Agree C.value (Evaluation.asCall body state) (Evaluation.asCall body' state') := by
  unfold Evaluation.asCall
  generalize body { state with depth := state.depth + 1 } = first at h
  generalize body' { state' with depth := state'.depth + 1 } = second at h
  cases h with
  | ok hvalue hlast => exact .ok hvalue { hlast with depth := by rw [hlast.depth] }
  | error hcause hlast => exact .error hcause { hlast with depth := by rw [hlast.depth] }
  | cut hcut hprinted => exact .cut hcut hprinted

end Comparison

end Script
