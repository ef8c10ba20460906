import Script.Proofs.Evaluation.Links

/-!
# What an evaluation can reach

Code refers to frames through scopes: the current environment, the closures of the functions among
the values that it is given, and the closures of the functions that are bound in the frames of such
scopes. `scopes_encapsulated` says that an evaluation changes no other frame that existed before
it, and that what can be reached after it could be reached before or was made meanwhile. So the
captured variables of a function change only through code that reaches one of its frames.
-/

namespace Script

namespace Store

/-- The environments that code in `environment`, with the given values at hand, refers to. -/
inductive Reachable (store : Store) (environment : Environment) (values : List Value) :
    Environment → Prop where
  | current : Reachable store environment values environment
  | held {value : Value} {closure : Environment} :
    value ∈ values → closure ∈ value.closures → Reachable store environment values closure
  | bound {scope : Environment} {id : FrameId} {binding : String × Value} {closure : Environment} :
    Reachable store environment values scope → id ∈ scope → binding ∈ store.frame id →
    closure ∈ binding.2.closures → Reachable store environment values closure

/-- The frames of these environments. -/
def Accessible (store : Store) (environment : Environment) (values : List Value) (id : FrameId) :
    Prop :=
  ∃ scope, store.Reachable environment values scope ∧ id ∈ scope

theorem size_put (store : Store) (id : FrameId) (name : String) (value : Value) :
    (store.put id name value).frames.size = store.frames.size :=
  Array.size_modify ..

theorem size_push (store : Store) (frame : Frame) :
    (store.push frame).frames.size = store.frames.size + 1 :=
  Array.size_push ..

/-- Names that are looked up in equal frames have equal values. -/
theorem find?_congr {store other : Store} {environment : Environment} {name : String}
    (h : ∀ id ∈ environment, other.frame id = store.frame id) :
    other.find? environment name = store.find? environment name := by
  induction environment with
  | nil => rfl
  | cons id rest ih =>
      obtain ⟨hid, hrest⟩ := List.forall_mem_cons.1 h
      have hih : rest.findSome? (fun id => (other.frame id).find? name) =
          rest.findSome? (fun id => (store.frame id).find? name) := ih hrest
      simp only [find?, List.findSome?_cons, hid, hih]

end Store

/-- Where a chain has a frame, it also has the one that encloses it. -/
theorem Links.Chain.enclosing {links : Links} {environment : Environment}
    (h : links.Chain environment) {id outer : FrameId} (hlink : links[id]? = some outer)
    (hid : id + 1 ∈ environment) : outer ∈ environment := by
  induction h with
  | root => cases List.mem_singleton.1 hid
  | @inner first next rest hfirst _ ih =>
      rcases List.mem_cons.1 hid with heq | hid
      · cases heq
        cases hlink.symm.trans hfirst
        exact .tail _ (.head _)
      · exact .tail _ (ih hid)

/-- All reachable environments follow the links of a state. -/
theorem Store.Reachable.chain {links : Links} {state : State} {values : List Value}
    {scope : Environment} (h : state.store.Reachable state.environment values scope)
    (hstate : state.Linked links)
    (hvalues : ∀ value ∈ values, ∀ closure ∈ value.closures, links.Chain closure) :
    links.Chain scope := by
  cases h with
  | current => exact hstate.current
  | held hvalue hclosure => exact hvalues _ hvalue _ hclosure
  | bound _ _ hbinding hclosure => exact hstate.bound _ _ hbinding _ hclosure

/-! ## The invariant -/

namespace Confinement

variable (start : State) (values : List Value)

/-- The frames that an evaluation from `start` can come to: the accessible ones, and those that it
made itself while the number of frames grew to `count`. -/
def Within (count : Nat) (id : FrameId) : Prop :=
  start.store.Accessible start.environment values id ∨ start.store.frames.size ≤ id ∧ id < count

/-- The course of an evaluation from `start`, with `count` frames. -/
structure Confined (count : Nat) (state : State) : Prop where
  size : state.store.frames.size = count
  grown : start.store.frames.size ≤ count
  /-- Other frames are as they were. -/
  spared : ∀ id < start.store.frames.size,
    ¬ start.store.Accessible start.environment values id →
      state.store.frame id = start.store.frame id
  visible : ∀ id ∈ state.environment, Within start values count id
  bound : ∀ id, Within start values count id → ∀ binding ∈ state.store.frame id,
    ∀ closure ∈ binding.2.closures, ∀ other ∈ closure, Within start values count other

variable {start values} {count more : Nat} {state : State}

theorem Within.mono {id : FrameId} (h : Within start values count id) (hle : count ≤ more) :
    Within start values more id :=
  h.imp_right fun ⟨hmade, hcount⟩ => ⟨hmade, Nat.lt_of_lt_of_le hcount hle⟩

/-- A spared frame is not among those that an evaluation can come to. -/
theorem Within.ne_of_spared {id other : FrameId} (h : Within start values count id)
    (hold : other < start.store.frames.size)
    (hother : ¬ start.store.Accessible start.environment values other) : other ≠ id := by
  rintro rfl
  rcases h with h | ⟨hmade, -⟩
  · exact hother h
  · exact absurd hold (Nat.not_lt.2 hmade)

/-- At the start nothing is made yet. -/
theorem confined_start : Confined start values start.store.frames.size start where
  size := rfl
  grown := Nat.le_refl _
  spared _ _ _ := rfl
  visible id hid := .inl ⟨start.environment, .current, hid⟩
  bound id hid binding hbinding closure hclosure other hother := by
    rcases hid with ⟨scope, hscope, hid⟩ | ⟨hmade, hlt⟩
    · exact .inl ⟨closure, .bound hscope hid hbinding hclosure, hother⟩
    · exact absurd hlt (Nat.not_lt.2 hmade)

/-- What can be reached in the course of an evaluation was accessible or is newly made. -/
theorem Confined.within_of_reachable (h : Confined start values count state)
    {held : List Value}
    (hheld : ∀ value ∈ held, ∀ closure ∈ value.closures, ∀ id ∈ closure,
      Within start values count id)
    {scope : Environment} (hscope : state.store.Reachable state.environment held scope) :
    ∀ id ∈ scope, Within start values count id := by
  induction hscope with
  | current => exact h.visible
  | held hvalue hclosure => exact hheld _ hvalue _ hclosure
  | bound _ hid hbinding hclosure ih => exact h.bound _ (ih _ hid) _ hbinding _ hclosure

/-- Binding a name in a frame that the evaluation can come to. -/
theorem Confined.put (h : Confined start values count state) {id : FrameId}
    (hid : Within start values count id) (name : String) {value : Value}
    (hvalue : ∀ closure ∈ value.closures, ∀ other ∈ closure, Within start values count other) :
    Confined start values count { state with store := state.store.put id name value } where
  size := (Store.size_put ..).trans h.size
  grown := h.grown
  spared other hold hother :=
    (Store.frame_put_of_ne (hid.ne_of_spared hold hother)).trans (h.spared other hold hother)
  visible := h.visible
  bound other hwithin binding hbinding := by
    rcases Store.mem_frame_put hbinding with rfl | hbefore
    · exact hvalue
    · exact h.bound other hwithin binding hbefore

/-- A new frame is one that the evaluation made. -/
theorem Confined.enter (h : Confined start values count state) {parent : Environment}
    {frame : Frame} (hparent : ∀ id ∈ parent, Within start values count id)
    (hframe : ∀ binding ∈ frame, ∀ closure ∈ binding.2.closures, ∀ other ∈ closure,
      Within start values count other) :
    Confined start values (count + 1) (state.enter parent frame) where
  size := (Store.size_push ..).trans (congrArg Nat.succ h.size)
  grown := Nat.le_succ_of_le h.grown
  spared id hold hid := by
    have hlt : id < state.store.frames.size := h.size ▸ Nat.lt_of_lt_of_le hold h.grown
    exact (Store.frame_push_of_lt hlt).trans (h.spared id hold hid)
  visible id hid := by
    rcases List.mem_cons.1 hid with rfl | hid
    · exact .inr ⟨h.size ▸ h.grown, h.size ▸ Nat.lt_succ_self _⟩
    · exact (hparent id hid).mono (Nat.le_succ count)
  bound id hwithin binding hbinding closure hclosure other hother := by
    refine Within.mono ?_ (Nat.le_succ count)
    rcases Store.mem_frame_push hbinding with hnew | hbefore
    · exact hframe binding hnew closure hclosure other hother
    · -- a frame with bindings existed before the new one was made
      have hlt : id < count := h.size ▸ Store.lt_of_mem_frame hbefore
      have hwithin : Within start values count id := hwithin.imp_right fun ⟨hmade, _⟩ =>
        ⟨hmade, hlt⟩
      exact h.bound id hwithin binding hbefore closure hclosure other hother

open Invariant in
theorem laws (start : State) (values : List Value) :
    ScopeLaws (· ≤ ·) (Confined start values)
      (fun (count : Nat) environment => ∀ id ∈ environment, Within start values count id) where
  refl := Nat.le_refl
  trans := Nat.le_trans
  mono hle h id hid := (h id hid).mono hle
  environment h := h.visible
  bound h hid hbinding hclosure := h.bound _ (h.visible _ hid) _ hbinding _ hclosure
  still h hstore henvironment := by
    refine ⟨?_, h.grown, ?_, ?_, ?_⟩
    · rw [hstore]
      exact h.size
    · rw [hstore]
      exact h.spared
    · rw [henvironment]
      exact h.visible
    · rw [hstore]
      exact h.bound
  put name _ h hid hvalue := h.put (h.visible _ hid) name hvalue
  enter {count _ _ _} h hparent hframe :=
    ⟨count + 1, Nat.le_succ count, h.enter hparent hframe⟩
  -- the environment was visible before the frames were added
  leave h hle hlast :=
    ⟨hlast.size, hlast.grown, hlast.spared, fun id hid => (h.visible id hid).mono hle, hlast.bound⟩

end Confinement

/-- An invariant of scopes holds of a task when it holds of the values that the task has. -/
theorem Invariant.ofScopes_task {World : Type} {Leads : World → World → Prop}
    {state : World → State → Prop} {scope : World → Environment → Prop} {world : World}
    {task : Task} (h : ∀ value ∈ task.values, ∀ closure ∈ value.closures, scope world closure) :
    (Invariant.ofScopes World Leads state scope).task world task := by
  cases task with
  | pairs entries list =>
      intro closure hclosure
      obtain ⟨entry, hentry, hmem⟩ := Entry.mem_closuresAll.1 hclosure
      rcases hmem with hmem | hmem
      · exact h entry.key (List.mem_flatMap.2 ⟨entry, hentry, .head _⟩) closure hmem
      · exact h entry.value (List.mem_flatMap.2 ⟨entry, hentry, .tail _ (.head _)⟩) closure hmem
  | statements last list => exact h last (.head _)
  | forEach name body elements => exact h
  | call location callee arguments =>
      exact ⟨h callee (.head _), fun value hvalue => h value (.tail _ hvalue)⟩
  | expr | exprs | statement | whileTrue => trivial

variable [Host]

/-- The course of every task is confined to what the task can reach at its start and what it makes
itself. -/
theorem Task.confined (settings : Settings) (count : Nat) (task : Task) (state : State) :
    ∃ size, Confinement.Confined state task.values size (task.evaluate settings count state).2 ∧
      ∀ value ∈ Interrupt.values (task.evaluate settings count state).1,
        ∀ closure ∈ value.closures, ∀ id ∈ closure,
          Confinement.Within state task.values size id := by
  have hlawful := (Confinement.laws state task.values).lawful
  have hvalues : ∀ value ∈ task.values, ∀ closure ∈ value.closures, ∀ id ∈ closure,
      Confinement.Within state task.values state.store.frames.size id :=
    fun value hvalue closure hclosure id hid => .inl ⟨closure, .held hvalue hclosure, hid⟩
  obtain ⟨size, -, hlast, houtcome⟩ :=
    hlawful.task count (Invariant.ofScopes_task hvalues) state Confinement.confined_start
  exact ⟨size, hlast, Invariant.outcome_values houtcome⟩

/-- An evaluation reaches frames through environments only. Whatever its outcome, every frame that
existed before and was out of its reach has the same bindings afterwards, and every frame that can
be reached afterwards, from its environment or from its result, was within reach before or was made
meanwhile. So a variable that a function captured changes only if the evaluation reached an
environment that shares a frame with the closure of the function. Within reach is, with a frame, the
frame that encloses it. -/
theorem scopes_encapsulated (settings : Settings) (task : Task) (count : Nat) (state : State) :
    let last := (task.evaluate settings count state).2
    let results := Interrupt.values (task.evaluate settings count state).1
    (∀ id < state.store.frames.size, ¬ state.store.Accessible state.environment task.values id →
      id < last.store.frames.size ∧ last.store.frame id = state.store.frame id) ∧
    (∀ id, last.store.Accessible state.environment results id →
      state.store.Accessible state.environment task.values id ∨
        state.store.frames.size ≤ id ∧ id < last.store.frames.size) ∧
    (∀ closure name, (∀ id ∈ closure, id < state.store.frames.size) →
      last.store.find? closure name ≠ state.store.find? closure name →
        ∃ scope, state.store.Reachable state.environment task.values scope ∧
          ∃ id ∈ closure, id ∈ scope) ∧
    (∀ links, state.Linked links →
      (∀ value ∈ task.values, ∀ closure ∈ value.closures, links.Chain closure) →
      ∀ id outer, links[id]? = some outer →
        state.store.Accessible state.environment task.values (id + 1) →
          state.store.Accessible state.environment task.values outer) := by
  intro last results
  obtain ⟨size, hlast, hresults⟩ := task.confined settings count state
  have henvironment : last.environment = state.environment :=
    (task.restores settings count state).1
  refine ⟨fun id hid hspared => ⟨?_, hlast.spared id hid hspared⟩, ?_, ?_, ?_⟩
  · rw [hlast.size]
    exact Nat.lt_of_lt_of_le hid hlast.grown
  · rintro id ⟨scope, hscope, hid⟩
    rw [← henvironment] at hscope
    rw [hlast.size]
    exact hlast.within_of_reachable hresults hscope id hid
  · intro closure name hclosure hchanged
    by_cases hshared : ∃ id ∈ closure, state.store.Accessible state.environment task.values id
    · obtain ⟨id, hid, scope, hscope, hmem⟩ := hshared
      exact ⟨scope, hscope, id, hid, hmem⟩
    · -- all frames of the closure were spared
      refine absurd (Store.find?_congr fun id hid => ?_) hchanged
      exact hlast.spared id (hclosure id hid) fun haccessible => hshared ⟨id, hid, haccessible⟩
  · rintro links hlinked hvalues id outer hlink ⟨scope, hscope, hid⟩
    exact ⟨scope, hscope, (hscope.chain hlinked hvalues).enclosing hlink hid⟩

end Script
