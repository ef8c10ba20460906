import Script.Proofs.Evaluation.Scopes

/-!
# How frames enclose one another

An environment lists its frames from the innermost one outwards. `State.Linked` says that all
environments of a state are chains in one forest of frames: every frame but the root lies in an
older one, and the current environment and the closures of all functions follow these links up to
the root. `scopes_restored` states this for all states of a session, together with what tasks and
programs come back to.
-/

namespace Script

/-- For each frame after the root, in the order of creation, the frame that encloses it: frame
`id + 1` lies in frame `links[id]`. -/
abbrev Links := List FrameId

/-- The environments that follow the links up to the root. -/
inductive Links.Chain (links : Links) : Environment → Prop where
  | root : Links.Chain links Store.root
  | inner {id outer : FrameId} {rest : Environment} :
    links[id]? = some outer → Links.Chain links (outer :: rest) →
    Links.Chain links ((id + 1) :: outer :: rest)

/-- All environments of a state follow the same links, and links lead to older frames. -/
structure State.Linked (links : Links) (state : State) : Prop where
  /-- Every frame but the root has a link. -/
  size : state.store.frames.size = links.length + 1
  /-- A frame is younger than the one that encloses it. -/
  older : ∀ id outer, links[id]? = some outer → outer < id + 1
  /-- The current environment follows the links. -/
  current : links.Chain state.environment
  /-- So does every environment that a bound function was created under. -/
  bound : ∀ id, ∀ binding ∈ state.store.frame id, ∀ closure ∈ binding.2.closures,
    links.Chain closure

namespace Links

/-- A chain stays one when frames are added. -/
theorem Chain.mono {links links' : Links} {environment : Environment}
    (h : links.Chain environment) (hle : links <+: links') : links'.Chain environment := by
  induction h with
  | root => exact .root
  | @inner id outer rest hlink _ ih =>
      obtain ⟨added, rfl⟩ := hle
      obtain ⟨hid, -⟩ := List.getElem?_eq_some_iff.1 hlink
      exact .inner ((List.getElem?_append_left hid).trans hlink) ih

/-- A chain starts at a frame that exists. -/
theorem Chain.head {links : Links} {environment : Environment} (h : links.Chain environment) :
    ∃ id rest, environment = id :: rest ∧ id < links.length + 1 := by
  cases h with
  | root => exact ⟨0, [], rfl, Nat.succ_pos _⟩
  | @inner id outer rest hlink _ =>
      obtain ⟨hid, -⟩ := List.getElem?_eq_some_iff.1 hlink
      exact ⟨id + 1, outer :: rest, rfl, Nat.succ_lt_succ hid⟩

end Links

/-! ## The invariant -/

namespace Invariant

/-- All environments follow the same links. New frames add links, and none is ever changed. -/
def linked : Invariant where
  World := Links
  Leads := (· <+: ·)
  state links state := state.Linked links
  value links value := ∀ closure ∈ value.closures, links.Chain closure
  entries links entries := ∀ closure ∈ Entry.closuresAll entries, links.Chain closure
  scope links environment := links.Chain environment

/-- Binding a name to a value of the world. -/
theorem linked_put {links : Links} {state : State} (hstate : state.Linked links) (id : FrameId)
    (name : String) {value : Value} (hvalue : ∀ closure ∈ value.closures, links.Chain closure) :
    State.Linked links { state with store := state.store.put id name value } where
  size := (Array.size_modify ..).trans hstate.size
  older := hstate.older
  current := hstate.current
  bound other binding hbinding := by
    rcases Store.mem_frame_put hbinding with rfl | hold
    · exact hvalue
    · exact hstate.bound other binding hold

/-- A new frame gets a link to the innermost frame of its parent. -/
theorem linked_enter {links : Links} {state : State} {outer : FrameId} {rest : Environment}
    {frame : Frame} (hstate : state.Linked links) (hparent : links.Chain (outer :: rest))
    (houter : outer < links.length + 1)
    (hframe : ∀ binding ∈ frame, ∀ closure ∈ binding.2.closures, links.Chain closure) :
    (state.enter (outer :: rest) frame).Linked (links ++ [outer]) where
  size := by
    rw [List.length_append]
    exact (Array.size_push ..).trans (congrArg Nat.succ hstate.size)
  older id other hlink := by
    rw [List.getElem?_append] at hlink
    split at hlink
    · exact hstate.older id other hlink
    · next hid =>
        -- the link of the new frame leads to the head of its parent
        obtain ⟨-, rfl⟩ := List.getElem?_eq_some_iff.1 hlink
        rw [List.getElem_singleton]
        exact Nat.lt_of_lt_of_le houter (Nat.succ_le_succ (Nat.le_of_not_lt hid))
  current := by
    show (links ++ [outer]).Chain (state.store.frames.size :: outer :: rest)
    rw [hstate.size]
    exact .inner List.getElem?_concat_length (hparent.mono (List.prefix_append ..))
  bound id binding hbinding closure hclosure := by
    refine Links.Chain.mono ?_ (List.prefix_append ..)
    rcases Store.mem_frame_push hbinding with hnew | hold
    · exact hframe binding hnew closure hclosure
    · exact hstate.bound id binding hold closure hclosure

theorem linked_laws :
    ScopeLaws (· <+: ·) (fun links state => state.Linked links)
      (fun (links : Links) environment => links.Chain environment) where
  refl := List.prefix_refl
  trans := List.IsPrefix.trans
  mono h hchain := hchain.mono h
  environment h := h.current
  bound h _ hbinding hclosure := h.bound _ _ hbinding _ hclosure
  still h hstore henvironment := by
    refine ⟨?_, h.older, ?_, ?_⟩
    · rw [hstore]
      exact h.size
    · rw [henvironment]
      exact h.current
    · rw [hstore]
      exact h.bound
  put name _ h _ hvalue := linked_put h _ name hvalue
  enter {links state parent frame} h hparent hframe := by
    obtain ⟨outer, rest, rfl, houter⟩ := hparent.head
    exact ⟨links ++ [outer], List.prefix_append .., linked_enter h hparent houter hframe⟩
  -- the environment was a chain before the frames were added
  leave h hleads hlast := ⟨hlast.size, hlast.older, h.current.mono hleads, hlast.bound⟩

theorem linked_lawful [Host] : linked.Lawful :=
  linked_laws.lawful

end Invariant

variable [Host]

/-- All environments of a session follow the links of its frames, the closures of the values at hand
among them. -/
theorem State.Reachable.linked {settings : Settings} {state : State} {atHand : List Value}
    (h : State.Reachable settings state atHand) :
    ∃ links, state.Linked links ∧
      ∀ value ∈ atHand, ∀ closure ∈ value.closures, links.Chain closure := by
  have hinitial : State.initial.Linked [] :=
    { size := rfl
      older := fun _ _ h => by cases h
      current := .root
      bound := fun id binding h => by
        cases id <;> exact False.elim (List.not_mem_nil h) }
  have hreached : ∀ state, Session.Reached settings state →
      ∃ links, Invariant.linked.state links state :=
    fun state h => Invariant.linked_lawful.reached ⟨[], hinitial⟩
      (fun links state h => ⟨links, h.size, h.older, h.current, h.bound⟩) h
  obtain ⟨links, hstate, hvalues⟩ := Invariant.linked_lawful.reachable hreached h
  exact ⟨links, hstate, hvalues⟩

/-- Every task comes back to the environment and the depth that it started with, whatever its
outcome. In every state of a session, frames lie in older frames, and the current environment and
the closures of all functions, bound or at hand, follow these links up to the root. Every program
starts at the root and outside of all calls. -/
theorem scopes_restored (settings : Settings) :
    (∀ (task : Task) (count : Nat) (state : State),
      (task.evaluate settings count state).2.environment = state.environment ∧
        (task.evaluate settings count state).2.depth = state.depth) ∧
    (∀ state atHand, State.Reachable settings state atHand →
      ∃ links, state.Linked links ∧
        ∀ value ∈ atHand, ∀ closure ∈ value.closures, links.Chain closure) ∧
    (∀ state, Session.Reached settings state →
      state.environment = Store.root ∧ state.depth = 0) := by
  refine ⟨fun task count state => task.restores settings count state, ?_,
    fun state h => h.at_root⟩
  intro state atHand h
  exact h.linked

end Script
