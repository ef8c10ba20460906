import Script.Proofs.Evaluation.Bindings
import Script.Proofs.Evaluation.Encapsulation

/-!
# What a name resolves to

Environments share frames, so binding a name in one of them can change what others look up. The new
binding is seen from an environment that comes to its frame before it comes to any frame that binds
the name: `Store.Exposes`. An assignment changes the frame that its own environment resolves the
name to, a definition the innermost frame of its own environment, and `scope_chains` says what
follows for every other environment of a session. `Store.Kept` is what no evaluation breaks: a name
stays bound in the frame in which it is.
-/

namespace Script

/-! ## The shape of chains -/

namespace Links.Chain

variable {links : Links} {environment : Environment} {id : FrameId} {rest rest' : Environment}

/-- The frame that a chain starts at determines the chain. -/
theorem eq_of_head (h : links.Chain (id :: rest)) (h' : links.Chain (id :: rest')) :
    rest = rest' := by
  generalize hfirst : id :: rest = environment at h
  induction h generalizing id rest rest' with
  | root =>
      cases hfirst
      cases h'
      rfl
  | inner hlink hchain ih =>
      cases hfirst
      cases h' with
      | inner hlink' hchain' =>
          cases hlink.symm.trans hlink'
          rw [ih hchain' rfl]

/-- Further out a chain is a chain as well. -/
theorem outward {near far : Environment} (h : links.Chain (near ++ id :: far)) :
    links.Chain (id :: far) := by
  generalize hwhole : near ++ id :: far = environment at h
  induction h generalizing near with
  | root =>
      obtain ⟨rfl, hlast⟩ | ⟨-, hlast⟩ := List.append_eq_singleton_iff.1 hwhole
      · rw [hlast]
        exact .root
      · cases hlast
  | inner hlink hchain ih =>
      cases near with
      | nil =>
          rw [List.nil_append] at hwhole
          rw [hwhole]
          exact .inner hlink hchain
      | cons first near => exact ih (List.cons.inj hwhole).2

end Links.Chain

namespace Store

variable {store : Store} {environment : Environment} {id : FrameId} {name : String}

/-! ## Bindings that are seen -/

/-- From `environment` one comes to the frame at `id` before any frame that binds the name. -/
def Exposes (store : Store) (environment : Environment) (id : FrameId) (name : String) : Prop :=
  ∃ near far, environment = near ++ id :: far ∧
    ∀ nearer ∈ near, (store.frame nearer).binds name = false

theorem exposes_head (rest : Environment) : store.Exposes (id :: rest) id name :=
  ⟨[], rest, rfl, List.forall_mem_nil _⟩

theorem exposes_cons {first : FrameId} {rest : Environment} (h : first ≠ id) :
    store.Exposes (first :: rest) id name ↔
      (store.frame first).binds name = false ∧ store.Exposes rest id name := by
  constructor
  · rintro ⟨_ | ⟨nearest, near⟩, far, heq, hnear⟩
    · exact absurd (List.cons.inj heq).1 h
    · obtain ⟨rfl, rfl⟩ := List.cons.inj heq
      obtain ⟨hfirst, hnear⟩ := List.forall_mem_cons.1 hnear
      exact ⟨hfirst, near, far, rfl, hnear⟩
  · rintro ⟨hfirst, near, far, rfl, hnear⟩
    exact ⟨first :: near, far, rfl, List.forall_mem_cons.2 ⟨hfirst, hnear⟩⟩

/-- A name resolves to the frame that binds it and that is exposed. -/
theorem holder?_eq_some_iff : store.holder? environment name = some id ↔
    (store.frame id).binds name = true ∧ store.Exposes environment id name := by
  rw [holder?, List.find?_eq_some_iff_append]
  simp only [Exposes, Bool.not_eq_true']

/-- A name is found where a frame binds it. -/
theorem isSome_holder? : (store.holder? environment name).isSome =
    (store.find? environment name).isSome := by
  induction environment with
  | nil => rfl
  | cons first rest ih =>
      rw [find?_cons, holder?, List.find?_cons]
      cases hfirst : (store.frame first).find? name with
      | some value => simp [Frame.binds, hfirst]
      | none => simpa [holder?, Frame.binds, hfirst] using ih

/-- A new binding is seen where its frame is exposed. -/
theorem find?_put_exposed (h : store.Exposes environment id name) (hid : id < store.frames.size)
    (value : Value) : (store.put id name value).find? environment name = some value := by
  induction environment with
  | nil =>
      obtain ⟨near, far, heq, -⟩ := h
      exact absurd heq.symm (List.append_ne_nil_of_right_ne_nil near (List.cons_ne_nil id far))
  | cons first rest ih =>
      by_cases hfirst : first = id
      · rw [hfirst]
        exact find?_put_head hid rest name value
      · obtain ⟨hnone, hrest⟩ := (exposes_cons hfirst).1 h
        have hnone : (store.frame first).find? name = none :=
          Option.not_isSome_iff_eq_none.1 (Bool.eq_false_iff.1 hnone)
        rw [find?_cons, frame_put_of_ne hfirst, hnone]
        exact ih hrest

/-- Nothing else is found than before under another name, where the frame is out of sight, and
behind a frame that binds the name. -/
theorem find?_put_unseen {other : String}
    (h : ¬ (other = name ∧ store.Exposes environment id name)) (value : Value) :
    (store.put id name value).find? environment other = store.find? environment other := by
  induction environment with
  | nil => rfl
  | cons first rest ih =>
      have hfirst : ¬ (first = id ∧ id < store.frames.size ∧ other = name) := by
        rintro ⟨rfl, -, hother⟩
        exact h ⟨hother, exposes_head rest⟩
      rw [find?_cons, find?_cons, find?_frame_put, if_neg hfirst]
      cases hvalue : (store.frame first).find? other with
      | some found => rfl
      | none =>
          refine congrArg _ (ih ?_)
          rintro ⟨rfl, hrest⟩
          have hbinds : (store.frame first).binds other = false := by
            rw [Frame.binds, hvalue]
            rfl
          by_cases hid : first = id
          · exact h ⟨rfl, hid ▸ exposes_head rest⟩
          · exact h ⟨rfl, (exposes_cons hid).2 ⟨hbinds, hrest⟩⟩

/-- Which names a frame binds after one more binding. -/
theorem binds_put {other : FrameId} {target : String} {value : Value} :
    ((store.put id name value).frame other).binds target = true ↔
      (other = id ∧ id < store.frames.size ∧ target = name) ∨
        (store.frame other).binds target = true := by
  rw [Frame.binds, find?_frame_put]
  split
  · next h => exact ⟨fun _ => .inl h, fun _ => rfl⟩
  · next h => exact ⟨.inr, fun hor => hor.resolve_left h⟩

/-! ## Assignments and definitions -/

theorem assign_of_some (h : store.holder? environment name = some id) (value : Value) :
    store.assign environment name value = (true, store.put id name value) := by
  rw [assign, h]

/-- An assignment succeeds when the name is found. -/
theorem assign_iff (value : Value) : (store.assign environment name value).1 = true ↔
    (store.find? environment name).isSome = true := by
  rw [← isSome_holder?, assign]
  cases store.holder? environment name <;> simp

/-- An assignment that does not succeed leaves all frames alone. -/
theorem assign_failed {value : Value} (h : (store.assign environment name value).1 = false) :
    (store.assign environment name value).2 = store := by
  cases hholder : store.holder? environment name with
  | none => rw [assign, hholder]
  | some id =>
      rw [assign_of_some hholder] at h
      cases h

/-- An assignment that succeeds changes the frame that the name resolves to, which exists and binds
the name. -/
theorem assign_succeeded {value : Value} (h : (store.assign environment name value).1 = true) :
    ∃ id, store.holder? environment name = some id ∧ id < store.frames.size ∧
      (store.frame id).binds name = true ∧
      (store.assign environment name value).2 = store.put id name value := by
  rw [assign_iff, ← isSome_holder?] at h
  obtain ⟨id, hholder⟩ := Option.isSome_iff_exists.1 h
  have hbinds := (holder?_eq_some_iff.1 hholder).1
  exact ⟨id, hholder, lt_of_binds hbinds, hbinds, by rw [assign_of_some hholder]⟩

/-- Frames keep their names when one of them is assigned to. -/
theorem binds_assign {value : Value} (other : FrameId) (target : String) :
    ((store.assign environment name value).2.frame other).binds target =
      (store.frame other).binds target := by
  cases hsuccess : (store.assign environment name value).1 with
  | false => rw [assign_failed hsuccess]
  | true =>
      obtain ⟨id, -, -, hbinds, heq⟩ := assign_succeeded hsuccess
      rw [heq, Bool.eq_iff_iff, binds_put]
      refine or_iff_right_of_imp ?_
      rintro ⟨rfl, -, rfl⟩
      exact hbinds

/-- What is found after an assignment: the new value from environments that resolve the name to the
same frame, and otherwise what was found before. -/
theorem find?_assign {value : Value} (h : (store.assign environment name value).1 = true)
    (viewer : Environment) (other : String) :
    (store.assign environment name value).2.find? viewer other =
      if other = name ∧ store.holder? viewer name = store.holder? environment name then some value
      else store.find? viewer other := by
  obtain ⟨id, hholder, hid, hbinds, heq⟩ := assign_succeeded h
  rw [heq, hholder]
  split
  · next hsame =>
      obtain ⟨rfl, hviewer⟩ := hsame
      exact find?_put_exposed (holder?_eq_some_iff.1 hviewer).2 hid value
  · next hapart =>
      refine find?_put_unseen (fun hseen => hapart ⟨hseen.1, ?_⟩) value
      exact holder?_eq_some_iff.2 ⟨hbinds, hseen.2⟩

/-- On a chain, the first frame of another chain is exposed when the whole other chain is on it,
with no frame in front of it that binds the name. -/
theorem exposes_iff_of_chain {links : Links} {viewer rest : Environment}
    (hviewer : links.Chain viewer) (hchain : links.Chain (id :: rest)) :
    store.Exposes viewer id name ↔ ∃ near, viewer = near ++ id :: rest ∧
      ∀ nearer ∈ near, (store.frame nearer).binds name = false := by
  constructor
  · rintro ⟨near, far, rfl, hnear⟩
    obtain rfl := hchain.eq_of_head hviewer.outward
    exact ⟨near, rfl, hnear⟩
  · rintro ⟨near, heq, hnear⟩
    exact ⟨near, rest, heq, hnear⟩

/-! ## Names stay bound -/

/-- What a frame binds, it still binds later. -/
def Kept (store later : Store) : Prop :=
  ∀ id name, (store.frame id).binds name = true → (later.frame id).binds name = true

theorem Kept.refl (store : Store) : store.Kept store :=
  fun _ _ => id

theorem Kept.trans {first second third : Store} (h : first.Kept second) (h' : second.Kept third) :
    first.Kept third :=
  fun id name hbinds => h' id name (h id name hbinds)

theorem kept_put (store : Store) (id : FrameId) (name : String) (value : Value) :
    store.Kept (store.put id name value) :=
  fun _ _ hbinds => binds_put.2 (.inr hbinds)

/-- A new frame stands at a place where nothing was bound. -/
theorem kept_push (store : Store) (frame : Frame) : store.Kept (store.push frame) := by
  intro id name hbinds
  rwa [frame_push_of_lt (lt_of_binds hbinds)]

end Store

namespace Invariant

/-- What the frames of an earlier store bind stays bound. -/
def kept (start : Store) : Invariant :=
  ofScopes Unit (fun _ _ => True) (fun _ state => start.Kept state.store) fun _ _ => True

theorem kept_lawful [Host] (start : Store) : (kept start).Lawful :=
  ScopeLaws.lawful
    { refl _ := trivial
      trans _ _ := trivial
      mono _ _ := trivial
      environment _ := trivial
      bound _ _ _ _ := trivial
      still h hstore _ := by rwa [hstore]
      put name value h _ _ := h.trans (Store.kept_put _ _ name value)
      enter h _ _ := ⟨(), trivial, h.trans (Store.kept_push _ _)⟩
      leave _ _ hlast := hlast }

theorem kept_task (start : Store) (task : Task) : (kept start).task () task :=
  ofScopes_task fun _ _ _ _ => trivial

end Invariant

section Sessions

variable [Host]

/-- No task removes a binding, whatever its outcome. -/
theorem Task.keeps_bindings (settings : Settings) (count : Nat) (task : Task) (state : State) :
    state.store.Kept (task.evaluate settings count state).2.store := by
  obtain ⟨_, _, hlast, _⟩ := (Invariant.kept_lawful state.store).task count
    (Invariant.kept_task state.store task) state (.refl state.store)
  exact hlast

/-- Nor has one been removed when a task comes to start another one. -/
theorem Reaches.keeps_bindings {settings : Settings} {task part : Task} {state state' : State}
    {enclosing : List Task} (h : Reaches settings task state enclosing part state') :
    state.store.Kept state'.store := by
  induction h with
  | here => exact .refl state.store
  | starts _ hstarts ih =>
      obtain ⟨_, hlast, _⟩ := (Invariant.kept_lawful state.store).starts hstarts ih
        (Invariant.kept_task state.store _)
      exact hlast

namespace Session

/-- Nor does a program. -/
theorem run_keeps_bindings (bound : Nat) (session : Session) (program : Program) :
    session.state.store.Kept (session.run bound program).2.state.store := by
  obtain ⟨settings, state⟩ := session
  have hstatements :=
    Task.keeps_bindings settings bound (.statements .null program.statements) state
  rw [Statement.executeAll_task] at hstatements
  rcases run_state settings bound state program with h | ⟨fault, h⟩ | h <;>
    · rw [h]
      exact hstatements

theorem submit_keeps_bindings (bound : Nat) (session : Session) (source : String) :
    session.state.store.Kept (session.submit bound source).2.state.store := by
  unfold submit
  split
  · exact .refl _
  · next program _ =>
      exact run_keeps_bindings bound
        { session with state := { session.state with printed := "" } } program

/-- Nor do several texts. -/
theorem submitAll_keeps_bindings (bound : Nat) (session : Session) (sources : List String) :
    session.state.store.Kept (session.submitAll bound sources).2.state.store := by
  induction sources generalizing session with
  | nil => exact .refl _
  | cons source rest ih =>
      have hsource := submit_keeps_bindings bound session source
      unfold submitAll
      split
      · next heq =>
          rw [heq] at hsource
          exact hsource
      · next heq =>
          rw [heq] at hsource
          exact hsource.trans (ih _)

end Session

/-- What assignments and definitions do to the environments of a session, which all follow the same
links from frame to frame.

An assignment succeeds when the name is found, and changes nothing otherwise. When it succeeds, no
frame gains or loses a name, and the new value is found from the environments that resolve the name
to the same frame; all else is found as before. A new definition is found from the environments that
its own one is a part of, unless a frame in front of that part binds the name; again all else is
found as before.

No task, no program and no series of source texts ever removes a binding from a frame. -/
theorem scope_chains (settings : Settings) :
    (∀ state atHand, State.Reachable settings state atHand →
      ∃ links, State.Linked links state ∧
        (∀ value ∈ atHand, ∀ closure ∈ value.closures, links.Chain closure) ∧
        ∀ environment viewer, links.Chain environment → links.Chain viewer →
          ∀ name other value,
            let assigned := state.store.assign environment name value
            let defined := state.store.define environment name value
            (assigned.1 = true ↔ (state.store.find? environment name).isSome = true) ∧
            (assigned.1 = false → assigned.2 = state.store) ∧
            (assigned.1 = true →
              assigned.2.frames.size = state.store.frames.size ∧
              (∀ id target,
                (assigned.2.frame id).binds target = (state.store.frame id).binds target) ∧
              assigned.2.find? viewer other =
                if other = name ∧
                  state.store.holder? viewer name = state.store.holder? environment name
                then some value else state.store.find? viewer other) ∧
            let seen := other = name ∧ ∃ near, viewer = near ++ environment ∧
              ∀ nearer ∈ near, (state.store.frame nearer).binds name = false
            (seen → defined.find? viewer other = some value) ∧
            (¬ seen → defined.find? viewer other = state.store.find? viewer other)) ∧
    (∀ (task : Task) count (state : State),
      state.store.Kept (task.evaluate settings count state).2.store) ∧
    (∀ task (state : State) enclosing part state',
      Reaches settings task state enclosing part state' → state.store.Kept state'.store) ∧
    (∀ bound (state : State) program,
      state.store.Kept (Session.run bound ⟨settings, state⟩ program).2.state.store) ∧
    (∀ bound (state : State) sources,
      state.store.Kept (Session.submitAll bound ⟨settings, state⟩ sources).2.state.store) := by
  refine ⟨fun state atHand h => ?_,
    fun task count state => task.keeps_bindings settings count state,
    fun task state enclosing part state' h => h.keeps_bindings,
    fun bound state program => Session.run_keeps_bindings bound ⟨settings, state⟩ program,
    fun bound state sources => Session.submitAll_keeps_bindings bound ⟨settings, state⟩ sources⟩
  obtain ⟨links, hlinked, hatHand⟩ := h.linked
  refine ⟨links, hlinked, hatHand, fun environment viewer hchain hviewer name other value => ?_⟩
  refine ⟨Store.assign_iff value, Store.assign_failed, fun hsuccess => ⟨?_, ?_, ?_⟩, ?_⟩
  · obtain ⟨id, -, -, -, heq⟩ := Store.assign_succeeded hsuccess
    rw [heq, Store.size_put]
  · exact Store.binds_assign
  · exact Store.find?_assign hsuccess viewer other
  · obtain ⟨id, rest, rfl, hid⟩ := hchain.head
    rw [← hlinked.size] at hid
    rw [← Store.exposes_iff_of_chain hviewer hchain]
    refine ⟨?_, fun hunseen => Store.find?_put_unseen hunseen value⟩
    rintro ⟨rfl, hexposed⟩
    exact Store.find?_put_exposed hexposed hid value

end Sessions

/-- The program `let x = 1; while (true) { }`, and the task of its loop. -/
def boundOutside : Program × Task :=
  let place : Location := ⟨1, 1⟩
  let test : Expr := .boolean place true
  let body : Block := ⟨⟨.mark .leftBrace, place⟩, []⟩
  (⟨[.letBinding place ⟨"x", place⟩ (.integer place "1" 1), .whileLoop place test body]⟩,
    .whileTrue test body)

open scoped Host in
/-- An assignment to `x` in the loop is seen outside of it, a definition is not. -/
theorem scope_chains_boundOutside :
    let inLoop : Store := ⟨#[[("x", .integer 1)], []]⟩
    (∃ state, Visited .standard boundOutside.2 state ∧
      state.store = inLoop ∧ state.environment = [1, 0]) ∧
    (inLoop.assign [1, 0] "x" (.integer 2)).2.find? Store.root "x" = some (.integer 2) ∧
    (inLoop.define [1, 0] "x" (.integer 2)).find? Store.root "x" = some (.integer 1) := by
  intro inLoop
  let bound : State := { State.initial with store := ⟨#[[("x", .integer 1)]]⟩ }
  have hvisited : Visited .standard boundOutside.2 (bound.enter Store.root []) := by
    have hprogram : Visited .standard (.statements .null boundOutside.1.statements) .initial :=
      .program boundOutside.1 .new
    have hlet : Statement.execute .standard 2 (boundOutside.1.statements.head nofun) .initial =
        (.ok .null, bound) := rfl
    exact ((hprogram.starts (.restStatements hlet)).starts .firstStatement).starts .whileLoop
  obtain ⟨hlaws, -⟩ := scope_chains .standard
  obtain ⟨links, hlinked, -, hchains⟩ := hlaws _ _ (.starting hvisited)
  have hloop := hchains _ Store.root hlinked.current .root "x" "x" (.integer 2)
  obtain ⟨-, -, hassigned, -, hdefined⟩ := hloop
  refine ⟨⟨_, hvisited, rfl, rfl⟩, ?_, ?_⟩
  · have hfound := (hassigned rfl).2.2
    rwa [if_pos ⟨rfl, rfl⟩] at hfound
  · refine hdefined ?_
    -- the environment of the loop is no part of the one around it
    rintro ⟨-, _ | ⟨first, near⟩, heq, -⟩
    · cases heq
    · exact absurd (List.cons.inj heq).2.symm (List.append_ne_nil_of_right_ne_nil near nofun)

end Script
