import Script.Proofs.Evaluation.Restoration

/-!
# Scopes

Values refer to bindings through the environments that their functions were created under:
`Value.closures`. Many invariants say something of environments only, of the current one and of all
that values refer to. `Invariant.ofScopes` is such an invariant, and `Invariant.ScopeLaws` the few
laws that make it lawful.
-/

namespace Script

mutual

/-- The environments that the functions in a value were created under. -/
def Value.closures : Value → List Environment
  | .array _ elements => Value.closuresAll elements
  | .hash _ entries => Entry.closuresAll entries
  | .function _ closure _ => [closure]
  | _ => []
termination_by structural value => value

/-- The environments that the functions in several values were created under. -/
def Value.closuresAll : List Value → List Environment
  | [] => []
  | value :: rest => value.closures ++ Value.closuresAll rest
termination_by structural values => values

/-- The environments that the functions in an entry were created under. -/
def Entry.closures : Entry → List Environment
  | ⟨_, key, value⟩ => key.closures ++ value.closures
termination_by structural entry => entry

/-- The environments that the functions in several entries were created under. -/
def Entry.closuresAll : List Entry → List Environment
  | [] => []
  | entry :: rest => entry.closures ++ Entry.closuresAll rest
termination_by structural entries => entries

end

theorem Value.mem_closuresAll {closure : Environment} {values : List Value} :
    closure ∈ Value.closuresAll values ↔ ∃ value ∈ values, closure ∈ value.closures := by
  induction values with
  | nil => simp [Value.closuresAll]
  | cons value rest ih => simp [Value.closuresAll, ih]

theorem Entry.mem_closuresAll {closure : Environment} {entries : List Entry} :
    closure ∈ Entry.closuresAll entries ↔
      ∃ entry ∈ entries, closure ∈ entry.key.closures ∨ closure ∈ entry.value.closures := by
  induction entries with
  | nil => simp [Entry.closuresAll]
  | cons entry rest ih =>
      obtain ⟨hashKey, key, value⟩ := entry
      simp [Entry.closuresAll, Entry.closures, ih, or_assoc]

/-- Filing an entry leaves only entries that were there before. -/
theorem Entry.mem_insert {entry other : Entry} {entries : List Entry}
    (h : other ∈ Entry.insert entry entries) : other = entry ∨ other ∈ entries := by
  induction entries with
  | nil => exact .inl (List.mem_singleton.1 h)
  | cons first rest ih =>
      rw [Entry.insert] at h
      split at h
      · rcases List.mem_cons.1 h with rfl | h
        · exact .inl rfl
        · exact .inr (.tail _ h)
      · rcases List.mem_cons.1 h with rfl | h
        · exact .inr (.head _)
        · exact (ih h).imp_right (List.Mem.tail _)

/-! ## Frames of a store -/

theorem Frame.mem_of_find? {frame : Frame} {name : String} {value : Value}
    (h : frame.find? name = some value) : (name, value) ∈ frame := by
  induction frame with
  | nil => cases h
  | cons first rest ih =>
      obtain ⟨other, old⟩ := first
      rw [Frame.find?] at h
      split at h
      · next heq =>
          cases h
          rw [heq]
          exact .head _
      · exact .tail _ (ih h)

namespace Store

/-- A name is found in one of the visible frames. -/
theorem exists_of_find? {store : Store} {environment : Environment} {name : String} {value : Value}
    (h : store.find? environment name = some value) :
    ∃ id ∈ environment, (name, value) ∈ store.frame id := by
  obtain ⟨id, hid, hfound⟩ := List.exists_of_findSome?_eq_some h
  exact ⟨id, hid, Frame.mem_of_find? hfound⟩

/-- Binding a name in a frame leaves the other frames as they are. -/
theorem frame_put_of_ne {store : Store} {id other : FrameId} {name : String} {value : Value}
    (h : other ≠ id) : (store.put id name value).frame other = store.frame other := by
  simp only [frame, put, Array.getElem?_modify, if_neg h.symm]

/-- Binding a name in a frame adds one binding to it, and none to the others. -/
theorem mem_frame_put {store : Store} {id other : FrameId} {name : String} {value : Value}
    {binding : String × Value} (h : binding ∈ (store.put id name value).frame other) :
    binding = (name, value) ∨ binding ∈ store.frame other := by
  by_cases hother : other = id
  · simp only [frame, put, Array.getElem?_modify, hother, if_true] at h
    cases hframe : store.frames[id]? with
    | none => simp [hframe] at h
    | some frame =>
        simp only [hframe, Option.map_some, Option.getD_some] at h
        rw [hother, Store.frame, hframe]
        exact Frame.mem_put h
  · rw [frame_put_of_ne hother] at h
    exact .inr h

/-- After a name was bound in a frame, it has the new value there. -/
theorem find?_frame_put (store : Store) (id other : FrameId) (name target : String)
    (value : Value) :
    ((store.put id name value).frame other).find? target =
      if other = id ∧ id < store.frames.size ∧ target = name then some value
      else (store.frame other).find? target := by
  by_cases hother : other = id
  · subst hother
    by_cases hsize : other < store.frames.size
    · simp [frame, put, hsize, Array.getElem_modify_self, Frame.find?_put]
    · simp [frame, put, hsize]
  · rw [frame_put_of_ne hother, if_neg (fun h => hother h.1)]

/-- A new frame stands at the next place. -/
theorem frame_push (store : Store) (frame : Frame) (id : FrameId) :
    (store.push frame).frame id = if id = store.frames.size then frame else store.frame id := by
  simp only [Store.frame, push, Array.getElem?_push]
  split <;> rfl

/-- A new frame leaves the others as they are. -/
theorem frame_push_of_lt {store : Store} {frame : Frame} {id : FrameId}
    (h : id < store.frames.size) : (store.push frame).frame id = store.frame id := by
  simp only [Store.frame, push, Array.getElem?_push, if_neg (Nat.ne_of_lt h)]

/-- Past the last frame there are no bindings. -/
theorem lt_of_mem_frame {store : Store} {id : FrameId} {binding : String × Value}
    (h : binding ∈ store.frame id) : id < store.frames.size := by
  refine Nat.lt_of_not_le fun hsize => ?_
  rw [frame, Array.getElem?_eq_none hsize] at h
  cases h

/-- A new frame has its own bindings, and the others keep theirs. -/
theorem mem_frame_push {store : Store} {frame : Frame} {id : FrameId} {binding : String × Value}
    (h : binding ∈ (store.push frame).frame id) : binding ∈ frame ∨ binding ∈ store.frame id := by
  simp only [Store.frame, push, Array.getElem?_push] at h
  split at h
  · exact .inl h
  · exact .inr h

end Store

/-! ## Invariants of scopes -/

namespace Invariant

/-- What is said of a value is said of the environments in it. -/
def ofScopes (World : Type) (Leads : World → World → Prop) (state : World → State → Prop)
    (scope : World → Environment → Prop) : Invariant where
  World := World
  Leads := Leads
  state := state
  value world value := ∀ closure ∈ value.closures, scope world closure
  entries world entries := ∀ closure ∈ Entry.closuresAll entries, scope world closure
  scope := scope

/-- What makes an invariant of scopes lawful. -/
structure ScopeLaws {World : Type} (Leads : World → World → Prop) (state : World → State → Prop)
    (scope : World → Environment → Prop) : Prop where
  refl (world : World) : Leads world world
  trans {first second third : World} : Leads first second → Leads second third → Leads first third
  mono {first second : World} {environment : Environment} :
    Leads first second → scope first environment → scope second environment
  environment {world : World} {current : State} :
    state world current → scope world current.environment
  /-- What a visible name is bound to. -/
  bound {world : World} {current : State} {id : FrameId} {binding : String × Value}
    {closure : Environment} :
    state world current → id ∈ current.environment → binding ∈ current.store.frame id →
      closure ∈ binding.2.closures → scope world closure
  /-- Nothing but the frames and the current environment matters. -/
  still {world : World} {first second : State} :
    state world first → second.store = first.store → second.environment = first.environment →
      state world second
  put {world : World} {current : State} {id : FrameId} (name : String) {value : Value} :
    state world current → id ∈ current.environment →
      (∀ closure ∈ value.closures, scope world closure) →
      state world { current with store := current.store.put id name value }
  enter {world : World} {current : State} {parent : Environment} {frame : Frame} :
    state world current → scope world parent →
      (∀ binding ∈ frame, ∀ closure ∈ binding.2.closures, scope world closure) →
      ∃ inner, Leads world inner ∧ state inner (current.enter parent frame)
  leave {world last : World} {current final : State} :
    state world current → Leads world last → state last final →
      state last { final with environment := current.environment }

namespace ScopeLaws

variable {World : Type} {Leads : World → World → Prop} {state : World → State → Prop}
  {scope : World → Environment → Prop}

/-- A primitive operation that leaves the frames and the environment alone. -/
theorem keeps (h : ScopeLaws Leads state scope) {α : Type} {valid : World → α → Prop}
    {world : World} {evaluation : Evaluation α}
    (hsame : ∀ current, (evaluation current).2.store = current.store ∧
      (evaluation current).2.environment = current.environment)
    (hvalid : ∀ current, state world current →
      (ofScopes World Leads state scope).outcome valid world (evaluation current).1) :
    (ofScopes World Leads state scope).Keeps valid world evaluation := by
  intro current hstate
  obtain ⟨hstore, henvironment⟩ := hsame current
  exact ⟨world, h.refl world, h.still hstate hstore henvironment, hvalid current hstate⟩

/-- The other laws of invariants are about the parts of values, which refer to the environments that
the whole refers to. -/
theorem lawful [Host] (h : ScopeLaws Leads state scope) :
    (ofScopes World Leads state scope).Lawful where
  refl := h.refl
  trans := h.trans
  within hleads _ hvalue closure hclosure := h.mono hleads (hvalue closure hclosure)
  entries_leads hleads hentries closure hclosure := h.mono hleads (hentries closure hclosure)
  plain {world value} hplain closure hclosure := by
    cases value with
    | function => cases hplain
    | array => cases hplain
    | hash => cases hplain
    | integer | float | string | boolean | null | builtin | error => cases hclosure
  elements harray value hvalue closure hclosure :=
    harray closure (Value.mem_closuresAll.2 ⟨value, hvalue, hclosure⟩)
  filed hhash := hhash
  parts hentries hentry :=
    ⟨fun closure hclosure =>
        hentries closure (Entry.mem_closuresAll.2 ⟨_, hentry, .inl hclosure⟩),
      fun closure hclosure =>
        hentries closure (Entry.mem_closuresAll.2 ⟨_, hentry, .inr hclosure⟩)⟩
  entries_nil _ hclosure := by cases hclosure
  entries_insert hentries hkey hvalue _ closure hclosure := by
    obtain ⟨entry, hentry, hmem⟩ := Entry.mem_closuresAll.1 hclosure
    rcases Entry.mem_insert hentry with rfl | hold
    · rcases hmem with hmem | hmem
      · exact hkey closure hmem
      · exact hvalue closure hmem
    · exact hentries closure (Entry.mem_closuresAll.2 ⟨entry, hold, hmem⟩)
  entries_erase hentries closure hclosure := by
    obtain ⟨entry, hentry, hmem⟩ := Entry.mem_closuresAll.1 hclosure
    exact hentries closure (Entry.mem_closuresAll.2 ⟨entry, List.mem_of_mem_eraseP hentry, hmem⟩)
  closure hfunction := hfunction _ (.head _)
  environment := h.environment
  find hstate hfind closure hclosure := by
    obtain ⟨id, hid, hbinding⟩ := Store.exists_of_find? hfind
    exact h.bound hstate hid hbinding hclosure
  newArray helements := h.keeps (fun _ => ⟨rfl, rfl⟩) fun _ _ closure hclosure => by
    obtain ⟨value, hvalue, hmem⟩ := Value.mem_closuresAll.1 hclosure
    exact helements value hvalue closure hmem
  newHash hentries := h.keeps (fun _ => ⟨rfl, rfl⟩) fun _ _ => hentries
  newFunction _ := h.keeps (fun _ => ⟨rfl, rfl⟩) fun _ hstate closure hclosure => by
    have hcurrent := h.environment hstate
    rw [List.mem_singleton.1 hclosure]
    exact hcurrent
  newError _ := h.keeps (fun _ => ⟨rfl, rfl⟩) fun _ _ _ hclosure => by cases hclosure
  define {world} name value hvalue := by
    rintro ⟨store, environment, depth, identities, printed⟩ hstate
    refine ⟨world, h.refl world, ?_, trivial⟩
    cases environment with
    | nil => exact hstate
    | cons id rest => exact h.put name hstate (.head _) hvalue
  assign {world} name value hvalue current hstate := by
    refine ⟨world, h.refl world, ?_⟩
    rw [Evaluation.assign_apply]
    cases hholder : current.store.holder? current.environment name.name with
    | some id => exact ⟨h.put name.name hstate (List.mem_of_find?_eq_some hholder) hvalue, trivial⟩
    | none => exact ⟨hstate, trivial⟩
  printLine sink line := by
    refine h.keeps (fun current => ?_) fun current _ => ?_
    · unfold Evaluation.printLine
      split <;> exact ⟨rfl, rfl⟩
    · unfold Evaluation.printLine
      split <;> trivial
  inFrame hstate hparent hframe := by
    obtain ⟨inner, hinner, hentered⟩ := h.enter hstate hparent hframe
    refine ⟨inner, fun _ hvalue closure hclosure => h.mono hinner (hvalue closure hclosure),
      hentered, fun last final hleads hfinal => ?_⟩
    have hall := h.trans hinner hleads
    exact ⟨last, hall, fun _ hvalue => hvalue, h.leave hstate hall hfinal⟩
  inCall {world current} hstate :=
    ⟨world, fun _ hvalue => hvalue, h.still hstate rfl rfl, fun last final hleads hfinal =>
      ⟨last, hleads, fun _ hvalue => hvalue, h.still hfinal rfl rfl⟩⟩

end ScopeLaws

end Invariant

end Script
