import Script.Proofs.Evaluation.Scopes

/-!
# What values are made of

The values inside of a value are its elements, keys and entries, and the values inside of those.
Many invariants say the same of every value inside of every value, and `Invariant.ofContents` is
such an invariant. `Invariant.ContentLaws` asks only that what is said holds of a new value when it
holds of the values that it is made of.
-/

namespace Script

/-- The identity of a value that has one. -/
def Value.identity? : Value → Option Identity
  | .array identity _ | .hash identity _ | .function identity _ _ | .error identity _ =>
    some identity
  | _ => none

theorem Value.isPlain_iff {value : Value} : value.isPlain = true ↔ value.identity? = none := by
  cases value <;> simp [isPlain, identity?]

mutual

/-- The values inside of a value. The bindings that a function refers to are not among them. -/
def Value.inside : Value → List Value
  | .array _ elements => Value.insideAll elements
  | .hash _ entries => Entry.insideAll entries
  | _ => []
termination_by structural value => value

/-- Several values, and the values inside of them. -/
def Value.insideAll : List Value → List Value
  | [] => []
  | value :: rest => value :: (value.inside ++ Value.insideAll rest)
termination_by structural values => values

/-- The key and the value of an entry, and the values inside of them. -/
def Entry.inside : Entry → List Value
  | ⟨_, key, value⟩ => key :: (key.inside ++ value :: value.inside)
termination_by structural entry => entry

/-- The keys and the values of several entries, and the values inside of them. -/
def Entry.insideAll : List Entry → List Value
  | [] => []
  | entry :: rest => entry.inside ++ Entry.insideAll rest
termination_by structural entries => entries

end

/-- A value, and the values inside of it. -/
def Value.contents (value : Value) : List Value := value :: value.inside

theorem Value.mem_insideAll {part : Value} {values : List Value} :
    part ∈ Value.insideAll values ↔ ∃ value ∈ values, part ∈ value.contents := by
  induction values with
  | nil => simp [Value.insideAll]
  | cons value rest ih => simp [Value.insideAll, Value.contents, ih, or_assoc]

theorem Entry.mem_insideAll {part : Value} {entries : List Entry} :
    part ∈ Entry.insideAll entries ↔
      ∃ entry ∈ entries, part ∈ entry.key.contents ∨ part ∈ entry.value.contents := by
  induction entries with
  | nil => simp [Entry.insideAll]
  | cons entry rest ih =>
      obtain ⟨hashKey, key, value⟩ := entry
      simp [Entry.insideAll, Entry.inside, Value.contents, ih, or_assoc]

/-- The values that a state holds, bound to a name or at hand, and the values inside of them. -/
def State.Holds (state : State) (atHand : List Value) (part : Value) : Prop :=
  (∃ id, ∃ binding ∈ state.store.frame id, part ∈ binding.2.contents) ∨
    ∃ value ∈ atHand, part ∈ value.contents

/-! ## Invariants of contents -/

namespace Invariant

/-- What is said of a state is said of all values bound in it and of all values inside of them. It
may also be about the number of identities that were handed out, and about the entries of a hash. -/
def ofContents (World : Type) (Leads : World → World → Prop) (count : World → Nat → Prop)
    (part : World → Value → Prop) (shape : List Entry → Prop) : Invariant where
  World := World
  Leads := Leads
  state world state := count world state.identities ∧
    ∀ id, ∀ binding ∈ state.store.frame id, ∀ inner ∈ binding.2.contents, part world inner
  value world value := ∀ inner ∈ value.contents, part world inner
  entries world entries := shape entries ∧ ∀ inner ∈ Entry.insideAll entries, part world inner
  scope _ _ := True

/-- Binding a name to a value of the world, in any frame. -/
theorem ofContents_put {World : Type} {Leads : World → World → Prop} {count : World → Nat → Prop}
    {part : World → Value → Prop} {shape : List Entry → Prop} {world : World} {current : State}
    (hstate : (ofContents World Leads count part shape).state world current) (id : FrameId)
    (name : String) {value : Value} (hvalue : ∀ inner ∈ value.contents, part world inner) :
    (ofContents World Leads count part shape).state world
      { current with store := current.store.put id name value } := by
  refine ⟨hstate.1, fun other binding hbinding => ?_⟩
  rcases Store.mem_frame_put hbinding with rfl | hold
  · exact hvalue
  · exact hstate.2 other binding hold

variable [Host]

/-- What makes an invariant of contents lawful. -/
structure ContentLaws {World : Type} (Leads : World → World → Prop) (count : World → Nat → Prop)
    (part : World → Value → Prop) (shape : List Entry → Prop) : Prop where
  refl (world : World) : Leads world world
  trans {first second third : World} : Leads first second → Leads second third → Leads first third
  mono {first second : World} {value : Value} :
    Leads first second → part first value → part second value
  plain {world : World} {value : Value} : value.identity? = none → part world value
  filed {world : World} {identity : Identity} {entries : List Entry} :
    part world (.hash identity entries) → shape entries
  shape_nil : shape []
  shape_insert {entries : List Entry} {entry : Entry} :
    shape entries → entry.key.hashKey? = some entry.hashKey → shape (Entry.insert entry entries)
  shape_erase {entries : List Entry} {hashKey : HashKey} :
    shape entries → shape (Entry.erase hashKey entries)
  /-- A new value has the next identity, and is made of values of the world. -/
  create {world : World} {identity : Identity} {value : Value} :
    count world identity → value.identity? = some identity →
      (∀ inner ∈ value.inside, part world inner) →
      (∀ other entries, value = .hash other entries → shape entries) →
      ∃ last, Leads world last ∧ count last (identity + 1) ∧ part last value

namespace ContentLaws

variable {World : Type} {Leads : World → World → Prop} {count : World → Nat → Prop}
  {part : World → Value → Prop} {shape : List Entry → Prop}

/-- A primitive operation that leaves the bindings and the identities alone. -/
theorem keeps (h : ContentLaws Leads count part shape) {α : Type} {valid : World → α → Prop}
    {world : World} {evaluation : Evaluation α}
    (hsame : ∀ current, (evaluation current).2.store = current.store ∧
      (evaluation current).2.identities = current.identities)
    (hvalid : ∀ current,
      (ofContents World Leads count part shape).outcome valid world (evaluation current).1) :
    (ofContents World Leads count part shape).Keeps valid world evaluation := by
  intro current hstate
  obtain ⟨hstore, hidentities⟩ := hsame current
  refine ⟨world, h.refl world, ⟨?_, ?_⟩, hvalid current⟩
  · rw [hidentities]
    exact hstate.1
  · rw [hstore]
    exact hstate.2

/-- Making a value out of values of the world. -/
theorem makes (h : ContentLaws Leads count part shape) {world : World} {make : State → Value}
    {evaluation : Evaluation Value}
    (hmakes : ∀ current, evaluation current =
      (.ok (make current), { current with identities := current.identities + 1 }))
    (hidentity : ∀ current, (make current).identity? = some current.identities)
    (hinside : ∀ current, ∀ inner ∈ (make current).inside, part world inner)
    (hshape : ∀ current other entries, make current = .hash other entries → shape entries) :
    (ofContents World Leads count part shape).Keeps
      (fun world value => ∀ inner ∈ value.contents, part world inner) world evaluation := by
  intro current hstate
  obtain ⟨last, hleads, hcount, hpart⟩ :=
    h.create hstate.1 (hidentity current) (hinside current) (hshape current)
  rw [hmakes current]
  refine ⟨last, hleads, ⟨hcount, fun id binding hbinding inner hinner => ?_⟩, ?_⟩
  · exact h.mono hleads (hstate.2 id binding hbinding inner hinner)
  · refine List.forall_mem_cons.2 ⟨hpart, fun inner hinner => ?_⟩
    exact h.mono hleads (hinside current inner hinner)

/-- The other laws of invariants are about values that are inside of others. -/
theorem lawful (h : ContentLaws Leads count part shape) :
    (ofContents World Leads count part shape).Lawful where
  refl := h.refl
  trans := h.trans
  within hleads _ hvalue inner hinner := h.mono hleads (hvalue inner hinner)
  entries_leads hleads hentries :=
    ⟨hentries.1, fun inner hinner => h.mono hleads (hentries.2 inner hinner)⟩
  plain {world value} hplain inner hinner := by
    have hnone := Value.isPlain_iff.1 hplain
    cases value with
    | integer | float | string | boolean | null | builtin =>
        rw [List.mem_singleton.1 hinner]
        exact h.plain rfl
    | array | hash | function | error => cases hnone
  elements harray value hvalue inner hinner :=
    harray inner (.tail _ (Value.mem_insideAll.2 ⟨value, hvalue, hinner⟩))
  filed hhash := ⟨h.filed (hhash _ (.head _)), fun inner hinner => hhash inner (.tail _ hinner)⟩
  parts hentries hentry :=
    ⟨fun inner hinner =>
        hentries.2 inner (Entry.mem_insideAll.2 ⟨_, hentry, .inl hinner⟩),
      fun inner hinner =>
        hentries.2 inner (Entry.mem_insideAll.2 ⟨_, hentry, .inr hinner⟩)⟩
  entries_nil := ⟨h.shape_nil, List.forall_mem_nil _⟩
  entries_insert hentries hkey hvalue hhash := by
    refine ⟨h.shape_insert hentries.1 hhash, fun inner hinner => ?_⟩
    obtain ⟨entry, hentry, hmem⟩ := Entry.mem_insideAll.1 hinner
    rcases Entry.mem_insert hentry with rfl | hold
    · rcases hmem with hmem | hmem
      · exact hkey inner hmem
      · exact hvalue inner hmem
    · exact hentries.2 inner (Entry.mem_insideAll.2 ⟨entry, hold, hmem⟩)
  entries_erase hentries := by
    refine ⟨h.shape_erase hentries.1, fun inner hinner => ?_⟩
    obtain ⟨entry, hentry, hmem⟩ := Entry.mem_insideAll.1 hinner
    exact hentries.2 inner (Entry.mem_insideAll.2 ⟨entry, List.mem_of_mem_eraseP hentry, hmem⟩)
  closure _ := trivial
  environment _ := trivial
  find hstate hfind := by
    obtain ⟨id, -, hbinding⟩ := Store.exists_of_find? hfind
    exact hstate.2 id _ hbinding
  newArray helements := h.makes (fun _ => rfl) (fun _ => rfl)
    (fun _ inner hinner => by
      obtain ⟨value, hvalue, hmem⟩ := Value.mem_insideAll.1 hinner
      exact helements value hvalue inner hmem)
    (fun _ _ _ heq => by cases heq)
  newHash hentries := h.makes (fun _ => rfl) (fun _ => rfl) (fun _ => hentries.2)
    (fun _ _ _ heq => by cases heq; exact hentries.1)
  newFunction _ := h.makes (fun _ => rfl) (fun _ => rfl) (fun _ => List.forall_mem_nil _)
    (fun _ _ _ heq => by cases heq)
  newError _ := h.makes (fun _ => rfl) (fun _ => rfl) (fun _ => List.forall_mem_nil _)
    (fun _ _ _ heq => by cases heq)
  define {world} name value hvalue := by
    rintro ⟨store, environment, depth, identities, printed⟩ hstate
    refine ⟨world, h.refl world, ?_, trivial⟩
    cases environment with
    | nil => exact hstate
    | cons id rest => exact ofContents_put hstate id name hvalue
  assign {world} name value hvalue current hstate := by
    refine ⟨world, h.refl world, ?_⟩
    rw [Evaluation.assign_apply]
    cases current.store.holder? current.environment name.name with
    | some id => exact ⟨ofContents_put hstate id name.name hvalue, trivial⟩
    | none => exact ⟨hstate, trivial⟩
  printLine sink line := by
    refine h.keeps (fun current => ?_) fun current => ?_
    · unfold Evaluation.printLine
      split <;> exact ⟨rfl, rfl⟩
    · unfold Evaluation.printLine
      split <;> trivial
  inFrame {world state parent frame} hstate _ hframe := by
    refine ⟨world, fun _ hvalue => hvalue, ⟨hstate.1, fun id binding hbinding => ?_⟩,
      fun last final hleads hfinal => ⟨last, hleads, fun _ hvalue => hvalue, hfinal⟩⟩
    rcases Store.mem_frame_push hbinding with hnew | hold
    · exact hframe binding hnew
    · exact hstate.2 id binding hold
  inCall {world state} hstate :=
    ⟨world, fun _ hvalue => hvalue, hstate, fun last final hleads hfinal =>
      ⟨last, hleads, fun _ hvalue => hvalue, hfinal⟩⟩

omit [Host] in
/-- The values of a task hold what is said when all values that the task has hold it. -/
theorem task {world : World} {task : Task} (h : ∀ value ∈ task.values, ∀ inner ∈ value.contents,
      part world inner) (hshape : ∀ entries list, task = .pairs entries list → shape entries) :
    (ofContents World Leads count part shape).task world task := by
  cases task with
  | pairs entries list =>
      refine ⟨hshape entries list rfl, fun inner hinner => ?_⟩
      obtain ⟨entry, hentry, hmem⟩ := Entry.mem_insideAll.1 hinner
      rcases hmem with hmem | hmem
      · exact h entry.key (List.mem_flatMap.2 ⟨entry, hentry, .head _⟩) inner hmem
      · exact h entry.value (List.mem_flatMap.2 ⟨entry, hentry, .tail _ (.head _)⟩) inner hmem
  | statements last list => exact h last (.head _)
  | forEach name body elements => exact h
  | call location callee arguments =>
      exact ⟨h callee (.head _), fun value hvalue => h value (.tail _ hvalue)⟩
  | expr | exprs | statement | whileTrue => trivial

variable {settings : Settings}

/-- What is said holds of all values that a session holds at any time. -/
theorem reachable (h : ContentLaws Leads count part shape) (hinitial : ∃ world, count world 0)
    {state : State} {atHand : List Value} (hreachable : State.Reachable settings state atHand) :
    ∃ world, (ofContents World Leads count part shape).state world state ∧
      (ofContents World Leads count part shape).values world atHand := by
  refine h.lawful.reachable (fun reached hreached => ?_) hreachable
  refine h.lawful.reached ?_ (fun world state hstate => ⟨world, hstate⟩) hreached
  obtain ⟨world, hcount⟩ := hinitial
  refine ⟨world, hcount, fun id binding hbinding => ?_⟩
  cases id <;> exact False.elim (List.not_mem_nil hbinding)

end ContentLaws

end Invariant

end Script
