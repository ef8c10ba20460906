import Script.Proofs.Evaluation.Contents
import Script.Value.Key

/-!
# Creations

A session numbers its arrays, hashes, functions and errors in the order in which they are made.
`State.Recorded` compares a state with a list of all of them: whatever is bound in the state, and
every compound value inside of it, is the creation that its identity stands for. Evaluations only
add to the list, `State.Recorded.task`. So compound values that are equal are the same creation, and
a new one is equal to no value that existed before, `State.Recorded.fresh`.
-/

namespace Script

/-! ## Identities and equality -/

namespace Value

/-- Compound values are compared by their identities. -/
theorem identity_eq_of_equal {a b : Value} (h : a.equal b = true) : a.identity? = b.identity? := by
  unfold equal at h
  split at h
  case h_8 | h_9 | h_10 | h_12 => rw [identity?, identity?, of_decide_eq_true h]
  case h_13 => cases h
  all_goals rfl

/-- A compound value equals itself. -/
theorem equal_self {value : Value} (h : value.identity?.isSome) : value.equal value = true := by
  cases value with
  | array | hash | function | error => exact decide_eq_true rfl
  | integer | float | string | boolean | null | builtin => cases h

end Value

/-- Compound values in the order in which they were made: the one with identity `i` at place `i`. -/
abbrev Creations := List Value

namespace Creations

/-- A value that has an identity is the creation at that place. -/
def Lists (creations : Creations) (value : Value) : Prop :=
  ∀ identity, value.identity? = some identity → creations[identity]? = some value

/-- A value is listed, and so is everything inside of it. -/
def Covers (creations : Creations) (value : Value) : Prop :=
  ∀ part ∈ value.contents, creations.Lists part

/-- All creations so far, each of them made of others. -/
structure Numbered (creations : Creations) (count : Nat) : Prop where
  size : creations.length = count
  identity : ∀ place (value : Value), creations[place]? = some value →
    value.identity? = some place
  covered : ∀ value ∈ creations, Covers creations value

variable {creations created : Creations} {a b value : Value} {identity : Identity}

theorem Lists.mono (h : creations.Lists value) (hlonger : creations <+: created) :
    created.Lists value := by
  intro identity hidentity
  obtain ⟨rest, rfl⟩ := hlonger
  obtain ⟨hlt, -⟩ := List.getElem?_eq_some_iff.1 (h identity hidentity)
  rw [List.getElem?_append_left hlt, h identity hidentity]

theorem Covers.mono (h : creations.Covers value) (hlonger : creations <+: created) :
    created.Covers value :=
  fun part hpart => (h part hpart).mono hlonger

/-- Listed values with one identity are one value. -/
theorem Lists.eq_of_identity (ha : creations.Lists a) (hb : creations.Lists b)
    (hidentity : a.identity? = some identity) (hsame : b.identity? = some identity) : a = b :=
  Option.some.inj ((ha identity hidentity).symm.trans (hb identity hsame))

/-- Listed compound values are equal when they are the same creation, and then they are the same
value. -/
theorem Lists.equal_iff (ha : creations.Lists a) (hb : creations.Lists b)
    (hidentity : a.identity? = some identity) :
    a.equal b = true ↔ a = b := by
  constructor
  · intro hequal
    exact ha.eq_of_identity hb hidentity ((Value.identity_eq_of_equal hequal).symm.trans hidentity)
  · rintro rfl
    exact Value.equal_self (by rw [hidentity]; rfl)

/-- A value with the next identity, made of listed values, is the next creation. -/
theorem Numbered.create {count : Nat} (h : creations.Numbered count)
    (hidentity : value.identity? = some count)
    (hinside : ∀ part ∈ value.inside, creations.Lists part) :
    Numbered (creations ++ [value]) (count + 1) ∧ Lists (creations ++ [value]) value := by
  have hlonger : creations <+: creations ++ [value] := List.prefix_append ..
  have hlast : (creations ++ [value])[count]? = some value := by
    rw [← h.size]
    exact List.getElem?_concat_length
  have hlists : Lists (creations ++ [value]) value := by
    intro identity hsame
    rw [← Option.some.inj (hidentity.symm.trans hsame)]
    exact hlast
  refine ⟨⟨?_, ?_, ?_⟩, hlists⟩
  · rw [List.length_append, h.size]
    rfl
  · intro place other hplace
    rw [List.getElem?_append] at hplace
    split at hplace
    · exact h.identity place other hplace
    · next hold =>
        obtain ⟨hlt, rfl⟩ := List.getElem?_eq_some_iff.1 hplace
        rw [List.getElem_singleton, hidentity]
        rw [List.length_singleton, h.size] at hlt
        rw [h.size] at hold
        congr 1
        omega
  · refine List.forall_mem_append.2 ⟨fun other hother => (h.covered other hother).mono hlonger, ?_⟩
    refine List.forall_mem_singleton.2 (List.forall_mem_cons.2 ⟨hlists, fun part hpart => ?_⟩)
    exact Lists.mono (hinside part hpart) hlonger

end Creations

/-! ## The invariant -/

/-- A state, with all that was made so far. -/
structure State.Recorded (creations : Creations) (state : State) : Prop where
  /-- As many identities were handed out. -/
  numbered : creations.Numbered state.identities
  bound : ∀ id, ∀ binding ∈ state.store.frame id, creations.Covers binding.2

namespace Invariant

theorem recorded_laws [Host] :
    ContentLaws (· <+: ·) Creations.Numbered Creations.Lists (fun _ => True) where
  refl := List.prefix_refl
  trans := List.IsPrefix.trans
  mono hlonger h := h.mono hlonger
  plain hplain identity hidentity := by
    rw [hplain] at hidentity
    cases hidentity
  filed _ := trivial
  shape_nil := trivial
  shape_insert _ _ := trivial
  shape_erase _ := trivial
  create {creations _ value} hnumbered hidentity hinside _ :=
    ⟨creations ++ [value], List.prefix_append .., hnumbered.create hidentity hinside⟩

end Invariant

namespace State

variable {settings : Settings} {state : State} {creations : Creations}

/-- A new value is added to the list. -/
theorem Recorded.create (h : state.Recorded creations) {value : Value}
    (hidentity : value.identity? = some state.identities)
    (hinside : ∀ part ∈ value.inside, creations.Lists part) :
    State.Recorded (creations ++ [value]) { state with identities := state.identities + 1 } where
  numbered := (h.numbered.create hidentity hinside).1
  bound id binding hbinding := (h.bound id binding hbinding).mono (List.prefix_append ..)

/-- What was made last equals nothing that existed before. -/
theorem Recorded.fresh {value other : Value} (h : state.Recorded (creations ++ [value]))
    (hother : creations.Lists other) : value.equal other = false ∧ other.equal value = false := by
  have hidentity : value.identity? = some creations.length :=
    h.numbered.identity _ _ List.getElem?_concat_length
  have hdiffers : value.identity? ≠ other.identity? := by
    intro hsame
    have hlisted := hother _ (hsame.symm.trans hidentity)
    rw [List.getElem?_eq_none (Nat.le_refl _)] at hlisted
    cases hlisted
  exact ⟨Bool.eq_false_iff.2 fun hequal => hdiffers (Value.identity_eq_of_equal hequal),
    Bool.eq_false_iff.2 fun hequal => hdiffers (Value.identity_eq_of_equal hequal).symm⟩

variable [Host]

/-- All values of a session are creations and plain values. -/
theorem Reachable.recorded {atHand : List Value} (h : State.Reachable settings state atHand) :
    ∃ creations, state.Recorded creations ∧ ∀ part, state.Holds atHand part →
      creations.Lists part := by
  obtain ⟨creations, hstate, hatHand⟩ :=
    Invariant.recorded_laws.reachable ⟨[], rfl, by simp, by simp⟩ h
  refine ⟨creations, ⟨hstate.1, hstate.2⟩, fun part hpart => ?_⟩
  rcases hpart with ⟨id, binding, hbinding, hpart⟩ | ⟨value, hvalue, hpart⟩
  · exact hstate.2 id binding hbinding part hpart
  · exact hatHand value hvalue part hpart

namespace Recorded

/-- A task adds to the list, and its results are on it. -/
theorem task (h : state.Recorded creations) (settings : Settings) (count : Nat) {task : Task}
    (hvalues : ∀ value ∈ task.values, creations.Covers value) :
    ∃ created, (task.evaluate settings count state).2.Recorded (creations ++ created) ∧
      ∀ value ∈ Interrupt.values (task.evaluate settings count state).1,
        Creations.Covers (creations ++ created) value := by
  have htask : (Invariant.ofContents Creations (· <+: ·) Creations.Numbered Creations.Lists
      fun _ => True).task creations task :=
    Invariant.ContentLaws.task hvalues fun _ _ _ => trivial
  obtain ⟨last, ⟨created, rfl⟩, hlast, houtcome⟩ :=
    Invariant.recorded_laws.lawful.task count htask state ⟨h.numbered, h.bound⟩
  exact ⟨created, ⟨hlast.1, hlast.2⟩, Invariant.outcome_values houtcome⟩

/-- A task with results adds to the list, and they are on it. -/
theorem task_ok (h : state.Recorded creations) {count : Nat} {task : Task}
    (hvalues : ∀ value ∈ task.values, creations.Covers value) {results : List Value} {last : State}
    (heval : task.evaluate settings count state = (.ok results, last)) :
    ∃ created, last.Recorded (creations ++ created) ∧
      ∀ value ∈ results, Creations.Covers (creations ++ created) value := by
  obtain ⟨created, hlast, hresults⟩ := h.task settings count hvalues
  rw [heval] at hlast hresults
  exact ⟨created, hlast, hresults⟩

end Recorded

end State

end Script
