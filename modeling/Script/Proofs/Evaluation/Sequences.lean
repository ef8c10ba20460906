import Script.Proofs.Evaluation.Hashes

/-!
# Sequences

Strings and arrays are sequences of the elements that a loop visits. Each operation on sequences has
its own way through the characters of a string or the elements of an array, and all of them agree on
what the elements are: `sequences_agree`.
-/

namespace Script

/-- The evaluation gives a sequence of some kind with the given elements. Of the state, it changes
no more than the number of identities. -/
def Evaluation.Gives (evaluation : Evaluation Value) (state : State) (kind : Kind)
    (elements : List Value) : Prop :=
  ∃ result identities, evaluation state = (.ok result, { state with identities := identities }) ∧
    result.kind = kind ∧ result.elements? = some elements

theorem Evaluation.gives_string (characters : List Char) (state : State) :
    (pure (.string (String.ofList characters)) : Evaluation Value).Gives state .string
      (characters.map Value.character) := by
  refine ⟨_, state.identities, rfl, rfl, ?_⟩
  rw [Value.elements?, String.toList_ofList]

theorem Evaluation.gives_newArray (elements : List Value) (state : State) :
    (newArray elements).Gives state .array elements :=
  ⟨.array state.identities elements, state.identities + 1, rfl, rfl, rfl⟩

/-! ## The ends of slices -/

namespace Builtin

/-- The elements between two ends are those before the second one, but not before the first one. -/
theorem between_eq {α : Type} (start stop : Nat) (elements : List α) :
    between start stop elements = (elements.take stop).drop start :=
  List.drop_take.symm

/-- The ends of a slice: the first one lies in the sequence and not behind the second one, which is
moved back to the end of the sequence. -/
def Cuts (length : Nat) (start stop : Int64) : Prop :=
  0 ≤ start.toInt ∧ start.toInt ≤ length ∧ start.toInt ≤ min stop.toInt length

variable {length : Nat} {start stop : Int64}

theorem sliceEnds_eq_ok (h : Cuts length start stop) :
    sliceEnds length (.integer start) (.integer stop) =
      .ok (start.toInt.toNat, (min stop.toInt length).toNat) := by
  obtain ⟨hstart, hlength, hstop⟩ := h
  rw [sliceEnds, if_neg]
  omega

theorem sliceEnds_eq_error (h : ¬ Cuts length start stop) :
    sliceEnds length (.integer start) (.integer stop) =
      .error (.sliceEnds start.toInt (min stop.toInt length)) := by
  rw [sliceEnds, if_pos]
  unfold Cuts at h
  omega

end Builtin

namespace Value

/-- Strings and arrays with their elements. -/
inductive Sequence : Value → List Value → Prop where
  | string (text : String) : Sequence (string text) (text.toList.map character)
  | array (identity : Identity) (elements : List Value) :
    Sequence (array identity elements) elements

/-- A string or an array is a sequence of the elements that a loop visits. -/
theorem sequence_of {value : Value} {elements : List Value}
    (hkind : value.kind = .string ∨ value.kind = .array)
    (helements : value.elements? = some elements) : value.Sequence elements := by
  cases value with
  | string text =>
      cases helements
      exact .string text
  | array identity =>
      cases helements
      exact .array identity elements
  | integer | float | boolean | hash | null | function | builtin | error =>
      rcases hkind with hkind | hkind <;> cases hkind

namespace Sequence

variable {value : Value} {elements : List Value}

/-- The number of elements. -/
theorem length_eq (h : value.Sequence elements) :
    Builtin.length value = pure (.integer (.ofNat elements.length)) := by
  cases h with
  | string text => rw [Builtin.length, List.length_map, String.length_toList]
  | array identity elements => rfl

/-- The elements from the last one to the first one. -/
theorem reverse_gives (h : value.Sequence elements) (state : State) :
    (Builtin.reverse value).Gives state value.kind elements.reverse := by
  cases h with
  | string text =>
      rw [← List.map_reverse]
      exact Evaluation.gives_string _ state
  | array identity elements => exact Evaluation.gives_newArray _ state

/-- The elements between two ends. -/
theorem slice_gives (h : value.Sequence elements) {start stop : Int64}
    (hcuts : Builtin.Cuts elements.length start stop) (state : State) :
    (Builtin.sliceOf value (.integer start) (.integer stop)).Gives state value.kind
      ((elements.take (min stop.toInt elements.length).toNat).drop start.toInt.toNat) := by
  cases h with
  | string text =>
      have hends := hcuts
      rw [List.length_map, String.length_toList] at hends
      rw [Builtin.sliceOf, Builtin.sliceEnds_eq_ok hends, List.length_map, String.length_toList,
        ← List.map_take, ← List.map_drop, ← Builtin.between_eq]
      exact Evaluation.gives_string _ state
  | array identity elements =>
      rw [Builtin.sliceOf, Builtin.sliceEnds_eq_ok hcuts, ← Builtin.between_eq]
      exact Evaluation.gives_newArray _ state

/-- Other ends are a fault. -/
theorem slice_eq_raise (h : value.Sequence elements) {start stop : Int64}
    (hcuts : ¬ Builtin.Cuts elements.length start stop) :
    Builtin.sliceOf value (.integer start) (.integer stop) =
      Evaluation.raise (.sliceEnds start.toInt (min stop.toInt elements.length)) := by
  cases h with
  | string text =>
      rw [List.length_map, String.length_toList] at hcuts ⊢
      rw [Builtin.sliceOf, Builtin.sliceEnds_eq_error hcuts]
      rfl
  | array identity elements =>
      rw [Builtin.sliceOf, Builtin.sliceEnds_eq_error hcuts]
      rfl

end Sequence

/-- The texts of characters make up the text that consists of them. -/
theorem intercalate_characters (characters : List Char) :
    "".intercalate ((characters.map character).map text) = String.ofList characters := by
  induction characters with
  | nil => rfl
  | cons first rest ih =>
      cases rest with
      | nil => rfl
      | cons second rest =>
          rw [List.map_cons, List.map_cons] at ih
          rw [List.map_cons, List.map_cons, List.map_cons, List.map_cons,
            String.intercalate_cons_cons, ih, String.append_empty]
          exact String.ofList_cons.symm

section Programs

variable [Host]

/-- What programs are told about a string or an array: every operation goes by the same elements. -/
structure Sequential (settings : Settings) (value : Value) (elements : List Value) : Prop where
  /-- A loop visits the elements, in order. -/
  loop : ∀ location element iterable body count state state',
    Expr.evaluate settings count iterable state = (.ok value, state') →
    Statement.execute settings (count + 1) (.forLoop location element iterable body) state =
      Evaluation.withChildFrame []
        ((Evaluators.upTo settings count).forEach element.name body elements) state'
  /-- The length is the number of elements. A sequence that fits into memory has fewer than `2 ^ 63`
  of them. -/
  length : ∀ state, ∃ length : Int64,
    Builtin.len.call settings.sink [value] state = (.ok (.integer length), state) ∧
    length = .ofNat elements.length ∧
    (elements.length < 2 ^ 63 → length.toInt = elements.length)
  /-- A place in the sequence is that of an element, and any other place is that of null. -/
  inside : ∀ (place : Int64) (number : Nat) (element : Value), place.toInt = number →
    elements[number]? = some element → value.index (.integer place) = .ok element
  outside : ∀ place : Int64, place.toInt < 0 ∨ elements.length ≤ place.toInt →
    value.index (.integer place) = .ok .null
  reversed : ∀ state, (Builtin.reversed.call settings.sink [value]).Gives state value.kind
    elements.reverse
  /-- Ends that cut the sequence give the elements between them, and any others a fault. -/
  slice : ∀ (start stop : Int64) state, Builtin.Cuts elements.length start stop →
    (Builtin.slice.call settings.sink [value, .integer start, .integer stop]).Gives state value.kind
      ((elements.take (min stop.toInt elements.length).toNat).drop start.toInt.toNat)
  unsliced : ∀ (start stop : Int64) state, ¬ Builtin.Cuts elements.length start stop →
    Builtin.slice.call settings.sink [value, .integer start, .integer stop] state =
      (.error (.raised (.sliceEnds start.toInt (min stop.toInt elements.length))), state)
  split : value.kind = .string → ∀ state,
    (Builtin.split.call settings.sink [value]).Gives state .array elements
  /-- Any array of the elements of a string can be joined to the string. -/
  join : value.kind = .string → ∀ array state, array.kind = .array →
    array.elements? = some elements →
    Builtin.join.call settings.sink [array, .string ""] state = (.ok value, state)
  /-- The slices in front of a place and behind it make up the sequence. -/
  halves : elements.length < 2 ^ 63 → ∀ (length middle : Int64) state,
    Builtin.len.call settings.sink [value] state = (.ok (.integer length), state) →
    0 ≤ middle.toInt → middle.toInt ≤ length.toInt →
    ∃ front back state' state'' first second,
      Builtin.slice.call settings.sink [value, .integer 0, .integer middle] state =
        (.ok front, state') ∧
      Builtin.slice.call settings.sink [value, .integer middle, .integer length] state' =
        (.ok back, state'') ∧
      front.elements? = some first ∧ back.elements? = some second ∧ first ++ second = elements

namespace Sequence

variable {value : Value} {elements : List Value}

/-- The element at a place. -/
theorem index_eq (h : value.Sequence elements) (place : Int64) :
    value.index (.integer place) = .ok (elementAt elements place) := by
  cases h <;> rfl

theorem inside (h : value.Sequence elements) {place : Int64} {number : Nat} {element : Value}
    (hplace : place.toInt = number) (helement : elements[number]? = some element) :
    value.index (.integer place) = .ok element := by
  have hnonneg : ¬ (number : Int) < 0 := Int.not_lt.2 (Int.natCast_nonneg number)
  rw [h.index_eq, elementAt, hplace, if_neg hnonneg, Int.toNat_natCast, helement]
  rfl

theorem outside (h : value.Sequence elements) {place : Int64}
    (hplace : place.toInt < 0 ∨ elements.length ≤ place.toInt) :
    value.index (.integer place) = .ok .null := by
  rw [h.index_eq, elementAt]
  split
  · rfl
  · have hnone : elements[place.toInt.toNat]? = none := List.getElem?_eq_none (by omega)
    rw [hnone]
    rfl

theorem split_gives (h : value.Sequence elements) (hkind : value.kind = .string) (sink : Sink)
    (state : State) : (Builtin.split.call sink [value]).Gives state .array elements := by
  cases h with
  | string text => exact Evaluation.gives_newArray _ state
  | array => cases hkind

theorem join_eq (h : value.Sequence elements) (hkind : value.kind = .string) {array : Value}
    (harray : array.kind = .array) (helements : array.elements? = some elements) (sink : Sink)
    (state : State) : Builtin.join.call sink [array, .string ""] state = (.ok value, state) := by
  cases sequence_of (.inr harray) helements with
  | string text => cases harray
  | array identity =>
      cases h with
      | string text =>
          show (Except.ok (Value.string ("".intercalate _)), state) = _
          rw [intercalate_characters, String.ofList_toList]
      | array => cases hkind

theorem halves (h : value.Sequence elements) (sink : Sink) {length middle : Int64}
    (hlen : length.toInt = elements.length) (hnonneg : 0 ≤ middle.toInt)
    (hmiddle : middle.toInt ≤ length.toInt) (state : State) :
    ∃ front back state' state'' first second,
      Builtin.slice.call sink [value, .integer 0, .integer middle] state = (.ok front, state') ∧
      Builtin.slice.call sink [value, .integer middle, .integer length] state' =
        (.ok back, state'') ∧
      front.elements? = some first ∧ back.elements? = some second ∧
      first ++ second = elements := by
  have hzero : (0 : Int64).toInt = 0 := rfl
  have hfront : Builtin.Cuts elements.length 0 middle := by
    unfold Builtin.Cuts
    omega
  have hback : Builtin.Cuts elements.length middle length := by
    unfold Builtin.Cuts
    omega
  obtain ⟨front, identities, hcall, -, hfirst⟩ := h.slice_gives hfront state
  obtain ⟨back, identities', hcall', -, hsecond⟩ :=
    h.slice_gives hback { state with identities := identities }
  refine ⟨front, back, _, _, _, _, hcall, hcall', hfirst, hsecond, ?_⟩
  rw [Int.min_eq_left (hlen ▸ hmiddle), hlen, Int.min_self, Int.toNat_natCast, List.take_length,
    hzero, Int.toNat_zero, List.drop_zero, List.take_append_drop]

end Sequence

end Programs

end Value

/-- All operations on a string or an array go by the elements that a loop over it visits. -/
theorem sequences_agree [Host] (settings : Settings) (value : Value) (elements : List Value)
    (hkind : value.kind = .string ∨ value.kind = .array)
    (helements : value.elements? = some elements) : value.Sequential settings elements := by
  have h := Value.sequence_of hkind helements
  have hlen (state : State) : Builtin.len.call settings.sink [value] state =
      (.ok (.integer (.ofNat elements.length)), state) := by
    rw [Builtin.call, h.length_eq]
    rfl
  exact {
    loop := fun _ _ _ _ _ _ _ heval => Statement.execute_forLoop heval helements
    length := fun state => ⟨_, hlen state, rfl, Int64.toInt_ofNat_of_lt⟩
    inside := fun _ _ _ hplace helement => h.inside hplace helement
    outside := fun _ hplace => h.outside hplace
    reversed := h.reverse_gives
    slice := fun _ _ state hcuts => h.slice_gives hcuts state
    unsliced := fun _ _ state hcuts => congrFun (h.slice_eq_raise hcuts) state
    split := fun hstring => h.split_gives hstring settings.sink
    join := fun hstring _ state harray hlist => h.join_eq hstring harray hlist settings.sink state
    halves := fun hlength length middle state hcall hnonneg hmiddle => by
      rw [hlen] at hcall
      cases hcall
      exact h.halves settings.sink (Int64.toInt_ofNat_of_lt hlength) hnonneg hmiddle state }

open scoped Host in
/-- A character is one element, however many bytes it is stored in. -/
theorem sequences_agree_accented :
    (Value.string "été").kind = .string ∧
    (Value.string "été").elements? = some [.string "é", .string "t", .string "é"] ∧
    (Value.string "été").Sequential .standard [.string "é", .string "t", .string "é"] :=
  ⟨rfl, rfl, sequences_agree .standard _ _ (.inl rfl) rfl⟩

end Script
