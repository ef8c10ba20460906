import Script.Proofs.Evaluation.Invariant

/-!
# What operations give

Operators, indexing and builtin functions make their results of their operands and of values
without parts. `Value.Computed` says so of operators, `Value.Hereditary.index` of indexing, and
`Builtin.call_acts` lists all that a builtin function may do. What is shown of these cases once
holds of every operation.
-/

namespace Script

/-- Whether a fault is about a `break` or a `continue` outside of all loops. -/
def Fault.isStray : Fault → Bool
  | .strayBreak _ | .strayContinue _ => true
  | _ => false

/-! ## What operators give -/

namespace Value

/-- What an operator may give: a value without parts, or a fault of its operands. -/
def Computed : Except Fault Value → Prop
  | .ok value => value.isPlain = true
  | .error fault => fault.isStray = false

theorem negate_computed (value : Value) : Computed value.negate := by
  unfold negate
  split
  · split <;> rfl
  · rfl
  · rfl

theorem arithmetic_computed [Host] (operator : BinaryOperator) (exact : Int → Int → Int)
    (rounded : Float → Float → Float) (left right : Value) :
    Computed (arithmetic operator exact rounded left right) := by
  unfold arithmetic
  split
  · split <;> rfl
  · split <;> rfl

theorem comparison_computed (operator : BinaryOperator) (holds : Ordering → Bool)
    (left right : Value) : Computed (comparison operator holds left right) := by
  unfold comparison
  split <;> rfl

theorem add_computed [Host] (left right : Value) : Computed (left.add right) := by
  unfold add
  split
  · rfl
  · exact arithmetic_computed _ _ _ _ _

theorem divide_computed [Host] (left right : Value) : Computed (left.divide right) := by
  unfold divide
  split
  · rfl
  · exact arithmetic_computed _ _ _ _ _

theorem contains_fault [Host] {collection needle : Value} {fault : Fault}
    (h : collection.contains needle = .error fault) : fault = .membership collection.kind := by
  unfold contains at h
  split at h
  · split at h <;> cases h
  · cases h
  · split at h
    · split at h <;> cases h
    · cases h
  · cases h
    rfl

end Value

theorem UnaryOperator.apply_computed (operator : UnaryOperator) (operand : Value) :
    Value.Computed (operator.apply operand) := by
  cases operator with
  | negate => exact operand.negate_computed
  | not => rfl

theorem BinaryOperator.apply_computed [Host] (operator : BinaryOperator) (left right : Value) :
    Value.Computed (operator.apply left right) := by
  cases operator with
  | equal | notEqual | and | or => rfl
  | member =>
      simp only [apply, Bind.bind, Except.bind]
      cases hfound : right.contains left with
      | ok found => rfl
      | error fault =>
          rw [Value.contains_fault hfound]
          rfl
  | less | lessEqual | greater | greaterEqual => exact Value.comparison_computed _ _ _ _
  | add => exact left.add_computed right
  | subtract | multiply => exact Value.arithmetic_computed _ _ _ _ _
  | divide => exact left.divide_computed right

/-! ## What values are made of -/

/-- What is said of values and of the entries of hashes, such that it holds of the parts of a value
when it holds of the value. -/
structure Value.Hereditary (value : Value → Prop) (entries : List Entry → Prop) : Prop where
  plain {whole : Value} : whole.isPlain = true → value whole
  elements {identity : Identity} {elements : List Value} :
    value (.array identity elements) → ∀ element ∈ elements, value element
  filed {identity : Identity} {filed : List Entry} : value (.hash identity filed) → entries filed
  parts {filed : List Entry} {entry : Entry} :
    entries filed → entry ∈ filed → value entry.key ∧ value entry.value
  erase {filed : List Entry} {hashKey : HashKey} :
    entries filed → entries (Entry.erase hashKey filed)

namespace Value.Hereditary

variable {value : Value → Prop} {entries : List Entry → Prop}

/-- An element of a sequence, or null where there is none. -/
theorem elementAt (h : Hereditary value entries) {elements : List Value}
    (helements : ∀ element ∈ elements, value element) (place : Int64) :
    value (Value.elementAt elements place) := by
  unfold Value.elementAt
  split
  · exact h.plain rfl
  · cases hget : elements[place.toInt.toNat]? with
    | none => exact h.plain rfl
    | some element => exact helements element (List.mem_of_getElem? hget)

theorem characters (h : Hereditary value entries) (text : String) :
    ∀ element ∈ text.toList.map Value.character, value element := by
  intro element helement
  obtain ⟨c, -, rfl⟩ := List.mem_map.1 helement
  exact h.plain rfl

/-- What a loop visits. -/
theorem elements? (h : Hereditary value entries) {whole : Value} {elements : List Value}
    (hwhole : value whole) (helements : whole.elements? = some elements) :
    ∀ element ∈ elements, value element := by
  cases whole with
  | string text =>
      cases helements
      exact h.characters text
  | array identity elements =>
      cases helements
      exact h.elements hwhole
  | hash identity filed =>
      cases helements
      intro key hkey
      obtain ⟨entry, hentry, rfl⟩ := List.mem_map.1 hkey
      exact (h.parts (h.filed hwhole) hentry).1
  | integer | float | boolean | null | function | builtin | error => cases helements

/-- What is found in a collection. -/
theorem index [Host] (h : Hereditary value entries) {collection place found : Value}
    (hcollection : value collection) (hfound : collection.index place = .ok found) :
    value found := by
  unfold Value.index at hfound
  split at hfound
  · cases hfound
    exact h.elementAt (h.elements hcollection) _
  · cases hfound
    exact h.elementAt (h.characters _) _
  · split at hfound
    · next filed _ hashKey _ =>
        cases hfound
        cases hfind : Entry.find? hashKey filed with
        | none => exact h.plain rfl
        | some entry => exact (h.parts (h.filed hcollection) (List.mem_of_find?_eq_some hfind)).2
    · cases hfound
  · cases hfound

end Value.Hereditary

theorem Value.index_fault [Host] {collection place : Value} {fault : Fault}
    (h : collection.index place = .error fault) : fault.isStray = false := by
  unfold Value.index at h
  split at h
  · cases h
  · cases h
  · split at h
    · cases h
    · cases h
      rfl
  · cases h
    rfl

/-! ## Builtin functions -/

namespace Builtin

/-- What a builtin function may do with its arguments. -/
inductive Acts (sink : Sink) (arguments : List Value) : Evaluation Value → Prop where
  | raise {fault : Fault} : fault.isStray = false → Acts sink arguments (Evaluation.raise fault)
  | plain {value : Value} : value.isPlain = true → Acts sink arguments (pure value)
  | newArray {elements : List Value} :
    (∀ value entries, Value.Hereditary value entries → (∀ argument ∈ arguments, value argument) →
      ∀ element ∈ elements, value element) →
    Acts sink arguments (Evaluation.newArray elements)
  | newHash {filed : List Entry} :
    (∀ value entries, Value.Hereditary value entries → (∀ argument ∈ arguments, value argument) →
      entries filed) →
    Acts sink arguments (Evaluation.newHash filed)
  /-- An array beyond the capacity is asked for. -/
  | crash : Acts sink arguments (Evaluation.interrupt .crashed)
  | print (line : String) :
    Acts sink arguments (Evaluation.printLine sink line >>= fun _ => pure .null)

variable {sink : Sink} {arguments : List Value} {callee : Builtin} {role : ArgumentRole}
  {value : Value}

theorem length_acts (value : Value) : Acts sink arguments (length value) := by
  unfold length
  split
  · exact .plain rfl
  · exact .plain rfl
  · exact .plain rfl
  · exact .raise rfl

theorem reverse_acts (hvalue : value ∈ arguments) : Acts sink arguments (reverse value) := by
  unfold reverse
  split
  · exact .plain rfl
  · exact .newArray fun _ _ h harguments element helement =>
      h.elements (harguments _ hvalue) element (List.mem_reverse.1 helement)
  · exact .raise rfl

theorem sliceEnds_fault {length : Nat} {start stop : Value} {fault : Fault}
    (h : sliceEnds length start stop = .error fault) : fault.isStray = false := by
  unfold sliceEnds at h
  split at h
  · dsimp only at h
    split at h
    · cases h
      rfl
    · cases h
  · cases h
    rfl

theorem sliceOf_acts {start stop : Value} (hvalue : value ∈ arguments) :
    Acts sink arguments (sliceOf value start stop) := by
  unfold sliceOf
  split
  · next text =>
      cases hends : sliceEnds text.length start stop with
      | error fault => exact .raise (sliceEnds_fault hends)
      | ok ends => exact .plain rfl
  · next identity elements =>
      cases hends : sliceEnds elements.length start stop with
      | error fault => exact .raise (sliceEnds_fault hends)
      | ok ends =>
          refine .newArray fun _ _ h harguments element helement => ?_
          exact h.elements (harguments _ hvalue) element
            (List.mem_of_mem_drop (List.mem_of_mem_take helement))
  · exact .raise rfl

theorem rangeOf_acts (start stop : Value) : Acts sink arguments (rangeOf start stop) := by
  unfold rangeOf
  split
  · split
    · exact .raise rfl
    · dsimp only
      split
      · exact .crash
      · refine .newArray fun _ _ h _ element helement => ?_
        obtain ⟨place, -, rfl⟩ := List.mem_map.1 helement
        exact h.plain rfl
  · exact .raise rfl
  · exact .raise rfl

/-- What follows on an argument that has to be a string. -/
theorem stringArgument_acts {next : String → Evaluation Value}
    (hnext : ∀ text, Acts sink arguments (next text)) :
    Acts sink arguments (stringArgument callee value >>= next) := by
  unfold stringArgument
  split
  · exact hnext _
  · exact .raise rfl

/-- What follows on an argument that has to be an array. -/
theorem arrayArgument_acts {next : List Value → Evaluation Value} (hvalue : value ∈ arguments)
    (hnext : ∀ elements, (∀ whole entries, Value.Hereditary whole entries →
      (∀ argument ∈ arguments, whole argument) → ∀ element ∈ elements, whole element) →
        Acts sink arguments (next elements)) :
    Acts sink arguments (arrayArgument role callee value >>= next) := by
  unfold arrayArgument
  split
  · exact hnext _ fun _ _ h harguments => h.elements (harguments _ hvalue)
  · exact .raise rfl

/-- What follows on an argument that has to be a hash. -/
theorem hashArgument_acts {next : List Entry → Evaluation Value} (hvalue : value ∈ arguments)
    (hnext : ∀ filed,
      (∀ whole entries, Value.Hereditary whole entries →
        (∀ argument ∈ arguments, whole argument) → entries filed) →
      Acts sink arguments (next filed)) :
    Acts sink arguments (hashArgument role callee value >>= next) := by
  unfold hashArgument
  split
  · exact hnext _ fun _ _ h harguments => h.filed (harguments _ hvalue)
  · exact .raise rfl

theorem joinWith_acts (separator : Option Value) (hvalue : value ∈ arguments) :
    Acts sink arguments (joinWith value separator) := by
  refine arrayArgument_acts hvalue fun elements _ => ?_
  split
  · exact .plain rfl
  · exact .plain rfl
  · exact .raise rfl

theorem without_acts {rest : List Value → List Value} (hrest : ∀ elements, rest elements ⊆ elements)
    (hvalue : value ∈ arguments) : Acts sink arguments (without callee rest value) := by
  refine arrayArgument_acts hvalue fun elements helements => ?_
  split
  · exact .raise rfl
  · exact .newArray fun _ _ h harguments element helement =>
      helements _ _ h harguments element (hrest elements helement)

theorem deleteFrom_acts [Host] (key : Value) (hvalue : value ∈ arguments) :
    Acts sink arguments (deleteFrom value key) := by
  refine hashArgument_acts hvalue fun filed hfiled => ?_
  split
  · exact .newHash fun _ _ h harguments => h.erase (hfiled _ _ h harguments)
  · exact .raise rfl

/-- What builtin functions do, whatever they are called with. -/
theorem call_acts [Host] (sink : Sink) (function : Builtin) (arguments : List Value) :
    Acts sink arguments (function.call sink arguments) := by
  unfold call
  split
  · exact .print _
  · exact .plain rfl
  · exact .plain rfl
  · exact length_acts _
  · exact reverse_acts (.head _)
  · exact sliceOf_acts (.head _)
  · exact rangeOf_acts _ _
  · exact stringArgument_acts fun _ => .plain rfl
  · exact stringArgument_acts fun _ => .plain rfl
  · exact stringArgument_acts fun _ => .newArray fun _ _ h _ => h.characters _
  · exact joinWith_acts _ (.head _)
  · exact joinWith_acts _ (.head _)
  · refine arrayArgument_acts (.head _) fun elements helements => ?_
    refine .newArray fun _ _ h harguments => List.forall_mem_append.2 ⟨?_, ?_⟩
    · exact helements _ _ h harguments
    · exact fun element helement => harguments element (.tail _ helement)
  · refine arrayArgument_acts (.head _) fun elements helements => ?_
    refine .newArray fun _ _ h harguments => List.forall_mem_append.2 ⟨?_, ?_⟩
    · exact fun element helement => harguments element (.tail _ helement)
    · exact helements _ _ h harguments
  · exact without_acts (fun _ => List.dropLast_subset _) (.head _)
  · exact without_acts (fun elements => (List.tail_sublist elements).subset) (.head _)
  · refine hashArgument_acts (.head _) fun filed hfiled => ?_
    refine .newArray fun _ _ h harguments key hkey => ?_
    obtain ⟨entry, hentry, rfl⟩ := List.mem_map.1 hkey
    exact (h.parts (hfiled _ _ h harguments) hentry).1
  · refine hashArgument_acts (.head _) fun filed hfiled => ?_
    refine .newArray fun _ _ h harguments value hvalue => ?_
    obtain ⟨entry, hentry, rfl⟩ := List.mem_map.1 hvalue
    exact (h.parts (hfiled _ _ h harguments) hentry).2
  · exact deleteFrom_acts _ (.head _)
  · exact .raise rfl

end Builtin

end Script
