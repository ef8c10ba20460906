import Script.Proofs.Evaluation.Comparison

/-!
# Operations side by side

The primitive operations and the builtin functions keep two runs together: in alike states, and for
alike arguments, they come to alike outcomes.
-/

namespace Script

namespace Comparison

variable {C : Comparison} {state state' : State}

/-! ## Primitive operations -/

namespace Agree

theorem newArray {elements elements' : List Value} (h : C.values elements elements')
    (hstate : C.state state state') :
    C.Agree C.value (Evaluation.newArray elements state)
      (Evaluation.newArray elements' state') := by
  refine .ok ?_ { hstate with identities := congrArg (· + 1) hstate.identities }
  rw [hstate.identities]
  exact .array h

theorem newHash {entries entries' : List Entry}
    (h : List.Forall₂ (Entry.Alike C.likeness) entries entries') (hstate : C.state state state') :
    C.Agree C.value (Evaluation.newHash entries state) (Evaluation.newHash entries' state') := by
  refine .ok ?_ { hstate with identities := congrArg (· + 1) hstate.identities }
  rw [hstate.identities]
  exact .hash h

theorem newFunction {literal literal' : FunctionLiteral} (h : C.likeness.literal literal literal')
    (hstate : C.state state state') :
    C.Agree C.value (Evaluation.newFunction literal state)
      (Evaluation.newFunction literal' state') := by
  refine .ok ?_ { hstate with identities := congrArg (· + 1) hstate.identities }
  show C.value (.function state.identities state.environment literal)
    (.function state'.identities state'.environment literal')
  rw [hstate.identities, hstate.environment]
  exact .function h

theorem newError (fault : Fault) (hstate : C.state state state') :
    C.Agree C.value (Evaluation.newError fault state) (Evaluation.newError fault state') := by
  refine .ok ?_ { hstate with identities := congrArg (· + 1) hstate.identities }
  rw [hstate.identities]
  exact .error

/-- The same name is found in both states, or in neither. -/
theorem lookup {name name' : Identifier} (h : C.likeness.name name name')
    (hstate : C.state state state') :
    C.Agree C.value (Evaluation.lookup name state) (Evaluation.lookup name' state') := by
  have hfound : Option.Rel C.value (state.store.find? state.environment name.name)
      (state'.store.find? state.environment name.name) := hstate.store.find?
  simp only [Evaluation.lookup, Evaluation.bind_apply, Evaluation.state, ← h.1,
    ← hstate.environment]
  generalize state.store.find? state.environment name.name = found,
    state'.store.find? state.environment name.name = found' at hfound
  cases hfound with
  | some hvalue => exact .ok hvalue hstate
  | none =>
      cases Builtin.ofName? name.name with
      | some function => exact .ok .builtin hstate
      | none => exact .raise (.notFound h) hstate

theorem define (name : String) {value value' : Value} (h : C.value value value')
    (hstate : C.state state state') :
    C.Agree (fun _ _ => True) (Evaluation.define name value state)
      (Evaluation.define name value' state') := by
  refine .ok trivial { hstate with store := ?_ }
  simp only [Store.define, ← hstate.environment]
  split
  · exact hstate.store
  · exact hstate.store.put _ h

theorem assign {name name' : Identifier} (hname : C.likeness.name name name')
    {value value' : Value} (h : C.value value value') (hstate : C.state state state') :
    C.Agree (fun _ _ => True) (Evaluation.assign name value state)
      (Evaluation.assign name' value' state') := by
  rw [Evaluation.assign_apply, Evaluation.assign_apply, ← hname.1, ← hstate.environment,
    ← hstate.store.holder?_eq]
  split
  · exact .ok trivial { hstate with store := hstate.store.put _ h, environment := rfl }
  · exact .raise (.notDefined hname) hstate

theorem printLine (sink : Sink) (line : String) (hstate : C.state state state') :
    C.Agree (fun _ _ => True) (Evaluation.printLine sink line state)
      (Evaluation.printLine sink line state') := by
  cases sink with
  | accepting =>
      refine .ok trivial { hstate with printed := ?_ }
      show state.printed ++ line ++ "\n" = state'.printed ++ line ++ "\n"
      rw [hstate.printed]
  | refusing reason => exact .raise .same hstate

end Agree

/-! ## Builtin functions -/

variable {sink : Sink} {callee : Builtin} {arguments arguments' : List Value}
  {value value' : Value}

/-- Alike arguments are as many in both runs. -/
theorem miscounted (callee : Builtin) (h : C.values arguments arguments')
    (hstate : C.state state state') :
    C.Agree C.value
      (Evaluation.raise (.builtinArgumentCount arguments.length callee.arity) state)
      (Evaluation.raise (.builtinArgumentCount arguments'.length callee.arity) state') := by
  rw [h.length_eq]
  exact .raise .same hstate

/-- A function of one argument. -/
theorem oneArgument [Host] (h : C.values arguments arguments') (hstate : C.state state state')
    (hone : ∀ {value value'}, C.value value value' →
      C.Agree C.value (callee.call sink [value] state) (callee.call sink [value'] state'))
    (hnone : callee.call sink [] = Evaluation.raise (.builtinArgumentCount 0 callee.arity))
    (hmore : ∀ first second rest, callee.call sink (first :: second :: rest) =
      Evaluation.raise (.builtinArgumentCount (rest.length + 2) callee.arity)) :
    C.Agree C.value (callee.call sink arguments state) (callee.call sink arguments' state') := by
  have hcount := miscounted callee h hstate
  cases h with
  | nil =>
      rw [hnone]
      exact hcount
  | cons hfirst hrest =>
      cases hrest with
      | nil => exact hone hfirst
      | cons hsecond hrest =>
          rw [hmore, hmore]
          exact hcount

/-- A function of two arguments. -/
theorem twoArguments [Host] (h : C.values arguments arguments') (hstate : C.state state state')
    (htwo : ∀ {first first' second second'}, arguments = [first, second] →
      C.value first first' → C.value second second' →
      C.Agree C.value (callee.call sink [first, second] state)
        (callee.call sink [first', second'] state'))
    (hnone : callee.call sink [] = Evaluation.raise (.builtinArgumentCount 0 callee.arity))
    (hone : ∀ first, callee.call sink [first] =
      Evaluation.raise (.builtinArgumentCount 1 callee.arity))
    (hmore : ∀ first second third rest, callee.call sink (first :: second :: third :: rest) =
      Evaluation.raise (.builtinArgumentCount (rest.length + 3) callee.arity)) :
    C.Agree C.value (callee.call sink arguments state) (callee.call sink arguments' state') := by
  have hcount := miscounted callee h hstate
  cases h with
  | nil =>
      rw [hnone]
      exact hcount
  | cons hfirst hrest =>
      cases hrest with
      | nil =>
          rw [hone, hone]
          exact hcount
      | cons hsecond hrest =>
          cases hrest with
          | nil => exact htwo rfl hfirst hsecond
          | cons hthird hrest =>
              rw [hmore, hmore]
              exact hcount

theorem length (h : C.value value value') (hstate : C.state state state') :
    C.Agree C.value (Builtin.length value state) (Builtin.length value' state') := by
  cases h with
  | string => exact .ok .integer hstate
  | array helements =>
      simp only [Builtin.length, helements.length_eq]
      exact .ok .integer hstate
  | hash hentries =>
      simp only [Builtin.length, hentries.length_eq]
      exact .ok .integer hstate
  | _ => exact .raise .same hstate

theorem reverse (h : C.value value value') (hstate : C.state state state') :
    C.Agree C.value (Builtin.reverse value state) (Builtin.reverse value' state') := by
  cases h with
  | string => exact .ok .string hstate
  | array helements => exact .newArray (List.rel_reverse helements) hstate
  | _ => exact .raise .same hstate

theorem sliceOf {start start' stop stop' : Value} (h : C.value value value')
    (hstart : C.value start start') (hstop : C.value stop stop') (hstate : C.state state state') :
    C.Agree C.value (Builtin.sliceOf value start stop state)
      (Builtin.sliceOf value' start' stop' state') := by
  have hends (length : Nat) :
      Builtin.sliceEnds length start stop = Builtin.sliceEnds length start' stop' := by
    cases hstart <;> cases hstop <;> rfl
  cases h with
  | @string text =>
      simp only [Builtin.sliceOf, hends]
      cases Builtin.sliceEnds text.length start' stop' with
      | ok ends => exact .ok .string hstate
      | error fault => exact .raise .same hstate
  | @array _ elements elements' helements =>
      simp only [Builtin.sliceOf, hends, helements.length_eq]
      cases Builtin.sliceEnds elements'.length start' stop' with
      | ok ends => exact .newArray (List.forall₂_take _ (List.forall₂_drop _ helements)) hstate
      | error fault => exact .raise .same hstate
  | _ => exact .raise .same hstate

/-- The runs ask for the same array, which either of them can make or none. -/
theorem rangeOf {start start' stop stop' : Value}
    (hcapacity : ∀ first last : Int64, start = .integer first → stop = .integer last →
      Builtin.capacity < last.toInt - first.toInt → C.crash)
    (hstart : C.value start start') (hstop : C.value stop stop') (hstate : C.state state state') :
    C.Agree C.value (Builtin.rangeOf start stop state) (Builtin.rangeOf start' stop' state') := by
  cases hstart with
  | @integer first =>
      cases hstop with
      | @integer last =>
          simp only [Builtin.rangeOf]
          split
          · exact .raise .same hstate
          · split
            · next hbeyond =>
                exact .error (.crashed (hcapacity first last rfl rfl (by omega))) hstate
            · refine .newArray ?_ hstate
              refine List.forall₂_map_left_iff.2 (List.forall₂_map_right_iff.2 ?_)
              exact List.forall₂_same.2 fun _ _ => .integer
      | _ => exact .raise .same hstate
  | _ => exact .raise .same hstate

theorem joinWith (hL : C.likeness.Lawful) {separator separator' : Option Value}
    (h : C.value value value') (hseparator : Option.Rel C.value separator separator')
    (hstate : C.state state state') :
    C.Agree C.value (Builtin.joinWith value separator state)
      (Builtin.joinWith value' separator' state') := by
  cases h with
  | array helements =>
      have hjoined (separator : String) := Value.Alike.joined_eq hL separator helements
      cases hseparator with
      | none =>
          refine .ok ?_ hstate
          rw [hjoined]
          exact .string
      | some hvalue =>
          cases hvalue with
          | string =>
              refine .ok ?_ hstate
              rw [hjoined]
              exact .string
          | _ => exact .raise .same hstate
  | _ => exact .raise .same hstate

/-- All elements but one at an end. -/
theorem without {rest : List Value → List Value}
    (hrest : ∀ {elements elements'}, C.values elements elements' →
      C.values (rest elements) (rest elements'))
    (h : C.value value value') (hstate : C.state state state') :
    C.Agree C.value (Builtin.without callee rest value state)
      (Builtin.without callee rest value' state') := by
  cases h with
  | array helements =>
      cases helements with
      | nil => exact .raise .same hstate
      | cons hfirst hothers => exact .newArray (hrest (.cons hfirst hothers)) hstate
  | _ => exact .raise .same hstate

theorem deleteFrom [Host] {key key' : Value} (h : C.value value value') (hkey : C.value key key')
    (hstate : C.state state state') :
    C.Agree C.value (Builtin.deleteFrom value key state)
      (Builtin.deleteFrom value' key' state') := by
  cases h with
  | hash hentries =>
      simp only [Builtin.deleteFrom, hkey.hashKey?_eq, hkey.kind_eq]
      cases key'.hashKey? with
      | some hashKey => exact .newHash (Entry.Alike.erase hentries) hstate
      | none => exact .raise .same hstate
  | _ => exact .raise .same hstate

/-- Builtin functions keep the runs together. -/
theorem builtin [Host] (hL : C.likeness.Lawful) (sink : Sink) (callee : Builtin)
    (hcapacity : ∀ start stop : Int64, callee = .range →
      arguments = [.integer start, .integer stop] →
      Builtin.capacity < stop.toInt - start.toInt → C.crash)
    (h : C.values arguments arguments') (hstate : C.state state state') :
    C.Agree C.value (callee.call sink arguments state) (callee.call sink arguments' state') := by
  have hmiscounted (callee : Builtin) := miscounted callee h hstate
  cases callee with
  | print =>
      simp only [Builtin.call]
      rw [Value.Alike.joined_eq hL " " h]
      exact (Agree.printLine sink _ hstate).bind (fun _ => .pure _) fun _ _ hlast =>
        .ok .null hlast
  | type =>
      refine oneArgument h hstate (fun hvalue => ?_) rfl fun _ _ _ => rfl
      simp only [Builtin.call, hvalue.kind_eq]
      exact .ok .string hstate
  | str =>
      refine oneArgument h hstate (fun hvalue => ?_) rfl fun _ _ _ => rfl
      simp only [Builtin.call, hvalue.text_eq hL]
      exact .ok .string hstate
  | len => exact oneArgument h hstate (fun hvalue => length hvalue hstate) rfl fun _ _ _ => rfl
  | reversed =>
      exact oneArgument h hstate (fun hvalue => reverse hvalue hstate) rfl fun _ _ _ => rfl
  | lower | upper =>
      refine oneArgument h hstate (fun hvalue => ?_) rfl fun _ _ _ => rfl
      cases hvalue with
      | string => exact .ok .string hstate
      | _ => exact .raise .same hstate
  | split =>
      refine oneArgument h hstate (fun hvalue => ?_) rfl fun _ _ _ => rfl
      cases hvalue with
      | string => exact .newArray (Value.Alike.characters _) hstate
      | _ => exact .raise .same hstate
  | pop =>
      refine oneArgument h hstate (fun hvalue => without (fun helements => ?_) hvalue hstate) rfl
        fun _ _ _ => rfl
      rw [List.dropLast_eq_take, List.dropLast_eq_take, helements.length_eq]
      exact List.forall₂_take _ helements
  | shift =>
      refine oneArgument h hstate (fun hvalue => without (fun helements => ?_) hvalue hstate) rfl
        fun _ _ _ => rfl
      cases helements with
      | nil => exact .nil
      | cons _ hrest => exact hrest
  | keys =>
      refine oneArgument h hstate (fun hvalue => ?_) rfl fun _ _ _ => rfl
      cases hvalue with
      | hash hentries => exact .newArray (Value.Alike.keys hentries) hstate
      | _ => exact .raise .same hstate
  | values =>
      refine oneArgument h hstate (fun hvalue => ?_) rfl fun _ _ _ => rfl
      cases hvalue with
      | hash hentries => exact .newArray (Value.Alike.values hentries) hstate
      | _ => exact .raise .same hstate
  | range =>
      refine twoArguments h hstate (fun harguments hstart hstop => ?_) rfl (fun _ => rfl)
        fun _ _ _ _ => rfl
      refine rangeOf (fun first last hfirst hlast => ?_) hstart hstop hstate
      exact hcapacity first last rfl (by rw [harguments, hfirst, hlast])
  | delete =>
      exact twoArguments h hstate (fun _ hhash hkey => deleteFrom hhash hkey hstate) rfl
        (fun _ => rfl) fun _ _ _ _ => rfl
  | slice =>
      cases h with
      | nil => exact hmiscounted .slice
      | cons hfirst hrest =>
          cases hrest with
          | nil => exact hmiscounted .slice
          | cons hsecond hrest =>
              cases hrest with
              | nil => exact hmiscounted .slice
              | cons hthird hrest =>
                  cases hrest with
                  | nil => exact sliceOf hfirst hsecond hthird hstate
                  | cons _ _ => exact hmiscounted .slice
  | join =>
      cases h with
      | nil => exact hmiscounted .join
      | cons hfirst hrest =>
          cases hrest with
          | nil => exact joinWith hL hfirst .none hstate
          | cons hsecond hrest =>
              cases hrest with
              | nil => exact joinWith hL hfirst (.some hsecond) hstate
              | cons _ _ => exact hmiscounted .join
  | push =>
      cases h with
      | nil => exact hmiscounted .push
      | cons hfirst hrest =>
          cases hrest with
          | nil => exact hmiscounted .push
          | cons hsecond hrest =>
              cases hfirst with
              | array helements =>
                  exact .newArray (List.rel_append helements (.cons hsecond hrest)) hstate
              | _ => exact .raise .same hstate
  | unshift =>
      cases h with
      | nil => exact hmiscounted .unshift
      | cons hfirst hrest =>
          cases hrest with
          | nil => exact hmiscounted .unshift
          | cons hsecond hrest =>
              cases hfirst with
              | array helements =>
                  exact .newArray (List.rel_append (.cons hsecond hrest) helements) hstate
              | _ => exact .raise .same hstate

end Comparison

end Script
