import Script.Proofs.Evaluation.Links

/-!
# Looking names up

What a name is looked up to after it was bound: by a definition, by an assignment, as a parameter
or in a new frame on top of the frames that were visible before.
-/

namespace Script

namespace Frame

/-- Binding other names does not change what a name is bound to. -/
theorem find?_foldl_put {name : String} (pairs : List (String × Value)) (frame : Frame)
    (h : ∀ pair ∈ pairs, pair.1 ≠ name) :
    (pairs.foldl (fun frame pair => frame.put pair.1 pair.2) frame).find? name =
      frame.find? name := by
  induction pairs generalizing frame with
  | nil => rfl
  | cons pair rest ih =>
      obtain ⟨hpair, hrest⟩ := List.forall_mem_cons.1 h
      rw [List.foldl_cons, ih _ hrest, find?_put, if_neg hpair.symm]

/-- The last value for a name stays. -/
theorem find?_ofPairs_append (before after : List (String × Value)) {name : String} {value : Value}
    (h : ∀ pair ∈ after, pair.1 ≠ name) :
    (ofPairs (before ++ (name, value) :: after)).find? name = some value := by
  rw [ofPairs, List.foldl_append, List.foldl_cons, find?_foldl_put after _ h, find?_put, if_pos rfl]

/-- A name that no value is given for stays unbound. -/
theorem find?_ofPairs_of_ne {pairs : List (String × Value)} {name : String}
    (h : ∀ pair ∈ pairs, pair.1 ≠ name) : (ofPairs pairs).find? name = none :=
  find?_foldl_put pairs [] h

end Frame

namespace Store

theorem find?_cons (store : Store) (id : FrameId) (rest : Environment) (name : String) :
    store.find? (id :: rest) name =
      ((store.frame id).find? name).or (store.find? rest name) := by
  rw [find?, List.findSome?_cons]
  cases (store.frame id).find? name <;> rfl

/-- A name is looked up to what it was last defined as in the innermost frame. -/
theorem find?_put_head {store : Store} {id : FrameId} (h : id < store.frames.size)
    (rest : Environment) (name : String) (value : Value) :
    (store.put id name value).find? (id :: rest) name = some value := by
  rw [find?_cons, find?_frame_put, if_pos ⟨rfl, h, rfl⟩]
  rfl

/-- A frame that binds a name exists. -/
theorem lt_of_binds {store : Store} {id : FrameId} {name : String}
    (h : (store.frame id).binds name = true) : id < store.frames.size := by
  obtain ⟨value, hvalue⟩ := Option.isSome_iff_exists.1 h
  exact lt_of_mem_frame (Frame.mem_of_find? hvalue)

/-- A name is looked up to what it was assigned, where it is bound. -/
theorem find?_put_holder {store : Store} {environment : Environment} {name : String} {id : FrameId}
    (h : store.holder? environment name = some id) (value : Value) :
    (store.put id name value).find? environment name = some value := by
  induction environment with
  | nil => cases h
  | cons first rest ih =>
      rw [find?_cons, find?_frame_put]
      cases hbinds : (store.frame first).binds name with
      | true =>
          simp only [holder?, List.find?_cons, hbinds, Option.some.injEq] at h
          rw [h] at hbinds ⊢
          rw [if_pos ⟨rfl, lt_of_binds hbinds, rfl⟩]
          rfl
      | false =>
          -- the first frame is not the one that is changed, and does not bind the name
          simp only [holder?, List.find?_cons, hbinds] at h
          have hother : first ≠ id := by
            rintro rfl
            have hholds := List.find?_some h
            rw [hbinds] at hholds
            cases hholds
          have hnone : (store.frame first).find? name = none :=
            Option.not_isSome_iff_eq_none.1 (Bool.eq_false_iff.1 hbinds)
          rw [if_neg fun hsame => hother hsame.1, hnone]
          exact ih h

/-- In a new frame, a name is looked up to what the frame binds it to. -/
theorem find?_push_bound {store : Store} {frame : Frame} {name : String} {value : Value}
    (h : frame.find? name = some value) (parent : Environment) :
    (store.push frame).find? (store.frames.size :: parent) name = some value := by
  rw [find?_cons, frame_push, if_pos rfl, h]
  rfl

/-- A new frame hides no name that it does not bind. -/
theorem find?_push_unbound {store : Store} {frame : Frame} {name : String}
    (h : frame.find? name = none) (environment : Environment) :
    (store.push frame).find? environment name = store.find? environment name := by
  induction environment with
  | nil => rfl
  | cons id rest ih =>
      have hid : ((store.push frame).frame id).find? name = (store.frame id).find? name := by
        rw [frame_push]
        split
        · next hnew =>
            -- there was no frame at the place of the new one
            rw [h, hnew, Store.frame, Array.getElem?_eq_none (Nat.le_refl _)]
            rfl
        · rfl
      rw [find?_cons, find?_cons, hid, ih]

/-- The same in an environment that starts with the new frame. -/
theorem find?_enter_unbound {store : Store} {frame : Frame} {name : String}
    (h : frame.find? name = none) (parent : Environment) :
    (store.push frame).find? (store.frames.size :: parent) name = store.find? parent name := by
  rw [find?_cons, frame_push, if_pos rfl, h, find?_push_unbound h]
  rfl

end Store

/-- A bound name is looked up to its value. -/
theorem Evaluation.lookup_of_find? {name : Identifier} {value : Value} {state : State}
    (h : state.store.find? state.environment name.name = some value) :
    Evaluation.lookup name state = (.ok value, state) := by
  simp only [Evaluation.lookup, Evaluation.bind_apply, Evaluation.state, h]
  rfl

end Script
