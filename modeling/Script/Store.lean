import Script.Value

/-!
# The store of bindings

Bindings live in frames. A frame is made when a loop, a call or the handler of an error starts,
and it is never removed, since a function value may still refer to it. An environment lists
the frames that are visible; the same frame can be visible in many environments.
-/

namespace Script

/-- The bindings of one frame, in the order in which the names were defined. -/
abbrev Frame := List (String × Value)

namespace Frame

/-- The value bound to a name. -/
def find? (name : String) : Frame → Option Value
  | [] => none
  | (first, value) :: rest => if first = name then some value else find? name rest

/-- Whether a frame binds a name. -/
def binds (name : String) (frame : Frame) : Bool :=
  (find? name frame).isSome

/-- Binds a name, in place of an earlier binding of the same name. -/
def put (name : String) (value : Value) : Frame → Frame
  | [] => [(name, value)]
  | (first, old) :: rest =>
    if first = name then (name, value) :: rest else (first, old) :: put name value rest

/-- After a name was bound it has the new value, and every other name has its old one. -/
theorem find?_put (frame : Frame) (name other : String) (value : Value) :
    (frame.put name value).find? other =
      if other = name then some value else frame.find? other := by
  induction frame with
  | nil => simp only [put, find?, eq_comm]
  | cons first rest ih =>
    obtain ⟨first, old⟩ := first
    by_cases hfirst : first = name
    · subst hfirst
      by_cases h : first = other
      · simp [put, find?, h]
      · simp [put, find?, h, Ne.symm h]
    · by_cases h : first = other
      · subst h
        simp [put, find?, hfirst]
      · simp [put, find?, hfirst, h, ih]

/-- Binds names to values, in order; of two values for a name the later one stays. -/
def ofPairs (pairs : List (String × Value)) : Frame :=
  pairs.foldl (fun frame pair => frame.put pair.1 pair.2) []

end Frame

/-- All frames, by their places. -/
structure Store where
  /-- The frames in the order in which they were made. -/
  frames : Array Frame

namespace Store

/-- The store with one empty frame, the root of all environments. -/
def initial : Store := ⟨#[[]]⟩

/-- The environment of programs. -/
def root : Environment := [0]

/-- The frame at a place. -/
def frame (store : Store) (id : FrameId) : Frame :=
  (store.frames[id]?).getD []

/-- The innermost visible frame that binds a name. -/
def holder? (store : Store) (environment : Environment) (name : String) : Option FrameId :=
  environment.find? fun id => (store.frame id).binds name

/-- The value of a name in the innermost visible frame that binds it. -/
def find? (store : Store) (environment : Environment) (name : String) : Option Value :=
  environment.findSome? fun id => (store.frame id).find? name

/-- Binds a name in the frame at a place. -/
def put (store : Store) (id : FrameId) (name : String) (value : Value) : Store :=
  ⟨store.frames.modify id (Frame.put name value)⟩

/-- Binds a name in the innermost frame. -/
def define (store : Store) (environment : Environment) (name : String) (value : Value) : Store :=
  match environment with
  | [] => store
  | id :: _ => store.put id name value

/-- Changes the innermost visible binding of a name, and tells whether there is one. Without one
the store stays as it is. -/
def assign (store : Store) (environment : Environment) (name : String) (value : Value) :
    Bool × Store :=
  match store.holder? environment name with
  | some id => (true, store.put id name value)
  | none => (false, store)

/-- Adds a frame, at the place `store.frames.size`. -/
def push (store : Store) (frame : Frame) : Store :=
  ⟨store.frames.push frame⟩

end Store

end Script
