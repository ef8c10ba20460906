import Mathlib.Data.List.Nodup
import Script.Proofs.Evaluation.Parts

/-!
# Places in the course of a task

The parts of a task have parts themselves. `Task.course` lists all that is started in the course of
a task in the order in which it is started, each with its place: which part of the task it lies in,
which part of that part, and so on. No place occurs twice, and what is reached from a task has its
own course inside of the course of the task.
-/

namespace Script

open Filter

/-- A task that is started in the course of another one. -/
structure Occurrence where
  /-- The numbers of the parts in which it lies, from the outermost one inwards. -/
  place : List Nat
  task : Task
  state : State

namespace Occurrence

/-- What has a place in the part at `place` as what has a place in the whole. -/
def within (place : List Nat) (occurrence : Occurrence) : Occurrence :=
  { occurrence with place := place ++ occurrence.place }

/-- The courses of several parts, the first of which has the given number. -/
def among (course : Task → State → List Occurrence) : Nat → List (Task × State) → List Occurrence
  | _, [] => []
  | number, (task, state) :: rest =>
    (course task state).map (within [number]) ++ among course (number + 1) rest

variable {course : Task → State → List Occurrence} {number : Nat} {parts : List (Task × State)}

theorem within_within (outer inner : List Nat) :
    within outer ∘ within inner = within (outer ++ inner) := by
  funext occurrence
  simp only [Function.comp_apply, within, List.append_assoc]

theorem within_nil : within [] = id :=
  rfl

theorem among_append (rest : List (Task × State)) : among course number (parts ++ rest) =
    among course number parts ++ among course (number + parts.length) rest := by
  induction parts generalizing number with
  | nil => rfl
  | cons first others ih =>
      simp only [List.cons_append, among, ih, List.append_assoc, List.length_cons,
        Nat.add_assoc, Nat.add_comm 1]

/-- The course of each part is in one piece. -/
theorem infix_among {task : Task} {state : State} (h : (task, state) ∈ parts) :
    ∃ index, ∀ course : Task → State → List Occurrence,
      (course task state).map (within [index]) <:+: among course 0 parts := by
  obtain ⟨before, after, rfl⟩ := List.append_of_mem h
  refine ⟨0 + before.length, fun course => ?_⟩
  rw [among_append, among]
  exact ⟨_, _, List.append_assoc ..⟩

/-- Places start with the number of a part. -/
theorem place_of_mem_among {occurrence : Occurrence} (h : occurrence ∈ among course number parts) :
    ∃ index path, occurrence.place = index :: path ∧ number ≤ index := by
  induction parts generalizing number with
  | nil => cases h
  | cons first others ih =>
      rcases List.mem_append.1 h with h | h
      · obtain ⟨inner, -, rfl⟩ := List.mem_map.1 h
        exact ⟨number, inner.place, rfl, Nat.le_refl number⟩
      · obtain ⟨index, path, hplace, hle⟩ := ih h
        exact ⟨index, path, hplace, Nat.le_of_succ_le hle⟩

/-- If no place occurs twice in the course of a part, none does in the courses of all. -/
theorem nodup_among (h : ∀ task state, ((course task state).map place).Nodup) :
    ((among course number parts).map place).Nodup := by
  induction parts generalizing number with
  | nil => exact List.nodup_nil
  | cons first others ih =>
      have hfirst : (((course first.1 first.2).map (within [number])).map place).Nodup := by
        rw [List.map_map]
        have hplace : place ∘ within [number] = (number :: ·) ∘ place := rfl
        rw [hplace, ← List.map_map]
        exact (h first.1 first.2).map fun _ _ heq => (List.cons.inj heq).2
      rw [among, List.map_append]
      refine List.nodup_append.2 ⟨hfirst, ih, ?_⟩
      -- the parts that follow have greater numbers
      rintro _ hleft _ hright rfl
      obtain ⟨_, hmem, hsame⟩ := List.mem_map.1 hleft
      obtain ⟨inner, -, rfl⟩ := List.mem_map.1 hmem
      obtain ⟨other, hother, rfl⟩ := List.mem_map.1 hright
      obtain ⟨index, path, hplace, hle⟩ := place_of_mem_among hother
      rw [hplace] at hsame
      exact absurd (List.cons.inj hsame).1 (Nat.ne_of_lt hle)

end Occurrence

open Occurrence

variable [Host]

/-- What is started in the course of a task, the task itself first, in order. Parts of parts are
looked into up to the given depth. -/
def Task.course (settings : Settings) (count : Nat) : Nat → Task → State → List Occurrence
  | 0, task, state => [⟨[], task, state⟩]
  | depth + 1, task, state =>
    ⟨[], task, state⟩ :: among (course settings count depth) 0 (task.parts settings count state)

namespace Task

variable {settings : Settings} {count : Nat}

/-- The course of a task starts with the task. -/
theorem course_head (depth : Nat) (task : Task) (state : State) :
    ∃ rest, task.course settings count depth state = ⟨[], task, state⟩ :: rest := by
  cases depth with
  | zero => exact ⟨[], rfl⟩
  | succ depth => exact ⟨_, rfl⟩

/-- No place occurs twice. -/
theorem course_nodup (depth : Nat) (task : Task) (state : State) :
    ((task.course settings count depth state).map place).Nodup := by
  induction depth generalizing task state with
  | zero => exact List.pairwise_singleton _ _
  | succ depth ih =>
      refine List.nodup_cons.2 ⟨fun h => ?_, nodup_among ih⟩
      obtain ⟨occurrence, hmem, hplace⟩ := List.mem_map.1 h
      obtain ⟨index, path, heq, -⟩ := place_of_mem_among hmem
      rw [heq] at hplace
      cases hplace

end Task

/-- The course of what is reached from a task is a piece of the course of the task. Its place is as
deep as there are tasks around it. -/
theorem Reaches.infix_course {settings : Settings} {task part : Task} {state state' : State}
    {enclosing : List Task} (h : Reaches settings task state enclosing part state') :
    ∀ᶠ count in atTop, ∃ place : List Nat, place.length = enclosing.length ∧ ∀ depth,
      (part.course settings count depth state').map (within place) <:+:
        task.course settings count (depth + enclosing.length) state := by
  induction h with
  | here =>
      refine .of_forall fun count => ⟨[], rfl, fun depth => ?_⟩
      rw [within_nil, List.map_id]
      exact List.infix_rfl
  | @starts enclosing middle state' inner state'' _ hstarts ih =>
      filter_upwards [ih, hstarts.eventually] with count ⟨place, hlength, houter⟩ hmem
      obtain ⟨index, hindex⟩ := infix_among hmem
      refine ⟨place ++ [index], by simp [hlength], fun depth => ?_⟩
      have hpart : (inner.course settings count depth state'').map (within [index]) <:+:
          middle.course settings count (depth + 1) state' :=
            (hindex _).trans (List.infix_cons List.infix_rfl)
      rw [← within_within, ← List.map_map, List.length_cons, Nat.add_comm enclosing.length,
        ← Nat.add_assoc]
      exact (hpart.map (within place)).trans (houter (depth + 1))

end Script
