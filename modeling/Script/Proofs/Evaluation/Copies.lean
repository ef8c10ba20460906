import Mathlib.Algebra.Group.Nat.Defs
import Script.Proofs.Evaluation.Bindings

/-!
# Passing values on

A value that is bound by `let`, assigned, given as an argument, visited by a loop, put into an array
or captured by a function is found there unchanged: `copies_kept`. For compound values this means
that they keep their identity.
-/

namespace Script

/-- A name is looked up to what it was defined as. -/
theorem State.Linked.lookup_define {links : Links} {state : State} (h : state.Linked links)
    (name : Identifier) (value : Value) :
    ∃ last, Evaluation.define name.name value state = (.ok (), last) ∧
      Evaluation.lookup name last = (.ok value, last) := by
  obtain ⟨id, rest, henvironment, hid⟩ := h.current.head
  rw [← h.size] at hid
  obtain ⟨store, environment, depth, identities, printed⟩ := state
  cases henvironment
  exact ⟨_, rfl, Evaluation.lookup_of_find? (Store.find?_put_head hid rest name.name value)⟩

namespace FunctionLiteral

variable {literal : FunctionLiteral}

/-- A parameter is bound to the argument at its place, unless a later one has the same name. -/
theorem find?_bind {before after : List Identifier} {parameter : Identifier}
    {first rest : List Value} {value : Value}
    (hparameters : literal.parameters = before ++ parameter :: after)
    (hlater : ∀ later ∈ after, later.name ≠ parameter.name)
    (hlength : before.length = first.length) :
    (literal.bind (first ++ value :: rest)).find? parameter.name = some value := by
  have hzip : (literal.parameters.map Identifier.name).zip (first ++ value :: rest) =
      (before.map Identifier.name).zip first ++
        (parameter.name, value) :: (after.map Identifier.name).zip rest := by
    rw [hparameters, List.map_append, List.map_cons, List.zip_append (by simpa using hlength)]
    rfl
  rw [bind, hzip]
  refine Frame.find?_ofPairs_append _ _ fun pair hpair => ?_
  obtain ⟨later, hmem, hname⟩ := List.mem_map.1 (List.of_mem_zip hpair).1
  rw [← hname]
  exact hlater later hmem

/-- Other names are not bound by a call. -/
theorem find?_bind_of_ne {arguments : List Value} {name : String}
    (h : ∀ parameter ∈ literal.parameters, parameter.name ≠ name) :
    (literal.bind arguments).find? name = none := by
  refine Frame.find?_ofPairs_of_ne fun pair hpair => ?_
  obtain ⟨parameter, hmem, hname⟩ := List.mem_map.1 (List.of_mem_zip hpair).1
  rw [← hname]
  exact h parameter hmem

end FunctionLiteral

variable [Host]

/-- The value of an expression as the result of a task. -/
theorem Task.evaluate_expr {settings : Settings} {count : Nat} {expr : Expr} {value : Value}
    {state last : State} (h : Expr.evaluate settings count expr state = (.ok value, last)) :
    (Task.expr expr).evaluate settings count state = (.ok [value], last) := by
  rw [Task.evaluate, Evaluation.bind_apply, h]
  rfl

/-- An expression that was evaluated leaves a state of the session, with its value at hand. -/
theorem Visited.after_expr {settings : Settings} {count : Nat} {expr : Expr} {value : Value}
    {state last : State} (h : Visited settings (.expr expr) state)
    (heval : Expr.evaluate settings count expr state = (.ok value, last)) :
    State.Reachable settings last [value] := by
  have hending := State.Reachable.ending count h
  rw [Task.evaluate_expr heval] at hending
  exact hending

/-- The ways in which programs pass values on give back the same value. -/
structure CopiesKept (settings : Settings) : Prop where
  letBinding : ∀ {location target expr state count value middle},
    Visited settings (.statement (.letBinding location target expr)) state →
    Expr.evaluate settings count expr state = (.ok value, middle) →
    ∃ last, Statement.execute settings (count + 1) (.letBinding location target expr) state =
      (.ok .null, last) ∧ Evaluation.lookup target last = (.ok value, last)
  assignment : ∀ {location target expr state count value middle result last},
    Expr.evaluate settings count expr state = (.ok value, middle) →
    Expr.evaluate settings (count + 1) (.assign location target expr) state = (.ok result, last) →
    result = value ∧ Evaluation.lookup target last = (.ok value, last)
  /-- Of parameters with the same name, the last one counts. -/
  parameter : ∀ {location identity closure literal before parameter after first value rest state
      state'},
    literal.parameters = before ++ parameter :: after →
    (∀ later ∈ after, later.name ≠ parameter.name) → before.length = List.length first →
    Starts settings (.call location (.function identity closure literal) (first ++ value :: rest))
      state (.block literal.body) state' →
    Evaluation.lookup parameter state' = (.ok value, state')
  loopVariable : ∀ {name body element rest state state'},
    Visited settings (.forEach name body (element :: rest)) state →
    Starts settings (.forEach name body (element :: rest)) state (.block body) state' →
    ∀ place, Evaluation.lookup ⟨name, place⟩ state' = (.ok element, state')
  /-- The elements of an array literal, read by a place or by a loop. -/
  element : ∀ {location list state count values middle},
    (Evaluators.upTo settings count).exprs list state = (.ok values, middle) →
    ∃ array last, Expr.evaluate settings (count + 1) (.array location list) state =
      (.ok array, last) ∧ array.elements? = some values ∧
      ∀ place value, values[place]? = some value → place < 2 ^ 63 →
        array.index (.integer (.ofNat place)) = .ok value
  /-- What is bound around a function literal is found in the body of the function. -/
  captured : ∀ {literal state count}, ∃ function last,
    Expr.evaluate settings (count + 1) (.function literal) state = (.ok function, last) ∧
    ∀ {location arguments current state' name value},
      Starts settings (.call location function arguments) current (.block literal.body) state' →
      current.store.find? state.environment (Identifier.name name) = some value →
      (∀ parameter ∈ literal.parameters, parameter.name ≠ name.name) →
      Evaluation.lookup name state' = (.ok value, state')

/-- An element of an array at a place that is a 64-bit integer. -/
theorem Value.index_array {identity : Identity} {elements : List Value} {place : Nat}
    {value : Value} (h : elements[place]? = some value) (hplace : place < 2 ^ 63) :
    (array identity elements).index (.integer (.ofNat place)) = .ok value := by
  have htoInt : (Int64.ofNat place).toInt = place := Int64.toInt_ofNat_of_lt hplace
  have hnonneg : ¬ (place : Int) < 0 := Int.not_lt.2 (Int.natCast_nonneg place)
  rw [index, elementAt, htoInt, if_neg hnonneg, Int.toNat_natCast, h]
  rfl

theorem copies_kept (settings : Settings) : CopiesKept settings where
  letBinding {location target expr state count value middle} hvisited heval := by
    obtain ⟨links, hlinked, -⟩ := ((hvisited.starts .bound).after_expr heval).linked
    obtain ⟨last, hdefine, hlookup⟩ := hlinked.lookup_define target value
    refine ⟨last, ?_, hlookup⟩
    simp only [Statement.execute, Evaluators.execute, Evaluation.bind_apply, heval, hdefine]
    rfl
  assignment {location target expr state count value middle result last} heval hassign := by
    simp only [Expr.evaluate, Evaluators.evaluate, Evaluation.bind_apply, heval,
      Evaluation.assign_apply] at hassign
    cases hholder : middle.store.holder? middle.environment target.name with
    | none =>
        rw [hholder] at hassign
        cases hassign
    | some id =>
        rw [hholder] at hassign
        cases hassign
        exact ⟨rfl, Evaluation.lookup_of_find? (Store.find?_put_holder hholder value)⟩
  parameter hparameters hlater hlength hstarts := by
    cases hstarts
    exact Evaluation.lookup_of_find?
      (Store.find?_push_bound (FunctionLiteral.find?_bind hparameters hlater hlength) _)
  loopVariable {name body element rest state state'} hvisited hstarts place := by
    obtain ⟨links, hlinked, -⟩ := (State.Reachable.starting hvisited).linked
    obtain ⟨last, hdefine, hlookup⟩ := hlinked.lookup_define ⟨name, place⟩ element
    cases hstarts with
    | iteration hbound =>
        cases hdefine.symm.trans hbound
        exact hlookup
  element {location list state count values middle} hvalues := by
    refine ⟨.array middle.identities values, { middle with identities := middle.identities + 1 },
      ?_, rfl, fun place value => Value.index_array⟩
    simp only [Expr.evaluate, Evaluators.evaluate, Evaluation.bind_apply, hvalues]
    rfl
  captured {literal state count} := by
    refine ⟨.function state.identities state.environment literal,
      { state with identities := state.identities + 1 }, rfl, ?_⟩
    intro location arguments current state' name value hstarts hfound hother
    cases hstarts
    refine Evaluation.lookup_of_find? ?_
    exact (Store.find?_enter_unbound (FunctionLiteral.find?_bind_of_ne hother) _).trans hfound

end Script
