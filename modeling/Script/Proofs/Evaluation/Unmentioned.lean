import Script.Proofs.Evaluation.Encapsulation
import Script.Proofs.Evaluation.Lockstep.Sound
import Script.Proofs.Grammar.TokenOrder

/-!
# Bindings that no code mentions

Code comes to a binding by its name only. A name that occurs neither in a program nor in the
functions that it can come to may be bound at the root or not, to any value, and even when it is
the name of a builtin function: the program does the same, `unmentioned_binding`. Two runs that
differ in this binding go on in lockstep, since whatever they look up is another name, and the
frames that they come to bind the same values to it.
-/

namespace Script

/-- No token is the given name. -/
def Token.Avoid (name : String) (tokens : List Token) : Prop :=
  ∀ token ∈ tokens, token.lexeme ≠ .identifier name

instance (name : String) (tokens : List Token) : Decidable (Token.Avoid name tokens) :=
  inferInstanceAs (Decidable (∀ token ∈ tokens, token.lexeme ≠ .identifier name))

/-- None of the functions that code in the current environment can come to mentions the name. -/
def State.Avoids (name : String) (state : State) : Prop :=
  ∀ id, state.store.Accessible state.environment [] id → ∀ binding ∈ state.store.frame id,
    ∀ identity closure literal, Value.function identity closure literal ∈ binding.2.atoms →
      Token.Avoid name literal.tokens

/-! ## Code that avoids a name -/

namespace Token.Avoid

variable {name : String}

theorem of_cons {token : Token} {tokens : List Token} (h : Avoid name (token :: tokens)) :
    Avoid name tokens :=
  (List.forall_mem_cons.1 h).2

theorem append_iff {first second : List Token} :
    Avoid name (first ++ second) ↔ Avoid name first ∧ Avoid name second :=
  List.forall_mem_append

theorem ne_of_token {target : Identifier} {tokens : List Token}
    (h : Avoid name (target.token :: tokens)) : target.name ≠ name := by
  rintro rfl
  exact h _ (.head _) rfl

theorem exprs {list : List Expr} (h : Avoid name (Expr.tokensAll list)) :
    ∀ expr ∈ list, Avoid name expr.tokens := by
  rw [Expr.tokensAll_eq] at h
  exact fun expr hexpr token htoken => h token (List.mem_flatMap.2 ⟨expr, hexpr, htoken⟩)

theorem pairs {list : List Pair} (h : Avoid name (Pair.tokensAll list)) :
    ∀ pair ∈ list, Avoid name pair.key.tokens ∧ Avoid name pair.value.tokens := by
  induction list with
  | nil => exact List.forall_mem_nil _
  | cons pair rest ih =>
      rw [Pair.tokensAll, append_iff] at h
      obtain ⟨key, value⟩ := pair
      exact List.forall_mem_cons.2 ⟨append_iff.1 h.1, ih h.2⟩

theorem statements {list : List Statement} (h : Avoid name (Statement.tokensAll list)) :
    ∀ statement ∈ list, Avoid name statement.tokens := by
  induction list with
  | nil => exact List.forall_mem_nil _
  | cons statement rest ih =>
      rw [Statement.tokensAll, append_iff] at h
      exact List.forall_mem_cons.2 ⟨h.1, ih h.2⟩

theorem block {block : Block} (h : Avoid name block.tokens) :
    ∀ statement ∈ block.statements, Avoid name statement.tokens := by
  cases block
  exact statements h

theorem choice {choice : Option Block} (h : Avoid name (Block.optionTokens choice)) :
    ∀ block ∈ choice, ∀ statement ∈ block.statements, Avoid name statement.tokens := by
  rintro chosen hchosen
  cases choice with
  | none => cases hchosen
  | some block =>
      cases hchosen
      exact Avoid.block h

end Token.Avoid

/-! ## Frames and names -/

namespace Store

/-- A name that has the same value in each of the frames has the same value. -/
theorem find?_eq_of_frames {store store' : Store} {environment : Environment} {name : String}
    (h : ∀ id ∈ environment, (store'.frame id).find? name = (store.frame id).find? name) :
    store'.find? environment name = store.find? environment name := by
  induction environment with
  | nil => rfl
  | cons id rest ih =>
      obtain ⟨hid, hrest⟩ := List.forall_mem_cons.1 h
      have hih : rest.findSome? (fun id => (store'.frame id).find? name) =
          rest.findSome? (fun id => (store.frame id).find? name) := ih hrest
      simp only [find?, List.findSome?_cons, hid, hih]

/-- A name that is bound in the same frames is held by the same frame. -/
theorem holder?_eq_of_frames {store store' : Store} {environment : Environment} {name : String}
    (h : ∀ id ∈ environment, (store'.frame id).find? name = (store.frame id).find? name) :
    store'.holder? environment name = store.holder? environment name := by
  induction environment with
  | nil => rfl
  | cons id rest ih =>
      obtain ⟨hid, hrest⟩ := List.forall_mem_cons.1 h
      have hih : rest.find? (fun id => (store'.frame id).binds name) =
          rest.find? (fun id => (store.frame id).binds name) := ih hrest
      simp only [holder?, List.find?_cons, Frame.binds, hid] at hih ⊢
      rw [hih]

/-- In two stores of the same size, binding a name anywhere, and to the same value, keeps another
name at the same values. -/
theorem find?_frame_put_congr {store store' : Store} {target : String}
    (hsize : store'.frames.size = store.frames.size)
    (h : ∀ other, (store'.frame other).find? target = (store.frame other).find? target)
    (id other : FrameId) (name : String) (value : Value) :
    ((store'.put id name value).frame other).find? target =
      ((store.put id name value).frame other).find? target := by
  rw [find?_frame_put, find?_frame_put, hsize, h]

end Store

mutual

/-- A function in a value brings its environment with it. -/
theorem Value.mem_closures_of_atoms {identity : Identity} {closure : Environment}
    {literal : FunctionLiteral} :
    (value : Value) → .function identity closure literal ∈ value.atoms → closure ∈ value.closures
  | .array _ elements, h => Value.mem_closuresAll_of_atoms elements h
  | .hash _ entries, h => Entry.mem_closuresAll_of_atoms entries h
  | .function _ _ _, h => by
      cases List.mem_singleton.1 h
      exact .head _
  | .integer _, h | .float _, h | .string _, h | .boolean _, h | .null, h | .builtin _, h
  | .error _ _, h => by cases List.mem_singleton.1 h
termination_by structural value => value

theorem Value.mem_closuresAll_of_atoms {identity : Identity} {closure : Environment}
    {literal : FunctionLiteral} :
    (values : List Value) → .function identity closure literal ∈ Value.atomsAll values →
      closure ∈ Value.closuresAll values
  | [], h => nomatch h
  | value :: rest, h => by
      rcases List.mem_append.1 h with h | h
      · exact List.mem_append_left _ (Value.mem_closures_of_atoms value h)
      · exact List.mem_append_right _ (Value.mem_closuresAll_of_atoms rest h)
termination_by structural values => values

theorem Entry.mem_closures_of_atoms {identity : Identity} {closure : Environment}
    {literal : FunctionLiteral} :
    (entry : Entry) → .function identity closure literal ∈ entry.atoms → closure ∈ entry.closures
  | ⟨_, key, value⟩, h => by
      rcases List.mem_append.1 h with h | h
      · exact List.mem_append_left _ (Value.mem_closures_of_atoms key h)
      · exact List.mem_append_right _ (Value.mem_closures_of_atoms value h)
termination_by structural entry => entry

theorem Entry.mem_closuresAll_of_atoms {identity : Identity} {closure : Environment}
    {literal : FunctionLiteral} :
    (entries : List Entry) → .function identity closure literal ∈ Entry.atomsAll entries →
      closure ∈ Entry.closuresAll entries
  | [], h => nomatch h
  | entry :: rest, h => by
      rcases List.mem_append.1 h with h | h
      · exact List.mem_append_left _ (Entry.mem_closures_of_atoms entry h)
      · exact List.mem_append_right _ (Entry.mem_closuresAll_of_atoms rest h)
termination_by structural entries => entries

end

/-! ## Two runs -/

namespace Unmentioned

variable (start : State) (name : String)

/-- The frames that code can come to from the start, and all that are made later. -/
def Seen (id : FrameId) : Prop :=
  start.store.Accessible start.environment [] id ∨ start.store.frames.size ≤ id

/-- Code and functions that avoid the name, among the seen frames. -/
def discipline : Discipline where
  scope environment := ∀ id ∈ environment, Seen start id
  name other := other ≠ name
  expr _ expr := Token.Avoid name expr.tokens
  statement _ statement := Token.Avoid name statement.tokens
  literal literal := Token.Avoid name literal.tokens
  fault _ := True
  jumps _ := True

/-- The stores of two runs that may differ in the values of the name. -/
structure SameOthers (store store' : Store) : Prop where
  size : store'.frames.size = store.frames.size
  grown : start.store.frames.size ≤ store.frames.size
  others : ∀ other, other ≠ name → ∀ id,
    (store'.frame id).find? other = (store.frame id).find? other
  seen : ∀ id, Seen start id → ∀ binding ∈ store.frame id, binding.1 ≠ name →
    (discipline start name).value binding.2

/-- Two runs of code that avoids the name. -/
def lockstep : Lockstep where
  toDiscipline := discipline start name
  stores := SameOthers start name
  printed printed printed' := printed' = printed

variable {start name}

theorem lockstep_lawful : (lockstep start name).Lawful where
  expr {_ expr} h := by
    cases expr with
    | identifier target => exact Token.Avoid.ne_of_token h
    | integer | float | boolean | string => trivial
    | array => exact Token.Avoid.exprs h.of_cons
    | hash => exact Token.Avoid.pairs h.of_cons
    | function => exact h
    | unary => exact h.of_cons
    | binary =>
        obtain ⟨hleft, hright⟩ := Token.Avoid.append_iff.1 h
        exact ⟨hleft, hright.of_cons⟩
    | assign => exact ⟨Token.Avoid.ne_of_token h, h.of_cons.of_cons⟩
    | index =>
        obtain ⟨hcollection, hindex⟩ := Token.Avoid.append_iff.1 h
        exact ⟨hcollection, hindex.of_cons⟩
    | call =>
        obtain ⟨hcallee, harguments⟩ := Token.Avoid.append_iff.1 h
        exact ⟨hcallee, Token.Avoid.exprs harguments.of_cons⟩
    | conditional =>
        obtain ⟨hcondition, hrest⟩ := Token.Avoid.append_iff.1 h.of_cons
        obtain ⟨hconsequence, halternative⟩ := Token.Avoid.append_iff.1 hrest
        exact ⟨hcondition, hconsequence.block, halternative.choice⟩
  statement {_ statement} h := by
    cases statement with
    | letBinding => exact ⟨h.of_cons.ne_of_token, h.of_cons.of_cons⟩
    | returnValue => exact h.of_cons
    | expression => exact h
    | forLoop =>
        obtain ⟨hiterable, hbody⟩ := Token.Avoid.append_iff.1 h.of_cons.of_cons
        exact ⟨h.of_cons.ne_of_token, hiterable, hbody.block⟩
    | whileLoop =>
        obtain ⟨hcondition, hbody⟩ := Token.Avoid.append_iff.1 h.of_cons
        exact ⟨hcondition, hbody.block⟩
    | breakLoop | continueLoop => trivial
    | tryCatch =>
        obtain ⟨hbody, hrest⟩ := Token.Avoid.append_iff.1 h.of_cons
        obtain ⟨hhandler, hfinalizer⟩ := Token.Avoid.append_iff.1 hrest.of_cons
        exact ⟨hbody.block, hrest.ne_of_token, hhandler.block, hfinalizer.choice⟩
  literal {literal} h := by
    obtain ⟨_, _, parameters, body⟩ := literal
    obtain ⟨hparameters, hbody⟩ := Token.Avoid.append_iff.1 (Token.Avoid.of_cons h)
    refine ⟨fun parameter hparameter => ?_, Token.Avoid.block hbody⟩
    rintro rfl
    exact hparameters _ (List.mem_map_of_mem hparameter) rfl
  harmless _ := trivial
  stray _ := trivial
  find hstores hscope hname := by
    refine ⟨Store.find?_eq_of_frames fun id _ => hstores.others _ hname id, fun value hvalue => ?_⟩
    obtain ⟨id, hid, hbinding⟩ := Store.exists_of_find? hvalue
    exact hstores.seen id (hscope id hid) _ hbinding hname
  holder hstores _ hname := Store.holder?_eq_of_frames fun id _ => hstores.others _ hname id
  put {store store' _ id other value} hstores _ _ hname hvalue :=
    { size := by rw [Store.size_put, Store.size_put, hstores.size]
      grown := by
        rw [Store.size_put]
        exact hstores.grown
      others := fun target htarget place =>
        Store.find?_frame_put_congr hstores.size (hstores.others target htarget) id place other
          value
      seen := fun place hplace binding hbinding hne => by
        rcases Store.mem_frame_put hbinding with rfl | hbefore
        · exact hvalue
        · exact hstores.seen place hplace binding hbefore hne }
  push {store store' parent frame} hstores hparent hframe := by
    refine ⟨hstores.size, ⟨?_, ?_, ?_, ?_⟩, ?_⟩
    · rw [Store.size_push, Store.size_push, hstores.size]
    · rw [Store.size_push]
      exact Nat.le_succ_of_le hstores.grown
    · intro other hother id
      rw [Store.frame_push, Store.frame_push, hstores.size]
      split
      · rfl
      · exact hstores.others other hother id
    · intro id hid binding hbinding hne
      rcases Store.mem_frame_push hbinding with hnew | hbefore
      · exact (hframe binding hnew).2
      · exact hstores.seen id hid binding hbefore hne
    · exact List.forall_mem_cons.2 ⟨.inr hstores.grown, hparent⟩
  print text hprinted := by
    obtain rfl : _ = _ := hprinted
    rfl

/-- Before the runs start only the name itself has another value. -/
theorem lockstep_start (h : start.Avoids name) (environment : Environment) (value : Value) :
    (lockstep start name).states start
      { start with store := start.store.define environment name value } := by
  refine ⟨⟨?_, Nat.le_refl _, fun other hother id => ?_, fun id hid binding hbinding _ => ?_⟩,
    rfl, fun id hid => .inl ⟨start.environment, .current, hid⟩, rfl, rfl, rfl⟩
  · cases environment with
    | nil => rfl
    | cons => exact Store.size_put ..
  · cases environment with
    | nil => rfl
    | cons place rest =>
        show ((start.store.put place name value).frame id).find? other = _
        rw [Store.find?_frame_put, if_neg fun h => hother h.2.2]
  · have haccessible : start.store.Accessible start.environment [] id :=
      hid.resolve_right (Nat.not_le_of_lt (Store.lt_of_mem_frame hbinding))
    obtain ⟨scope, hscope, hmem⟩ := haccessible
    intro atom hatom
    cases atom with
    | function identity closure literal =>
        refine ⟨fun other hother => .inl ⟨closure, ?_, hother⟩,
          h id ⟨scope, hscope, hmem⟩ binding hbinding identity closure literal hatom⟩
        exact .bound hscope hmem hbinding (Value.mem_closures_of_atoms _ hatom)
    | integer | float | string | boolean | array | hash | null | builtin | error => trivial

end Unmentioned

/-- A binding that no code mentions does not matter. Let a name occur neither in a program nor in a
function that can be reached from the state of a session. Then the program gives the same result,
ends or not under the same bounds, prints the same text and leaves every other name bound to the
same value in every environment, whether the name was bound to any value at the root before or not.
This includes names of builtin functions. -/
theorem unmentioned_binding [Host] {settings : Settings} {state : State} {program : Program}
    {name : String} (hreached : Session.Reached settings state) (hstate : state.Avoids name)
    (hprogram : Token.Avoid name program.tokens) (value : Value) (bound : Nat) :
    let extended := { state with store := state.store.define Store.root name value }
    let ended := Session.run bound ⟨settings, state⟩ program
    let ended' := Session.run bound ⟨settings, extended⟩ program
    ended'.1 = ended.1 ∧ ended'.2.state.printed = ended.2.state.printed ∧
      ended'.2.state.store.frames.size = ended.2.state.store.frames.size ∧
      ∀ other, other ≠ name → ∀ environment,
        ended'.2.state.store.find? environment other =
          ended.2.state.store.find? environment other := by
  have hstates := Unmentioned.lockstep_start hstate Store.root value
  have hroot : (Unmentioned.lockstep state name).scope Store.root :=
    hreached.at_root.1 ▸ hstates.scope
  obtain ⟨hresult, hlast, -⟩ := Unmentioned.lockstep_lawful.run hroot settings bound
    (Token.Avoid.statements hprogram) hstates
  exact ⟨hresult, hlast.printed, hlast.stores.size, fun other hother environment =>
    Store.find?_eq_of_frames fun id _ => hlast.stores.others other hother id⟩

/-- A program that binds a function, and a second one that calls it. -/
def callingBack : Program × Program :=
  let place : Location := ⟨1, 1⟩
  let name (text : String) : Identifier := ⟨text, place⟩
  let literal : FunctionLiteral := ⟨place, some "same", [name "value"], ⟨⟨.mark .leftBrace, place⟩,
    [.expression (name "value").token (.identifier (name "value"))]⟩⟩
  (⟨[.letBinding place (name "same") (.function literal)]⟩,
    ⟨[.expression (name "same").token
      (.call place (.identifier (name "same")) [.boolean place true])]⟩)

open scoped Host in
/-- Neither program mentions the builtin function for output, which may be hidden in between. -/
theorem unmentioned_binding_callingBack :
    let state := (Session.run 9 (.new .standard) callingBack.1).2.state
    let extended := { state with store := state.store.define Store.root "print" .null }
    Session.Reached .standard state ∧ state.Avoids "print" ∧
      Token.Avoid "print" callingBack.2.tokens ∧
      (Session.run 9 ⟨.standard, extended⟩ callingBack.2).1 = .value (.boolean true) := by
  intro state extended
  have hreached : Session.Reached .standard state := .run 9 callingBack.1 .new
  have hstate : state.Avoids "print" := by
    intro id _ binding hbinding identity closure literal hatom
    obtain rfl : id = 0 := Nat.lt_one_iff.1 (Store.lt_of_mem_frame hbinding)
    cases List.mem_singleton.1 hbinding
    cases List.mem_singleton.1 hatom
    decide
  have hprogram : Token.Avoid "print" callingBack.2.tokens := by decide
  exact ⟨hreached, hstate, hprogram,
    (unmentioned_binding hreached hstate hprogram .null 9).1.trans rfl⟩

end Script
