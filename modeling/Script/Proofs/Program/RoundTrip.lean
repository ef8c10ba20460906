import Script.Proofs.Grammar.Completeness
import Script.Proofs.Grammar.TokenOrder
import Script.Proofs.Program.ReadsBack.Statement

/-!
# Round trips

The text of a program that was read reads back as the same program, apart from its places. Whatever
a reading of scanned tokens gives, with or without errors, has a text that reads back:
`Reads.readsBack`. `Program.read_text` puts this together for whole programs.
-/

namespace Script

/-- Every token can be scanned again. -/
def LegibleTokens (tokens : List Token) : Prop :=
  ∀ token ∈ tokens, token.lexeme.Legible

theorem LegibleTokens.suffix {before after : List Token} (h : LegibleTokens before)
    (hsuffix : after <:+ before) : LegibleTokens after :=
  fun token htoken => h token (hsuffix.subset htoken)

theorem LegibleTokens.tail {first : Token} {rest : List Token}
    (h : LegibleTokens (first :: rest)) : LegibleTokens rest :=
  fun token htoken => h token (List.mem_cons_of_mem _ htoken)

/-- What was read as the phrase has a text that reads back. -/
def Phrase.ReadsBack : {α : Type} → Phrase α → α → Prop
  | _, .expression _, expr | _, .operand, expr | _, .conditional, expr => expr.ReadsBack
  | _, .extension _ left, expr | _, .continuation left, expr => left.ReadsBack → expr.ReadsBack
  | _, .list _ item, items | _, .listTail _ item, items => ∀ x ∈ items, item.ReadsBack x
  | _, .parameter, name | _, .errorName, name => name.Legible
  | _, .pairs, items => ∀ pair ∈ items, pair.key.ReadsBack ∧ pair.value.ReadsBack
  | _, .alternative, choice | _, .finalizer, choice => ∀ inner ∈ choice, inner.ReadsBack
  | _, .block, inner => inner.ReadsBack
  | _, .statements _, items => ∀ inner ∈ items, inner.ReadsBack
  | _, .form, inner => inner.ReadsBack
  | _, .statement, choice => ∀ inner ∈ choice, inner.ReadsBack

/-- What was read from legible tokens has a text that reads back. -/
theorem Reads.readsBack {lenient : Prop} {α : Type} {phrase : Phrase α}
    {before after : List Token} {result : α} (h : Reads lenient phrase before result after)
    (hlegible : LegibleTokens before) : phrase.ReadsBack result := by
  -- every part was read from tokens at the end of `before`, which are legible as well
  induction h with
  | @expression _ _ left _ result _ hleft _ ih ih' =>
      have hextension : left.ReadsBack → result.ReadsBack := ih' (hlegible.suffix hleft.suffix)
      exact hextension (ih hlegible)
  | identifier => exact .identifier (hlegible _ List.mem_cons_self)
  | integer hrange => exact .integer (hlegible _ List.mem_cons_self) hrange
  | float hvalue => exact .float (hlegible _ List.mem_cons_self) hvalue
  | string => exact .string
  | trueLiteral | falseLiteral => exact .boolean
  | unary _ ih => exact .unary (ih hlegible.tail)
  | group _ ih => exact ih hlegible.tail
  | array _ ih => exact .array (ih hlegible.tail)
  | hash _ ih => exact .hash (ih hlegible.tail)
  | function hlist _ ih ih' =>
      have hbody := hlegible.tail.tail.suffix hlist.suffix
      exact .function (ih hlegible.tail.tail) (ih' hbody)
  | choice _ ih => exact ih hlegible
  | complete => exact id
  | @extended _ left _ longer _ result _ _ hcontinuation _ ih ih' =>
      have hlonger : left.ReadsBack → longer.ReadsBack := ih hlegible
      have hextension : longer.ReadsBack → result.ReadsBack :=
        ih' (hlegible.suffix hcontinuation.suffix)
      exact fun hleft => hextension (hlonger hleft)
  | call _ ih => exact fun hleft => .call hleft (ih hlegible.tail)
  | index _ ih => exact fun hleft => .index hleft (ih hlegible.tail)
  | assign _ ih => exact fun hleft => .assign hleft (ih hlegible.tail)
  | binary _ ih => exact fun hleft => .binary hleft (ih hlegible.tail)
  | listEmpty | tailEmpty => exact List.forall_mem_nil _
  | listCons _ _ hfirst _ ih ih' =>
      exact List.forall_mem_cons.2 ⟨ih hlegible, ih' (hlegible.suffix hfirst.suffix)⟩
  | tailCons _ hfirst _ ih ih' =>
      exact List.forall_mem_cons.2 ⟨ih hlegible.tail, ih' (hlegible.tail.suffix hfirst.suffix)⟩
  | parameter | bareName => exact hlegible _ List.mem_cons_self
  | pairsEmpty => exact List.forall_mem_nil _
  | pairsLast hkey hvalue _ _ ih ih' ih'' =>
      have hmiddle := (hlegible.suffix hkey.suffix).tail
      have hlast := hmiddle.suffix hvalue.suffix
      exact List.forall_mem_cons.2 ⟨⟨ih hlegible, ih' hmiddle⟩, ih'' hlast⟩
  | pairsCons hkey hvalue _ ih ih' ih'' =>
      have hmiddle := (hlegible.suffix hkey.suffix).tail
      have hlast := (hmiddle.suffix hvalue.suffix).tail
      exact List.forall_mem_cons.2 ⟨⟨ih hlegible, ih' hmiddle⟩, ih'' hlast⟩
  | conditional hcondition hconsequence _ ih ih' ih'' =>
      have hmiddle := hlegible.tail.suffix hcondition.suffix
      have hlast := hmiddle.suffix hconsequence.suffix
      exact .conditional (ih hlegible.tail) (ih' hmiddle) (ih'' hlast)
  | noAlternative | noFinalizer => exact fun _ h => by cases h
  | alternative _ ih | finalizer _ ih =>
      intro block hblock
      cases hblock
      exact ih hlegible.tail
  | elseIf _ ih =>
      -- the conditional after `else` is shown as the only statement of a block
      intro block hblock
      cases hblock
      have hnested : Expr.ReadsBack _ := ih hlegible.tail
      exact .statements (List.forall_mem_singleton.2 (.expression hnested))
  | block _ ih => exact .statements (ih hlegible.tail)
  | statementsEnd => exact List.forall_mem_nil _
  | @statementsMore _ _ statement _ rest _ _ hstatement _ ih ih' =>
      have hfirst : ∀ inner ∈ statement, inner.ReadsBack := ih hlegible
      have hrest : ∀ inner ∈ rest, inner.ReadsBack := ih' (hlegible.suffix hstatement.suffix)
      intro inner hinner
      rcases List.mem_append.1 hinner with hmem | hmem
      · exact hfirst inner (Option.mem_toList.1 hmem)
      · exact hrest inner hmem
  | letBinding _ ih =>
      have hname := hlegible.tail _ List.mem_cons_self
      exact .letBinding hname (ih hlegible.tail.tail.tail)
  | returnValue _ ih => exact .returnValue (ih hlegible.tail)
  | bareLoop hiterable _ ih ih' =>
      have hname := hlegible.tail _ List.mem_cons_self
      have hafter := hlegible.tail.tail.tail
      exact .forLoop hname (ih hafter) (ih' (hafter.suffix hiterable.suffix))
  | parenLoop hiterable _ ih ih' =>
      have hname := hlegible.tail.tail _ List.mem_cons_self
      have hafter := hlegible.tail.tail.tail.tail
      exact .forLoop hname (ih hafter) (ih' (hafter.suffix hiterable.suffix).tail)
  | whileLoop hcondition _ ih ih' =>
      have hafter := hlegible.tail
      exact .whileLoop (ih hafter) (ih' (hafter.suffix hcondition.suffix))
  | breakLoop => exact .breakLoop
  | continueLoop => exact .continueLoop
  | tryCatch hbody hname hhandler _ ih ih' ih'' ihLast =>
      have hnamed := (hlegible.tail.suffix hbody.suffix).tail
      have hmiddle := hnamed.suffix hname.suffix
      have hlast := hmiddle.suffix hhandler.suffix
      exact .tryCatch (ih hlegible.tail) (ih' hnamed) (ih'' hmiddle) (ihLast hlast)
  | parenName => exact hlegible.tail _ List.mem_cons_self
  | expressionForm _ ih =>
      have hvalue : Expr.ReadsBack _ := ih hlegible
      exact .expression hvalue
  | terminated _ ih | unterminated _ _ ih =>
      intro inner hinner
      cases hinner
      exact ih hlegible
  | empty | comment | openComment | skipped => exact fun _ h => by cases h

/-! ## Programs -/

/-- Reading the text of statements that read back gives them again. -/
theorem Program.read_of_readsBack {statements : List Statement}
    (h : ∀ statement ∈ statements, statement.ReadsBack) :
    ∃ copies, Program.read (Program.text ⟨statements⟩) = ⟨⟨copies⟩, []⟩ ∧
      Statement.unplacedAll copies = Statement.unplacedAll statements := by
  obtain ⟨last, hscan, hended⟩ := scans_scan (Program.text ⟨statements⟩)
  -- a line feed in front of the first statement makes all of them alike
  obtain ⟨place, hscans⟩ : ∃ place, Scans place
      (statements.flatMap (fun statement => '\n' :: statement.text.toList) ++ [])
      (scan (Program.text ⟨statements⟩)).tokens last := by
    cases statements with
    | nil => exact ⟨.start, hscan⟩
    | cons first rest =>
        have hchars :
            (first :: rest).flatMap (fun statement => '\n' :: statement.text.toList) ++ [] =
              '\n' :: (Program.text ⟨first :: rest⟩).toList := by
          rw [Program.text, List.map_cons, intercalate_toList, List.flatMap_map, List.append_nil]
          rfl
        rw [hchars]
        exact ⟨⟨0, 1⟩, (Scans.blank rfl).2 hscan⟩
  have hstops (lexeme : Lexeme) (hstop : decide (lexeme = .eof) = true) :
      lexeme.closesBlock = true := by
    rw [of_decide_eq_true hstop]
    rfl
  obtain ⟨reached, after, copies, hrest, hsame, hreads⟩ := hscans.statements rfl hstops h .nil
  obtain ⟨rfl, hstatus⟩ := hrest.nil
  exact ⟨copies, Program.ofScanned_eq (hended hstatus) (hreads rfl).2, hsame⟩

/-- The text of any program that was read, be it in part, reads back without an error, as the same
program apart from its places, and with the same text. -/
theorem Program.read_text (text : String) :
    (Program.read (Program.read text).program.text).errors = [] ∧
    (Program.read (Program.read text).program.text).program.unplaced =
      (Program.read text).program.unplaced ∧
    (Program.read (Program.read text).program.text).program.text =
      (Program.read text).program.text := by
  have hreads : Reads (0 < (Program.read text).errors.length) _ (scan text).tokens
      (Program.read text).program.statements [] := Program.ofScanned_reads (scan_proper text)
  have hstatements : ∀ statement ∈ (Program.read text).program.statements, statement.ReadsBack :=
    hreads.readsBack (scan_legible text)
  obtain ⟨copies, hread, hsame⟩ := Program.read_of_readsBack hstatements
  have hunplaced : Program.unplaced ⟨copies⟩ = (Program.read text).program.unplaced := by
    rw [Program.unplaced, hsame, Program.unplaced]
  have hagain : Program.read (Program.read text).program.text = ⟨⟨copies⟩, []⟩ := hread
  rw [hagain]
  refine ⟨rfl, hunplaced, ?_⟩
  calc Program.text ⟨copies⟩
      = (Program.unplaced ⟨copies⟩).text := (Program.text_unplaced _).symm
    _ = (Program.read text).program.unplaced.text := by rw [hunplaced]
    _ = (Program.read text).program.text := Program.text_unplaced _

example : (Program.read "let f = fn(x) { x + 1 } f(2) = 3; g(!y)").program.text =
    "let f = fn(x) { (x + 1); };\ng((!y));" := by
  decide +kernel

end Script
