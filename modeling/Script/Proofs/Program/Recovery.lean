import Script.Program.Rendering
import Script.Proofs.Grammar.TokenOrder
import Script.Proofs.Program.Paired.Statement

/-!
# Errors in front of a semicolon

However malformed a text is, a semicolon behind it stops the damage, unless a block or a comment is
open there: the text behind the semicolon is read as it is read alone, with the same statements and
the same errors at their places, and the text in front of it as well. This is
`Program.read_semicolon`. Up to the semicolon the whole text is read beside the first one, and from
there on beside the second one.
-/

namespace Script

/-- The rules of all bounds agree at paired positions. -/
theorem Phrases.upTo_agree (pairing : Pairing) (count count' : Nat) :
    (Phrases.upTo count).Agree pairing (Phrases.upTo count') := by
  induction count generalizing count' with
  | zero => exact ⟨fun _ _ _ _ => Rule.agrees_exhausted _, fun _ => Rule.agrees_exhausted _⟩
  | succ count ih =>
      cases count' with
      | zero => exact ⟨fun _ _ _ _ => Rule.agrees_exhausted' _, fun _ => Rule.agrees_exhausted' _⟩
      | succ count' =>
          have hsmaller := ih count'
          exact ⟨fun precedence _ _ h => hsmaller.wholeExpression precedence count count' h,
            fun h => hsmaller.wholeStatement count count' h⟩

/-! ## Behind the fence -/

namespace Phrases

variable {phrases phrases' : Phrases} {stops : Lexeme → Bool} {pairing : Pairing}
  {cursor cursor' last last' : Cursor} {result result' : List Statement}

/-- Statements are read one by one until they end. -/
theorem statements_eq_parsed {count : Nat}
    (h : phrases.statements stops (count + 1) cursor = .parsed result last) :
    (stops cursor.current.lexeme = true ∧ result = [] ∧ last = cursor) ∨
    (stops cursor.current.lexeme = false ∧ ∃ statement middle rest,
      phrases.statement cursor = .parsed statement middle ∧
      phrases.statements stops count middle = .parsed rest last ∧
      result = statement.toList ++ rest) := by
  rw [Phrases.statements] at h
  obtain ⟨token, start, hcurrent, h⟩ := Rule.bind_eq_parsed h
  cases hcurrent
  cases hstops : stops cursor.current.lexeme with
  | true =>
      rw [hstops, if_pos rfl] at h
      cases h
      exact .inl ⟨rfl, rfl, rfl⟩
  | false =>
      rw [hstops, if_neg Bool.false_ne_true] at h
      obtain ⟨statement, middle, hstatement, h⟩ := Rule.bind_eq_parsed h
      obtain ⟨rest, final, hrest, h⟩ := Rule.bind_eq_parsed h
      cases h
      exact .inr ⟨rfl, statement, middle, rest, hstatement, hrest, rfl⟩

/-- The second run reads the statements of the first one, and then those behind the fence. -/
theorem Agree.statements_fence (hphrases : phrases.Agree pairing phrases')
    (hfenced : pairing.fenced) (count count' : Nat) (halong : pairing.Along 0 cursor cursor')
    (h : phrases.statements (fun lexeme => lexeme = .eof) count cursor = .parsed result last)
    (h' : phrases'.statements (fun lexeme => lexeme = .eof) count' cursor' =
      .parsed result' last') :
    ∃ bound middle more, pairing.Along 0 last middle ∧ last.rest = [] ∧
      phrases'.statements (fun lexeme => lexeme = .eof) bound middle = .parsed more last' ∧
      result' = result.map (Statement.relocated pairing.change) ++ more := by
  induction count generalizing count' cursor cursor' result result' with
  | zero => cases h
  | succ count ih =>
      obtain ⟨hblocks, htokens, -⟩ := halong.fence hfenced
      cases hrest : cursor.rest with
      | nil =>
          -- the first run is at its end, and the second one behind the semicolon
          rcases statements_eq_parsed h with ⟨-, rfl, rfl⟩ | ⟨hstops, -⟩
          · exact ⟨count', cursor', result', halong, hrest, h', rfl⟩
          · rw [Cursor.current_lexeme, hrest] at hstops
            cases hstops
      | cons token rest =>
          have hnext : pairing.Along 1 cursor cursor' :=
            { halong with fence := fun _ => ⟨hblocks, htokens, by simp [hrest]⟩ }
          have hne : cursor.current.lexeme ≠ .eof := (hnext.plain hfenced).2.2.2
          cases count' with
          | zero => cases h'
          | succ count' =>
              rcases statements_eq_parsed h with ⟨hstops, -⟩ |
                ⟨-, statement, middle, more, hstatement, hmore, rfl⟩
              · exact absurd (of_decide_eq_true hstops) hne
              rcases statements_eq_parsed h' with ⟨hstops, -⟩ |
                ⟨-, statement', middle', more', hstatement', hmore', rfl⟩
              · rw [hnext.current_lexeme] at hstops
                exact absurd (of_decide_eq_true hstops) hne
              have hboth := hphrases.statement hnext
              rw [Rule.Agrees, hstatement, hstatement'] at hboth
              obtain ⟨rfl, hmiddle⟩ := hboth
              obtain ⟨bound, behind, later, hlast, hend, hlater, rfl⟩ :=
                ih count' hmiddle hmore hmore'
              refine ⟨bound, behind, later, hlast, hend, hlater, ?_⟩
              cases statement <;> rfl

/-- A second run that has no other tokens reads the same statements. -/
theorem Agree.statements_parsed (hphrases : phrases.Agree pairing phrases')
    (hopen : ¬ pairing.fenced) {count count' : Nat} (halong : pairing.Along 0 cursor cursor')
    (h : phrases.statements stops count cursor = .parsed result last)
    (h' : phrases'.statements stops count' cursor' = .parsed result' last') :
    result' = result.map (Statement.relocated pairing.change) ∧ pairing.Along 0 last last' := by
  have hboth := hphrases.statements hopen stops count count' halong
  rwa [Rule.Agrees, h, h'] at hboth

end Phrases

/-! ## Programs -/

/-- The rule of programs applies to all scanned tokens. -/
theorem programRule_parsed {tokens : List Token} (hproper : ∀ token ∈ tokens, token.lexeme ≠ .eof)
    (finish : Location) :
    ∃ statements last,
      programRule (phraseBound tokens) ⟨tokens, finish, none, [], 0⟩ = .parsed statements last ∧
      Program.ofScanned ⟨tokens, finish, none⟩ = ⟨⟨statements⟩, last.errors⟩ := by
  have hstart : Cursor.ofScanned ⟨tokens, finish, none⟩ = ⟨tokens, finish, none, [], 0⟩ := rfl
  have hmeets := programRule_meets 0 ⟨tokens, finish, none, [], 0⟩ hproper
  rw [Program.ofScanned, hstart]
  dsimp only at hmeets ⊢
  cases hstep : programRule (phraseBound tokens) ⟨tokens, finish, none, [], 0⟩ with
  | parsed statements last => exact ⟨statements, last, rfl, rfl⟩
  | rejected last => exact False.elim (programRule_settles _ _ _ hstep)
  | exhausted =>
      rw [hstep] at hmeets
      exact False.elim hmeets

/-- The second run goes on behind the fence of the first one. -/
def Pairing.untilFence (beyond : List Token) (finish : Location) : Pairing :=
  ⟨id, [], beyond, finish, True⟩

/-- The second run has the tokens of the first one at other places. -/
def Pairing.moved (change : Location → Location) (earlier : List SyntaxError)
    (finish : Location) : Pairing :=
  ⟨change, earlier, [], finish, False⟩

theorem Pairing.untilFence_along {front : List Token} (hfront : Fenced front)
    (beyond : List Token) (finish finish' : Location) :
    (untilFence beyond finish').Along 0 ⟨front, finish, none, [], 0⟩
      ⟨front ++ beyond, finish', none, [], 0⟩ where
  rest := by
    show front ++ beyond = front.map id ++ beyond
    rw [List.map_id]
  errors := rfl
  failure := rfl
  failure' := rfl
  blocks := rfl
  finish := rfl
  whole hopen := absurd trivial hopen
  fence _ := ⟨rfl, hfront, Nat.zero_le _⟩

/-- When the first run is at its end, the second one is where a run of the tokens behind the fence
starts. -/
theorem Pairing.Along.behind_fence {back : List Token} {change : Location → Location}
    {finish : Location} {last middle : Cursor}
    (h : (untilFence (back.map (Token.relocated change)) (change finish)).Along 0 last middle)
    (hend : last.rest = []) (herrors : last.errors.map (SyntaxError.relocated id) = last.errors) :
    (moved change last.errors (change finish)).Along 0 ⟨back, finish, none, [], 0⟩ middle where
  rest := by
    rw [h.rest, hend]
    exact (List.append_nil _).symm
  errors := by
    rw [h.errors]
    exact herrors.trans (List.append_nil _).symm
  failure := rfl
  failure' := h.failure'
  blocks := h.blocks.trans (h.fence trivial).1
  finish := h.finish
  whole _ := ⟨rfl, rfl⟩
  fence := False.elim

/-- Reading tokens beside themselves shows that what is read stays at its places. -/
theorem programRule_stays {tokens : List Token} {finish : Location} {count : Nat}
    {statements : List Statement} {last : Cursor}
    (h : programRule count ⟨tokens, finish, none, [], 0⟩ = .parsed statements last) :
    statements.map (Statement.relocated id) = statements ∧
      last.errors.map (SyntaxError.relocated id) = last.errors := by
  have hstart : (Pairing.moved id [] finish).Along 0 ⟨tokens, finish, none, [], 0⟩
      ⟨tokens, finish, none, [], 0⟩ := by
    refine ⟨?_, rfl, rfl, rfl, rfl, rfl, fun _ => ⟨rfl, rfl⟩, False.elim⟩
    show tokens = tokens.map id ++ []
    rw [List.map_id, List.append_nil]
  obtain ⟨hstatements, hlast⟩ :=
    (Phrases.upTo_agree _ count count).statements_parsed id hstart h h
  exact ⟨hstatements.symm, hlast.errors.symm⟩

/-- Tokens in front of a fence are read by themselves, and those behind it as well. -/
theorem Program.ofScanned_fence {front back : List Token} (hfront : Fenced front)
    (hback : ∀ token ∈ back, token.lexeme ≠ .eof) (change : Location → Location)
    (finish finish' : Location) :
    let first := Program.ofScanned ⟨front, finish, none⟩
    let second := Program.ofScanned ⟨back, finish', none⟩
    Program.ofScanned ⟨front ++ back.map (Token.relocated change), change finish', none⟩ =
      ⟨⟨first.program.statements ++ second.program.statements.map (Statement.relocated change)⟩,
        first.errors ++ second.errors.map (SyntaxError.relocated change)⟩ := by
  dsimp only
  have hproper : ∀ token ∈ front, token.lexeme ≠ .eof := fun token htoken =>
    (hfront.plain token htoken).2.2.2
  have hwhole : ∀ token ∈ front ++ back.map (Token.relocated change), token.lexeme ≠ .eof :=
    List.forall_mem_append.2 ⟨hproper, List.forall_mem_map.2 hback⟩
  obtain ⟨earlier, last, hearlier, hfirst⟩ := programRule_parsed hproper finish
  obtain ⟨later, last', hlater, hsecond⟩ := programRule_parsed hback finish'
  obtain ⟨both, final, hboth, hread⟩ := programRule_parsed hwhole (change finish')
  obtain ⟨hstatements, herrors⟩ := programRule_stays hearlier
  -- all tokens are read beside those in front of the fence
  obtain ⟨bound, middle, more, hmiddle, hend, hmore, rfl⟩ :=
    (Phrases.upTo_agree _ _ _).statements_fence trivial _ _
      (Pairing.untilFence_along hfront _ finish _) hearlier hboth
  -- from there on they are read beside those behind it
  have hbehind := hmiddle.behind_fence hend herrors
  obtain ⟨rfl, hlast⟩ := (Phrases.upTo_agree _ _ _).statements_parsed id hbehind hlater hmore
  rw [hread, hfirst, hsecond, hlast.errors]
  exact congrArg (fun statements => (⟨⟨statements ++ _⟩, _⟩ : Parsed)) hstatements

/-- The tokens of a text and a semicolon behind it. -/
theorem fenced_semicolon {tokens : List Token} (place : Location)
    (hproper : ∀ token ∈ tokens, token.lexeme ≠ .eof)
    (hplain : ∀ token ∈ tokens, token.lexeme ≠ .mark .leftBrace ∧
      token.lexeme ≠ .mark .rightBrace ∧ token.lexeme ≠ .mark .commentOpen) :
    Fenced (tokens ++ [⟨.mark .semicolon, place⟩]) where
  plain := by
    refine List.forall_mem_append.2 ⟨fun token htoken => ?_, List.forall_mem_singleton.2 ?_⟩
    · obtain ⟨hleft, hright, hcomment⟩ := hplain token htoken
      exact ⟨hleft, hright, hcomment, hproper token htoken⟩
    · dsimp only
      decide
  last token htoken := by
    rw [List.getLast?_concat] at htoken
    cases htoken
    rfl

/-- A text that opens and closes no block and opens no comment, with a semicolon behind it, does not
change how another text is read behind the semicolon, and is not changed by it: the statements and
the errors of the one are followed by those of the other, at the places counted from where it
starts. Neither text needs to be free of errors. -/
theorem Program.read_semicolon {front back : String} (hfront : (scan front).failure = none)
    (hplain : ∀ token ∈ (scan front).tokens, token.lexeme ≠ .mark .leftBrace ∧
      token.lexeme ≠ .mark .rightBrace ∧ token.lexeme ≠ .mark .commentOpen)
    (hback : (scan back).failure = none) :
    let first := Program.read (front ++ ";")
    let second := Program.read back
    let change := (Location.behind (front ++ ";").toList).shift
    Program.read (front ++ ";" ++ back) =
      ⟨⟨first.program.statements ++ second.program.statements.map (Statement.relocated change)⟩,
        first.errors ++ second.errors.map (SyntaxError.relocated change)⟩ := by
  intro first second change
  have hfirst : first = _ := congrArg Program.ofScanned (scan_semicolon_last hfront)
  have hsecond : second = Program.ofScanned ⟨(scan back).tokens, (scan back).finish, none⟩ := by
    show Program.ofScanned (scan back) = _
    rw [← hback]
  have hfenced := fenced_semicolon (.behind front.toList) (scan_proper front) hplain
  rw [hfirst, hsecond]
  show Program.ofScanned (scan (front ++ ";" ++ back)) = _
  rw [scan_semicolon hfront hback, List.append_cons]
  exact Program.ofScanned_fence hfenced (scan_proper back) change _ (scan back).finish

/-- The text in front may break off anywhere, here in a call, a list and a binding, and its first
name is read all the same. Of the errors behind it only the one on the first line is moved. -/
theorem Program.read_semicolon_brokenOff :
    (scan "f; g([let x").failure = none ∧
      (∀ token ∈ (scan "f; g([let x").tokens, token.lexeme ≠ .mark .leftBrace ∧
        token.lexeme ≠ .mark .rightBrace ∧ token.lexeme ≠ .mark .commentOpen) ∧
      (scan "a ]\nreturn").failure = none ∧
      (Program.read "a ]\nreturn").errors =
        [.parse (.noExpression (.mark .rightBracket)) ⟨1, 3⟩,
          .parse (.noExpression .eof) ⟨2, 7⟩] ∧
      (Program.read ("f; g([let x" ++ ";" ++ "a ]\nreturn")).errors =
        [.parse (.noExpression (.word .letWord)) ⟨1, 7⟩,
          .parse (.unexpected (.mark .assign) (.mark .semicolon)) ⟨1, 12⟩,
          .parse (.noExpression (.mark .rightBracket)) ⟨1, 15⟩,
          .parse (.noExpression .eof) ⟨2, 7⟩] ∧
      (Program.read ("f; g([let x" ++ ";" ++ "a ]\nreturn")).program.text = "f;\na;" := by
  have hfront : (scan "f; g([let x").failure = none := rfl
  have hplain : ∀ token ∈ (scan "f; g([let x").tokens, token.lexeme ≠ .mark .leftBrace ∧
      token.lexeme ≠ .mark .rightBrace ∧ token.lexeme ≠ .mark .commentOpen := by decide +kernel
  have hback : (scan "a ]\nreturn").failure = none := rfl
  refine ⟨hfront, hplain, hback, by decide +kernel, ?_, ?_⟩
  · rw [Program.read_semicolon hfront hplain hback]
    decide +kernel
  · rw [Program.read_semicolon hfront hplain hback]
    decide +kernel

end Script
