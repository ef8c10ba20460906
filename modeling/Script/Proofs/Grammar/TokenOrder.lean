import Script.Proofs.Grammar.Soundness
import Script.Proofs.Token.Scanning

/-!
# Programs store their tokens in order

A tree stores the tokens it was read from. Names, literals, operators and the keywords of statements
and expressions all stay in it; brackets, separators and comments may be dropped. `Stores` says how
the tokens of a text are divided up in this way, `Reads.keeps` that a reading stores its tokens, and
`Program.tokens_in_order` what follows for programs: nothing that counts is lost, duplicated or
moved.
-/

namespace Script

mutual

/-- The tokens stored in an expression, in the order of the text. -/
def Expr.tokens : Expr → List Token
  | .identifier name => [name.token]
  | .integer location digits _ => [⟨.integer digits, location⟩]
  | .float location digits _ => [⟨.float digits, location⟩]
  | .boolean location value => [⟨.word (if value then .trueWord else .falseWord), location⟩]
  | .string location value => [⟨.string value, location⟩]
  | .array location elements => ⟨.mark .leftBracket, location⟩ :: Expr.tokensAll elements
  | .hash location pairs => ⟨.mark .leftBrace, location⟩ :: Pair.tokensAll pairs
  | .function literal => literal.tokens
  | .unary location operator operand => ⟨operator.lexeme, location⟩ :: operand.tokens
  | .binary location left operator right =>
    left.tokens ++ ⟨operator.lexeme, location⟩ :: right.tokens
  | .assign location target value => target.token :: ⟨.mark .assign, location⟩ :: value.tokens
  | .index location collection index =>
    collection.tokens ++ ⟨.mark .leftBracket, location⟩ :: index.tokens
  | .call location callee arguments =>
    callee.tokens ++ ⟨.mark .leftParen, location⟩ :: Expr.tokensAll arguments
  | .conditional location condition consequence alternative =>
    ⟨.word .ifWord, location⟩ ::
      (condition.tokens ++ (consequence.tokens ++ Block.optionTokens alternative))
termination_by structural expr => expr

/-- The tokens stored in several expressions. -/
def Expr.tokensAll : List Expr → List Token
  | [] => []
  | expr :: rest => expr.tokens ++ Expr.tokensAll rest
termination_by structural exprs => exprs

/-- The tokens stored in a key and its value. -/
def Pair.tokens : Pair → List Token
  | ⟨key, value⟩ => key.tokens ++ value.tokens
termination_by structural pair => pair

/-- The tokens stored in the pairs of a hash literal. -/
def Pair.tokensAll : List Pair → List Token
  | [] => []
  | pair :: rest => pair.tokens ++ Pair.tokensAll rest
termination_by structural pairs => pairs

/-- The tokens stored in a function. -/
def FunctionLiteral.tokens : FunctionLiteral → List Token
  | ⟨location, _, parameters, body⟩ =>
    ⟨.word .fnWord, location⟩ :: (parameters.map Identifier.token ++ body.tokens)
termination_by structural literal => literal

/-- The tokens stored in a block, without the one that opens it. -/
def Block.tokens : Block → List Token
  | ⟨_, statements⟩ => Statement.tokensAll statements
termination_by structural block => block

/-- The tokens stored in a block that may be absent. -/
def Block.optionTokens : Option Block → List Token
  | none => []
  | some block => block.tokens
termination_by structural block => block

/-- The tokens stored in a statement. The first token of an expression is stored there again, and
not counted twice. -/
def Statement.tokens : Statement → List Token
  | .letBinding location target value => ⟨.word .letWord, location⟩ :: target.token :: value.tokens
  | .returnValue location value => ⟨.word .returnWord, location⟩ :: value.tokens
  | .expression _ value => value.tokens
  | .forLoop location element iterable body =>
    ⟨.word .forWord, location⟩ :: element.token :: (iterable.tokens ++ body.tokens)
  | .whileLoop location condition body =>
    ⟨.word .whileWord, location⟩ :: (condition.tokens ++ body.tokens)
  | .breakLoop location => [⟨.word .breakWord, location⟩]
  | .continueLoop location => [⟨.word .continueWord, location⟩]
  | .tryCatch location body error handler finalizer =>
    ⟨.word .tryWord, location⟩ ::
      (body.tokens ++ error.token :: (handler.tokens ++ Block.optionTokens finalizer))
termination_by structural statement => statement

/-- The tokens stored in several statements. -/
def Statement.tokensAll : List Statement → List Token
  | [] => []
  | statement :: rest => statement.tokens ++ Statement.tokensAll rest
termination_by structural statements => statements

end

/-- The tokens stored in a program, in the order of the text. -/
def Program.tokens (program : Program) : List Token :=
  Statement.tokensAll program.statements

/-- Lexemes that are always stored: names, literals, operators, and the words that start statements
and expressions. -/
def Lexeme.counts : Lexeme → Bool
  | .identifier _ | .integer _ | .float _ | .string _ | .word .trueWord | .word .falseWord => true
  | .mark .plus | .mark .minus | .mark .star | .mark .slash | .mark .bang | .mark .equal
  | .mark .notEqual | .mark .less | .mark .lessEqual | .mark .greater | .mark .greaterEqual
  | .mark .and | .mark .or => true
  | .word .letWord | .word .returnWord | .word .forWord | .word .whileWord | .word .breakWord
  | .word .continueWord | .word .tryWord | .word .fnWord | .word .ifWord => true
  | _ => false

/-- The tokens outside of comments, when `inside` says whether the first one is in a comment. A
comment lasts from its opening mark to the next closing one, or to the end. -/
def outsideComments : (inside : Bool) → List Token → List Token
  | _, [] => []
  | false, token :: rest =>
    if token.lexeme = .mark .commentOpen then outsideComments true rest
    else token :: outsideComments false rest
  | true, token :: rest =>
    if token.lexeme = .mark .commentClose then outsideComments false rest
    else outsideComments true rest

/-- The tokens of a list that have to be stored. -/
def countedTokens (tokens : List Token) : List Token :=
  (outsideComments false tokens).filter (·.lexeme.counts)

/-! ## Stored and dropped tokens -/

/-- `Stores lenient tokens before after` says that, of the tokens in front of `after` in `before`,
`tokens` are stored, in their order, and no others that count. In a lenient reading others may have
been skipped. -/
inductive Stores (lenient : Prop) : List Token → List Token → List Token → Prop where
  | nil {after} : Stores lenient [] after after
  | stored {token tokens before after} :
    token.lexeme ≠ .mark .commentOpen → Stores lenient tokens before after →
    Stores lenient (token :: tokens) (token :: before) after
  | dropped {token tokens before after} :
    token.lexeme ≠ .mark .commentOpen → token.lexeme.counts = false →
    Stores lenient tokens before after → Stores lenient tokens (token :: before) after
  | comment {first last skipped tokens before after} :
    (∀ token ∈ skipped, token.lexeme ≠ .mark .commentClose) → Stores lenient tokens before after →
    Stores lenient tokens
      (⟨.mark .commentOpen, first⟩ :: (skipped ++ ⟨.mark .commentClose, last⟩ :: before)) after
  | openComment {first skipped tokens after} :
    (∀ token ∈ skipped, token.lexeme ≠ .mark .commentClose) → Stores lenient tokens [] after →
    Stores lenient tokens (⟨.mark .commentOpen, first⟩ :: skipped) after
  | skipped {tokens before middle after} :
    lenient → middle <:+ before → Stores lenient tokens middle after →
    Stores lenient tokens before after

/-- The end of a comment is the first closing mark. -/
theorem outsideComments_closed {skipped after : List Token} {last : Location}
    (h : ∀ token ∈ skipped, token.lexeme ≠ .mark .commentClose) :
    outsideComments true (skipped ++ ⟨.mark .commentClose, last⟩ :: after) =
      outsideComments false after := by
  induction skipped with
  | nil => rfl
  | cons token rest ih =>
      obtain ⟨hfirst, hrest⟩ := List.forall_mem_cons.1 h
      rw [List.cons_append, outsideComments, if_neg hfirst]
      exact ih hrest

/-- A comment without a closing mark lasts to the end. -/
theorem outsideComments_open {skipped : List Token}
    (h : ∀ token ∈ skipped, token.lexeme ≠ .mark .commentClose) :
    outsideComments true skipped = [] := by
  induction skipped with
  | nil => rfl
  | cons token rest ih =>
      obtain ⟨hfirst, hrest⟩ := List.forall_mem_cons.1 h
      rw [outsideComments, if_neg hfirst]
      exact ih hrest

theorem countedTokens_cons {token : Token} (h : token.lexeme ≠ .mark .commentOpen)
    (rest : List Token) :
    countedTokens (token :: rest) =
      if token.lexeme.counts then token :: countedTokens rest else countedTokens rest := by
  rw [countedTokens, outsideComments, if_neg h, List.filter_cons]
  rfl

namespace Stores

variable {lenient : Prop} {tokens first second before middle after : List Token}

theorem trans (h : Stores lenient first before middle) (h' : Stores lenient second middle after) :
    Stores lenient (first ++ second) before after := by
  induction h with
  | nil => exact h'
  | stored hopen _ ih => exact .stored hopen (ih h')
  | dropped hopen hcounts _ ih => exact .dropped hopen hcounts (ih h')
  | comment hskipped _ ih => exact .comment hskipped (ih h')
  | openComment hskipped _ ih => exact .openComment hskipped (ih h')
  | skipped hlenient hsuffix _ ih => exact .skipped hlenient hsuffix (ih h')

/-- A single token that is stored. -/
theorem one {token : Token} (hopen : token.lexeme ≠ .mark .commentOpen) :
    Stores lenient [token] (token :: after) after :=
  .stored hopen .nil

/-- Stored tokens stand in the text in their order. -/
theorem sublist (h : Stores lenient tokens before after) :
    (tokens ++ after).Sublist before := by
  induction h with
  | nil => exact List.Sublist.refl _
  | stored _ _ ih => exact ih.cons_cons _
  | dropped _ _ _ ih => exact ih.cons _
  | comment _ _ ih =>
      exact ((ih.cons _).trans (List.sublist_append_right ..)).cons _
  | openComment _ _ ih => exact (ih.trans (List.nil_sublist _)).cons _
  | skipped _ hsuffix _ ih => exact ih.trans hsuffix.sublist

/-- Unless statements were skipped, all tokens that count are stored, apart from comments. -/
theorem counted (h : Stores lenient tokens before after) (hstrict : ¬ lenient) :
    countedTokens before = tokens.filter (·.lexeme.counts) ++ countedTokens after := by
  induction h with
  | nil => rfl
  | stored hopen _ ih =>
      rw [countedTokens_cons hopen, List.filter_cons, ih]
      split <;> rfl
  | dropped hopen hcounts _ ih =>
      rw [countedTokens_cons hopen, hcounts, if_neg Bool.false_ne_true, ih]
  | comment hskipped _ ih =>
      rw [← ih, countedTokens, outsideComments, if_pos rfl, outsideComments_closed hskipped]
      rfl
  | openComment hskipped _ ih =>
      rw [← ih, countedTokens, outsideComments, if_pos rfl, outsideComments_open hskipped]
      rfl
  | skipped hlenient => exact False.elim (hstrict hlenient)

end Stores

/-! ## The tokens of phrases -/

namespace Phrase

/-- The tokens stored in the result of a phrase. -/
def tokens : {α : Type} → Phrase α → α → List Token
  | _, .expression _, result | _, .operand, result | _, .extension _ _, result
  | _, .continuation _, result | _, .conditional, result => result.tokens
  | _, .list _ item, result | _, .listTail _ item, result => result.flatMap item.tokens
  | _, .parameter, result | _, .errorName, result => [result.token]
  | _, .pairs, result => Pair.tokensAll result
  | _, .alternative, result | _, .finalizer, result => Block.optionTokens result
  | _, .block, result => result.tokens
  | _, .statements _, result => Statement.tokensAll result
  | _, .form, result => result.tokens
  | _, .statement, result => Statement.tokensAll result.toList

/-- The tokens that a phrase adds to the operand that was read before it, if any, are stored. -/
def Keeps (lenient : Prop) (before after : List Token) : {α : Type} → Phrase α → α → Prop
  | _, .extension _ left, result | _, .continuation left, result =>
    ∃ added, result.tokens = left.tokens ++ added ∧ Stores lenient added before after
  | _, phrase, result => Stores lenient (phrase.tokens result) before after

end Phrase

theorem Expr.tokensAll_eq (exprs : List Expr) :
    Expr.tokensAll exprs = exprs.flatMap Expr.tokens := by
  induction exprs with
  | nil => rfl
  | cons expr rest ih => rw [Expr.tokensAll, ih, List.flatMap_cons]

theorem Statement.tokensAll_append (first second : List Statement) :
    Statement.tokensAll (first ++ second) =
      Statement.tokensAll first ++ Statement.tokensAll second := by
  induction first with
  | nil => rfl
  | cons statement rest ih =>
      rw [List.cons_append, Statement.tokensAll, ih, ← List.append_assoc]
      rfl

/-- The name that a binding gives to a function is no token of its own. -/
theorem Expr.tokens_named (name : String) (expr : Expr) :
    (expr.named name).tokens = expr.tokens := by
  cases expr with
  | function literal => cases literal; rfl
  | _ => rfl

theorem Phrase.IsItem.keeps {lenient : Prop} {α : Type} {item : Phrase α} (hitem : item.IsItem)
    {before after : List Token} {result : α} :
    item.Keeps lenient before after result ↔ Stores lenient (item.tokens result) before after := by
  cases hitem <;> rfl

/-- Closing marks of lists are not stored. -/
theorem Mark.ClosesList.dropped {lenient : Prop} {closing : Mark} (h : closing.ClosesList)
    {location : Location} {after : List Token} :
    Stores lenient [] (⟨.mark closing, location⟩ :: after) after := by
  cases h <;> exact .dropped (by simp) rfl .nil

/-- Tokens in front of one that is dropped. -/
theorem Stores.append_dropped {lenient : Prop} {tokens before after : List Token} {token : Token}
    (h : Stores lenient tokens before (token :: after)) (hopen : token.lexeme ≠ .mark .commentOpen)
    (hcounts : token.lexeme.counts = false) : Stores lenient tokens before after := by
  have hboth := h.trans (.dropped hopen hcounts .nil)
  rwa [List.append_nil] at hboth

/-- A reading stores its tokens. -/
theorem Reads.keeps {lenient : Prop} {α : Type} {phrase : Phrase α} {before after : List Token}
    {result : α} (h : Reads lenient phrase before result after) :
    phrase.Keeps lenient before after result := by
  -- each token in front of a part, or between two parts, is stored or does not count
  induction h with
  | expression _ _ ih ih' =>
      obtain ⟨added, htokens, hadded⟩ := ih'
      show Stores lenient _ _ _
      rw [Phrase.tokens, htokens]
      exact Stores.trans ih hadded
  | identifier | integer | float | string | trueLiteral | falseLiteral | parameter | bareName
  | breakLoop | continueLoop =>
      exact .one (by simp [Identifier.token])
  | @unary operator _ _ _ _ _ ih =>
      exact .stored (by cases operator <;> simp [UnaryOperator.lexeme]) ih
  | group _ ih => exact .dropped (by simp) rfl (Stores.append_dropped ih (by simp) rfl)
  | @array _ _ elements _ _ ih =>
      have helements : Stores lenient (elements.flatMap Expr.tokens) _ _ := ih
      rw [← Expr.tokensAll_eq] at helements
      exact .stored (by simp) helements
  | hash _ ih => exact .stored (by simp) ih
  | @function location _ _ parameters _ body _ _ _ ih ih' =>
      have hparameters : Stores lenient (parameters.flatMap fun name => [name.token]) _ _ := ih
      rw [← List.map_eq_flatMap] at hparameters
      exact .stored (by simp) (.dropped (by simp) rfl (hparameters.trans ih'))
  | choice _ ih => exact ih
  -- what comes after an operand is added behind its tokens
  | complete => exact ⟨[], (List.append_nil _).symm, .nil⟩
  | extended _ _ _ ih ih' =>
      obtain ⟨added, htokens, hadded⟩ := ih
      obtain ⟨added', htokens', hadded'⟩ := ih'
      exact ⟨added ++ added', by rw [htokens', htokens, List.append_assoc], hadded.trans hadded'⟩
  | @call _ _ _ arguments _ _ ih =>
      have harguments : Stores lenient (arguments.flatMap Expr.tokens) _ _ := ih
      rw [← Expr.tokensAll_eq] at harguments
      exact ⟨_, rfl, .stored (by simp) harguments⟩
  | index _ ih => exact ⟨_, rfl, .stored (by simp) (Stores.append_dropped ih (by simp) rfl)⟩
  | assign _ ih => exact ⟨_, rfl, .stored (by simp) ih⟩
  | @binary _ _ _ _ _ operator _ ih =>
      exact ⟨_, rfl, .stored (by cases operator <;> simp [BinaryOperator.lexeme]) ih⟩
  | listEmpty hclosing | tailEmpty hclosing => exact hclosing.dropped
  | listCons hitem _ _ _ ih ih' => exact Stores.trans (hitem.keeps.1 ih) ih'
  | tailCons hitem _ _ ih ih' =>
      exact .dropped (by simp) rfl (Stores.trans (hitem.keeps.1 ih) ih')
  | pairsEmpty => exact .dropped (by simp) rfl .nil
  | pairsLast _ _ _ _ ih ih' ih'' =>
      have hkey := Stores.append_dropped ih (by simp) rfl
      exact (hkey.trans ih').trans ih''
  | pairsCons _ _ _ ih ih' ih'' =>
      have hkey := Stores.append_dropped ih (by simp) rfl
      have hvalue := Stores.append_dropped ih' (by simp) rfl
      exact (hkey.trans hvalue).trans ih''
  | conditional _ _ _ ih ih' ih'' =>
      exact .stored (by simp) (Stores.trans ih (Stores.trans ih' ih''))
  | noAlternative => exact .nil
  | alternative _ ih => exact .dropped (by simp) rfl ih
  | elseIf _ ih =>
      have hnested := Stores.trans ih .nil
      exact .dropped (by simp) rfl hnested
  | block _ ih => exact .dropped (by simp) rfl (Stores.append_dropped ih (by simp) rfl)
  | statementsEnd => exact .nil
  | @statementsMore _ _ statement _ _ _ _ _ _ ih ih' =>
      show Stores lenient (Statement.tokensAll _) _ _
      rw [Statement.tokensAll_append]
      exact Stores.trans ih ih'
  | @letBinding _ name _ _ _ value _ _ ih =>
      show Stores lenient (_ :: _ :: (value.named name).tokens) _ _
      rw [Expr.tokens_named]
      exact .stored (by simp) (.stored (by simp [Identifier.token]) (.dropped (by simp) rfl ih))
  | returnValue _ ih => exact .stored (by simp) ih
  | bareLoop _ _ ih ih' =>
      refine .stored (by simp) (.stored (by simp [Identifier.token]) (.dropped (by simp) rfl ?_))
      exact Stores.trans ih ih'
  | parenLoop _ _ ih ih' =>
      refine .stored (by simp) (.dropped (by simp) rfl ?_)
      refine .stored (by simp [Identifier.token]) (.dropped (by simp) rfl ?_)
      exact Stores.trans (Stores.append_dropped ih (by simp) rfl) ih'
  | whileLoop _ _ ih ih' => exact .stored (by simp) (Stores.trans ih ih')
  | tryCatch _ _ _ _ ih ih' ih'' ihLast =>
      have hbody := Stores.append_dropped ih (by simp) rfl
      have hhandler := Stores.trans ih'' ihLast
      exact .stored (by simp) (hbody.trans (Stores.trans ih' hhandler))
  | parenName =>
      refine .dropped (by simp) rfl (.stored (by simp [Identifier.token]) ?_)
      exact .dropped (by simp) rfl .nil
  | noFinalizer => exact .nil
  | finalizer _ ih => exact .dropped (by simp) rfl ih
  | expressionForm _ ih => exact ih
  | terminated _ ih =>
      have hform := Stores.append_dropped ih (by simp) rfl
      exact hform.trans .nil
  | unterminated _ _ ih => exact Stores.trans ih .nil
  | empty => exact .dropped (by simp) rfl .nil
  | comment h => exact .comment (fun token htoken => (h token htoken).1) .nil
  | openComment h => exact .openComment (fun token htoken => (h token htoken).1) .nil
  | skipped hlenient hsuffix _ => exact .skipped hlenient hsuffix .nil

/-! ## Programs -/

/-- No scanned token is the end of the text. -/
theorem scan_proper (text : String) : ∀ token ∈ (scan text).tokens, token.lexeme ≠ .eof := by
  intro token htoken hend
  have hlegible := scan_legible text token htoken
  rw [hend] at hlegible
  exact hlegible

/-- A program without errors stores all tokens of its text that count, apart from comments, in
their order. With or without errors, the tokens of a program are among those of its text, in their
order. -/
theorem Program.tokens_in_order (text : String) :
    ((Program.read text).errors = [] →
      (Program.read text).program.tokens.filter (·.lexeme.counts) =
        countedTokens (scan text).tokens) ∧
    (Program.read text).program.tokens.Sublist (scan text).tokens := by
  have hreads : Reads (0 < (Program.read text).errors.length) _ (scan text).tokens
      (Program.read text).program.statements [] := Program.ofScanned_reads (scan_proper text)
  have hstores : Stores (0 < (Program.read text).errors.length) (Program.read text).program.tokens
      (scan text).tokens [] := hreads.keeps
  constructor
  · intro herrors
    rw [herrors] at hstores
    have hcounted := hstores.counted (Nat.not_lt_zero _)
    rw [hcounted]
    exact (List.append_nil _).symm
  · have hsublist := hstores.sublist
    rwa [List.append_nil] at hsublist

example :
    (Program.read "a /* b */ c + (1)").program.tokens.map Token.literal = ["a", "c", "+", "1"] := by
  decide +kernel

end Script
