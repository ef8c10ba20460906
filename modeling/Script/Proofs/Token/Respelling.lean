import Script.Proofs.Token.Spacing

/-!
# Texts written from tokens

The tokens of a text can be written one after the other with a space between them, strings in quotes
and everything else by its literal. The new text scans to the same lexemes: `scan_respelled`.
-/

namespace Script

/-- How a lexeme is written in a text. -/
def Lexeme.written : Lexeme → String
  | .string contents => Text.quoted contents
  | lexeme => lexeme.literal

/-- Lexemes with a space between them. -/
def respelled (lexemes : List Lexeme) : String :=
  " ".intercalate (lexemes.map Lexeme.written)

namespace Lexeme

/-- Lexemes that belong to what is written for them. -/
def Writable (lexeme : Lexeme) : Prop :=
  lexeme.Covers lexeme.written.toList []

/-- What is quoted belongs to a string. -/
theorem writable_string (contents : String) : (string contents).Writable := by
  refine ⟨trivial, fun hkind => absurd rfl hkind, fun _ => ?_, nofun⟩
  exact ⟨_, String.toList_ofList, Text.unescapes_escape contents.toList⟩

/-- A lexeme that was scanned can be written. -/
theorem Covers.writable {lexeme : Lexeme} {text rest : List Char} (h : lexeme.Covers text rest) :
    lexeme.Writable := by
  have hfront : lexeme.Covers text [] := h.inFront nofun
  cases lexeme with
  | string contents => exact writable_string contents
  | eof => exact h.formed.elim
  | identifier | integer | float | word | mark | illegal =>
      have htext := h.literal nofun
      rw [htext] at hfront
      exact hfront

end Lexeme

/-- Every scanned lexeme can be written. -/
theorem Cut.writable {before chars : List Char} {tokens : List Token}
    (h : Cut before chars tokens) : ∀ token ∈ tokens, token.lexeme.Writable := by
  induction h with
  | blank => exact List.forall_mem_nil _
  | piece hfits _ ih => exact List.forall_mem_cons.2 ⟨hfits.covers.writable, ih⟩

namespace Spaced

/-- A lexeme behind some blanks, in front of another blank or of the end. -/
theorem written {before blank after : List Char} {lexeme : Lexeme} {tokens : List Token}
    (hblank : ∀ c ∈ blank, Stream.separates c = true) (hlexeme : lexeme.Writable)
    (hafter : ∀ c ∈ after.head?, Stream.separates c = true)
    (h : Spaced (before ++ (blank ++ lexeme.written.toList)) after tokens) :
    Spaced before (blank ++ lexeme.written.toList ++ after)
      (⟨lexeme, .behind (before ++ blank)⟩ :: tokens) := by
  have hfits : Piece.Fits before
      ⟨blank, lexeme.written.toList, ⟨lexeme, .behind (before ++ blank)⟩⟩ [] :=
    ⟨hblank, rfl, hlexeme⟩
  exact .piece hfits hafter h

/-- Lexemes with a space between them, behind some blanks. -/
theorem exists_spaced {first : Lexeme} {rest : List Lexeme} {blank : List Char}
    (hblank : ∀ c ∈ blank, Stream.separates c = true)
    (hwritable : ∀ lexeme ∈ first :: rest, lexeme.Writable) (before : List Char) :
    ∃ tokens, tokens.map Token.lexeme = first :: rest ∧
      Spaced before (blank ++ first.written.toList ++
        rest.flatMap fun lexeme => ' ' :: lexeme.written.toList) tokens := by
  induction rest generalizing first blank before with
  | nil =>
      have hfirst := hwritable first (.head _)
      exact ⟨[_], rfl, written hblank hfirst nofun (.blank nofun)⟩
  | cons second rest ih =>
      obtain ⟨hfirst, hrest⟩ := List.forall_mem_cons.1 hwritable
      have hspace : ∀ c ∈ [' '], Stream.separates c = true := List.forall_mem_singleton.2 rfl
      obtain ⟨tokens, hmap, hspaced⟩ :=
        ih hspace hrest (before ++ (blank ++ first.written.toList))
      refine ⟨⟨first, .behind (before ++ blank)⟩ :: tokens, by rw [List.map_cons, hmap], ?_⟩
      refine written hblank hfirst (fun c hc => ?_) hspaced
      cases hc
      rfl

end Spaced

/-- Lexemes that can be written make up a text that scans to them. -/
theorem scan_respelled_lexemes {lexemes : List Lexeme}
    (hwritable : ∀ lexeme ∈ lexemes, lexeme.Writable) :
    (scan (respelled lexemes)).tokens.map Token.lexeme = lexemes ∧
      (scan (respelled lexemes)).failure = none := by
  cases lexemes with
  | nil => exact ⟨rfl, rfl⟩
  | cons first rest =>
      obtain ⟨tokens, hmap, hspaced⟩ := Spaced.exists_spaced (List.forall_mem_nil _) hwritable []
      have hchars : (respelled (first :: rest)).toList = [] ++ first.written.toList ++
          rest.flatMap fun lexeme => ' ' :: lexeme.written.toList := by
        rw [respelled, List.map_cons, intercalate_toList, List.flatMap_map]
        rfl
      rw [← hchars] at hspaced
      obtain ⟨htokens, hfailure⟩ := hspaced.scan
      exact ⟨by rw [htokens, hmap], hfailure⟩

/-- The kind and the literal of a lexeme. -/
def Lexeme.content (lexeme : Lexeme) : TokenKind × String :=
  (lexeme.kind, lexeme.literal)

/-- The kinds and literals that the stream of the text yields, pull by pull: those of the lexemes,
then that of the end, and nothing more. -/
def YieldsExactly (text : String) (contents : List (TokenKind × String)) : Prop :=
  (scan text).failure = none ∧ ∀ number,
    ((Stream.ofText text).pulled number).map (·.lexeme.content) =
      (contents ++ [(.eof, "")])[number]?

/-- A text that is read to its end yields the contents of its lexemes. -/
theorem yieldsExactly_of {text : String} {lexemes : List Lexeme}
    (hlexemes : (scan text).tokens.map Token.lexeme = lexemes)
    (hfailure : (scan text).failure = none) :
    YieldsExactly text (lexemes.map Lexeme.content) := by
  refine ⟨hfailure, fun number => ?_⟩
  rw [scan_pulled, ← List.getElem?_map, Scanned.yielded, hfailure, ← hlexemes, List.map_append,
    List.map_map]
  rfl

/-- The tokens of a text that is read to its end can be written with a space between them, and the
stream of the new text yields tokens of the same kinds with the same literals before its end. What
is written for a string is one token by itself, whatever the string is. -/
theorem scan_respelled :
    (∀ source : String, (scan source).failure = none →
      YieldsExactly (respelled ((scan source).tokens.map Token.lexeme))
        ((scan source).tokens.map (·.lexeme.content))) ∧
    ∀ contents : String, YieldsExactly (Text.quoted contents) [(.string, contents)] := by
  constructor
  · intro source hsource
    have hwritable := (scan_cut_iff.2 ⟨rfl, hsource⟩).writable
    obtain ⟨hlexemes, hfailure⟩ := scan_respelled_lexemes (List.forall_mem_map.2 hwritable)
    have hyields := yieldsExactly_of hlexemes hfailure
    rwa [List.map_map] at hyields
  · intro contents
    have hwritable : ∀ lexeme ∈ [Lexeme.string contents], lexeme.Writable :=
      List.forall_mem_singleton.2 (Lexeme.writable_string contents)
    obtain ⟨hlexemes, hfailure⟩ := scan_respelled_lexemes hwritable
    rw [respelled, List.map_singleton, String.intercalate_singleton] at hlexemes hfailure
    exact yieldsExactly_of hlexemes hfailure

/-- Signs, a comment, a number with two dots and an escape. -/
theorem scan_respelled_escape :
    (scan "a=-1.2.3/*\"\\n\"").failure = none ∧
    YieldsExactly "a = - 1.2.3 /* \"\\n\""
      [(.identifier, "a"), (.mark .assign, "="), (.mark .minus, "-"), (.float, "1.2.3"),
        (.mark .commentOpen, "/*"), (.string, "\n")] := by
  have hsource : (scan "a=-1.2.3/*\"\\n\"").failure = none := by decide +kernel
  have hwritten : respelled ((scan "a=-1.2.3/*\"\\n\"").tokens.map Token.lexeme) =
      "a = - 1.2.3 /* \"\\n\"" := by decide +kernel
  have hcontents : (scan "a=-1.2.3/*\"\\n\"").tokens.map (·.lexeme.content) =
      [(.identifier, "a"), (.mark .assign, "="), (.mark .minus, "-"), (.float, "1.2.3"),
        (.mark .commentOpen, "/*"), (.string, "\n")] := by decide +kernel
  refine ⟨hsource, ?_⟩
  rw [← hwritten, ← hcontents]
  exact scan_respelled.1 _ hsource

end Script
