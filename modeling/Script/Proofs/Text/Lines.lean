import Script.Repl

/-!
# Lines of texts

A text is cut into lines behind its line feeds. An interactive session sees bytes, and cuts them
behind the bytes that encode a line feed. Both come to the same: no other character has such a byte
in its encoding, so the lines of an encoded text are its encoded lines, `Repl.lines_encode`.
-/

namespace Script

namespace Text

/-- The bytes of a text in UTF-8. -/
def encode (text : String) : List UInt8 := text.toUTF8.data.toList

/-- `CutsInto text lines` says that `lines` are the lines of `text`: each ends with the line feed
behind it, but for the last one if the text does not end there. -/
inductive CutsInto : String → List String → Prop where
  | nil : CutsInto "" []
  | unended {line : String} : line ≠ "" → '\n' ∉ line.toList → CutsInto line [line]
  | ended {line text : String} {rest : List String} :
    '\n' ∉ line.toList → CutsInto text rest →
    CutsInto (line ++ "\n" ++ text) ((line ++ "\n") :: rest)

namespace CutsInto

variable {text : String} {lines : List String}

/-- Put together, the lines are the text. -/
theorem join_eq (h : CutsInto text lines) : String.join lines = text := by
  induction h with
  | nil => rfl
  | unended => simp
  | ended _ _ ih => rw [String.join_cons, ih]

/-- A character in front of the first line, which it does not end. -/
theorem push_front {c : Char} (hc : c ≠ '\n') (h : CutsInto text lines) :
    ∃ lines, CutsInto (String.singleton c ++ text) lines := by
  have hne (line : String) : String.singleton c ++ line ≠ "" := by
    simp [← String.toList_inj]
  have hfeed {line : String} (hline : '\n' ∉ line.toList) :
      '\n' ∉ (String.singleton c ++ line).toList := by
    simpa [hc.symm] using hline
  cases h with
  | nil => exact ⟨_, .unended (hne "") (hfeed List.not_mem_nil)⟩
  | unended _ hline => exact ⟨_, .unended (hne _) (hfeed hline)⟩
  | ended hline hrest =>
      rw [← String.append_assoc, ← String.append_assoc]
      exact ⟨_, .ended (hfeed hline) hrest⟩

/-- Every text has lines. -/
theorem exists_lines (text : String) : ∃ lines, CutsInto text lines := by
  rw [← String.ofList_toList (s := text)]
  induction text.toList with
  | nil => exact ⟨[], .nil⟩
  | cons c rest ih =>
      obtain ⟨lines, hlines⟩ := ih
      have hcons : String.ofList (c :: rest) = String.singleton c ++ String.ofList rest := by simp
      rw [hcons]
      by_cases hc : c = '\n'
      · subst hc
        exact ⟨_, @CutsInto.ended "" _ _ List.not_mem_nil hlines⟩
      · exact hlines.push_front hc

/-- Without one of them, the lines are those of the rest of the text. -/
theorem eraseIdx (h : CutsInto text lines) (place : Nat) :
    CutsInto (String.join (lines.eraseIdx place)) (lines.eraseIdx place) := by
  induction h generalizing place with
  | nil => exact .nil
  | unended hne hline =>
      cases place with
      | zero => exact .nil
      | succ place => simpa using CutsInto.unended hne hline
  | ended hline hrest ih =>
      cases place with
      | zero =>
          rw [List.eraseIdx_cons_zero, hrest.join_eq]
          exact hrest
      | succ place =>
          rw [List.eraseIdx_cons_succ, String.join_cons]
          exact .ended hline (ih place)

end CutsInto

/-! ## Encoded lines -/

theorem encode_append (text more : String) :
    encode (text ++ more) = encode text ++ encode more := by
  simp [encode]

theorem encode_feed : encode "\n" = [10] := by decide

/-- The byte of a line feed is in no other encoding. -/
theorem feed_not_mem_encodeChar {c : Char} (h : c ≠ '\n') : 10 ∉ String.utf8EncodeChar c := by
  have hnumber : c.val.toNat ≠ 10 := fun heq => h (Char.ext (UInt32.toNat.inj heq))
  have hbyte (value : Nat) : 10 = UInt8.ofNat value ↔ value % 256 = 10 := by
    rw [← UInt8.toNat_inj, UInt8.toNat_ofNat']
    exact eq_comm
  -- a single byte is the number of the character, and several bytes are all at least 128
  unfold String.utf8EncodeChar
  dsimp only
  split
  · rw [List.mem_singleton, hbyte]
    omega
  · split
    · simp only [List.mem_cons, List.not_mem_nil, or_false, hbyte]
      omega
    · split <;>
        · simp only [List.mem_cons, List.not_mem_nil, or_false, hbyte]
          omega

theorem encode_eq_flatMap (text : String) :
    encode text = text.toList.flatMap String.utf8EncodeChar := by
  rw [encode, String.toUTF8_eq_toByteArray, ← String.utf8Encode_toList, List.utf8Encode,
    List.data_toByteArray]

theorem feed_not_mem_encode {text : String} (h : '\n' ∉ text.toList) : 10 ∉ encode text := by
  rw [encode_eq_flatMap, List.mem_flatMap]
  rintro ⟨c, hc, hfeed⟩
  exact feed_not_mem_encodeChar (fun heq => h (heq ▸ hc)) hfeed

end Text

namespace Repl

/-- An encoded line is read as what it was. -/
theorem decode?_encode (line : String) : decode? (Text.encode line) = some line := by
  have hbytes : (⟨(Text.encode line).toArray⟩ : ByteArray) = line.toByteArray := rfl
  rw [decode?, hbytes, String.fromUTF8?, dif_pos line.isValidUTF8]
  rfl

theorem eq_of_encode_eq {line other : String} (h : Text.encode line = Text.encode other) :
    line = other := by
  have hdecoded := decode?_encode line
  rw [h, decode?_encode] at hdecoded
  exact (Option.some.inj hdecoded).symm

/-- A line with the line feed that ends it, in front of others. -/
theorem lines_feed {line : List UInt8} (h : 10 ∉ line) (rest : List UInt8) :
    lines (line ++ 10 :: rest) = (line ++ [10]) :: lines rest := by
  induction line with
  | nil => rfl
  | cons byte line ih =>
      obtain ⟨hbyte, hline⟩ := not_or.1 (mt List.mem_cons.2 h)
      show lines.cut byte (lines (line ++ 10 :: rest)) = _
      rw [ih hline, lines.cut, if_neg (Ne.symm hbyte)]
      rfl

/-- A line without a line feed, at the end of an input. -/
theorem lines_unended {line : List UInt8} (hne : line ≠ []) (h : 10 ∉ line) :
    lines line = [line] := by
  induction line with
  | nil => exact absurd rfl hne
  | cons byte line ih =>
      obtain ⟨hbyte, hline⟩ := not_or.1 (mt List.mem_cons.2 h)
      show lines.cut byte (lines line) = _
      cases line with
      | nil => exact if_neg (Ne.symm hbyte)
      | cons => rw [ih (List.cons_ne_nil _ _) hline, lines.cut, if_neg (Ne.symm hbyte)]

/-- The lines of an encoded text are its encoded lines. -/
theorem lines_encode {text : String} {list : List String} (h : Text.CutsInto text list) :
    lines (Text.encode text) = list.map Text.encode := by
  induction h with
  | nil => rfl
  | @unended line hne hline =>
      exact lines_unended (fun hnil => hne (eq_of_encode_eq hnil)) (Text.feed_not_mem_encode hline)
  | ended hline _ ih =>
      rw [Text.encode_append, Text.encode_append, Text.encode_feed, List.append_assoc,
        List.singleton_append, lines_feed (Text.feed_not_mem_encode hline), ih, List.map_cons,
        Text.encode_append, Text.encode_feed]

end Repl

/-- A text is cut into lines in one way only. -/
theorem Text.CutsInto.unique {text : String} {first second : List String}
    (h : CutsInto text first) (h' : CutsInto text second) : first = second := by
  have hencoded := (Repl.lines_encode h).symm.trans (Repl.lines_encode h')
  exact (List.map_inj_right fun _ _ => Repl.eq_of_encode_eq).1 hencoded

end Script
