/-
A quoted text reads back as the text it quotes, whatever stands behind it. So a quoted text ends
where it was made to end, and no two texts are quoted alike.
-/
import AppExport.Json.Token
import AppExport.Proofs.Text.Quoted

namespace AppExport.Json

open Text (Glyph escape hexDigit length_le_flatMap_escape letterEscapes quoteChars)

/-- A cursor with characters before it. -/
def Cursor.before (text : List Char) (offset : Nat) : Cursor := ⟨text.map .char, offset⟩

namespace Cursor

@[simp] theorem rest_before (text : List Char) (offset : Nat) :
    (before text offset).rest = text.map .char := rfl

@[simp] theorem next_before (c : Char) (text : List Char) (offset : Nat) :
    (before (c :: text) offset).next = before text (offset + c.utf8Size) := rfl

theorem before_append (text rest : List Char) (offset : Nat) :
    before (text ++ rest) offset = ⟨text.map .char ++ rest.map .char, offset⟩ := by
  rw [before, List.map_append]

end Cursor

/-! ## Escapes -/

theorem letterEscape?_of_mem {letter c : Char} (h : (letter, c) ∈ letterEscapes) :
    letter ≠ 'u' ∧ letterEscape? (.char letter) = some c := by
  have hall : ∀ e ∈ letterEscapes, e.1 ≠ 'u' ∧ letterEscape? (.char e.1) = some e.2 := by decide
  exact hall _ h

theorem hexDigit?_hexDigit : ∀ n < 16, Glyph.hexDigit? (.char (hexDigit n)) = some n := by decide

/-- The code of a control character, behind `\u`. -/
theorem codePoint_control {c : Char} (hc : c.toNat < 0x20) (rest : List Char) (offset : Nat) :
    codePoint (.before
        ('0' :: '0' :: hexDigit (c.toNat / 16) :: hexDigit (c.toNat % 16) :: rest) offset) =
      .ok (c, .before rest (offset + 4)) := by
  have hi := hexDigit?_hexDigit (c.toNat / 16) (by omega)
  have lo := hexDigit?_hexDigit (c.toNat % 16) (Nat.mod_lt _ (by decide))
  have hzero : Glyph.hexDigit? (.char '0') = some 0 := by decide
  have hcode : (((0 * 16 + 0) * 16 + c.toNat / 16) * 16 + c.toNat % 16) = c.toNat := by omega
  have hfour : fourDigits (.before
      ('0' :: '0' :: hexDigit (c.toNat / 16) :: hexDigit (c.toNat % 16) :: rest) offset) =
      .ok (c.toNat, .before rest (offset + 4)) := by
    simp only [fourDigits, Cursor.rest_before, List.map_cons, hzero, hi, lo, hcode]
    rfl
  simp only [codePoint, hfour, bind, Except.bind]
  rw [if_neg (by omega), if_neg (by omega), Char.ofNat_toNat]

/-- A round of reading takes what one character was written as. -/
theorem textFrom_escape (rounds : Nat) (done : List Char) (c : Char) (rest : List Char)
    (offset : Nat) : ∃ offset', textFrom (rounds + 1) done 0 (.before (escape c ++ rest) offset) =
      textFrom rounds (c :: done) 0 (.before rest offset') := by
  obtain ⟨letter, hmem, he⟩ | ⟨hc, he⟩ | ⟨hc, hquote, hslash, he⟩ := Text.escape_cases c <;> rw [he]
  · obtain ⟨hu, hletter⟩ := letterEscape?_of_mem hmem
    simp only [List.cons_append, List.nil_append, textFrom, escapeSequence, Cursor.rest_before,
      List.map_cons, Cursor.next_before, Glyph.char.injEq, hu, hletter, Char.reduceEq, if_true,
      if_false]
    exact ⟨_, rfl⟩
  · simp only [List.cons_append, List.nil_append, textFrom, escapeSequence, Cursor.rest_before,
      List.map_cons, Cursor.next_before, codePoint_control hc, Glyph.char.injEq, Char.reduceEq,
      if_true, if_false]
    exact ⟨_, rfl⟩
  · have hcontrol : isControl (.char c) = false := by simpa [isControl] using hc
    simp only [List.cons_append, List.nil_append, textFrom, Cursor.rest_before, List.map_cons,
      Cursor.next_before, Glyph.char.injEq, hquote, hslash, hcontrol, if_true, if_false,
      Bool.false_eq_true]
    exact ⟨_, rfl⟩

theorem textFrom_quoted (s : List Char) : ∀ (rounds : Nat) (done rest : List Char) (offset : Nat),
    s.length < rounds → ∃ offset',
      textFrom rounds done 0 (.before (s.flatMap escape ++ '"' :: rest) offset) =
        .ok (String.ofList (done.reverse ++ s), .before rest offset') := by
  induction s with
  | nil =>
    intro rounds done rest offset h
    obtain ⟨rounds, rfl⟩ : ∃ n, rounds = n + 1 := ⟨rounds - 1, by simp at h; omega⟩
    simp [textFrom]
  | cons c s ih =>
    intro rounds done rest offset h
    obtain ⟨rounds, rfl⟩ : ∃ n, rounds = n + 1 := ⟨rounds - 1, by simp at h; omega⟩
    obtain ⟨offset', he⟩ := textFrom_escape rounds done c (s.flatMap escape ++ '"' :: rest) offset
    obtain ⟨offset'', hs⟩ := ih rounds (c :: done) rest offset' (by simpa using h)
    exact ⟨offset'', by simpa using he.trans hs⟩

/-- A quoted text reads back, its opening quote having been read. -/
theorem textBody_quoted (s rest : List Char) (offset : Nat) : ∃ offset',
    textBody (.before (s.flatMap escape ++ '"' :: rest) offset) =
      .ok (String.ofList s, .before rest offset') := by
  have hlen := length_le_flatMap_escape s
  refine textFrom_quoted s _ [] rest offset ?_
  simp only [Cursor.rest_before, List.length_map, List.length_append, List.length_cons]
  omega

end AppExport.Json

namespace AppExport.Text

open Json (textBody_quoted)

theorem Glyph.char_injective : Function.Injective Glyph.char := fun a b h => by
  cases h
  rfl

/-- No text continues a quoted text, and no two are quoted alike. -/
theorem quoteChars_append_inj {s t r r' : List Char} (h : quoteChars s ++ r = quoteChars t ++ r') :
    s = t ∧ r = r' := by
  have hbody : s.flatMap escape ++ '"' :: r = t.flatMap escape ++ '"' :: r' := by
    simpa [quoteChars] using h
  obtain ⟨_, hs⟩ := textBody_quoted s r 0
  obtain ⟨_, ht⟩ := textBody_quoted t r' 0
  rw [hbody, ht] at hs
  simp only [Except.ok.injEq, Prod.mk.injEq, Json.Cursor.before, Json.Cursor.mk.injEq] at hs
  obtain ⟨htext, hrest, -⟩ := hs
  have hst : t = s := by simpa using congrArg String.toList htext
  exact ⟨hst.symm, (List.map_injective_iff.2 Glyph.char_injective hrest).symm⟩

end AppExport.Text
