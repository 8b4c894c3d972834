/-
Texts and words are read exactly. A text ends at its closing quote, which no escape hides.
-/
import AppExport.Proofs.Json.Exact.Basic

namespace AppExport.Json

open Text (Glyph)

/-! ## Texts -/

theorem exists_fourDigits {c behind : Cursor} {n : Nat} (h : fourDigits c = .ok (n, behind)) :
    ∃ a b d e, c.rest = a :: b :: d :: e :: behind.rest ∧
      (∀ g ∈ [a, b, d, e], g.hexDigit?.isSome = true) ∧
      ∀ rest, Yields fourDigits (a :: b :: d :: e :: rest) n rest := by
  obtain ⟨text, offset⟩ := c
  rw [fourDigits] at h
  split at h
  next a b d e rest htext =>
    split at h
    next w x y z ha hb hd he =>
      cases h
      refine ⟨a, b, d, e, htext, by simp [ha, hb, hd, he], fun rest offset => ⟨offset + 4, ?_⟩⟩
      simp [fourDigits, ha, hb, hd, he]
    next => cases h
  next =>
    split at h <;> cases h

theorem rest_of_pairSign {c behind : Cursor} {sign : Char}
    (h : pairSign sign c = .ok ((), behind)) : c.rest = .char sign :: behind.rest := by
  obtain ⟨text, offset⟩ := c
  cases text with
  | nil => cases h
  | cons g gs =>
    simp only [pairSign] at h
    split at h
    next hg =>
      cases h
      rw [hg, Cursor.next_cons]
    next => cases h

theorem pairSign_cons (sign : Char) (rest : List Glyph) (offset : Nat) :
    pairSign sign ⟨.char sign :: rest, offset⟩ = .ok ((), ⟨rest, offset + sign.utf8Size⟩) := by
  simp only [pairSign, if_true]
  rfl

/-- What follows a backslash. -/
def IsEscape (gs : List Glyph) : Prop := ∀ rest, IsQuoted rest → IsQuoted (.char '\\' :: (gs ++ rest))

theorem exists_codePoint {c behind : Cursor} {ch : Char} (h : codePoint c = .ok (ch, behind)) :
    ∃ taken, c.rest = taken ++ behind.rest ∧ IsEscape (.char 'u' :: taken) ∧
      ∀ rest, Yields codePoint (taken ++ rest) ch rest := by
  obtain ⟨⟨first, c₁⟩, hfirst, h⟩ := bind_eq_ok_iff.1 h
  obtain ⟨w, x, y, z, hc, hhex, hagain⟩ := exists_fourDigits hfirst
  by_cases hlow : 0xDC00 ≤ first ∧ first ≤ 0xDFFF
  · simp only [if_pos hlow] at h
    cases h
  by_cases hhigh : 0xD800 ≤ first ∧ first ≤ 0xDBFF
  · simp only [if_neg hlow, if_pos hhigh] at h
    obtain ⟨⟨_, c₂⟩, hslash, h⟩ := bind_eq_ok_iff.1 h
    obtain ⟨⟨_, c₃⟩, hletter, h⟩ := bind_eq_ok_iff.1 h
    obtain ⟨⟨second, c₄⟩, hsecond, h⟩ := bind_eq_ok_iff.1 h
    obtain ⟨w', x', y', z', hc', hhex', hagain'⟩ := exists_fourDigits hsecond
    by_cases hpair : 0xDC00 ≤ second ∧ second ≤ 0xDFFF
    · simp only [if_pos hpair, Except.ok.injEq, Prod.mk.injEq] at h
      obtain ⟨rfl, rfl⟩ := h
      refine ⟨w :: x :: y :: z :: .char '\\' :: .char 'u' :: [w', x', y', z'], ?_, ?_, ?_⟩
      · rw [hc, rest_of_pairSign hslash, rest_of_pairSign hletter, hc']
        rfl
      · exact fun rest hrest => .code hhex (.code hhex' hrest)
      · intro rest offset
        obtain ⟨offset₁, hfour⟩ := hagain (.char '\\' :: .char 'u' :: w' :: x' :: y' :: z' :: rest)
          offset
        obtain ⟨offset₂, hfour'⟩ := hagain' rest
          (offset₁ + '\\'.utf8Size + 'u'.utf8Size)
        refine ⟨offset₂, ?_⟩
        simp only [List.cons_append, List.nil_append, codePoint, hfour, bind, Except.bind,
          if_neg hlow, if_pos hhigh, pairSign_cons, hfour', if_pos hpair]
    · simp only [if_neg hpair] at h
      cases h
  · simp only [if_neg hlow, if_neg hhigh] at h
    cases h
    refine ⟨[w, x, y, z], hc, fun rest hrest => .code hhex hrest, fun rest offset => ?_⟩
    obtain ⟨offset', hfour⟩ := hagain rest offset
    refine ⟨offset', ?_⟩
    simp only [List.cons_append, List.nil_append, codePoint, hfour, bind, Except.bind,
      if_neg hlow, if_neg hhigh]

theorem exists_escapeSequence {c behind : Cursor} {ch : Char}
    (h : escapeSequence c = .ok (ch, behind)) :
    ∃ taken, c.rest = taken ++ behind.rest ∧ taken ≠ [] ∧ IsEscape taken ∧
      ∀ rest, Yields escapeSequence (taken ++ rest) ch rest := by
  obtain ⟨text, offset⟩ := c
  cases text with
  | nil => cases h
  | cons g gs =>
    simp only [escapeSequence] at h
    by_cases hcode : g = .char 'u'
    · subst hcode
      rw [if_pos rfl] at h
      obtain ⟨taken, hgs, hescape, hagain⟩ := exists_codePoint h
      refine ⟨.char 'u' :: taken, congrArg _ hgs, by simp, hescape, fun rest offset' => ?_⟩
      exact hagain rest _
    · rw [if_neg hcode] at h
      cases hletter : letterEscape? g with
      | none =>
        rw [hletter] at h
        cases h
      | some letter =>
        rw [hletter] at h
        cases h
        refine ⟨[g], rfl, by simp, fun rest hrest => .letter (by rw [hletter]; rfl) hrest,
          fun rest offset' => ⟨offset' + g.size, ?_⟩⟩
        simp only [escapeSequence, List.cons_append, List.nil_append, if_neg hcode, hletter,
          Cursor.next_cons]

/-- Whether the rest of a text is read to `s` in as many rounds as it has glyphs, `done` and what
strayed being known. -/
def Completes (done : List Char) (strayed : Nat) (s : String) (taken : List Glyph) : Prop :=
  ∀ rounds, taken.length ≤ rounds → ∀ rest,
    Yields (textFrom rounds done strayed) (taken ++ rest) s rest

namespace Completes

variable {done : List Char} {strayed : Nat} {s : String} {taken : List Glyph}

theorem closing : Completes done 0 (String.ofList done.reverse) [.char '"'] := by
  intro rounds hrounds rest offset
  obtain ⟨rounds, rfl⟩ := Nat.exists_eq_succ_of_ne_zero (Nat.ne_of_gt hrounds)
  simp only [List.cons_append, textFrom, if_true, Cursor.next_cons]
  exact ⟨_, rfl⟩

theorem escape {escape : List Glyph} {ch : Char} (hne : escape ≠ [])
    (hescape : ∀ rest, Yields escapeSequence (escape ++ rest) ch rest)
    (h : Completes (ch :: done) (if strayed = 0 then 0 else strayed + ch.utf8Size) s taken) :
    Completes done strayed s (.char '\\' :: (escape ++ taken)) := by
  intro rounds hrounds rest offset
  have hpos := List.length_pos_iff.2 hne
  have hquote : Glyph.char '\\' ≠ .char '"' := by decide
  simp only [List.length_cons, List.length_append] at hrounds
  obtain ⟨rounds, rfl⟩ := Nat.exists_eq_succ_of_ne_zero (n := rounds) (by omega)
  obtain ⟨offset₁, hfirst⟩ := hescape (taken ++ rest) (offset + (Glyph.char '\\').size)
  obtain ⟨offset₂, hlast⟩ := h rounds (by omega) rest offset₁
  refine ⟨offset₂, ?_⟩
  simp only [List.cons_append, List.append_assoc, textFrom, if_neg hquote, if_true,
    Cursor.next_cons, hfirst]
  exact hlast

end Completes

/-- A plain glyph adds to the text or to what has strayed, and the rest is read alike. -/
theorem exists_textFrom_plain (done : List Char) (strayed : Nat) {g : Glyph}
    (hquote : g ≠ .char '"') (hslash : g ≠ .char '\\') (hcontrol : isControl g = false) :
    ∃ done' strayed', ∀ rounds gs offset,
      textFrom (rounds + 1) done strayed ⟨g :: gs, offset⟩ =
        textFrom rounds done' strayed' ⟨gs, offset + g.size⟩ := by
  cases g with
  | char ch =>
    refine ⟨ch :: done, if strayed = 0 then 0 else strayed + (Glyph.char ch).size,
      fun rounds gs offset => ?_⟩
    rw [textFrom]
    simp only [if_neg hquote, if_neg hslash, hcontrol, Bool.false_eq_true, if_false]
    rfl
  | stray byte =>
    refine ⟨done, strayed + 1, fun rounds gs offset => ?_⟩
    rw [textFrom]
    simp only [if_neg hquote, if_neg hslash, hcontrol, Bool.false_eq_true, if_false]
    rfl

theorem Completes.plain {done done' : List Char} {strayed strayed' : Nat} {g : Glyph} {s : String}
    {taken : List Glyph} (hplain : ∀ rounds gs offset,
      textFrom (rounds + 1) done strayed ⟨g :: gs, offset⟩ =
        textFrom rounds done' strayed' ⟨gs, offset + g.size⟩)
    (h : Completes done' strayed' s taken) : Completes done strayed s (g :: taken) := by
  intro rounds hrounds rest offset
  rw [List.length_cons] at hrounds
  obtain ⟨rounds, rfl⟩ := Nat.exists_eq_succ_of_ne_zero (n := rounds) (by omega)
  rw [List.cons_append, hplain]
  exact h rounds (by omega) rest _

theorem exists_textFrom {rounds : Nat} {done : List Char} {strayed : Nat} {c behind : Cursor}
    {s : String} (h : textFrom rounds done strayed c = .ok (s, behind)) :
    ∃ taken, c.rest = taken ++ behind.rest ∧ IsQuoted taken ∧ Completes done strayed s taken := by
  induction rounds generalizing done strayed c with
  | zero => cases h
  | succ rounds ih =>
    obtain ⟨text, offset⟩ := c
    cases text with
    | nil => cases h
    | cons g gs =>
      have hread := h
      simp only [textFrom] at h
      by_cases hquote : g = .char '"'
      · subst hquote
        rw [if_pos rfl] at h
        by_cases hstrayed : strayed = 0
        · subst hstrayed
          cases h
          exact ⟨[.char '"'], rfl, .closing, .closing⟩
        · rw [if_neg hstrayed] at h
          cases h
      by_cases hslash : g = .char '\\'
      · subst hslash
        rw [if_neg hquote, if_pos rfl] at h
        cases hescape : escapeSequence (Cursor.next ⟨.char '\\' :: gs, offset⟩) with
        | error fault => simp [hescape] at h
        | ok read =>
          obtain ⟨ch, c'⟩ := read
          simp only [hescape] at h
          obtain ⟨escape, hgs, hne, hisEscape, hagain⟩ := exists_escapeSequence hescape
          obtain ⟨taken, hc', hquoted, hothers⟩ := ih h
          refine ⟨.char '\\' :: (escape ++ taken), ?_, hisEscape taken hquoted,
            .escape hne hagain hothers⟩
          rw [List.cons_append, List.append_assoc, ← hc', ← hgs]
          rfl
      rw [if_neg hquote, if_neg hslash] at h
      by_cases hcontrol : isControl g = true
      · rw [if_pos hcontrol] at h
        cases h
      · have hcontrol := Bool.eq_false_iff.2 hcontrol
        obtain ⟨done', strayed', hplain⟩ :=
          exists_textFrom_plain done strayed hquote hslash hcontrol
        rw [hplain] at hread
        obtain ⟨taken, hgs, hquoted, hothers⟩ := ih hread
        exact ⟨g :: taken, congrArg _ hgs, .plain hquote hslash hcontrol hquoted,
          .plain hplain hothers⟩

theorem exact_textBody : Exact textBody IsQuoted := by
  intro c s behind h _
  obtain ⟨taken, hc, hquoted, hagain⟩ := exists_textFrom h
  refine ⟨taken, hc, hquoted, fun rest _ offset => ?_⟩
  exact hagain (taken ++ rest).length (by simp) rest offset

/-! ## Words -/

theorem rest_of_word {letters : List Char} {c behind : Cursor}
    (h : word letters c = .ok ((), behind)) : c.rest = letters.map .char ++ behind.rest := by
  induction letters generalizing c with
  | nil =>
    cases h
    rfl
  | cons letter letters ih =>
    obtain ⟨text, offset⟩ := c
    cases text with
    | nil => cases h
    | cons g gs =>
      simp only [word] at h
      split at h
      next hg =>
        rw [hg, List.map_cons, List.cons_append, ← ih h]
        rfl
      next => cases h

theorem word_append (letters : List Char) (rest : List Glyph) :
    Yields (word letters) (letters.map .char ++ rest) () rest := by
  induction letters with
  | nil => exact fun offset => ⟨offset, rfl⟩
  | cons letter letters ih =>
    intro offset
    simp only [List.map_cons, List.cons_append, word, if_true]
    exact ih _

end AppExport.Json
