/-
The tokens that are passed over: what they take of a text is what the grammar calls a text within
quotes or a number, and every such text is taken.
-/
import AppExport.Proofs.Json.Exact.Number
import AppExport.Proofs.Json.Exact.Text

namespace AppExport.Json

open Text (Glyph)

/-! ## Texts within quotes -/

variable {rest : List Glyph}

/-- Whether passing over something ends before `rest`. -/
def Reaches (result : Except Fault Cursor) (rest : List Glyph) : Prop :=
  ∃ offset, result = .ok ⟨rest, offset⟩

/-- Behind a backslash, an escape is passed over and then what follows it. -/
theorem exists_escape_of_skipText {rounds offset : Nat} {gs : List Glyph} {behind : Cursor}
    (h : skipText (rounds + 1) ⟨.char '\\' :: gs, offset⟩ = .ok behind) :
    ∃ escape c, gs = escape ++ c.rest ∧ IsEscape escape ∧ skipText rounds c = .ok behind := by
  cases gs with
  | nil => cases h
  | cons e es =>
    simp only [skipText, Glyph.char.injEq, Char.reduceEq, if_false, if_true, Cursor.next_cons] at h
    by_cases hcode : e = .char 'u'
    · subst hcode
      rw [if_pos rfl] at h
      cases hdigits : fourDigits ⟨es, offset + (Glyph.char '\\').size + (Glyph.char 'u').size⟩ with
      | error fault => simp [hdigits] at h
      | ok read =>
        obtain ⟨n, c⟩ := read
        simp only [hdigits] at h
        obtain ⟨w, x, y, z, hes, hhex, -⟩ := exists_fourDigits hdigits
        exact ⟨[.char 'u', w, x, y, z], c, congrArg _ hes, fun _ hrest => .code hhex hrest, h⟩
    rw [if_neg hcode] at h
    by_cases hletter : (letterEscape? e).isSome = true
    · rw [if_pos hletter] at h
      exact ⟨[e], _, rfl, fun _ hrest => .letter hletter hrest, h⟩
    · rw [if_neg hletter] at h
      cases h

theorem skipText_sound {rounds : Nat} {c behind : Cursor} (h : skipText rounds c = .ok behind) :
    ∃ taken, c.rest = taken ++ behind.rest ∧ IsQuoted taken := by
  induction rounds generalizing c with
  | zero => cases h
  | succ rounds ih =>
    obtain ⟨text, offset⟩ := c
    cases text with
    | nil => cases h
    | cons g gs =>
      by_cases hslash : g = .char '\\'
      · subst hslash
        obtain ⟨escape, c', hgs, hescape, hrest⟩ := exists_escape_of_skipText h
        obtain ⟨taken, hc', hquoted⟩ := ih hrest
        refine ⟨.char '\\' :: (escape ++ taken), ?_, hescape taken hquoted⟩
        rw [List.cons_append, List.append_assoc, ← hc', ← hgs]
      simp only [skipText] at h
      by_cases hquote : g = .char '"'
      · subst hquote
        rw [if_pos rfl] at h
        cases h
        exact ⟨[.char '"'], rfl, .closing⟩
      rw [if_neg hquote, if_neg hslash] at h
      by_cases hcontrol : isControl g = true
      · rw [if_pos hcontrol] at h
        cases h
      · rw [if_neg hcontrol] at h
        obtain ⟨taken, hgs, hquoted⟩ := ih h
        exact ⟨g :: taken, congrArg _ hgs, .plain hquote hslash (Bool.eq_false_iff.2 hcontrol) hquoted⟩

theorem fourDigits_of_hexDigits {a b d e : Glyph}
    (h : ∀ g ∈ [a, b, d, e], g.hexDigit?.isSome = true) (rest : List Glyph) (offset : Nat) :
    ∃ n, fourDigits ⟨a :: b :: d :: e :: rest, offset⟩ = .ok (n, ⟨rest, offset + 4⟩) := by
  simp only [List.forall_mem_cons, Option.isSome_iff_exists] at h
  obtain ⟨⟨w, ha⟩, ⟨x, hb⟩, ⟨y, hd⟩, ⟨z, he⟩, -⟩ := h
  exact ⟨((w * 16 + x) * 16 + y) * 16 + z, by simp only [fourDigits, ha, hb, hd, he]⟩

/-- A backslash is no quote. -/
theorem backslash_ne_quote : Glyph.char '\\' ≠ .char '"' := by decide

theorem skipText_complete {taken : List Glyph} (h : IsQuoted taken) (rest : List Glyph)
    {rounds : Nat} (hrounds : taken.length ≤ rounds) (offset : Nat) :
    Reaches (skipText rounds ⟨taken ++ rest, offset⟩) rest := by
  induction h generalizing rounds offset with
  | closing =>
    obtain ⟨rounds, rfl⟩ := Nat.exists_eq_succ_of_ne_zero (Nat.ne_of_gt hrounds)
    exact ⟨_, rfl⟩
  | plain hquote hslash hcontrol _ ih =>
    rw [List.length_cons] at hrounds
    obtain ⟨rounds, rfl⟩ := Nat.exists_eq_succ_of_ne_zero (n := rounds) (by omega)
    rw [List.cons_append, skipText]
    simp only [if_neg hquote, if_neg hslash, hcontrol, Bool.false_eq_true, if_false]
    exact ih (by omega) _
  | @letter g gs hletter _ ih =>
    have hcode : g ≠ .char 'u' := by
      rintro rfl
      cases hletter
    simp only [List.length_cons] at hrounds
    obtain ⟨rounds, rfl⟩ := Nat.exists_eq_succ_of_ne_zero (n := rounds) (by omega)
    simp only [List.cons_append, skipText, backslash_ne_quote, if_false, if_true, Cursor.next_cons,
      if_neg hcode, if_pos hletter]
    exact ih (by omega) _
  | @code a b d e gs hdigits _ ih =>
    simp only [List.length_cons] at hrounds
    obtain ⟨rounds, rfl⟩ := Nat.exists_eq_succ_of_ne_zero (n := rounds) (by omega)
    obtain ⟨n, hfour⟩ := fourDigits_of_hexDigits hdigits (gs ++ rest)
      (offset + (Glyph.char '\\').size + (Glyph.char 'u').size)
    simp only [List.cons_append, skipText, backslash_ne_quote, if_false, if_true, Cursor.next_cons, hfour]
    exact ih (by omega) _

/-! ## Numbers -/

theorem skipDigits_sound {c behind : Cursor} (h : skipDigits c = .ok behind) :
    ∃ taken, c.rest = taken ++ behind.rest ∧ IsDigits taken := by
  obtain ⟨text, offset⟩ := c
  cases text with
  | nil => cases h
  | cons g gs =>
    cases hdigit : g.digit? with
    | none =>
      simp only [skipDigits, List.head?_cons, Option.bind_some, hdigit] at h
      cases h
    | some d =>
      simp only [skipDigits, List.head?_cons, Option.bind_some, hdigit] at h
      obtain ⟨ds, rest, hsplit, hds, hrest⟩ := exists_digits (by rw [hdigit]; rfl) gs
      rw [hsplit, digitRun_append hds.digits hrest] at h
      cases h
      exact ⟨ds, hsplit, hds⟩

theorem skipDigits_complete {taken rest : List Glyph} (h : IsDigits taken)
    (hrest : ∀ g ∈ rest.head?, g.digit?.isSome = false) (offset : Nat) :
    skipDigits ⟨taken ++ rest, offset⟩ = .ok ⟨rest, offset + taken.length⟩ := by
  rw [skipDigits, digitRun_append h.digits hrest]
  obtain ⟨g, gs, rfl, hg⟩ := h.exists_cons
  obtain ⟨d, hd⟩ := Option.isSome_iff_exists.1 hg
  simp only [List.cons_append, List.head?_cons, Option.bind_some, hd]

theorem skipExponent_sound {c behind : Cursor} (h : skipExponent c = .ok behind) :
    ∃ taken, c.rest = taken ++ behind.rest ∧ IsSigned taken := by
  obtain ⟨sign, hsign, hc⟩ := exists_sign c
  obtain ⟨ds, hds, hdigits⟩ := skipDigits_sound (c := pastSign c) h
  exact ⟨sign ++ ds, by rw [hc, hds, List.append_assoc], .mk hsign hdigits⟩

theorem skipExponent_complete {taken rest : List Glyph} (h : IsSigned taken)
    (hrest : ∀ g ∈ rest.head?, g.digit?.isSome = false) (offset : Nat) :
    Reaches (skipExponent ⟨taken ++ rest, offset⟩) rest := by
  obtain ⟨hsign, hds⟩ := h
  obtain ⟨offset', hpast⟩ := pastSign_append hsign hds rest offset
  exact ⟨_, (congrArg skipDigits hpast).trans (skipDigits_complete hds hrest offset')⟩

/-- What may follow digits behind the point. -/
def skipScale (c : Cursor) : Except Fault Cursor :=
  if isExponentLetter c.rest.head? then skipExponent c.next else .ok c

theorem skipScale_sound {c behind : Cursor} (h : skipScale c = .ok behind) :
    ∃ taken, c.rest = taken ++ behind.rest ∧ IsExponent taken := by
  obtain ⟨text, offset⟩ := c
  rw [skipScale] at h
  split at h
  next hletter =>
    cases text with
    | nil => cases hletter
    | cons g gs =>
      obtain ⟨signed, hgs, hsigned⟩ := skipExponent_sound h
      exact ⟨g :: signed, congrArg _ hgs, hsigned.exponent (isExponentLetter_cons hletter)⟩
  next =>
    cases h
    exact ⟨[], rfl, .absent⟩

theorem skipScale_complete {taken rest : List Glyph} (h : IsExponent taken) (hrest : Ends rest)
    (offset : Nat) : Reaches (skipScale ⟨taken ++ rest, offset⟩) rest := by
  cases h with
  | absent =>
    rw [List.nil_append, skipScale, hrest.not_exponent, if_neg Bool.false_ne_true]
    exact ⟨offset, rfl⟩
  | present hletter hsign hds =>
    rw [skipScale, if_pos (by rcases hletter with rfl | rfl <;> rfl)]
    exact skipExponent_complete (.mk hsign hds) hrest.not_digit _

theorem skipFraction_sound {c behind : Cursor} (h : skipFraction c = .ok behind) :
    ∃ taken, c.rest = taken ++ behind.rest ∧ IsScale taken := by
  obtain ⟨text, offset⟩ := c
  rw [skipFraction] at h
  split at h
  next hpoint =>
    obtain ⟨gs, rfl⟩ := List.head?_eq_some_iff.1 hpoint
    obtain ⟨c', hdigits, hexponent⟩ := bind_eq_ok_iff.1 h
    obtain ⟨ds, hgs, hds⟩ := skipDigits_sound hdigits
    obtain ⟨exponent, hc', hisExponent⟩ := skipScale_sound hexponent
    refine ⟨.char '.' :: ds ++ exponent, ?_, .mk (.present hds) hisExponent⟩
    rw [List.append_assoc, ← hc', List.cons_append, ← hgs]
    rfl
  next =>
    obtain ⟨exponent, hc, hexponent⟩ := skipScale_sound h
    exact ⟨exponent, hc, hexponent.scale⟩

theorem IsExponent.head_ne_point {exponent : List Glyph} (h : IsExponent exponent)
    (hrest : Ends rest) : (exponent ++ rest).head? ≠ some (.char '.') := by
  cases h with
  | absent => exact hrest.head_ne (by decide)
  | present hletter => rcases hletter with rfl | rfl <;> simp

theorem skipFraction_complete {taken rest : List Glyph} (h : IsScale taken) (hrest : Ends rest)
    (offset : Nat) : Reaches (skipFraction ⟨taken ++ rest, offset⟩) rest := by
  obtain ⟨hfraction, hexponent⟩ := h
  cases hfraction with
  | @present ds hds =>
    have hdigits := skipDigits_complete hds (hexponent.scale.not_digit hrest)
      (offset + (Glyph.char '.').size)
    rw [skipFraction, if_pos (by rfl), List.append_assoc, List.cons_append, Cursor.next_cons,
      hdigits]
    exact skipScale_complete hexponent hrest _
  | absent =>
    rw [List.nil_append, skipFraction, if_neg (hexponent.head_ne_point hrest)]
    exact skipScale_complete hexponent hrest offset

theorem skipNumber_sound {c behind : Cursor} (h : skipNumber c = .ok behind) :
    ∃ taken, c.rest = taken ++ behind.rest ∧ IsNatural taken := by
  obtain ⟨text, offset⟩ := c
  rw [skipNumber] at h
  by_cases hzero : text.head? = some (.char '0')
  · rw [if_pos hzero] at h
    obtain ⟨gs, rfl⟩ := List.head?_eq_some_iff.1 hzero
    split at h
    next => cases h
    next =>
      obtain ⟨scale, hgs, hscale⟩ := skipFraction_sound h
      exact ⟨.char '0' :: scale, congrArg _ hgs, .mk .zero hscale⟩
  · rw [if_neg hzero] at h
    obtain ⟨c', hdigits, hscale⟩ := bind_eq_ok_iff.1 h
    obtain ⟨ds, hc, hds⟩ := skipDigits_sound hdigits
    obtain ⟨scale, hc', hscale⟩ := skipFraction_sound hscale
    obtain rfl : text = ds ++ (scale ++ behind.rest) := by rw [← hc', ← hc]
    rw [List.head?_append_of_ne_nil _ hds.ne_nil] at hzero
    exact ⟨ds ++ scale, (List.append_assoc ..).symm, .mk (.digits hds hzero) hscale⟩

theorem skipNumber_complete {taken rest : List Glyph} (h : IsNatural taken) (hrest : Ends rest)
    (offset : Nat) : Reaches (skipNumber ⟨taken ++ rest, offset⟩) rest := by
  obtain @⟨whole, scale, hwhole, hscale⟩ := h
  have hstop := hscale.not_digit hrest
  rw [List.append_assoc, skipNumber]
  cases hwhole with
  | zero =>
    have hnext : ((scale ++ rest).head?.bind Glyph.digit?).isSome = false := by
      cases hhead : (scale ++ rest).head? with
      | none => rfl
      | some g => exact hstop g hhead
    rw [if_pos (by rfl), if_neg]
    · exact skipFraction_complete hscale hrest _
    · rw [List.cons_append, Cursor.next_cons, List.nil_append, hnext]
      exact Bool.false_ne_true
  | digits hds hzero =>
    have hhead : (whole ++ (scale ++ rest)).head? ≠ some (.char '0') := by
      rwa [List.head?_append_of_ne_nil _ hds.ne_nil]
    rw [if_neg hhead, skipDigits_complete hds hstop]
    exact skipFraction_complete hscale hrest _

end AppExport.Json
