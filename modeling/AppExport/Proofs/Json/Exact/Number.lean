/-
Numbers are read exactly. Their digits are taken as a whole run, so that nothing but the glyph behind
a number decides where it ends. So a binary64 number that reads back from its own text does so within
every other text.
-/
import AppExport.Proofs.Json.Exact.Basic

namespace AppExport.Json

open Decimal (Binary64 isNumeral)
open Text (Glyph)

theorem exact_floatNumber (negative : Bool) (digits : Nat) (exponent : Int) :
    Exact (floatNumber negative digits exponent) (· = []) := by
  intro c a behind h _
  obtain ⟨n, hown⟩ | hfault := floatNumber_cases negative digits exponent
  · rw [hown] at h
    cases h
    exact ⟨[], rfl, rfl, fun rest _ offset => ⟨offset, hown _⟩⟩
  · rw [hfault] at h
    cases h

theorem exact_integerNumber (negative : Bool) (digits : Nat) :
    Exact (integerNumber negative digits) (· = []) := by
  intro c a behind h hbehind
  obtain ⟨n, hown⟩ | hfloat := integerNumber_cases negative digits
  · rw [hown] at h
    cases h
    exact ⟨[], rfl, rfl, fun rest _ offset => ⟨offset, hown _⟩⟩
  · rw [hfloat] at h
    obtain ⟨taken, hc, htaken, htakes⟩ := exact_floatNumber negative digits 0 h hbehind
    exact ⟨taken, hc, htaken, fun rest hrest offset => by simpa only [hfloat] using htakes rest hrest offset⟩

theorem exact_exponentDigits (negative : Bool) (digits : Nat) (scale : Int) (lowering : Prop)
    [Decidable lowering] : Exact (exponentDigits negative digits scale lowering) IsDigits := by
  rintro ⟨text, offset⟩ a behind h hbehind
  cases text with
  | nil => cases h
  | cons g gs =>
    by_cases hg : g.digit?.isSome = true
    · obtain ⟨ds, rest, hsplit, hds, hrest⟩ := exists_digits hg _
      rw [hsplit, exponentDigits_append _ _ _ _ hds hrest] at h
      cases hover : overlong? 0 0 (ds.filterMap Glyph.digit?) with
      | some count =>
        simp only [hover] at h
        by_cases hlarge : digits ≠ 0 ∧ ¬lowering
        · rw [if_pos hlarge] at h
          cases h
        · rw [if_neg hlarge] at h
          cases h
          refine ⟨ds, hsplit, hds, fun rest' hrest' offset' => ⟨offset' + ds.length, ?_⟩⟩
          simp only [exponentDigits_append _ _ _ _ hds hrest'.not_digit, hover, if_neg hlarge]
      | none =>
        simp only [hover] at h
        obtain ⟨taken, hc, rfl, htakes⟩ := exact_floatNumber _ _ _ h hbehind
        refine ⟨ds, hsplit.trans (congrArg _ hc), hds, fun rest' hrest' offset' => ?_⟩
        simp only [exponentDigits_append _ _ _ _ hds hrest'.not_digit, hover]
        exact htakes rest' hrest' _
    · rw [exponentDigits] at h
      simp only [Option.not_isSome_iff_eq_none.1 hg, Option.isNone_none, if_true] at h
      cases h

/-- What follows the letter of an exponent. -/
inductive IsSigned : List Glyph → Prop
  | mk {sign ds : List Glyph} (hsign : sign = [] ∨ sign = [.char '-'] ∨ sign = [.char '+'])
    (hds : IsDigits ds) : IsSigned (sign ++ ds)

theorem pastSign_cons_of_digit {g : Glyph} (hg : g.digit?.isSome = true) (gs : List Glyph)
    (offset : Nat) : pastSign ⟨g :: gs, offset⟩ = ⟨g :: gs, offset⟩ := by
  have hminus : g ≠ .char '-' := ne_of_digit hg (by decide)
  have hplus : g ≠ .char '+' := ne_of_digit hg (by decide)
  simp [pastSign, hminus, hplus]

theorem exists_sign (c : Cursor) :
    ∃ sign, (sign = [] ∨ sign = [.char '-'] ∨ sign = [.char '+']) ∧
      c.rest = sign ++ (pastSign c).rest := by
  obtain ⟨text, offset⟩ := c
  rw [pastSign]
  split
  next hsigned =>
    rcases hsigned with hhead | hhead
    · obtain ⟨gs, rfl⟩ := List.head?_eq_some_iff.1 hhead
      exact ⟨_, .inr (.inl rfl), rfl⟩
    · obtain ⟨gs, rfl⟩ := List.head?_eq_some_iff.1 hhead
      exact ⟨_, .inr (.inr rfl), rfl⟩
  next => exact ⟨[], .inl rfl, rfl⟩

theorem pastSign_append {sign ds : List Glyph}
    (hsign : sign = [] ∨ sign = [.char '-'] ∨ sign = [.char '+']) (hds : IsDigits ds)
    (rest : List Glyph) (offset : Nat) :
    ∃ offset', pastSign ⟨sign ++ ds ++ rest, offset⟩ = ⟨ds ++ rest, offset'⟩ := by
  rcases hsign with rfl | rfl | rfl
  · obtain ⟨g, gs, rfl, hg⟩ := hds.exists_cons
    exact ⟨offset, pastSign_cons_of_digit hg _ _⟩
  · exact ⟨_, rfl⟩
  · exact ⟨_, rfl⟩

theorem exact_exponentPart (negative : Bool) (digits : Nat) (scale : Int) :
    Exact (exponentPart negative digits scale) IsSigned := by
  intro c a behind h hbehind
  rw [exponentPart_eq] at h
  obtain ⟨ds, hpast, hds, htakes⟩ := exact_exponentDigits _ _ _ _ h hbehind
  obtain ⟨sign, hsign, hc⟩ := exists_sign c
  rw [hpast, ← List.append_assoc] at hc
  refine ⟨sign ++ ds, hc, .mk hsign hds, fun rest hrest offset => ?_⟩
  have hne : sign ++ ds ≠ [] := List.append_ne_nil_of_right_ne_nil _ hds.ne_nil
  have hhead : (sign ++ ds ++ rest).head? = c.rest.head? := by
    rw [hc, List.head?_append_of_ne_nil _ hne, List.head?_append_of_ne_nil _ hne]
  obtain ⟨offset', hagain⟩ := pastSign_append hsign hds rest offset
  rw [exponentPart_eq, hagain]
  simp only [hhead]
  exact htakes rest hrest offset'

/-- What follows the point. -/
inductive IsPointed : List Glyph → Prop
  | mk {ds exponent : List Glyph} (hds : IsDigits ds) (hexponent : IsExponent exponent) :
    IsPointed (ds ++ exponent)

theorem isExponentLetter_cons {g : Glyph} (h : isExponentLetter (some g) = true) :
    g = .char 'e' ∨ g = .char 'E' := by
  simpa [isExponentLetter] using h

theorem IsSigned.exponent {g : Glyph} (hg : g = .char 'e' ∨ g = .char 'E') {gs : List Glyph}
    (h : IsSigned gs) : IsExponent (g :: gs) := by
  obtain ⟨hsign, hds⟩ := h
  rcases hg with rfl | rfl
  · exact .present (.inl rfl) hsign hds
  · exact .present (.inr rfl) hsign hds

theorem not_digit_of_letter {g : Glyph} (hg : g = .char 'e' ∨ g = .char 'E') :
    g.digit?.isSome = false := by
  rcases hg with rfl | rfl <;> decide

theorem exact_fractionPart (negative : Bool) (digits : Nat) (scale : Int) :
    Exact (fractionPart negative digits scale) IsPointed := by
  rintro ⟨text, offset⟩ a behind h hbehind
  obtain ⟨ds, rest, rfl, hds, hrest⟩ := exists_run (·.digit?.isSome) text
  simp only [fractionPart, digitRun_append hds hrest] at h
  by_cases hempty : (ds.filterMap Glyph.digit?).isEmpty = true
  · rw [if_pos hempty] at h
    cases h
  have hdigits : IsDigits ds := ⟨by rintro rfl; exact hempty rfl, hds⟩
  rw [if_neg hempty] at h
  by_cases hletter : isExponentLetter rest.head? = true
  · rw [if_pos hletter] at h
    cases rest with
    | nil => cases hletter
    | cons g gs =>
      rw [List.head?_cons] at hletter
      have hg := isExponentLetter_cons hletter
      obtain ⟨signed, hgs, hsigned, htakes⟩ := exact_exponentPart _ _ _ h hbehind
      refine ⟨ds ++ g :: signed, ?_, .mk hdigits (hsigned.exponent hg), fun rest' hrest' offset' => ?_⟩
      · rw [List.append_assoc, List.cons_append]
        exact congrArg (ds ++ g :: ·) hgs
      · have hstop : ∀ x ∈ (g :: (signed ++ rest')).head?, x.digit?.isSome = false := by
          rintro x ⟨⟩
          exact not_digit_of_letter hg
        rw [List.append_assoc, List.cons_append]
        simp only [fractionPart, digitRun_append hds hstop, if_neg hempty, List.head?_cons]
        rw [if_pos hletter]
        exact htakes rest' hrest' _
  · rw [if_neg hletter] at h
    obtain ⟨taken, hc, rfl, htakes⟩ := exact_floatNumber _ _ _ h hbehind
    refine ⟨ds, congrArg _ hc, ?_, fun rest' hrest' offset' => ?_⟩
    · rw [← List.append_nil ds]
      exact .mk hdigits .absent
    · simp only [fractionPart, digitRun_append hds hrest'.not_digit, if_neg hempty,
        hrest'.not_exponent, Bool.false_eq_true, if_false]
      exact htakes rest' hrest' _

theorem IsPointed.scale {gs : List Glyph} (h : IsPointed gs) : IsScale (.char '.' :: gs) := by
  obtain ⟨hds, hexponent⟩ := h
  exact .mk (.present hds) hexponent

theorem IsExponent.scale {gs : List Glyph} (h : IsExponent gs) : IsScale gs :=
  .mk .absent h

theorem exact_numberBehind (negative : Bool) (digits left : Nat) :
    Exact (numberBehind negative digits left) IsScale := by
  rintro ⟨text, offset⟩ a behind h hbehind
  rw [numberBehind] at h
  by_cases hpoint : text.head? = some (.char '.')
  · obtain ⟨gs, rfl⟩ := List.head?_eq_some_iff.1 hpoint
    rw [if_pos hpoint] at h
    obtain ⟨pointed, hgs, hpointed, htakes⟩ := exact_fractionPart _ _ _ h hbehind
    refine ⟨.char '.' :: pointed, congrArg _ hgs, hpointed.scale, fun rest hrest offset' => ?_⟩
    rw [numberBehind, if_pos (by rfl)]
    exact htakes rest hrest _
  rw [if_neg hpoint] at h
  by_cases hletter : isExponentLetter text.head? = true
  · rw [if_pos hletter] at h
    cases text with
    | nil => cases hletter
    | cons g gs =>
      obtain ⟨signed, hgs, hsigned, htakes⟩ := exact_exponentPart _ _ _ h hbehind
      rw [List.head?_cons] at hpoint hletter
      have hg := isExponentLetter_cons hletter
      refine ⟨g :: signed, congrArg _ hgs, (hsigned.exponent hg).scale, fun rest hrest offset' => ?_⟩
      simp only [numberBehind, List.cons_append, List.head?_cons, if_neg hpoint, if_pos hletter]
      exact htakes rest hrest _
  · rw [if_neg hletter] at h
    by_cases hleft : left = 0
    · rw [if_pos hleft] at h
      obtain ⟨taken, hc, rfl, htakes⟩ := exact_integerNumber _ _ h hbehind
      refine ⟨[], hc, .mk .absent .absent, fun rest hrest offset' => ?_⟩
      rw [List.nil_append, numberBehind_of_ends _ _ _ hrest, if_pos hleft]
      exact htakes rest hrest offset'
    · rw [if_neg hleft] at h
      obtain ⟨taken, hc, rfl, htakes⟩ := exact_floatNumber _ _ _ h hbehind
      refine ⟨[], hc, .mk .absent .absent, fun rest hrest offset' => ?_⟩
      rw [List.nil_append, numberBehind_of_ends _ _ _ hrest, if_neg hleft]
      exact htakes rest hrest offset'

/-- A number's digits are not followed by another digit. -/
theorem IsScale.not_digit {scale rest : List Glyph} (h : IsScale scale) (hrest : Ends rest) :
    ∀ g ∈ (scale ++ rest).head?, g.digit?.isSome = false := by
  obtain ⟨hfraction, hexponent⟩ := h
  cases hfraction with
  | present => rintro g ⟨⟩; decide
  | absent =>
    cases hexponent with
    | absent => exact hrest.not_digit
    | present hletter =>
      rintro g ⟨⟩
      exact not_digit_of_letter (hletter.imp (congrArg _) (congrArg _))

theorem exact_numberBody (negative : Bool) : Exact (numberBody negative) IsNatural := by
  rintro ⟨text, offset⟩ a behind h hbehind
  cases text with
  | nil => cases h
  | cons g gs =>
    cases hdigit : g.digit? with
    | none => simp [numberBody, hdigit] at h
    | some d =>
      by_cases hzero : d = 0
      · subst hzero
        obtain rfl := digit?_eq_zero hdigit
        have hstop : ∀ g ∈ gs.head?, g.digit?.isSome = false := by
          intro x hx
          by_contra hnot
          have hnext : (gs.head?.bind Glyph.digit?).isSome = true := by
            rw [hx]
            exact Bool.not_eq_false _ ▸ hnot
          simp only [numberBody, hdigit] at h
          change (if (gs.head?.bind Glyph.digit?).isSome = true then _ else _) = _ at h
          rw [if_pos hnext] at h
          cases h
        rw [numberBody_zero negative hstop] at h
        obtain ⟨scale, hgs, hscale, htakes⟩ := exact_numberBehind _ _ _ h hbehind
        refine ⟨.char '0' :: scale, congrArg _ hgs, .mk .zero hscale, fun rest hrest offset' => ?_⟩
        rw [List.cons_append, numberBody_zero negative (hscale.not_digit hrest)]
        exact htakes rest hrest _
      · have hg : g.digit?.isSome = true := by rw [hdigit]; rfl
        obtain ⟨ds, rest, hsplit, hds, hrest⟩ := exists_digits hg gs
        have hhead : ds.head? ≠ some (.char '0') := by
          obtain ⟨x, xs, rfl, -⟩ := hds.exists_cons
          obtain ⟨rfl, -⟩ := List.cons.inj hsplit
          rintro ⟨⟩
          exact hzero (Option.some.inj hdigit).symm
        rw [hsplit, numberBody_digits negative hds hhead hrest] at h
        obtain ⟨scale, hgs, hscale, htakes⟩ := exact_numberBehind _ _ _ h hbehind
        refine ⟨ds ++ scale, ?_, .mk (.digits hds hhead) hscale, fun rest' hrest' offset' => ?_⟩
        · rw [List.append_assoc, ← hgs]
          exact hsplit
        · rw [List.append_assoc,
            numberBody_digits negative hds hhead (hscale.not_digit hrest')]
          exact htakes rest' hrest' _

/-! ## Numbers within other texts -/

/-- A text that an exact reader takes whole it takes so wherever it stands. -/
theorem Exact.reads {α : Type} {reader : Reader α} {P : List Glyph → Prop} (hexact : Exact reader P)
    {text : List Char} {a : α} {offset : Nat} {behind : Cursor}
    (h : reader (.before text offset) = .ok (a, behind)) (hbehind : behind.rest = []) :
    Reads reader text a := by
  obtain ⟨taken, htext, -, htakes⟩ := hexact h (hbehind ▸ ends_nil)
  rw [hbehind, List.append_nil, Cursor.rest_before] at htext
  subst htext
  intro rest offset hrest
  rw [Cursor.before_append]
  exact htakes _ hrest.ends offset

/-- Numerals hold no blanks, so none are left behind a number. -/
theorem Blanks.eq_nil_of_suffix {gs : List Glyph} (hblanks : Blanks gs) {text : List Char}
    (hnumerals : ∀ c ∈ text, isNumeral c = true) (hsuffix : gs <:+ text.map Glyph.char) :
    gs = [] := by
  refine List.eq_nil_iff_forall_not_mem.2 fun g hg => ?_
  obtain ⟨c, hc, rfl⟩ := List.mem_map.1 (hsuffix.subset hg)
  have hsolid := isSolid_of_isNumeral (hnumerals c hc)
  rw [isSolid, hblanks _ hg] at hsolid
  cases hsolid

/-- What the text of a number is decoded to it is read as wherever it stands. -/
theorem numberText_of_decode {x y : Binary64}
    (h : decode value (String.ofList x.chars) = .ok (.number (.float y))) :
    NumberText x.chars (.float y) := by
  have hnumerals : ∀ c ∈ x.chars, isNumeral c = true := fun c => Binary64.isNumeral_of_mem_chars
  obtain ⟨behind, hvalue, hblank⟩ := decode_eq_ok_iff.1 h
  have hblanks := skipBlanks_rest_eq_nil_iff.1 hblank
  have hroom : startRoom = 126 + 1 := rfl
  rw [String.toList_ofList, hroom, value] at hvalue
  have hread := valueRead_of_valueWith hvalue
  cases hchars : x.chars with
  | nil =>
    rw [hchars] at hread
    cases hread with
    | negative hstart => simp at hstart
    | natural hstart => simp at hstart
  | cons c cs =>
    rw [hchars] at hnumerals hread
    have hskip := Cursor.skipBlanks_before
      (isSolid_of_isNumeral (hnumerals c List.mem_cons_self)) cs 0
    cases hread with
    | negative hstart hbody =>
      rw [hskip] at hstart hbody
      rw [Cursor.next_before] at hbody
      obtain ⟨taken, htext, -⟩ := exact_numberBody true hbody hblanks.ends
      have hsuffix : behind.rest <:+ cs.map Glyph.char := ⟨taken, htext.symm⟩
      have hnil := hblanks.eq_nil_of_suffix (List.forall_mem_cons.1 hnumerals).2 hsuffix
      obtain rfl : c = '-' := by simpa using (List.cons.inj hstart).1
      exact numberText_negative ((exact_numberBody true).reads hbody hnil)
    | natural hstart hdigit hbody =>
      rw [hskip] at hbody
      obtain ⟨taken, htext, -⟩ := exact_numberBody false hbody hblanks.ends
      have hnil := hblanks.eq_nil_of_suffix hnumerals ⟨taken, htext.symm⟩
      exact numberText_natural ((exact_numberBody false).reads hbody hnil)

end AppExport.Json
