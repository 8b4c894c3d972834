/-
Numbers in a longer text. The digits of a number are taken as a whole run, and what is made of them
depends neither on where they begin nor on what stands behind them, as long as that does not continue
the number. So an integer of 64 bits reads back from its digits wherever it stands.
-/
import AppExport.Proofs.Decimal.Notation
import AppExport.Proofs.Json.Grammar

namespace AppExport.Json

open Decimal (digitChars intChars isDigit)
open Text (Glyph)

/-! ## Where a number ends -/

def continues : Glyph → Bool
  | .char c => continuesNumber c
  | .stray _ => false

/-- Whether a number ends before a text. -/
def Ends (rest : List Glyph) : Prop := ∀ g ∈ rest.head?, continues g = false

theorem ends_nil : Ends [] := by simp [Ends]

theorem ends_cons {g : Glyph} {gs : List Glyph} : Ends (g :: gs) ↔ continues g = false := by
  simp [Ends]

theorem Stops.ends {rest : List Char} (h : Stops rest) : Ends (rest.map Glyph.char) := by
  intro g hg
  rw [List.head?_map] at hg
  obtain ⟨c, hc, rfl⟩ := Option.map_eq_some_iff.1 hg
  exact h c hc

theorem digit?_of_isDigit_eq_false {c : Char} (h : isDigit c = false) :
    Glyph.digit? (.char c) = none := by
  simpa [Glyph.digit?, isDigit] using h

theorem digit?_isSome_of_isDigit {c : Char} (h : isDigit c = true) :
    (Glyph.digit? (.char c)).isSome = true := by
  simpa [Glyph.digit?, isDigit] using h

theorem ne_of_digit {g : Glyph} (h : g.digit?.isSome = true) {x : Char} (hx : isDigit x = false) :
    g ≠ .char x := by
  rintro rfl
  rw [digit?_of_isDigit_eq_false hx] at h
  cases h

theorem continues_of_digit {g : Glyph} (h : g.digit?.isSome = true) : continues g = true := by
  cases g with
  | stray byte => cases h
  | char c =>
    have hdigit : isDigit c = true := by
      by_contra hnot
      exact ne_of_digit h (Bool.eq_false_iff.2 hnot) rfl
    simp [continues, continuesNumber, hdigit]

theorem Ends.not_digit {rest : List Glyph} (h : Ends rest) :
    ∀ g ∈ rest.head?, g.digit?.isSome = false := by
  intro g hg
  by_contra hdigit
  have hcontinues := continues_of_digit (Bool.not_eq_false _ ▸ hdigit)
  rw [h g hg] at hcontinues
  cases hcontinues

theorem Ends.head_ne {rest : List Glyph} (h : Ends rest) {x : Char}
    (hx : continuesNumber x = true) : rest.head? ≠ some (.char x) := by
  intro hhead
  have hx' := h _ hhead
  rw [continues, hx] at hx'
  cases hx'

theorem Ends.not_exponent {rest : List Glyph} (h : Ends rest) :
    isExponentLetter rest.head? = false := by
  simp [isExponentLetter, h.head_ne (x := 'e') (by decide), h.head_ne (x := 'E') (by decide)]

theorem continues_of_isBlank {g : Glyph} (h : Cursor.isBlank g = true) : continues g = false := by
  cases g with
  | stray byte => rfl
  | char c =>
    simp only [Cursor.isBlank, Bool.or_eq_true, decide_eq_true_eq] at h
    rcases h with ((rfl | rfl) | rfl) | rfl <;> decide

theorem Ends.append {blanks text : List Glyph} (hblanks : Blanks blanks) (h : Ends text) :
    Ends (blanks ++ text) := by
  cases blanks with
  | nil => exact h
  | cons g gs => exact ends_cons.2 (continues_of_isBlank (hblanks g List.mem_cons_self))

theorem Blanks.ends {gs : List Glyph} (h : Blanks gs) : Ends gs := by
  rw [← List.append_nil gs]
  exact Ends.append h ends_nil

/-! ## Runs of glyphs -/

theorem takeWhile_append_of_stop {p : Glyph → Bool} {run rest : List Glyph}
    (hrun : ∀ g ∈ run, p g = true) (hrest : ∀ g ∈ rest.head?, p g = false) :
    (run ++ rest).takeWhile p = run := by
  rw [List.takeWhile_append_of_pos hrun]
  cases rest with
  | nil => simp
  | cons g gs => simp [hrest g rfl]

/-- A text is a run of glyphs and a rest that does not go on with it. -/
theorem exists_run (p : Glyph → Bool) (gs : List Glyph) :
    ∃ run rest, gs = run ++ rest ∧ (∀ g ∈ run, p g = true) ∧ ∀ g ∈ rest.head?, p g = false := by
  refine ⟨gs.takeWhile p, gs.dropWhile p, List.takeWhile_append_dropWhile.symm, fun g hg => ?_,
    fun g hg => ?_⟩
  · exact List.all_eq_true.1 List.all_takeWhile g hg
  · have hhead := List.head?_dropWhile_not p gs
    rw [hg] at hhead
    exact hhead

theorem digitRun_append {ds rest : List Glyph} (hds : ∀ g ∈ ds, g.digit?.isSome = true)
    (hrest : ∀ g ∈ rest.head?, g.digit?.isSome = false) (offset : Nat) :
    digitRun ⟨ds ++ rest, offset⟩ = (ds.filterMap Glyph.digit?, ⟨rest, offset + ds.length⟩) := by
  rw [digitRun, takeWhile_append_of_stop hds hrest, List.drop_left]

/-! ## Parts of a number -/

/-- Whether digits make a binary64 number, and which one, does not depend on the place. -/
theorem floatNumber_cases (negative : Bool) (digits : Nat) (exponent : Int) :
    (∃ n, ∀ c, floatNumber negative digits exponent c = .ok (n, c)) ∨
      ∀ c, floatNumber negative digits exponent c = .error (c.fault .numberTooLarge) := by
  unfold floatNumber
  generalize floatOf? digits exponent = rounded
  cases rounded with
  | none => exact .inr fun c => rfl
  | some x => exact .inl ⟨_, fun c => rfl⟩

/-- A natural either is an integer or is read as a binary64 number, regardless of the place. -/
theorem integerNumber_cases (negative : Bool) (digits : Nat) :
    (∃ n, ∀ c, integerNumber negative digits c = .ok (n, c)) ∨
      ∀ c, integerNumber negative digits c = floatNumber negative digits 0 c :=
  if h : (negative → digits ≠ 0) ∧ Number.least ≤ (if negative then -digits else digits : Int) ∧
      (if negative then -digits else digits : Int) ≤ Number.greatest then
    .inl ⟨_, fun _ => dif_pos h⟩
  else .inr fun _ => dif_neg h

/-- What follows the sign of an exponent. -/
def exponentDigits (negative : Bool) (digits : Nat) (scale : Int) (lowering : Prop)
    [Decidable lowering] : Reader Number := fun c =>
  match c.rest with
  | [] => .error (c.fault .endInValue)
  | g :: _ =>
    if g.digit?.isNone then .error (c.faultAhead .malformedNumber)
    else
      match overlong? 0 0 (digitRun c).1 with
      | some count =>
        if digits ≠ 0 ∧ ¬lowering then .error ⟨.numberTooLarge, c.offset + count⟩
        else .ok (.float (.zero negative), (digitRun c).2)
      | none =>
        let exponent : Int := (gather 0 (digitRun c).1).1
        floatNumber negative digits (if lowering then scale - exponent else scale + exponent)
          (digitRun c).2

/-- The cursor behind the sign of an exponent, if it has one. -/
def pastSign (c : Cursor) : Cursor :=
  if c.rest.head? = some (.char '-') ∨ c.rest.head? = some (.char '+') then c.next else c

theorem exponentPart_eq (negative : Bool) (digits : Nat) (scale : Int) (c : Cursor) :
    exponentPart negative digits scale c =
      exponentDigits negative digits scale (c.rest.head? = some (.char '-')) (pastSign c) := rfl

/-- A text that begins with a digit begins with a whole run of them. -/
theorem exists_digits {g : Glyph} (hg : g.digit?.isSome = true) (gs : List Glyph) :
    ∃ ds rest, g :: gs = ds ++ rest ∧ IsDigits ds ∧ ∀ g ∈ rest.head?, g.digit?.isSome = false := by
  obtain ⟨ds, rest, hsplit, hds, hrest⟩ := exists_run (·.digit?.isSome) (g :: gs)
  refine ⟨ds, rest, hsplit, ⟨?_, hds⟩, hrest⟩
  rintro rfl
  rw [List.nil_append] at hsplit
  rw [hrest g (by rw [← hsplit]; rfl)] at hg
  cases hg

theorem IsDigits.exists_cons {ds : List Glyph} (h : IsDigits ds) :
    ∃ g gs, ds = g :: gs ∧ g.digit?.isSome = true := by
  cases ds with
  | nil => exact absurd rfl h.ne_nil
  | cons g gs => exact ⟨g, gs, rfl, h.digits g List.mem_cons_self⟩

theorem exponentDigits_append (negative : Bool) (digits : Nat) (scale : Int) (lowering : Prop)
    [Decidable lowering] {ds rest : List Glyph} (hds : IsDigits ds)
    (hrest : ∀ g ∈ rest.head?, g.digit?.isSome = false) (offset : Nat) :
    exponentDigits negative digits scale lowering ⟨ds ++ rest, offset⟩ =
      match overlong? 0 0 (ds.filterMap Glyph.digit?) with
      | some count =>
        if digits ≠ 0 ∧ ¬lowering then .error ⟨.numberTooLarge, offset + count⟩
        else .ok (.float (.zero negative), ⟨rest, offset + ds.length⟩)
      | none =>
        let exponent : Int := (gather 0 (ds.filterMap Glyph.digit?)).1
        floatNumber negative digits (if lowering then scale - exponent else scale + exponent)
          ⟨rest, offset + ds.length⟩ := by
  rw [exponentDigits, digitRun_append hds.digits hrest]
  obtain ⟨g, gs, rfl, hg⟩ := hds.exists_cons
  exact if_neg (by simp [Option.isNone_eq_false_iff.2 hg])

/-- Where a number ends behind its digits, it is an integer if they all fit. -/
theorem numberBehind_of_ends (negative : Bool) (digits left : Nat) {rest : List Glyph}
    (hrest : Ends rest) (offset : Nat) :
    numberBehind negative digits left ⟨rest, offset⟩ =
      if left = 0 then integerNumber negative digits ⟨rest, offset⟩
      else floatNumber negative digits left ⟨rest, offset⟩ := by
  rw [numberBehind, if_neg (hrest.head_ne (by decide)), hrest.not_exponent,
    if_neg Bool.false_ne_true]

theorem digit?_eq_zero {g : Glyph} (h : g.digit? = some 0) : g = .char '0' := by
  cases g with
  | stray byte => cases h
  | char c =>
    rw [Glyph.digit?] at h
    split at h
    next hrange =>
      have hlow : '0'.toNat ≤ c.toNat := hrange.1
      have hzero : c.toNat - 48 = 0 := Option.some.inj h
      have hcode : '0'.toNat = 48 := rfl
      exact congrArg _ (Char.toNat_inj.1 (by omega))
    next => cases h

theorem numberBody_zero (negative : Bool) {rest : List Glyph}
    (hrest : ∀ g ∈ rest.head?, g.digit?.isSome = false) (offset : Nat) :
    numberBody negative ⟨.char '0' :: rest, offset⟩ =
      numberBehind negative 0 0 ⟨rest, offset + 1⟩ := by
  have hstop : (rest.head?.bind Glyph.digit?).isSome = false := by
    cases rest with
    | nil => rfl
    | cons g gs => exact hrest g rfl
  have hzero : Glyph.digit? (.char '0') = some 0 := by decide
  simp only [numberBody, hzero]
  rw [if_neg (by rw [show (Cursor.mk (.char '0' :: rest) offset).next.rest = rest from rfl, hstop]
                 exact Bool.false_ne_true)]
  rfl

theorem numberBody_digits (negative : Bool) {ds rest : List Glyph} (hds : IsDigits ds)
    (hzero : ds.head? ≠ some (.char '0')) (hrest : ∀ g ∈ rest.head?, g.digit?.isSome = false)
    (offset : Nat) :
    numberBody negative ⟨ds ++ rest, offset⟩ =
      numberBehind negative (gather 0 (ds.filterMap Glyph.digit?)).1
        (gather 0 (ds.filterMap Glyph.digit?)).2.length ⟨rest, offset + ds.length⟩ := by
  rw [numberBody, digitRun_append hds.digits hrest]
  obtain ⟨g, gs, rfl, hg⟩ := hds.exists_cons
  obtain ⟨d, hd⟩ := Option.isSome_iff_exists.1 hg
  cases d with
  | zero => exact absurd (congrArg some (digit?_eq_zero hd)) hzero
  | succ d => simp only [List.cons_append, hd]

/-! ## Integers -/

theorem digit?_digitChar : ∀ d < 10, Glyph.digit? (.char (Nat.digitChar d)) = some d := by decide

theorem gather_append {gathered total : Nat} {ds : List Nat} (h : gather gathered ds = (total, []))
    (others : List Nat) : gather gathered (ds ++ others) = gather total others := by
  induction ds generalizing gathered with
  | nil =>
    simp only [gather, Prod.mk.injEq, and_true] at h
    rw [h, List.nil_append]
  | cons d ds ih =>
    simp only [List.cons_append, gather] at h ⊢
    split at h
    · next hfits => rw [if_pos hfits, ih h]
    · simp at h

/-- The digits that readers see in the text of a natural. -/
def digitsOf (n : Nat) : List Nat := ((digitChars n).map Glyph.char).filterMap Glyph.digit?

theorem digitsOf_eq (n : Nat) :
    digitsOf n = if n < 10 then [n] else digitsOf (n / 10) ++ [n % 10] := by
  rw [digitsOf, digitChars, Nat.toDigits_eq_if (by decide)]
  split
  · next h => simp [digit?_digitChar n h]
  · simp [digitsOf, digitChars, digit?_digitChar (n % 10) (Nat.mod_lt n (by decide))]

theorem gather_digitsOf (n : Nat) (h : n < 0x1_0000_0000_0000_0000) :
    gather 0 (digitsOf n) = (n, []) := by
  induction n using Nat.strongRecOn with
  | ind n ih =>
    rw [digitsOf_eq]
    split
    · simp [gather, h]
    · have hparts : n / 10 * 10 + n % 10 = n := by omega
      rw [gather_append (ih (n / 10) (by omega) (by omega)), gather, hparts, if_pos h, gather]

theorem exists_digitChars_eq {n : Nat} (h : n ≠ 0) :
    ∃ c cs d, digitChars n = c :: cs ∧ Glyph.digit? (.char c) = some (d + 1) := by
  induction n using Nat.strongRecOn with
  | ind n ih =>
    rw [digitChars, Nat.toDigits_eq_if (by decide)]
    split
    · next hn =>
      refine ⟨Nat.digitChar n, [], n - 1, rfl, ?_⟩
      rw [digit?_digitChar n hn, Nat.sub_add_cancel (Nat.pos_of_ne_zero h)]
    · obtain ⟨c, cs, d, hcs, hd⟩ := ih (n / 10) (by omega) (by omega)
      rw [digitChars] at hcs
      exact ⟨c, cs ++ [Nat.digitChar (n % 10)], d, by rw [hcs, List.cons_append], hd⟩

theorem isDigits_map {cs : List Char} (hne : cs ≠ []) (h : ∀ c ∈ cs, Decimal.isDigit c = true) :
    IsDigits (cs.map Glyph.char) := by
  refine ⟨by simpa using hne, fun g hg => ?_⟩
  obtain ⟨c, hc, rfl⟩ := List.mem_map.1 hg
  exact digit?_isSome_of_isDigit (h c hc)

theorem isDigits_digitChars (n : Nat) : IsDigits ((digitChars n).map Glyph.char) :=
  isDigits_map (Decimal.digitChars_ne_nil n) fun _ => Decimal.isDigit_of_mem_digitChars

/-- What begins as the digits of a number other than zero does not begin with a zero. -/
theorem head?_map_ne {n : Nat} (h : n ≠ 0) {cs : List Char}
    (hhead : cs.head? = (digitChars n).head?) :
    (cs.map Glyph.char).head? ≠ some (.char '0') := by
  obtain ⟨c, others, d, hcs, hd⟩ := exists_digitChars_eq h
  rw [List.head?_map, hhead, hcs, List.head?_cons, Option.map_some]
  intro hzero
  rw [Option.some.inj hzero] at hd
  cases hd

/-- The digits of a natural are gathered to it. -/
theorem numberBody_digitChars (negative : Bool) {n : Nat} (h : n < 0x1_0000_0000_0000_0000)
    {rest : List Glyph} (hrest : Ends rest) (offset : Nat) : ∃ offset',
      numberBody negative ⟨(digitChars n).map Glyph.char ++ rest, offset⟩ =
        integerNumber negative n ⟨rest, offset'⟩ := by
  by_cases hzero : n = 0
  · subst hzero
    refine ⟨offset + 1, ?_⟩
    rw [digitChars, Nat.toDigits_zero, List.map_cons, List.map_nil, List.singleton_append,
      numberBody_zero negative hrest.not_digit, numberBehind_of_ends _ _ _ hrest, if_pos rfl]
  · refine ⟨offset + ((digitChars n).map Glyph.char).length, ?_⟩
    have hgather := gather_digitsOf n h
    rw [digitsOf] at hgather
    rw [numberBody_digits negative (isDigits_digitChars n) (head?_map_ne hzero rfl) hrest.not_digit,
      hgather, numberBehind_of_ends _ _ _ hrest, List.length_nil, if_pos rfl]

theorem integerNumber_eq {negative : Bool} {digits : Nat} {i : Int} {lower upper}
    (hvalue : (if negative then -digits else digits : Int) = i) (hzero : negative → digits ≠ 0)
    (c : Cursor) : integerNumber negative digits c = .ok (.integer i lower upper, c) := by
  subst hvalue
  exact dif_pos ⟨hzero, lower, upper⟩

theorem reads_digitChars {negative : Bool} {n : Nat} (h : n < 0x1_0000_0000_0000_0000) {m : Number}
    (hvalue : ∀ c, integerNumber negative n c = .ok (m, c)) :
    Reads (numberBody negative) (digitChars n) m := by
  intro rest offset hrest
  obtain ⟨offset', hread⟩ := numberBody_digitChars negative h hrest.ends offset
  refine ⟨offset', ?_⟩
  rw [Cursor.before_append, hread]
  exact hvalue _

/-! ## Numbers by their texts -/

/-- A text that readers of numbers take to `n`, by its first character. -/
def NumberText (text : List Char) (n : Number) : Prop :=
  ∃ c cs, text = c :: cs ∧ ((c = '-' ∧ Reads (fun c => numberBody true c.next) text n) ∨
    (isDigit c = true ∧ Reads (numberBody false) text n))

theorem numberText_negative {cs : List Char} {n : Number} (h : Reads (numberBody true) cs n) :
    NumberText ('-' :: cs) n :=
  ⟨'-', cs, rfl, .inl ⟨rfl, h.next '-'⟩⟩

theorem exists_digit_of_reads {negative : Bool} {cs : List Char} {n : Number}
    (h : Reads (numberBody negative) cs n) : ∃ c others, cs = c :: others ∧ isDigit c = true := by
  obtain ⟨offset', hread⟩ := h [] 0 stops_nil
  rw [List.append_nil] at hread
  cases cs with
  | nil => cases hread
  | cons c others =>
    refine ⟨c, others, rfl, ?_⟩
    by_contra hdigit
    have hnone := digit?_of_isDigit_eq_false (Bool.eq_false_iff.2 hdigit)
    simp [numberBody, hnone] at hread

theorem numberText_natural {cs : List Char} {n : Number} (h : Reads (numberBody false) cs n) :
    NumberText cs n := by
  obtain ⟨c, others, rfl, hdigit⟩ := exists_digit_of_reads h
  exact ⟨c, others, rfl, .inr ⟨hdigit, h⟩⟩

theorem numberText_integer (i : Int) (lower : Number.least ≤ i) (upper : i ≤ Number.greatest) :
    NumberText (intChars i) (.integer i lower upper) := by
  have hfits : i.natAbs < 0x1_0000_0000_0000_0000 := by
    simp only [Number.least, Number.greatest] at lower upper
    omega
  unfold intChars
  split
  · next hneg =>
    exact numberText_negative (reads_digitChars hfits
      (integerNumber_eq (by simp only [if_true]; omega) (fun _ => by omega)))
  · next hneg =>
    exact numberText_natural (reads_digitChars hfits
      (integerNumber_eq (by simp only [Bool.false_eq_true, if_false]; omega) (by simp)))

end AppExport.Json
