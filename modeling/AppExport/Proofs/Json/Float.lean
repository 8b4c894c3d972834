/-
The text of every binary64 number is read as a binary64 number. It need not be the same one, since
reading rounds twice or more; but it is never refused as too large. Digits are cut off when they no
longer fit 64 bits, which only lowers them, and two roundings add too little to what lies below the
middle of a gap to pass the last number. That argument fails for the last two magnitudes alone, and
those are read by computation.
-/
import AppExport.Proofs.Decimal.Shortest
import AppExport.Proofs.Json.Exact.Number

namespace AppExport.Json

open Decimal (Binary64 Shortest digitChars)
open Decimal.Binary64 (block one limit positions)
open Text (Glyph)

/-! ## Digits times a power of ten -/

theorem ofNat?_isSome {n : Nat} (h : one * n < limit) : (Binary64.ofNat? n).isSome = true :=
  Binary64.nearest?_isSome false (by rwa [Nat.one_mul])

theorem scaled_tenTo (n : Nat) :
    2 * block * (tenTo n).scaled ≤ (2 * block + 1) * (one * 10 ^ n) := by
  rw [tenTo, Nat.pow_eq]
  cases h : Binary64.ofNat? (10 ^ n) with
  | none =>
    have hzero : (Binary64.zero false).scaled = 0 := by decide
    rw [Option.getD_none, hzero, Nat.mul_zero]
    exact Nat.zero_le _
  | some x => exact Binary64.scaled_le_of_nearest? h

theorem mul?_tenTo_isSome {x : Binary64} {digits n : Nat} (hx : Binary64.ofNat? digits = some x)
    (h : (2 * block + 1) ^ 2 * (one * (digits * 10 ^ n)) < (2 * block) ^ 2 * limit) :
    (x.mul? (tenTo n)).isSome = true := by
  have hproduct := Nat.mul_le_mul (Binary64.scaled_le_of_nearest? hx) (scaled_tenTo n)
  have hone : 0 < one := by decide +kernel
  refine Binary64.nearest?_isSome _ (Nat.lt_of_mul_lt_mul_left (a := (2 * block) ^ 2) ?_)
  calc (2 * block) ^ 2 * (x.scaled * (tenTo n).scaled)
      = 2 * block * x.scaled * (2 * block * (tenTo n).scaled) := by ring
    _ ≤ (2 * block + 1) * (one * digits) * ((2 * block + 1) * (one * 10 ^ n)) := hproduct
    _ = one * ((2 * block + 1) ^ 2 * (one * (digits * 10 ^ n))) := by ring
    _ < one * ((2 * block) ^ 2 * limit) := Nat.mul_lt_mul_of_pos_left h hone
    _ = (2 * block) ^ 2 * (one * limit) := by ring

/-- Digits of 64 bits make a number if no positive power of ten takes them to the limit. -/
theorem floatOf?_isSome {digits : Nat} {exponent : Int}
    (hdigits : digits < 0x1_0000_0000_0000_0000)
    (h : ∀ n : Nat, 0 < n → exponent = n →
      n ≤ 308 ∧ (2 * block + 1) ^ 2 * (one * (digits * 10 ^ n)) < (2 * block) ^ 2 * limit) :
    (floatOf? digits exponent).isSome = true := by
  have hbound : (2 * block + 1) ^ 2 * (one * 0x1_0000_0000_0000_0000) < (2 * block) ^ 2 * limit := by
    decide +kernel
  have hsmall : one * 0x1_0000_0000_0000_0000 < limit := by decide +kernel
  have hdigits' := Nat.mul_le_mul_left one hdigits.le
  obtain ⟨x, hx⟩ := Option.isSome_iff_exists.1 (ofNat?_isSome (hdigits'.trans_lt hsmall))
  simp only [floatOf?, hx, Option.bind_eq_bind, Option.bind_some]
  split
  · rfl
  next hnonneg =>
    obtain ⟨n, rfl⟩ := Int.eq_ofNat_of_zero_le (not_lt.1 hnonneg)
    have hproduct : n ≤ 308 ∧
        (2 * block + 1) ^ 2 * (one * (digits * 10 ^ n)) < (2 * block) ^ 2 * limit := by
      rcases Nat.eq_zero_or_pos n with rfl | hpos
      · refine ⟨Nat.zero_le _, ?_⟩
        rw [Nat.pow_zero, Nat.mul_one]
        exact (Nat.mul_le_mul_left _ hdigits').trans_lt hbound
      · exact h n hpos rfl
    rw [if_pos (by omega), Int.toNat_natCast]
    exact mul?_tenTo_isSome hx hproduct.2

theorem exists_floatNumber {digits : Nat} {exponent : Int}
    (h : (floatOf? digits exponent).isSome = true) (negative : Bool) (c : Cursor) :
    ∃ y, floatNumber negative digits exponent c = .ok (.float y, c) := by
  unfold floatNumber
  generalize floatOf? digits exponent = rounded at *
  cases rounded with
  | none => cases h
  | some x => exact ⟨_, rfl⟩

/-! ## Digits as they are gathered -/

/-- What digits stand for behind `gathered`. -/
def spelled (gathered : Nat) (ds : List Nat) : Nat := ds.foldl (fun n d => n * 10 + d) gathered

@[simp] theorem spelled_nil (gathered : Nat) : spelled gathered [] = gathered := rfl

@[simp] theorem spelled_cons (gathered d : Nat) (ds : List Nat) :
    spelled gathered (d :: ds) = spelled (gathered * 10 + d) ds := rfl

theorem spelled_append (gathered : Nat) (ds others : List Nat) :
    spelled gathered (ds ++ others) = spelled (spelled gathered ds) others := List.foldl_append ..

theorem mul_pow_le_spelled (gathered : Nat) (ds : List Nat) :
    gathered * 10 ^ ds.length ≤ spelled gathered ds := by
  induction ds generalizing gathered with
  | nil => simp
  | cons d ds ih =>
    calc gathered * 10 ^ (ds.length + 1) = gathered * 10 * 10 ^ ds.length := by ring
      _ ≤ (gathered * 10 + d) * 10 ^ ds.length := Nat.mul_le_mul_right _ (Nat.le_add_right _ _)
      _ ≤ spelled gathered (d :: ds) := ih _

theorem spelled_digitsOf (n : Nat) : spelled 0 (digitsOf n) = n := by
  induction n using Nat.strongRecOn with
  | ind n ih =>
    rw [digitsOf_eq]
    split
    · simp
    · rw [spelled_append, ih (n / 10) (by omega), spelled_cons, spelled_nil]
      omega

/-- Digits that are left over make what is gathered smaller, never greater. -/
theorem gather_le (gathered : Nat) (ds : List Nat) :
    (gather gathered ds).1 * 10 ^ (gather gathered ds).2.length ≤ spelled gathered ds ∧
      gathered ≤ (gather gathered ds).1 ∧ (gather gathered ds).2.length ≤ ds.length := by
  induction ds generalizing gathered with
  | nil => simp [gather]
  | cons d ds ih =>
    rw [gather]
    split
    · obtain ⟨hvalue, hgrows, hlength⟩ := ih (gathered * 10 + d)
      refine ⟨hvalue, by omega, ?_⟩
      rw [List.length_cons]
      omega
    · exact ⟨mul_pow_le_spelled gathered (d :: ds), Nat.le_refl _, Nat.le_refl _⟩

theorem gather_lt {gathered : Nat} (h : gathered < 0x1_0000_0000_0000_0000) (ds : List Nat) :
    (gather gathered ds).1 < 0x1_0000_0000_0000_0000 := by
  induction ds generalizing gathered with
  | nil => exact h
  | cons d ds ih =>
    rw [gather]
    split
    · next hfits => exact ih hfits
    · exact h

/-- Nineteen digits fit 64 bits. -/
theorem gather_of_length_le {gathered k : Nat} (hgathered : gathered < 10 ^ k) {ds : List Nat}
    (hds : ∀ d ∈ ds, d < 10) (hlength : k + ds.length ≤ 19) : (gather gathered ds).2 = [] := by
  induction ds generalizing gathered k with
  | nil => rfl
  | cons d ds ih =>
    obtain ⟨hd, hds⟩ := List.forall_mem_cons.1 hds
    rw [List.length_cons] at hlength
    have hnext : gathered * 10 + d < 10 ^ (k + 1) := by
      rw [Nat.pow_succ]
      omega
    have hpow : 10 ^ (k + 1) ≤ 10 ^ 19 := Nat.pow_le_pow_right (by decide) (by omega)
    rw [gather, if_pos (by omega)]
    exact ih hnext hds (by omega)

theorem overlong?_eq_none {exponent : Nat} {ds : List Nat} (h : spelled exponent ds < 0x8000_0000)
    (count : Nat) : overlong? exponent count ds = none := by
  induction ds generalizing exponent count with
  | nil => rfl
  | cons d ds ih =>
    have hgrows := mul_pow_le_spelled (exponent * 10 + d) ds
    have hpos := Nat.pow_pos (n := ds.length) (by decide : 0 < 10)
    have hnext : exponent * 10 + d < 0x8000_0000 :=
      (Nat.le_mul_of_pos_right _ hpos).trans_lt (hgrows.trans_lt h)
    rw [overlong?, if_pos hnext]
    exact ih h (count + 1)

/-! ## Digits of a shortest decimal -/

section shortest

variable {x : Binary64} {s : Shortest}

theorem le_of_below_limit (hlast : x.position + 2 < positions) {m n : Nat} (hm : 0 < m)
    (h : 4 * one * (m * 10 ^ n) ≤ 4 * x.scaled + x.upperQuarters) : n ≤ 308 := by
  by_contra hlarge
  have hlimit := Binary64.lt_limit_of_le hlast h
  have htop : (2 * block) ^ 2 * limit ≤ (2 * block + 1) ^ 2 * (one * 10 ^ 309) := by decide +kernel
  have hpow : ∀ top ≤ n, 10 ^ top ≤ m * 10 ^ n := fun top hle =>
    (Nat.pow_le_pow_right (by decide) hle).trans (Nat.le_mul_of_pos_left _ hm)
  have hproduct := Nat.mul_le_mul_left one (hpow 309 (by omega))
  exact absurd hlimit (not_lt.2 (htop.trans (Nat.mul_le_mul_left _ hproduct)))

/-- The digits of a shortest decimal that fit 64 bits make a number with the exponent that belongs
to them. -/
theorem floatOf?_gather (hs : s.Below x) (hlast : x.position + 2 < positions) {d k : Nat}
    {ds : List Nat} (hpos : 0 < d) (hd : d < 0x1_0000_0000_0000_0000)
    (hspelled : spelled d ds = s.digits) (hk : (k : Int) = s.exponent + ds.length) :
    k ≤ 308 ∧ (floatOf? (gather d ds).1
      (0 - (ds.length - (gather d ds).2.length : Nat) + k)).isSome = true := by
  obtain ⟨hcut, hgrows, hlength⟩ := gather_le d ds
  have hfirst := mul_pow_le_spelled d ds
  rw [hspelled] at hcut hfirst
  refine ⟨le_of_below_limit hlast hpos (Binary64.cut_le hs hfirst hk),
    floatOf?_isSome (gather_lt hd ds) ?_⟩
  intro n _ hn
  have hvalue := Binary64.cut_le hs hcut (n := n) (by omega)
  exact ⟨le_of_below_limit hlast (hpos.trans_le hgrows) hvalue,
    Binary64.lt_limit_of_le hlast hvalue⟩

end shortest

/-! ## Texts of numbers -/

/-- Whether a reader takes a text whole, to a binary64 number. -/
def TakesFloat (reader : Reader Number) (gs : List Glyph) : Prop :=
  ∀ offset, ∃ y offset', reader ⟨gs, offset⟩ = .ok (.float y, ⟨[], offset'⟩)

theorem isDigit_zeros (k : Nat) : ∀ c ∈ List.replicate k '0', Decimal.isDigit c = true := by
  intro c hc
  rw [List.eq_of_mem_replicate hc]
  rfl

theorem lt_of_digit? {g : Glyph} {d : Nat} (h : g.digit? = some d) : d < 10 := by
  cases g with
  | stray byte => cases h
  | char c =>
    rw [Glyph.digit?] at h
    split at h
    next hrange =>
      have hhigh : c.toNat ≤ '9'.toNat := hrange.2
      have hvalue : c.toNat - 48 = d := Option.some.inj h
      have hcode : '9'.toNat = 57 := rfl
      omega
    next => cases h

theorem length_filterMap_digit? {ds : List Glyph} (h : IsDigits ds) :
    (ds.filterMap Glyph.digit?).length = ds.length := by
  rw [List.length_filterMap_eq_countP]
  exact List.countP_eq_length.2 h.digits

section texts

variable {negative : Bool} {digits : Nat}

theorem takesFloat_exponentPart (hdigits : digits < 0x1_0000_0000_0000_0000) {scale : Int} {k : Nat}
    {sign : Char} (h : sign = '-' ∧ scale ≤ 0 ∨
      sign = '+' ∧ k < 0x8000_0000 ∧ (floatOf? digits (scale + k)).isSome = true) :
    TakesFloat (exponentPart negative digits scale)
      (.char sign :: (digitChars k).map Glyph.char) := by
  intro offset
  have hend : ∀ g ∈ ([] : List Glyph).head?, g.digit?.isSome = false := by simp
  have hrun := fun lowering [Decidable lowering] offset =>
    exponentDigits_append negative digits scale lowering (isDigits_digitChars k) hend offset
  simp only [List.append_nil] at hrun
  rw [exponentPart_eq]
  rcases h with ⟨rfl, hscale⟩ | ⟨rfl, hk, hsome⟩
  · change ∃ y offset', exponentDigits _ _ _ _ ⟨_, offset + 1⟩ = _
    rw [hrun, ← digitsOf]
    split
    · exact ⟨_, _, if_neg (by simp)⟩
    · have hlow : (floatOf? digits (scale - (gather 0 (digitsOf k)).1)).isSome = true :=
        floatOf?_isSome hdigits fun n hpos hn => by omega
      obtain ⟨y, hy⟩ := exists_floatNumber hlow negative ⟨[], offset + 1 + (digitChars k).length⟩
      exact ⟨y, _, by simpa using hy⟩
  · change ∃ y offset', exponentDigits _ _ _ _ ⟨_, offset + 1⟩ = _
    have hover : overlong? 0 0 (digitsOf k) = none :=
      overlong?_eq_none (by rwa [spelled_digitsOf]) 0
    have hgather := gather_digitsOf k (by omega)
    rw [hrun, ← digitsOf, hover, hgather]
    obtain ⟨y, hy⟩ := exists_floatNumber hsome negative ⟨[], offset + 1 + (digitChars k).length⟩
    exact ⟨y, _, by simpa using hy⟩

theorem fractionPart_append (negative : Bool) (digits : Nat) (scale : Int) {ds rest : List Glyph}
    (hds : IsDigits ds) (hrest : ∀ g ∈ rest.head?, g.digit?.isSome = false) (offset : Nat) :
    fractionPart negative digits scale ⟨ds ++ rest, offset⟩ =
      (if isExponentLetter rest.head? then
        exponentPart negative (gather digits (ds.filterMap Glyph.digit?)).1
          (scale - (ds.length - (gather digits (ds.filterMap Glyph.digit?)).2.length : Nat))
          (Cursor.mk rest (offset + ds.length)).next
      else
        floatNumber negative (gather digits (ds.filterMap Glyph.digit?)).1
          (scale - (ds.length - (gather digits (ds.filterMap Glyph.digit?)).2.length : Nat))
          ⟨rest, offset + ds.length⟩) := by
  have hne : (ds.filterMap Glyph.digit?).isEmpty = false := by
    rw [List.isEmpty_eq_false_iff, ← List.length_pos_iff, length_filterMap_digit? hds,
      List.length_pos_iff]
    exact hds.ne_nil
  simp only [fractionPart, digitRun_append hds.digits hrest, hne, Bool.false_eq_true, if_false,
    length_filterMap_digit? hds]

/-- A whole part and a fraction. -/
theorem takesFloat_point (hdigits : digits < 0x1_0000_0000_0000_0000) {fraction : List Glyph}
    (hfraction : IsDigits fraction) :
    TakesFloat (numberBehind negative digits 0) (.char '.' :: fraction) := by
  intro offset
  have hend : ∀ g ∈ ([] : List Glyph).head?, g.digit?.isSome = false := by simp
  have hrun := fractionPart_append negative digits 0 hfraction hend (offset + 1)
  have hsome : (floatOf? (gather digits (fraction.filterMap Glyph.digit?)).1
      (0 - (fraction.length -
        (gather digits (fraction.filterMap Glyph.digit?)).2.length : Nat))).isSome = true :=
    floatOf?_isSome (gather_lt hdigits _) fun n hpos hn => by omega
  obtain ⟨y, hy⟩ := exists_floatNumber hsome negative ⟨[], offset + 1 + fraction.length⟩
  refine ⟨y, offset + 1 + fraction.length, ?_⟩
  rw [numberBehind, if_pos rfl]
  rw [List.append_nil] at hrun
  exact hrun.trans hy

theorem takesFloat_zero {fraction : List Glyph} (hfraction : IsDigits fraction) :
    TakesFloat (numberBody negative) (.char '0' :: .char '.' :: fraction) := by
  have hpoint : ∀ g ∈ (Glyph.char '.' :: fraction).head?, g.digit?.isSome = false := by
    rintro g ⟨⟩
    rfl
  intro offset
  rw [numberBody_zero negative hpoint]
  exact takesFloat_point (by decide) hfraction _

/-- A natural of up to nineteen digits, and what follows it. -/
theorem takesFloat_whole {whole rest : List Glyph} (hwhole : IsDigits whole)
    (hzero : whole.head? ≠ some (.char '0')) (hlength : whole.length ≤ 19)
    (hrest : ∀ g ∈ rest.head?, g.digit?.isSome = false)
    (h : ∀ n < 0x1_0000_0000_0000_0000, TakesFloat (numberBehind negative n 0) rest) :
    TakesFloat (numberBody negative) (whole ++ rest) := by
  intro offset
  have hdigit : ∀ d ∈ whole.filterMap Glyph.digit?, d < 10 := by
    intro d hd
    obtain ⟨g, -, hg⟩ := List.mem_filterMap.1 hd
    exact lt_of_digit? hg
  have hleft : (gather 0 (whole.filterMap Glyph.digit?)).2 = [] :=
    gather_of_length_le (k := 0) (by decide) hdigit (by rw [length_filterMap_digit? hwhole]; omega)
  rw [numberBody_digits negative hwhole hzero hrest, hleft]
  exact h _ (gather_lt (by decide) _) _

theorem takesFloat_positional {n : Nat} (hn : n ≠ 0) {leading : Int} (hleading : leading ≤ 15) :
    TakesFloat (numberBody negative)
      ((Decimal.positional (digitChars n) leading).map Glyph.char) := by
  have hdigits : ∀ c ∈ digitChars n, Decimal.isDigit c = true :=
    fun _ => Decimal.isDigit_of_mem_digitChars
  have hpoint : ∀ gs, ∀ g ∈ (Glyph.char '.' :: gs).head?, g.digit?.isSome = false := by
    rintro gs g ⟨⟩
    rfl
  have hne := Decimal.digitChars_ne_nil n
  rw [Decimal.positional]
  split
  · have hfraction : IsDigits
        ((List.replicate (-leading - 1).toNat '0' ++ digitChars n).map Glyph.char) :=
      isDigits_map (by simp [hne]) (List.forall_mem_append.2 ⟨isDigit_zeros _, hdigits⟩)
    exact takesFloat_zero hfraction
  · dsimp only
    split
    · next hlength =>
      have hwhole : ∀ c ∈ digitChars n ++
          List.replicate ((leading + 1).toNat - (digitChars n).length) '0', Decimal.isDigit c :=
        List.forall_mem_append.2 ⟨hdigits, isDigit_zeros _⟩
      rw [List.map_append]
      refine takesFloat_whole (isDigits_map (by simp [hne]) hwhole)
        (head?_map_ne hn (List.head?_append_of_ne_nil _ hne)) ?_ (hpoint _) fun m hm =>
          takesFloat_point hm (isDigits_map (by simp) (isDigit_zeros 1))
      rw [List.length_map, List.length_append, List.length_replicate]
      omega
    · next hlength =>
      have hparts := List.take_append_drop (leading + 1).toNat (digitChars n)
      have htake : (digitChars n).take (leading + 1).toNat ≠ [] := by
        rw [Ne, List.take_eq_nil_iff, not_or]
        exact ⟨by omega, hne⟩
      have hdrop : (digitChars n).drop (leading + 1).toNat ≠ [] := by
        rw [Ne, List.drop_eq_nil_iff]
        exact hlength
      rw [List.map_append, List.map_cons]
      refine takesFloat_whole (isDigits_map htake fun c hc => hdigits c (List.mem_of_mem_take hc))
        (head?_map_ne hn ?_) ?_ (hpoint _) fun m hm =>
          takesFloat_point hm (isDigits_map hdrop fun c hc => hdigits c (List.mem_of_mem_drop hc))
      · rw [List.head?_take, if_neg (by omega)]
      · rw [List.length_map, List.length_take]
        omega

/-- A digit other than zero is a number's whole part if no other digit follows. -/
theorem numberBody_digit (negative : Bool) {g : Glyph} {d : Nat} (hd : g.digit? = some (d + 1))
    {rest : List Glyph} (hrest : ∀ g ∈ rest.head?, g.digit?.isSome = false) (offset : Nat) :
    numberBody negative ⟨g :: rest, offset⟩ =
      numberBehind negative (d + 1) 0 ⟨rest, offset + 1⟩ := by
  have hsmall := lt_of_digit? hd
  have hdigits : IsDigits [g] := by
    refine ⟨List.cons_ne_nil _ _, fun g' hg => ?_⟩
    rw [List.mem_singleton.1 hg, hd]
    rfl
  have hzero : [g].head? ≠ some (.char '0') := by
    intro hhead
    rw [Option.some.inj hhead] at hd
    cases hd
  have hgather : gather 0 ([g].filterMap Glyph.digit?) = (d + 1, []) := by
    rw [List.filterMap_cons_some hd, List.filterMap_nil, gather, if_pos (by omega), gather,
      Nat.zero_mul, Nat.zero_add]
  have hbody := numberBody_digits negative hdigits hzero hrest offset
  rwa [hgather] at hbody

/-- What digits behind a first one are gathered to, and the exponent that belongs to it, decide
what is made of a mantissa. -/
theorem takesFloat_mantissa {c : Char} {d : Nat} (hd : Glyph.digit? (.char c) = some (d + 1))
    {cs : List Char} (hcs : ∀ c ∈ cs, Decimal.isDigit c = true) {ds : List Nat}
    (hds : (cs.map Glyph.char).filterMap Glyph.digit? = ds) {gs : List Glyph}
    (h : TakesFloat (exponentPart negative (gather (d + 1) ds).1
      (0 - (ds.length - (gather (d + 1) ds).2.length : Nat))) gs) :
    TakesFloat (numberBody negative)
      ((c :: if cs = [] then [] else '.' :: cs).map Glyph.char ++ .char 'e' :: gs) := by
  have hletter : ∀ g ∈ (Glyph.char 'e' :: gs).head?, g.digit?.isSome = false := by
    rintro g ⟨⟩
    rfl
  have hpoint : ∀ gs, ∀ g ∈ (Glyph.char '.' :: gs).head?, g.digit?.isSome = false := by
    rintro gs g ⟨⟩
    rfl
  intro offset
  split
  · next hnil =>
    subst hnil
    cases hds
    rw [List.map_cons, List.map_nil, List.singleton_append, numberBody_digit negative hd hletter,
      numberBehind, if_neg (by simp), if_pos (by rfl)]
    exact h _
  · next hne =>
    have hlength := length_filterMap_digit? (isDigits_map hne hcs)
    have hfraction : ∀ offset, fractionPart negative (d + 1) 0
        ⟨cs.map Glyph.char ++ .char 'e' :: gs, offset⟩ =
          exponentPart negative (gather (d + 1) ds).1
            (0 - (ds.length - (gather (d + 1) ds).2.length : Nat)) ⟨gs, offset + ds.length + 1⟩ := by
      intro offset
      rw [fractionPart_append negative (d + 1) 0 (isDigits_map hne hcs) hletter, if_pos (by rfl),
        ← hlength, hds]
      rfl
    rw [List.map_cons, List.map_cons, List.cons_append, List.cons_append,
      numberBody_digit negative hd (hpoint _), numberBehind, if_pos (by rfl)]
    change ∃ y offset', fractionPart negative (d + 1) 0 ⟨_, offset + 1 + 1⟩ = _
    rw [hfraction]
    exact h _

/-- A mantissa, a point behind the first of several digits, and an exponent. -/
theorem takesFloat_scientific {x : Binary64} {s : Shortest} (hs : s.Below x)
    (hlast : x.position + 2 < positions) :
    TakesFloat (numberBody negative) ((Decimal.scientific (digitChars s.digits)
      (s.exponent + (digitChars s.digits).length - 1)).map Glyph.char) := by
  obtain ⟨c, cs, d, hcs, hd⟩ := exists_digitChars_eq hs.pos.ne'
  have hdigits : ∀ c' ∈ c :: cs, Decimal.isDigit c' = true :=
    fun _ hc => Decimal.isDigit_of_mem_digitChars (hcs ▸ hc)
  have hsmall := lt_of_digit? hd
  generalize hds : (cs.map Glyph.char).filterMap Glyph.digit? = ds
  have hspelled : spelled (d + 1) ds = s.digits := by
    have h := spelled_digitsOf s.digits
    rw [digitsOf, hcs, List.map_cons, List.filterMap_cons_some hd, hds, spelled_cons] at h
    rwa [Nat.zero_mul, Nat.zero_add] at h
  have hlength : ds.length = cs.length := by
    rw [← hds, List.length_filterMap_eq_countP, ← List.length_map (f := Glyph.char)]
    refine List.countP_eq_length.2 fun g hg => ?_
    obtain ⟨c', hc', rfl⟩ := List.mem_map.1 hg
    exact digit?_isSome_of_isDigit (hdigits c' (List.mem_cons_of_mem _ hc'))
  have hleading : s.exponent + (digitChars s.digits).length - 1 = s.exponent + ds.length := by
    rw [hcs, List.length_cons, hlength]
    omega
  have hexponent : TakesFloat (exponentPart negative (gather (d + 1) ds).1
      (0 - (ds.length - (gather (d + 1) ds).2.length : Nat)))
      (.char (if s.exponent + ds.length < 0 then '-' else '+') ::
        (digitChars (s.exponent + ds.length).natAbs).map Glyph.char) := by
    refine takesFloat_exponentPart (gather_lt (by omega) ds) ?_
    split
    · exact .inl ⟨rfl, by omega⟩
    · obtain ⟨hk, hsome⟩ := floatOf?_gather hs hlast (Nat.succ_pos d) (by omega) hspelled
        (k := (s.exponent + ds.length).natAbs) (by omega)
      exact .inr ⟨rfl, by omega, hsome⟩
  have htext := takesFloat_mantissa hd (fun c hc => hdigits c (List.mem_cons_of_mem _ hc)) hds
    hexponent
  rw [hleading, hcs]
  cases cs <;> simpa [Decimal.scientific] using htext

end texts

/-! ## Reading numbers again -/

theorem reads_of_takesFloat {negative : Bool} {cs : List Char}
    (h : TakesFloat (numberBody negative) (cs.map Glyph.char)) :
    ∃ y, Reads (numberBody negative) cs (.float y) := by
  obtain ⟨y, offset', hy⟩ := h 0
  exact ⟨y, (exact_numberBody negative).reads hy rfl⟩

theorem numberText_of_takesFloat {negative : Bool} {cs : List Char}
    (h : TakesFloat (numberBody negative) (cs.map Glyph.char)) :
    ∃ y, NumberText (if negative then '-' :: cs else cs) (.float y) := by
  obtain ⟨y, hreads⟩ := reads_of_takesFloat h
  refine ⟨y, ?_⟩
  cases negative with
  | true => exact numberText_negative hreads
  | false => exact numberText_natural hreads

theorem exists_numberText {x : Binary64} (hlast : x.position + 2 < positions) :
    ∃ y, NumberText x.chars (.float y) := by
  refine numberText_of_takesFloat ?_
  split
  · exact takesFloat_zero (isDigits_map (List.cons_ne_nil '0' []) (isDigit_zeros 1))
  next hzero =>
    have hbelow := Binary64.below_shortest (Bool.eq_false_iff.2 hzero)
    split
    · next hleading => exact takesFloat_positional hbelow.pos.ne' hleading.2
    · exact takesFloat_scientific hbelow hlast

end AppExport.Json

namespace AppExport.Decimal.Binary64

open Json (NumberText decode value)

/-- The number that the text of a number is decoded to. -/
def reread? (x : Binary64) : Option Binary64 :=
  match decode value (String.ofList x.chars) with
  | .ok (.number (.float y)) => some y
  | _ => none

theorem reread?_eq_some_iff {x y : Binary64} : x.reread? = some y ↔
    decode value (String.ofList x.chars) = .ok (.number (.float y)) := by
  rw [reread?]
  split
  · next h => simp [h]
  · next h =>
    simp only [reduceCtorEq, false_iff]
    exact h y

theorem reread?_eq_some_of_numberText {x y : Binary64} (h : NumberText x.chars (.float y)) :
    x.reread? = some y := by
  obtain ⟨inner, hroom⟩ := Json.value_eq_valueWith Json.startRoom
  refine reread?_eq_some_iff.2 (Json.decode_of_reads ?_)
  rw [hroom]
  exact Json.reads_valueWith_number h inner

/-- The last two magnitudes are read by computation. -/
theorem reread?_last : ∀ negative,
    (reread? ⟨negative, positions - 2, by decide⟩).isSome = true ∧
      (reread? ⟨negative, positions - 1, by decide⟩).isSome = true := by
  decide +kernel

theorem reread?_isSome (x : Binary64) : x.reread?.isSome = true := by
  obtain ⟨hbefore, hlast⟩ := reread?_last x.negative
  obtain ⟨negative, position, hposition⟩ := x
  rcases lt_or_ge (position + 2) positions with hsmall | hlarge
  · obtain ⟨y, hy⟩ := Json.exists_numberText (x := ⟨negative, position, hposition⟩) hsmall
    rw [reread?_eq_some_of_numberText hy]
    rfl
  · obtain rfl | rfl : position = positions - 2 ∨ position = positions - 1 := by omega
    · exact hbefore
    · exact hlast

/-- The number that the text of a number is read as. -/
def reread (x : Binary64) : Binary64 := x.reread?.get x.reread?_isSome

theorem decode_chars (x : Binary64) :
    decode value (String.ofList x.chars) = .ok (.number (.float x.reread)) :=
  reread?_eq_some_iff.1 (Option.some_get _).symm

/-- The text of every number is read as a number. -/
theorem numberText_reread (x : Binary64) : NumberText x.chars (.float x.reread) :=
  Json.numberText_of_decode x.decode_chars

end AppExport.Decimal.Binary64
