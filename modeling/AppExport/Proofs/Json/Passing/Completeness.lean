/-
Every value of the grammar is passed over, whatever is open around it and whatever follows. What is
done behind a value is a parameter of the induction, since it hangs on the brackets around it.
-/
import AppExport.Proofs.Json.Passing.Soundness

namespace AppExport.Json

open Decimal (isDigit)
open Text (Glyph)

variable {rest : List Glyph}

/-! ## Beginnings of values -/

/-- What may stand at the beginning of a value: no blank, no comma and no closing bracket. -/
def isOpening (g : Glyph) : Bool :=
  !Cursor.isBlank g && g != .char ',' && g != .char ']' && g != .char '\x7d'

theorem isOpening_eq_true {g : Glyph} : isOpening g = true ↔ Cursor.isBlank g = false ∧
    g ≠ .char ',' ∧ g ≠ .char ']' ∧ g ≠ .char '\x7d' := by
  simp [isOpening, and_assoc]

theorem isBlank_of_isOpening {g : Glyph} (h : isOpening g = true) : Cursor.isBlank g = false := by
  exact (isOpening_eq_true.1 h).1

theorem isOpening_of_digit {g : Glyph} (h : g.digit?.isSome = true) : isOpening g = true := by
  cases g with
  | stray byte => cases h
  | char c =>
    have hne : ∀ x : Char, isDigit x = false → c ≠ x :=
      fun _ hx hc => ne_of_digit h hx (congrArg _ hc)
    simp [isOpening, Cursor.isBlank, hne ' ' (by decide), hne '\n' (by decide),
      hne '\t' (by decide), hne '\r' (by decide), hne ',' (by decide), hne ']' (by decide),
      hne '\x7d' (by decide)]

theorem IsNatural.exists_cons {gs : List Glyph} (h : IsNatural gs) :
    ∃ g rest, gs = g :: rest ∧ g.digit?.isSome = true := by
  obtain ⟨hwhole, -⟩ := h
  cases hwhole with
  | zero => exact ⟨_, _, rfl, by decide⟩
  | digits hds =>
    obtain ⟨g, gs, rfl, hg⟩ := hds.exists_cons
    exact ⟨g, _, rfl, hg⟩

theorem IsPart.exists_cons {v : List Glyph} (h : IsValue v) :
    ∃ g gs, v = g :: gs ∧ isOpening g = true := by
  cases h with
  | word h =>
    simp only [List.mem_cons, List.not_mem_nil, or_false] at h
    rcases h with rfl | rfl | rfl <;> exact ⟨_, _, rfl, by decide⟩
  | natural h =>
    obtain ⟨g, gs, rfl, hg⟩ := h.exists_cons
    exact ⟨g, gs, rfl, isOpening_of_digit hg⟩
  | negative h | text h | list h | object h => exact ⟨_, _, rfl, by decide⟩

theorem skipStart_natural {v : List Glyph} (h : IsNatural v) (hrest : Ends rest)
    (offset : Nat) : ∃ offset', skipStart ⟨v ++ rest, offset⟩ = .ok (none, ⟨rest, offset'⟩) := by
  obtain ⟨offset', hskip⟩ := skipNumber_complete h hrest offset
  obtain ⟨g, gs, rfl, hg⟩ := h.exists_cons
  have hne : ∀ x : Char, isDigit x = false → g ≠ .char x := fun _ => ne_of_digit hg
  rw [List.cons_append] at hskip ⊢
  simp only [skipStart, hne 'n' (by decide), hne 't' (by decide), hne 'f' (by decide),
    hne '-' (by decide), hg, if_true, if_false, hskip]
  exact ⟨offset', rfl⟩

theorem skipStart_negative {v : List Glyph} (h : IsNatural v) (hrest : Ends rest)
    (offset : Nat) :
    ∃ offset', skipStart ⟨.char '-' :: v ++ rest, offset⟩ = .ok (none, ⟨rest, offset'⟩) := by
  obtain ⟨offset', hskip⟩ := skipNumber_complete h hrest (offset + (Glyph.char '-').size)
  have hstart : skipStart ⟨.char '-' :: v ++ rest, offset⟩ =
      (skipNumber ⟨v ++ rest, offset + (Glyph.char '-').size⟩).map (none, ·) := rfl
  rw [hstart, hskip]
  exact ⟨offset', rfl⟩

theorem skipStart_text {v : List Glyph} (h : IsQuoted v) (rest : List Glyph) (offset : Nat) :
    ∃ offset', skipStart ⟨.char '"' :: v ++ rest, offset⟩ = .ok (none, ⟨rest, offset'⟩) := by
  have hrounds : v.length ≤ (v ++ rest).length := by simp
  obtain ⟨offset', hskip⟩ := skipText_complete h rest hrounds (offset + (Glyph.char '"').size)
  have hstart : skipStart ⟨.char '"' :: v ++ rest, offset⟩ =
      (skipText (v ++ rest).length ⟨v ++ rest, offset + (Glyph.char '"').size⟩).map (none, ·) := rfl
  rw [hstart, hskip]
  exact ⟨offset', rfl⟩

theorem skipStart_word {letters : String} (h : letters ∈ ["null", "true", "false"])
    (rest : List Glyph) (offset : Nat) :
    ∃ offset', skipStart ⟨letters.toList.map .char ++ rest, offset⟩ = .ok (none, ⟨rest, offset'⟩) := by
  have hread : ∀ (letter : Char) (letters : List Char),
      (∀ gs offset, skipStart ⟨.char letter :: gs, offset⟩ =
        (word letters ⟨gs, offset + letter.utf8Size⟩).map (none, ·.2)) →
      ∃ offset', skipStart ⟨(letter :: letters).map .char ++ rest, offset⟩ =
        .ok (none, ⟨rest, offset'⟩) := by
    intro letter letters hstart
    obtain ⟨offset', hword⟩ := word_append letters rest (offset + letter.utf8Size)
    refine ⟨offset', ?_⟩
    rw [List.map_cons, List.cons_append, hstart, hword]
    rfl
  simp only [List.mem_cons, List.not_mem_nil, or_false] at h
  rcases h with rfl | rfl | rfl
  · exact hread 'n' ['u', 'l', 'l'] fun _ _ => rfl
  · exact hread 't' ['r', 'u', 'e'] fun _ _ => rfl
  · exact hread 'f' ['a', 'l', 's', 'e'] fun _ _ => rfl

theorem skipStart_opening (b : Bracket) (rest : List Glyph) (offset : Nat) :
    ∃ offset', skipStart ⟨.char b.opening :: rest, offset⟩ = .ok (some b, ⟨rest, offset'⟩) := by
  cases b <;> exact ⟨_, rfl⟩

theorem skipKey_complete {before key between : List Glyph} (hbefore : Blanks before)
    (hkey : IsQuoted key) (hbetween : Blanks between) (rest : List Glyph) (offset : Nat) :
    Reaches (skipKey ⟨before ++ .char '"' :: key ++ (between ++ .char ':' :: rest), offset⟩) rest := by
  have hquote : Solid (.char '"' :: (key ++ (between ++ .char ':' :: rest))) :=
    solid_cons.2 (by decide)
  have hcolon : Solid (.char ':' :: rest) := solid_cons.2 (by decide)
  have hrounds : key.length ≤ (key ++ (between ++ .char ':' :: rest)).length := by simp
  obtain ⟨offset', hskip⟩ := skipText_complete hkey (between ++ .char ':' :: rest) hrounds
    (offset + before.length + (Glyph.char '"').size)
  rw [List.append_assoc, List.cons_append, skipKey, Cursor.skipBlanks_append hbefore hquote]
  simp only [Cursor.next_cons, if_true, hskip, bind, Except.bind]
  rw [Cursor.skipBlanks_append hbetween hcolon]
  simp only [if_true]
  exact ⟨_, rfl⟩

/-! ## Whatever is open -/

/-- What is done behind a value, or behind a bracket that has just been opened. -/
def skipBehind (rounds : Nat) (opened : Bool) (brackets : List Bracket) (c : Cursor) :
    Except Fault Cursor := do
  let (brackets, c) ← skipClosings opened brackets c
  match brackets with
  | [] => .ok c
  | .list :: _ => skipFrom rounds brackets c
  | .object :: _ => skipFrom rounds brackets (← skipKey c)

theorem skipFrom_succ (rounds : Nat) (brackets : List Bracket) (c : Cursor) :
    skipFrom (rounds + 1) brackets c = skipStart c.skipBlanks >>= fun start =>
      skipBehind rounds start.1.isSome (start.1.toList ++ brackets) start.2 := rfl

/-- Whether a text is passed over up to `rest`, whatever the offset. -/
def Passes (skip : Cursor → Except Fault Cursor) (text rest : List Glyph) : Prop :=
  ∀ offset, Reaches (skip ⟨text, offset⟩) rest

theorem skipClosings_closing (b : Bracket) (first : Bool) (outer : List Bracket)
    {blanks : List Glyph} (hblanks : Blanks blanks) (rest : List Glyph) (offset : Nat) :
    ∃ offset', skipClosings first (b :: outer) ⟨blanks ++ .char b.closing :: rest, offset⟩ =
      skipClosings false outer ⟨rest, offset'⟩ := by
  have hsolid : Solid (.char b.closing :: rest) := solid_cons.2 (by cases b <;> decide)
  have hcomma : ¬(Glyph.char b.closing = .char ',' ∧ ¬first) := by cases b <;> simp [Bracket.closing]
  rw [skipClosings, Cursor.skipBlanks_append hblanks hsolid]
  simp only [if_neg hcomma, if_true]
  exact ⟨_, rfl⟩

/-- With a comma where one is due, the next item or entry is what comes next. -/
theorem skipClosings_comma {b : Bracket} {first : Bool} (outer : List Bracket)
    {comma blanks : List Glyph} (hcomma : IsComma first comma) (hblanks : Blanks blanks) {g : Glyph}
    (hsolid : Cursor.isBlank g = false) (hclosing : g ≠ .char b.closing) (hg : g ≠ .char ',')
    (gs : List Glyph) (offset : Nat) :
    ∃ blanks' offset', Blanks blanks' ∧
      skipClosings first (b :: outer) ⟨comma ++ (blanks ++ g :: gs), offset⟩ =
        .ok (b :: outer, ⟨blanks' ++ g :: gs, offset'⟩) := by
  cases hcomma with
  | first =>
    refine ⟨[], offset + blanks.length, fun _ h => absurd h List.not_mem_nil, ?_⟩
    rw [List.nil_append, skipClosings, Cursor.skipBlanks_append hblanks (solid_cons.2 hsolid)]
    simp [hg, hclosing]
  | @next before hbefore =>
    refine ⟨blanks, offset + before.length + (Glyph.char ',').size, hblanks, ?_⟩
    have hsolid : Solid (.char ',' :: (blanks ++ g :: gs)) := solid_cons.2 (by decide)
    rw [List.append_assoc, List.singleton_append, skipClosings,
      Cursor.skipBlanks_append hbefore hsolid]
    simp only [Bool.false_eq_true, not_false_eq_true, and_self, if_true]
    rfl

/-- A value is passed over whatever is open and whatever follows, as long as what is done behind it
succeeds. -/
def PassedValue (v : List Glyph) : Prop :=
  ∀ ⦃rounds brackets blanks text rest⦄, Blanks blanks → Ends text →
    (∀ r, rounds ≤ r → Passes (skipBehind r false brackets) text rest) →
    ∀ r, rounds + v.length ≤ r → Passes (skipFrom r brackets) (blanks ++ v ++ text) rest

/-- The same for what stands within a bracket. -/
def PassedWithin (b : Bracket) (first : Bool) (gs : List Glyph) : Prop :=
  ∀ ⦃rounds brackets text rest⦄,
    (∀ r, rounds ≤ r → Passes (skipBehind r false brackets) text rest) →
    ∀ r, rounds + gs.length ≤ r → Passes (skipBehind r first (b :: brackets)) (gs ++ text) rest

def Part.Passed : Part → List Glyph → Prop
  | value => PassedValue
  | items first => PassedWithin .list first
  | entries first => PassedWithin .object first

theorem passedValue_scalar {v : List Glyph} (hv : IsValue v)
    (hstart : ∀ text, Ends text → ∀ offset,
      ∃ offset', skipStart ⟨v ++ text, offset⟩ = .ok (none, ⟨text, offset'⟩)) : PassedValue v := by
  intro rounds brackets blanks text rest hblanks htext hbehind r hr offset
  obtain ⟨g, gs, rfl, hg⟩ := hv.exists_cons
  obtain ⟨r, rfl⟩ := Nat.exists_eq_succ_of_ne_zero (n := r) (by simp at hr; omega)
  obtain ⟨offset', hskip⟩ := hstart text htext (offset + blanks.length)
  have hsolid : Solid (g :: gs ++ text) := solid_cons.2 (isBlank_of_isOpening hg)
  rw [skipFrom_succ, List.append_assoc, Cursor.skipBlanks_append hblanks hsolid, hskip]
  exact hbehind r (by simp at hr; omega) offset'

theorem passedValue_bracketed {b : Bracket} {gs : List Glyph} (h : PassedWithin b true gs) :
    PassedValue (.char b.opening :: gs) := by
  intro rounds brackets blanks text rest hblanks _ hbehind r hr offset
  obtain ⟨r, rfl⟩ := Nat.exists_eq_succ_of_ne_zero (n := r) (by simp at hr; omega)
  obtain ⟨offset', hskip⟩ := skipStart_opening b (gs ++ text) (offset + blanks.length)
  have hsolid : Solid (.char b.opening :: gs ++ text) := solid_cons.2 (by cases b <;> decide)
  rw [skipFrom_succ, List.append_assoc, Cursor.skipBlanks_append hblanks hsolid, List.cons_append,
    hskip]
  exact h hbehind r (by simp at hr; omega) offset'

theorem passedWithin_closing (b : Bracket) (first : Bool) {blanks : List Glyph}
    (hblanks : Blanks blanks) : PassedWithin b first (blanks ++ [.char b.closing]) := by
  intro rounds brackets text rest hbehind r hr offset
  obtain ⟨offset', hskip⟩ := skipClosings_closing b first brackets hblanks text offset
  rw [List.append_assoc, List.singleton_append, skipBehind, hskip]
  exact hbehind r (by omega) offset'

/-- Behind an item or an entry, nothing continues a number. -/
theorem IsPart.ends {b : Bracket} {gs : List Glyph} (h : IsPart (b.part false) gs)
    (text : List Glyph) : Ends (gs ++ text) := by
  have hclosing : ∀ {blanks : List Glyph} {x : Char} {more : List Glyph}, Blanks blanks →
      continuesNumber x = false → Ends (blanks ++ .char x :: more) :=
    fun hblanks hx => .append hblanks (ends_cons.2 hx)
  cases b with
  | list =>
    cases h with
    | noItem hblanks =>
      rw [List.append_assoc]
      exact hclosing hblanks (by decide)
    | item hcomma =>
      cases hcomma with
      | next hblanks =>
        simp only [List.append_assoc]
        exact hclosing hblanks (by decide)
  | object =>
    cases h with
    | noEntry hblanks =>
      rw [List.append_assoc]
      exact hclosing hblanks (by decide)
    | entry hcomma =>
      cases hcomma with
      | next hblanks =>
        simp only [List.append_assoc]
        exact hclosing hblanks (by decide)

theorem passedWithin_item {first : Bool} {comma blanks v gs : List Glyph}
    (hcomma : IsComma first comma) (hblanks : Blanks blanks) (hv : IsValue v)
    (hgs : IsPart (.items false) gs) (hpassed : PassedValue v) (h : PassedWithin .list false gs) :
    PassedWithin .list first (comma ++ (blanks ++ v) ++ gs) := by
  intro rounds brackets text rest hbehind r hr offset
  obtain ⟨g, vs, rfl, hg⟩ := hv.exists_cons
  obtain ⟨hblank, hne, hclosing, -⟩ := isOpening_eq_true.1 hg
  obtain ⟨blanks', offset', hblanks', hskip⟩ := skipClosings_comma (b := .list) brackets hcomma
    hblanks hblank hclosing hne (vs ++ (gs ++ text)) offset
  have htext : comma ++ (blanks ++ g :: vs) ++ gs ++ text =
      comma ++ (blanks ++ g :: (vs ++ (gs ++ text))) := by simp
  rw [htext, skipBehind, hskip]
  have hrounds : rounds + gs.length + (g :: vs).length ≤ r := by
    simp only [List.length_append, List.length_cons] at hr ⊢
    omega
  have hall := hpassed hblanks' (hgs.ends (b := .list) text) (h hbehind) r hrounds offset'
  rwa [List.append_assoc] at hall

theorem passedWithin_entry {first : Bool} {comma before key between blanks v gs : List Glyph}
    (hcomma : IsComma first comma) (hbefore : Blanks before) (hkey : IsQuoted key)
    (hbetween : Blanks between) (hblanks : Blanks blanks)
    (hgs : IsPart (.entries false) gs) (hpassed : PassedValue v) (h : PassedWithin .object false gs) :
    PassedWithin .object first
      (comma ++ (before ++ .char '"' :: key) ++ (between ++ .char ':' :: (blanks ++ v)) ++ gs) := by
  intro rounds brackets text rest hbehind r hr offset
  obtain ⟨before', offset₁, hbefore', hskip⟩ := skipClosings_comma (b := .object) brackets hcomma
    hbefore (g := .char '"') (by decide) (by decide) (by decide)
    (key ++ (between ++ .char ':' :: (blanks ++ v ++ (gs ++ text)))) offset
  obtain ⟨offset₂, hread⟩ := skipKey_complete hbefore' hkey hbetween (blanks ++ v ++ (gs ++ text))
    offset₁
  have htext : comma ++ (before ++ .char '"' :: key) ++ (between ++ .char ':' :: (blanks ++ v)) ++
      gs ++ text = comma ++ (before ++ .char '"' ::
        (key ++ (between ++ .char ':' :: (blanks ++ v ++ (gs ++ text))))) := by simp
  have hrounds : rounds + gs.length + v.length ≤ r := by
    simp only [List.length_append, List.length_cons] at hr
    omega
  rw [List.append_assoc, List.cons_append] at hread
  rw [htext, skipBehind, hskip]
  simp only [bind, Except.bind, hread]
  exact hpassed hblanks (hgs.ends (b := .object) text) (h hbehind) r hrounds offset₂

theorem IsPart.passed {p : Part} {gs : List Glyph} (h : IsPart p gs) : p.Passed gs := by
  induction h with
  | word h => exact passedValue_scalar (.word h) fun text _ offset => skipStart_word h text offset
  | natural h => exact passedValue_scalar (.natural h) fun _ => skipStart_natural h
  | negative h => exact passedValue_scalar (.negative h) fun _ => skipStart_negative h
  | text h => exact passedValue_scalar (.text h) fun text _ offset => skipStart_text h text offset
  | list _ ih => exact passedValue_bracketed (b := .list) ih
  | object _ ih => exact passedValue_bracketed (b := .object) ih
  | noItem hblanks => exact passedWithin_closing .list _ hblanks
  | item hcomma hblanks hv hgs ihv ih => exact passedWithin_item hcomma hblanks hv hgs ihv ih
  | noEntry hblanks => exact passedWithin_closing .object _ hblanks
  | entry hcomma hbefore hkey hbetween hblanks hv hgs ihv ih =>
    exact passedWithin_entry hcomma hbefore hkey hbetween hblanks hgs ihv ih

/-! ## Passing over a value -/

/-- Passing over a value, as a reader that makes nothing of it. -/
def passing : Reader Unit := fun c => (skipValue c).map ((), ·)

theorem skipValue_complete {v rest : List Glyph} (h : IsSpaced v) (hrest : Ends rest) :
    Passes skipValue (v ++ rest) rest := by
  obtain ⟨blanks, v, rfl, hblanks, hv⟩ := h
  intro offset
  have hpassed : PassedValue v := hv.passed
  refine hpassed hblanks hrest (fun r (_ : 0 ≤ r) offset => ⟨offset, rfl⟩) _ ?_ offset
  simp only [List.length_append]
  omega

theorem exact_passing : Exact passing IsSpaced := by
  intro c a behind h _
  obtain ⟨c', hskip, hread⟩ := map_eq_ok_iff.1 h
  cases hread
  obtain ⟨v, ts, hc, hv, hcloses⟩ := skipFrom_sound hskip
  cases hcloses
  rw [List.append_nil] at hc
  refine ⟨v, hc, hv, fun rest hrest offset => ?_⟩
  obtain ⟨offset', hagain⟩ := skipValue_complete hv hrest offset
  exact ⟨offset', by rw [passing, hagain]; rfl⟩

end AppExport.Json
