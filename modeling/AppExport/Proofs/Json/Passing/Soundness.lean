/-
What is passed over is what the grammar calls a value. The loop that passes over one keeps the
brackets that are open on a stack; `Closes` says what the stack still wants of the text, and every
run that succeeds finds it there.
-/
import AppExport.Proofs.Json.Passing.Token

namespace AppExport.Json

open Text (Glyph)

/-! ## Parts of values -/

namespace Bracket

def opening : Bracket → Char
  | list => '['
  | object => '\x7b'

/-- What stands within brackets. -/
def part (first : Bool) : Bracket → Part
  | list => .items first
  | object => .entries first

end Bracket

theorem IsPart.bracketed {b : Bracket} {gs : List Glyph} (h : IsPart (b.part true) gs) :
    IsValue (.char b.opening :: gs) := by
  cases b with
  | list => exact .list h
  | object => exact .object h

theorem IsPart.closing (b : Bracket) (first : Bool) {blanks : List Glyph} (h : Blanks blanks) :
    IsPart (b.part first) (blanks ++ [.char b.closing]) := by
  cases b with
  | list => exact .noItem h
  | object => exact .noEntry h

theorem isValue_word {letter : Char} {letters : List Char}
    (h : String.ofList (letter :: letters) ∈ ["null", "true", "false"]) :
    IsValue (.char letter :: letters.map .char) := by
  have hword := IsPart.word h
  rwa [String.toList_ofList] at hword

/-- What is left of a text behind a word whose first letter is `g`. -/
theorem exists_word {g : Glyph} {gs : List Glyph} {letter : Char} {letters : List Char} {offset : Nat}
    {opened : Option Bracket} {behind : Cursor} (hg : g = .char letter)
    (h : (word letters ⟨gs, offset⟩).map (none, ·.2) = .ok (opened, behind))
    (hword : String.ofList (letter :: letters) ∈ ["null", "true", "false"]) :
    opened = none ∧ ∃ taken, g :: gs = taken ++ behind.rest ∧ IsValue taken := by
  obtain ⟨⟨_, _⟩, hread, hopened⟩ := map_eq_ok_iff.1 h
  cases hopened
  exact ⟨rfl, _, by rw [hg]; exact congrArg _ (rest_of_word hread), isValue_word hword⟩

theorem map_none_eq_ok {skip : Except Fault Cursor} {opened : Option Bracket} {behind : Cursor}
    (h : skip.map (none, ·) = .ok (opened, behind)) : opened = none ∧ skip = .ok behind := by
  obtain ⟨c, hskip, hopened⟩ := map_eq_ok_iff.1 h
  cases hopened
  exact ⟨rfl, hskip⟩

theorem skipStart_sound {c behind : Cursor} {opened : Option Bracket}
    (h : skipStart c = .ok (opened, behind)) :
    (opened = none ∧ ∃ taken, c.rest = taken ++ behind.rest ∧ IsValue taken) ∨
      ∃ bracket, opened = some bracket ∧ c.rest = .char bracket.opening :: behind.rest := by
  obtain ⟨text, offset⟩ := c
  cases text with
  | nil => cases h
  | cons g gs =>
    simp only [skipStart] at h
    split at h
    next hg => exact .inl (exists_word hg h (by decide))
    split at h
    next hg => exact .inl (exists_word hg h (by decide))
    split at h
    next hg => exact .inl (exists_word hg h (by decide))
    split at h
    next hg =>
      obtain ⟨rfl, hskip⟩ := map_none_eq_ok h
      obtain ⟨taken, hgs, hnatural⟩ := skipNumber_sound hskip
      exact .inl ⟨rfl, g :: taken, congrArg _ hgs, hg ▸ .negative hnatural⟩
    split at h
    next hg =>
      obtain ⟨rfl, hskip⟩ := map_none_eq_ok h
      obtain ⟨taken, hgs, hnatural⟩ := skipNumber_sound hskip
      exact .inl ⟨rfl, taken, hgs, .natural hnatural⟩
    split at h
    next hg =>
      obtain ⟨rfl, hskip⟩ := map_none_eq_ok h
      obtain ⟨taken, hgs, hquoted⟩ := skipText_sound hskip
      exact .inl ⟨rfl, g :: taken, congrArg _ hgs, hg ▸ .text hquoted⟩
    split at h
    next hg =>
      cases h
      exact .inr ⟨.list, rfl, by rw [hg]; rfl⟩
    split at h
    next hg =>
      cases h
      exact .inr ⟨.object, rfl, by rw [hg]; rfl⟩
    next => cases h

theorem skipKey_sound {c behind : Cursor} (h : skipKey c = .ok behind) :
    ∃ before key between, c.rest = before ++ .char '"' :: key ++ (between ++ .char ':' :: behind.rest) ∧
      Blanks before ∧ IsQuoted key ∧ Blanks between := by
  obtain ⟨before, hbefore, hc, -⟩ := c.exists_blanks
  simp only [skipKey] at h
  split at h
  next => cases h
  next g gs hgs =>
    split at h
    next hg =>
      obtain ⟨c', hkey, h⟩ := bind_eq_ok_iff.1 h
      obtain ⟨key, hnext, hquoted⟩ := skipText_sound hkey
      obtain ⟨between, hbetween, hc', -⟩ := c'.exists_blanks
      split at h
      next => cases h
      next x xs hxs =>
        split at h
        next hx =>
          cases h
          refine ⟨before, key, between, ?_, hbefore, hquoted, hbetween⟩
          have hbody : c.skipBlanks.next.rest = gs := by rw [Cursor.next, hgs]
          have hrest : c'.skipBlanks.next.rest = xs := by rw [Cursor.next, hxs]
          rw [hc, hgs, hg, ← hbody, hnext, hc', hxs, hx, hrest, List.append_assoc, List.cons_append]
        next => cases h
    next => cases h

/-! ## Open brackets -/

/-- What is still due of a text after a value for each of the open brackets to be closed; `opened`
tells that the innermost one has no items yet. -/
inductive Closes : Bool → List Bracket → List Glyph → Prop
  | nil (opened : Bool) : Closes opened [] []
  | cons {opened : Bool} {b : Bracket} {outer : List Bracket} {gs ts : List Glyph}
    (h : IsPart (b.part opened) gs) (houter : Closes false outer ts) :
    Closes opened (b :: outer) (gs ++ ts)

theorem Closes.exists_part {opened : Bool} {b : Bracket} {outer : List Bracket} {ts : List Glyph}
    (h : Closes opened (b :: outer) ts) : ∃ gs ts', ts = gs ++ ts' ∧ IsPart (b.part opened) gs ∧
      Closes false outer ts' := by
  cases h with
  | cons h houter => exact ⟨_, _, rfl, h, houter⟩

/-- What is due before the next value, if some bracket is open, and from there on. -/
inductive Follows : List Bracket → List Glyph → Prop
  | nil : Follows [] []
  | item {outer : List Bracket} {blanks v ts : List Glyph} (hblanks : Blanks blanks) (hv : IsValue v)
    (h : Closes false (.list :: outer) ts) : Follows (.list :: outer) (blanks ++ v ++ ts)
  | entry {outer : List Bracket} {before key between blanks v ts : List Glyph}
    (hbefore : Blanks before) (hkey : IsQuoted key) (hbetween : Blanks between)
    (hblanks : Blanks blanks) (hv : IsValue v) (h : Closes false (.object :: outer) ts) :
    Follows (.object :: outer)
      (before ++ .char '"' :: key ++ (between ++ .char ':' :: (blanks ++ v)) ++ ts)

theorem Blanks.append {first second : List Glyph} (h : Blanks first) (h' : Blanks second) :
    Blanks (first ++ second) := by
  intro g hg
  exact (List.mem_append.1 hg).elim (h g) (h' g)

/-- What follows belongs to the innermost bracket, with the blanks or the comma before it. -/
theorem Follows.closes {brackets : List Bracket} {blanks ts : List Glyph} (h : Follows brackets ts)
    (hne : brackets ≠ []) (hblanks : Blanks blanks) :
    Closes true brackets (blanks ++ ts) ∧ Closes false brackets (blanks ++ .char ',' :: ts) := by
  cases h with
  | nil => exact absurd rfl hne
  | item hbetween hv h =>
    obtain ⟨gs, ts, rfl, hpart, houter⟩ := h.exists_part
    have hfirst := Closes.cons (b := .list) (.item .first (hblanks.append hbetween) hv hpart) houter
    have hnext := Closes.cons (b := .list) (.item (.next hblanks) hbetween hv hpart) houter
    exact ⟨by simpa using hfirst, by simpa using hnext⟩
  | entry hbefore hkey hbetween hbehind hv h =>
    obtain ⟨gs, ts, rfl, hpart, houter⟩ := h.exists_part
    have hfirst := Closes.cons (b := .object)
      (.entry .first (hblanks.append hbefore) hkey hbetween hbehind hv hpart) houter
    have hnext := Closes.cons (b := .object)
      (.entry (.next hblanks) hbefore hkey hbetween hbehind hv hpart) houter
    exact ⟨by simpa using hfirst, by simpa using hnext⟩

theorem skipClosings_sound {opened : Bool} {brackets left : List Bracket} {c behind : Cursor}
    (h : skipClosings opened brackets c = .ok (left, behind)) :
    ∃ taken, c.rest = taken ++ behind.rest ∧
      ∀ ts, Follows left ts → Closes opened brackets (taken ++ ts) := by
  induction brackets generalizing opened c with
  | nil =>
    cases h
    refine ⟨[], rfl, fun ts hts => ?_⟩
    cases hts
    exact .nil opened
  | cons b outer ih =>
    obtain ⟨blanks, hblanks, hc, -⟩ := c.exists_blanks
    simp only [skipClosings] at h
    split at h
    next => cases h
    next g gs hgs =>
      have hnext : c.skipBlanks.next.rest = gs := by rw [Cursor.next, hgs]
      split at h
      next hcomma =>
        cases h
        refine ⟨blanks ++ [g], by rw [hc, hgs, hnext]; simp, fun ts hts => ?_⟩
        obtain ⟨rfl, hopened⟩ := hcomma
        rw [Bool.eq_false_iff.2 hopened]
        simpa using (hts.closes (List.cons_ne_nil _ _) hblanks).2
      split at h
      next hclosing =>
        subst hclosing
        obtain ⟨taken, htaken, hcloses⟩ := ih h
        refine ⟨blanks ++ [.char b.closing] ++ taken, ?_, fun ts hts => ?_⟩
        · rw [hc, hgs, ← hnext, htaken]
          simp
        · rw [List.append_assoc]
          exact .cons (.closing b opened hblanks) (hcloses ts hts)
      split at h
      next hopened =>
        cases h
        refine ⟨blanks, hc, fun ts hts => ?_⟩
        rw [hopened]
        exact (hts.closes (List.cons_ne_nil _ _) hblanks).1
      next => cases h

theorem skipFrom_sound {rounds : Nat} {brackets : List Bracket} {c behind : Cursor}
    (h : skipFrom rounds brackets c = .ok behind) :
    ∃ v ts, c.rest = v ++ ts ++ behind.rest ∧ IsSpaced v ∧ Closes false brackets ts := by
  induction rounds generalizing brackets c with
  | zero => cases h
  | succ rounds ih =>
    obtain ⟨blanks, hblanks, hc, -⟩ := c.exists_blanks
    obtain ⟨⟨opened, c₁⟩, hstart, h⟩ := bind_eq_ok_iff.1 h
    obtain ⟨⟨left, c₂⟩, hclosings, h⟩ := bind_eq_ok_iff.1 h
    obtain ⟨taken, htaken, hcloses⟩ := skipClosings_sound hclosings
    -- where brackets are left open, the next round passes over what follows
    obtain ⟨ts, hc₂, hfollows⟩ : ∃ ts, c₂.rest = ts ++ behind.rest ∧ Follows left ts := by
      match left, h with
      | [], h =>
        cases h
        exact ⟨[], rfl, .nil⟩
      | .list :: _, h =>
        obtain ⟨v, ts, hv, ⟨blanks, v, rfl, hblanks, hvalue⟩, hts⟩ := ih h
        exact ⟨_, hv, .item hblanks hvalue hts⟩
      | .object :: _, h =>
        obtain ⟨c₃, hkey, h⟩ := bind_eq_ok_iff.1 h
        obtain ⟨before, key, between, hc₃, hbefore, hquoted, hbetween⟩ := skipKey_sound hkey
        obtain ⟨v, ts, hv, ⟨blanks, v, rfl, hblanks, hvalue⟩, hts⟩ := ih h
        refine ⟨_, ?_, .entry hbefore hquoted hbetween hblanks hvalue hts⟩
        rw [hc₃, hv]
        simp
    have hclosed := hcloses ts hfollows
    have hrest : c₁.rest = taken ++ ts ++ behind.rest := by rw [htaken, hc₂, List.append_assoc]
    rcases skipStart_sound hstart with ⟨rfl, v, hv, hvalue⟩ | ⟨b, rfl, hb⟩
    · refine ⟨blanks ++ v, taken ++ ts, ?_, ⟨blanks, v, rfl, hblanks, hvalue⟩, hclosed⟩
      rw [hc, hv, hrest]
      simp
    · obtain ⟨gs, ts', hts', hpart, houter⟩ := hclosed.exists_part
      refine ⟨blanks ++ .char b.opening :: gs, ts', ?_, ⟨blanks, _, rfl, hblanks, hpart.bracketed⟩,
        houter⟩
      rw [hc, hb, hrest, hts']
      simp

end AppExport.Json
