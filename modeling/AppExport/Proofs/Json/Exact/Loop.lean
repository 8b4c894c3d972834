/-
The loops over items and entries are exact if what they call is. Each round takes an item or an entry
with what stands before it, so as many rounds as there are glyphs are enough wherever the text stands.
-/
import AppExport.Proofs.Json.Passing.Completeness

namespace AppExport.Json

open Text (Glyph)

variable {α β σ : Type}

theorem IsSpaced.value_of_solid {taken rest : List Glyph} (h : IsSpaced taken)
    (hsolid : Solid (taken ++ rest)) : IsValue taken := by
  obtain ⟨blanks, v, rfl, hblanks, hv⟩ := h
  cases blanks with
  | nil => exact hv
  | cons g gs =>
    have hblank := hblanks g List.mem_cons_self
    rw [solid_cons.1 hsolid] at hblank
    cases hblank

/-! ## Items -/

theorem nextItem_sound {first : Bool} {c next behind : Cursor}
    (h : nextItem first c = .ok (some next, behind)) :
    ∃ comma blanks, IsComma first comma ∧ Blanks blanks ∧ c.rest = comma ++ (blanks ++ next.rest) ∧
      Solid next.rest ∧ next.rest.head? ≠ some (.char ']') := by
  obtain ⟨blanks, hblanks, hc, hsolid⟩ := c.exists_blanks
  simp only [nextItem] at h
  split at h
  next => cases h
  next g gs hgs =>
    split at h
    next => cases h
    next hclosing =>
      split at h
      next hfirst =>
        cases h
        subst hfirst
        refine ⟨[], blanks, .first, hblanks, hc, hsolid, ?_⟩
        rw [hgs]
        simpa using hclosing
      next hfirst =>
        split at h
        next hcomma =>
          obtain ⟨blanks', hblanks', hc', hsolid'⟩ := c.skipBlanks.next.exists_blanks
          split at h
          next => cases h
          next x xs hxs =>
            split at h
            next => cases h
            next hx =>
              cases h
              rw [Bool.eq_false_iff.2 hfirst]
              refine ⟨blanks ++ [.char ','], blanks', .next hblanks, hblanks', ?_, hsolid', ?_⟩
              · rw [hc, ← hc', Cursor.next, hgs, hcomma]
                simp
              · rw [hxs]
                simpa using hx
        next => cases h

theorem nextItem_end_sound {first : Bool} {c behind : Cursor}
    (h : nextItem first c = .ok (none, behind)) :
    ∃ blanks rest, Blanks blanks ∧ c.rest = blanks ++ behind.rest ∧ behind.rest = .char ']' :: rest := by
  obtain ⟨blanks, hblanks, hc, -⟩ := c.exists_blanks
  simp only [nextItem] at h
  split at h
  next => cases h
  next g gs hgs =>
    split at h
    next hclosing =>
      cases h
      exact ⟨blanks, gs, hblanks, hc, by rw [hgs, hclosing]⟩
    next =>
      split at h
      next => cases h
      next =>
        split at h
        next =>
          split at h
          next => cases h
          next => split at h <;> cases h
        next => cases h

theorem nextItem_append {first : Bool} {comma blanks text : List Glyph}
    (hcomma : IsComma first comma) (hblanks : Blanks blanks) (hsolid : Solid text)
    (hne : text ≠ []) (hclosing : text.head? ≠ some (.char ']')) (offset : Nat) :
    ∃ offset' behind, nextItem first ⟨comma ++ (blanks ++ text), offset⟩ =
      .ok (some ⟨text, offset'⟩, behind) := by
  obtain ⟨g, gs, rfl⟩ := List.exists_cons_of_ne_nil hne
  have hg : g ≠ .char ']' := by simpa using hclosing
  cases hcomma with
  | first =>
    rw [List.nil_append, nextItem, Cursor.skipBlanks_append hblanks hsolid]
    simp only [if_neg hg, if_true]
    exact ⟨_, _, rfl⟩
  | @next before hbefore =>
    have hsolid' : Solid (.char ',' :: (blanks ++ g :: gs)) := solid_cons.2 (by decide)
    have hcomma : Glyph.char ',' ≠ .char ']' := by decide
    rw [List.append_assoc, List.singleton_append, nextItem,
      Cursor.skipBlanks_append hbefore hsolid']
    simp only [if_neg hcomma, Bool.false_eq_true, if_false, if_true, Cursor.next_cons]
    rw [Cursor.skipBlanks_append hblanks hsolid]
    simp only [if_neg hg]
    exact ⟨_, _, rfl⟩

theorem nextItem_end_append (first : Bool) {blanks : List Glyph} (hblanks : Blanks blanks)
    (rest : List Glyph) (offset : Nat) :
    ∃ offset', nextItem first ⟨blanks ++ .char ']' :: rest, offset⟩ =
      .ok (none, ⟨.char ']' :: rest, offset'⟩) := by
  have hsolid : Solid (.char ']' :: rest) := solid_cons.2 (by decide)
  rw [nextItem, Cursor.skipBlanks_append hblanks hsolid]
  exact ⟨_, rfl⟩

/-- Where an item is due, it comes next. -/
theorem nextItem_value {first : Bool} {comma blanks v : List Glyph} (hcomma : IsComma first comma)
    (hblanks : Blanks blanks) (hv : IsValue v) (text : List Glyph) (offset : Nat) :
    ∃ offset' behind, nextItem first ⟨comma ++ (blanks ++ v) ++ text, offset⟩ =
      .ok (some ⟨v ++ text, offset'⟩, behind) := by
  obtain ⟨g, vs, rfl, hg⟩ := hv.exists_cons
  obtain ⟨hblank, -, hbracket, -⟩ := isOpening_eq_true.1 hg
  have hsolid : Solid (g :: vs ++ text) := solid_cons.2 hblank
  have htext : comma ++ (blanks ++ g :: vs) ++ text = comma ++ (blanks ++ (g :: vs ++ text)) := by
    simp
  rw [htext]
  exact nextItem_append hcomma hblanks hsolid (List.cons_ne_nil _ _) (by simpa using hbracket) offset

/-- The round that reads the closing bracket. -/
theorem yields_noItem (item : Reader α) (rounds : Nat) (first : Bool) {blanks : List Glyph}
    (hblanks : Blanks blanks) (rest : List Glyph) :
    Yields (itemsFrom item (rounds + 1) first) (blanks ++ [.char ']'] ++ rest) [] rest := by
  intro offset
  obtain ⟨offset', hend⟩ := nextItem_end_append first hblanks rest offset
  refine ⟨offset' + 1, ?_⟩
  rw [List.append_assoc, List.singleton_append, itemsFrom, hend]
  rfl

/-- The round that reads an item, and those after it. -/
theorem yields_item {item : Reader α} {rounds : Nat} {first : Bool} {comma blanks v gs rest : List Glyph}
    {a : α} {as : List α} (hcomma : IsComma first comma) (hblanks : Blanks blanks) (hv : IsValue v)
    (hitem : Takes item v a) (hgs : IsPart (.items false) gs)
    (h : Yields (itemsFrom item rounds false) (gs ++ rest) as rest) :
    Yields (itemsFrom item (rounds + 1) first) (comma ++ (blanks ++ v) ++ gs ++ rest) (a :: as)
      rest := by
  intro offset
  obtain ⟨offset₁, behind, hnext⟩ := nextItem_value hcomma hblanks hv (gs ++ rest) offset
  obtain ⟨offset₂, hread⟩ := hitem (gs ++ rest) (hgs.ends (b := .list) rest) offset₁
  obtain ⟨offset₃, hothers⟩ := h offset₂
  refine ⟨offset₃, ?_⟩
  rw [List.append_assoc, itemsFrom, hnext]
  simp only [bind, Except.bind, hread, hothers]

theorem exists_itemsFrom {item : Reader α} (hitem : Exact item IsSpaced) {rounds : Nat} {first : Bool}
    {c behind : Cursor} {as : List α} (h : itemsFrom item rounds first c = .ok (as, behind)) :
    ∃ taken, c.rest = taken ++ behind.rest ∧ IsPart (.items first) taken ∧
      ∀ rounds', taken.length ≤ rounds' → ∀ rest,
        Yields (itemsFrom item rounds' first) (taken ++ rest) as rest := by
  rw [itemsFrom_eq_ok_iff] at h
  induction h with
  | @closing _ first c _ hnext =>
    obtain ⟨blanks, rest, hblanks, hc, hc'⟩ := nextItem_end_sound hnext
    refine ⟨blanks ++ [.char ']'], ?_, .noItem hblanks, fun rounds hrounds rest' => ?_⟩
    · rw [hc, Cursor.next, hc', List.append_assoc]
      rfl
    · obtain ⟨rounds, rfl⟩ := Nat.exists_eq_succ_of_ne_zero (n := rounds) (by simp at hrounds; omega)
      exact yields_noItem item rounds first hblanks rest'
  | @item _ _ _ _ _ middle _ _ _ hnext hread _ ih =>
    obtain ⟨comma, blanks, hcomma, hblanks, hc, hsolid, hclosing⟩ := nextItem_sound hnext
    obtain ⟨gs, hmiddle, hgs, hrest⟩ := ih
    have hends : Ends middle.rest := hmiddle ▸ hgs.ends (b := .list) _
    obtain ⟨v, hstart, hv, htakes⟩ := hitem hread hends
    have hvalue := hv.value_of_solid (hstart ▸ hsolid)
    refine ⟨comma ++ (blanks ++ v) ++ gs, ?_, .item hcomma hblanks hvalue hgs, ?_⟩
    · rw [hc, hstart, hmiddle]
      simp
    · intro rounds hrounds rest
      obtain ⟨g, vs, rfl, -⟩ := hvalue.exists_cons
      simp only [List.length_append, List.length_cons] at hrounds
      obtain ⟨rounds, rfl⟩ := Nat.exists_eq_succ_of_ne_zero (n := rounds) (by omega)
      exact yields_item hcomma hblanks hvalue htakes hgs (hrest rounds (by omega) rest)

theorem exact_items {item : Reader α} (hitem : Exact item IsSpaced) :
    Exact (items item) (IsPart (.items true)) := by
  intro c as behind h _
  obtain ⟨taken, hc, htaken, hagain⟩ := exists_itemsFrom hitem h
  exact ⟨taken, hc, htaken, fun rest _ offset => hagain _ (by simp) rest offset⟩

/-! ## Entries -/

/-- What follows a key: a colon and a value. -/
inductive IsColoned : List Glyph → Prop
  | mk {between gs : List Glyph} (hbetween : Blanks between) (h : IsSpaced gs) :
    IsColoned (between ++ .char ':' :: gs)

theorem colon_sound {c behind : Cursor} (h : colon c = .ok ((), behind)) :
    ∃ between, Blanks between ∧ c.rest = between ++ .char ':' :: behind.rest := by
  obtain ⟨between, hbetween, hc, -⟩ := c.exists_blanks
  simp only [colon] at h
  split at h
  next => cases h
  next g gs hgs =>
    split at h
    next hg =>
      cases h
      exact ⟨between, hbetween, by rw [hc, Cursor.next, hgs, hg]⟩
    next => cases h

theorem colon_append {between : List Glyph} (hbetween : Blanks between) (rest : List Glyph)
    (offset : Nat) :
    ∃ offset', colon ⟨between ++ .char ':' :: rest, offset⟩ = .ok ((), ⟨rest, offset'⟩) := by
  have hsolid : Solid (.char ':' :: rest) := solid_cons.2 (by decide)
  rw [colon, Cursor.skipBlanks_append hbetween hsolid]
  exact ⟨_, rfl⟩

/-- What is read behind a colon is read exactly with it. -/
theorem exact_colon {value : Reader α} (h : Exact value IsSpaced) :
    Exact (fun c => colon c >>= fun read => value read.2) IsColoned := by
  intro c a behind hread hbehind
  obtain ⟨⟨_, c'⟩, hcolon, hvalue⟩ := bind_eq_ok_iff.1 hread
  obtain ⟨between, hbetween, hc⟩ := colon_sound hcolon
  obtain ⟨gs, hc', hgs, htakes⟩ := h hvalue hbehind
  refine ⟨between ++ .char ':' :: gs, ?_, .mk hbetween hgs, fun rest hrest offset => ?_⟩
  · rw [hc, hc', List.append_assoc, List.cons_append]
  · obtain ⟨offset', hcolon'⟩ := colon_append hbetween (gs ++ rest) offset
    beta_reduce
    rw [List.append_assoc, List.cons_append, hcolon']
    exact htakes rest hrest offset'

theorem exists_textBody {c behind : Cursor} {s : String} (h : textBody c = .ok (s, behind)) :
    ∃ taken, c.rest = taken ++ behind.rest ∧ IsQuoted taken ∧
      ∀ rest, Yields textBody (taken ++ rest) s rest := by
  obtain ⟨taken, hc, hquoted, hagain⟩ := exists_textFrom h
  exact ⟨taken, hc, hquoted, fun rest offset => hagain (taken ++ rest).length (by simp) rest offset⟩

/-- A key where one is due. -/
def keyAt (atEnd : Cause) (c : Cursor) : Except Fault (Option String × Cursor) :=
  match c.rest with
  | [] => .error (c.fault atEnd)
  | g :: _ =>
    if g = .char '"' then (textBody c.next).map fun (k, c) => (some k, c)
    else if g = .char '\x7d' then .error (c.faultAhead .trailingComma)
    else .error (c.faultAhead .keyNotText)

theorem nextKey_eq (first : Bool) (c : Cursor) :
    nextKey first c =
      match c.skipBlanks.rest with
      | [] => .error (c.skipBlanks.fault .endInObject)
      | g :: _ =>
        if g = .char '\x7d' then .ok (none, c.skipBlanks.next)
        else if first then keyAt .endInObject c.skipBlanks
        else if g = .char ',' then keyAt .endInValue c.skipBlanks.next.skipBlanks
        else .error (c.skipBlanks.faultAhead .expectedObjectEnd) := rfl

theorem keyAt_sound {atEnd : Cause} {c behind : Cursor} {found : Option String}
    (h : keyAt atEnd c = .ok (found, behind)) :
    ∃ key gs, found = some key ∧ IsQuoted gs ∧ c.rest = .char '"' :: gs ++ behind.rest ∧
      ∀ rest, Yields textBody (gs ++ rest) key rest := by
  rw [keyAt] at h
  split at h
  next => cases h
  next g gs hgs =>
    split at h
    next hg =>
      obtain ⟨⟨key, c'⟩, hread, hkey⟩ := map_eq_ok_iff.1 h
      cases hkey
      obtain ⟨taken, htaken, hquoted, hagain⟩ := exists_textBody hread
      rw [Cursor.next, hgs] at htaken
      exact ⟨key, taken, rfl, hquoted, by rw [hgs, hg]; exact congrArg _ htaken, hagain⟩
    next => split at h <;> cases h

theorem nextKey_sound {first : Bool} {c behind : Cursor} {key : String}
    (h : nextKey first c = .ok (some key, behind)) :
    ∃ comma before gs, IsComma first comma ∧ Blanks before ∧ IsQuoted gs ∧
      c.rest = comma ++ (before ++ .char '"' :: gs) ++ behind.rest ∧
      ∀ rest, Yields textBody (gs ++ rest) key rest := by
  obtain ⟨blanks, hblanks, hc, -⟩ := c.exists_blanks
  rw [nextKey_eq] at h
  split at h
  next => cases h
  next g gs hgs =>
    split at h
    next => cases h
    next =>
      split at h
      next hfirst =>
        obtain ⟨key, quoted, ⟨⟩, hquoted, hrest, hagain⟩ := keyAt_sound h
        subst hfirst
        refine ⟨[], blanks, quoted, .first, hblanks, hquoted, ?_, hagain⟩
        rw [hc, hrest]
        simp
      next hfirst =>
        split at h
        next hcomma =>
          obtain ⟨before, hbefore, hc', -⟩ := c.skipBlanks.next.exists_blanks
          obtain ⟨key, quoted, ⟨⟩, hquoted, hrest, hagain⟩ := keyAt_sound h
          rw [Bool.eq_false_iff.2 hfirst]
          refine ⟨blanks ++ [.char ','], before, quoted, .next hblanks, hbefore, hquoted, ?_, hagain⟩
          have hnext : c.skipBlanks.next.rest = gs := by rw [Cursor.next, hgs]
          rw [hnext, hrest] at hc'
          rw [hc, hgs, hcomma, hc']
          simp
        next => cases h

theorem nextKey_end_sound {first : Bool} {c behind : Cursor}
    (h : nextKey first c = .ok (none, behind)) :
    ∃ blanks, Blanks blanks ∧ c.rest = blanks ++ .char '\x7d' :: behind.rest := by
  obtain ⟨blanks, hblanks, hc, -⟩ := c.exists_blanks
  rw [nextKey_eq] at h
  split at h
  next => cases h
  next g gs hgs =>
    split at h
    next hclosing =>
      cases h
      exact ⟨blanks, hblanks, by rw [hc, Cursor.next, hgs, hclosing]⟩
    next =>
      split at h
      next =>
        obtain ⟨key, quoted, ⟨⟩, -⟩ := keyAt_sound h
      next =>
        split at h
        next =>
          obtain ⟨key, quoted, ⟨⟩, -⟩ := keyAt_sound h
        next => cases h

theorem keyAt_quote (atEnd : Cause) (text : List Glyph) (offset : Nat) :
    keyAt atEnd ⟨.char '"' :: text, offset⟩ =
      (textBody ⟨text, offset + 1⟩).map fun read => (some read.1, read.2) := by
  simp only [keyAt, if_true, Cursor.next_cons]
  rfl

/-- Where a key is due, it is read behind its opening quote. -/
theorem exists_nextKey_eq {first : Bool} {comma before : List Glyph} (hcomma : IsComma first comma)
    (hbefore : Blanks before) (text : List Glyph) (offset : Nat) :
    ∃ offset', nextKey first ⟨comma ++ (before ++ .char '"' :: text), offset⟩ =
      (textBody ⟨text, offset'⟩).map fun read => (some read.1, read.2) := by
  have hquote : Solid (.char '"' :: text) := solid_cons.2 (by decide)
  cases hcomma with
  | first =>
    rw [List.nil_append, nextKey_eq, Cursor.skipBlanks_append hbefore hquote]
    exact ⟨_, keyAt_quote .endInObject text _⟩
  | @next blanks hblanks =>
    have hcomma : Solid (.char ',' :: (before ++ .char '"' :: text)) := solid_cons.2 (by decide)
    rw [List.append_assoc, List.singleton_append, nextKey_eq,
      Cursor.skipBlanks_append hblanks hcomma, Cursor.next_cons,
      Cursor.skipBlanks_append hbefore hquote]
    exact ⟨_, keyAt_quote .endInValue text _⟩

theorem nextKey_append {first : Bool} {comma before gs rest : List Glyph} {key : String}
    (hcomma : IsComma first comma) (hbefore : Blanks before)
    (h : Yields textBody (gs ++ rest) key rest) (offset : Nat) :
    ∃ offset', nextKey first ⟨comma ++ (before ++ .char '"' :: gs) ++ rest, offset⟩ =
      .ok (some key, ⟨rest, offset'⟩) := by
  obtain ⟨offset₁, hnext⟩ := exists_nextKey_eq hcomma hbefore (gs ++ rest) offset
  obtain ⟨offset₂, hread⟩ := h offset₁
  have htext : comma ++ (before ++ .char '"' :: gs) ++ rest =
      comma ++ (before ++ .char '"' :: (gs ++ rest)) := by simp
  exact ⟨offset₂, by rw [htext, hnext, hread]; rfl⟩

theorem nextKey_end_append (first : Bool) {blanks : List Glyph} (hblanks : Blanks blanks)
    (rest : List Glyph) (offset : Nat) :
    ∃ offset', nextKey first ⟨blanks ++ .char '\x7d' :: rest, offset⟩ =
      .ok (none, ⟨rest, offset'⟩) := by
  have hsolid : Solid (.char '\x7d' :: rest) := solid_cons.2 (by decide)
  rw [nextKey_eq, Cursor.skipBlanks_append hblanks hsolid]
  exact ⟨_, rfl⟩

/-- The round that reads the closing brace. -/
theorem yields_noEntry (entry : String → σ → Reader σ) (rounds : Nat) (first : Bool) (s : σ)
    {blanks : List Glyph} (hblanks : Blanks blanks) (rest : List Glyph) :
    Yields (entriesFrom entry (rounds + 1) first s) (blanks ++ [.char '\x7d'] ++ rest) s rest := by
  intro offset
  obtain ⟨offset', hend⟩ := nextKey_end_append first hblanks rest offset
  refine ⟨offset', ?_⟩
  rw [List.append_assoc, List.singleton_append, entriesFrom, hend]
  rfl

/-- The round that reads an entry, and those after it. -/
theorem yields_entry {entry : String → σ → Reader σ} {rounds : Nat} {first : Bool}
    {comma before quoted behind gs rest : List Glyph} {key : String} {s next last : σ}
    (hcomma : IsComma first comma) (hbefore : Blanks before)
    (hkey : ∀ rest, Yields textBody (quoted ++ rest) key rest) (hentry : Takes (entry key s) behind next)
    (hgs : IsPart (.entries false) gs)
    (h : Yields (entriesFrom entry rounds false next) (gs ++ rest) last rest) :
    Yields (entriesFrom entry (rounds + 1) first s)
      (comma ++ (before ++ .char '"' :: quoted) ++ behind ++ gs ++ rest) last rest := by
  intro offset
  obtain ⟨offset₁, hnext⟩ :=
    nextKey_append hcomma hbefore (hkey (behind ++ (gs ++ rest))) offset
  obtain ⟨offset₂, hread⟩ := hentry (gs ++ rest) (hgs.ends (b := .object) rest) offset₁
  obtain ⟨offset₃, hothers⟩ := h offset₂
  refine ⟨offset₃, ?_⟩
  rw [List.append_assoc, List.append_assoc, entriesFrom, hnext]
  simp only [bind, Except.bind, hread, hothers]

theorem exists_entriesFrom {entry : String → σ → Reader σ}
    (hentry : ∀ key s, Exact (entry key s) IsColoned) {rounds : Nat} {first : Bool} {s last : σ}
    {c behind : Cursor} (h : entriesFrom entry rounds first s c = .ok (last, behind)) :
    ∃ taken, c.rest = taken ++ behind.rest ∧ IsPart (.entries first) taken ∧
      ∀ rounds', taken.length ≤ rounds' → ∀ rest,
        Yields (entriesFrom entry rounds' first s) (taken ++ rest) last rest := by
  rw [entriesFrom_eq_ok_iff] at h
  induction h with
  | @closing _ first s _ _ hkey =>
    obtain ⟨blanks, hblanks, hc⟩ := nextKey_end_sound hkey
    refine ⟨blanks ++ [.char '\x7d'], by rw [hc]; simp, .noEntry hblanks, ?_⟩
    intro rounds hrounds rest
    obtain ⟨rounds, rfl⟩ := Nat.exists_eq_succ_of_ne_zero (n := rounds) (by simp at hrounds; omega)
    exact yields_noEntry entry rounds first s hblanks rest
  | @entry _ _ s _ _ _ _ middle _ key hkey hread _ ih =>
    obtain ⟨comma, before, quoted, hcomma, hbefore, hquoted, hc, hagain⟩ := nextKey_sound hkey
    obtain ⟨gs, hmiddle, hgs, hrest⟩ := ih
    have hends : Ends middle.rest := hmiddle ▸ hgs.ends (b := .object) _
    obtain ⟨coloned, hstart, hcoloned, htakes⟩ := hentry key s hread hends
    refine ⟨comma ++ (before ++ .char '"' :: quoted) ++ coloned ++ gs, ?_, ?_, ?_⟩
    · rw [hc, hstart, hmiddle]
      simp
    · obtain ⟨hbetween, blanks, v, rfl, hblanks, hv⟩ := hcoloned
      exact .entry hcomma hbefore hquoted hbetween hblanks hv hgs
    · intro rounds hrounds rest
      simp only [List.length_append, List.length_cons] at hrounds
      obtain ⟨rounds, rfl⟩ := Nat.exists_eq_succ_of_ne_zero (n := rounds) (by omega)
      exact yields_entry hcomma hbefore hagain htakes hgs (hrest rounds (by omega) rest)

theorem exact_entries {entry : String → σ → Reader σ}
    (hentry : ∀ key s, Exact (entry key s) IsColoned) (start : σ) :
    Exact (entries entry start) (IsPart (.entries true)) := by
  intro c last behind h _
  obtain ⟨taken, hc, htaken, hagain⟩ := exists_entriesFrom hentry h
  exact ⟨taken, hc, htaken, fun rest _ offset => hagain _ (by simp) rest offset⟩

end AppExport.Json
