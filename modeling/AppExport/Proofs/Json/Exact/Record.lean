/-
Choices and records are exact. A record is read from an object, entry by entry, or from a list, field
by field; it is exact if the reader of every field is.
-/
import AppExport.Proofs.Json.Draft
import AppExport.Proofs.Json.Exact.Typed

namespace AppExport.Json

open Text (Glyph)

variable {α β σ : Type} {room : Nat}

/-! ## One reader behind another -/

/-- One text and then another. -/
inductive Then (P Q : List Glyph → Prop) : List Glyph → Prop
  | mk {first second : List Glyph} (hfirst : P first) (hsecond : Q second) :
    Then P Q (first ++ second)

/-- Whether no text with a property goes on with a number before it. -/
def Breaks (P : List Glyph → Prop) : Prop := ∀ gs, P gs → ∀ rest, Ends rest → Ends (gs ++ rest)

theorem Exact.andThen {reader : Reader α} {more : α → Reader β} {P Q : List Glyph → Prop}
    (h : Exact reader P) (hmore : ∀ a, Exact (more a) Q) (hQ : Breaks Q) :
    Exact (fun c => reader c >>= fun read => more read.1 read.2) (Then P Q) := by
  intro c b behind hread hbehind
  obtain ⟨⟨a, middle⟩, hfirst, hsecond⟩ := bind_eq_ok_iff.1 hread
  obtain ⟨second, hmiddle, hQsecond, htakes⟩ := hmore a hsecond hbehind
  have hends : Ends middle.rest := hmiddle ▸ hQ second hQsecond _ hbehind
  obtain ⟨first, hc, hPfirst, htakes'⟩ := h hfirst hends
  refine ⟨first ++ second, by rw [hc, hmiddle, List.append_assoc], .mk hPfirst hQsecond, ?_⟩
  intro rest hrest offset
  obtain ⟨offset', hfirst'⟩ := htakes' (second ++ rest) (hQ second hQsecond _ hrest) offset
  obtain ⟨offset'', hsecond'⟩ := htakes rest hrest offset'
  rw [← List.append_assoc] at hfirst'
  exact ⟨offset'', by simp only [hfirst', bind, Except.bind, hsecond']⟩

theorem breaks_coloned : Breaks IsColoned := by
  rintro _ ⟨hbetween, -⟩ rest -
  rw [List.append_assoc]
  exact Ends.append hbetween (ends_cons.2 (by decide))

/-! ## Choices -/

/-- What a name among several stands for. -/
def meaning (choices : List (String × α)) (name : String) : Reader α := fun c =>
  match named choices name with
  | .ok a => .ok (a, c)
  | .error cause => .error (c.fault cause)

/-- A name among several. -/
def chosen (choices : List (String × α)) : Reader α := fun c =>
  text "variant identifier" c >>= fun read => meaning choices read.1 read.2

theorem exact_chosen (choices : List (String × α)) : Exact (chosen choices) IsText := by
  refine (exact_text_led "variant identifier").check fun name => ?_
  cases hnamed : named choices name with
  | ok a => exact .inl ⟨a, fun _ => by rw [meaning, hnamed]⟩
  | error cause => exact .inr fun c => ⟨c.fault cause, by rw [meaning, hnamed]⟩

/-- The closing bracket of an object. -/
def closeObject (a : α) : Reader α := fun c =>
  match c.skipBlanks.rest with
  | [] => .error (c.skipBlanks.fault .endInObject)
  | g :: _ =>
    if g = .char '\x7d' then .ok (a, c.skipBlanks.next)
    else .error (c.skipBlanks.fault .expectedValue)

abbrev IsClosing (x : Char) : List Glyph → Prop := IsLed x (· = [])

theorem breaks_closing {x : Char} (hx : continuesNumber x = false) : Breaks (IsClosing x) := by
  rintro _ ⟨hblanks, rfl⟩ rest -
  rw [List.append_assoc]
  exact Ends.append hblanks (ends_cons.2 hx)

theorem exact_closeObject (a : α) : Exact (closeObject a) (IsClosing '\x7d') := by
  intro c b behind hread _
  obtain ⟨blanks, hblanks, hc, -⟩ := c.exists_blanks
  rw [closeObject] at hread
  split at hread
  next => cases hread
  next g gs hgs =>
    split at hread
    next hg =>
      cases hread
      refine ⟨blanks ++ [.char '\x7d'], ?_, IsLed.mk (P := (· = [])) hblanks rfl, fun rest _ offset => ?_⟩
      · rw [hc, Cursor.next, hgs, hg, List.append_assoc]
        rfl
      · have hsolid : Solid (.char '\x7d' :: rest) := solid_cons.2 (by decide)
        rw [List.append_assoc, closeObject, List.singleton_append,
          Cursor.skipBlanks_append hblanks hsolid]
        exact ⟨_, rfl⟩
    next => cases hread

/-- A name with null behind it, up to the closing bracket. -/
def tagged (choices : List (String × α)) : Reader α := fun c =>
  chosen choices c >>= fun name =>
    (colon name.2 >>= fun behind => null "unit" behind.2) >>= fun unit => closeObject name.1 unit.2

theorem exact_tagged (choices : List (String × α)) : Exact (tagged choices) (IsPart (.entries true)) := by
  have hclose (a : α) := (exact_colon (exact_null "unit")).andThen (fun _ => exact_closeObject a)
    (breaks_closing (by decide))
  have hbreaks : Breaks (Then IsColoned (IsClosing '\x7d')) := by
    rintro _ ⟨hcoloned, hclosing⟩ rest hrest
    rw [List.append_assoc]
    exact breaks_coloned _ hcoloned _ (breaks_closing (by decide) _ hclosing _ hrest)
  refine ((exact_chosen choices).andThen hclose hbreaks).mono ?_
  rintro _ ⟨⟨hbefore, hkey⟩, ⟨hbetween, blanks, v, rfl, hblanks, hv⟩, hblanks', rfl⟩
  have hpart := IsPart.entry .first hbefore hkey hbetween hblanks hv (.noEntry hblanks')
  simpa using hpart

theorem chosen_skipBlanks (choices : List (String × α)) {c : Cursor} (h : comes '"' c = true) :
    chosen choices c.skipBlanks = chosen choices c := by
  rw [chosen, chosen, text, text, comes_skipBlanks, if_pos h, if_pos h, Cursor.skipBlanks_skipBlanks]

theorem choice_eq (choices : List (String × α)) (room : Nat) (c : Cursor) :
    choice choices room c =
      if comes '"' c then chosen choices c
      else if comes '\x7b' c then enter room c.skipBlanks >>= fun inner => tagged choices inner.2
      else .error (if c.skipBlanks.rest.isEmpty then c.skipBlanks.fault .endInValue
        else c.skipBlanks.faultAhead .expectedValue) := by
  cases hrest : c.skipBlanks.rest with
  | nil => simp [choice, comes, hrest]
  | cons g gs =>
    have hcomes (x : Char) : comes x c = decide (g = .char x) := by simp [comes, hrest]
    by_cases hquote : g = .char '"'
    · subst hquote
      rw [hcomes, if_pos (by simp), ← chosen_skipBlanks choices (by simp [hcomes]), choice, hrest]
      rfl
    · rw [hcomes, if_neg (by simpa using hquote), hcomes, choice]
      simp only [hrest, if_neg hquote, decide_eq_true_eq]
      split
      next =>
        refine congrArg (enter room c.skipBlanks >>= ·) (funext fun inner => ?_)
        simp only [tagged, chosen, bind_assoc]
        rfl
      next => simp

theorem exact_choice (choices : List (String × α)) (room : Nat) :
    Exact (choice choices room) IsSpaced := by
  have hexact := exact_enter (fun _ => tagged choices) (fun _ => exact_tagged choices)
    (x := '\x7b') (by decide) (fun _ => .object)
    (exact_error (fun c => if c.skipBlanks.rest.isEmpty then c.skipBlanks.fault .endInValue
      else c.skipBlanks.faultAhead .expectedValue) IsSpaced) room
  refine (exact_ite_comes '"' (fun _ => id) ((exact_chosen choices).mono fun _ => IsLed.text)
    hexact).congr (choice_eq choices room)

/-! ## Records -/

/-- A field whose reader is exact. -/
def Field.ReadsExactly (field : Field σ) : Prop :=
  ∀ draft room, Exact (field.read draft room) IsSpaced

theorem Field.ReadsExactly.slot {name : String} {aliases : List String} {optional : Bool}
    {get : σ → Option α} {set : σ → α → σ} {decoder : Decoder α}
    (h : ∀ room, Exact (decoder room) IsSpaced) :
    (Field.slot name aliases optional get set decoder).ReadsExactly :=
  fun draft room => (h room).bind_ok (set draft)

/-- A record whose readers are exact. -/
structure Record.ReadsExactly (r : Record σ α) : Prop where
  fields : ∀ field ∈ r.fields, field.ReadsExactly
  others : ∀ rule ∈ r.others, ∀ key draft room, Exact (rule key draft room) IsSpaced

namespace Record

variable {r : Record σ α}

theorem ReadsExactly.entry (h : r.ReadsExactly) (room : Nat) (key : String) (draft : σ) :
    Exact (r.entry room key draft) IsColoned := by
  cases hfind : r.fields.find? (·.answers key) with
  | some field =>
    have hcolon := exact_colon (h.fields field (List.mem_of_find?_eq_some hfind) draft room)
    cases hgiven : field.given draft with
    | true =>
      have herror := exact_error (α := σ)
        (fun c => (c.pastClosing '\x7d').fault (.repeatedField field.name)) IsColoned
      exact herror.congr (entry_of_given hfind hgiven)
    | false => exact hcolon.congr (entry_of_field hfind hgiven)
  | none =>
    cases hothers : r.others with
    | some rule =>
      exact (exact_colon (h.others rule hothers key draft room)).congr (entry_of_rule hfind hothers)
    | none =>
      refine (exact_colon (exact_passing.map fun _ => draft)).congr fun c => ?_
      rw [entry_of_skipped hfind hothers]
      refine congrArg (colon c >>= ·) (funext fun read => ?_)
      cases hskip : skipValue read.2 <;> simp only [passing, hskip] <;> rfl

/-! ## Records as lists -/

theorem closeList_sound {c behind : Cursor} (h : closeList c = .ok behind) :
    ∃ blanks, Blanks blanks ∧ c.rest = blanks ++ .char ']' :: behind.rest := by
  obtain ⟨blanks, hblanks, hc, -⟩ := c.exists_blanks
  simp only [closeList] at h
  split at h
  next => cases h
  next g gs hgs =>
    split at h
    next hg =>
      cases h
      exact ⟨blanks, hblanks, by rw [hc, Cursor.next, hgs, hg]⟩
    next => split at h <;> cases h

theorem closeList_append {blanks : List Glyph} (hblanks : Blanks blanks) (rest : List Glyph)
    (offset : Nat) :
    ∃ offset', closeList ⟨blanks ++ .char ']' :: rest, offset⟩ = .ok ⟨rest, offset'⟩ := by
  have hsolid : Solid (.char ']' :: rest) := solid_cons.2 (by decide)
  rw [closeList, Cursor.skipBlanks_append hblanks hsolid]
  exact ⟨_, rfl⟩

/-- The fields from the one at `index` on, up to the closing bracket. -/
def listed (r : Record σ α) (room index : Nat) (fields : List (Field σ)) (draft : σ) : Reader σ :=
  fun c => r.itemsOf room index fields draft c >>= fun read =>
    (closeList read.2).map fun behind => (read.1, behind)

section Listed

variable {index : Nat} {field : Field σ} {fields : List (Field σ)} {draft : σ} {c next behind : Cursor}

theorem listed_of_item (h : nextItem (index = 0) c = .ok (some next, behind)) :
    r.listed room index (field :: fields) draft c = field.read draft room next >>= fun read =>
      r.listed room (index + 1) fields read.1 read.2 := by
  rw [listed, itemsOf, h]
  simp only [bind, Except.bind]
  cases field.read draft room next <;> rfl

theorem listed_of_end (h : nextItem (index = 0) c = .ok (none, next)) :
    r.listed room index (field :: fields) draft c =
      if field.optional then r.listed room index fields draft next
      else .error (next.next.fault
        (.wrongLength (r.fields.length - fields.length - 1) r.lengthText)) := by
  rw [listed, itemsOf, h]
  cases hoptional : field.optional with
  | true => rfl
  | false => rfl

theorem listed_of_error {fault : Fault} (h : nextItem (index = 0) c = .error fault) :
    r.listed room index (field :: fields) draft c = .error fault := by
  rw [listed, itemsOf, h]
  rfl

end Listed

end Record

theorem IsPart.ne_nil {p : Part} {gs : List Glyph} (h : IsPart p gs) : gs ≠ [] := by
  cases h with
  | natural h =>
    obtain ⟨g, gs, rfl, -⟩ := h.exists_cons
    simp
  | word h =>
    simp only [List.mem_cons, List.not_mem_nil, or_false] at h
    rcases h with rfl | rfl | rfl <;> simp
  | item _ _ hv =>
    obtain ⟨g, gs, rfl, -⟩ := hv.exists_cons
    simp
  | _ => simp

/-- Blanks may stand before what is within brackets. -/
theorem IsPart.blanks_append {first : Bool} {blanks gs : List Glyph} (hblanks : Blanks blanks)
    (h : IsPart (.items first) gs) : IsPart (.items first) (blanks ++ gs) := by
  cases h with
  | noItem hblanks' =>
    rw [← List.append_assoc]
    exact .noItem (hblanks.append hblanks')
  | item hcomma hblanks' hv hgs =>
    cases hcomma with
    | first =>
      have hpart := IsPart.item .first (hblanks.append hblanks') hv hgs
      simpa using hpart
    | next hbefore =>
      have hpart := IsPart.item (.next (hblanks.append hbefore)) hblanks' hv hgs
      simpa using hpart

namespace Record

variable {r : Record σ α}

section Yields

variable {index : Nat} {field : Field σ} {fields : List (Field σ)} {draft next last : σ}
  {blanks gs rest : List Glyph}

/-- Behind the last field, the bracket is closed. -/
theorem yields_listed_nil (r : Record σ α) (room index : Nat) (draft : σ) (hblanks : Blanks blanks)
    (rest : List Glyph) :
    Yields (r.listed room index [] draft) (blanks ++ [.char ']'] ++ rest) draft rest := by
  intro offset
  obtain ⟨offset', hclose⟩ := closeList_append hblanks rest offset
  refine ⟨offset', ?_⟩
  rw [List.append_assoc, List.singleton_append, listed, itemsOf]
  simp only [bind, Except.bind, hclose]
  rfl

/-- A field that may be absent, before the closing bracket. -/
theorem yields_listed_end (hoptional : field.optional) (hblanks : Blanks blanks)
    (h : Yields (r.listed room index fields draft) (.char ']' :: gs ++ rest) last rest) :
    Yields (r.listed room index (field :: fields) draft) (blanks ++ .char ']' :: gs ++ rest) last
      rest := by
  intro offset
  obtain ⟨offset', hend⟩ := nextItem_end_append (index = 0) hblanks (gs ++ rest) offset
  rw [List.append_assoc, List.cons_append, listed_of_end hend, if_pos hoptional]
  exact h offset'

/-- A field that has an item, and those after it. -/
theorem yields_listed_item {comma v : List Glyph} (hcomma : IsComma (index = 0) comma)
    (hblanks : Blanks blanks) (hv : IsValue v) (hfield : Takes (field.read draft room) v next)
    (hgs : IsPart (.items false) gs)
    (h : Yields (r.listed room (index + 1) fields next) (gs ++ rest) last rest) :
    Yields (r.listed room index (field :: fields) draft) (comma ++ (blanks ++ v) ++ gs ++ rest) last
      rest := by
  intro offset
  obtain ⟨offset₁, behind, hnext⟩ := nextItem_value hcomma hblanks hv (gs ++ rest) offset
  obtain ⟨offset₂, hread⟩ := hfield (gs ++ rest) (hgs.ends (b := .list) rest) offset₁
  obtain ⟨offset₃, hothers⟩ := h offset₂
  refine ⟨offset₃, ?_⟩
  rw [List.append_assoc, listed_of_item hnext, hread]
  exact hothers

end Yields

theorem exists_listed (h : r.ReadsExactly) {fields : List (Field σ)} (hfields : fields ⊆ r.fields)
    {index : Nat} {draft last : σ} {c behind : Cursor}
    (hread : r.listed room index fields draft c = .ok (last, behind)) :
    ∃ taken, c.rest = taken ++ behind.rest ∧ IsPart (.items (index = 0)) taken ∧
      ∀ rest, Yields (r.listed room index fields draft) (taken ++ rest) last rest := by
  induction fields generalizing index draft c with
  | nil =>
    obtain ⟨behind', hclose, hlast⟩ := map_eq_ok_iff.1 hread
    cases hlast
    obtain ⟨blanks, hblanks, hc⟩ := closeList_sound hclose
    exact ⟨blanks ++ [.char ']'], by rw [hc, List.append_assoc]; rfl, .noItem hblanks,
      yields_listed_nil r room index _ hblanks⟩
  | cons field others ih =>
    have hothers := List.subset_of_cons_subset hfields
    have hfield := h.fields field (hfields List.mem_cons_self) draft room
    cases hnext : nextItem (index = 0) c with
    | error fault =>
      rw [listed_of_error hnext] at hread
      cases hread
    | ok found =>
      obtain ⟨_ | start, c'⟩ := found
      · rw [listed_of_end hnext] at hread
        split at hread
        next hoptional =>
          obtain ⟨taken, hc', htaken, hagain⟩ := ih hothers hread
          obtain ⟨blanks, rest, hblanks, hc, hclosing⟩ := nextItem_end_sound hnext
          obtain ⟨g, gs, rfl⟩ := List.exists_cons_of_ne_nil htaken.ne_nil
          obtain ⟨rfl, -⟩ := List.cons.inj (hclosing.symm.trans hc')
          exact ⟨blanks ++ .char ']' :: gs, by rw [hc, hc', List.append_assoc],
            htaken.blanks_append hblanks,
            fun rest => yields_listed_end hoptional hblanks (hagain rest)⟩
        next => cases hread
      · rw [listed_of_item hnext] at hread
        obtain ⟨⟨next, c₁⟩, hvalue, hread⟩ := bind_eq_ok_iff.1 hread
        obtain ⟨comma, blanks, hcomma, hblanks, hc, hsolid, hclosing⟩ := nextItem_sound hnext
        obtain ⟨gs, hc₁, hgs, hrest⟩ := ih hothers hread
        have hends : Ends c₁.rest := hc₁ ▸ hgs.ends (b := .list) _
        obtain ⟨v, hstart, hv, htakes⟩ := hfield hvalue hends
        have hisValue := hv.value_of_solid (hstart ▸ hsolid)
        refine ⟨comma ++ (blanks ++ v) ++ gs, ?_, .item hcomma hblanks hisValue hgs,
          fun rest => yields_listed_item hcomma hblanks hisValue htakes hgs (hrest rest)⟩
        rw [hc, hstart, hc₁]
        simp

theorem ReadsExactly.listed (h : r.ReadsExactly) (room : Nat) :
    Exact (r.listed room 0 r.fields r.start) (IsPart (.items true)) := by
  intro c last behind hread _
  obtain ⟨taken, hc, htaken, hagain⟩ := exists_listed h (List.Subset.refl _) hread
  exact ⟨taken, hc, by simpa using htaken, fun rest _ => hagain rest⟩

/-! ## Whole records -/

theorem draft_eq (r : Record σ α) (room : Nat) (c : Cursor) :
    r.draft room c =
      if comes '\x7b' c then enter room c.skipBlanks >>= fun inner =>
        entries (r.entry inner.1) r.start inner.2
      else if r.positional ∧ comes '[' c then enter room c.skipBlanks >>= fun inner =>
        r.listed inner.1 0 r.fields r.start inner.2
      else refuse r.label c := by
  rw [draft]
  split
  · rfl
  · split
    · refine congrArg (enter room c.skipBlanks >>= ·) (funext fun inner => ?_)
      refine congrArg (r.itemsOf inner.1 0 r.fields r.start inner.2 >>= ·) (funext fun read => ?_)
      obtain ⟨draft, behind⟩ := read
      cases hclose : closeList behind <;> simp only [hclose] <;> rfl
    · rfl

theorem ReadsExactly.draft (h : r.ReadsExactly) (room : Nat) : Exact (r.draft room) IsSpaced := by
  have hlist : Exact (fun c => if r.positional ∧ comes '[' c then
      enter room c.skipBlanks >>= fun inner => r.listed inner.1 0 r.fields r.start inner.2
      else refuse r.label c) IsSpaced := by
    cases r.positional with
    | true =>
      simp only [true_and]
      exact exact_enter (fun room => r.listed room 0 r.fields r.start) h.listed (by decide)
        (fun _ => .list) (exact_refuse r.label _) room
    | false =>
      simp only [Bool.false_eq_true, false_and, if_false]
      exact exact_refuse r.label _
  exact (exact_enter (fun room => entries (r.entry room) r.start)
    (fun room => exact_entries (h.entry room) r.start) (by decide) (fun _ => .object) hlist
    room).congr (draft_eq r room)

theorem ReadsExactly.decoder (h : r.ReadsExactly) (room : Nat) :
    Exact (r.decoder room) IsSpaced := by
  refine ((h.draft room).check fun draft => ?_).congr (decoder_eq r room)
  cases hfinish : r.finish draft with
  | some a => exact .inl ⟨a, fun _ => by rw [complete, hfinish]⟩
  | none => exact .inr fun c => ⟨_, by rw [complete, hfinish]⟩

end Record
end AppExport.Json
