/-
What is made of an object depends on its members alone. A record is a fold over them: each key is read
by itself, and so is what stands behind it.
-/
import AppExport.Proofs.Json.Exact.Record

namespace AppExport.Json

open Text (Glyph)

variable {α σ : Type} {room : Nat}

/-! ## Parts of a text -/

/-- Whether at most one text with a property begins another text. -/
def Unambiguous (P : List Glyph → Prop) : Prop :=
  ∀ ⦃v w rest rest'⦄, P v → P w → Ends rest → Ends rest' → v ++ rest = w ++ rest' → v = w

/-- What reads every text with a property leaves no doubt where one ends. -/
theorem unambiguous_of_takes {P : List Glyph → Prop} (reader : Reader Unit)
    (h : ∀ gs, P gs → Takes reader gs ()) : Unambiguous P := by
  intro v w rest rest' hv hw hrest hrest' heq
  obtain ⟨offset, hread⟩ := h v hv rest hrest 0
  obtain ⟨offset', hread'⟩ := h w hw rest' hrest' 0
  rw [heq, hread'] at hread
  cases hread
  exact List.append_cancel_right heq

theorem unambiguous_coloned : Unambiguous IsColoned := by
  refine unambiguous_of_takes (fun c => colon c >>= fun read => passing read.2) ?_
  rintro _ ⟨hbetween, hvalue⟩ rest hrest offset
  rename_i gs
  rw [List.append_assoc, List.cons_append]
  obtain ⟨offset₁, hcolon⟩ := colon_append hbetween (gs ++ rest) offset
  obtain ⟨offset₂, hskip⟩ := skipValue_complete hvalue hrest offset₁
  exact ⟨offset₂, by simp only [hcolon, bind, Except.bind, passing, hskip]; rfl⟩

theorem IsQuoted.unique {v w rest rest' : List Glyph} (hv : IsQuoted v) (hw : IsQuoted w)
    (h : v ++ rest = w ++ rest') : v = w := by
  obtain ⟨offset, hskip⟩ := skipText_complete hv rest (Nat.le_max_left v.length w.length) 0
  obtain ⟨offset', hskip'⟩ := skipText_complete hw rest' (Nat.le_max_right v.length w.length) 0
  rw [h, hskip'] at hskip
  cases hskip
  exact List.append_cancel_right h

/-- What a reader makes of a text that it takes whole. -/
def made (reader : Reader α) (text : List Glyph) : Option α :=
  match reader (.start text) with
  | .ok (a, behind) => if behind.rest.isEmpty then some a else none
  | .error _ => none

theorem made_eq_some_iff {reader : Reader α} {text : List Glyph} {a : α} :
    made reader text = some a ↔ ∃ offset, reader (.start text) = .ok (a, ⟨[], offset⟩) := by
  rw [made]
  cases hread : reader (.start text) with
  | error fault => simp
  | ok read =>
    obtain ⟨b, rest, offset⟩ := read
    cases rest <;> simp

theorem Exact.made_eq_some_iff {reader : Reader α} {P : List Glyph → Prop} (h : Exact reader P)
    {text : List Glyph} {a : α} : made reader text = some a ↔ Takes reader text a := by
  rw [Json.made_eq_some_iff]
  constructor
  · rintro ⟨offset, hread⟩
    obtain ⟨taken, htext, -, htakes⟩ := h hread ends_nil
    obtain rfl : text = taken := by rwa [List.append_nil] at htext
    exact htakes
  · intro htakes
    have hread := htakes [] ends_nil 0
    rwa [List.append_nil] at hread

/-- A part of a text is read as if it stood alone. -/
theorem Exact.made_of_read {reader : Reader α} {P : List Glyph → Prop} (h : Exact reader P)
    (hP : Unambiguous P) {text rest : List Glyph} (htext : P text) (hrest : Ends rest) {offset : Nat}
    {a : α} {behind : Cursor} (hread : reader ⟨text ++ rest, offset⟩ = .ok (a, behind))
    (hbehind : Ends behind.rest) : behind.rest = rest ∧ made reader text = some a := by
  obtain ⟨taken, heq, htaken, htakes⟩ := h hread hbehind
  obtain rfl := hP htext htaken hrest hbehind heq
  exact ⟨(List.append_cancel_left heq).symm, h.made_eq_some_iff.2 htakes⟩

theorem made_key_of_read {key rest : List Glyph} (hkey : IsQuoted key) {offset : Nat} {s : String}
    {behind : Cursor} (hread : textBody ⟨key ++ rest, offset⟩ = .ok (s, behind)) :
    behind.rest = rest ∧ made textBody key = some s := by
  obtain ⟨taken, heq, hquoted, hagain⟩ := exists_textBody hread
  obtain rfl := hkey.unique hquoted heq
  refine ⟨(List.append_cancel_left heq).symm, made_eq_some_iff.2 ?_⟩
  have halone := hagain [] 0
  rwa [List.append_nil] at halone

theorem yields_key {key : List Glyph} {s : String} (h : made textBody key = some s) (rest : List Glyph) :
    Yields textBody (key ++ rest) s rest := by
  obtain ⟨offset, hread⟩ := made_eq_some_iff.1 h
  obtain ⟨taken, heq, -, hagain⟩ := exists_textBody hread
  obtain rfl : key = taken := by rwa [List.append_nil] at heq
  exact hagain rest

/-! ## Members -/

/-- A key behind its opening quote, and what stands behind it: a colon and a value. -/
structure Member where
  key : List Glyph
  behind : List Glyph

/-- The members of an object from some place on, as `IsPart` has its entries. -/
inductive HasMembers : Bool → List Glyph → List Member → Prop
  | none {first : Bool} {blanks : List Glyph} (hblanks : Blanks blanks) :
    HasMembers first (blanks ++ [.char '\x7d']) []
  | cons {first : Bool} {comma before gs : List Glyph} {m : Member} {ms : List Member}
    (hcomma : IsComma first comma) (hbefore : Blanks before) (hkey : IsQuoted m.key)
    (hbehind : IsColoned m.behind) (h : HasMembers false gs ms) :
    HasMembers first (comma ++ (before ++ .char '"' :: m.key) ++ m.behind ++ gs) (m :: ms)

/-- A text that is an object, blanks around it aside. -/
inductive IsObject : List Glyph → List Member → Prop
  | mk {before gs after : List Glyph} {ms : List Member} (hbefore : Blanks before)
    (h : HasMembers true gs ms) (hafter : Blanks after) :
    IsObject (before ++ .char '\x7b' :: (gs ++ after)) ms

theorem HasMembers.isPart {first : Bool} {gs : List Glyph} {ms : List Member}
    (h : HasMembers first gs ms) : IsPart (.entries first) gs := by
  induction h with
  | none hblanks => exact .noEntry hblanks
  | @cons first comma before gs m ms hcomma hbefore hkey hbehind _ ih =>
    obtain ⟨key, _⟩ := m
    obtain ⟨hbetween, blanks, v, rfl, hblanks, hv⟩ := hbehind
    exact .entry hcomma hbefore hkey hbetween hblanks hv ih

theorem IsPart.exists_members {first : Bool} {gs : List Glyph} (h : IsPart (.entries first) gs) :
    ∃ ms, HasMembers first gs ms := by
  generalize hp : Part.entries first = p at h
  induction h generalizing first with
  | noEntry hblanks => exact ⟨[], .none hblanks⟩
  | @entry _ comma before key between blanks v gs hcomma hbefore hkey hbetween hblanks hv _ _ ih =>
    cases hp
    obtain ⟨ms, hms⟩ := ih rfl
    have hbehind : IsColoned (between ++ .char ':' :: (blanks ++ v)) :=
      .mk hbetween ⟨blanks, v, rfl, hblanks, hv⟩
    exact ⟨⟨key, _⟩ :: ms, .cons (m := ⟨key, _⟩) hcomma hbefore hkey hbehind hms⟩
  | _ => cases hp

/-- What the key of a member reads. -/
def Member.key? (m : Member) : Option String := made textBody m.key

/-- What a member adds to what has been made of those before it. -/
def Member.add (entry : String → σ → Reader σ) (s : σ) (m : Member) : Option σ := do
  let key ← m.key?
  made (entry key s) m.behind

section Loop

variable {entry : String → σ → Reader σ}

theorem foldlM_of_entriesFrom (hentry : ∀ key s, Exact (entry key s) IsColoned) {first : Bool}
    {gs : List Glyph} {ms : List Member} (h : HasMembers first gs ms) {rounds : Nat}
    {rest : List Glyph} {offset : Nat} {s last : σ} {behind : Cursor}
    (hread : entriesFrom entry rounds first s ⟨gs ++ rest, offset⟩ = .ok (last, behind)) :
    behind.rest = rest ∧ ms.foldlM (Member.add entry) s = some last := by
  induction h generalizing rounds offset s with
  | @none first blanks hblanks =>
    cases rounds with
    | zero => cases hread
    | succ rounds =>
      obtain ⟨offset', hend⟩ := nextKey_end_append first hblanks rest offset
      rw [List.append_assoc, List.singleton_append, entriesFrom, hend] at hread
      cases hread
      exact ⟨rfl, rfl⟩
  | @cons first comma before gs m ms hcomma hbefore hkey hbehind hgs ih =>
    cases rounds with
    | zero => cases hread
    | succ rounds =>
      have htext : comma ++ (before ++ .char '"' :: m.key) ++ m.behind ++ gs ++ rest =
          comma ++ (before ++ .char '"' :: (m.key ++ (m.behind ++ (gs ++ rest)))) := by simp
      obtain ⟨offset', hnext⟩ := exists_nextKey_eq hcomma hbefore
        (m.key ++ (m.behind ++ (gs ++ rest))) offset
      rw [htext, entriesFrom, hnext] at hread
      obtain ⟨⟨found, c⟩, hkey', hread⟩ := bind_eq_ok_iff.1 hread
      obtain ⟨⟨key, c'⟩, htextBody, hfound⟩ := map_eq_ok_iff.1 hkey'
      cases hfound
      obtain ⟨hc, hmade⟩ := made_key_of_read hkey htextBody
      obtain ⟨⟨next, c₁⟩, hvalue, hothers⟩ := bind_eq_ok_iff.1 hread
      -- The rest of the loop shows that nothing goes on with a number behind the member.
      obtain ⟨taken, hc₁, htaken, -⟩ := exists_entriesFrom hentry hothers
      have hends : Ends c₁.rest := hc₁ ▸ htaken.ends (b := .object) _
      obtain ⟨rest', offset₁⟩ := c'
      obtain rfl : rest' = _ := hc
      obtain ⟨hrest, hadd⟩ := (hentry key s).made_of_read unambiguous_coloned hbehind
        (hgs.isPart.ends (b := .object) rest) hvalue hends
      obtain ⟨rest₂, offset₂⟩ := c₁
      obtain rfl : rest₂ = _ := hrest
      obtain ⟨hlast, hfold⟩ := ih hothers
      refine ⟨hlast, ?_⟩
      simp only [List.foldlM_cons, Member.add, Member.key?, hmade, Option.bind_eq_bind, Option.bind_some, hadd,
        hfold]

theorem entriesFrom_of_foldlM (hentry : ∀ key s, Exact (entry key s) IsColoned) {first : Bool}
    {gs : List Glyph} {ms : List Member} (h : HasMembers first gs ms) {s last : σ}
    (hfold : ms.foldlM (Member.add entry) s = some last) {rounds : Nat} (hrounds : gs.length ≤ rounds)
    (rest : List Glyph) : Yields (entriesFrom entry rounds first s) (gs ++ rest) last rest := by
  induction h generalizing rounds s with
  | @none first blanks hblanks =>
    cases hfold
    obtain ⟨rounds, rfl⟩ := Nat.exists_eq_succ_of_ne_zero (n := rounds) (by simp at hrounds; omega)
    exact yields_noEntry entry rounds first _ hblanks rest
  | @cons first comma before gs m ms hcomma hbefore hkey hbehind hgs ih =>
    simp only [List.length_append, List.length_cons] at hrounds
    obtain ⟨rounds, rfl⟩ := Nat.exists_eq_succ_of_ne_zero (n := rounds) (by omega)
    rw [List.foldlM_cons, Member.add] at hfold
    obtain ⟨next, hadd, hothers⟩ := Option.bind_eq_some_iff.1 hfold
    obtain ⟨key, hmade, hvalue⟩ := Option.bind_eq_some_iff.1 hadd
    exact yields_entry hcomma hbefore (yields_key hmade) ((hentry key s).made_eq_some_iff.1 hvalue)
      hgs.isPart (ih hothers (by omega))

end Loop

/-! ## Whole objects -/

/-- The room within the outermost bracket of a whole text. -/
def innerRoom : Nat := startRoom - 1

/-- The draft that members make one after the other. -/
def Record.draftOf (r : Record σ α) (ms : List Member) : Option σ :=
  ms.foldlM (Member.add (r.entry innerRoom)) r.start

/-- Behind an opening brace, the loop over the entries makes the draft. -/
theorem Record.draft_object (r : Record σ α) (room : Nat) {before : List Glyph}
    (hbefore : Blanks before) (gs : List Glyph) (offset : Nat) :
    r.draft (room + 1) ⟨before ++ .char '\x7b' :: gs, offset⟩ =
      entriesFrom (r.entry room) gs.length true r.start ⟨gs, offset + before.length + 1⟩ := by
  have hsolid : Solid (.char '\x7b' :: gs) := solid_cons.2 (by decide)
  have hcomes := comes_append hbefore (g := .char '\x7b') (by decide) '\x7b' gs offset
  rw [Record.draft_eq, hcomes, Cursor.skipBlanks_append hbefore hsolid, if_pos (by simp)]
  rfl

theorem Record.ReadsExactly.decodeGlyphs_draft {r : Record σ α} (hr : r.ReadsExactly)
    {input : List Glyph} {ms : List Member} (h : IsObject input ms) (d : σ) :
    decodeGlyphs r.draft input = .ok d ↔ r.draftOf ms = some d := by
  obtain ⟨hbefore, hms, hafter⟩ := h
  rename_i before gs after
  have hdraft := r.draft_object innerRoom hbefore (gs ++ after) 0
  rw [decodeGlyphs_eq_ok_iff, Cursor.start]
  show (∃ behind, r.draft (innerRoom + 1) _ = _ ∧ _) ↔ _
  rw [hdraft]
  constructor
  · rintro ⟨behind, hread, -⟩
    exact (foldlM_of_entriesFrom (hr.entry innerRoom) hms hread).2
  · intro hfold
    obtain ⟨offset, hread⟩ := entriesFrom_of_foldlM (hr.entry innerRoom) hms hfold
      (by simp : gs.length ≤ (gs ++ after).length) after (0 + before.length + 1)
    exact ⟨⟨after, offset⟩, hread, skipBlanks_rest_eq_nil_iff.2 hafter⟩

theorem Record.decodeGlyphs_decoder {r : Record σ α} {input : List Glyph} {a : α} :
    decodeGlyphs r.decoder input = .ok a ↔
      ∃ d, decodeGlyphs r.draft input = .ok d ∧ r.finish d = some a := by
  simp only [decodeGlyphs_eq_ok_iff, decoder_eq_ok_iff]
  constructor
  · rintro ⟨behind, ⟨d, hdraft, hfinish⟩, hend⟩
    exact ⟨d, ⟨behind, hdraft, hend⟩, hfinish⟩
  · rintro ⟨d, ⟨behind, hdraft, hend⟩, hfinish⟩
    exact ⟨behind, ⟨d, hdraft, hfinish⟩, hend⟩

/-- Nothing but an object is read behind an opening brace. -/
theorem Record.ReadsExactly.exists_isObject {r : Record σ α} (hr : r.ReadsExactly)
    {input : List Glyph} {d : σ} (hcomes : comes '\x7b' (.start input) = true)
    (h : decodeGlyphs r.draft input = .ok d) : ∃ ms, IsObject input ms := by
  obtain ⟨behind, hread, hend⟩ := decodeGlyphs_eq_ok_iff.1 h
  obtain ⟨before, hbefore, hinput, -⟩ := (Cursor.start input).exists_blanks
  have hafter := skipBlanks_rest_eq_nil_iff.1 hend
  rw [draft_eq, if_pos hcomes] at hread
  obtain ⟨inner, henter, hentries⟩ := bind_eq_ok_iff.1 hread
  cases henter
  obtain ⟨taken, htaken, hpart, -⟩ := exact_entries (hr.entry _) r.start hentries hafter.ends
  obtain ⟨ms, hms⟩ := hpart.exists_members
  rw [comes, decide_eq_true_eq] at hcomes
  obtain ⟨text, htext⟩ := List.head?_eq_some_iff.1 hcomes
  have hrest : text = taken ++ behind.rest := by
    simpa [Cursor.next, htext] using htaken
  rw [htext, hrest] at hinput
  obtain rfl : input = before ++ .char '\x7b' :: (taken ++ behind.rest) := hinput
  exact ⟨ms, .mk hbefore hms hafter⟩

end AppExport.Json
