/-
One field of a record among its members. A slot is filled from the one member that has its key, and no
other member changes it, so what a record holds there is what that member's value is read as.
-/
import AppExport.Proofs.Json.Fields

namespace AppExport.Json

open Text (Glyph)

variable {α β γ σ : Type} {room : Nat}

/-! ## Members with a value -/

/-- Whether a text is an object that has a value under a key. -/
def HasMember (text : List Glyph) (key : String) (value : List Glyph) : Prop :=
  ∃ ms m between blanks, IsObject text ms ∧ m ∈ ms ∧ m.key? = some key ∧ Blanks between ∧
    Blanks blanks ∧ m.behind = between ++ .char ':' :: (blanks ++ value)

theorem IsObject.blanks_append {blanks text : List Glyph} {ms : List Member} (hblanks : Blanks blanks)
    (h : IsObject text ms) : IsObject (blanks ++ text) ms := by
  obtain ⟨hbefore, hms, hafter⟩ := h
  rw [← List.append_assoc]
  exact .mk (hblanks.append hbefore) hms hafter

theorem HasMember.blanks_append {blanks text value : List Glyph} {key : String}
    (hblanks : Blanks blanks) (h : HasMember text key value) : HasMember (blanks ++ text) key value := by
  obtain ⟨ms, m, between, blanks', hobject, hm⟩ := h
  exact ⟨ms, m, between, blanks', hobject.blanks_append hblanks, hm⟩

namespace Member

variable {m : Member} {between value : List Glyph} {reader : Reader α} {a : α}

theorem exists_read_of_valueBy (hbetween : Blanks between)
    (hbehind : m.behind = between ++ .char ':' :: value) (h : m.valueBy reader = some a) :
    ∃ offset offset', reader ⟨value, offset⟩ = .ok (a, ⟨[], offset'⟩) := by
  obtain ⟨c, offset', hcolon, hread⟩ := valueBy_eq_some_iff.1 h
  obtain ⟨offset, hcolon'⟩ := colon_append hbetween value 0
  rw [Cursor.start, hbehind, hcolon'] at hcolon
  cases hcolon
  exact ⟨offset, offset', hread⟩

theorem valueBy_of_yields (hbetween : Blanks between)
    (hbehind : m.behind = between ++ .char ':' :: value) (h : Yields reader value a []) :
    m.valueBy reader = some a := by
  obtain ⟨offset, hcolon⟩ := colon_append hbetween value 0
  obtain ⟨offset', hread⟩ := h offset
  exact valueBy_eq_some_iff.2 ⟨⟨value, offset⟩, offset', by rw [Cursor.start, hbehind, hcolon], hread⟩

/-- A member with a key as it is written and any text as its value. -/
def holding (key : String) (value : List Glyph) : Member where
  key := Text.glyphsOfString (key ++ "\"")
  behind := .char ':' :: value

/-- A key without escapes is read as it is written. -/
theorem key?_holding {key : String} (h : key.toList.flatMap Text.escape = key.toList)
    (value : List Glyph) : (holding key value).key? = some key := by
  obtain ⟨offset, hread⟩ := reads_textBody key [] 0 stops_nil
  rw [h, List.append_nil] at hread
  refine made_eq_some_iff.2 ⟨offset, ?_⟩
  have htext : Text.glyphsOfString (key ++ "\"") = (key.toList ++ ['"']).map Glyph.char := by
    simp [Text.glyphsOfString]
  rw [holding, htext]
  exact hread

theorem valueBy_holding {key : String} (h : Yields reader value a []) :
    (holding key value).valueBy reader = some a :=
  valueBy_of_yields blanks_nil rfl h

end Member

theorem yields_of_reads {reader : Reader α} {text : String} {a : α} (h : Reads reader text.toList a) :
    Yields reader (Text.glyphsOfString text) a [] := by
  intro offset
  obtain ⟨offset', hread⟩ := h [] offset stops_nil
  rw [List.append_nil] at hread
  exact ⟨offset', hread⟩

/-! ## Records from their members -/

namespace Record.ReadsExactly

variable {r : Record σ α}

/-- A record that is read from an object is made of the members of the object. -/
theorem exists_draft (hr : r.ReadsExactly) {text rest : List Glyph} {ms : List Member}
    (h : IsObject text ms) {offset : Nat} {a : α} {behind : Cursor}
    (hread : r.decoder room ⟨text ++ rest, offset⟩ = .ok (a, behind)) :
    ∃ inner d, room = inner + 1 ∧ ms.foldlM (Member.add (r.entry inner)) r.start = some d ∧
      r.finish d = some a := by
  cases h with
  | @mk before gs after _ hbefore hms hafter =>
    obtain ⟨d, hdraft, hfinish⟩ := decoder_eq_ok_iff.1 hread
    rw [List.append_assoc, List.cons_append, List.append_assoc] at hdraft
    cases room with
    | zero =>
      have hcomes := comes_append hbefore (g := .char '\x7b') (by decide) '\x7b'
        (gs ++ (after ++ rest)) offset
      rw [draft_eq, hcomes, if_pos (by simp)] at hdraft
      cases hdraft
    | succ inner =>
      rw [draft_object r inner hbefore] at hdraft
      obtain ⟨-, hfold⟩ := foldlM_of_entriesFrom (hr.entry inner) hms hdraft
      exact ⟨inner, d, rfl, hfold, hfinish⟩

theorem yields_decoder (hr : r.ReadsExactly) {gs : List Glyph} {ms : List Member}
    (hms : HasMembers true gs ms) {d : σ}
    (hfold : ms.foldlM (Member.add (r.entry room)) r.start = some d) {a : α}
    (hfinish : r.finish d = some a) : Yields (r.decoder (room + 1)) (.char '\x7b' :: gs) a [] := by
  intro offset
  have hdraft := r.draft_object room blanks_nil gs offset
  obtain ⟨offset', hread⟩ := entriesFrom_of_foldlM (hr.entry room) hms hfold (Nat.le_refl gs.length)
    [] (offset + 0 + 1)
  rw [List.append_nil] at hread
  rw [List.nil_append, List.length_nil, hread] at hdraft
  exact ⟨offset', decoder_eq_ok_iff.2 ⟨d, hdraft, hfinish⟩⟩

end Record.ReadsExactly

/-! ## What stays in a slot -/

/-- Whether a field changes nothing of what has been put in some place of a draft, unless it is refused
there. -/
def Field.Retains (field : Field σ) (get : σ → Option β) : Prop :=
  ∀ draft room, field.given draft = false →
    Gives (field.read draft room) fun d => ∀ b, get draft = some b → get d = some b

theorem Field.Retains.slot {name : String} {aliases : List String} {optional : Bool}
    {get : σ → Option β} {set : σ → β → σ} {decoder : Decoder β} :
    (Field.slot name aliases optional get set decoder).Retains get := by
  intro draft room hgiven
  refine slot_gives (Q := fun _ => True) (fun _ _ _ _ => trivial) fun _ _ b hb => ?_
  have hnone : (get draft).isSome = false := hgiven
  rw [hb] at hnone
  cases hnone

theorem Field.Retains.other {name : String} {aliases : List String} {optional : Bool}
    {get : σ → Option β} {put : σ → Option γ} {set : σ → γ → σ} {decoder : Decoder γ}
    (h : ∀ draft c, get (set draft c) = get draft) :
    (Field.slot name aliases optional put set decoder).Retains get := by
  intro draft room _
  exact slot_gives (Q := fun _ => True) (fun _ _ _ _ => trivial) fun c _ b hb => (h draft c).trans hb

structure Record.Retains (r : Record σ α) (get : σ → Option β) : Prop where
  fields : ∀ field ∈ r.fields, field.Retains get
  others : ∀ rule ∈ r.others, ∀ key draft room,
    Gives (rule key draft room) fun d => ∀ b, get draft = some b → get d = some b

namespace Record.Retains

variable {r : Record σ α} {get : σ → Option β}

theorem entry (h : r.Retains get) (key : String) (draft : σ) :
    Gives (r.entry room key draft) fun d => ∀ b, get draft = some b → get d = some b := by
  intro c d behind hread
  obtain ⟨field, c', hfind, hgiven, hfield⟩ | ⟨-, ⟨rule, c', hothers, hrule⟩ | ⟨-, rfl⟩⟩ :=
    Record.entry_cases hread
  · exact h.fields field (List.mem_of_find?_eq_some hfind) draft room hgiven hfield
  · exact h.others rule hothers key draft room hrule
  · exact fun _ hb => hb

theorem add (h : r.Retains get) {m : Member} {draft d : σ} {b : β}
    (hadd : m.add (r.entry room) draft = some d) (hb : get draft = some b) : get d = some b := by
  obtain ⟨key, -, hmade⟩ := Option.bind_eq_some_iff.1 hadd
  obtain ⟨offset, hread⟩ := made_eq_some_iff.1 hmade
  exact h.entry key draft hread b hb

theorem foldlM (h : r.Retains get) {ms : List Member} {draft last : σ} {b : β}
    (hfold : ms.foldlM (Member.add (r.entry room)) draft = some last) (hb : get draft = some b) :
    get last = some b := by
  induction ms generalizing draft with
  | nil => exact Option.some.inj hfold ▸ hb
  | cons m ms ih =>
    rw [List.foldlM_cons] at hfold
    obtain ⟨d, hadd, hothers⟩ := Option.bind_eq_some_iff.1 hfold
    exact ih hothers (h.add hadd hb)

/-- A slot holds what the value of its member is read as. -/
theorem get_of_mem (h : r.Retains get) {ms : List Member} {m : Member} (hm : m ∈ ms) {key : String}
    (hkey : m.key? = some key) {name : String} {aliases : List String} {optional : Bool}
    {set : σ → β → σ} {decoder : Decoder β}
    (hfind : r.fields.find? (·.answers key) = some (.slot name aliases optional get set decoder))
    (hset : ∀ d b, get (set d b) = some b) {start last : σ}
    (hfold : ms.foldlM (Member.add (r.entry room)) start = some last) :
    ∃ b, m.valueBy (decoder room) = some b ∧ get last = some b := by
  -- the members before are of no account, and those behind find the slot filled
  obtain ⟨before, after, rfl⟩ := List.append_of_mem hm
  rw [List.foldlM_append] at hfold
  obtain ⟨draft, -, hfold⟩ := Option.bind_eq_some_iff.1 hfold
  rw [List.foldlM_cons] at hfold
  obtain ⟨next, hadd, hothers⟩ := Option.bind_eq_some_iff.1 hfold
  rw [Member.add_slot hkey hfind] at hadd
  split at hadd
  next => cases hadd
  next =>
    obtain ⟨b, hvalue, rfl⟩ := Option.map_eq_some_iff.1 hadd
    exact ⟨b, hvalue, h.foldlM hothers (hset draft b)⟩

/-- A record that is read from an object has been given what a value of the object is read as. -/
theorem exists_get (h : r.Retains get) (hr : r.ReadsExactly) {text rest value : List Glyph}
    {key : String} (hmember : HasMember text key value) {name : String} {aliases : List String}
    {optional : Bool} {set : σ → β → σ} {decoder : Decoder β}
    (hfind : r.fields.find? (·.answers key) = some (.slot name aliases optional get set decoder))
    (hset : ∀ d b, get (set d b) = some b) {offset : Nat} {a : α} {behind : Cursor}
    (hread : r.decoder room ⟨text ++ rest, offset⟩ = .ok (a, behind)) :
    ∃ inner d b blanks, room = inner + 1 ∧ r.finish d = some a ∧ get d = some b ∧ Blanks blanks ∧
      ∃ offset offset', decoder inner ⟨blanks ++ value, offset⟩ = .ok (b, ⟨[], offset'⟩) := by
  obtain ⟨ms, m, between, blanks, hobject, hm, hkey, hbetween, hblanks, hbehind⟩ := hmember
  obtain ⟨inner, d, rfl, hfold, hfinish⟩ := hr.exists_draft hobject hread
  obtain ⟨b, hvalue, hget⟩ := h.get_of_mem hm hkey hfind hset hfold
  exact ⟨inner, d, b, blanks, rfl, hfinish, hget, hblanks,
    m.exists_read_of_valueBy hbetween hbehind hvalue⟩

end Record.Retains

end AppExport.Json
