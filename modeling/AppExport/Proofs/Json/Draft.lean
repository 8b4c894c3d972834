/-
A record is read in two steps: its draft, then what the draft makes. The draft tells a field that was
not given from one whose value was null, and fulfils what each field keeps.
-/
import AppExport.Proofs.Json.Results

namespace AppExport.Json

open Text (Glyph)

variable {α β σ : Type} {room : Nat}

/-- A refusal is the same whatever was expected to be read. -/
theorem exists_refuse_eq (expected : String) (c : Cursor) :
    ∃ fault, ∀ α : Type, refuse (α := α) expected c = .error fault := by
  simp only [refuse]
  cases hrest : c.skipBlanks.rest with
  | nil => exact ⟨_, fun _ => rfl⟩
  | cons g rest =>
    dsimp only
    split
    · exact ⟨_, fun _ => rfl⟩
    · split
      · exact ⟨_, fun _ => rfl⟩
      · cases valueWith none c.skipBlanks with
        | error fault => exact ⟨fault, fun _ => rfl⟩
        | ok read =>
          obtain ⟨v, behind⟩ := read
          cases v <;> exact ⟨_, fun _ => rfl⟩

namespace Record

/-- What a record is read into before it is finished. -/
def draft (r : Record σ α) : Decoder σ := fun room c => do
  if comes '\x7b' c then
    let (room, c) ← enter room c.skipBlanks
    entries (r.entry room) r.start c
  else if r.positional ∧ comes '[' c then
    let (room, c) ← enter room c.skipBlanks
    let (draft, c) ← r.itemsOf room 0 r.fields r.start c
    let c ← closeList c
    .ok (draft, c)
  else refuse r.label c

theorem decoder_eq (r : Record σ α) (room : Nat) (c : Cursor) :
    r.decoder room c = r.draft room c >>= fun read => r.complete read.1 read.2 := by
  rw [decoder, draft]
  split
  · cases enter room c.skipBlanks with
    | error fault => rfl
    | ok inner => rfl
  · split
    · cases enter room c.skipBlanks with
      | error fault => rfl
      | ok inner =>
        simp only [bind, Except.bind]
        cases r.itemsOf inner.1 0 r.fields r.start inner.2 with
        | error fault => rfl
        | ok read => cases hclose : closeList read.2 <;> simp [hclose]
    · obtain ⟨fault, hrefuse⟩ := exists_refuse_eq r.label c
      rw [hrefuse, hrefuse]
      rfl

theorem decoder_eq_ok_iff {r : Record σ α} {c behind : Cursor} {a : α} :
    r.decoder room c = .ok (a, behind) ↔
      ∃ d, r.draft room c = .ok (d, behind) ∧ r.finish d = some a := by
  rw [decoder_eq, bind_eq_ok_iff]
  constructor
  · rintro ⟨⟨d, c'⟩, hdraft, hcomplete⟩
    rw [complete] at hcomplete
    split at hcomplete
    next hfinish =>
      cases hcomplete
      exact ⟨d, hdraft, hfinish⟩
    next => cases hcomplete
  · rintro ⟨d, hdraft, hfinish⟩
    exact ⟨(d, behind), hdraft, by simp only [complete, hfinish]⟩

/-- Every draft fulfils what the fields of its record keep. -/
theorem draft_gives {r : Record σ α} {P : Nat → σ → Prop}
    (h : ∀ inner, room = inner + 1 → r.KeepsIn inner (P inner)) :
    Gives (r.draft room) fun d => ∃ inner, room = inner + 1 ∧ P inner d := by
  intro c d behind hread
  rw [draft] at hread
  split at hread
  · obtain ⟨⟨inner, c'⟩, henter, hentries⟩ := bind_eq_ok_iff.1 hread
    have hroom := eq_succ_of_enter henter
    have hkeeps := h inner hroom
    exact ⟨inner, hroom, entries_gives hkeeps.entry hkeeps.start hentries⟩
  · split at hread
    · obtain ⟨⟨inner, c'⟩, henter, hread⟩ := bind_eq_ok_iff.1 hread
      obtain ⟨⟨d', c''⟩, hitems, hread⟩ := bind_eq_ok_iff.1 hread
      obtain ⟨closed, -, hread⟩ := bind_eq_ok_iff.1 hread
      cases hread
      have hroom := eq_succ_of_enter henter
      have hkeeps := h inner hroom
      exact ⟨inner, hroom,
        hkeeps.itemsOf r.fields 0 r.start (fun _ hf => hf) hkeeps.start hitems⟩
    · exact refuse_gives r.label (fun d => ∃ inner, room = inner + 1 ∧ P inner d) hread

/-- Every record that is read is finished from a draft that fulfils what its fields keep. -/
theorem decoder_gives {r : Record σ α} {P : Nat → σ → Prop}
    (h : ∀ inner, room = inner + 1 → r.KeepsIn inner (P inner)) :
    Gives (r.decoder room) fun a =>
      ∃ inner, room = inner + 1 ∧ ∃ draft, P inner draft ∧ r.finish draft = some a := by
  intro c a behind hread
  obtain ⟨d, hdraft, hfinish⟩ := decoder_eq_ok_iff.1 hread
  obtain ⟨inner, hroom, hd⟩ := draft_gives h hdraft
  exact ⟨inner, hroom, d, hd, hfinish⟩

/-- What the fields of a record keep whatever is left, and what is done with other keys. -/
structure Keeps (r : Record σ α) (P : σ → Prop) : Prop where
  start : P r.start
  fields : ∀ field ∈ r.fields, ∀ room draft, P draft → Gives (field.read draft room) P
  others : ∀ rule ∈ r.others, ∀ key, r.fields.find? (·.answers key) = none →
    ∀ room draft, P draft → Gives (rule key draft room) P

theorem Keeps.decoder {r : Record σ α} {P : σ → Prop} (h : r.Keeps P) :
    Gives (r.decoder room) fun a => ∃ draft, P draft ∧ r.finish draft = some a := by
  have hkeeps : ∀ inner, room = inner + 1 → r.KeepsIn inner P := fun inner _ =>
    ⟨h.start, fun field hfield => h.fields field hfield inner,
      fun rule hrule key hkey => h.others rule hrule key hkey inner⟩
  intro c a behind hread
  obtain ⟨inner, -, draft, hdraft, hfinish⟩ := decoder_gives hkeeps hread
  exact ⟨draft, hdraft, hfinish⟩

/-- A record whose draft can always be finished. -/
theorem decoder_eq_of_total {r : Record σ α} {f : σ → α} (h : ∀ d, r.finish d = some (f d))
    (room : Nat) (c : Cursor) :
    r.decoder room c = (r.draft room c).map fun read => (f read.1, read.2) := by
  rw [decoder_eq]
  cases r.draft room c with
  | error fault => rfl
  | ok read => simp [bind, Except.bind, Except.map, complete, h]

end Record

theorem decodeGlyphs_map {decoder : Decoder α} {decoder' : Decoder β} {f : α → β}
    (h : ∀ room c, decoder' room c = (decoder room c).map fun read => (f read.1, read.2))
    (input : List Glyph) : decodeGlyphs decoder' input = (decodeGlyphs decoder input).map f := by
  simp only [decodeGlyphs, h]
  cases decoder startRoom (.start input) with
  | error fault => rfl
  | ok read =>
    simp only [Except.map]
    split <;> rfl

end AppExport.Json
