/-
Numbers among values. The text of a number is taken to it by every reader that can come upon it, and
how a value can have been read is told by its kind.
-/
import AppExport.Proofs.Json.Number
import AppExport.Proofs.Results

namespace AppExport.Json

open Decimal (isDigit isNumeral)
open Text (Glyph)

/-! ## Texts of numbers -/

theorem isSolid_of_isNumeral {c : Char} (h : isNumeral c = true) : isSolid c = true := by
  have hall : ∀ d ∈ [' ', '\n', '\t', '\r'], isNumeral d = false :=
    List.all_iff_forall_prop.1 (by decide)
  rw [isSolid, Bool.not_eq_true', Cursor.isBlank]
  refine Bool.eq_false_iff.2 fun hblank => ?_
  have hmem : c ∈ [' ', '\n', '\t', '\r'] := by simpa [or_assoc] using hblank
  rw [hall c hmem] at h
  cases h

theorem isSolid_of_isDigit {c : Char} (h : isDigit c = true) : isSolid c = true :=
  isSolid_of_isNumeral (Decimal.isNumeral_of_isDigit h)

theorem ne_of_isDigit {c d : Char} (h : isDigit c = true) (hd : isDigit d = false) : c ≠ d := by
  rintro rfl
  rw [h] at hd
  cases hd

theorem NumberText.opens {text : List Char} {n : Number} (h : NumberText text n) : Opens text := by
  obtain ⟨c, cs, rfl, ⟨rfl, -⟩ | ⟨hdigit, -⟩⟩ := h
  · exact ⟨'-', cs, rfl, by decide, by decide⟩
  · exact ⟨c, cs, rfl, isSolid_of_isDigit hdigit, ne_of_isDigit hdigit (by decide)⟩

/-- A reader that leaves numbers to the readers of their digits takes their texts. -/
theorem NumberText.reads {α : Type} {reader : Reader α} {text : List Char} {n : Number}
    (h : NumberText text n) (f : Number → α)
    (hminus : ∀ {cs offset n behind},
      numberBody true (Cursor.before ('-' :: cs) offset).next = .ok (n, behind) →
        reader (.before ('-' :: cs) offset) = .ok (f n, behind))
    (hdigit : ∀ {c cs offset n behind}, isDigit c = true →
      numberBody false (.before (c :: cs) offset) = .ok (n, behind) →
        reader (.before (c :: cs) offset) = .ok (f n, behind)) : Reads reader text (f n) := by
  obtain ⟨c, cs, rfl, ⟨rfl, hbody⟩ | ⟨hc, hbody⟩⟩ := h
  · intro rest offset hrest
    obtain ⟨offset', he⟩ := hbody rest offset hrest
    exact ⟨offset', hminus he⟩
  · intro rest offset hrest
    obtain ⟨offset', he⟩ := hbody rest offset hrest
    exact ⟨offset', hdigit hc he⟩

theorem reads_number {text : List Char} {n : Number} (h : NumberText text n) (expected : String) :
    Reads (number expected) text n := by
  refine h.reads id (fun {cs offset n behind} he => ?_) fun {c cs offset n behind} hdigit he => ?_
  · have hsolid : isSolid '-' = true := by decide
    simp only [number, Cursor.skipBlanks_before hsolid, comes_before hsolid, beq_self_eq_true,
      if_true]
    exact he
  · have hsolid := isSolid_of_isDigit hdigit
    have hminus : (c == '-') = false := beq_eq_false_iff_ne.2 (ne_of_isDigit hdigit (by decide))
    have hhead : ((Cursor.before (c :: cs) offset).rest.head?.bind Glyph.digit?).isSome = true :=
      digit?_isSome_of_isDigit hdigit
    simp only [number, Cursor.skipBlanks_before hsolid, comes_before hsolid, hminus,
      Bool.false_eq_true, if_false, hhead, if_true]
    exact he

theorem reads_valueWith_number {text : List Char} {n : Number} (h : NumberText text n)
    (inner : Option (Reader Value)) : Reads (valueWith inner) text (.number n) := by
  refine h.reads Value.number (fun {cs offset n behind} he => ?_) fun {c cs offset n behind} hdigit he => ?_
  · have hsolid : isSolid '-' = true := by decide
    unfold valueWith
    simp only [Cursor.skipBlanks_before hsolid, Cursor.rest_before, List.map_cons,
      Glyph.char.injEq, Char.reduceEq, if_false, if_true, he]
    rfl
  · have hne : ∀ d : Char, isDigit d = false → c ≠ d := fun _ => ne_of_isDigit hdigit
    unfold valueWith
    simp only [Cursor.skipBlanks_before (isSolid_of_isDigit hdigit), Cursor.rest_before,
      List.map_cons, Glyph.char.injEq, hne 'n' (by decide), hne 't' (by decide),
      hne 'f' (by decide), hne '-' (by decide), if_false, digit?_isSome_of_isDigit hdigit,
      if_true, he]
    rfl

/-! ## Reading a value -/

theorem value_eq_valueWith (room : Nat) : ∃ inner, value room = valueWith inner := by
  cases room with
  | zero => exact ⟨none, rfl⟩
  | succ room => exact ⟨some (value room), rfl⟩

/-- How a value can have been read from a cursor to the one behind it. -/
inductive ValueRead (inner : Option (Reader Value)) (c behind : Cursor) : Value → Prop
  | null (h : comes 'n' c = true) : ValueRead inner c behind .null
  | bool (b : Bool) : ValueRead inner c behind (.bool b)
  | negative {n : Number} {gs : List Glyph} (hstart : c.skipBlanks.rest = .char '-' :: gs)
    (h : numberBody true c.skipBlanks.next = .ok (n, behind)) :
    ValueRead inner c behind (.number n)
  | natural {n : Number} {g : Glyph} {gs : List Glyph} (hstart : c.skipBlanks.rest = g :: gs)
    (hdigit : g.digit?.isSome = true) (h : numberBody false c.skipBlanks = .ok (n, behind)) :
    ValueRead inner c behind (.number n)
  | text (s : String) : ValueRead inner c behind (.text s)
  | list {value : Reader Value} {vs : List Value} {start : Cursor} (hinner : inner = some value)
    (h : items value start = .ok (vs, behind)) : ValueRead inner c behind (.list vs)
  | object {value : Reader Value} {es : Entries} {start : Cursor} (hinner : inner = some value)
    (h : entries (entryOf value) [] start = .ok (es, behind)) : ValueRead inner c behind (.object es)

theorem valueRead_of_valueWith {inner : Option (Reader Value)} {c behind : Cursor} {v : Value}
    (h : valueWith inner c = .ok (v, behind)) : ValueRead inner c behind v := by
  unfold valueWith at h
  cases hrest : c.skipBlanks.rest with
  | nil => simp [hrest] at h
  | cons g gs =>
    simp only [hrest] at h
    split at h
    · next hg =>
      obtain ⟨⟨_, _⟩, -, hv⟩ := map_eq_ok_iff.1 h
      cases hv
      exact .null (by simp [comes, hrest, hg])
    split at h
    · obtain ⟨⟨_, _⟩, -, hv⟩ := map_eq_ok_iff.1 h
      cases hv
      exact .bool true
    split at h
    · obtain ⟨⟨_, _⟩, -, hv⟩ := map_eq_ok_iff.1 h
      cases hv
      exact .bool false
    split at h
    · next hg =>
      obtain ⟨⟨_, _⟩, hbody, hv⟩ := map_eq_ok_iff.1 h
      cases hv
      exact .negative (hg ▸ hrest) hbody
    split at h
    · next hg =>
      obtain ⟨⟨_, _⟩, hbody, hv⟩ := map_eq_ok_iff.1 h
      cases hv
      exact .natural hrest hg hbody
    split at h
    · obtain ⟨⟨s, _⟩, -, hv⟩ := map_eq_ok_iff.1 h
      cases hv
      exact .text s
    split at h
    · split at h
      · cases h
      · obtain ⟨⟨_, _⟩, hitems, hv⟩ := map_eq_ok_iff.1 h
        cases hv
        exact .list rfl hitems
    split at h
    · split at h
      · cases h
      · obtain ⟨⟨_, _⟩, hentries, hv⟩ := map_eq_ok_iff.1 h
        cases hv
        exact .object rfl hentries
    · cases h

/-- A text is decoded if it is read and only blanks follow. -/
theorem decodeGlyphs_eq_ok_iff {α : Type} {decoder : Decoder α} {input : List Glyph} {a : α} :
    decodeGlyphs decoder input = .ok a ↔
      ∃ behind, decoder startRoom (.start input) = .ok (a, behind) ∧ behind.skipBlanks.rest = [] := by
  rw [decodeGlyphs]
  cases hread : decoder startRoom (.start input) with
  | error fault => simp
  | ok read =>
    obtain ⟨b, behind⟩ := read
    by_cases hend : behind.skipBlanks.rest = [] <;> simp [hend]

theorem decode_eq_ok_iff {α : Type} {decoder : Decoder α} {text : String} {a : α} :
    decode decoder text = .ok a ↔ ∃ behind,
      decoder startRoom (.before text.toList 0) = .ok (a, behind) ∧ behind.skipBlanks.rest = [] :=
  decodeGlyphs_eq_ok_iff

theorem decode_of_reads {α : Type} {decoder : Decoder α} {chars : List Char} {a : α}
    (h : Reads (decoder startRoom) chars a) : decode decoder (String.ofList chars) = .ok a := by
  obtain ⟨offset, hread⟩ := h [] 0 stops_nil
  rw [List.append_nil] at hread
  refine decode_eq_ok_iff.2 ⟨.before [] offset, ?_, rfl⟩
  rwa [String.toList_ofList]

end AppExport.Json
