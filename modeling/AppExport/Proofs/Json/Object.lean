/-
Objects of values. The entries that are read where an object is expected are those of the value that
the object is, and they are made of the members: each key with its value, in the order of the text.
-/
import AppExport.Proofs.Json.Fields
import AppExport.Proofs.Json.Overwrite

namespace AppExport.Json

open Text (Glyph)

variable {room : Nat}

/-! ## Objects as values -/

/-- At an opening brace, everything depends on what may be read within. -/
theorem valueWith_brace {c : Cursor} (h : comes '\x7b' c = true) :
    valueWith none c = .error (c.skipBlanks.faultAhead .tooDeep) ∧ ∀ reader,
      valueWith (some reader) c =
        (entries (entryOf reader) [] c.skipBlanks.next).map fun read => (.object read.1, read.2) := by
  have hdigit : (Glyph.char '\x7b').digit?.isSome = false := by decide
  rw [comes, decide_eq_true_eq] at h
  obtain ⟨gs, hgs⟩ := List.head?_eq_some_iff.1 h
  unfold valueWith
  simp only [hgs, Glyph.char.injEq, Char.reduceEq, hdigit, Bool.false_eq_true, if_true, if_false,
    implies_true, and_self]

theorem comes_of_value_object {c behind : Cursor} {es : Entries}
    (h : value room c = .ok (.object es, behind)) : comes '\x7b' c = true := by
  obtain ⟨inner, hinner⟩ := value_eq_valueWith room
  rw [hinner] at h
  unfold valueWith at h
  cases hrest : c.skipBlanks.rest with
  | nil => simp only [hrest] at h; cases h
  | cons g gs =>
    by_contra hcomes
    have hg : g ≠ .char '\x7b' := fun hg => hcomes (by simp [comes, hrest, hg])
    simp only [hrest, hg, if_false] at h
    repeat' split at h
    all_goals first
      | cases h
      | obtain ⟨read, -, hread⟩ := map_eq_ok_iff.1 h
        cases hread

/-- Where an object is expected, the entries of a value that is one are read. -/
theorem objectOf_eq_ok_iff {expected : String} {c behind : Cursor} {es : Entries} :
    objectOf expected room c = .ok (es, behind) ↔ value room c = .ok (.object es, behind) := by
  cases hcomes : comes '\x7b' c with
  | false =>
    have hrefuse : objectOf expected room c ≠ .ok (es, behind) := by
      rw [objectOf, hcomes]
      exact refuse_ne_ok expected c _
    refine iff_of_false hrefuse fun h => ?_
    rw [comes_of_value_object h] at hcomes
    cases hcomes
  | true =>
    rw [objectOf, if_pos hcomes]
    cases room with
    | zero => simp [enter, value, (valueWith_brace hcomes).1, bind, Except.bind]
    | succ room =>
      rw [value, (valueWith_brace hcomes).2, map_eq_ok_iff]
      simp [enter, bind, Except.bind, Prod.ext_iff]

theorem decode_objectOf_eq_ok_iff (expected : String) {text : String} {es : Entries} :
    decode (objectOf expected) text = .ok es ↔ decode value text = .ok (.object es) := by
  simp only [decode, decodeGlyphs_eq_ok_iff, objectOf_eq_ok_iff]

/-! ## Objects from their members -/

/-- An object as a record without fields. -/
def objectRecord (label : String) : Record Entries Entries where
  label := label
  fields := []
  others := some fun key entries room c => value room c >>= fun read =>
    .ok (entries.insert key read.1, read.2)
  positional := false
  start := []
  finish := some

theorem objectRecord_readsExactly (label : String) : (objectRecord label).ReadsExactly where
  fields := nofun
  others := by
    rintro _ ⟨⟩ key entries room
    exact (exact_value room).bind_ok (entries.insert key)

theorem entry_objectRecord (label : String) (room : Nat) :
    (objectRecord label).entry room = entryOf (value room) := by
  funext key entries c
  rfl

theorem objectOf_eq_decoder (label : String) : objectOf label = (objectRecord label).decoder := by
  funext room c
  rw [objectOf, Record.decoder_eq, Record.draft_eq]
  split
  · cases henter : enter room c.skipBlanks with
    | error fault => rfl
    | ok inner =>
      obtain ⟨room', c'⟩ := inner
      simp only [bind, Except.bind]
      rw [entry_objectRecord]
      cases hread : entries (entryOf (value room')) [] c' with
      | error fault => simp only [objectRecord, hread]
      | ok read => simp only [objectRecord, hread, Record.complete]
  · obtain ⟨fault, hrefuse⟩ := exists_refuse_eq label c
    simp only [objectRecord, hrefuse, Bool.false_eq_true, false_and, if_false]
    rfl

theorem comes_of_objectRecord {label : String} {c : Cursor} {read : Entries × Cursor}
    (h : (objectRecord label).draft room c = .ok read) : comes '\x7b' c = true := by
  by_contra hcomes
  rw [Record.draft_eq, if_neg hcomes, if_neg (by simp [objectRecord])] at h
  exact refuse_ne_ok label c read h

/-- What a member is as an entry. -/
def Member.pair? (m : Member) : Option (String × Value) := do
  let key ← m.key?
  let v ← m.value?
  return (key, v)

theorem Member.add_entryOf (m : Member) (entries : Entries) :
    m.add (entryOf (value innerRoom)) entries = m.pair?.map fun e => entries.insert e.1 e.2 := by
  rw [pair?, add]
  cases m.key? with
  | none => rfl
  | some key =>
    have hentry : entryOf (value innerRoom) key entries = fun c => colon c >>= fun read =>
        (value innerRoom read.2).map fun read => (entries.insert key read.1, read.2) := by
      funext c
      rw [entryOf]
      refine congrArg (colon c >>= ·) (funext fun read => ?_)
      obtain ⟨_, c'⟩ := read
      cases hread : value innerRoom c' <;> simp only [hread] <;> rfl
    have hvalue := valueBy_map (value innerRoom) (Entries.insert key · entries) m
    simp only [Option.bind_eq_bind, Option.bind_some, hentry]
    exact hvalue.trans (by rw [value?]; cases m.valueBy (value innerRoom) <;> rfl)

theorem foldlM_entryOf (ms : List Member) (entries : Entries) :
    ms.foldlM (Member.add (entryOf (value innerRoom))) entries =
      (ms.mapM Member.pair?).map entries.insertAll := by
  induction ms generalizing entries with
  | nil => rfl
  | cons m ms ih =>
    rw [List.foldlM_cons, List.mapM_cons, Member.add_entryOf]
    cases m.pair? with
    | none => rfl
    | some e =>
      show ms.foldlM _ (entries.insert e.1 e.2) = _
      rw [ih]
      cases ms.mapM Member.pair? <;> rfl

/-- A text is decoded to entries if it is an object whose members are read to them, one after the
other. -/
theorem decode_objectOf_eq_ok_iff_members {label text : String} {entries : Entries} :
    decode (objectOf label) text = .ok entries ↔ ∃ ms es, IsObject (Text.glyphsOfString text) ms ∧
      ms.mapM Member.pair? = some es ∧ Entries.insertAll [] es = entries := by
  have hdraft (ms : List Member) : (objectRecord label).draftOf ms =
      (ms.mapM Member.pair?).map (Entries.insertAll []) := by
    rw [← foldlM_entryOf, ← entry_objectRecord label]
    rfl
  have hexact := objectRecord_readsExactly label
  rw [decode, objectOf_eq_decoder, Record.decodeGlyphs_decoder]
  constructor
  · rintro ⟨d, hread, hd⟩
    cases hd
    obtain ⟨behind, hstart, -⟩ := decodeGlyphs_eq_ok_iff.1 hread
    obtain ⟨ms, hms⟩ := hexact.exists_isObject (comes_of_objectRecord hstart) hread
    rw [hexact.decodeGlyphs_draft hms, hdraft] at hread
    obtain ⟨es, hes, hentries⟩ := Option.map_eq_some_iff.1 hread
    exact ⟨ms, es, hms, hes, hentries⟩
  · rintro ⟨ms, es, hms, hes, rfl⟩
    exact ⟨_, (hexact.decodeGlyphs_draft hms _).2 (by rw [hdraft, hes]; rfl), rfl⟩

end AppExport.Json
