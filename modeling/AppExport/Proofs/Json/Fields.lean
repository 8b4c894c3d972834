/-
What one member adds to the draft of a record: its value if it is the first for a field, nothing if no
field has its key, and no draft at all if the field has been given before.
-/
import AppExport.Proofs.Json.Members

namespace AppExport.Json

open Text (Glyph)

variable {α β σ : Type} {room : Nat}

theorem made_map (reader : Reader α) (f : α → β) (text : List Glyph) :
    made (fun c => (reader c).map fun read => (f read.1, read.2)) text = (made reader text).map f := by
  rw [made, made]
  cases reader (.start text) with
  | error fault => rfl
  | ok read =>
    obtain ⟨a, rest, offset⟩ := read
    cases rest <;> rfl

theorem made_error (fault : Cursor → Fault) (text : List Glyph) :
    made (fun c => (.error (fault c) : Except Fault (α × Cursor))) text = none := rfl

namespace Member

/-- What a reader makes of the value of a member. -/
def valueBy (reader : Reader α) (m : Member) : Option α :=
  made (fun c => colon c >>= fun read => reader read.2) m.behind

/-- The value of a member. -/
def value? (m : Member) : Option Value := m.valueBy (value innerRoom)

theorem valueBy_eq_some_iff {reader : Reader α} {m : Member} {a : α} :
    m.valueBy reader = some a ↔ ∃ c offset, colon (.start m.behind) = .ok ((), c) ∧
      reader c = .ok (a, ⟨[], offset⟩) := by
  rw [valueBy, made_eq_some_iff]
  constructor
  · rintro ⟨offset, hread⟩
    obtain ⟨⟨_, c⟩, hcolon, hvalue⟩ := bind_eq_ok_iff.1 hread
    exact ⟨c, offset, hcolon, hvalue⟩
  · rintro ⟨c, offset, hcolon, hvalue⟩
    exact ⟨offset, by simp only [hcolon, bind, Except.bind, hvalue]⟩

theorem valueBy_map (reader : Reader α) (f : α → β) (m : Member) :
    m.valueBy (fun c => (reader c).map fun read => (f read.1, read.2)) = (m.valueBy reader).map f := by
  rw [valueBy, valueBy, ← made_map]
  congr 1
  funext c
  cases colon c <;> rfl

variable {m : Member} {key : String} {r : Record σ α} {draft : σ}

theorem add_of_key {entry : String → σ → Reader σ} (hkey : m.key? = some key) :
    m.add entry draft = made (entry key draft) m.behind := by
  rw [add, hkey, Option.bind_eq_bind, Option.bind_some]

theorem add_slot {name : String} {aliases : List String} {optional : Bool} {get : σ → Option β}
    {set : σ → β → σ} {decoder : Decoder β} (hkey : m.key? = some key)
    (hfind : r.fields.find? (·.answers key) = some (.slot name aliases optional get set decoder)) :
    m.add (r.entry room) draft =
      if (get draft).isSome then none else (m.valueBy (decoder room)).map (set draft) := by
  rw [add_of_key hkey]
  cases hgiven : (get draft).isSome with
  | true =>
    rw [funext (Record.entry_of_given hfind hgiven), made_error, if_pos rfl]
  | false =>
    have hentry : r.entry room key draft = fun c => colon c >>= fun read =>
        (decoder room read.2).map fun read => (set draft read.1, read.2) := by
      funext c
      rw [Record.entry_of_field hfind hgiven]
      exact congrArg (colon c >>= ·) (funext fun read => Field.read_slot ..)
    rw [hentry, if_neg Bool.false_ne_true]
    exact valueBy_map (decoder room) (set draft) m

theorem add_skipped (hkey : m.key? = some key) (hfind : r.fields.find? (·.answers key) = none)
    (hothers : r.others = none) :
    m.add (r.entry room) draft = (m.valueBy passing).map fun _ => draft := by
  have hentry : r.entry room key draft = fun c => colon c >>= fun read =>
      (passing read.2).map fun read => (draft, read.2) := by
    funext c
    rw [Record.entry_of_skipped hfind hothers]
    refine congrArg (colon c >>= ·) (funext fun read => ?_)
    cases hskip : skipValue read.2 <;> simp only [passing, hskip] <;> rfl
  rw [add_of_key hkey, hentry]
  exact valueBy_map passing (fun _ => draft) m

end Member

/-! ## Null -/

/-- Whether a reader takes no null. -/
def RefusesNull (reader : Reader α) : Prop :=
  ∀ ⦃c read⦄, comes 'n' c = true → reader c ≠ .ok read

theorem comes_eq_false {x y : Char} {c : Cursor} (h : comes x c = true) (hne : x ≠ y) :
    comes y c = false := by
  rw [comes, decide_eq_true_eq] at h
  simp [comes, h, hne]

theorem listOf_refusesNull (expected : String) (item : Decoder α) (room : Nat) :
    RefusesNull (listOf expected item room) := by
  intro c read hcomes
  rw [listOf, comes_eq_false hcomes (by decide)]
  exact refuse_ne_ok expected c read

theorem Record.decoder_refusesNull (r : Record σ α) (room : Nat) : RefusesNull (r.decoder room) := by
  intro c read hcomes
  simp only [Record.decoder, comes_eq_false hcomes (show 'n' ≠ '\x7b' by decide),
    comes_eq_false hcomes (show 'n' ≠ '[' by decide), Bool.false_eq_true, and_false, if_false]
  exact refuse_ne_ok r.label c read

/-- What is read where null may stand is what is read where it may not. -/
theorem orNull_eq_some_iff {decoder : Decoder α} (h : RefusesNull (decoder room)) {c behind : Cursor}
    {a : α} : orNull decoder room c = .ok (some a, behind) ↔ decoder room c = .ok (a, behind) := by
  rw [orNull]
  cases hcomes : comes 'n' c with
  | true =>
    have hne : decoder room c ≠ .ok (a, behind) := h hcomes
    cases null "" c <;> simp [bind, Except.bind, hne]
  | false => cases decoder room c <;> simp [bind, Except.bind, Prod.ext_iff]

theorem Member.valueBy_orNull {decoder : Decoder α} (h : RefusesNull (decoder room)) {m : Member}
    {a : α} : m.valueBy (orNull decoder room) = some (some a) ↔ m.valueBy (decoder room) = some a := by
  simp only [valueBy_eq_some_iff, orNull_eq_some_iff h]

/-- Any reader of values makes null of what begins as null does, and ends where null does. -/
theorem value_of_comes_null {c behind : Cursor} {v : Value} (hcomes : comes 'n' c = true)
    (h : value room c = .ok (v, behind)) :
    v = .null ∧ ∀ expected, null expected c = .ok ((), behind) := by
  have hword : ∃ inner, value room c = valueWith inner c := by
    cases room with
    | zero => exact ⟨none, rfl⟩
    | succ room => exact ⟨some (value room), rfl⟩
  obtain ⟨inner, hinner⟩ := hword
  have hhead := hcomes
  rw [comes, decide_eq_true_eq] at hhead
  obtain ⟨gs, hgs⟩ := List.head?_eq_some_iff.1 hhead
  simp only [hinner, valueWith, hgs, if_true] at h
  obtain ⟨⟨_, c'⟩, hread, heq⟩ := map_eq_ok_iff.1 h
  cases heq
  exact ⟨rfl, fun expected => by rw [null, if_pos hcomes, hread]⟩

theorem Member.valueBy_orNull_value {m : Member} {v : Value} (h : m.value? = some v)
    (hv : v ≠ .null) : m.valueBy (orNull value innerRoom) = some (some v) := by
  obtain ⟨c, offset, hcolon, hread⟩ := valueBy_eq_some_iff.1 h
  refine valueBy_eq_some_iff.2 ⟨c, offset, hcolon, ?_⟩
  have hcomes : comes 'n' c = false :=
    Bool.eq_false_iff.2 fun hcomes => hv (value_of_comes_null hcomes hread).1
  simp only [orNull, hcomes, Bool.false_eq_true, if_false, hread, bind, Except.bind]

/-! ## Objects from members -/

namespace Member

/-- A member with a key and a value as they are written. -/
def written (key value : String) : Member where
  key := Text.glyphsOfString (key ++ "\"")
  behind := Text.glyphsOfString (":" ++ value)

/-- Whether a member is a key and a value. -/
structure WellFormed (m : Member) : Prop where
  key : IsQuoted m.key
  behind : IsColoned m.behind

theorem isQuoted_of_key? {m : Member} {key : String} (h : m.key? = some key) : IsQuoted m.key := by
  obtain ⟨offset, hread⟩ := made_eq_some_iff.1 h
  obtain ⟨taken, htaken, hquoted, -⟩ := exists_textBody hread
  obtain rfl : m.key = taken := by rwa [List.append_nil] at htaken
  exact hquoted

/-- What an exact reader takes behind a key is a value. -/
theorem wellFormed_of_valueBy {m : Member} {key : String} {reader : Reader α} {a : α}
    (hreader : Exact reader IsSpaced) (hkey : m.key? = some key) (hvalue : m.valueBy reader = some a) :
    m.WellFormed := by
  refine ⟨isQuoted_of_key? hkey, ?_⟩
  obtain ⟨offset, hread⟩ := made_eq_some_iff.1 hvalue
  obtain ⟨taken, htaken, hcoloned, -⟩ := exact_colon hreader hread ends_nil
  obtain rfl : m.behind = taken := by rwa [List.append_nil] at htaken
  exact hcoloned

/-- A member whose key reads and whose value can be passed over. -/
theorem wellFormed_of_isSome {m : Member}
    (h : (m.key?.isSome && (m.valueBy passing).isSome) = true) : m.WellFormed := by
  obtain ⟨hkey, hvalue⟩ := Bool.and_eq_true_iff.1 h
  obtain ⟨key, hkey⟩ := Option.isSome_iff_exists.1 hkey
  obtain ⟨a, hvalue⟩ := Option.isSome_iff_exists.1 hvalue
  exact wellFormed_of_valueBy exact_passing hkey hvalue

def text (m : Member) : List Glyph := .char '"' :: (m.key ++ m.behind)

end Member

/-- Members behind another one, up to the closing brace. -/
def othersText : List Member → List Glyph
  | [] => [.char '\x7d']
  | m :: ms => .char ',' :: (m.text ++ othersText ms)

/-- An object without blanks between its members. -/
def objectText : List Member → List Glyph
  | [] => [.char '\x7b', .char '\x7d']
  | m :: ms => .char '\x7b' :: (m.text ++ othersText ms)

theorem blanks_nil : Blanks [] := fun _ h => absurd h List.not_mem_nil

theorem hasMembers_othersText {ms : List Member} (h : ∀ m ∈ ms, m.WellFormed) :
    HasMembers false (othersText ms) ms := by
  induction ms with
  | nil => exact .none blanks_nil
  | cons m ms ih =>
    obtain ⟨hm, hms⟩ := List.forall_mem_cons.1 h
    have hmembers := HasMembers.cons (.next blanks_nil) blanks_nil hm.key hm.behind (ih hms)
    simpa [othersText, Member.text] using hmembers

theorem isObject_objectText {ms : List Member} (h : ∀ m ∈ ms, m.WellFormed) :
    IsObject (objectText ms) ms := by
  cases ms with
  | nil => exact .mk blanks_nil (.none blanks_nil) blanks_nil
  | cons m ms =>
    obtain ⟨hm, hms⟩ := List.forall_mem_cons.1 h
    have hmembers := HasMembers.cons .first blanks_nil hm.key hm.behind (hasMembers_othersText hms)
    have hobject := IsObject.mk blanks_nil hmembers blanks_nil
    simpa [objectText, Member.text] using hobject

end AppExport.Json
