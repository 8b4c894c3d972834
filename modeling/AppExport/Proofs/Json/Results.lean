/-
What every result of a reader fulfils, whatever the text. A loop's result fulfils what each of its
rounds keeps, and a record's what each of its fields keeps, in whatever order they come. So every
value that is read has each key of its objects once, and is no deeper than the reader may go.
-/
import AppExport.Proofs.Json.Numeral
import AppExport.Proofs.Json.Shape

namespace AppExport.Json

variable {α β σ : Type} {room : Nat}

/-- Whether every result of a reader fulfils `P`. -/
def Gives (reader : Reader α) (P : α → Prop) : Prop :=
  ∀ ⦃c : Cursor⦄ ⦃a : α⦄ ⦃behind : Cursor⦄, reader c = .ok (a, behind) → P a

/-! ## Loops -/

/-- How the items up to the closing bracket can have been read in so many rounds. -/
inductive ItemsRead (item : Reader α) :
    (rounds : Nat) → (first : Bool) → Cursor → List α → Cursor → Prop
  | closing {rounds : Nat} {first : Bool} {c last : Cursor}
    (hnext : nextItem first c = .ok (none, last)) : ItemsRead item (rounds + 1) first c [] last.next
  | item {rounds : Nat} {first : Bool} {c ahead start middle behind : Cursor} {a : α} {as : List α}
    (hnext : nextItem first c = .ok (some start, ahead)) (hitem : item start = .ok (a, middle))
    (hothers : ItemsRead item rounds false middle as behind) :
    ItemsRead item (rounds + 1) first c (a :: as) behind

theorem itemsFrom_eq_ok_iff {item : Reader α} {rounds : Nat} {first : Bool} {c behind : Cursor}
    {as : List α} :
    itemsFrom item rounds first c = .ok (as, behind) ↔ ItemsRead item rounds first c as behind := by
  constructor
  · intro h
    induction rounds generalizing first c as with
    | zero => cases h
    | succ rounds ih =>
      rw [itemsFrom] at h
      obtain ⟨⟨next, c'⟩, hnext, h⟩ := bind_eq_ok_iff.1 h
      cases next with
      | none =>
        cases h
        exact .closing hnext
      | some start =>
        obtain ⟨⟨a, middle⟩, hitem, h⟩ := bind_eq_ok_iff.1 h
        obtain ⟨⟨others, last⟩, hothers, h⟩ := bind_eq_ok_iff.1 h
        cases h
        exact .item hnext hitem (ih hothers)
  · intro h
    induction h with
    | closing hnext =>
      rw [itemsFrom, hnext]
      rfl
    | item hnext hitem _ ih =>
      rw [itemsFrom, hnext]
      simp only [bind, Except.bind, hitem, ih]

/-- How the entries up to the closing brace can have been read in so many rounds, each into what
those before it have made. -/
inductive EntriesRead (entry : String → σ → Reader σ) :
    (rounds : Nat) → (first : Bool) → σ → Cursor → σ → Cursor → Prop
  | closing {rounds : Nat} {first : Bool} {s : σ} {c behind : Cursor}
    (hkey : nextKey first c = .ok (none, behind)) :
    EntriesRead entry (rounds + 1) first s c s behind
  | entry {rounds : Nat} {first : Bool} {s next last : σ} {c start middle behind : Cursor}
    {key : String} (hkey : nextKey first c = .ok (some key, start))
    (hentry : entry key s start = .ok (next, middle))
    (hothers : EntriesRead entry rounds false next middle last behind) :
    EntriesRead entry (rounds + 1) first s c last behind

theorem entriesFrom_eq_ok_iff {entry : String → σ → Reader σ} {rounds : Nat} {first : Bool}
    {s last : σ} {c behind : Cursor} : entriesFrom entry rounds first s c = .ok (last, behind) ↔
      EntriesRead entry rounds first s c last behind := by
  constructor
  · intro h
    induction rounds generalizing first s c with
    | zero => cases h
    | succ rounds ih =>
      rw [entriesFrom] at h
      obtain ⟨⟨found, c'⟩, hkey, h⟩ := bind_eq_ok_iff.1 h
      cases found with
      | none =>
        cases h
        exact .closing hkey
      | some key =>
        obtain ⟨⟨next, middle⟩, hentry, hothers⟩ := bind_eq_ok_iff.1 h
        exact .entry hkey hentry (ih hothers)
  · intro h
    induction h with
    | closing hkey =>
      rw [entriesFrom, hkey]
      rfl
    | entry hkey hentry _ ih =>
      rw [entriesFrom, hkey]
      simp only [bind, Except.bind, hentry, ih]

theorem itemsFrom_gives {item : Reader α} {P : α → Prop} (h : Gives item P) (rounds : Nat)
    (first : Bool) : Gives (itemsFrom item rounds first) fun as => ∀ a ∈ as, P a := by
  intro c as behind hread
  rw [itemsFrom_eq_ok_iff] at hread
  induction hread with
  | closing => simp
  | item _ hitem _ ih => exact List.forall_mem_cons.2 ⟨h hitem, ih⟩

theorem items_gives {item : Reader α} {P : α → Prop} (h : Gives item P) :
    Gives (items item) fun as => ∀ a ∈ as, P a :=
  fun _ _ _ hread => itemsFrom_gives h _ _ hread

/-- What every entry keeps holds behind all entries. -/
theorem entriesFrom_gives {entry : String → σ → Reader σ} {P : σ → Prop}
    (h : ∀ key s, P s → Gives (entry key s) P) (rounds : Nat) (first : Bool) (s : σ) (hs : P s) :
    Gives (entriesFrom entry rounds first s) P := by
  intro c last behind hread
  rw [entriesFrom_eq_ok_iff] at hread
  induction hread with
  | closing => exact hs
  | entry _ hentry _ ih => exact ih (h _ _ hs hentry)

theorem entries_gives {entry : String → σ → Reader σ} {P : σ → Prop}
    (h : ∀ key s, P s → Gives (entry key s) P) {start : σ} (hstart : P start) :
    Gives (entries entry start) P :=
  fun _ _ _ hread => entriesFrom_gives h _ _ start hstart hread

/-! ## Values -/

theorem Entries.mem_insert {key : String} {v : Value} {entries : Entries} {e : String × Value}
    (h : e ∈ entries.insert key v) : e = (key, v) ∨ e ∈ entries := by
  induction entries with
  | nil => exact .inl (List.mem_singleton.1 h)
  | cons first rest ih =>
    obtain ⟨k, w⟩ := first
    rw [insert] at h
    split at h
    · next hk =>
      rcases List.mem_cons.1 h with rfl | h
      · exact .inl (by rw [hk])
      · exact .inr (List.mem_cons_of_mem _ h)
    · rcases List.mem_cons.1 h with rfl | h
      · exact .inr List.mem_cons_self
      · exact (ih h).imp_right (List.mem_cons_of_mem _)

/-- Whether entries have every key once, and values with a property. -/
def Entries.AllHold (P : Value → Prop) (entries : Entries) : Prop :=
  entries.keys.Nodup ∧ ∀ e ∈ entries, P e.2

theorem Entries.AllHold.insert {P : Value → Prop} {entries : Entries} (h : entries.AllHold P)
    (key : String) {v : Value} (hv : P v) : (Entries.insert key v entries).AllHold P := by
  refine ⟨Entries.nodup_keys_insert h.1, fun e he => ?_⟩
  rcases Entries.mem_insert he with rfl | he
  · exact hv
  · exact h.2 e he

theorem entryOf_gives {P : Value → Prop} {value : Reader Value} (h : Gives value P) (key : String)
    (acc : Entries) (hacc : acc.AllHold P) : Gives (entryOf value key acc) (Entries.AllHold P) := by
  intro c es behind hread
  rw [entryOf] at hread
  obtain ⟨⟨_, c'⟩, -, hread⟩ := bind_eq_ok_iff.1 hread
  obtain ⟨⟨v, middle⟩, hvalue, hread⟩ := bind_eq_ok_iff.1 hread
  cases hread
  exact hacc.insert key (h hvalue)

/-- What holds of the values that are read with so many brackets left. -/
structure Value.Legible (room : Nat) (v : Value) : Prop where
  keyed : v.Keyed
  depth_le : v.depth ≤ room

theorem valueWith_gives {inner : Option (Reader Value)}
    (h : ∀ value, inner = some value → ∃ n, room = n + 1 ∧ Gives value (Value.Legible n)) :
    Gives (valueWith inner) (Value.Legible room) := by
  intro c v behind hread
  cases valueRead_of_valueWith hread with
  | null | bool | negative | natural | text => exact ⟨trivial, Nat.zero_le room⟩
  | list hinner hitems =>
    obtain ⟨n, rfl, hvalue⟩ := h _ hinner
    have hall := items_gives hvalue hitems
    refine ⟨?_, Nat.succ_le_succ (Value.depthAll_le_iff.2 fun v hv => (hall v hv).depth_le)⟩
    rw [Value.Keyed, Value.keyedAll_iff]
    exact fun v hv => (hall v hv).keyed
  | object hinner hentries =>
    obtain ⟨n, rfl, hvalue⟩ := h _ hinner
    have hempty : Entries.AllHold (Value.Legible n) [] := ⟨List.nodup_nil, by simp⟩
    obtain ⟨hkeys, hall⟩ := entries_gives (entryOf_gives hvalue) hempty hentries
    refine ⟨?_, Nat.succ_le_succ (Value.depthEntries_le_iff.2 fun e he => (hall e he).depth_le)⟩
    rw [Value.Keyed, Value.keyedEntries_iff]
    exact ⟨hkeys, fun e he => (hall e he).keyed⟩

/-- Every value that is read has each key of its objects once and no more brackets open at once than
were left. -/
theorem value_gives : ∀ room : Nat, Gives (value room) (Value.Legible room)
  | 0 => valueWith_gives (by simp)
  | room + 1 => valueWith_gives fun _ h => ⟨room, rfl, Option.some.inj h ▸ value_gives room⟩

/-- A value that is null is read where `null` stands. -/
theorem value_gives_not_null {c behind : Cursor} {v : Value} (hcomes : comes 'n' c = false)
    (h : value room c = .ok (v, behind)) : v.isNull = false := by
  obtain ⟨inner, hroom⟩ := value_eq_valueWith room
  rw [hroom] at h
  cases valueRead_of_valueWith h with
  | null hnull => rw [hcomes] at hnull; cases hnull
  | bool | negative | natural | text | list | object => rfl

/-! ## Typed readers -/

theorem refuse_gives (expected : String) (P : α → Prop) : Gives (refuse expected) P := by
  intro c a behind h
  unfold refuse at h
  dsimp only at h
  split at h
  · cases h
  · split at h
    · cases h
    · split at h
      · cases h
      · obtain ⟨⟨v, c'⟩, -, h⟩ := bind_eq_ok_iff.1 h
        cases v <;> cases h

theorem eq_succ_of_enter {c behind : Cursor} {inner : Nat}
    (h : enter room c = .ok (inner, behind)) : room = inner + 1 := by
  cases room with
  | zero => cases h
  | succ room =>
    cases h
    rfl

theorem listOf_gives {expected : String} {item : Decoder α} {P : α → Prop}
    (h : ∀ inner, room = inner + 1 → Gives (item inner) P) :
    Gives (listOf expected item room) fun as => ∀ a ∈ as, P a := by
  intro c as behind hread
  rw [listOf] at hread
  split at hread
  · obtain ⟨⟨inner, c'⟩, henter, hread⟩ := bind_eq_ok_iff.1 hread
    exact items_gives (h inner (eq_succ_of_enter henter)) hread
  · exact refuse_gives expected (fun as => ∀ a ∈ as, P a) hread

theorem orNull_value_gives : Gives (orNull value room) fun x =>
    ∀ v, x = some v → v.isNull = false ∧ v.Legible room := by
  intro c x behind hread v hx
  rw [orNull] at hread
  split at hread
  · obtain ⟨⟨_, c'⟩, -, hread⟩ := bind_eq_ok_iff.1 hread
    cases hread
    cases hx
  · next hcomes =>
    obtain ⟨⟨w, c'⟩, hvalue, hread⟩ := bind_eq_ok_iff.1 hread
    cases hread
    cases hx
    exact ⟨value_gives_not_null (Bool.eq_false_iff.2 hcomes) hvalue, value_gives room hvalue⟩

/-! ## Records -/

theorem Field.read_slot (name : String) (aliases : List String) (optional : Bool)
    (get : σ → Option β) (set : σ → β → σ) (decoder : Decoder β) (draft : σ) (room : Nat) (c : Cursor) :
    (Field.slot name aliases optional get set decoder).read draft room c =
      (decoder room c).map fun read => (set draft read.1, read.2) := by
  rw [Field.slot]
  cases hread : decoder room c <;> simp only [hread] <;> rfl

/-- A slot keeps what holds of a draft if every result of its reader does. -/
theorem slot_gives {name : String} {aliases : List String} {optional : Bool} {get : σ → Option β}
    {set : σ → β → σ} {decoder : Decoder β} {P : σ → Prop} {Q : β → Prop} {draft : σ}
    (hread : Gives (decoder room) Q) (hset : ∀ b, Q b → P (set draft b)) :
    Gives ((Field.slot name aliases optional get set decoder).read draft room) P := by
  intro c next behind h
  rw [Field.read_slot] at h
  obtain ⟨⟨b, c'⟩, hb, hnext⟩ := map_eq_ok_iff.1 h
  cases hnext
  exact hset b (hread hb)

namespace Record

variable {r : Record σ α} {key : String} {draft : σ}

/-- A field that has been given already is refused. -/
theorem entry_of_given {field : Field σ} (hfind : r.fields.find? (·.answers key) = some field)
    (hgiven : field.given draft = true) (c : Cursor) : r.entry room key draft c =
      .error ((c.pastClosing '\x7d').fault (.repeatedField field.name)) := by
  simp only [entry, hfind, hgiven, if_true]

theorem entry_of_field {field : Field σ} (hfind : r.fields.find? (·.answers key) = some field)
    (hgiven : field.given draft = false) (c : Cursor) : r.entry room key draft c =
      colon c >>= fun read => field.read draft room read.2 := by
  simp only [entry, hfind, hgiven, Bool.false_eq_true, if_false]

theorem entry_of_rule {rule : String → σ → Decoder σ}
    (hfind : r.fields.find? (·.answers key) = none) (hothers : r.others = some rule) (c : Cursor) :
    r.entry room key draft c = colon c >>= fun read => rule key draft room read.2 := by
  simp only [entry, hfind, hothers]

/-- Without a rule, the value of a key that no field has is passed over. -/
theorem entry_of_skipped (hfind : r.fields.find? (·.answers key) = none) (hothers : r.others = none)
    (c : Cursor) : r.entry room key draft c =
      colon c >>= fun read => (skipValue read.2).map fun behind => (draft, behind) := by
  simp only [entry, hfind, hothers]
  refine congrArg (colon c >>= ·) (funext fun read => ?_)
  cases skipValue read.2 <;> rfl

/-- All that an entry can have been read by. -/
theorem entry_cases {next : σ} {c behind : Cursor}
    (h : r.entry room key draft c = .ok (next, behind)) :
    (∃ field c', r.fields.find? (·.answers key) = some field ∧ field.given draft = false ∧
      field.read draft room c' = .ok (next, behind)) ∨
    (r.fields.find? (·.answers key) = none ∧
      ((∃ rule c', r.others = some rule ∧ rule key draft room c' = .ok (next, behind)) ∨
        (r.others = none ∧ next = draft))) := by
  cases hfind : r.fields.find? (·.answers key) with
  | some field =>
    cases hgiven : field.given draft with
    | true =>
      rw [entry_of_given hfind hgiven] at h
      cases h
    | false =>
      rw [entry_of_field hfind hgiven] at h
      obtain ⟨⟨_, c'⟩, -, hread⟩ := bind_eq_ok_iff.1 h
      exact .inl ⟨field, c', rfl, hgiven, hread⟩
  | none =>
    refine .inr ⟨rfl, ?_⟩
    cases hothers : r.others with
    | some rule =>
      rw [entry_of_rule hfind hothers] at h
      obtain ⟨⟨_, c'⟩, -, hread⟩ := bind_eq_ok_iff.1 h
      exact .inl ⟨rule, c', rfl, hread⟩
    | none =>
      rw [entry_of_skipped hfind hothers] at h
      obtain ⟨⟨_, c'⟩, -, hskip⟩ := bind_eq_ok_iff.1 h
      obtain ⟨_, -, hnext⟩ := map_eq_ok_iff.1 hskip
      cases hnext
      exact .inr ⟨rfl, rfl⟩

end Record

/-- What the fields of a record keep with so many brackets left, and what is done with other keys. -/
structure Record.KeepsIn (r : Record σ α) (room : Nat) (P : σ → Prop) : Prop where
  start : P r.start
  fields : ∀ field ∈ r.fields, ∀ draft, P draft → Gives (field.read draft room) P
  others : ∀ rule ∈ r.others, ∀ key, r.fields.find? (·.answers key) = none →
    ∀ draft, P draft → Gives (rule key draft room) P

namespace Record.KeepsIn

variable {r : Record σ α} {P : σ → Prop}

theorem entry (h : r.KeepsIn room P) (key : String) (draft : σ) (hdraft : P draft) :
    Gives (r.entry room key draft) P := by
  intro c next behind hread
  obtain ⟨field, c', hfind, -, hfield⟩ | ⟨hfind, ⟨rule, c', hothers, hrule⟩ | ⟨-, rfl⟩⟩ :=
    Record.entry_cases hread
  · exact h.fields field (List.mem_of_find?_eq_some hfind) draft hdraft hfield
  · exact h.others rule hothers key hfind draft hdraft hrule
  · exact hdraft

theorem itemsOf (h : r.KeepsIn room P) :
    ∀ (fields : List (Field σ)) (index : Nat) (draft : σ), (∀ field ∈ fields, field ∈ r.fields) →
      P draft → Gives (r.itemsOf room index fields draft) P
  | [], index, draft, _, hdraft => by
    intro c next behind hread
    rw [Record.itemsOf] at hread
    cases hread
    exact hdraft
  | field :: rest, index, draft, hfields, hdraft => by
    intro c next behind hread
    obtain ⟨hfield, hrest⟩ := List.forall_mem_cons.1 hfields
    rw [Record.itemsOf] at hread
    obtain ⟨⟨start, c'⟩, -, hread⟩ := bind_eq_ok_iff.1 hread
    cases start with
    | some start =>
      obtain ⟨⟨filled, c''⟩, hfilled, hread⟩ := bind_eq_ok_iff.1 hread
      exact h.itemsOf rest (index + 1) filled hrest (h.fields field hfield draft hdraft hfilled)
        hread
    | none =>
      dsimp only at hread
      split at hread
      · exact h.itemsOf rest index draft hrest hdraft hread
      · cases hread

end Record.KeepsIn

end AppExport.Json
