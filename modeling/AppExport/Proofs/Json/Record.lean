/-
Typed readers take whole what the printer writes for them: texts, integers of 32 bits, numbers,
optional values, lists, choices by name, and records. A record is read entry by entry, each of which
fills one slot of the draft that no entry has filled before.
-/
import AppExport.Proofs.Json.Value

namespace AppExport.Json

open Decimal (Binary64)
open Text (Glyph quoteChars)

variable {α β σ : Type} {room : Nat}

/-! ## Texts, numbers, options, lists and choices -/

theorem reads_string (s : String) : Reads (text "a string") (Value.text s).chars s := by
  rw [Value.chars]
  exact reads_text "a string" s

theorem reads_uint32 (n : UInt32) : Reads uint32 (Number.ofUInt32 n).chars n := by
  have htext : NumberText (Number.ofUInt32 n).chars (.ofUInt32 n) := numberText_integer _ _ _
  intro rest offset hrest
  obtain ⟨offset', h⟩ := reads_number htext "u32" rest offset hrest
  have hfits : (0 : Int) ≤ n.toNat ∧ (n.toNat : Int) < 0x1_0000_0000 := by
    have := n.toNat_lt
    omega
  refine ⟨offset', ?_⟩
  simp only [uint32, h, bind, Except.bind]
  simp only [Number.ofUInt32, if_pos hfits, Int.toNat_natCast, UInt32.ofNat_toNat]

theorem reads_binary64 (x : Binary64) : Reads binary64 x.chars x.reread := by
  intro rest offset hrest
  obtain ⟨offset', he⟩ := reads_number x.numberText_reread "f64" rest offset hrest
  exact ⟨offset', by simp only [binary64, he, bind, Except.bind, Number.toBinary64]⟩

/-- A text that no reader takes for null. -/
def NotNull (text : List Char) : Prop := ∃ c cs, text = c :: cs ∧ isSolid c = true ∧ c ≠ 'n'

theorem notNull_quoteChars (s : List Char) : NotNull (quoteChars s) :=
  ⟨'"', _, rfl, by decide, by decide⟩

theorem notNull_object (entries : List (String × Value)) : NotNull (Value.object entries).chars := by
  rw [Value.chars]
  exact ⟨'\x7b', _, rfl, by decide, by decide⟩

theorem notNull_chars {v : Value} (hopens : Opens v.chars) (h : v.isNull = false) :
    NotNull v.chars := by
  cases v with
  | null => cases h
  | bool b => cases b <;> exact ⟨_, _, rfl, by decide, by decide⟩
  | number n =>
    obtain ⟨c, cs, hchars, hsolid, -⟩ := hopens
    refine ⟨c, cs, hchars, hsolid, fun hc => ?_⟩
    have hnumeral := isNumeral_of_mem_numberChars (n := n) (c := c) (by
      rw [← Value.chars, hchars]
      exact List.mem_cons_self)
    rw [hc] at hnumeral
    revert hnumeral
    decide
  | text s =>
    rw [Value.chars]
    exact notNull_quoteChars s.toList
  | list items =>
    rw [Value.chars]
    exact ⟨'[', _, rfl, by decide, by decide⟩
  | object entries => exact notNull_object entries

theorem reads_orNull {decoder : Decoder α} {text : List Char} {a : α} (hnull : NotNull text)
    (h : Reads (decoder room) text a) : Reads (orNull decoder room) text (some a) := by
  obtain ⟨c, cs, rfl, hsolid, hc⟩ := hnull
  intro rest offset hrest
  obtain ⟨offset', he⟩ := h rest offset hrest
  refine ⟨offset', ?_⟩
  have hcomes : comes 'n' (.before (c :: cs ++ rest) offset) = false := by
    rw [List.cons_append, comes_before hsolid]
    simpa using hc
  simp only [orNull, hcomes, Bool.false_eq_true, if_false, he, bind, Except.bind]

theorem reads_listOf {expected : String} {item : Decoder α} {texts : List (List Char)}
    {as : List α} (h : List.Forall₂ (fun text a => Opens text ∧ Reads (item room) text a) texts as) :
    Reads (listOf expected item (room + 1)) ('[' :: commaSeparated texts ++ [']']) as := by
  have hsolid : isSolid '[' = true := by decide
  intro rest offset hrest
  obtain ⟨offset', he⟩ := reads_items h rest (offset + '['.utf8Size) hrest
  refine ⟨offset', ?_⟩
  simp only [List.cons_append, listOf, comes_before hsolid, Cursor.skipBlanks_before hsolid,
    beq_self_eq_true, if_true, enter, Cursor.next_before, bind, Except.bind] at he ⊢
  exact he

theorem reads_choice {choices : List (String × α)} {name : String} {a : α}
    (h : choices.lookup name = some a) : Reads (choice choices room) (quoteChars name.toList) a := by
  have hsolid : isSolid '"' = true := by decide
  intro rest offset hrest
  obtain ⟨offset', he⟩ := reads_text "variant identifier" name rest offset hrest
  refine ⟨offset', ?_⟩
  simp only [quoteChars, List.cons_append] at he ⊢
  simp only [choice, Cursor.skipBlanks_before hsolid, Cursor.rest_before, List.map_cons, if_true,
    he, named, h, bind, Except.bind]

/-! ## Records -/

theorem reads_record {r : Record σ α} {texts : List (List Char)} {draft : σ} {a : α}
    (h : Steps (r.entry room) r.start texts draft) (hfinish : r.finish draft = some a) :
    Reads (r.decoder (room + 1)) ('\x7b' :: commaSeparated texts ++ ['\x7d']) a := by
  have hsolid : isSolid '\x7b' = true := by decide
  intro rest offset hrest
  obtain ⟨offset', he⟩ := reads_entries h rest (offset + '\x7b'.utf8Size) hrest
  refine ⟨offset', ?_⟩
  simp only [List.cons_append, Record.decoder, comes_before hsolid, Cursor.skipBlanks_before hsolid,
    beq_self_eq_true, if_true, enter, Cursor.next_before, bind, Except.bind] at he ⊢
  rw [he]
  simp only [Record.complete, hfinish]

/-- An entry for a slot that is still empty fills it. -/
theorem reads_slot {r : Record σ α} {key name : String} {aliases : List String} {optional : Bool}
    {get : σ → Option β} {set : σ → β → σ} {decoder : Decoder β}
    (hfind : r.fields.find? (·.answers key) = some (.slot name aliases optional get set decoder))
    {draft : σ} (hempty : get draft = none) {text : List Char} {b : β}
    (hread : Reads (decoder room) text b) :
    Reads (r.entry room key draft) (':' :: text) (set draft b) := by
  intro rest offset hrest
  obtain ⟨offset', he⟩ := hread rest (offset + 1) hrest
  refine ⟨offset', ?_⟩
  have hgiven : (get draft).isSome = false := by rw [hempty, Option.isSome_none]
  rw [Record.entry_of_field hfind hgiven, List.cons_append, colon_before]
  simp only [Field.read_slot, he, bind, Except.bind, Except.map]

/-! ## Entries that may be absent -/

theorem getD_map_some (x : Option β) : (x.map some).getD none = x := by
  cases x <;> rfl

theorem entriesChars_append (first second : List (String × Value)) :
    Value.entriesChars (first ++ second) =
      Value.entriesChars first ++ Value.entriesChars second := by
  induction first with
  | nil => rfl
  | cons e rest ih =>
    obtain ⟨key, v⟩ := e
    rw [List.cons_append, Value.entriesChars, Value.entriesChars, ih, List.cons_append]

theorem Steps.one {entry : String → σ → Reader σ} {s next : σ} {key : String} {v : Value}
    (h : Reads (entry key s) (':' :: v.chars) next) :
    Steps entry s (Value.entriesChars [(key, v)]) next :=
  .cons h (.nil next)

/-- An entry that is written for a value that is there fills a slot with what is read for it. `put`
is the draft by what is in the slot. -/
theorem steps_optional {γ : Type} (r : Record σ α) (room : Nat) (put : Option (Option β) → σ)
    (key : String) (again : γ → β) {name : String} {aliases : List String} {optional : Bool}
    {get : σ → Option (Option β)} {set : σ → Option β → σ} {decoder : Decoder (Option β)}
    {x : Option γ} {json : γ → Value}
    (hfind : r.fields.find? (·.answers key) = some (.slot name aliases optional get set decoder))
    (hempty : get (put none) = none) (hset : ∀ b, set (put none) b = put (some b))
    (hread : ∀ b, x = some b → Reads (decoder room) (json b).chars (some (again b))) :
    Steps (r.entry room) (put none) (Value.entriesChars (x.map fun b => (key, json b)).toList)
      (put ((x.map again).map some)) := by
  cases x with
  | none => exact .nil _
  | some b =>
    refine .one ?_
    rw [Option.map_some, Option.map_some, ← hset]
    exact reads_slot hfind hempty (hread b rfl)

/-- An entry that is always written. -/
theorem steps_slot (r : Record σ α) (room : Nat) (draft : σ) (key : String) {name : String}
    {aliases : List String} {optional : Bool} {get : σ → Option β} {set : σ → β → σ}
    {decoder : Decoder β}
    (hfind : r.fields.find? (·.answers key) = some (.slot name aliases optional get set decoder))
    (hempty : get draft = none) {v : Value} {b : β} (hread : Reads (decoder room) v.chars b) :
    Steps (r.entry room) draft (Value.entriesChars [(key, v)]) (set draft b) :=
  .one (reads_slot hfind hempty hread)

end AppExport.Json
