/-
What a text of the grammar stands for. Blanks may stand between its tokens, so a value has many
texts; every one of them is decoded to the value if no more brackets are open at once than the reader
allows. A pretty text is one of them.
-/
import AppExport.Proofs.Json.Room
import AppExport.Proofs.Json.Value
import AppExport.Proofs.Json.Written

namespace AppExport.Json

open Text (Glyph escape quoteChars)

variable {α : Type} {room : Nat}

/-! ## Texts and what they stand for -/

/-- A value, or the items of a list or the entries of an object from some place on. -/
inductive Meaning where
  | value (v : Value)
  | items (first : Bool) (vs : List Value)
  | entries (first : Bool) (es : Entries)

/-- The kind of the texts that stand for it. -/
def Meaning.part : Meaning → Part
  | value _ => .value
  | items first _ => .items first
  | entries first _ => .entries first

/-- What the texts of `IsPart` stand for. A text without brackets stands for what is read of it where
no bracket may be opened, and an object has no key twice. -/
inductive Denotes : List Glyph → Meaning → Prop
  | scalar {gs : List Glyph} {v : Value} (hgs : IsValue gs) (h : Takes (value 0) gs v) :
    Denotes gs (.value v)
  | list {gs : List Glyph} {vs : List Value} (h : Denotes gs (.items true vs)) :
    Denotes (.char '[' :: gs) (.value (.list vs))
  | object {gs : List Glyph} {es : Entries} (hkeys : es.keys.Nodup)
    (h : Denotes gs (.entries true es)) : Denotes (.char '\x7b' :: gs) (.value (.object es))
  | noItem {first : Bool} {blanks : List Glyph} (hblanks : Blanks blanks) :
    Denotes (blanks ++ [.char ']']) (.items first [])
  | item {first : Bool} {comma blanks text gs : List Glyph} {v : Value} {vs : List Value}
    (hcomma : IsComma first comma) (hblanks : Blanks blanks) (hv : Denotes text (.value v))
    (h : Denotes gs (.items false vs)) :
    Denotes (comma ++ (blanks ++ text) ++ gs) (.items first (v :: vs))
  | noEntry {first : Bool} {blanks : List Glyph} (hblanks : Blanks blanks) :
    Denotes (blanks ++ [.char '\x7d']) (.entries first [])
  | entry {first : Bool} {comma before quoted between blanks text gs : List Glyph} {key : String}
    {v : Value} {es : Entries} (hcomma : IsComma first comma) (hbefore : Blanks before)
    (hquoted : IsQuoted quoted) (hkey : ∀ rest, Yields textBody (quoted ++ rest) key rest)
    (hbetween : Blanks between) (hblanks : Blanks blanks) (hv : Denotes text (.value v))
    (h : Denotes gs (.entries false es)) :
    Denotes
      (comma ++ (before ++ .char '"' :: quoted) ++ (between ++ .char ':' :: (blanks ++ text)) ++ gs)
      (.entries first ((key, v) :: es))

theorem Denotes.isPart {gs : List Glyph} {m : Meaning} (h : Denotes gs m) : IsPart m.part gs := by
  induction h with
  | scalar hgs _ => exact hgs
  | list _ ih => exact .list ih
  | object _ _ ih => exact .object ih
  | noItem hblanks => exact .noItem hblanks
  | item hcomma hblanks _ _ ihv ih => exact .item hcomma hblanks ihv ih
  | noEntry hblanks => exact .noEntry hblanks
  | entry hcomma hbefore hquoted _ hbetween hblanks _ _ ihv ih =>
    exact .entry hcomma hbefore hquoted hbetween hblanks ihv ih

/-! ## Texts are read to what they stand for -/

theorem Extends.takes {reader other : Reader α} (h : Extends reader other) {gs : List Glyph} {a : α}
    (htakes : Takes other gs a) : Takes reader gs a := by
  intro rest hrest offset
  obtain ⟨offset', hread⟩ := htakes rest hrest offset
  exact ⟨offset', h hread⟩

theorem takes_list {gs : List Glyph} {vs : List Value} (h : ∀ rounds, gs.length ≤ rounds → ∀ rest,
    Yields (itemsFrom (value room) rounds true) (gs ++ rest) vs rest) :
    Takes (value (room + 1)) (.char '[' :: gs) (.list vs) := by
  intro rest _ offset
  obtain ⟨offset', hread⟩ := h (gs ++ rest).length (by simp) rest (offset + 1)
  have hvalue : value (room + 1) ⟨.char '[' :: (gs ++ rest), offset⟩ =
      (items (value room) ⟨gs ++ rest, offset + 1⟩).map fun read => (.list read.1, read.2) := rfl
  exact ⟨offset', by rw [List.cons_append, hvalue, items, hread]; rfl⟩

theorem takes_object {gs : List Glyph} {es : Entries} (h : ∀ rounds, gs.length ≤ rounds → ∀ rest,
    Yields (entriesFrom (entryOf (value room)) rounds true []) (gs ++ rest) es rest) :
    Takes (value (room + 1)) (.char '\x7b' :: gs) (.object es) := by
  intro rest _ offset
  obtain ⟨offset', hread⟩ := h (gs ++ rest).length (by simp) rest (offset + 1)
  have hvalue : value (room + 1) ⟨.char '\x7b' :: (gs ++ rest), offset⟩ =
      (entries (entryOf (value room)) [] ⟨gs ++ rest, offset + 1⟩).map
        fun read => (.object read.1, read.2) := rfl
  exact ⟨offset', by rw [List.cons_append, hvalue, entries, hread]; rfl⟩

/-- A colon and a value behind a key that is new. -/
theorem takes_entryOf {between blanks text : List Glyph} {key : String} {v : Value} {acc : Entries}
    (hbetween : Blanks between) (hblanks : Blanks blanks) (hnew : key ∉ acc.keys)
    (h : Takes (value room) text v) :
    Takes (entryOf (value room) key acc) (between ++ .char ':' :: (blanks ++ text))
      (acc ++ [(key, v)]) := by
  intro rest hrest offset
  obtain ⟨offset₁, hcolon⟩ := colon_append hbetween (blanks ++ (text ++ rest)) offset
  obtain ⟨offset₂, hread⟩ := h rest hrest (offset₁ + blanks.length)
  rw [← value_blanks_append hblanks] at hread
  refine ⟨offset₂, ?_⟩
  rw [List.append_assoc, List.cons_append, List.append_assoc]
  simp only [entryOf, hcolon, bind, Except.bind, hread, Entries.insert_of_not_mem hnew]

/-- Whether the readers take a text to what it stands for, with `room` brackets to open. -/
def Meaning.ReadIn (room : Nat) (gs : List Glyph) : Meaning → Prop
  | value v => v.depth ≤ room → Takes (Json.value room) gs v
  | items first vs => Value.depthAll vs ≤ room → ∀ rounds, gs.length ≤ rounds → ∀ rest,
    Yields (itemsFrom (Json.value room) rounds first) (gs ++ rest) vs rest
  | entries first es => Value.depthEntries es ≤ room → ∀ acc, (Entries.keys (acc ++ es)).Nodup →
    ∀ rounds, gs.length ≤ rounds → ∀ rest,
      Yields (entriesFrom (entryOf (Json.value room)) rounds first acc) (gs ++ rest) (acc ++ es) rest

theorem Denotes.read {gs : List Glyph} {m : Meaning} (h : Denotes gs m) (room : Nat) :
    m.ReadIn room gs := by
  induction h generalizing room with
  | scalar _ htakes => exact fun _ => (value_extends (Nat.zero_le room)).takes htakes
  | @list gs vs _ ih =>
    intro hdepth
    rw [Value.depth] at hdepth
    obtain ⟨room, rfl⟩ := Nat.exists_eq_succ_of_ne_zero (n := room) (by omega)
    exact takes_list (ih room (by omega))
  | @object gs es hkeys _ ih =>
    intro hdepth
    rw [Value.depth] at hdepth
    obtain ⟨room, rfl⟩ := Nat.exists_eq_succ_of_ne_zero (n := room) (by omega)
    exact takes_object (ih room (by omega) [] hkeys)
  | noItem hblanks =>
    intro _ rounds hrounds rest
    obtain ⟨rounds, rfl⟩ := Nat.exists_eq_succ_of_ne_zero (n := rounds) (by simp at hrounds; omega)
    exact yields_noItem _ rounds _ hblanks rest
  | item hcomma hblanks hv hgs ihv ih =>
    intro hdepth rounds hrounds rest
    rw [Value.depthAll, Nat.max_le] at hdepth
    -- the text of a value is not empty, so a round is left for what is behind it
    obtain ⟨g, text, rfl, -⟩ := hv.isPart.exists_cons
    simp only [List.length_append, List.length_cons] at hrounds
    obtain ⟨rounds, rfl⟩ := Nat.exists_eq_succ_of_ne_zero (n := rounds) (by omega)
    exact yields_item hcomma hblanks hv.isPart (ihv room hdepth.1) hgs.isPart
      (ih room hdepth.2 rounds (by omega) rest)
  | noEntry hblanks =>
    intro _ acc _ rounds hrounds rest
    obtain ⟨rounds, rfl⟩ := Nat.exists_eq_succ_of_ne_zero (n := rounds) (by simp at hrounds; omega)
    rw [List.append_nil]
    exact yields_noEntry _ rounds _ acc hblanks rest
  | @entry _ _ _ _ _ _ _ _ key v es hcomma hbefore _ hkey hbetween hblanks _ hgs ihv ih =>
    intro hdepth acc hkeys rounds hrounds rest
    rw [Value.depthEntries, Nat.max_le] at hdepth
    simp only [List.length_append, List.length_cons] at hrounds
    obtain ⟨rounds, rfl⟩ := Nat.exists_eq_succ_of_ne_zero (n := rounds) (by omega)
    have hnew : key ∉ Entries.keys acc := by
      rw [Entries.keys, List.map_append, List.nodup_append] at hkeys
      exact fun hmem => hkeys.2.2 key hmem key (by simp) rfl
    have hentry := takes_entryOf hbetween hblanks hnew (ihv room hdepth.1)
    have hsplit : acc ++ (key, v) :: es = acc ++ [(key, v)] ++ es := by simp
    rw [hsplit] at hkeys ⊢
    exact yields_entry hcomma hbefore hkey hentry hgs.isPart
      (ih room hdepth.2 (acc ++ [(key, v)]) hkeys rounds (by omega) rest)

/-- A text that stands for a value is decoded to it. -/
theorem Denotes.decode {text : String} {v : Value}
    (h : Denotes (text.toList.map .char) (.value v)) (hdepth : v.depth ≤ startRoom) :
    decode value text = .ok v := by
  obtain ⟨offset, hread⟩ := h.read startRoom hdepth [] ends_nil 0
  rw [List.append_nil] at hread
  exact decode_eq_ok_iff.2 ⟨_, hread, rfl⟩

/-! ## Pretty texts -/

theorem blanks_newLine (depth : Nat) : Blanks ((Value.newLine depth).map .char) := by
  intro g hg
  rw [Value.newLine, List.map_cons, List.map_replicate] at hg
  rcases List.mem_cons.1 hg with rfl | hg
  · rfl
  · rw [List.eq_of_mem_replicate hg]
    rfl

/-- A line that stands for `a`, whatever stands before and behind it. -/
def IsLine (meaning : Bool → List α → Meaning) (line : List Char) (a : α) : Prop :=
  ∀ ⦃first comma before gs as⦄, IsComma first comma → Blanks before →
    Denotes gs (meaning false as) →
    Denotes (comma ++ (before ++ line.map .char) ++ gs) (meaning first (a :: as))

theorem denotes_bracketed (meaning : Bool → List α → Meaning) (opening : Char) {closing : Char}
    (hclosing : ∀ first blanks, Blanks blanks →
      Denotes (blanks ++ [.char closing]) (meaning first [])) (depth : Nat)
    {lines : List (List Char)} {as : List α} (h : List.Forall₂ (IsLine meaning) lines as) :
    ∃ gs, (Value.bracketed opening closing depth lines).map .char = .char opening :: gs ∧
      Denotes gs (meaning true as) := by
  have hlines : ∀ {others bs}, List.Forall₂ (IsLine meaning) others bs →
      Denotes (((others.map (Value.newLine (depth + 1) ++ ·)).flatMap (',' :: ·) ++
        Value.newLine depth ++ [closing]).map Glyph.char) (meaning false bs) := by
    intro others bs hothers
    induction hothers with
    | nil => simpa using hclosing false _ (blanks_newLine depth)
    | cons hline _ ih => simpa using hline isComma_plain (blanks_newLine (depth + 1)) ih
  cases h with
  | nil => exact ⟨_, rfl, hclosing true [] blanks_nil⟩
  | @cons line a lines as hline hothers =>
    refine ⟨_, List.map_cons .., ?_⟩
    rw [List.map_cons, commaSeparated_cons]
    simpa using hline .first (blanks_newLine (depth + 1)) (hlines hothers)

/-- A text that is read whole where no bracket may be opened. -/
theorem denotes_of_reads {text : List Char} {v : Value} (hopens : Opens text)
    (h : Reads (value 0) text v) : Denotes (text.map .char) (.value v) := by
  obtain ⟨offset, hread⟩ := h [] 0 stops_nil
  rw [List.append_nil] at hread
  exact .scalar (isValueText_of_reads hopens h)
    ((exact_value 0).made_eq_some_iff.1 (made_eq_some_iff.2 ⟨offset, hread⟩))

theorem denotes_chars {v : Value} (hkeyed : v.Keyed) (hdepth : v.depth ≤ 0) :
    Denotes (v.chars.map .char) (.value v.reread) :=
  have hreads := reads_value v 0 hkeyed hdepth
  denotes_of_reads hreads.1 hreads.2

theorem isLine_item {text : List Char} {v : Value} (h : Denotes (text.map .char) (.value v)) :
    IsLine .items text v :=
  fun _ _ _ _ _ hcomma hbefore hgs => .item hcomma hbefore h hgs

theorem isLine_entry {text : List Char} {key : String} {v : Value}
    (h : Denotes (text.map .char) (.value v)) :
    IsLine .entries (quoteChars key.toList ++ ':' :: ' ' :: text) (key, v) := by
  intro first comma before gs es hcomma hbefore hgs
  have hblank : Blanks [.char ' '] := by
    intro g hg
    rw [List.mem_singleton.1 hg]
    rfl
  have hkey : ∀ rest, Yields textBody
      ((key.toList.flatMap escape ++ ['"']).map .char ++ rest) key rest := by
    refine yields_key (made_eq_some_iff.2 ?_)
    obtain ⟨offset, hread⟩ := reads_textBody key [] 0 stops_nil
    rw [List.append_nil] at hread
    exact ⟨offset, hread⟩
  have hentry := Denotes.entry hcomma hbefore (isQuoted_escaped key.toList) hkey blanks_nil hblank h hgs
  simpa [quoteChars] using hentry

mutual
/-- A pretty text stands for the value, with every number in it read again. -/
theorem denotes_prettyChars : ∀ (v : Value) (depth : Nat), v.Keyed →
    Denotes ((v.prettyChars depth).map .char) (.value v.reread)
  | .null, _, hkeyed | .bool _, _, hkeyed | .number _, _, hkeyed | .text _, _, hkeyed => by
    rw [Value.prettyChars, ← Value.chars]
    exact denotes_chars hkeyed (Nat.le_refl 0)
  | .list items, depth, hkeyed => by
    rw [Value.Keyed] at hkeyed
    obtain ⟨gs, htext, hgs⟩ := denotes_bracketed .items '[' (fun _ _ => .noItem) depth
      (isLine_prettyItems items (depth + 1) hkeyed)
    rw [Value.prettyChars, Value.reread, htext]
    exact .list hgs
  | .object entries, depth, hkeyed => by
    rw [Value.Keyed] at hkeyed
    obtain ⟨gs, htext, hgs⟩ := denotes_bracketed .entries '\x7b' (fun _ _ => .noEntry) depth
      (isLine_prettyEntries entries (depth + 1) hkeyed.2)
    rw [Value.prettyChars, Value.reread, htext]
    exact .object (by rw [Value.keys_rereadEntries]; exact hkeyed.1) hgs

theorem isLine_prettyItems : ∀ (items : List Value) (depth : Nat), Value.KeyedAll items →
    List.Forall₂ (IsLine .items) (Value.prettyItems depth items) (Value.rereadAll items)
  | [], _, _ => .nil
  | v :: rest, depth, hkeyed => by
    rw [Value.KeyedAll] at hkeyed
    exact .cons (isLine_item (denotes_prettyChars v depth hkeyed.1))
      (isLine_prettyItems rest depth hkeyed.2)

theorem isLine_prettyEntries : ∀ (entries : List (String × Value)) (depth : Nat),
    Value.KeyedEntries entries →
    List.Forall₂ (IsLine .entries) (Value.prettyEntries depth entries) (Value.rereadEntries entries)
  | [], _, _ => .nil
  | (key, v) :: rest, depth, hkeyed => by
    rw [Value.KeyedEntries] at hkeyed
    exact .cons (isLine_entry (denotes_prettyChars v depth hkeyed.1))
      (isLine_prettyEntries rest depth hkeyed.2)
end

theorem isValueText_pretty {v : Value} (hkeyed : v.Keyed) : IsValueText v.pretty.toList := by
  rw [Value.pretty, String.toList_ofList]
  exact (denotes_prettyChars v 0 hkeyed).isPart

/-- A value decodes from its pretty text. -/
theorem decode_pretty {v : Value} (hkeyed : v.Keyed) (hdepth : v.depth ≤ startRoom) :
    decode value v.pretty = .ok v.reread := by
  refine Denotes.decode ?_ (by rwa [Value.depth_reread])
  rw [Value.pretty, String.toList_ofList]
  exact denotes_prettyChars v 0 hkeyed

end AppExport.Json
