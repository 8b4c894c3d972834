/-
Texts that a reader refuses wherever they stand. A list or an object is refused as soon as the loop
over it comes to an item or an entry that is, so a refusal goes through every bracket around it; where
no bracket may be opened any more, it begins with the next one.
-/
import AppExport.Proofs.Json.Record

namespace AppExport.Json

variable {α β σ : Type} {room : Nat}

def Refuses (reader : Reader α) (text : List Char) : Prop :=
  ∀ rest offset, ∃ e, reader (.before (text ++ rest) offset) = .error e

/-! ## Items of a list -/

/-- A text that can be an item and of which it is known whether it is read. -/
def Settled (item : Reader α) (text : List Char) : Prop :=
  Opens text ∧ ((∃ a, Reads item text a) ∨ Refuses item text)

/-- A loop goes wrong at an item or behind it if one of the items from there on is refused. -/
theorem itemsFrom_error {item : Reader α} {text : List Char} {texts : List (List Char)}
    {rest : List Char} {first : Bool} {c : Cursor} {rounds offset : Nat}
    (hnext : nextItem first c =
      .ok (some (.before (text ++ (texts.flatMap (',' :: ·) ++ ']' :: rest)) offset),
        .before (text ++ (texts.flatMap (',' :: ·) ++ ']' :: rest)) offset))
    (htext : Settled item text) (hrefused : ∃ t ∈ text :: texts, Refuses item t)
    (hothers : (∃ t ∈ texts, Refuses item t) → ∀ offset, ∃ e, itemsFrom item rounds false
      (.before (texts.flatMap (',' :: ·) ++ ']' :: rest) offset) = .error e) :
    ∃ e, itemsFrom item (rounds + 1) first c = .error e := by
  by_cases hnow : Refuses item text
  · obtain ⟨e, he⟩ := hnow (texts.flatMap (',' :: ·) ++ ']' :: rest) offset
    exact ⟨e, by simp only [itemsFrom, hnext, he, bind, Except.bind]⟩
  · obtain ⟨a, hread⟩ := htext.2.resolve_right hnow
    obtain ⟨middle, hitem⟩ := hread _ offset (stops_flatMap_comma texts stops_list rest)
    obtain ⟨t, ht, hrefuses⟩ := hrefused
    have hlater : t ∈ texts := by
      rcases List.mem_cons.1 ht with rfl | ht
      · exact absurd hrefuses hnow
      · exact ht
    obtain ⟨e, he⟩ := hothers ⟨t, hlater, hrefuses⟩ middle
    exact ⟨e, by simp only [itemsFrom, hnext, hitem, he, bind, Except.bind]⟩

theorem itemsFrom_rest_error {item : Reader α} {texts : List (List Char)}
    (hsettled : ∀ text ∈ texts, Settled item text) (hrefused : ∃ text ∈ texts, Refuses item text)
    (rest : List Char) : ∀ (rounds offset : Nat), ∃ e, itemsFrom item rounds false
      (.before (texts.flatMap (',' :: ·) ++ ']' :: rest) offset) = .error e := by
  induction texts with
  | nil =>
    obtain ⟨text, htext, -⟩ := hrefused
    cases htext
  | cons text texts ih =>
    obtain ⟨htext, hothers⟩ := List.forall_mem_cons.1 hsettled
    intro rounds offset
    cases rounds with
    | zero => exact ⟨_, rfl⟩
    | succ rounds =>
      rw [List.flatMap_cons, List.append_assoc, List.cons_append]
      exact itemsFrom_error (nextItem_comma (htext.1.append _) offset) htext hrefused
        fun hlater => ih hothers hlater rounds

theorem refuses_items {item : Reader α} {texts : List (List Char)}
    (hsettled : ∀ text ∈ texts, Settled item text) (hrefused : ∃ text ∈ texts, Refuses item text) :
    Refuses (items item) (commaSeparated texts ++ [']']) := by
  intro rest offset
  rw [List.append_assoc, List.cons_append, List.nil_append, items]
  generalize (Cursor.before (commaSeparated texts ++ ']' :: rest) offset).rest.length = rounds
  cases texts with
  | nil =>
    obtain ⟨text, htext, -⟩ := hrefused
    cases htext
  | cons text texts =>
    obtain ⟨htext, hothers⟩ := List.forall_mem_cons.1 hsettled
    cases rounds with
    | zero => exact ⟨_, rfl⟩
    | succ rounds =>
      rw [commaSeparated_cons, List.append_assoc]
      exact itemsFrom_error (nextItem_opens (htext.1.append _) offset) htext hrefused
        fun hlater => itemsFrom_rest_error hothers hlater rest rounds

/-- A list is refused if one of its items is. -/
theorem refuses_listOf {expected : String} {item : Decoder α} {texts : List (List Char)}
    (hsettled : ∀ text ∈ texts, Settled (item room) text)
    (hrefused : ∃ text ∈ texts, Refuses (item room) text) :
    Refuses (listOf expected item (room + 1)) ('[' :: commaSeparated texts ++ [']']) := by
  have hsolid : isSolid '[' = true := by decide
  intro rest offset
  obtain ⟨e, he⟩ := refuses_items hsettled hrefused rest (offset + '['.utf8Size)
  refine ⟨e, ?_⟩
  simp only [List.cons_append, listOf, comes_before hsolid, Cursor.skipBlanks_before hsolid,
    beq_self_eq_true, if_true, enter, Cursor.next_before, bind, Except.bind] at he ⊢
  exact he

/-! ## Entries of a record -/

/-- A loop goes wrong at an entry once it has taken those before. -/
theorem entriesFrom_rest_error {entry : String → σ → Reader σ} {s middle : σ}
    {texts : List (List Char)} (h : Steps entry s texts middle) {key : String} {text : List Char}
    (hrefused : Refuses (entry key middle) (':' :: text)) (others : List (List Char))
    (rest : List Char) : ∀ (rounds offset : Nat), ∃ e, entriesFrom entry rounds false s
      (.before ((texts ++ entryChars key text :: others).flatMap (',' :: ·) ++ '\x7d' :: rest)
        offset) = .error e := by
  induction h with
  | nil s =>
    intro rounds offset
    cases rounds with
    | zero => exact ⟨_, rfl⟩
    | succ rounds =>
      obtain ⟨start, hkey⟩ := nextKey_comma key
        (':' :: text ++ (others.flatMap (',' :: ·) ++ '\x7d' :: rest)) offset
      obtain ⟨e, he⟩ := hrefused (others.flatMap (',' :: ·) ++ '\x7d' :: rest) start
      refine ⟨e, ?_⟩
      rw [List.nil_append, flatMap_entryChars]
      simp only [entriesFrom, hkey, he, bind, Except.bind]
  | @cons own value texts s next last hentry _ ih =>
    intro rounds offset
    cases rounds with
    | zero => exact ⟨_, rfl⟩
    | succ rounds =>
      obtain ⟨start, hkey⟩ := nextKey_comma own (':' :: value ++
        ((texts ++ entryChars key text :: others).flatMap (',' :: ·) ++ '\x7d' :: rest)) offset
      obtain ⟨behind, hvalue⟩ := hentry _ start
        (stops_flatMap_comma (texts ++ entryChars key text :: others) stops_object rest)
      obtain ⟨e, he⟩ := ih hrefused rounds behind
      refine ⟨e, ?_⟩
      rw [List.cons_append, flatMap_entryChars]
      simp only [entriesFrom, hkey, hvalue, he, bind, Except.bind]

theorem refuses_entries {entry : String → σ → Reader σ} {s middle : σ} {texts : List (List Char)}
    (h : Steps entry s texts middle) {key : String} {text : List Char}
    (hrefused : Refuses (entry key middle) (':' :: text)) (others : List (List Char)) :
    Refuses (entries entry s)
      (commaSeparated (texts ++ entryChars key text :: others) ++ ['\x7d']) := by
  intro rest offset
  rw [List.append_assoc, List.cons_append, List.nil_append, entries]
  generalize (Cursor.before _ offset).rest.length = rounds
  cases rounds with
  | zero => exact ⟨_, rfl⟩
  | succ rounds =>
    cases h with
    | nil =>
      obtain ⟨start, hkey⟩ := nextKey_first key
        (':' :: text ++ (others.flatMap (',' :: ·) ++ '\x7d' :: rest)) offset
      obtain ⟨e, he⟩ := hrefused (others.flatMap (',' :: ·) ++ '\x7d' :: rest) start
      refine ⟨e, ?_⟩
      rw [List.nil_append, commaSeparated_cons, List.append_assoc, entryChars, List.append_assoc]
      simp only [entriesFrom, hkey, he, bind, Except.bind]
    | @cons own value texts _ next _ hentry hothers =>
      obtain ⟨start, hkey⟩ := nextKey_first own (':' :: value ++
        ((texts ++ entryChars key text :: others).flatMap (',' :: ·) ++ '\x7d' :: rest)) offset
      obtain ⟨behind, hvalue⟩ := hentry _ start
        (stops_flatMap_comma (texts ++ entryChars key text :: others) stops_object rest)
      obtain ⟨e, he⟩ := entriesFrom_rest_error hothers hrefused others rest rounds behind
      refine ⟨e, ?_⟩
      rw [List.cons_append, commaSeparated_cons, List.append_assoc]
      nth_rewrite 1 [entryChars]
      rw [List.append_assoc]
      simp only [entriesFrom, hkey, hvalue, he, bind, Except.bind]

/-- An object is refused as a record if an entry is, those before it having been taken. -/
theorem refuses_record {r : Record σ α} {taken : Entries} {draft : σ}
    (h : Steps (r.entry room) r.start (Value.entriesChars taken) draft) {key : String} {v : Value}
    (hrefused : Refuses (r.entry room key draft) (':' :: v.chars)) (others : Entries) :
    Refuses (r.decoder (room + 1)) (Value.object (taken ++ (key, v) :: others)).chars := by
  have hsolid : isSolid '\x7b' = true := by decide
  intro rest offset
  obtain ⟨e, he⟩ := refuses_entries h hrefused (Value.entriesChars others) rest
    (offset + '\x7b'.utf8Size)
  refine ⟨e, ?_⟩
  rw [Value.chars, entriesChars_append, Value.entriesChars]
  simp only [List.cons_append, Record.decoder, comes_before hsolid, Cursor.skipBlanks_before hsolid,
    beq_self_eq_true, if_true, enter, Cursor.next_before, bind, Except.bind] at he ⊢
  rw [entryChars] at he
  rw [he]

/-- No object is read where no bracket may be opened. -/
theorem refuses_record_zero (r : Record σ α) (text : List Char) :
    Refuses (r.decoder 0) ('\x7b' :: text) := by
  have hsolid : isSolid '\x7b' = true := by decide
  intro rest offset
  refine ⟨(Cursor.before ('\x7b' :: text ++ rest) offset).skipBlanks.faultAhead .tooDeep, ?_⟩
  simp only [List.cons_append, Record.decoder, comes_before hsolid, beq_self_eq_true, if_true,
    enter, bind, Except.bind]

theorem refuses_slot {r : Record σ α} {key name : String} {aliases : List String} {optional : Bool}
    {get : σ → Option β} {set : σ → β → σ} {decoder : Decoder β}
    (hfind : r.fields.find? (·.answers key) = some (.slot name aliases optional get set decoder))
    (draft : σ) {text : List Char} (hrefused : Refuses (decoder room) text) :
    Refuses (r.entry room key draft) (':' :: text) := by
  intro rest offset
  cases hgiven : (get draft).isSome with
  | true =>
    exact ⟨_, Record.entry_of_given hfind hgiven _⟩
  | false =>
    obtain ⟨e, he⟩ := hrefused rest (offset + 1)
    refine ⟨e, ?_⟩
    rw [Record.entry_of_field hfind hgiven, List.cons_append, colon_before]
    simp only [Field.read_slot, he, bind, Except.bind, Except.map]

theorem decode_ne_ok_of_refuses {decoder : Decoder α} {chars : List Char}
    (h : Refuses (decoder startRoom) chars) (a : α) :
    decode decoder (String.ofList chars) ≠ .ok a := by
  intro hdecode
  obtain ⟨behind, hread, -⟩ := decode_eq_ok_iff.1 hdecode
  obtain ⟨e, he⟩ := h [] 0
  rw [List.append_nil] at he
  rw [String.toList_ofList, he] at hread
  cases hread

end AppExport.Json
