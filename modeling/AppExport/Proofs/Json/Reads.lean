/-
Texts that a reader takes whole. `Reads reader text a` says that the reader takes `text` to `a` and
stops behind it, whatever stands there, as long as it does not continue a number. Items between
commas and entries between commas are taken whole if each of them is, so lists and objects of every
kind are read by the two loops alike.
-/
import AppExport.Json.Printer
import AppExport.Json.Typed
import AppExport.Proofs.Json.Text
import Mathlib.Data.List.Forall2

namespace AppExport.Json

open Decimal (isDigit)
open Text (Glyph quoteChars escape)

variable {α β σ : Type}

/-! ## Cursors before characters -/

/-- A character that no reader passes over. -/
def isSolid (c : Char) : Bool := !Cursor.isBlank (.char c)

namespace Cursor

theorem skipBlanks_before {c : Char} (h : isSolid c = true) (text : List Char) (offset : Nat) :
    (before (c :: text) offset).skipBlanks = before (c :: text) offset := by
  have hblank : isBlank (.char c) = false := by simpa [isSolid] using h
  simp [skipBlanks, before, hblank]

@[simp] theorem skipBlanks_before_nil (offset : Nat) :
    (before [] offset).skipBlanks = before [] offset := rfl

end Cursor

theorem comes_before {c : Char} (h : isSolid c = true) (g : Char) (text : List Char)
    (offset : Nat) : comes g (.before (c :: text) offset) = (c == g) := by
  rw [comes, Cursor.skipBlanks_before h, Bool.eq_iff_iff]
  simp

/-! ## Reading a text whole -/

/-- A character with which a number goes on. -/
def continuesNumber (c : Char) : Bool := isDigit c || c == '.' || c == 'e' || c == 'E'

/-- Whether a number ends before a text. -/
def Stops (rest : List Char) : Prop := ∀ c ∈ rest.head?, continuesNumber c = false

theorem stops_nil : Stops [] := by simp [Stops]

theorem stops_cons {c : Char} (h : continuesNumber c = false) (rest : List Char) :
    Stops (c :: rest) := by
  simpa [Stops] using h

def Reads (reader : Reader α) (text : List Char) (a : α) : Prop :=
  ∀ rest offset, Stops rest →
    ∃ offset', reader (.before (text ++ rest) offset) = .ok (a, .before rest offset')

namespace Reads

theorem map {reader : Reader α} {text : List Char} {a : α} (f : α → β)
    (h : Reads reader text a) : Reads (fun c => (reader c).map fun (a, c) => (f a, c)) text (f a) := by
  intro rest offset hrest
  obtain ⟨offset', he⟩ := h rest offset hrest
  exact ⟨offset', by simp only [he]; rfl⟩

theorem next {reader : Reader α} {text : List Char} {a : α} (c : Char) (h : Reads reader text a) :
    Reads (fun c => reader c.next) (c :: text) a :=
  fun rest offset hrest => h rest (offset + c.utf8Size) hrest

end Reads

/-! ## Words and texts -/

theorem word_letters (letters rest : List Char) (offset : Nat) : ∃ offset',
    word letters (.before (letters ++ rest) offset) = .ok ((), .before rest offset') := by
  induction letters generalizing offset with
  | nil => exact ⟨offset, rfl⟩
  | cons letter letters ih =>
    obtain ⟨offset', h⟩ := ih (offset + letter.utf8Size)
    refine ⟨offset', ?_⟩
    simp only [List.cons_append, word, Cursor.rest_before, List.map_cons, if_true,
      Cursor.next_before]
    exact h

theorem reads_word (letters : List Char) : Reads (word letters) letters () :=
  fun rest offset _ => word_letters letters rest offset

theorem reads_textBody (s : String) :
    Reads textBody (s.toList.flatMap escape ++ ['"']) s := by
  intro rest offset _
  obtain ⟨offset', h⟩ := textBody_quoted s.toList rest offset
  exact ⟨offset', by rw [String.ofList_toList] at h; simpa using h⟩

theorem reads_text (expected : String) (s : String) :
    Reads (text expected) (quoteChars s.toList) s := by
  intro rest offset hrest
  obtain ⟨offset', h⟩ := reads_textBody s rest (offset + '"'.utf8Size) hrest
  refine ⟨offset', ?_⟩
  simp only [quoteChars, List.cons_append]
  rw [text, comes_before (by decide), Cursor.skipBlanks_before (by decide), Cursor.next_before]
  simpa using h

theorem colon_before (rest : List Char) (offset : Nat) :
    colon (.before (':' :: rest) offset) = .ok ((), .before rest (offset + 1)) := by
  rw [colon, Cursor.skipBlanks_before (by decide)]
  rfl

/-! ## Items of a list -/

/-- A text that can be an item: it begins with neither a blank nor a closing bracket. -/
def Opens (text : List Char) : Prop := ∃ c cs, text = c :: cs ∧ isSolid c = true ∧ c ≠ ']'

theorem commaSeparated_cons (text : List Char) (texts : List (List Char)) :
    commaSeparated (text :: texts) = text ++ texts.flatMap (',' :: ·) := by
  induction texts generalizing text with
  | nil => simp [commaSeparated]
  | cons next texts ih =>
    rw [commaSeparated, ih, List.flatMap_cons, List.cons_append]
    simp

theorem nextItem_opens {text : List Char} (h : Opens text) (offset : Nat) :
    nextItem true (.before text offset) = .ok (some (.before text offset), .before text offset) := by
  obtain ⟨c, cs, rfl, hsolid, hclosing⟩ := h
  rw [nextItem, Cursor.skipBlanks_before hsolid]
  simp [hclosing]

theorem nextItem_comma {text : List Char} (h : Opens text) (offset : Nat) :
    nextItem false (.before (',' :: text) offset) =
      .ok (some (.before text (offset + 1)), .before text (offset + 1)) := by
  obtain ⟨c, cs, rfl, hsolid, hclosing⟩ := h
  have hsize : ','.utf8Size = 1 := by decide
  rw [nextItem, Cursor.skipBlanks_before (by decide), Cursor.next_before,
    Cursor.skipBlanks_before hsolid, hsize]
  simp [hclosing]

theorem nextItem_closing (first : Bool) (rest : List Char) (offset : Nat) :
    nextItem first (.before (']' :: rest) offset) =
      .ok (none, .before (']' :: rest) offset) := by
  rw [nextItem, Cursor.skipBlanks_before (by decide)]
  rfl

theorem Opens.append {text : List Char} (h : Opens text) (rest : List Char) :
    Opens (text ++ rest) := by
  obtain ⟨c, cs, rfl, hsolid, hclosing⟩ := h
  exact ⟨c, cs ++ rest, rfl, hsolid, hclosing⟩

/-- Behind an item or an entry stands a comma or a closing bracket. -/
theorem stops_flatMap_comma (texts : List (List Char)) {closing : Char}
    (h : continuesNumber closing = false) (rest : List Char) :
    Stops (texts.flatMap (',' :: ·) ++ closing :: rest) := by
  cases texts with
  | nil => exact stops_cons h rest
  | cons text texts => exact stops_cons (by decide) _

theorem stops_list : continuesNumber ']' = false := by decide

theorem stops_object : continuesNumber '\x7d' = false := by decide

/-- Items behind a first one, up to the closing bracket. -/
theorem itemsFrom_rest {item : Reader α} {texts : List (List Char)} {as : List α}
    (h : List.Forall₂ (fun text a => Opens text ∧ Reads item text a) texts as) :
    ∀ (rounds : Nat) (rest : List Char) (offset : Nat), texts.length < rounds → ∃ offset',
      itemsFrom item rounds false (.before (texts.flatMap (',' :: ·) ++ ']' :: rest) offset) =
        .ok (as, .before rest offset') := by
  induction h with
  | nil =>
    intro rounds rest offset hrounds
    obtain ⟨rounds, rfl⟩ : ∃ n, rounds = n + 1 := ⟨rounds - 1, by simp at hrounds; omega⟩
    refine ⟨offset + 1, ?_⟩
    rw [itemsFrom, List.flatMap_nil, List.nil_append, nextItem_closing]
    rfl
  | @cons text a texts as htext _ ih =>
    intro rounds rest offset hrounds
    obtain ⟨rounds, rfl⟩ : ∃ n, rounds = n + 1 := ⟨rounds - 1, by simp at hrounds; omega⟩
    obtain ⟨hopens, hread⟩ := htext
    rw [List.flatMap_cons, List.append_assoc, List.cons_append]
    have hnext := nextItem_comma
      (hopens.append (texts.flatMap (',' :: ·) ++ ']' :: rest)) offset
    obtain ⟨middle, hitem⟩ := hread _ (offset + 1) (stops_flatMap_comma texts stops_list rest)
    obtain ⟨offset', hothers⟩ := ih rounds rest middle (by simpa using hrounds)
    refine ⟨offset', ?_⟩
    simp only [itemsFrom, hnext, hitem, hothers, bind, Except.bind]

theorem itemsFrom_all {item : Reader α} {texts : List (List Char)} {as : List α}
    (h : List.Forall₂ (fun text a => Opens text ∧ Reads item text a) texts as) (rounds : Nat)
    (rest : List Char) (offset : Nat) (hrounds : texts.length < rounds) : ∃ offset',
      itemsFrom item rounds true (.before (commaSeparated texts ++ ']' :: rest) offset) =
        .ok (as, .before rest offset') := by
  obtain ⟨rounds, rfl⟩ : ∃ n, rounds = n + 1 := ⟨rounds - 1, by omega⟩
  cases h with
  | nil =>
    refine ⟨offset + 1, ?_⟩
    rw [itemsFrom, commaSeparated, List.nil_append, nextItem_closing]
    rfl
  | @cons text a texts as htext hothers =>
    obtain ⟨hopens, hread⟩ := htext
    rw [commaSeparated_cons, List.append_assoc]
    obtain ⟨middle, hitem⟩ := hread _ offset (stops_flatMap_comma texts stops_list rest)
    obtain ⟨offset', htail⟩ := itemsFrom_rest hothers rounds rest middle (by simpa using hrounds)
    refine ⟨offset', ?_⟩
    simp only [itemsFrom, nextItem_opens (hopens.append _), hitem, htail, bind, Except.bind]

/-- No item is empty, so there are no more items than characters. -/
theorem length_le_commaSeparated {texts : List (List Char)} (h : ∀ text ∈ texts, text ≠ []) :
    texts.length ≤ (commaSeparated texts).length := by
  cases texts with
  | nil => simp
  | cons text texts =>
    have hfirst := List.length_pos_of_ne_nil (h text List.mem_cons_self)
    have hothers : texts.length ≤ (texts.flatMap (',' :: ·)).length := by
      clear h
      induction texts with
      | nil => simp
      | cons next texts ih =>
        simp only [List.flatMap_cons, List.length_append, List.length_cons]
        omega
    rw [commaSeparated_cons, List.length_append, List.length_cons]
    omega

theorem Opens.ne_nil {text : List Char} (h : Opens text) : text ≠ [] := by
  obtain ⟨c, cs, rfl, -, -⟩ := h
  exact List.cons_ne_nil c cs

theorem reads_items {item : Reader α} {texts : List (List Char)} {as : List α}
    (h : List.Forall₂ (fun text a => Opens text ∧ Reads item text a) texts as) :
    Reads (items item) (commaSeparated texts ++ [']']) as := by
  intro rest offset _
  rw [List.append_assoc, List.cons_append, List.nil_append]
  have hfilled : ∀ text ∈ texts, text ≠ [] := by
    induction h with
    | nil => simp
    | cons htext _ ih => exact List.forall_mem_cons.2 ⟨htext.1.ne_nil, ih⟩
  have hlength := length_le_commaSeparated hfilled
  refine itemsFrom_all h _ rest offset ?_
  simp only [Cursor.rest_before, List.length_map, List.length_append, List.length_cons]
  omega

/-! ## Entries of an object -/

/-- A key and what stands behind it. -/
def entryChars (key : String) (text : List Char) : List Char :=
  quoteChars key.toList ++ ':' :: text

theorem flatMap_entryChars (key : String) (text : List Char) (texts : List (List Char))
    (rest : List Char) : (entryChars key text :: texts).flatMap (',' :: ·) ++ rest =
      ',' :: quoteChars key.toList ++ (':' :: text ++ (texts.flatMap (',' :: ·) ++ rest)) := by
  simp [entryChars]

/-- Texts of entries that a reader takes one by one, from one state to another. -/
inductive Steps (entry : String → σ → Reader σ) : σ → List (List Char) → σ → Prop
  | nil (s : σ) : Steps entry s [] s
  | cons {key : String} {text : List Char} {texts : List (List Char)} {s next last : σ} :
    Reads (entry key s) (':' :: text) next → Steps entry next texts last →
      Steps entry s (entryChars key text :: texts) last

theorem Steps.append {entry : String → σ → Reader σ} {s middle last : σ}
    {texts others : List (List Char)} (h : Steps entry s texts middle)
    (hothers : Steps entry middle others last) : Steps entry s (texts ++ others) last := by
  induction h with
  | nil s => exact hothers
  | cons hentry _ ih => exact .cons hentry (ih hothers)

/-- A key is read where one can stand: at the beginning, or behind a comma. -/
theorem nextKey_first (key : String) (rest : List Char) (offset : Nat) : ∃ offset',
    nextKey true (.before (quoteChars key.toList ++ rest) offset) =
      .ok (some key, .before rest offset') := by
  obtain ⟨offset', h⟩ := textBody_quoted key.toList rest (offset + '"'.utf8Size)
  refine ⟨offset', ?_⟩
  simp only [quoteChars, List.cons_append, List.append_assoc, List.nil_append]
  rw [nextKey, Cursor.skipBlanks_before (by decide)]
  simp only [Cursor.rest_before, List.map_cons, Glyph.char.injEq, Char.reduceEq, if_false, if_true,
    Cursor.next_before, h, String.ofList_toList]
  rfl

theorem nextKey_comma (key : String) (rest : List Char) (offset : Nat) : ∃ offset',
    nextKey false (.before (',' :: quoteChars key.toList ++ rest) offset) =
      .ok (some key, .before rest offset') := by
  obtain ⟨offset', h⟩ :=
    textBody_quoted key.toList rest (offset + ','.utf8Size + '"'.utf8Size)
  refine ⟨offset', ?_⟩
  simp only [quoteChars, List.cons_append, List.append_assoc, List.nil_append]
  rw [nextKey, Cursor.skipBlanks_before (by decide), Cursor.next_before,
    Cursor.skipBlanks_before (by decide)]
  simp only [Cursor.rest_before, List.map_cons, Glyph.char.injEq, Char.reduceEq, if_false, if_true,
    Cursor.next_before, h, String.ofList_toList, Bool.false_eq_true]
  rfl

theorem nextKey_closing (first : Bool) (rest : List Char) (offset : Nat) :
    nextKey first (.before ('\x7d' :: rest) offset) = .ok (none, .before rest (offset + 1)) := by
  rw [nextKey, Cursor.skipBlanks_before (by decide)]
  rfl

theorem entriesFrom_rest {entry : String → σ → Reader σ} {s last : σ} {texts : List (List Char)}
    (h : Steps entry s texts last) :
    ∀ (rounds : Nat) (rest : List Char) (offset : Nat), texts.length < rounds → ∃ offset',
      entriesFrom entry rounds false s
          (.before (texts.flatMap (',' :: ·) ++ '\x7d' :: rest) offset) =
        .ok (last, .before rest offset') := by
  induction h with
  | nil s =>
    intro rounds rest offset hrounds
    obtain ⟨rounds, rfl⟩ : ∃ n, rounds = n + 1 := ⟨rounds - 1, by simp at hrounds; omega⟩
    refine ⟨offset + 1, ?_⟩
    rw [List.flatMap_nil, List.nil_append, entriesFrom, nextKey_closing]
    rfl
  | @cons key text texts s next last hentry _ ih =>
    intro rounds rest offset hrounds
    obtain ⟨rounds, rfl⟩ : ∃ n, rounds = n + 1 := ⟨rounds - 1, by simp at hrounds; omega⟩
    obtain ⟨start, hkey⟩ := nextKey_comma key
      (':' :: text ++ (texts.flatMap (',' :: ·) ++ '\x7d' :: rest)) offset
    obtain ⟨middle, hvalue⟩ := hentry _ start (stops_flatMap_comma texts stops_object rest)
    obtain ⟨offset', hothers⟩ := ih rounds rest middle (by simpa using hrounds)
    refine ⟨offset', ?_⟩
    rw [flatMap_entryChars]
    simp only [entriesFrom, hkey, hvalue, hothers, bind, Except.bind]

theorem entriesFrom_all {entry : String → σ → Reader σ} {s last : σ} {texts : List (List Char)}
    (h : Steps entry s texts last) (rounds : Nat) (rest : List Char) (offset : Nat)
    (hrounds : texts.length < rounds) : ∃ offset',
      entriesFrom entry rounds true s (.before (commaSeparated texts ++ '\x7d' :: rest) offset) =
        .ok (last, .before rest offset') := by
  obtain ⟨rounds, rfl⟩ : ∃ n, rounds = n + 1 := ⟨rounds - 1, by omega⟩
  cases h with
  | nil =>
    refine ⟨offset + 1, ?_⟩
    rw [entriesFrom, commaSeparated, List.nil_append, nextKey_closing]
    rfl
  | @cons key text texts _ next _ hentry hothers =>
    rw [commaSeparated_cons, List.append_assoc, entryChars, List.append_assoc]
    obtain ⟨start, hkey⟩ := nextKey_first key
      (':' :: text ++ (texts.flatMap (',' :: ·) ++ '\x7d' :: rest)) offset
    obtain ⟨middle, hvalue⟩ := hentry _ start (stops_flatMap_comma texts stops_object rest)
    obtain ⟨offset', htail⟩ := entriesFrom_rest hothers rounds rest middle (by simpa using hrounds)
    refine ⟨offset', ?_⟩
    simp only [entriesFrom, hkey, hvalue, htail, bind, Except.bind]

theorem Steps.ne_nil {entry : String → σ → Reader σ} {s last : σ} {texts : List (List Char)}
    (h : Steps entry s texts last) : ∀ text ∈ texts, text ≠ [] := by
  induction h with
  | nil s => simp
  | cons _ _ ih =>
    intro text htext
    rcases List.mem_cons.1 htext with rfl | htext
    · simp [entryChars, quoteChars]
    · exact ih text htext

theorem reads_entries {entry : String → σ → Reader σ} {s last : σ} {texts : List (List Char)}
    (h : Steps entry s texts last) :
    Reads (entries entry s) (commaSeparated texts ++ ['\x7d']) last := by
  intro rest offset _
  rw [List.append_assoc, List.cons_append, List.nil_append]
  have hlength := length_le_commaSeparated h.ne_nil
  refine entriesFrom_all h _ rest offset ?_
  simp only [Cursor.rest_before, List.length_map, List.length_append, List.length_cons]
  omega

end AppExport.Json
