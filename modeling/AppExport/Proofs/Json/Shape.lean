/-
What a value is made of, as far as reading it back depends on it: how deep its lists and objects
nest, which binary64 numbers it holds, and whether its objects have every key once. The nesting can
be seen from the text of a value alone, by counting the brackets that stand outside of quotes.
-/
import AppExport.Json.Members
import AppExport.Json.Printer
import AppExport.Proofs.Decimal.Notation
import AppExport.Proofs.Text.Quoted

namespace AppExport.Json

open Decimal (Binary64 isNumeral)
open Text (escape quoteChars)

namespace Value

mutual
/-- How many brackets are open at once in the text of a value. -/
def depth : Value → Nat
  | null | bool _ | number _ | text _ => 0
  | list items => depthAll items + 1
  | object entries => depthEntries entries + 1

def depthAll : List Value → Nat
  | [] => 0
  | v :: rest => max v.depth (depthAll rest)

def depthEntries : List (String × Value) → Nat
  | [] => 0
  | (_, v) :: rest => max v.depth (depthEntries rest)
end

mutual
/-- The binary64 numbers in a value. -/
def floats : Value → List Binary64
  | null | bool _ | text _ | number (.integer _ _ _) => []
  | number (.float x) => [x]
  | list items => floatsAll items
  | object entries => floatsEntries entries

def floatsAll : List Value → List Binary64
  | [] => []
  | v :: rest => v.floats ++ floatsAll rest

def floatsEntries : List (String × Value) → List Binary64
  | [] => []
  | (_, v) :: rest => v.floats ++ floatsEntries rest
end

mutual
/-- Whether no object in a value has a key twice. -/
def Keyed : Value → Prop
  | null | bool _ | number _ | text _ => True
  | list items => KeyedAll items
  | object entries => (Entries.keys entries).Nodup ∧ KeyedEntries entries

def KeyedAll : List Value → Prop
  | [] => True
  | v :: rest => v.Keyed ∧ KeyedAll rest

def KeyedEntries : List (String × Value) → Prop
  | [] => True
  | (_, v) :: rest => v.Keyed ∧ KeyedEntries rest
end

theorem depthAll_le_iff {items : List Value} {n : Nat} :
    depthAll items ≤ n ↔ ∀ v ∈ items, v.depth ≤ n := by
  induction items with
  | nil => simp [depthAll]
  | cons v rest ih => rw [depthAll, Nat.max_le, ih, List.forall_mem_cons]

theorem depthEntries_le_iff {entries : List (String × Value)} {n : Nat} :
    depthEntries entries ≤ n ↔ ∀ e ∈ entries, e.2.depth ≤ n := by
  induction entries with
  | nil => simp [depthEntries]
  | cons e rest ih => rw [depthEntries, Nat.max_le, ih, List.forall_mem_cons]

theorem mem_floatsEntries {entries : List (String × Value)} {x : Binary64} :
    x ∈ floatsEntries entries ↔ ∃ e ∈ entries, x ∈ e.2.floats := by
  induction entries with
  | nil => simp [floatsEntries]
  | cons e rest ih => rw [floatsEntries, List.mem_append, ih, List.exists_mem_cons_iff]

theorem keyedAll_iff {items : List Value} : KeyedAll items ↔ ∀ v ∈ items, v.Keyed := by
  induction items with
  | nil => simp [KeyedAll]
  | cons v rest ih => rw [KeyedAll, ih, List.forall_mem_cons]

theorem keyedEntries_iff {entries : List (String × Value)} :
    KeyedEntries entries ↔ ∀ e ∈ entries, e.2.Keyed := by
  induction entries with
  | nil => simp [KeyedEntries]
  | cons e rest ih => rw [KeyedEntries, ih, List.forall_mem_cons]

/-! ## Lists of texts -/

@[simp] theorem keyedAll_texts (ss : List String) : KeyedAll (ss.map text) := by
  induction ss with
  | nil => trivial
  | cons s ss ih => exact ⟨trivial, ih⟩

@[simp] theorem depthAll_texts (ss : List String) : depthAll (ss.map text) = 0 := by
  induction ss with
  | nil => rfl
  | cons s ss ih => rw [List.map_cons, depthAll, ih, depth, Nat.max_zero]

@[simp] theorem floatsAll_texts (ss : List String) : floatsAll (ss.map text) = [] := by
  induction ss with
  | nil => rfl
  | cons s ss ih => rw [List.map_cons, floatsAll, ih, floats, List.append_nil]

end Value

theorem isNumeral_of_mem_numberChars {n : Number} {c : Char} (h : c ∈ n.chars) :
    isNumeral c = true := by
  cases n with
  | integer i _ _ => exact Decimal.isNumeral_of_mem_intChars h
  | float x => exact Binary64.isNumeral_of_mem_chars h

/-! ## Nesting, seen from the text -/

/-- What is known of a text after some of its characters. -/
structure Scan where
  quoted : Bool
  /-- Whether a backslash has just been read between quotes. -/
  escaped : Bool
  depth : Nat
  deepest : Nat

namespace Scan

def step (s : Scan) (c : Char) : Scan :=
  if s.escaped then { s with escaped := false }
  else if s.quoted then
    if c = '\\' then { s with escaped := true }
    else if c = '"' then { s with quoted := false }
    else s
  else if c = '"' then { s with quoted := true }
  else if c = '[' ∨ c = '\x7b' then
    { s with depth := s.depth + 1, deepest := max s.deepest (s.depth + 1) }
  else if c = ']' ∨ c = '\x7d' then { s with depth := s.depth - 1 }
  else s

/-- A place outside of quotes. -/
def outside (depth deepest : Nat) : Scan := ⟨false, false, depth, deepest⟩

end Scan

/-- The greatest number of brackets that are open at once in a text. -/
def nesting (text : String) : Nat := (text.toList.foldl Scan.step (.outside 0 0)).deepest

namespace Scan

/-- A character that neither quotes nor brackets. -/
def isPlain (c : Char) : Bool := !(['"', '[', ']', '\x7b', '\x7d'].contains c)

theorem foldl_plain {cs : List Char} (h : ∀ c ∈ cs, isPlain c = true) (depth deepest : Nat) :
    cs.foldl step (outside depth deepest) = outside depth deepest := by
  induction cs with
  | nil => rfl
  | cons c cs ih =>
    obtain ⟨hc, hcs⟩ := List.forall_mem_cons.1 h
    have hstep : step (outside depth deepest) c = outside depth deepest := by
      simp only [isPlain, List.contains_eq_mem, List.mem_cons, List.not_mem_nil, or_false,
        Bool.not_eq_true', decide_eq_false_iff_not, not_or] at hc
      simp [step, outside, hc]
    rw [List.foldl_cons, hstep, ih hcs]

theorem foldl_escape (c : Char) (depth deepest : Nat) :
    (escape c).foldl step ⟨true, false, depth, deepest⟩ = ⟨true, false, depth, deepest⟩ := by
  obtain ⟨letter, -, he⟩ | ⟨hc, he⟩ | ⟨-, hquote, hslash, he⟩ := Text.escape_cases c <;> rw [he]
  · rfl
  · have hdigit : ∀ n < 16, Text.hexDigit n ≠ '\\' ∧ Text.hexDigit n ≠ '"' := by decide
    obtain ⟨hhigh, hhigh'⟩ := hdigit (c.toNat / 16) (by omega)
    obtain ⟨hlow, hlow'⟩ := hdigit (c.toNat % 16) (Nat.mod_lt _ (by decide))
    simp [step, hhigh, hhigh', hlow, hlow']
  · simp [step, hquote, hslash]

theorem foldl_quoteChars (s : List Char) (depth deepest : Nat) :
    (quoteChars s).foldl step (outside depth deepest) = outside depth deepest := by
  have hbody : (s.flatMap escape).foldl step ⟨true, false, depth, deepest⟩ =
      ⟨true, false, depth, deepest⟩ := by
    induction s with
    | nil => rfl
    | cons c s ih => rw [List.flatMap_cons, List.foldl_append, foldl_escape, ih]
  have hopen : step (outside depth deepest) '"' = ⟨true, false, depth, deepest⟩ := by
    simp [step, outside]
  rw [quoteChars, List.cons_append, List.foldl_cons, hopen, List.foldl_append, hbody]
  simp [step, outside]

theorem isPlain_of_isNumeral {c : Char} (h : isNumeral c = true) : isPlain c = true := by
  have hall : ∀ d ∈ ['"', '[', ']', '\x7b', '\x7d'], isNumeral d = false :=
    List.all_iff_forall_prop.1 (by decide)
  rw [isPlain, Bool.not_eq_true', List.contains_eq_mem, decide_eq_false_iff_not]
  intro hmem
  rw [hall c hmem] at h
  cases h

theorem foldl_number (n : Number) (depth deepest : Nat) :
    n.chars.foldl step (outside depth deepest) = outside depth deepest :=
  foldl_plain (fun _ hc => isPlain_of_isNumeral (isNumeral_of_mem_numberChars hc)) depth deepest

/-- A text that brings the scan back to its depth, in brackets. -/
theorem foldl_bracketed {opening closing : Char} {text : List Char} {depth deepest d : Nat}
    (hopening : opening = '[' ∨ opening = '\x7b') (hclosing : closing = ']' ∨ closing = '\x7d')
    (h : text.foldl step (outside (depth + 1) (max deepest (depth + 1))) =
      outside (depth + 1) (max (max deepest (depth + 1)) (depth + 1 + d))) :
    (opening :: text ++ [closing]).foldl step (outside depth deepest) =
      outside depth (max deepest (depth + (d + 1))) := by
  have hopen : step (outside depth deepest) opening =
      outside (depth + 1) (max deepest (depth + 1)) := by
    rcases hopening with rfl | rfl <;> simp [step, outside]
  have hclose : ∀ n, step (outside (depth + 1) n) closing = outside depth n := by
    intro n
    rcases hclosing with rfl | rfl <;> simp [step, outside]
  have hmax : max (max deepest (depth + 1)) (depth + 1 + d) = max deepest (depth + (d + 1)) := by
    omega
  rw [List.cons_append, List.foldl_cons, hopen, List.foldl_append, h, List.foldl_cons, hclose,
    List.foldl_nil, hmax]

theorem foldl_comma_cons {first rest : List Char} {depth deepest d d' : Nat}
    (hfirst : first.foldl step (outside depth deepest) = outside depth (max deepest (depth + d)))
    (hrest : rest.foldl step (outside depth (max deepest (depth + d))) =
      outside depth (max (max deepest (depth + d)) (depth + d'))) :
    (first ++ ',' :: rest).foldl step (outside depth deepest) =
      outside depth (max deepest (depth + max d d')) := by
  have hcomma : ∀ n, step (outside depth n) ',' = outside depth n := by
    intro n
    simp [step, outside]
  have hmax : max (max deepest (depth + d)) (depth + d') = max deepest (depth + max d d') := by
    omega
  rw [List.foldl_append, hfirst, List.foldl_cons, hcomma, hrest, hmax]

theorem foldl_entry {key : String} {text : List Char} {depth deepest d : Nat}
    (h : text.foldl step (outside depth deepest) = outside depth (max deepest (depth + d))) :
    (quoteChars key.toList ++ ':' :: text).foldl step (outside depth deepest) =
      outside depth (max deepest (depth + d)) := by
  have hcolon : step (outside depth deepest) ':' = outside depth deepest := by
    simp [step, outside]
  rw [List.foldl_append, foldl_quoteChars, List.foldl_cons, hcolon, h]

mutual
/-- The text of a value opens as many brackets as the value is deep, and closes them all. -/
theorem foldl_chars : ∀ (v : Value) (depth deepest : Nat), depth ≤ deepest →
    v.chars.foldl step (outside depth deepest) = outside depth (max deepest (depth + v.depth))
  | .null, depth, deepest, hle => by
    rw [Value.chars, foldl_plain (List.all_eq_true.1 (by decide)), Value.depth, Nat.add_zero, Nat.max_eq_left hle]
  | .bool b, depth, deepest, hle => by
    have hplain : ∀ c ∈ boolChars b, isPlain c = true :=
      List.all_eq_true.1 (by cases b <;> decide)
    rw [Value.chars, foldl_plain hplain, Value.depth, Nat.add_zero, Nat.max_eq_left hle]
  | .number n, depth, deepest, hle => by
    rw [Value.chars, foldl_number, Value.depth, Nat.add_zero, Nat.max_eq_left hle]
  | .text s, depth, deepest, hle => by
    rw [Value.chars, foldl_quoteChars, Value.depth, Nat.add_zero, Nat.max_eq_left hle]
  | .list items, depth, deepest, hle => by
    rw [Value.chars, Value.depth]
    exact foldl_bracketed (.inl rfl) (.inl rfl)
      (foldl_itemsChars items (depth + 1) _ (Nat.le_max_right _ _))
  | .object entries, depth, deepest, hle => by
    rw [Value.chars, Value.depth]
    exact foldl_bracketed (.inr rfl) (.inr rfl)
      (foldl_entriesChars entries (depth + 1) _ (Nat.le_max_right _ _))

theorem foldl_itemsChars : ∀ (items : List Value) (depth deepest : Nat), depth ≤ deepest →
    (commaSeparated (Value.itemsChars items)).foldl step (outside depth deepest) =
      outside depth (max deepest (depth + Value.depthAll items))
  | [], depth, deepest, hle => by
    rw [Value.itemsChars, commaSeparated, List.foldl_nil, Value.depthAll, Nat.add_zero,
      Nat.max_eq_left hle]
  | [v], depth, deepest, hle => by
    rw [Value.itemsChars, Value.itemsChars, commaSeparated, foldl_chars v depth deepest hle,
      Value.depthAll, Value.depthAll, Nat.max_zero]
  | v :: next :: rest, depth, deepest, hle => by
    have hrest := foldl_itemsChars (next :: rest) depth (max deepest (depth + v.depth)) (by omega)
    rw [Value.itemsChars] at hrest
    rw [Value.itemsChars, Value.itemsChars, commaSeparated, Value.depthAll]
    · exact foldl_comma_cons (foldl_chars v depth deepest hle) hrest
    · simp

theorem foldl_entriesChars : ∀ (entries : List (String × Value)) (depth deepest : Nat),
    depth ≤ deepest →
    (commaSeparated (Value.entriesChars entries)).foldl step (outside depth deepest) =
      outside depth (max deepest (depth + Value.depthEntries entries))
  | [], depth, deepest, hle => by
    rw [Value.entriesChars, commaSeparated, List.foldl_nil, Value.depthEntries, Nat.add_zero,
      Nat.max_eq_left hle]
  | [(key, v)], depth, deepest, hle => by
    rw [Value.entriesChars, Value.entriesChars, commaSeparated,
      foldl_entry (foldl_chars v depth deepest hle), Value.depthEntries, Value.depthEntries,
      Nat.max_zero]
  | (key, v) :: next :: rest, depth, deepest, hle => by
    have hrest := foldl_entriesChars (next :: rest) depth (max deepest (depth + v.depth)) (by omega)
    rw [Value.entriesChars] at hrest
    rw [Value.entriesChars, Value.entriesChars, commaSeparated, Value.depthEntries]
    · exact foldl_comma_cons (foldl_entry (foldl_chars v depth deepest hle)) hrest
    · simp
end

end Scan

/-- The nesting of a value's text is how deep the value is. -/
theorem nesting_compact (v : Value) : nesting v.compact = v.depth := by
  rw [nesting, Value.compact, String.toList_ofList, Scan.foldl_chars v 0 0 (Nat.le_refl 0)]
  simp [Scan.outside]

end AppExport.Json
