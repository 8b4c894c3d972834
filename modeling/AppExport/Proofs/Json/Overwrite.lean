/-
Entries written one after the other over others. A key keeps the place where it was written first and
has the value that was written last, and a key that is new stands behind all others.
-/
import AppExport.Json.Members
import AppExport.Proofs.List.EraseDups

namespace AppExport.Json

namespace Entries

theorem lookup_cons (key : String) (value : Value) (rest : Entries) (other : String) :
    List.lookup other ((key, value) :: rest) =
      if other = key then some value else rest.lookup other := by
  by_cases h : other = key
  · rw [h, List.lookup_cons_self, if_pos rfl]
  · have hne : (other == key) = false := by simpa using h
    rw [List.lookup_cons, hne, if_neg h]

theorem lookup_eq_none {key : String} {entries : Entries} (h : key ∉ entries.keys) :
    entries.lookup key = none := by
  rw [List.lookup_eq_none_iff]
  intro e he
  have hne : key ≠ e.1 := fun hkey => h (hkey ▸ List.mem_map_of_mem he)
  simpa using hne

theorem lookup_eq_some {key : String} {value : Value} {entries : Entries}
    (hdistinct : entries.keys.Nodup) (hmem : (key, value) ∈ entries) :
    entries.lookup key = some value := by
  induction entries with
  | nil => cases hmem
  | cons e rest ih =>
    obtain ⟨hhead, hrest⟩ := List.nodup_cons.1 hdistinct
    obtain ⟨k, v⟩ := e
    rw [lookup_cons]
    rcases List.mem_cons.1 hmem with he | hmem
    · cases he
      exact if_pos rfl
    · have hne : key ≠ k := by
        intro hkey
        exact hhead (List.mem_map.2 ⟨_, hmem, hkey⟩)
      rw [if_neg hne, ih hrest hmem]

theorem lookup_concat_of_ne {key other : String} (h : other ≠ key) (entries : Entries)
    (value : Value) : (entries ++ [(key, value)]).lookup other = entries.lookup other := by
  rw [List.lookup_append, lookup_cons, List.lookup_nil, if_neg h, Option.or_none]

theorem lookup_concat {key : String} {entries : Entries} (h : key ∉ entries.keys) (value : Value)
    (other : String) : (entries ++ [(key, value)]).lookup other =
      if other = key then some value else entries.lookup other := by
  by_cases hkey : other = key
  · subst hkey
    rw [List.lookup_append, lookup_eq_none h, Option.none_or, lookup_cons]
    simp only [if_true]
  · rw [lookup_concat_of_ne hkey, if_neg hkey]

/-- Only the entries whose keys are kept count for a key that is kept. -/
theorem lookup_filter {p : String → Bool} {key : String} (h : p key = true) (entries : Entries) :
    (entries.filter fun e => p e.1).lookup key = entries.lookup key := by
  induction entries with
  | nil => rfl
  | cons e rest ih =>
    obtain ⟨k, v⟩ := e
    by_cases hk : p k = true
    · rw [List.filter_cons, if_pos hk, lookup_cons, lookup_cons, ih]
    · have hne : key ≠ k := fun heq => hk (heq ▸ h)
      rw [List.filter_cons, if_neg hk, ih, lookup_cons, if_neg hne]

theorem lookup_insert (key : String) (value : Value) (entries : Entries) (other : String) :
    (insert key value entries).lookup other =
      if other = key then some value else entries.lookup other := by
  induction entries with
  | nil => rw [insert, lookup_cons, List.lookup_nil]
  | cons e rest ih =>
    obtain ⟨k, v⟩ := e
    by_cases hk : k = key
    · subst hk
      rw [insert, if_pos rfl, lookup_cons, lookup_cons]
      by_cases h : other = k <;> simp only [h, if_true, if_false]
    · rw [insert, if_neg hk, lookup_cons, lookup_cons, ih]
      by_cases h : other = k
      · subst h
        simp only [if_true, hk, if_false]
      · simp only [h, if_false]

/-- Entries with distinct keys are determined by their keys, in order, and what they hold there. -/
theorem eq_of_lookup_eq {entries others : Entries} (hdistinct : entries.keys.Nodup)
    (hkeys : entries.keys = others.keys) (hlookup : ∀ key, entries.lookup key = others.lookup key) :
    entries = others := by
  induction entries generalizing others with
  | nil =>
    cases others with
    | nil => rfl
    | cons => cases hkeys
  | cons e rest ih =>
    cases others with
    | nil => cases hkeys
    | cons e' rest' =>
      obtain ⟨k, v⟩ := e
      obtain ⟨k', v'⟩ := e'
      simp only [keys, List.map_cons, List.cons.injEq, List.nodup_cons] at hkeys hdistinct
      obtain ⟨rfl, hrest⟩ := hkeys
      have hhead := hlookup k
      simp only [List.lookup_cons_self, Option.some.injEq] at hhead
      subst hhead
      rw [ih hdistinct.2 hrest fun key => ?_]
      by_cases hkey : key = k
      · -- the key is behind neither of the two
        subst hkey
        have hother : key ∉ keys rest' := by
          rw [keys, ← hrest]
          exact hdistinct.1
        rw [lookup_eq_none hdistinct.1, lookup_eq_none hother]
      · have hbehind := hlookup key
        rwa [lookup_cons, lookup_cons, if_neg hkey, if_neg hkey] at hbehind

/-- Entries written one after the other over others. -/
def insertAll (entries later : Entries) : Entries :=
  later.foldl (fun acc e => acc.insert e.1 e.2) entries

end Entries

namespace Members

theorem eq_of_get?_eq {m other : Members} (hkeys : m.entries.keys = other.entries.keys)
    (hget : ∀ key, m.get? key = other.get? key) : m = other := by
  obtain ⟨entries, hdistinct⟩ := m
  obtain ⟨entries', hdistinct'⟩ := other
  obtain rfl : entries = entries' := Entries.eq_of_lookup_eq hdistinct hkeys hget
  rfl

theorem get?_insert (key : String) (value : Value) (m : Members) (other : String) :
    (m.insert key value).get? other = if other = key then some value else m.get? other :=
  Entries.lookup_insert key value m.entries other

/-- Members with entries written over them. -/
def insertAll (m : Members) (entries : Entries) : Members :=
  entries.foldl (fun m e => m.insert e.1 e.2) m

theorem ofEntries_eq (entries : Entries) : ofEntries entries = empty.insertAll entries := rfl

theorem insertAll_cons (m : Members) (e : String × Value) (entries : Entries) :
    m.insertAll (e :: entries) = (m.insert e.1 e.2).insertAll entries := rfl

theorem entries_insertAll (m : Members) (later : Entries) :
    (m.insertAll later).entries = m.entries.insertAll later := by
  induction later generalizing m with
  | nil => rfl
  | cons e rest ih => exact ih (m.insert e.1 e.2)

theorem insertAll_append (m : Members) (first second : Entries) :
    m.insertAll (first ++ second) = (m.insertAll first).insertAll second :=
  List.foldl_append

/-- The value of a key is the last one that was written, else the one that was there. -/
theorem get?_insertAll (m : Members) (entries : Entries) (key : String) :
    (m.insertAll entries).get? key = (entries.reverse.lookup key).or (m.get? key) := by
  induction entries generalizing m with
  | nil => rfl
  | cons e rest ih =>
    obtain ⟨k, v⟩ := e
    rw [insertAll_cons, ih, get?_insert, List.reverse_cons, List.lookup_append, Option.or_assoc,
      Entries.lookup_cons]
    by_cases h : key = k
    · rw [if_pos h, if_pos h, Option.some_or]
    · rw [if_neg h, if_neg h, List.lookup_nil, Option.none_or]

/-- Every key stands once, where it came first. -/
theorem keys_insertAll (m : Members) (entries : Entries) :
    (m.insertAll entries).entries.keys = (m.entries.keys ++ entries.keys).eraseDups := by
  induction entries generalizing m with
  | nil =>
    have hkeys : m.entries.keys ++ Entries.keys [] = m.entries.keys := List.append_nil _
    rw [hkeys, List.eraseDups_of_nodup m.distinct]
    rfl
  | cons e rest ih =>
    have hinsert := Entries.keys_insert e.1 e.2 m.entries
    have hrest : Entries.keys (e :: rest) = e.1 :: Entries.keys rest := rfl
    rw [insertAll_cons, ih, hrest]
    show (Entries.keys (m.entries.insert e.1 e.2) ++ Entries.keys rest).eraseDups = _
    rw [hinsert]
    by_cases hmem : e.1 ∈ m.entries.keys
    · have hseen : (e.1 :: Entries.keys rest).removeAll m.entries.keys =
          (Entries.keys rest).removeAll m.entries.keys := by
        simp [List.removeAll, hmem]
      rw [if_pos hmem, List.eraseDups_append, List.eraseDups_append, hseen]
    · rw [if_neg hmem, List.append_assoc, List.singleton_append]

theorem insertAll_insertAll_self (m : Members) (entries : Entries) :
    (m.insertAll entries).insertAll entries = m.insertAll entries := by
  apply eq_of_get?_eq
  · have hseen : entries.keys.removeAll (m.insertAll entries).entries.keys = [] := by
      rw [List.removeAll, List.filter_eq_nil_iff, keys_insertAll]
      intro key hkey
      have hmem : key ∈ m.entries.keys ++ entries.keys := List.mem_append_right _ hkey
      simp [List.mem_eraseDups.2 hmem]
    rw [keys_insertAll, List.eraseDups_append, List.eraseDups_of_nodup (m.insertAll entries).distinct,
      hseen, List.eraseDups_nil, List.append_nil]
  · intro key
    rw [get?_insertAll, get?_insertAll, ← Option.or_assoc, Option.or_self]

theorem entries_ofEntries (entries : Entries) :
    (ofEntries entries).entries = Entries.insertAll [] entries :=
  entries_insertAll empty entries

theorem keys_ofEntries (entries : Entries) :
    (ofEntries entries).entries.keys = entries.keys.eraseDups :=
  keys_insertAll empty entries

theorem get?_ofEntries (entries : Entries) (key : String) :
    (ofEntries entries).get? key = entries.reverse.lookup key := by
  rw [ofEntries_eq, get?_insertAll]
  exact Option.or_none

end Members
end AppExport.Json
