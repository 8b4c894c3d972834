/-
Keys with values, in order. Writing to a key that is present changes the value in its place, and a
new key goes to the end; `Members` are the entries that arise so, with no key twice.
-/
import AppExport.Json.Value

namespace AppExport.Json

abbrev Entries := List (String × Value)

namespace Entries

def keys (entries : Entries) : List String := entries.map Prod.fst

def insert (key : String) (value : Value) : Entries → Entries
  | [] => [(key, value)]
  | (k, v) :: rest => if k = key then (k, value) :: rest else (k, v) :: insert key value rest

theorem keys_insert (key : String) (value : Value) (entries : Entries) :
    keys (insert key value entries) =
      if key ∈ keys entries then keys entries else keys entries ++ [key] := by
  induction entries with
  | nil => simp [insert, keys]
  | cons e rest ih =>
    obtain ⟨k, v⟩ := e
    simp only [insert]
    by_cases h : k = key
    · simp [h, keys]
    · have h' : ¬key = k := fun e => h e.symm
      simp only [h, if_false, keys, List.map_cons, List.mem_cons, h', false_or] at ih ⊢
      rw [ih]
      by_cases hm : key ∈ List.map Prod.fst rest <;> simp [hm]

theorem nodup_keys_insert {key : String} {value : Value} {entries : Entries}
    (h : (keys entries).Nodup) : (keys (insert key value entries)).Nodup := by
  rw [keys_insert]
  split
  · exact h
  · rename_i hk
    rw [List.nodup_append]
    refine ⟨h, by simp, fun a ha b hb => ?_⟩
    simp only [List.mem_singleton] at hb
    exact fun e => hk (hb ▸ e ▸ ha)

end Entries

structure Members where
  entries : Entries
  distinct : entries.keys.Nodup
deriving Repr

namespace Members

def empty : Members := ⟨[], by simp [Entries.keys]⟩

instance : Inhabited Members := ⟨empty⟩

def insert (key : String) (value : Value) (m : Members) : Members :=
  ⟨m.entries.insert key value, Entries.nodup_keys_insert m.distinct⟩

/-- Entries written one after the other. -/
def ofEntries (entries : Entries) : Members :=
  entries.foldl (fun m e => m.insert e.1 e.2) empty

def get? (key : String) (m : Members) : Option Value := m.entries.lookup key

def isEmpty (m : Members) : Bool := m.entries.isEmpty

end Members
end AppExport.Json
