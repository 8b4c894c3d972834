/-
Room to spare. A reader of values that succeeds does so with more brackets to open as well, and makes
the same of the text, so what a value is does not depend on how deep it stands.
-/
import AppExport.Proofs.Json.Members

namespace AppExport.Json

open Text (Glyph)

variable {α σ : Type} {room : Nat}

/-- Whether a reader reads all that another one does, and as that one does. -/
def Extends (reader other : Reader α) : Prop :=
  ∀ ⦃c : Cursor⦄ ⦃read : α × Cursor⦄, other c = .ok read → reader c = .ok read

/-! ## Loops -/

theorem itemsFrom_extends {item other : Reader α} (h : Extends item other) (rounds : Nat)
    (first : Bool) : Extends (itemsFrom item rounds first) (itemsFrom other rounds first) := by
  rintro c ⟨as, behind⟩ hread
  rw [itemsFrom_eq_ok_iff] at hread ⊢
  induction hread with
  | closing hnext => exact .closing hnext
  | item hnext hitem _ ih => exact .item hnext (h hitem) ih

theorem items_extends {item other : Reader α} (h : Extends item other) :
    Extends (items item) (items other) :=
  fun _ _ hread => itemsFrom_extends h _ _ hread

theorem entriesFrom_extends {entry other : String → σ → Reader σ}
    (h : ∀ key s, Extends (entry key s) (other key s)) (rounds : Nat) (first : Bool) (s : σ) :
    Extends (entriesFrom entry rounds first s) (entriesFrom other rounds first s) := by
  rintro c ⟨last, behind⟩ hread
  rw [entriesFrom_eq_ok_iff] at hread ⊢
  induction hread with
  | closing hkey => exact .closing hkey
  | entry hkey hentry _ ih => exact .entry hkey (h _ _ hentry) ih

theorem entryOf_extends {reader other : Reader Value} (h : Extends reader other) (key : String)
    (acc : Entries) : Extends (entryOf reader key acc) (entryOf other key acc) := by
  intro c read hread
  rw [entryOf] at hread ⊢
  obtain ⟨behind, hcolon, hread⟩ := bind_eq_ok_iff.1 hread
  obtain ⟨v, hvalue, hread⟩ := bind_eq_ok_iff.1 hread
  exact bind_eq_ok_iff.2 ⟨behind, hcolon, bind_eq_ok_iff.2 ⟨v, h hvalue, hread⟩⟩

theorem entries_extends {reader other : Reader Value} (h : Extends reader other) :
    Extends (entries (entryOf reader) []) (entries (entryOf other) []) :=
  fun _ _ hread => entriesFrom_extends (entryOf_extends h) _ _ _ hread

/-! ## Values -/

theorem valueWith_extends {inner other : Option (Reader Value)}
    (h : ∀ reader, other = some reader → ∃ reader', inner = some reader' ∧ Extends reader' reader) :
    Extends (valueWith inner) (valueWith other) := by
  intro c read hread
  unfold valueWith at hread ⊢
  cases hrest : c.skipBlanks.rest with
  | nil => simp only [hrest] at hread; cases hread
  | cons g gs =>
    by_cases hlist : g = .char '['
    · subst hlist
      simp only [hrest, Glyph.char.injEq, Char.reduceEq, if_true, if_false] at hread ⊢
      cases other with
      | none => cases hread
      | some reader =>
        obtain ⟨reader', rfl, hreader⟩ := h reader rfl
        obtain ⟨vs, hitems, hread⟩ := map_eq_ok_iff.1 hread
        exact map_eq_ok_iff.2 ⟨vs, items_extends hreader hitems, hread⟩
    by_cases hobject : g = .char '\x7b'
    · subst hobject
      simp only [hrest, Glyph.char.injEq, Char.reduceEq, if_true, if_false] at hread ⊢
      cases other with
      | none => cases hread
      | some reader =>
        obtain ⟨reader', rfl, hreader⟩ := h reader rfl
        obtain ⟨es, hentries, hread⟩ := map_eq_ok_iff.1 hread
        exact map_eq_ok_iff.2 ⟨es, entries_extends hreader hentries, hread⟩
    · -- without a bracket, nothing within is read
      simp only [hrest, hlist, hobject, if_false] at hread ⊢
      exact hread

theorem value_extends_succ : ∀ room : Nat, Extends (value (room + 1)) (value room)
  | 0 => valueWith_extends nofun
  | room + 1 => valueWith_extends fun _ h =>
      ⟨value (room + 1), rfl, Option.some.inj h ▸ value_extends_succ room⟩

/-- A value is read the same with more room. -/
theorem value_extends {room' : Nat} (h : room ≤ room') : Extends (value room') (value room) := by
  induction h with
  | refl => exact fun _ _ hread => hread
  | step _ ih => exact fun _ _ hread => value_extends_succ _ (ih hread)

theorem skipBlanks_blanks_append {before : List Glyph} (hbefore : Blanks before)
    (text : List Glyph) (offset : Nat) :
    (Cursor.mk (before ++ text) offset).skipBlanks =
      (Cursor.mk text (offset + before.length)).skipBlanks := by
  obtain ⟨blanks, rest, rfl, hblanks, hrest⟩ := exists_run Cursor.isBlank text
  rw [← List.append_assoc, Cursor.skipBlanks_append (hbefore.append hblanks) hrest,
    Cursor.skipBlanks_append hblanks hrest, List.length_append, Nat.add_assoc]

theorem value_blanks_append {before : List Glyph} (hbefore : Blanks before) (room : Nat)
    (text : List Glyph) (offset : Nat) :
    value room ⟨before ++ text, offset⟩ = value room ⟨text, offset + before.length⟩ := by
  obtain ⟨inner, hinner⟩ := value_eq_valueWith room
  rw [hinner, ← valueWith_skipBlanks inner ⟨before ++ text, offset⟩,
    skipBlanks_blanks_append hbefore, valueWith_skipBlanks]

end AppExport.Json
