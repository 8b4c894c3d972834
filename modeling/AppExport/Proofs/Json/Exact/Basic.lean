/-
How much of a text a reader takes. An exact reader takes a part of the text that the grammar
describes, and it makes the same of that part wherever it stands, whatever comes before and after.
-/
import AppExport.Proofs.Json.Number
import AppExport.Proofs.Json.Results

namespace AppExport.Json

open Decimal (isDigit)
open Text (Glyph)

variable {α β : Type}

/-! ## Runs of blanks -/

/-- Whether a text does not begin with a blank. -/
def Solid (gs : List Glyph) : Prop := ∀ g ∈ gs.head?, Cursor.isBlank g = false

theorem solid_cons {g : Glyph} {gs : List Glyph} : Solid (g :: gs) ↔ Cursor.isBlank g = false := by
  simp [Solid]

namespace Cursor

theorem next_cons (g : Glyph) (gs : List Glyph) (offset : Nat) :
    (mk (g :: gs) offset).next = ⟨gs, offset + g.size⟩ := rfl

theorem skipBlanks_append {blanks rest : List Glyph} (hblanks : Blanks blanks)
    (hrest : Solid rest) (offset : Nat) :
    (Cursor.mk (blanks ++ rest) offset).skipBlanks = ⟨rest, offset + blanks.length⟩ := by
  rw [skipBlanks, takeWhile_append_of_stop hblanks hrest, List.drop_left]

theorem skipBlanks_of_solid {c : Cursor} (h : Solid c.rest) : c.skipBlanks = c :=
  skipBlanks_append (fun _ hg => absurd hg List.not_mem_nil) h c.offset

theorem exists_blanks (c : Cursor) :
    ∃ blanks, Blanks blanks ∧ c.rest = blanks ++ c.skipBlanks.rest ∧ Solid c.skipBlanks.rest := by
  obtain ⟨blanks, rest, hc, hblanks, hrest⟩ := exists_run isBlank c.rest
  have hskip : c.skipBlanks = ⟨rest, c.offset + blanks.length⟩ := by
    rw [← skipBlanks_append hblanks hrest, ← hc]
  rw [hskip]
  exact ⟨blanks, hblanks, hc, hrest⟩

end Cursor

theorem skipBlanks_rest_eq_nil_iff {c : Cursor} : c.skipBlanks.rest = [] ↔ Blanks c.rest := by
  constructor
  · intro h
    obtain ⟨blanks, hblanks, hc, -⟩ := c.exists_blanks
    rw [h, List.append_nil] at hc
    rwa [hc]
  · intro h
    have hsolid : Solid [] := by simp [Solid]
    have hskip := Cursor.skipBlanks_append h hsolid c.offset
    rw [List.append_nil] at hskip
    exact congrArg Cursor.rest hskip

/-! ## Exact readers -/

/-- Whether a reader makes `a` of a text and stops before `rest`, whatever the offset. -/
def Yields (reader : Reader α) (text : List Glyph) (a : α) (rest : List Glyph) : Prop :=
  ∀ offset, ∃ offset', reader ⟨text, offset⟩ = .ok (a, ⟨rest, offset'⟩)

/-- Whether a reader makes `a` of a text, wherever it stands. -/
def Takes (reader : Reader α) (taken : List Glyph) (a : α) : Prop :=
  ∀ rest, Ends rest → Yields reader (taken ++ rest) a rest

/-- Whether a reader takes nothing but texts with a property, and each by itself. -/
def Exact (reader : Reader α) (P : List Glyph → Prop) : Prop :=
  ∀ ⦃c : Cursor⦄ ⦃a : α⦄ ⦃behind : Cursor⦄, reader c = .ok (a, behind) → Ends behind.rest →
    ∃ taken, c.rest = taken ++ behind.rest ∧ P taken ∧ Takes reader taken a

end AppExport.Json
