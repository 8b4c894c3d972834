/-
A quoted text holds no control character, whatever text is quoted, so it never leaves its line. It is
the text itself between its quotes exactly if none of its characters needs an escape.
-/
import AppExport.Text.Quoted
import Mathlib.Data.List.Basic

namespace AppExport.Text

/-- The letters that stand for characters behind a backslash. -/
def letterEscapes : List (Char × Char) :=
  [('"', '"'), ('\\', '\\'), ('n', '\n'), ('r', '\r'), ('t', '\t'), ('b', '\x08'), ('f', '\x0c')]

/-- A character is written with a letter behind a backslash, with its code, or as it is. -/
theorem escape_cases (c : Char) :
    (∃ letter, (letter, c) ∈ letterEscapes ∧ escape c = ['\\', letter]) ∨
    (c.toNat < 0x20 ∧
      escape c = ['\\', 'u', '0', '0', hexDigit (c.toNat / 16), hexDigit (c.toNat % 16)]) ∨
    (0x20 ≤ c.toNat ∧ c ≠ '"' ∧ c ≠ '\\' ∧ escape c = [c]) := by
  unfold escape
  iterate 7
    split
    · subst_vars; exact .inl ⟨_, by decide, rfl⟩
  split
  · next hc => exact .inr (.inl ⟨hc, rfl⟩)
  · next hc => exact .inr (.inr ⟨by omega, by assumption, by assumption, rfl⟩)

/-! ## Control characters -/

/-- Text without control characters. -/
def Shown (cs : List Char) : Prop := ∀ c ∈ cs, 0x20 ≤ c.toNat

@[simp] theorem shown_nil : Shown [] := by simp [Shown]

@[simp] theorem shown_cons {c : Char} {cs : List Char} :
    Shown (c :: cs) ↔ 0x20 ≤ c.toNat ∧ Shown cs := by simp [Shown]

@[simp] theorem shown_append {xs ys : List Char} : Shown (xs ++ ys) ↔ Shown xs ∧ Shown ys := by
  simp only [Shown, List.mem_append]
  exact ⟨fun h => ⟨fun c hc => h c (.inl hc), fun c hc => h c (.inr hc)⟩,
    fun h c hc => hc.elim (h.1 c) (h.2 c)⟩

theorem Shown.newline_not_mem {cs : List Char} (h : Shown cs) : '\n' ∉ cs := fun hn =>
  absurd (h _ hn) (by decide)

theorem hexDigit_shown : ∀ n < 16, 0x20 ≤ (hexDigit n).toNat := by decide

theorem escape_shown (c : Char) : Shown (escape c) := by
  obtain ⟨letter, hmem, he⟩ | ⟨hc, he⟩ | ⟨hc, -, -, he⟩ := escape_cases c <;> rw [he]
  · have hall : ∀ e ∈ letterEscapes, 0x20 ≤ e.1.toNat := by decide
    simpa using hall _ hmem
  · have hi := hexDigit_shown (c.toNat / 16) (by omega)
    have lo := hexDigit_shown (c.toNat % 16) (Nat.mod_lt _ (by decide))
    simpa using ⟨hi, lo⟩
  · simpa using hc

theorem quoteChars_shown (cs : List Char) : Shown (quoteChars cs) := by
  have hbody : Shown (cs.flatMap escape) := fun c hc => by
    obtain ⟨d, -, hd⟩ := List.mem_flatMap.1 hc
    exact escape_shown d c hd
  simpa [quoteChars] using hbody

/-! ## Characters that need no escape -/

/-- A character that stands for itself between quotes. -/
def IsVerbatim (c : Char) : Prop := c ≠ '"' ∧ c ≠ '\\' ∧ 0x20 ≤ c.toNat

instance (c : Char) : Decidable (IsVerbatim c) := inferInstanceAs (Decidable (_ ∧ _ ∧ _))

theorem not_isVerbatim_of_mem_letterEscapes {letter c : Char} (h : (letter, c) ∈ letterEscapes) :
    ¬IsVerbatim c := by
  have hall : ∀ e ∈ letterEscapes, ¬IsVerbatim e.2 := by decide
  exact hall _ h

theorem escape_eq_self {c : Char} (h : IsVerbatim c) : escape c = [c] := by
  obtain ⟨letter, hmem, -⟩ | ⟨hcontrol, -⟩ | ⟨-, -, -, he⟩ := escape_cases c
  · exact absurd h (not_isVerbatim_of_mem_letterEscapes hmem)
  · exact absurd h.2.2 (by omega)
  · exact he

theorem two_le_length_escape {c : Char} (h : ¬IsVerbatim c) : 2 ≤ (escape c).length := by
  obtain ⟨letter, -, he⟩ | ⟨-, he⟩ | ⟨hc, hquote, hslash, -⟩ := escape_cases c
  · simp [he]
  · simp [he]
  · exact absurd ⟨hquote, hslash, hc⟩ h

theorem length_le_flatMap_escape (s : List Char) : s.length ≤ (s.flatMap escape).length := by
  induction s with
  | nil => simp
  | cons c s ih =>
    have hone : 1 ≤ (escape c).length := by
      obtain ⟨_, -, he⟩ | ⟨-, he⟩ | ⟨-, -, -, he⟩ := escape_cases c <;> simp [he]
    simp only [List.flatMap_cons, List.length_append, List.length_cons]
    omega

/-- A text is written as it is if and only if all its characters stand for themselves. -/
theorem flatMap_escape_eq_self_iff {cs : List Char} :
    cs.flatMap escape = cs ↔ ∀ c ∈ cs, IsVerbatim c := by
  induction cs with
  | nil => simp
  | cons c rest ih =>
    rw [List.flatMap_cons, List.forall_mem_cons, ← ih]
    constructor
    · intro h
      by_cases hverbatim : IsVerbatim c
      · rw [escape_eq_self hverbatim] at h
        exact ⟨hverbatim, (List.cons.inj h).2⟩
      · have hlength := congrArg List.length h
        have hfirst := two_le_length_escape hverbatim
        have hrest := length_le_flatMap_escape rest
        rw [List.length_append, List.length_cons] at hlength
        omega
    · rintro ⟨hverbatim, hrest⟩
      rw [escape_eq_self hverbatim, hrest, List.singleton_append]

theorem quote_not_mem_escape {c : Char} (h : c ≠ '"') : '"' ∉ escape c := by
  have hdigit : ∀ n < 16, '"' ≠ hexDigit n := by decide
  obtain ⟨letter, hmem, he⟩ | ⟨hc, he⟩ | ⟨-, -, -, he⟩ := escape_cases c <;> rw [he]
  · have hletter : ∀ e ∈ letterEscapes, e.2 ≠ '"' → '"' ≠ e.1 := by decide
    simpa using hletter _ hmem h
  · have hi := hdigit (c.toNat / 16) (by omega)
    have lo := hdigit (c.toNat % 16) (Nat.mod_lt _ (by decide))
    simpa using ⟨hi, lo⟩
  · simpa using h.symm

theorem quote_not_mem_flatMap_escape {cs : List Char} (h : '"' ∉ cs) : '"' ∉ cs.flatMap escape := by
  rw [List.mem_flatMap]
  rintro ⟨c, hc, hquote⟩
  have hne : c ≠ '"' := fun e => h (e ▸ hc)
  exact quote_not_mem_escape hne hquote

end AppExport.Text
