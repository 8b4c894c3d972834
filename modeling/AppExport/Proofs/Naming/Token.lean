/-
How a name is written as a token. Every run of blanks, as long as it can be, becomes one underscore
and every other character stays where it is. So a token is its own token, and the tokens of two names
make up the token of both together unless a run of blanks goes on from one into the other.
-/
import AppExport.Naming

namespace AppExport.Text

/-! ## Runs of blanks -/

/-- A text, and what it becomes when each of its runs of blanks is replaced by one underscore. A run
ends where a character follows that is no blank, and it begins behind one. -/
inductive Collapsed : List Char → List Char → Prop
  | nil : Collapsed [] []
  | keep {c : Char} {cs ds : List Char} (hc : isBlank c = false) (h : Collapsed cs ds) :
    Collapsed (c :: cs) (c :: ds)
  | run {blanks cs ds : List Char} (hne : blanks ≠ []) (hblanks : ∀ c ∈ blanks, isBlank c = true)
    (hend : ∀ c ∈ cs.head?, isBlank c = false) (h : Collapsed cs ds) :
    Collapsed (blanks ++ cs) ('_' :: ds)

variable {c : Char} {cs ds blanks : List Char}

theorem underscoredChars_of_blank (h : isBlank c = true) (cs : List Char) :
    underscoredChars true (c :: cs) = underscoredChars true cs ∧
      underscoredChars false (c :: cs) = '_' :: underscoredChars true cs := by
  simp [underscoredChars, h]

theorem underscoredChars_of_not_blank (h : isBlank c = false) (afterBlank : Bool) (cs : List Char) :
    underscoredChars afterBlank (c :: cs) = c :: underscoredChars false cs := by
  simp [underscoredChars, h]

/-- Behind a blank, further blanks of the same run are passed. -/
theorem underscoredChars_blanks_append (h : ∀ c ∈ blanks, isBlank c = true) (cs : List Char) :
    underscoredChars true (blanks ++ cs) = underscoredChars true cs := by
  induction blanks with
  | nil => rfl
  | cons c blanks ih =>
    obtain ⟨hc, hblanks⟩ := List.forall_mem_cons.1 h
    rw [List.cons_append, (underscoredChars_of_blank hc _).1, ih hblanks]

/-- Where a run has ended, it does not matter that there was one. -/
theorem underscoredChars_of_end (h : ∀ c ∈ cs.head?, isBlank c = false) :
    underscoredChars true cs = underscoredChars false cs := by
  cases cs with
  | nil => rfl
  | cons c cs =>
    have hc : isBlank c = false := h c rfl
    rw [underscoredChars_of_not_blank hc, underscoredChars_of_not_blank hc]

/-- In the midst of a run, the rest of it becomes nothing and what is behind it becomes what it is. -/
theorem collapsed_underscoredChars (cs : List Char) :
    Collapsed cs (underscoredChars false cs) ∧
      ∃ blanks rest, cs = blanks ++ rest ∧ (∀ c ∈ blanks, isBlank c = true) ∧
        (∀ c ∈ rest.head?, isBlank c = false) ∧ Collapsed rest (underscoredChars true cs) := by
  induction cs with
  | nil => exact ⟨.nil, [], [], rfl, by simp, by simp, .nil⟩
  | cons c cs ih =>
    obtain ⟨hkept, blanks, rest, hcs, hblanks, hrest, hbehind⟩ := ih
    by_cases hc : isBlank c = true
    · rw [(underscoredChars_of_blank hc cs).1, (underscoredChars_of_blank hc cs).2]
      have hrun : ∀ d ∈ c :: blanks, isBlank d = true := List.forall_mem_cons.2 ⟨hc, hblanks⟩
      have htext : c :: cs = c :: blanks ++ rest := by rw [hcs, List.cons_append]
      refine ⟨?_, c :: blanks, rest, htext, hrun, hrest, hbehind⟩
      rw [htext]
      exact .run (List.cons_ne_nil c blanks) hrun hrest hbehind
    · rw [Bool.not_eq_true] at hc
      rw [underscoredChars_of_not_blank hc, underscoredChars_of_not_blank hc]
      exact ⟨.keep hc hkept, [], c :: cs, rfl, by simp, by simpa using hc, .keep hc hkept⟩

theorem Collapsed.eq_underscoredChars (h : Collapsed cs ds) : underscoredChars false cs = ds := by
  induction h with
  | nil => rfl
  | keep hc _ ih => rw [underscoredChars_of_not_blank hc, ih]
  | @run blanks cs ds hne hblanks hend _ ih =>
    obtain ⟨c, others, rfl⟩ := List.exists_cons_of_ne_nil hne
    obtain ⟨hc, hothers⟩ := List.forall_mem_cons.1 hblanks
    rw [List.cons_append, (underscoredChars_of_blank hc _).2, underscoredChars_blanks_append hothers,
      underscoredChars_of_end hend, ih]

theorem underscoredChars_eq_iff : underscoredChars false cs = ds ↔ Collapsed cs ds :=
  ⟨fun h => h ▸ (collapsed_underscoredChars cs).1, Collapsed.eq_underscoredChars⟩

/-! ## Texts without blanks -/

theorem not_blank_of_mem_underscoredChars {afterBlank : Bool}
    (h : c ∈ underscoredChars afterBlank cs) : isBlank c = false := by
  have hunderscore : isBlank '_' = false := by decide
  induction cs generalizing afterBlank with
  | nil => cases h
  | cons x cs ih =>
    rw [underscoredChars] at h
    split at h
    next =>
      split at h
      · exact ih h
      · rcases List.mem_cons.1 h with rfl | h
        · exact hunderscore
        · exact ih h
    next hx =>
      rcases List.mem_cons.1 h with rfl | h
      · exact Bool.eq_false_iff.2 hx
      · exact ih h

theorem underscoredChars_of_forall_not_blank (h : ∀ c ∈ cs, isBlank c = false) :
    underscoredChars false cs = cs := by
  induction cs with
  | nil => rfl
  | cons c cs ih =>
    obtain ⟨hc, hcs⟩ := List.forall_mem_cons.1 h
    rw [underscoredChars_of_not_blank hc, ih hcs]

/-! ## Texts one behind the other -/

/-- Whether a blank stands at the end of a text; at the end of an empty one stands what was before. -/
def endsBlank (before : Bool) (cs : List Char) : Bool := (cs.getLast?.map isBlank).getD before

theorem endsBlank_cons (before : Bool) (c : Char) (cs : List Char) :
    endsBlank before (c :: cs) = endsBlank (isBlank c) cs := by
  rw [endsBlank, endsBlank, List.getLast?_cons]
  cases cs.getLast? <;> rfl

/-- All that a text says to what comes behind it is whether it ends within a run. -/
theorem underscoredChars_append (afterBlank : Bool) (cs ds : List Char) :
    underscoredChars afterBlank (cs ++ ds) =
      underscoredChars afterBlank cs ++ underscoredChars (endsBlank afterBlank cs) ds := by
  induction cs generalizing afterBlank with
  | nil => rfl
  | cons c cs ih =>
    rw [List.cons_append, endsBlank_cons]
    by_cases hc : isBlank c = true
    · cases afterBlank <;>
        simp only [underscoredChars_of_blank hc, hc, ih, List.cons_append]
    · rw [Bool.not_eq_true] at hc
      rw [underscoredChars_of_not_blank hc, underscoredChars_of_not_blank hc, hc, ih,
        List.cons_append]

end AppExport.Text

namespace AppExport.Naming

open Text (Collapsed endsBlank isBlank)

theorem toList_token (name : String) :
    (token name).toList = Text.underscoredChars false name.toList := by
  rw [token, Text.underscored, String.toList_ofList]

theorem token_eq_iff_collapsed {name t : String} :
    token name = t ↔ Collapsed name.toList t.toList := by
  rw [← Text.underscoredChars_eq_iff, ← toList_token, String.toList_inj]

theorem token_token (name : String) : token (token name) = token name := by
  rw [← String.toList_inj, toList_token (token name), toList_token]
  exact Text.underscoredChars_of_forall_not_blank fun _ => Text.not_blank_of_mem_underscoredChars

/-- Whether a run of blanks goes on from a name into another one. -/
def Continues (name other : String) : Prop :=
  (∃ c ∈ name.toList.getLast?, isBlank c = true) ∧ ∃ c ∈ other.toList.head?, isBlank c = true

theorem token_append_of_not_continues {name other : String} (h : ¬Continues name other) :
    token (name ++ other) = token name ++ token other := by
  rw [← String.toList_inj, String.toList_append, toList_token, toList_token, toList_token,
    String.toList_append, Text.underscoredChars_append]
  congr 1
  cases hlast : endsBlank false name.toList with
  | false => rfl
  | true =>
    refine Text.underscoredChars_of_end fun c hc => Bool.eq_false_iff.2 fun hblank => h ⟨?_, c, hc, hblank⟩
    rw [endsBlank] at hlast
    cases hname : name.toList.getLast? with
    | none =>
      rw [hname] at hlast
      cases hlast
    | some d => exact ⟨d, rfl, by rwa [hname] at hlast⟩

/-- The second token has an underscore for a run that has one already. -/
theorem token_append_of_continues {name other : String} (h : Continues name other) :
    ∃ rest, token other = "_" ++ rest ∧ token (name ++ other) = token name ++ rest := by
  obtain ⟨⟨d, hd, hdblank⟩, c, hc, hcblank⟩ := h
  obtain ⟨cs, hother⟩ := List.head?_eq_some_iff.1 hc
  have hlast : endsBlank false name.toList = true := by
    rw [endsBlank, Option.mem_def.1 hd]
    exact hdblank
  refine ⟨String.ofList (Text.underscoredChars true cs), ?_, ?_⟩
  · rw [← String.toList_inj, toList_token, hother, (Text.underscoredChars_of_blank hcblank cs).2,
      String.toList_append, String.toList_ofList, String.toList_ofList, List.singleton_append]
  · rw [← String.toList_inj, toList_token, String.toList_append, Text.underscoredChars_append, hlast,
      hother, (Text.underscoredChars_of_blank hcblank cs).1, String.toList_append, toList_token,
      String.toList_ofList]

/-- A token is the name with one underscore for each run of blanks, and nothing else is. It has no
blanks and is its own token. Tokens of names one behind the other make up the token of both, except
that a run of blanks which goes on from one name into the other is written twice. -/
theorem token_collapses (name : String) :
    (∀ t, token name = t ↔ Collapsed name.toList t.toList) ∧
      (∀ c ∈ (token name).toList, isBlank c = false) ∧ token (token name) = token name ∧
      ∀ other, (token (name ++ other) = token name ++ token other ↔ ¬Continues name other) ∧
        (Continues name other →
          ∃ rest, token other = "_" ++ rest ∧ token (name ++ other) = token name ++ rest) := by
  refine ⟨fun t => token_eq_iff_collapsed, fun c hc => ?_, token_token name,
    fun other => ⟨⟨fun h hcontinues => ?_, token_append_of_not_continues⟩, token_append_of_continues⟩⟩
  · rw [toList_token] at hc
    exact Text.not_blank_of_mem_underscoredChars hc
  · -- the two sides differ in length by the underscore at the seam
    obtain ⟨rest, hother, hboth⟩ := token_append_of_continues hcontinues
    rw [h, hother] at hboth
    have hlength := congrArg String.length hboth
    have hunderscore : "_".length = 1 := rfl
    rw [String.length_append, String.length_append, String.length_append, hunderscore] at hlength
    omega

/-- A tab and a space at the seam of two names are one run. -/
theorem token_collapses_seam : Continues "My\t" " App" ∧ token "My\t App" = "My_App" ∧
    token "My\t" ++ token " App" = "My__App" ∧
    ∃ rest, token " App" = "_" ++ rest ∧ token ("My\t" ++ " App") = token "My\t" ++ rest := by
  have hcontinues : Continues "My\t" " App" := ⟨⟨'\t', rfl, rfl⟩, ' ', rfl, rfl⟩
  refine ⟨hcontinues, ?_, ?_, ((token_collapses "My\t").2.2.2 " App").2 hcontinues⟩
  · decide
  · decide

end AppExport.Naming
