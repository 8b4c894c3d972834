/-
What a project's token keeps of its name. Blanks become underscores and every other character stays,
so a token is a slash, a dot or nothing where the name is: it can name one file exactly if the name
can.
-/
import AppExport.Naming
import AppExport.Proofs.Disk.Place

namespace AppExport.Text

theorem mem_underscoredChars {c : Char} (hblank : isBlank c = false) (hc : c ≠ '_') {cs : List Char}
    {afterBlank : Bool} : c ∈ underscoredChars afterBlank cs ↔ c ∈ cs := by
  induction cs generalizing afterBlank with
  | nil => rfl
  | cons x cs ih =>
    rw [underscoredChars]
    split
    next hx =>
      have hne : c ≠ x := by
        rintro rfl
        rw [hblank] at hx
        cases hx
      split <;> simp [ih, hne, hc]
    next => simp [ih]

/-- Without an underscore nothing has been replaced. -/
theorem underscoredChars_eq_self {cs : List Char} (h : '_' ∉ underscoredChars false cs) :
    underscoredChars false cs = cs := by
  induction cs with
  | nil => rfl
  | cons x cs ih =>
    rw [underscoredChars] at h ⊢
    split at h
    · simp at h
    next hx => rw [if_neg hx, ih fun hmem => h (List.mem_cons_of_mem _ hmem)]

end AppExport.Text

namespace AppExport.Naming

theorem mem_token {c : Char} (hblank : Text.isBlank c = false) (hc : c ≠ '_') (name : String) :
    c ∈ (token name).toList ↔ c ∈ name.toList := by
  rw [token, Text.underscored, String.toList_ofList]
  exact Text.mem_underscoredChars hblank hc

theorem slash_mem_token (name : String) : '/' ∈ (token name).toList ↔ '/' ∈ name.toList :=
  mem_token (by decide) (by decide) name

/-- Only a text itself becomes a token that has neither blanks nor underscores. -/
theorem token_eq_iff {name plain : String} (hplain : token plain = plain)
    (hunderscore : '_' ∉ plain.toList) : token name = plain ↔ name = plain := by
  refine ⟨fun h => ?_, fun h => h ▸ hplain⟩
  have hchars : Text.underscoredChars false name.toList = plain.toList := by
    rw [← h, token, Text.underscored, String.toList_ofList]
  have hself := Text.underscoredChars_eq_self (hchars ▸ hunderscore)
  exact String.toList_injective (hself.symm.trans hchars)

end AppExport.Naming

namespace AppExport.Disk.Path

/-- Whether a text can be the name of something in a directory. -/
structure IsName (s : String) : Prop where
  ne_empty : s ≠ ""
  no_slash : '/' ∉ s.toList
  ne_dot : s ≠ "."
  ne_dots : s ≠ ".."

theorem isName_iff {s : String} : IsName s ↔ s ≠ "" ∧ '/' ∉ s.toList ∧ s ≠ "." ∧ s ≠ ".." :=
  ⟨fun h => ⟨h.ne_empty, h.no_slash, h.ne_dot, h.ne_dots⟩,
    fun ⟨hempty, hslash, hdot, hdots⟩ => ⟨hempty, hslash, hdot, hdots⟩⟩

instance (s : String) : Decidable (IsName s) := decidable_of_iff _ isName_iff.symm

/-- A token can name a file if and only if the name it was made from can. -/
theorem isName_token_iff (name : String) : IsName (Naming.token name) ↔ IsName name := by
  have hempty : Naming.token name = "" ↔ name = "" := Naming.token_eq_iff (by decide) (by decide)
  have hdot : Naming.token name = "." ↔ name = "." := Naming.token_eq_iff (by decide) (by decide)
  have hdots : Naming.token name = ".." ↔ name = ".." := Naming.token_eq_iff (by decide) (by decide)
  simp only [isName_iff, ne_eq, hempty, hdot, hdots, Naming.slash_mem_token]

/-- A text without slashes can name a file once a proper ending stands behind it. -/
theorem isName_append {s ending : String} (hs : '/' ∉ s.toList) (hending : '/' ∉ ending.toList)
    (hdots : ∃ c ∈ ending.toList, c ≠ '.') : IsName (s ++ ending) := by
  obtain ⟨c, hc, hdot⟩ := hdots
  have hmem : c ∈ (s ++ ending).toList := by
    rw [String.toList_append]
    exact List.mem_append_right _ hc
  refine ⟨?_, ?_, ?_, ?_⟩
  · intro h
    rw [h] at hmem
    cases hmem
  · simp [hs, hending]
  · intro h
    rw [h] at hmem
    exact hdot (by simpa using hmem)
  · intro h
    rw [h] at hmem
    exact hdot (by simpa using hmem)

theorem IsName.names_eq {s : String} (h : IsName s) : names s = [s] := by
  rw [names, pieces, Text.pieces_of_not_mem h.no_slash, List.map_singleton, String.ofList_toList,
    List.filter_cons_of_pos]
  · rfl
  · simpa using h.ne_empty

/-- The last name of a text that ends properly ends as the text does. -/
theorem exists_names_append {ending : String} (hending : '/' ∉ ending.toList)
    (hdots : ∃ c ∈ ending.toList, c ≠ '.') (s : String) :
    ∃ around last, names (s ++ ending) = around ++ [last ++ ending] ∧ IsName (last ++ ending) := by
  by_cases hslash : '/' ∈ s.toList
  · obtain ⟨back, front, hreverse, hback⟩ :=
      List.eq_append_cons_of_mem (List.mem_reverse.2 hslash)
    have hs : s.toList = front.reverse ++ '/' :: back.reverse := by
      rw [← List.reverse_reverse s.toList, hreverse]
      simp
    have hname : IsName (String.ofList back.reverse ++ ending) :=
      isName_append (by simpa using hback) hending hdots
    have hpath : (s ++ ending).toList = (String.ofList front.reverse).toList ++
        '/' :: (String.ofList back.reverse ++ ending).toList := by simp [hs]
    exact ⟨_, _, by rw [names_of_slash hpath, hname.names_eq], hname⟩
  · have hname := isName_append hslash hending hdots
    exact ⟨[], s, hname.names_eq, hname⟩

theorem IsName.isAbsolute_eq {s : String} (h : IsName s) : isAbsolute s = false := by
  rw [isAbsolute, decide_eq_false_iff_not]
  intro hhead
  exact h.no_slash (List.mem_of_mem_head? hhead)

end AppExport.Disk.Path

namespace AppExport.Disk

variable {α : Type}

/-- What is written under a name in a directory lies directly inside it. -/
theorem place_join_name (d : Disk α) {s : String} (h : Path.IsName s) (directory : String) :
    d.place (Path.join directory s) = s :: d.place directory := by
  rw [place_join d h.isAbsolute_eq, h.names_eq, List.foldl_cons, List.foldl_nil, moved,
    if_neg h.ne_dot, if_neg h.ne_dots]

/-- A path leads to its last name, wherever that is. -/
theorem place_join_last (d : Disk α) {path last : String} {around : List String}
    (hnames : Path.names path = around ++ [last]) (hlast : Path.IsName last) (directory : String) :
    ∃ location, d.place (Path.join directory path) = last :: location := by
  have hjoin : ∃ before, Path.names (Path.join directory path) = before ++ [last] := by
    cases habsolute : Path.isAbsolute path with
    | true =>
      rw [Path.join, habsolute, Bool.true_or, if_pos rfl]
      exact ⟨around, hnames⟩
    | false =>
      rw [Path.names_join habsolute, hnames, ← List.append_assoc]
      exact ⟨_, rfl⟩
  obtain ⟨before, hbefore⟩ := hjoin
  rw [place, hbefore, List.foldl_append, List.foldl_cons, List.foldl_nil, moved,
    if_neg hlast.ne_dot, if_neg hlast.ne_dots]
  exact ⟨_, rfl⟩

end AppExport.Disk
