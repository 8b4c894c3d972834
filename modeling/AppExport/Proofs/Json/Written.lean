/-
What writers put together is a text of the grammar if its parts are: quoted texts, numbers, and lists
and objects with commas between what they hold. A value of the grammar shows where it ends, so two
texts that begin with one and go on alike begin with the same one.
-/
import AppExport.Proofs.Json.Fields

namespace AppExport.Json

open Text (Glyph escape quoteChars)

/-- The text of a value, whatever it is the value of. -/
def IsValueText (text : List Char) : Prop := IsValue (text.map .char)

/-! ## Scalars -/

theorem isQuoted_escaped (s : List Char) :
    IsQuoted ((s.flatMap escape ++ ['"']).map Glyph.char) := by
  obtain ⟨offset, hread⟩ := textBody_quoted s [] 0
  obtain ⟨taken, htaken, hquoted, -⟩ := exists_textBody hread
  rw [Cursor.rest_before, Cursor.rest_before, List.map_nil, List.append_nil] at htaken
  rwa [htaken]

theorem isValueText_quoted (s : List Char) : IsValueText (quoteChars s) :=
  .text (isQuoted_escaped s)

theorem isValueText_word {letters : String} (h : letters ∈ ["null", "true", "false"]) :
    IsValueText letters.toList := .word h

/-- What a reader of values takes whole is a value, if no blank is before it. -/
theorem isValueText_of_reads {text : List Char} {v : Value} {room : Nat} (hopens : Opens text)
    (h : Reads (value room) text v) : IsValueText text := by
  obtain ⟨c, cs, htext, hsolid, -⟩ := hopens
  obtain ⟨offset, hread⟩ := h [] 0 stops_nil
  obtain ⟨taken, htaken, hspaced, -⟩ := exact_value room hread ends_nil
  rw [List.append_nil, Cursor.rest_before, Cursor.rest_before, List.map_nil, List.append_nil]
    at htaken
  have hstart : Solid (taken ++ []) := by
    rw [List.append_nil, ← htaken, htext, List.map_cons, solid_cons]
    simpa [isSolid] using hsolid
  rw [IsValueText, htaken]
  exact hspaced.value_of_solid hstart

theorem isValueText_number {text : List Char} {n : Number} (h : NumberText text n) :
    IsValueText text :=
  have hreads : Reads (value 0) text (.number n) := reads_valueWith_number h none
  isValueText_of_reads h.opens hreads

/-! ## Lists and objects -/

/-- A text that may stand among those of some part, whether or not one stands before it. -/
def Joins (part : Bool → Part) (text : List Char) : Prop :=
  ∀ first comma gs, IsComma first comma → IsPart (part false) gs →
    IsPart (part first) (comma ++ text.map .char ++ gs)

theorem isComma_plain : IsComma false [.char ','] := .next blanks_nil

theorem isPart_commaSeparated (part : Bool → Part) {closing : Char}
    (hclosing : ∀ first, IsPart (part first) [.char closing]) {texts : List (List Char)}
    (h : ∀ text ∈ texts, Joins part text) :
    IsPart (part true) ((commaSeparated texts ++ [closing]).map Glyph.char) := by
  have hfurther : ∀ others : List (List Char), (∀ text ∈ others, Joins part text) →
      IsPart (part false) ((others.flatMap (',' :: ·) ++ [closing]).map Glyph.char) := by
    intro others hothers
    induction others with
    | nil => exact hclosing false
    | cons text others ih =>
      obtain ⟨htext, hrest⟩ := List.forall_mem_cons.1 hothers
      have hpart := htext false _ _ isComma_plain (ih hrest)
      simpa using hpart
  cases texts with
  | nil => exact hclosing true
  | cons text others =>
    obtain ⟨htext, hothers⟩ := List.forall_mem_cons.1 h
    have hpart := htext true [] _ .first (hfurther others hothers)
    rw [commaSeparated_cons]
    simpa using hpart

theorem isValueText_list {texts : List (List Char)} (h : ∀ text ∈ texts, IsValueText text) :
    IsValueText ('[' :: commaSeparated texts ++ [']']) := by
  refine .list (isPart_commaSeparated .items (fun first => ?_) fun text ht => ?_)
  · exact .noItem blanks_nil
  · intro first comma gs hcomma hgs
    exact .item hcomma blanks_nil (h text ht) hgs

/-- A key and a value with a colon between them. -/
def IsEntryText (text : List Char) : Prop :=
  ∃ key v, text = quoteChars key ++ ':' :: v ∧ IsValueText v

theorem isValueText_object {texts : List (List Char)} (h : ∀ text ∈ texts, IsEntryText text) :
    IsValueText ('\x7b' :: commaSeparated texts ++ ['\x7d']) := by
  refine .object (isPart_commaSeparated .entries (fun first => ?_) fun text ht => ?_)
  · exact .noEntry blanks_nil
  · obtain ⟨key, v, rfl, hv⟩ := h text ht
    intro first comma gs hcomma hgs
    have hpart := IsPart.entry hcomma blanks_nil (isQuoted_escaped key) blanks_nil blanks_nil hv hgs
    simpa [quoteChars] using hpart

/-! ## Where a value ends -/

theorem unambiguous_value : Unambiguous IsValue := by
  refine unambiguous_of_takes passing fun gs hgs rest hrest offset => ?_
  have hspaced : IsSpaced gs := ⟨[], gs, rfl, blanks_nil, hgs⟩
  obtain ⟨offset', hskip⟩ := skipValue_complete hspaced hrest offset
  exact ⟨offset', by rw [passing, hskip]; rfl⟩

/-- The rest of a text behind a value is determined by the text, as long as it cannot go on with a
number. -/
theorem IsValueText.append_inj {v w r r' : List Char} (hv : IsValueText v) (hw : IsValueText w)
    (hr : Stops r) (hr' : Stops r') (h : v ++ r = w ++ r') : v = w ∧ r = r' := by
  have hends : ∀ {rest : List Char}, Stops rest → Ends (rest.map Glyph.char) := by
    intro rest hrest g hg
    rw [List.head?_map, Option.mem_def, Option.map_eq_some_iff] at hg
    obtain ⟨c, hc, rfl⟩ := hg
    exact hrest c hc
  have hglyphs := congrArg (List.map Glyph.char) h
  rw [List.map_append, List.map_append] at hglyphs
  have hvw := List.map_injective_iff.2 Glyph.char_injective
    (unambiguous_value hv hw (hends hr) (hends hr') hglyphs)
  exact ⟨hvw, List.append_cancel_left (hvw ▸ h)⟩

end AppExport.Json
