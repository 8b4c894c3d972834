/-
Attributes of lowered components: names are identifiers and expressions close their braces. Such
attributes stay on their line, and what stands behind them does not change how they are read.
-/
import AppExport.Markup.Lowering
import AppExport.Proofs.Markup.StyleObject

namespace AppExport.Markup

open Component (Kind Props)
open Text (Shown quoteChars quoteChars_append_inj quoteChars_shown)

/-- Two runs of characters with a property, each ended by one without it, are equal if the texts
they begin are. -/
theorem run_append_inj {P : Char → Prop} {xs ys r r' : List Char} {c d : Char}
    (hx : ∀ c ∈ xs, P c) (hy : ∀ c ∈ ys, P c) (hc : ¬P c) (hd : ¬P d)
    (h : xs ++ c :: r = ys ++ d :: r') : xs = ys ∧ c :: r = d :: r' := by
  induction xs generalizing ys with
  | nil =>
    cases ys with
    | nil => exact ⟨rfl, h⟩
    | cons y ys =>
      simp only [List.nil_append, List.cons_append, List.cons.injEq] at h
      exact absurd (h.1 ▸ hy y (by simp)) hc
  | cons x xs ih =>
    cases ys with
    | nil =>
      simp only [List.nil_append, List.cons_append, List.cons.injEq] at h
      exact absurd (h.1 ▸ hx x (by simp)) hd
    | cons y ys =>
      simp only [List.cons_append, List.cons.injEq] at h
      obtain ⟨rfl, hr⟩ := ih (fun c hc => hx c (by simp [hc])) (fun c hc => hy c (by simp [hc])) h.2
      exact ⟨by rw [h.1], hr⟩

def AttributeValue.Readable : AttributeValue → Prop
  | literal _ => True
  | expression source => Closed source.toList

/-- An attribute with an identifier for a name, whose expression closes its braces. -/
structure Attribute.Readable (a : Attribute) : Prop where
  name : ∀ c ∈ a.name.toList, isIdentifierStart c = true
  value : a.value.Readable

theorem AttributeValue.Readable.shown {v : AttributeValue} (h : v.Readable) : Shown v.chars := by
  cases v with
  | literal text => exact quoteChars_shown _
  | expression source => exact (Closed.of_braced h).shown

theorem Attribute.Readable.shown {a : Attribute} (h : a.Readable) : Shown a.chars := by
  have hname : Shown a.name.toList := fun c hc => (inert_of_isIdentifierStart (h.name c hc)).1
  simp only [Attribute.chars, List.cons_append, Text.shown_cons, Text.shown_append]
  exact ⟨by decide, hname, by decide, h.value.shown⟩

theorem AttributeValue.Readable.append_inj {v w : AttributeValue} {r r' : List Char}
    (hv : v.Readable) (hw : w.Readable) (h : v.chars ++ r = w.chars ++ r') : v = w ∧ r = r' := by
  cases v with
  | literal s =>
    cases w with
    | literal t =>
      obtain ⟨hst, hr⟩ := quoteChars_append_inj h
      exact ⟨by rw [String.toList_injective hst], hr⟩
    | expression _ => simp [chars, quoteChars] at h
  | expression s =>
    cases w with
    | literal t => simp [chars, quoteChars] at h
    | expression t =>
      simp only [chars, List.cons_append, List.append_assoc, List.cons.injEq, true_and,
        List.nil_append] at h
      obtain ⟨hst, hr⟩ := Closed.append_inj hv hw h
      exact ⟨by rw [String.toList_injective hst], hr⟩

theorem Attribute.Readable.append_inj {a b : Attribute} {r r' : List Char} (ha : a.Readable)
    (hb : b.Readable) (h : a.chars ++ r = b.chars ++ r') : a = b ∧ r = r' := by
  simp only [Attribute.chars, List.cons_append, List.append_assoc, List.cons.injEq, true_and] at h
  obtain ⟨hname, hrest⟩ := run_append_inj ha.name hb.name (by decide) (by decide) h
  obtain ⟨hvalue, hr⟩ := ha.value.append_inj hb.value (List.cons.inj hrest).2
  exact ⟨congrArg₂ Attribute.mk (String.toList_injective hname) hvalue, hr⟩

/-! ## Attributes of components -/

theorem readable_styleAttribute (p : Props) : ∀ a ∈ styleAttribute p, a.Readable := by
  unfold styleAttribute
  split
  · simp
  · simp only [List.mem_singleton, forall_eq]
    have hname : ∀ c ∈ "style".toList, isIdentifierStart c = true :=
      List.all_eq_true.1 (by decide)
    exact ⟨hname, closed_styleObject p.resolvedStyle⟩

theorem closed_uri (s : String) : Closed ("\x7buri: " ++ Text.quote s ++ "\x7d").toList := by
  have hinner : Closed ("uri: ".toList ++ quoteChars s.toList) :=
    (Closed.of_inert (List.all_iff_forall_prop.1 (by decide))).append (.of_quoted _)
  have hchars : ("\x7buri: " ++ Text.quote s ++ "\x7d").toList =
      '\x7b' :: ("uri: ".toList ++ quoteChars s.toList) ++ ['\x7d'] := by
    simp [Text.quote]
  rw [hchars]
  exact .of_braced hinner

theorem readable_contentAttribute (kind : Kind) (p : Props) :
    ∀ a ∈ contentAttribute kind p, a.Readable := by
  unfold contentAttribute
  split
  · simp only [List.mem_singleton, forall_eq]
    have hname : ∀ c ∈ "placeholder".toList, isIdentifierStart c = true :=
      List.all_eq_true.1 (by decide)
    exact ⟨hname, trivial⟩
  · simp only [List.mem_singleton, forall_eq]
    have hname : ∀ c ∈ "source".toList, isIdentifierStart c = true :=
      List.all_eq_true.1 (by decide)
    exact ⟨hname, closed_uri _⟩
  · simp

theorem readable_attributes (kind : Kind) (p : Props) :
    ∀ a ∈ (headOf kind p).attributes, a.Readable := by
  intro a ha
  rcases List.mem_append.1 ha with ha | ha
  · exact readable_styleAttribute p a ha
  · exact readable_contentAttribute kind p a ha

theorem shown_attributes (kind : Kind) (p : Props) :
    Shown ((headOf kind p).attributes.flatMap Attribute.chars) := by
  intro c hc
  obtain ⟨a, ha, hca⟩ := List.mem_flatMap.1 hc
  exact (readable_attributes kind p a ha).shown c hca

end AppExport.Markup
