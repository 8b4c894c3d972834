/-
The printed markup determines the tree it was printed from. Each line shows where its tag, its
attributes and its text end, whatever they hold, and closing tags show where children end; so two
trees with the same text are the same tree.
-/
import AppExport.Naming
import AppExport.Proofs.Markup.Outline

namespace AppExport.Markup

open Component (Forest Kind Node Props)
open Decimal (isDigit)
open Naming (isLetter)
open Text (quoteChars quoteChars_append_inj pieces)

/-! ## Heads -/

def isTagChar (c : Char) : Bool := isLetter c || isDigit c || c == '_' || c == '.'

/-- A name that can stand for a component: ASCII letters, digits, underscores and dots. -/
def IsTagName (name : String) : Prop := name ≠ "" ∧ ∀ c ∈ name.toList, isTagChar c = true

instance (name : String) : Decidable (IsTagName name) :=
  decidable_of_iff (name ≠ "" ∧ name.toList.all isTagChar = true)
    (and_congr_right fun _ => List.all_eq_true)

structure Head.Readable (h : Head) : Prop where
  tag : IsTagName h.tag
  attributes : ∀ a ∈ h.attributes, a.Readable

/-- What stands behind the attributes of a tag. -/
def Stop (r : List Char) : Prop := (∃ t, r = '>' :: t) ∨ ∃ t, r = ' ' :: '/' :: t

theorem Stop.ne_attribute {a : Attribute} (ha : a.Readable) {r t : List Char} (hr : Stop r) :
    r ≠ a.chars ++ t := by
  rintro rfl
  rcases hr with ⟨t, h⟩ | ⟨t, h⟩
  · simp [Attribute.chars] at h
  · cases hname : a.name.toList with
    | nil => simp [Attribute.chars, hname] at h
    | cons c cs =>
      have hc := ha.name c (by simp [hname])
      have hslash : c = '/' := by
        simp only [Attribute.chars, hname, List.cons_append, List.cons.injEq, true_and] at h
        exact h.1
      rw [hslash] at hc
      exact absurd hc (by decide)

theorem attributes_append_inj : ∀ {as bs : List Attribute} {r r' : List Char},
    (∀ a ∈ as, a.Readable) → (∀ b ∈ bs, b.Readable) → Stop r → Stop r' →
      as.flatMap Attribute.chars ++ r = bs.flatMap Attribute.chars ++ r' → as = bs ∧ r = r'
  | [], [], _, _, _, _, _, _, h => ⟨rfl, by simpa using h⟩
  | [], b :: bs, _, _, _, hb, hr, _, h => by
    rw [List.flatMap_cons, List.append_assoc] at h
    exact absurd h (hr.ne_attribute (hb b (by simp)))
  | a :: as, [], _, _, ha, _, _, hr', h => by
    rw [List.flatMap_cons, List.append_assoc] at h
    exact absurd h.symm (hr'.ne_attribute (ha a (by simp)))
  | a :: as, b :: bs, _, _, ha, hb, hr, hr', h => by
    rw [List.flatMap_cons, List.flatMap_cons, List.append_assoc, List.append_assoc] at h
    obtain ⟨rfl, hrest⟩ := (ha a (by simp)).append_inj (hb b (by simp)) h
    obtain ⟨rfl, hrr⟩ := attributes_append_inj (fun c hc => ha c (by simp [hc]))
      (fun c hc => hb c (by simp [hc])) hr hr' hrest
    exact ⟨rfl, hrr⟩

/-- Behind a tag comes no character of a tag. -/
theorem attributes_append_cons (as : List Attribute) {r : List Char} (hr : Stop r) :
    ∃ c t, as.flatMap Attribute.chars ++ r = c :: t ∧ isTagChar c = false := by
  cases as with
  | nil =>
    rcases hr with ⟨t, rfl⟩ | ⟨t, rfl⟩
    · exact ⟨_, _, rfl, by decide⟩
    · exact ⟨_, _, rfl, by decide⟩
  | cons a as => exact ⟨' ', _, rfl, by decide⟩

theorem Head.Readable.append_inj {h k : Head} {r r' : List Char} (hh : h.Readable) (hk : k.Readable)
    (hr : Stop r) (hr' : Stop r') (heq : h.chars ++ r = k.chars ++ r') : h = k ∧ r = r' := by
  obtain ⟨c, t, hc, hctag⟩ := attributes_append_cons h.attributes hr
  obtain ⟨d, u, hd, hdtag⟩ := attributes_append_cons k.attributes hr'
  rw [Head.chars, Head.chars, List.append_assoc, List.append_assoc, hc, hd] at heq
  obtain ⟨htag, hrest⟩ := run_append_inj hh.tag.2 hk.tag.2 (by simp [hctag]) (by simp [hdtag]) heq
  rw [← hc, ← hd] at hrest
  obtain ⟨hattributes, hrr⟩ := attributes_append_inj hh.attributes hk.attributes hr hr' hrest
  exact ⟨congrArg₂ Head.mk (String.toList_injective htag) hattributes, hrr⟩

/-! ## Elements -/

namespace Element

mutual
/-- An element whose heads are readable and whose groups have children. -/
def Readable : Element → Prop
  | empty h => h.Readable
  | text h _ => h.Readable
  | group h children => h.Readable ∧ children ≠ [] ∧ AllReadable children

def AllReadable : List Element → Prop
  | [] => True
  | e :: rest => e.Readable ∧ AllReadable rest
end

theorem Readable.head {e : Element} (h : e.Readable) : e.head.Readable := by
  cases e with
  | empty | text => exact h
  | group => exact h.1

/-- What stands behind the head on an element's first line. -/
def behind : Element → List Char
  | empty _ => [' ', '/', '>']
  | text h content => '>' :: '\x7b' :: quoteChars content.toList ++ '\x7d' :: h.closing 0
  | group _ _ => ['>']

/-- The lines of an element behind its first one. -/
def further (level : Nat) : Element → List (List Char)
  | empty _ => []
  | text _ _ => []
  | group h children => linesAll (level + 1) children ++ [h.closing level]

theorem stop_behind (e : Element) : Stop e.behind := by
  cases e with
  | empty => exact .inr ⟨_, rfl⟩
  | text | group => exact .inl ⟨_, rfl⟩

/-- An element begins one line with its head, unless it is a group of nothing. -/
theorem lines_eq {e : Element} (h : ∀ k, e ≠ group k []) (level : Nat) :
    lines level e = (margin level ++ '<' :: (e.head.chars ++ e.behind)) :: e.further level := by
  cases e with
  | empty k => simp [lines, Head.selfClosing, Element.head, behind, further]
  | text k content => simp [lines, Head.around_eq, Element.head, behind, further]
  | group k children =>
    cases children with
    | nil => exact absurd rfl (h k)
    | cons child rest => simp [lines, Head.opening, Element.head, behind, further]

theorem Readable.lines_eq {e : Element} (h : e.Readable) (level : Nat) :
    lines level e = (margin level ++ '<' :: (e.head.chars ++ e.behind)) :: e.further level := by
  refine Element.lines_eq (fun k hk => ?_) level
  rw [hk] at h
  exact h.2.1 rfl

/-! What stands behind the head tells the constructors apart and shows a text. -/

theorem eq_empty_of_behind {k : Head} {f : Element} (hhead : k = f.head)
    (h : (empty k).behind = f.behind) : f = empty k := by
  cases f with
  | empty l => rw [hhead, Element.head]
  | text | group => simp [behind] at h

theorem eq_text_of_behind {k : Head} {s : String} {f : Element} (hhead : k = f.head)
    (h : (text k s).behind = f.behind) : f = text k s := by
  cases f with
  | empty | group => simp [behind] at h
  | text l t =>
    simp only [behind, List.cons_append, List.cons.injEq, true_and] at h
    have hst := String.toList_injective (quoteChars_append_inj h).1
    rw [hhead, hst, Element.head]

theorem eq_group_of_behind {k : Head} {es : List Element} {f : Element} (hhead : k = f.head)
    (h : (group k es).behind = f.behind) : ∃ fs, f = group k fs := by
  cases f with
  | empty | text => simp [behind] at h
  | group l fs => exact ⟨fs, by rw [hhead, Element.head]⟩

/-! ## Nesting -/

/-- Lines behind the lines of siblings: none, or those from a closing tag on. -/
def Behind (r : List (List Char)) : Prop := r = [] ∨ ∃ line t, r = line :: t ∧ isClosing line = true

theorem Readable.isClosing_first {e : Element} (h : e.Readable) (level : Nat) :
    isClosing (margin level ++ '<' :: (e.head.chars ++ e.behind)) = false := by
  obtain ⟨hne, hchars⟩ := h.head.tag
  rw [isClosing, margin_eq, dropWhile_replicate_blank _ '<' _ (by decide)]
  cases ht : e.head.tag.toList with
  | nil => exact absurd (String.toList_eq_nil_iff.1 ht) hne
  | cons c cs =>
    have hc : c ≠ '/' := by
      rintro rfl
      exact absurd (hchars '/' (by simp [ht])) (by decide)
    simpa [Head.chars, ht] using hc

theorem isClosing_closing (h : Head) (level : Nat) : isClosing (h.closing level) = true := by
  rw [isClosing, Head.closing, margin_eq, List.append_assoc, List.cons_append,
    dropWhile_replicate_blank _ '<' _ (by decide)]
  rfl

theorem Readable.first_inj {e f : Element} (he : e.Readable) (hf : f.Readable) {level : Nat}
    {r r' : List (List Char)} (h : lines level e ++ r = lines level f ++ r') :
    e.head = f.head ∧ e.behind = f.behind ∧ e.further level ++ r = f.further level ++ r' := by
  rw [he.lines_eq, hf.lines_eq, List.cons_append, List.cons_append, List.cons.injEq,
    List.append_cancel_left_eq, List.cons.injEq] at h
  obtain ⟨⟨-, hfirst⟩, hfurther⟩ := h
  obtain ⟨hhead, hbehind⟩ := he.head.append_inj hf.head e.stop_behind f.stop_behind hfirst
  exact ⟨hhead, hbehind, hfurther⟩

theorem Behind.ne_lines {e : Element} (he : e.Readable) {level : Nat} {r t : List (List Char)}
    (hr : Behind r) : r ≠ lines level e ++ t := by
  rw [he.lines_eq]
  rintro rfl
  obtain h | ⟨line, t', h, hclosing⟩ := hr
  · simp at h
  · rw [← (List.cons.inj h).1, he.isClosing_first] at hclosing
    cases hclosing

-- The lines of a group's children are followed by a closing tag, so the rest of the text is part of
-- the statement.
mutual
theorem lines_append_inj : ∀ {e f : Element} {level : Nat} {r r' : List (List Char)},
    e.Readable → f.Readable → lines level e ++ r = lines level f ++ r' → e = f ∧ r = r'
  | .empty k, f, _, _, _, he, hf, h => by
    obtain ⟨hhead, hbehind, hfurther⟩ := he.first_inj hf h
    obtain rfl := eq_empty_of_behind hhead hbehind
    exact ⟨rfl, hfurther⟩
  | .text k s, f, _, _, _, he, hf, h => by
    obtain ⟨hhead, hbehind, hfurther⟩ := he.first_inj hf h
    obtain rfl := eq_text_of_behind hhead hbehind
    exact ⟨rfl, hfurther⟩
  | .group k es, f, level, r, r', he, hf, h => by
    obtain ⟨hhead, hbehind, hfurther⟩ := he.first_inj hf h
    obtain ⟨fs, rfl⟩ := eq_group_of_behind hhead hbehind
    simp only [further, List.append_assoc, List.cons_append, List.nil_append] at hfurther
    have hclosing : ∀ t, Behind (k.closing level :: t) := fun t =>
      .inr ⟨_, t, rfl, isClosing_closing k level⟩
    obtain ⟨rfl, hr⟩ := linesAll_append_inj he.2.2 hf.2.2 (hclosing r) (hclosing r') hfurther
    exact ⟨rfl, (List.cons.inj hr).2⟩

theorem linesAll_append_inj : ∀ {es fs : List Element} {level : Nat} {r r' : List (List Char)},
    AllReadable es → AllReadable fs → Behind r → Behind r' →
      linesAll level es ++ r = linesAll level fs ++ r' → es = fs ∧ r = r'
  | [], [], _, _, _, _, _, _, _, h => ⟨rfl, by simpa [linesAll] using h⟩
  | [], f :: fs, _, _, _, _, hf, hr, _, h => by
    rw [linesAll, linesAll, List.append_assoc, List.nil_append] at h
    exact absurd h (hr.ne_lines hf.1)
  | e :: es, [], _, _, _, he, _, _, hr', h => by
    rw [linesAll, linesAll, List.append_assoc, List.nil_append] at h
    exact absurd h.symm (hr'.ne_lines he.1)
  | e :: es, f :: fs, _, _, _, he, hf, hr, hr', h => by
    rw [linesAll, linesAll, List.append_assoc, List.append_assoc] at h
    obtain ⟨rfl, hrest⟩ := lines_append_inj he.1 hf.1 h
    obtain ⟨rfl, hrr⟩ := linesAll_append_inj he.2 hf.2 hr hr' hrest
    exact ⟨rfl, hrr⟩
end

end Element

/-! ## Trees of components -/

theorem readable_headOf {kind : Kind} (h : IsTagName (tagOf kind)) (p : Props) :
    (headOf kind p).Readable := ⟨h, readable_attributes kind p⟩

theorem readable_lowerLeaf {kind : Kind} (h : IsTagName (tagOf kind)) (p : Props) :
    (lowerLeaf kind p).Readable := by
  obtain hleaf | ⟨_, hleaf⟩ := lowerLeaf_cases kind p <;> rw [hleaf] <;> exact readable_headOf h p

mutual
theorem readable_lowerNode : ∀ (node : Node), (∀ n ∈ node.walk, IsTagName (tagOf n.kind)) →
    (lowerNode node).Readable
  | ⟨_, kind, p, [], _, _⟩, h => by
    rw [lowerNode]
    exact readable_lowerLeaf (h _ (Node.mem_walk_self _)) p
  | ⟨_, kind, p, child :: rest, _, _⟩, h => by
    rw [lowerNode]
    exact ⟨readable_headOf (h _ (Node.mem_walk_self _)) p, by simp [lowerAll],
      readable_lowerAll (child :: rest) fun n hn => h n (by simp [Node.walk, hn])⟩

theorem readable_lowerAll : ∀ (nodes : List Node),
    (∀ n ∈ Node.walkAll nodes, IsTagName (tagOf n.kind)) → Element.AllReadable (lowerAll nodes)
  | [], _ => trivial
  | node :: rest, h =>
    ⟨readable_lowerNode node fun n hn => h n (by simp [Node.walkAll, hn]),
      readable_lowerAll rest fun n hn => h n (by simp [Node.walkAll, hn])⟩
end

theorem readable_lower {forest : Forest} (h : ∀ name ∈ forest.unknownNames, IsTagName name) :
    Element.AllReadable (lower forest) :=
  readable_lowerAll forest (forall_tagOf (P := IsTagName) (by decide) h)

theorem IsTagName.newline_not_mem {name : String} (h : IsTagName name) : '\n' ∉ name.toList :=
  fun hn => absurd (h.2 _ hn) (by decide)

/-! ## The printed text -/

theorem Element.linesAll_ne_blank {es : List Element} (h : AllReadable es) (level : Nat) :
    linesAll level es ≠ [[]] := by
  cases es with
  | nil => simp [linesAll]
  | cons e es => simp [linesAll, h.1.lines_eq]

/-- The lines of a printed forest with readable names; an empty one has a blank line. -/
theorem markupLines_of_readable {forest : Forest} (h : ∀ name ∈ forest.unknownNames, IsTagName name)
    (level : Nat) :
    markupLines forest level =
      if forest = [] then [[]] else Element.linesAll level (lower forest) := by
  split
  · next hnil => subst hnil; rfl
  · next hne => exact markupLines_eq hne (fun name hname => (h name hname).newline_not_mem) level

/-- Forests that print alike are lowered alike: no text, placeholder, source, key or style value
makes one tree look like another. -/
theorem lower_eq_of_print_eq (a b : Forest) (level : Nat)
    (ha : ∀ name ∈ a.unknownNames, IsTagName name) (hb : ∀ name ∈ b.unknownNames, IsTagName name)
    (h : print (lower a) level = print (lower b) level) : lower a = lower b := by
  have hlines : markupLines a level = markupLines b level := by rw [markupLines, h, markupLines]
  have hra := readable_lower ha
  have hrb := readable_lower hb
  rw [markupLines_of_readable ha, markupLines_of_readable hb] at hlines
  split at hlines <;> split at hlines
  · next ha0 hb0 => rw [ha0, hb0]
  · exact absurd hlines.symm (Element.linesAll_ne_blank hrb level)
  · exact absurd hlines (Element.linesAll_ne_blank hra level)
  · have hends : Element.linesAll level (lower a) ++ [] = Element.linesAll level (lower b) ++ [] := by
      rw [hlines]
    exact (Element.linesAll_append_inj hra hrb (.inl rfl) (.inl rfl) hends).1

/-- A header and a card with the same style are printed alike, whatever the header's text is. -/
theorem lower_eq_of_print_eq_header :
    let props := { Component.Props.empty with text := some "\"\x7d\x7d</Text>" }
    let a : Forest := [⟨"a", .header, props, [.new "m" (.other "Map.View")], none, none⟩]
    let b : Forest := [⟨"b", .card, .empty, [.new "n" (.other "Map.View")], none, none⟩]
    ((∀ name ∈ a.unknownNames, IsTagName name) ∧ (∀ name ∈ b.unknownNames, IsTagName name) ∧
      print (lower a) 1 = print (lower b) 1) ∧ lower a = lower b := by
  intro props a b
  have ha : ∀ name ∈ a.unknownNames, IsTagName name := by decide
  have hb : ∀ name ∈ b.unknownNames, IsTagName name := by decide
  have h : print (lower a) 1 = print (lower b) 1 := by decide
  exact ⟨⟨ha, hb, h⟩, lower_eq_of_print_eq a b 1 ha hb h⟩

end AppExport.Markup
