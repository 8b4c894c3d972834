/-
The import list agrees with the markup. The importable tags of the lowered elements in pre-order,
each at its first occurrence, are the tags of the imported primitives in their order, although these
are found from the kinds of the components, whose repetitions are dropped once before and once
behind the mapping to primitives. The entry module names exactly them in its one import of
primitives and has no such import without them.
-/
import AppExport.Bundle.Documents
import AppExport.Proofs.List.EraseDups
import AppExport.Proofs.Markup.Tag
import AppExport.Proofs.Text.Pieces

namespace AppExport.Markup

open Component (Forest Kind Node)
open Text (pieces pieces_intercalate_append)

/-! ## The tags of elements -/

namespace Element

mutual
/-- The tags of an element and of those in it, in pre-order. -/
def tags : Element → List String
  | empty h => [h.tag]
  | text h _ => [h.tag]
  | group h children => h.tag :: tagsAll children

def tagsAll : List Element → List String
  | [] => []
  | e :: rest => e.tags ++ tagsAll rest
end

end Element

theorem tags_lowerLeaf (kind : Kind) (p : Component.Props) :
    (lowerLeaf kind p).tags = [tagOf kind] := by
  unfold lowerLeaf
  cases p.text with
  | none => rfl
  | some s => dsimp only; split <;> rfl

mutual
/-- An element is written with the tags of the nodes it stands for. -/
theorem tags_lowerNode : ∀ node : Node,
    (lowerNode node).tags = node.walk.map fun node => tagOf node.kind
  | ⟨_, kind, props, [], _, _⟩ => by
    rw [lowerNode, tags_lowerLeaf, Node.walk, Node.walkAll]
    rfl
  | ⟨_, kind, props, child :: rest, _, _⟩ => by
    have hchildren := tagsAll_lowerAll (child :: rest)
    rw [lowerNode, Element.tags, hchildren, Node.walk, List.map_cons]
    rfl

theorem tagsAll_lowerAll : ∀ nodes : List Node,
    Element.tagsAll (lowerAll nodes) = (Node.walkAll nodes).map fun node => tagOf node.kind
  | [] => rfl
  | node :: rest => by
    rw [lowerAll, Element.tagsAll, Node.walkAll, List.map_append, tags_lowerNode node,
      tagsAll_lowerAll rest]
end

theorem tagsAll_lower (forest : Forest) :
    Element.tagsAll (lower forest) = forest.walk.map fun node => tagOf node.kind :=
  tagsAll_lowerAll forest

/-! ## Importable primitives -/

/-- The names that can be imported. -/
def importableNames : List String := Primitive.importable.map (·.tag)

theorem isOther_ofName_importable :
    ∀ name ∈ importableNames, (Kind.ofName name).isOther = false := by
  decide

/-- A name that can be imported is known, so that no kind of its own keeps it as a tag. -/
theorem passthrough_not_importable {kind : Kind} {tag : String}
    (h : (Mapping.ofKind kind).primitive = .passthrough tag) : tag ∉ importableNames := by
  intro hmem
  have htag : tagOf kind = tag := by rw [tagOf, h, Primitive.tag]
  rw [ofKind_eq_direct] at h
  cases hk : Kind.ofName kind.name with
  | other name =>
    have hname : tagOf kind = name := tagOf_of_unknownName (Kind.unknownName?_eq_some.2 hk)
    have hknown := isOther_ofName_importable tag hmem
    rw [← htag, hname, Kind.eq_of_ofName_eq_other hk, hk] at hknown
    simp [Kind.isOther] at hknown
  | toggle => rw [hk] at h; cases h; revert hmem; decide
  | slider => rw [hk] at h; cases h; revert hmem; decide
  | _ => rw [hk] at h; cases h

theorem isImportable_iff_tag_mem (kind : Kind) :
    (Mapping.ofKind kind).primitive.isImportable = true ↔ tagOf kind ∈ importableNames := by
  cases h : (Mapping.ofKind kind).primitive with
  | passthrough tag =>
    have hnot := passthrough_not_importable h
    simpa [Primitive.isImportable, tagOf, h, Primitive.tag] using hnot
  | _ => simp only [tagOf, h]; decide

theorem mem_importable {p : Primitive} (h : p.isImportable = true) : p ∈ Primitive.importable := by
  cases p with
  | passthrough tag => cases h
  | _ => decide

theorem tag_inj_on_importable :
    ∀ p ∈ Primitive.importable, ∀ q ∈ Primitive.importable, p.tag = q.tag → p = q := by
  decide

/-- Dropping repeated kinds ahead of the mapping to primitives makes no difference. -/
theorem imports_eq (forest : Forest) :
    imports forest = ((forest.walk.map fun node => (Mapping.ofKind node.kind).primitive).filter
      (·.isImportable)).eraseDups := by
  rw [imports, ← List.filter_eraseDups, List.eraseDups_map_eraseDups, List.filter_eraseDups,
    List.map_map]
  rfl

/-- The importable names among the tags of a forest's elements, each at its first occurrence. -/
def usedPrimitives (forest : Forest) : List String :=
  ((Element.tagsAll (lower forest)).filter (· ∈ importableNames)).eraseDups

theorem mem_usedPrimitives {forest : Forest} {tag : String} : tag ∈ usedPrimitives forest ↔
    tag ∈ Element.tagsAll (lower forest) ∧ tag ∈ importableNames := by
  simp [usedPrimitives, List.mem_eraseDups]

theorem map_tag_imports (forest : Forest) : (imports forest).map (·.tag) = usedPrimitives forest := by
  have hinj : ∀ p ∈ (forest.walk.map fun node => (Mapping.ofKind node.kind).primitive).filter
      (·.isImportable), ∀ q ∈ (forest.walk.map fun node => (Mapping.ofKind node.kind).primitive).filter
      (·.isImportable), p.tag = q.tag → p = q := by
    intro p hp q hq
    exact tag_inj_on_importable p (mem_importable (List.mem_filter.1 hp).2) q
      (mem_importable (List.mem_filter.1 hq).2)
  rw [imports_eq, List.map_eraseDups_of_inj_on hinj, usedPrimitives, tagsAll_lower, List.filter_map,
    List.filter_map, List.map_map]
  congr 2
  refine List.filter_congr fun node _ => ?_
  simpa using Bool.eq_iff_iff.2 ((isImportable_iff_tag_mem node.kind).trans (by simp))

/-! ## The imports of the entry module -/

/-- The statements that a module begins with, up to its first empty line. -/
def importLines (source : String) : List String :=
  ((pieces '\n' source.toList).takeWhile (!·.isEmpty)).map String.ofList

def importsPrimitives (statement : String) : Bool :=
  (" from '" ++ primitivesModule ++ "';").toList.isSuffixOf statement.toList

/-- The statement that imports primitives by their names. -/
def importOf (names : List String) : String :=
  "import \x7b " ++ ", ".intercalate names ++ " \x7d from './components/primitives';"

theorem importStatement?_toList (primitives : List Primitive) :
    (importStatement? primitives).toList =
      if primitives.map (·.tag) = [] then [] else [importOf (primitives.map (·.tag))] := by
  cases primitives with
  | nil => rfl
  | cons p rest =>
    simp only [importStatement?, List.isEmpty_cons, Bool.false_eq_true, if_false, List.map_cons,
      List.cons_ne_nil, Option.toList_some, importOf, primitivesModule, String.append_assoc]
    rfl

/-- What every entry module imports. -/
def frameImports : List String :=
  ["import React from 'react';",
   "import \x7b StatusBar \x7d from 'expo-status-bar';",
   "import \x7b StyleSheet, View \x7d from 'react-native';"]

theorem frameImports_lines : ∀ s ∈ frameImports, s ≠ "" ∧ '\n' ∉ s.toList := by
  decide

theorem exists_entryModule_eq (forest : Forest) (config : Config) :
    ∃ line others, Bundle.entryModule forest config = "\n".intercalate
      (frameImports ++ (importStatement? (imports forest)).toList ++ "" :: line :: others) := by
  simp only [Bundle.entryModule, frameImports, List.append_assoc, List.cons_append, List.nil_append]
  exact ⟨_, _, rfl⟩

/-- The lines that are joined ahead of an empty one are the ones up to it. -/
theorem importLines_intercalate {statements : List String} (line : String) (others : List String)
    (h : ∀ s ∈ statements, s ≠ "" ∧ '\n' ∉ s.toList) :
    importLines ("\n".intercalate (statements ++ "" :: line :: others)) = statements := by
  have hlines : ∀ line ∈ statements.map (·.toList) ++ [[]], '\n' ∉ line := by
    intro line hline
    rcases List.mem_append.1 hline with hmem | hmem
    · obtain ⟨s, hs, rfl⟩ := List.mem_map.1 hmem
      exact (h s hs).2
    · simp [List.mem_singleton.1 hmem]
  have hfilled : ∀ line ∈ statements.map (·.toList), (!line.isEmpty) = true := by
    intro line hline
    obtain ⟨s, hs, rfl⟩ := List.mem_map.1 hline
    simpa using (h s hs).1
  have hpieces := pieces_intercalate_append line.toList (others.map (·.toList)) hlines
  rw [importLines, String.toList_intercalate, List.map_append, List.map_cons, List.map_cons]
  simp only [List.append_assoc, List.cons_append, List.nil_append] at hpieces
  rw [show "\n".toList = ['\n'] from rfl, String.toList_empty, hpieces,
    List.takeWhile_append_of_pos hfilled]
  simp

theorem newline_not_mem_intercalate {names : List String}
    (h : ∀ name ∈ names, '\n' ∉ name.toList) : '\n' ∉ (", ".intercalate names).toList := by
  rw [String.toList_intercalate]
  induction names with
  | nil => simp
  | cons name rest ih =>
    have hrest := ih fun other hother => h other (List.mem_cons_of_mem _ hother)
    have hname := h name List.mem_cons_self
    cases rest with
    | nil => simpa using hname
    | cons other others =>
      rw [List.map_cons, List.map_cons, List.intercalate_cons_cons, ← List.map_cons]
      simp only [List.mem_append, not_or]
      exact ⟨⟨hname, by decide⟩, hrest⟩

theorem newline_not_mem_importableNames : ∀ name ∈ importableNames, '\n' ∉ name.toList := by
  decide

theorem importOf_toList (names : List String) : (importOf names).toList =
    "import \x7b ".toList ++ (", ".intercalate names).toList ++
      " \x7d from './components/primitives';".toList := by
  rw [importOf, String.toList_append, String.toList_append]

theorem newline_not_mem_importOf {names : List String}
    (h : ∀ name ∈ names, name ∈ importableNames) : '\n' ∉ (importOf names).toList := by
  have hnames : '\n' ∉ (", ".intercalate names).toList :=
    newline_not_mem_intercalate fun name hname => newline_not_mem_importableNames name (h name hname)
  rw [importOf_toList]
  simp only [List.mem_append, not_or]
  exact ⟨⟨by decide, hnames⟩, by decide⟩

theorem importsPrimitives_importOf (names : List String) :
    importsPrimitives (importOf names) = true := by
  rw [importsPrimitives, List.isSuffixOf_iff_suffix, importOf_toList]
  refine List.IsSuffix.trans ?_ (List.suffix_append _ _)
  decide

theorem importLines_entryModule (forest : Forest) (config : Config) :
    importLines (Bundle.entryModule forest config) = frameImports ++
      if usedPrimitives forest = [] then [] else [importOf (usedPrimitives forest)] := by
  obtain ⟨line, others, heq⟩ := exists_entryModule_eq forest config
  rw [heq, importStatement?_toList, map_tag_imports]
  refine importLines_intercalate line others fun s hs => ?_
  rcases List.mem_append.1 hs with hframe | hown
  · exact frameImports_lines s hframe
  · split at hown
    · cases hown
    · rw [List.mem_singleton.1 hown]
      refine ⟨fun he => ?_, newline_not_mem_importOf fun name hname => (mem_usedPrimitives.1 hname).2⟩
      have hlast := importsPrimitives_importOf (usedPrimitives forest)
      rw [he] at hlast
      revert hlast
      decide

theorem filter_importLines_entryModule (forest : Forest) (config : Config) :
    (importLines (Bundle.entryModule forest config)).filter importsPrimitives =
      if usedPrimitives forest = [] then [] else [importOf (usedPrimitives forest)] := by
  have hframe : frameImports.filter importsPrimitives = [] := by decide
  rw [importLines_entryModule, List.filter_append, hframe, List.nil_append]
  split
  · rfl
  · rw [List.filter_cons_of_pos (importsPrimitives_importOf _), List.filter_nil]

/-- The imports are the importable tags of the markup: each once, at its first occurrence, none
that is not used; a tag that stands for itself is none of them; and the entry module has one line
that imports them, or none if there are none. -/
theorem imports_agree_with_markup (forest : Forest) (config : Config) :
    (imports forest).map (·.tag) = usedPrimitives forest ∧
    ((imports forest).map (·.tag)).Nodup ∧
    (∀ tag, tag ∈ (imports forest).map (·.tag) ↔
      tag ∈ Element.tagsAll (lower forest) ∧ tag ∈ importableNames) ∧
    (∀ kind tag, (Mapping.ofKind kind).primitive = .passthrough tag → tag ∉ importableNames) ∧
    (importLines (Bundle.entryModule forest config)).filter importsPrimitives =
      if usedPrimitives forest = [] then [] else [importOf (usedPrimitives forest)] := by
  rw [map_tag_imports]
  refine ⟨rfl, List.nodup_eraseDups _, fun tag => mem_usedPrimitives, fun kind tag h => ?_,
    filter_importLines_entryModule forest config⟩
  exact passthrough_not_importable h

end AppExport.Markup
