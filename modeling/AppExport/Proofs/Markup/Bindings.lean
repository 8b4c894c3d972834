/-
The tags of the entry module and the names its imports bind. Every line of the module that opens an
element shows the element's tag, and every import statement shows the names it binds; read off the
text this way, the tags are those of the root view, of the status bar and of the components in
pre-order. A tag has a binding if it belongs to an importable primitive, so of the known kinds a
toggle and a slider are written with a tag that nothing binds.
-/
import AppExport.Proofs.Markup.ImportList
import AppExport.Proofs.Markup.Recovery

namespace AppExport.Markup

open Component (Forest Kind Node)
open Text (pieces pieces_append pieces_intercalate_flatMap pieces_of_not_mem)

/-! ## Tags in a text -/

/-- The tag of the element that a line opens. -/
def openTag? (line : List Char) : Option String :=
  match line.dropWhile (· == ' ') with
  | '<' :: rest =>
    let tag := rest.takeWhile isTagChar
    if tag.isEmpty then none else some (String.ofList tag)
  | _ => none

/-- The tags of the elements that a text opens, line by line. -/
def openTags (source : String) : List String := (pieces '\n' source.toList).filterMap openTag?

theorem Begins.openTag?_eq {level : Nat} {kind : Kind} {line : List Char} (h : Begins level kind line)
    (htag : IsTagName (tagOf kind)) : openTag? line = some (tagOf kind) := by
  obtain ⟨next, rest, rfl, hnext⟩ := h
  have hstop : isTagChar next = false := by rcases hnext with rfl | rfl <;> decide
  have htake : ((tagOf kind).toList ++ next :: rest).takeWhile isTagChar = (tagOf kind).toList := by
    rw [List.takeWhile_append_of_pos htag.2, List.takeWhile_cons_of_neg (by simp [hstop]),
      List.append_nil]
  rw [openTag?, List.append_assoc, List.cons_append, dropWhile_replicate_blank _ '<' _ (by decide)]
  simp [htake, htag.1]

theorem openTag?_of_isClosing {line : List Char} (h : isClosing line = true) :
    openTag? line = none := by
  obtain ⟨rest, hrest⟩ : ∃ rest, line.dropWhile (· == ' ') = '<' :: '/' :: rest := by
    rw [isClosing, beq_iff_eq] at h
    exact ⟨_, (List.take_append_drop 2 _).symm.trans (by rw [h]; rfl)⟩
  rw [openTag?, hrest]
  rfl

theorem filterMap_openTag?_of_forall₂ {level : Nat} {lines : List (List Char)}
    {entries : List (Nat × Node)} (h : List.Forall₂ (BeginsAt level) lines entries)
    (htags : ∀ entry ∈ entries, IsTagName (tagOf entry.2.kind)) :
    lines.filterMap openTag? = entries.map fun entry => tagOf entry.2.kind := by
  induction h with
  | nil => rfl
  | cons hbegins _ ih =>
    have hrest := ih fun entry hentry => htags entry (List.mem_cons_of_mem _ hentry)
    rw [List.filterMap_cons, Begins.openTag?_eq hbegins (htags _ List.mem_cons_self), hrest,
      List.map_cons]

/-- The tags in the lines of a printed forest are those of its nodes, in pre-order. -/
theorem openTags_print {forest : Forest} (hnames : ∀ name ∈ forest.unknownNames, IsTagName name)
    (level : Nat) :
    openTags (print (lower forest) level) = forest.walk.map fun node => tagOf node.kind := by
  have htags : ∀ node ∈ forest.walk, IsTagName (tagOf node.kind) :=
    forall_tagOf (P := IsTagName) (by decide) hnames
  rcases eq_or_ne forest [] with rfl | hne
  · rfl
  · have hclosing : ∀ line ∈ Element.linesAll level (lower forest),
        openTag? line = if !isClosing line then openTag? line else none := by
      intro line _
      cases h : isClosing line with
      | true => simp [openTag?_of_isClosing h]
      | false => rfl
    have hopenings := (framed_lowerAll forest level).openings (Nat.add_zero level).symm
      fun node hnode => by
        obtain ⟨c, cs, hcs⟩ := List.exists_cons_of_ne_nil
          (mt String.toList_eq_nil_iff.1 (htags node hnode).1)
        have hc := (htags node hnode).2 c (by simp [hcs])
        rw [hcs, List.head?_cons, ne_eq, Option.some.injEq]
        rintro rfl
        exact absurd hc (by decide)
    have hfilter : (Element.linesAll level (lower forest)).filterMap openTag? =
        ((Element.linesAll level (lower forest)).filter (!isClosing ·)).filterMap openTag? := by
      rw [List.filterMap_filter]
      exact List.filterMap_congr hclosing
    have hwalk : (Node.walkAllAt 0 forest).map Prod.snd = forest.walk :=
      Node.map_snd_walkAllAt forest 0
    have hentries : ∀ entry ∈ Node.walkAllAt 0 forest, IsTagName (tagOf entry.2.kind) :=
      fun entry hentry => htags entry.2 (hwalk ▸ List.mem_map_of_mem hentry)
    have hlines : (pieces '\n' (print (lower forest) level).toList) =
        Element.linesAll level (lower forest) :=
      markupLines_eq hne (fun name hname => (hnames name hname).newline_not_mem) level
    rw [openTags, hlines, hfilter, lower, filterMap_openTag?_of_forall₂ hopenings hentries, ← hwalk,
      List.map_map]
    rfl

/-- The tags in joined texts are the tags in each of them. -/
theorem openTags_intercalate {texts : List String} (hne : texts ≠ []) :
    openTags ("\n".intercalate texts) = texts.flatMap openTags := by
  have hlines : pieces '\n' ("\n".intercalate texts).toList =
      texts.flatMap fun text => pieces '\n' text.toList := by
    rw [String.toList_intercalate, show "\n".toList = ['\n'] from rfl,
      pieces_intercalate_flatMap (by simpa using hne), List.flatMap_map]
  rw [openTags, hlines, List.filterMap_flatMap]
  rfl

theorem openTags_of_line {text : String} (hline : '\n' ∉ text.toList)
    (h : openTag? text.toList = none) : openTags text = [] := by
  simp [openTags, pieces_of_not_mem hline, h]

theorem openTags_importStatement? (forest : Forest) :
    (importStatement? (imports forest)).toList.flatMap openTags = [] := by
  rw [importStatement?_toList, map_tag_imports]
  split
  · rfl
  · have hline : '\n' ∉ (importOf (usedPrimitives forest)).toList :=
      newline_not_mem_importOf fun name hname => (mem_usedPrimitives.1 hname).2
    rw [List.flatMap_singleton]
    exact openTags_of_line hline (by rw [importOf_toList]; rfl)

theorem openTags_background (colour : String) :
    openTags ("    backgroundColor: " ++ Text.quote colour ++ ",") = [] := by
  have hquote := (Text.quoteChars_shown colour.toList).newline_not_mem
  refine openTags_of_line ?_ ?_
  · simp [Text.quote, hquote]
  · rw [String.toList_append, String.toList_append]
    rfl

/-- The elements of the entry module: the root view, the status bar and the components. -/
theorem openTags_entryModule {forest : Forest} (hnames : ∀ name ∈ forest.unknownNames, IsTagName name)
    (config : Config) :
    openTags (Bundle.entryModule forest config) =
      "View" :: "StatusBar" :: Element.tagsAll (lower forest) := by
  have hbody : (if (print (lower forest) Bundle.treeLevel).isEmpty then []
      else [print (lower forest) Bundle.treeLevel]).flatMap openTags =
        forest.walk.map fun node => tagOf node.kind := by
    rw [← openTags_print hnames Bundle.treeLevel]
    split
    · next hempty => rw [String.isEmpty_iff.1 hempty]; rfl
    · rw [List.flatMap_singleton]
  rw [Bundle.entryModule, openTags_intercalate (by simp), tagsAll_lower]
  simp only [List.flatMap_append, hbody, openTags_importStatement?, List.flatMap_cons,
    List.flatMap_nil, openTags_background]
  -- The other lines are closed texts, so what they open is computed.
  exact List.append_nil _

/-! ## Names that import statements bind -/

/-- The names between the first word of an import statement and the word `from`, with or without
braces around them and commas behind them. -/
def boundBy (statement : String) : List String :=
  let names := ((pieces ' ' statement.toList).drop 1).takeWhile (String.ofList · != "from")
  (names.map fun word => String.ofList (word.filter isTagChar)).filter (!·.isEmpty)

/-- The names that the import statements at the beginning of a module bind. -/
def boundNames (source : String) : List String := (importLines source).flatMap boundBy

theorem IsTagName.blank_not_mem {name : String} (h : IsTagName name) : ' ' ∉ name.toList :=
  fun hn => absurd (h.2 _ hn) (by decide)

theorem IsTagName.filter_eq {name : String} (h : IsTagName name) :
    name.toList.filter isTagChar = name.toList := List.filter_eq_self.2 h.2

/-- A list of names is read word by word: all but the last have a comma behind them. -/
theorem exists_words {names : List String} (rest : List Char)
    (h : ∀ name ∈ names, IsTagName name ∧ name ≠ "from") :
    ∃ words, pieces ' ' ((", ".intercalate names).toList ++ ' ' :: rest) = words ++ pieces ' ' rest ∧
      (∀ word ∈ words, (String.ofList word != "from") = true) ∧
      (words.map fun word => String.ofList (word.filter isTagChar)).filter (!·.isEmpty) = names := by
  induction names with
  | nil => exact ⟨[[]], rfl, by decide, rfl⟩
  | cons name others ih =>
    obtain ⟨⟨htag, hfrom⟩, hothers⟩ := List.forall_mem_cons.1 h
    have hfilled : (!name.isEmpty) = true := by simpa using htag.1
    cases others with
    | nil =>
      refine ⟨[name.toList], ?_, by simpa using hfrom, ?_⟩
      · rw [String.intercalate_singleton, pieces_append htag.blank_not_mem]
        rfl
      · simp [htag.filter_eq, htag.1]
    | cons other others =>
      obtain ⟨words, hwords, hne, hnames⟩ := ih hothers
      have hcomma : ' ' ∉ name.toList ++ [','] := by simp [htag.blank_not_mem]
      have hword : String.ofList (name.toList ++ [',']) ≠ "from" := by
        intro he
        have hmem : ',' ∈ "from".toList := by rw [← he, String.toList_ofList]; simp
        revert hmem
        decide
      have hfilter : (name.toList ++ [',']).filter isTagChar = name.toList := by
        rw [List.filter_append, htag.filter_eq, show [','].filter isTagChar = [] from by decide,
          List.append_nil]
      have htext : (", ".intercalate (name :: other :: others)).toList ++ ' ' :: rest =
          (name.toList ++ [',']) ++
            ' ' :: ((", ".intercalate (other :: others)).toList ++ ' ' :: rest) := by
        rw [String.toList_intercalate, String.toList_intercalate, List.map_cons, List.map_cons,
          List.intercalate_cons_cons]
        simp
      refine ⟨(name.toList ++ [',']) :: words, ?_, ?_, ?_⟩
      · rw [htext, pieces_append hcomma, hwords, List.cons_append]
      · exact List.forall_mem_cons.2 ⟨by simpa using hword, hne⟩
      · rw [List.map_cons, hfilter, String.ofList_toList, List.filter_cons, if_pos hfilled, hnames]

theorem isTagName_of_importable :
    ∀ name ∈ importableNames, IsTagName name ∧ name ≠ "from" := by
  decide

theorem boundBy_importOf {names : List String} (h : ∀ name ∈ names, name ∈ importableNames) :
    boundBy (importOf names) = names := by
  obtain ⟨words, hwords, hne, hnames⟩ := exists_words "\x7d from './components/primitives';".toList
    fun name hname => isTagName_of_importable name (h name hname)
  have htext : (importOf names).toList = "import".toList ++ ' ' :: ("\x7b".toList ++ ' ' ::
      ((", ".intercalate names).toList ++ ' ' :: "\x7d from './components/primitives';".toList)) := by
    rw [importOf_toList]
    simp
  have hbehind : (pieces ' ' "\x7d from './components/primitives';".toList).takeWhile
      (String.ofList · != "from") = ["\x7d".toList] := by decide
  have hpieces : (pieces ' ' (importOf names).toList).drop 1 = "\x7b".toList ::
      (words ++ pieces ' ' "\x7d from './components/primitives';".toList) := by
    rw [htext, pieces_append (by decide), pieces_append (by decide), hwords]
    rfl
  have htake : ((pieces ' ' (importOf names).toList).drop 1).takeWhile (String.ofList · != "from") =
      "\x7b".toList :: (words ++ ["\x7d".toList]) := by
    rw [hpieces, List.takeWhile_cons_of_pos (by decide), List.takeWhile_append_of_pos hne, hbehind]
  rw [boundBy, htake, List.map_cons, List.map_append, List.filter_cons_of_neg (by decide),
    List.filter_append, hnames]
  exact List.append_nil names

theorem boundNames_entryModule (forest : Forest) (config : Config) :
    boundNames (Bundle.entryModule forest config) =
      ["React", "StatusBar", "StyleSheet", "View"] ++ usedPrimitives forest := by
  have hframe : frameImports.flatMap boundBy = ["React", "StatusBar", "StyleSheet", "View"] := by
    decide
  have hown : (if usedPrimitives forest = [] then [] else [importOf (usedPrimitives forest)]).flatMap
      boundBy = usedPrimitives forest := by
    split
    · next hnil => rw [hnil, List.flatMap_nil]
    · rw [List.flatMap_singleton, boundBy_importOf fun name hname => (mem_usedPrimitives.1 hname).2]
  rw [boundNames, importLines_entryModule, List.flatMap_append, hframe, hown]

/-! ## Tags without a binding -/

theorem tagOf_mem_importableNames_iff {kind : Kind} (h : kind.isOther = false) :
    tagOf kind ∈ importableNames ↔ kind ≠ .toggle ∧ kind ≠ .slider := by
  cases kind <;> first | decide | cases h

theorem tagOf_not_mem_frame {kind : Kind} (h : kind.isOther = false) :
    tagOf kind ∉ ["React", "StatusBar", "StyleSheet", "View"] := by
  cases kind <;> first | decide | cases h

theorem tagOf_ne_iff {kind : Kind} (h : kind.isOther = false) :
    tagOf kind ≠ "Switch" ∧ tagOf kind ≠ "Slider" ↔ kind ≠ .toggle ∧ kind ≠ .slider := by
  cases kind <;> first | decide | cases h

theorem unknownNames_eq_nil {forest : Forest} (h : ∀ node ∈ forest.walk, node.kind.isOther = false) :
    forest.unknownNames = [] := by
  refine List.filterMap_eq_nil_iff.2 fun node hnode => ?_
  have hknown := h node hnode
  cases hk : node.kind <;> first | rfl | (rw [hk] at hknown; cases hknown)

/-- In the entry module of a forest of known kinds, the tags are those of the root view, of the
status bar and of the components. The root view and the status bar are bound by the module's own
imports, and so is the tag of every node but a toggle or a slider, whose tags `Switch` and `Slider`
no import binds. -/
theorem mem_boundNames_iff (forest : Forest) (config : Config)
    (hknown : ∀ node ∈ forest.walk, node.kind.isOther = false) :
    openTags (Bundle.entryModule forest config) =
        "View" :: "StatusBar" :: Element.tagsAll (lower forest) ∧
      (∀ node ∈ forest.walk, tagOf node.kind ∈ boundNames (Bundle.entryModule forest config) ↔
        node.kind ≠ .toggle ∧ node.kind ≠ .slider) ∧
      ∀ tag ∈ openTags (Bundle.entryModule forest config),
        tag ∈ boundNames (Bundle.entryModule forest config) ↔ tag ≠ "Switch" ∧ tag ≠ "Slider" := by
  have hunknown : ∀ name ∈ forest.unknownNames, IsTagName name := by
    simp [unknownNames_eq_nil hknown]
  have hnode : ∀ node ∈ forest.walk,
      tagOf node.kind ∈ boundNames (Bundle.entryModule forest config) ↔
        node.kind ≠ .toggle ∧ node.kind ≠ .slider := by
    intro node hmem
    have hused : tagOf node.kind ∈ Element.tagsAll (lower forest) := by
      rw [tagsAll_lower]
      exact List.mem_map_of_mem hmem
    rw [boundNames_entryModule, List.mem_append, or_iff_right (tagOf_not_mem_frame (hknown node hmem)),
      mem_usedPrimitives, and_iff_right hused, tagOf_mem_importableNames_iff (hknown node hmem)]
  refine ⟨openTags_entryModule hunknown config, hnode, fun tag htag => ?_⟩
  rw [openTags_entryModule hunknown, tagsAll_lower] at htag
  simp only [List.mem_cons, List.mem_map] at htag
  rcases htag with rfl | rfl | ⟨node, hmem, rfl⟩
  · simp [boundNames_entryModule]
  · simp [boundNames_entryModule]
  · rw [hnode node hmem, tagOf_ne_iff (hknown node hmem)]

/-- A button in a card has its two bindings. -/
theorem mem_boundNames_iff_card :
    let forest : Forest := [⟨"c", .card, .empty, [.new "b" .button], none, none⟩]
    (∀ node ∈ forest.walk, node.kind.isOther = false) ∧
      openTags (Bundle.entryModule forest .fresh) = ["View", "StatusBar", "Container", "Button"] ∧
      ∀ tag ∈ openTags (Bundle.entryModule forest .fresh),
        tag ∈ boundNames (Bundle.entryModule forest .fresh) := by
  intro forest
  have hknown : ∀ node ∈ forest.walk, node.kind.isOther = false := by decide
  obtain ⟨htags, -, hbound⟩ := mem_boundNames_iff forest .fresh hknown
  refine ⟨hknown, htags, fun tag htag => (hbound tag htag).2 ?_⟩
  rw [htags] at htag
  revert tag
  decide

/-- A switch is written without an import that declares it. -/
theorem switch_not_bound :
    let forest : Forest := [.new "a" .toggle]
    (∀ node ∈ forest.walk, node.kind.isOther = false) ∧
      "Switch" ∈ openTags (Bundle.entryModule forest .fresh) ∧
      "Switch" ∉ boundNames (Bundle.entryModule forest .fresh) := by
  intro forest
  have hnames : ∀ name ∈ forest.unknownNames, IsTagName name := by decide
  rw [openTags_entryModule hnames, boundNames_entryModule]
  decide

end AppExport.Markup
