/-
Properties are read from any object that gives none of their keys twice. What is read depends on the
members of the object alone: each key that has a meaning says its own part, whatever value it has, and
all others are kept.
-/
import AppExport.Proofs.Component.Decoded
import AppExport.Proofs.Json.Entrywise

namespace AppExport.Component

open Json (Cause ComesTo Cursor Decoder Entries Members Record Value comes orNull)

variable {α : Type}

/-! ## Readers that take any value -/

/-- Whether a decoder reads whatever can be read as a value, and makes `f` of it. -/
def Lenient (decoder : Decoder α) (f : Value → α) : Prop :=
  ∀ ⦃room : Nat⦄ ⦃c : Cursor⦄ ⦃v : Value⦄ ⦃behind : Cursor⦄, Json.value room c = .ok (v, behind) →
    decoder room c = .ok (f v, behind)

theorem lenient_content : Lenient content contentOf := by
  intro room c v behind h
  simp only [content, h, bind, Except.bind]

theorem lenient_style : Lenient style styleOf := by
  intro room c v behind h
  simp only [style, h, bind, Except.bind]

/-- A value, but none for null. -/
def notNull (v : Value) : Option Value := if v.isNull then none else some v

theorem lenient_orNull : Lenient (orNull styleValue) notNull := by
  intro room c v behind h
  rw [styleValue_eq_value, orNull]
  cases hcomes : comes 'n' c with
  | true =>
    obtain ⟨rfl, hnull⟩ := Json.value_of_comes_null hcomes h
    simp only [hnull "", if_true, bind, Except.bind, notNull, Value.isNull]
  | false =>
    have hv : v.isNull = false := Json.value_gives_not_null hcomes h
    simp only [h, Bool.false_eq_true, if_false, bind, Except.bind, notNull, hv]

/-! ## The draft of some members -/

/-- The keys that have a meaning of their own. -/
def propKeys : List String :=
  ["text", "placeholder", "source", "url", "onPress", "color", "backgroundColor", "fontSize",
    "borderRadius", "padding", "margin", "style"]

theorem names_propsRecord : propsRecord.fields.map Json.Field.name = propKeys := rfl

theorem answers_iff {field : Json.Field PropsDraft} (h : field ∈ propsRecord.fields) (key : String) :
    field.answers key = true ↔ field.name = key := by
  have haliases : ∀ field ∈ propsRecord.fields, field.aliases = [] := by
    simp [propsRecord, Json.Field.slot]
  simp [Json.Field.answers, haliases field h]

theorem find?_eq_none_iff (key : String) :
    propsRecord.fields.find? (·.answers key) = none ↔ key ∉ propKeys := by
  rw [List.find?_eq_none, ← names_propsRecord, List.mem_map, not_exists]
  refine forall_congr' fun field => ?_
  rw [not_and]
  exact forall_congr' fun h => not_congr (answers_iff h key)

/-- What members make, each with a value that is read as one. -/
def PropsDraft.of (es : Entries) : PropsDraft where
  text := (es.lookup "text").map contentOf
  placeholder := (es.lookup "placeholder").map contentOf
  source := (es.lookup "source").map contentOf
  url := (es.lookup "url").map contentOf
  onPress := (es.lookup "onPress").map contentOf
  color := (es.lookup "color").map notNull
  backgroundColor := (es.lookup "backgroundColor").map notNull
  fontSize := (es.lookup "fontSize").map notNull
  borderRadius := (es.lookup "borderRadius").map notNull
  padding := (es.lookup "padding").map notNull
  margin := (es.lookup "margin").map notNull
  style := (es.lookup "style").map styleOf
  extra := .ofEntries (es.filter (·.1 ∉ propKeys))

/-- Whether a field reads its own member, once, and nothing else changes. -/
def Tracks (field : Json.Field PropsDraft) : Prop :=
  ∀ es : Entries, (field.given (.of es) = true ↔ field.name ∈ es.keys) ∧
    (field.name ∉ es.keys → ∀ ⦃room c v behind⦄, Json.value room c = .ok (v, behind) →
      field.read (.of es) room c = .ok (.of (es ++ [(field.name, v)]), behind))

theorem Tracks.slot {name : String} {get : PropsDraft → Option α}
    {set : PropsDraft → α → PropsDraft} {decoder : Decoder α} {f : Value → α}
    (hdecoder : Lenient decoder f) (hget : ∀ es, get (.of es) = (es.lookup name).map f)
    (hset : ∀ es v, name ∉ Entries.keys es → set (.of es) (f v) = .of (es ++ [(name, v)])) :
    Tracks (.slot name [] true get set decoder) := by
  intro es
  constructor
  · show (get (.of es)).isSome = true ↔ name ∈ es.keys
    rw [hget, Option.isSome_map, List.lookup_isSome_iff]
    simp [Entries.keys]
  · intro hnew room c v behind h
    simp only [Json.Field.slot, hdecoder h, hset es v hnew, bind, Except.bind]

theorem tracks_field : ∀ field ∈ propsRecord.fields, Tracks field := by
  simp only [propsRecord, List.forall_mem_cons, List.not_mem_nil, false_implies, implies_true, and_true]
  refine ⟨.slot lenient_content (fun _ => rfl) ?_, .slot lenient_content (fun _ => rfl) ?_,
    .slot lenient_content (fun _ => rfl) ?_, .slot lenient_content (fun _ => rfl) ?_,
    .slot lenient_content (fun _ => rfl) ?_, .slot lenient_orNull (fun _ => rfl) ?_,
    .slot lenient_orNull (fun _ => rfl) ?_, .slot lenient_orNull (fun _ => rfl) ?_,
    .slot lenient_orNull (fun _ => rfl) ?_, .slot lenient_orNull (fun _ => rfl) ?_,
    .slot lenient_orNull (fun _ => rfl) ?_, .slot lenient_style (fun _ => rfl) ?_⟩
  all_goals
    intro es v hnew
    simp [PropsDraft.of, Json.Entries.lookup_concat hnew, List.filter_append, propKeys]

/-- A key with a meaning may come once. -/
def putOnce (es : Entries) (e : String × Value) : Except Cause Entries :=
  if e.1 ∈ propKeys ∧ e.1 ∈ es.keys then .error (.repeatedField e.1) else .ok (es ++ [e])

theorem of_concat_extra {key : String} (h : key ∉ propKeys) (es : Entries) (v : Value) :
    PropsDraft.of (es ++ [(key, v)]) =
      { PropsDraft.of es with extra := (PropsDraft.of es).extra.insert key v } := by
  have hne : ∀ known ∈ propKeys, known ≠ key := fun known hknown heq => h (heq ▸ hknown)
  have hlookup : ∀ known ∈ propKeys, (es ++ [(key, v)]).lookup known = es.lookup known :=
    fun known hknown => Json.Entries.lookup_concat_of_ne (hne known hknown) es v
  simp only [propKeys, List.forall_mem_cons, List.not_mem_nil, false_implies, implies_true, and_true]
    at hlookup
  have hextra : (es ++ [(key, v)]).filter (·.1 ∉ propKeys) =
      es.filter (·.1 ∉ propKeys) ++ [(key, v)] := by
    simp [List.filter_append, h]
  simp only [PropsDraft.of, hlookup, hextra, Members.ofEntries, List.foldl_append, List.foldl_cons,
    List.foldl_nil]

theorem follows_props : propsRecord.Follows PropsDraft.of putOnce where
  start := rfl
  entry room v c c₁ c₂ es key hcolon hvalue := by
    by_cases hkey : key ∈ propKeys
    · obtain ⟨field, hfind⟩ := Option.ne_none_iff_exists'.1 fun hnone =>
        (find?_eq_none_iff key).1 hnone hkey
      have hfield := List.mem_of_find?_eq_some hfind
      have hanswers := List.find?_some hfind
      obtain rfl := (answers_iff hfield key).1 hanswers
      obtain ⟨hgiven, hread⟩ := tracks_field field hfield es
      by_cases hagain : field.name ∈ es.keys
      · rw [putOnce, if_pos ⟨hkey, hagain⟩]
        exact ⟨(c.pastClosing '\x7d').offset, Record.entry_of_given hfind (hgiven.2 hagain) c⟩
      · rw [putOnce, if_neg fun h => hagain h.2]
        have hnew : field.given (.of es) = false := Bool.eq_false_iff.2 fun h => hagain (hgiven.1 h)
        rw [ComesTo, Record.entry_of_field hfind hnew, hcolon]
        exact hread hagain hvalue
    · rw [putOnce, if_neg fun h => hkey h.1]
      have hothers : propsRecord.others = some _ := rfl
      rw [ComesTo, Record.entry_of_rule ((find?_eq_none_iff key).2 hkey) hothers, hcolon]
      simp only [styleValue_eq_value, hvalue, bind, Except.bind, of_concat_extra hkey]

theorem count_concat_le {es : Entries} (hes : ∀ key ∈ propKeys, es.keys.count key ≤ 1)
    {e : String × Value} (hnew : ¬(e.1 ∈ propKeys ∧ e.1 ∈ es.keys)) :
    ∀ key ∈ propKeys, (es ++ [e]).keys.count key ≤ 1 := by
  intro key hkey
  have hkeys : (es ++ [e]).keys = es.keys ++ [e.1] := by simp [Entries.keys]
  rw [hkeys, List.count_append, List.count_singleton]
  by_cases heq : e.1 = key
  · have hzero : es.keys.count key = 0 :=
      List.count_eq_zero.2 fun hmem => hnew ⟨heq ▸ hkey, heq ▸ hmem⟩
    rw [hzero]
    split <;> omega
  · rw [if_neg (by simpa using heq)]
    exact hes key hkey

/-- Members are put one behind the other, up to the first that has a key with a meaning again. -/
theorem foldlM_putOnce (es before : Entries)
    (hbefore : ∀ key ∈ propKeys, before.keys.count key ≤ 1) :
    ((∀ key ∈ propKeys, (before ++ es).keys.count key ≤ 1) ∧
        es.foldlM putOnce before = .ok (before ++ es)) ∨
      ∃ key ∈ propKeys, 1 < (before ++ es).keys.count key ∧
        es.foldlM putOnce before = .error (.repeatedField key) := by
  induction es generalizing before with
  | nil =>
    rw [List.append_nil]
    exact .inl ⟨hbefore, rfl⟩
  | cons e rest ih =>
    have hkeys : (before ++ e :: rest).keys = before.keys ++ e.1 :: Entries.keys rest := by
      simp [Entries.keys]
    rw [List.foldlM_cons, putOnce]
    split
    · next hagain =>
      refine .inr ⟨e.1, hagain.1, ?_, rfl⟩
      have hcount := List.count_pos_iff.2 hagain.2
      rw [hkeys, List.count_append, List.count_cons_self]
      omega
    · next hnew =>
      have hrest := ih (before ++ [e]) (count_concat_le hbefore hnew)
      rw [List.append_assoc, List.singleton_append] at hrest
      exact hrest

/-! ## Finished properties -/

/-- What a value, if there is one, says as content: null says nothing, a text itself, and any other
value its JSON text. -/
structure SaidBy (given : Option Value) (content : Option String) : Prop where
  missing : given = none → content = none
  null : given = some .null → content = none
  text : ∀ s, given = some (.text s) → content = some s
  other : ∀ v, given = some v → v.isNull = false → v.text? = none → content = some v.compact

theorem saidBy_contentOf (given : Option Value) : SaidBy given (given.bind contentOf) := by
  refine ⟨?_, ?_, ?_, ?_⟩
  · rintro rfl
    rfl
  · rintro rfl
    rfl
  · rintro s rfl
    rfl
  · rintro v rfl hnull htext
    cases v with
    | null => cases hnull
    | text => cases htext
    | _ => rfl

/-- The content properties by their keys. -/
def Props.contents (p : Props) : List (String × Option String) :=
  [("text", p.text), ("placeholder", p.placeholder), ("source", p.source), ("url", p.url),
    ("onPress", p.onPress)]

/-- Properties that keep what the members of an object say. -/
structure Props.Keeps (p : Props) (es : Entries) : Prop where
  contents : ∀ e ∈ p.contents, SaidBy (es.lookup e.1) e.2
  shorthands : ∀ s, p.stored s = (es.lookup s.key).filter (!·.isNull)
  style_object : ∀ entries, es.lookup "style" = some (.object entries) → p.style.entries = entries
  style_other : (∀ entries, es.lookup "style" ≠ some (.object entries)) → p.style.entries = []
  extra_keys : p.extra.entries.keys = (es.keys.filter (· ∉ propKeys)).eraseDups
  extra_values : ∀ key ∉ propKeys, p.extra.get? key = es.reverse.lookup key

theorem getD_map_none {β : Type} (x : Option α) (f : α → Option β) : (x.map f).getD none = x.bind f := by
  cases x <;> rfl

theorem bind_notNull (x : Option Value) : x.bind notNull = x.filter (!·.isNull) := by
  cases x with
  | none => rfl
  | some v => cases v <;> rfl

theorem keeps_finish_of {es : Entries} (hkeyed : ∀ e ∈ es, e.2.Keyed) :
    (PropsDraft.of es).finish.Keeps es where
  contents := by
    simp only [Props.contents, PropsDraft.finish, PropsDraft.of, getD_map_none, List.forall_mem_cons,
      List.not_mem_nil, false_implies, implies_true, and_true]
    exact ⟨saidBy_contentOf _, saidBy_contentOf _, saidBy_contentOf _, saidBy_contentOf _,
      saidBy_contentOf _⟩
  shorthands s := by
    rw [← bind_notNull]
    cases s <;> exact getD_map_none _ _
  style_object entries h := by
    obtain ⟨before, after, hes, -⟩ := List.lookup_eq_some_iff.1 h
    have hobject := hkeyed ("style", .object entries) (by simp [hes])
    rw [Value.Keyed] at hobject
    simp only [PropsDraft.finish, PropsDraft.of, h, Option.map_some, Option.getD_some, styleOf_object]
    exact congrArg Members.entries (ofEntries_entries ⟨entries, hobject.1⟩)
  style_other h := by
    simp only [PropsDraft.finish, PropsDraft.of]
    cases hgiven : es.lookup "style" with
    | none => rfl
    | some v =>
      cases v with
      | object entries => exact absurd hgiven (h entries)
      | _ => rfl
  extra_keys := by
    have hkeys := Members.keys_ofEntries (es.filter (·.1 ∉ propKeys))
    have hfilter : Entries.keys (es.filter (·.1 ∉ propKeys)) = es.keys.filter (· ∉ propKeys) := by
      rw [Entries.keys, Entries.keys, List.filter_map]
      rfl
    rw [hfilter] at hkeys
    exact hkeys
  extra_values key hkey := by
    have hget := Members.get?_ofEntries (es.filter (·.1 ∉ propKeys)) key
    have hlast := Json.Entries.lookup_filter (p := (· ∉ propKeys)) (by simpa using hkey) es.reverse
    rw [← List.filter_reverse, hlast] at hget
    exact hget

/-- Wherever an object is read as a value, properties are read from its members `es` too, if none of
their keys comes twice there, and they keep all that the members say. Otherwise a key that comes
twice is refused. -/
theorem props_of_object {room : Nat} {c behind : Cursor} {entries : Entries}
    (hread : Json.value room c = .ok (.object entries, behind)) :
    ∃ es, Json.members room c = .ok (es, behind) ∧ (Members.ofEntries es).entries = entries ∧
      ((∀ key ∈ propKeys, es.keys.count key ≤ 1) →
        ∃ p, propsRecord.decoder room c = .ok (p, behind) ∧ p.Keeps es) ∧
      ((∃ key ∈ propKeys, 1 < es.keys.count key) →
        ∃ key ∈ propKeys, 1 < es.keys.count key ∧
          ∃ offset, propsRecord.decoder room c = .error ⟨.repeatedField key, offset⟩) := by
  obtain ⟨es, hmembers, hentries, hfollows⟩ := Json.exists_members_eq_ok hread
  have hdraft := hfollows follows_props
  have hempty : ∀ key ∈ propKeys, (Entries.keys []).count key ≤ 1 := fun _ _ => Nat.zero_le 1
  refine ⟨es, hmembers, hentries, fun honce => ?_, fun ⟨again, hagain, hcount⟩ => ?_⟩
  · obtain ⟨-, hfold⟩ | ⟨key, hkey, hcount, -⟩ := foldlM_putOnce es [] hempty
    · rw [hfold] at hdraft
      exact ⟨_, Record.decoder_eq_ok_iff.2 ⟨_, hdraft, rfl⟩,
        keeps_finish_of (Json.members_gives hmembers)⟩
    · exact absurd (honce key hkey) (Nat.not_le.2 hcount)
  · obtain ⟨honce, -⟩ | ⟨key, hkey, hcount', hfold⟩ := foldlM_putOnce es [] hempty
    · exact absurd (honce again hagain) (Nat.not_le.2 hcount)
    · rw [hfold] at hdraft
      obtain ⟨offset, hfault⟩ := hdraft
      refine ⟨key, hkey, hcount', offset, ?_⟩
      rw [Record.decoder_eq, hfault]
      rfl

/-- A list as content, a shorthand that is null, and a key without a meaning that comes twice. -/
theorem props_of_object_mixed :
    let c := Cursor.start (Text.glyphsOfString
      "\x7b\"text\": [1, true], \"z\": \"a\", \"color\": null, \"z\": \"b\"\x7d")
    let items : Value := .list [.number (.ofUInt32 1), .bool true]
    let es : Entries := [("text", items), ("z", .text "a"), ("color", .null), ("z", .text "b")]
    Json.value Json.startRoom c =
        .ok (.object [("text", items), ("z", .text "b"), ("color", .null)], ⟨[], 54⟩) ∧
      (∀ key ∈ propKeys, es.keys.count key ≤ 1) ∧
      ∃ p, propsRecord.decoder Json.startRoom c = .ok (p, ⟨[], 54⟩) ∧ p.Keeps es ∧
        p.text = some "[1,true]" ∧ p.color = none ∧ p.extra.get? "z" = some (.text "b") := by
  intro c items es
  have hread : Json.value Json.startRoom c =
      .ok (.object [("text", items), ("z", .text "b"), ("color", .null)], ⟨[], 54⟩) := by
    dsimp only [c, items]
    rfl
  have hmembers : Json.members Json.startRoom c = .ok (es, ⟨[], 54⟩) := by
    dsimp only [c, items, es]
    rfl
  have honce : ∀ key ∈ propKeys, es.keys.count key ≤ 1 := by decide
  obtain ⟨es', hes, -, hprops, -⟩ := props_of_object hread
  have heq : es' = es := (Prod.mk.inj (Except.ok.inj (hes.symm.trans hmembers))).1
  rw [heq] at hprops
  obtain ⟨p, hp, hkeeps⟩ := hprops honce
  have hcompact : items.compact = "[1,true]" := by decide +kernel
  have htext := hkeeps.contents ("text", p.text) (by simp [Props.contents])
  have hcontent : p.text = some items.compact := htext.other items rfl rfl rfl
  rw [hcompact] at hcontent
  exact ⟨hread, honce, p, hp, hkeeps, hcontent, hkeeps.shorthands .color,
    hkeeps.extra_values "z" (by decide)⟩

end AppExport.Component
