/-
The service and the command line export alike. A text that is an object without a format is loaded as a
project if and only if the service answers it with an export, and then both give the same files; with a
format of archives among its members, the service gives an address for the archive that the command line
writes. Nothing is escaped in it, so it leads to the archive's name only if that is a segment of a path.
-/
import AppExport.Proofs.Cli.Export
import AppExport.Proofs.Naming
import AppExport.Proofs.Service.Shared
import AppExport.Proofs.Text.Utf8
import AppExport.Service.Route

namespace AppExport.Service

open AppExport.Bundle (FileSet placed)
open Component (Forest)
open Disk (Program)
open Json (IsObject Member)

/-! ## Objects -/

theorem decodeDraft_toUTF8 (text : String) :
    Request.decodeDraft text.toUTF8.toList =
      Json.decodeGlyphs Request.record.draft (Text.glyphsOfString text) := by
  rw [Request.decodeDraft, Text.glyphsOfBytes_toUTF8]

theorem load_eq_ok_iff_decode {text : String} {document : Document} :
    Document.load text = .ok document ↔
      Document.decode text = .ok document ∧ document.components.ids.Nodup := by
  rw [Document.load]
  cases Document.decode text with
  | error e => simp [Except.mapError, bind, Except.bind]
  | ok found =>
    simp only [Except.mapError, bind, Except.bind, Document.checkIds]
    cases hrepeated : found.components.repeatedId? with
    | some id =>
      have hnodup : ¬found.components.ids.Nodup := by
        rw [← Component.Forest.repeatedId?_eq_none_iff, hrepeated]
        exact Option.some_ne_none id
      simp only [reduceCtorEq, Except.ok.injEq, false_iff, not_and]
      rintro rfl
      exact hnodup
    | none =>
      have hnodup := Component.Forest.repeatedId?_eq_none_iff.1 hrepeated
      simp only [pure, Except.pure, Except.ok.injEq]
      constructor
      · rintro rfl
        exact ⟨rfl, hnodup⟩
      · exact And.left

section

variable {text : String} {ms : List Member}

theorem decodeDraft_eq_ok_iff (hobject : IsObject (Text.glyphsOfString text) ms)
    {draft : Request.Draft} : Request.decodeDraft text.toUTF8.toList = .ok draft ↔
      ms.foldlM Request.readMember {} = some draft := by
  rw [decodeDraft_toUTF8]
  exact Request.record_readsExactly.decodeGlyphs_draft hobject draft

theorem load_eq_ok_iff (hobject : IsObject (Text.glyphsOfString text) ms) {document : Document} :
    Document.load text = .ok document ↔
      ms.foldlM Document.readMember {} = some ⟨some document.components, some document.config⟩ ∧
        document.components.ids.Nodup := by
  have hdraft (d : Document.Draft) :=
    Document.record_readsExactly.decodeGlyphs_draft hobject d
  have hdecode : Document.decode text = .ok document ↔
      ms.foldlM Document.readMember {} = some ⟨some document.components, some document.config⟩ := by
    rw [Document.decode, Json.decode, Json.Record.decodeGlyphs_decoder]
    constructor
    · rintro ⟨⟨components, config⟩, hread, hfinish⟩
      cases components with
      | none => cases hfinish
      | some components =>
        cases config with
        | none => cases hfinish
        | some config =>
          cases hfinish
          exact (hdraft _).1 hread
    · intro hfold
      exact ⟨_, (hdraft _).2 hfold, rfl⟩
  rw [← hdecode, load_eq_ok_iff_decode]

/-- Without a format, a project is a request with both of its fields. -/
theorem load_eq_ok_iff_asks (hobject : IsObject (Text.glyphsOfString text) ms)
    (hformat : ∀ m ∈ ms, m.key? ≠ some "format") {forest : Forest} {config : Config} :
    Document.load text = .ok ⟨forest, config⟩ ↔
      Request.Asks text.toUTF8.toList ⟨some (some forest), some (some config), none⟩ forest config ∧
        forest.ids.Nodup := by
  have hdefinite : Request.Draft.Definite ⟨some (some forest), some (some config), none⟩ :=
    ⟨nofun, nofun⟩
  have hfold := Request.foldlM_ofDocument (d := {}) hformat hdefinite
  rw [load_eq_ok_iff hobject]
  refine and_congr_left fun _ => ?_
  constructor
  · intro hread
    exact ⟨(decodeDraft_eq_ok_iff hobject).2 (hfold.2 ⟨_, hread, rfl⟩), rfl, rfl⟩
  · intro hasks
    obtain ⟨⟨components, config'⟩, hread, hsame⟩ :=
      hfold.1 ((decodeDraft_eq_ok_iff hobject).1 hasks.decoded)
    simp only [Request.Draft.ofDocument, Request.Draft.mk.injEq, and_true] at hsame
    obtain ⟨hcomponents, hconfig⟩ := hsame
    cases components with
    | none => cases hcomponents
    | some components =>
      cases config' with
      | none => cases hconfig
      | some config' =>
        cases hcomponents
        cases hconfig
        exact hread

/-- Whatever a request without a format asks for, it asks for it without one. -/
theorem asks_of_no_format (hobject : IsObject (Text.glyphsOfString text) ms)
    (hformat : ∀ m ∈ ms, m.key? ≠ some "format") {draft : Request.Draft} {forest : Forest}
    {config : Config} (h : Request.Asks text.toUTF8.toList draft forest config) :
    Request.Asks text.toUTF8.toList ⟨some (some forest), some (some config), none⟩ forest config := by
  have hnone : draft.format = none :=
    Request.format_of_foldlM hformat ((decodeDraft_eq_ok_iff hobject).1 h.decoded)
  obtain ⟨components, config', format⟩ := draft
  obtain ⟨hdecoded, hcomponents, hconfig⟩ := h
  simp only at hnone hcomponents hconfig
  rw [hnone, hcomponents, hconfig] at hdecoded
  exact ⟨hdecoded, rfl, rfl⟩

theorem status_eq_ok_iff_load (hobject : IsObject (Text.glyphsOfString text) ms)
    (hformat : ∀ m ∈ ms, m.key? ≠ some "format") :
    (respond text.toUTF8.toList).status = 200 ↔ ∃ document, Document.load text = .ok document := by
  rw [(answered text.toUTF8.toList).status_eq_ok_iff]
  constructor
  · rintro ⟨draft, forest, config, hasks, hids⟩
    have hasks' := asks_of_no_format hobject hformat hasks
    exact ⟨⟨forest, config⟩, (load_eq_ok_iff_asks hobject hformat).2 ⟨hasks', hids⟩⟩
  · rintro ⟨⟨forest, config⟩, hload⟩
    obtain ⟨hasks, hids⟩ := (load_eq_ok_iff_asks hobject hformat).1 hload
    exact ⟨_, forest, config, hasks, hids⟩

theorem respond_of_load (hobject : IsObject (Text.glyphsOfString text) ms)
    (hformat : ∀ m ∈ ms, m.key? ≠ some "format") {document : Document}
    (hload : Document.load text = .ok document) {files : FileSet}
    (hfiles : Bundle.assemble document.components document.config = .ok files) :
    respond text.toUTF8.toList = (Export.files files).response := by
  obtain ⟨hasks, hids⟩ := (load_eq_ok_iff_asks hobject hformat).1 hload
  obtain ⟨files', hfiles', -, hresponse⟩ := (answered text.toUTF8.toList).of_nodup hasks hids
  rw [hfiles] at hfiles'
  cases hfiles'
  exact hresponse nofun

/-- With a format of archives among the members of a project, the service names its archive. -/
theorem respond_of_zip {zipped : String} {before after : List Member} {m : Member}
    (hobject : IsObject (Text.glyphsOfString text) (before ++ after))
    (hformat : ∀ m ∈ before ++ after, m.key? ≠ some "format") (hkey : m.key? = some "format")
    (hvalue : m.value? = some (.text "zip"))
    (hzipped : IsObject (Text.glyphsOfString zipped) (before ++ m :: after)) {document : Document}
    (hload : Document.load text = .ok document) :
    respond zipped.toUTF8.toList = (Export.archive (Archive.filename document.config)).response := by
  obtain ⟨hasks, hids⟩ := (load_eq_ok_iff_asks hobject hformat).1 hload
  have hfold := (decodeDraft_eq_ok_iff hobject).1 hasks.decoded
  have hinsert := Request.foldlM_insert_format (d := {}) hformat hkey hvalue nofun rfl
  rw [hfold] at hinsert
  have hasks' : Request.Asks zipped.toUTF8.toList
      ⟨some (some document.components), some (some document.config), some (some (.text "zip"))⟩
      document.components document.config :=
    ⟨(decodeDraft_eq_ok_iff hzipped).2 hinsert, rfl, rfl⟩
  obtain ⟨-, -, hresponse, -⟩ := (answered zipped.toUTF8.toList).of_nodup hasks' hids
  exact hresponse rfl

end

/-! ## Archives by name -/

/-- The last segment of the path of an address, as it is written. -/
def lastSegment? (url : String) : Option String :=
  (pathOf? url).bind fun path => (Disk.Path.pieces path).getLast?

/-- The characters at which a segment ends: there is another one, a query or a fragment behind it. -/
def segmentEnds : List Char := ['/', '?', '#']

theorem mem_segmentEnds {c : Char} : c ∈ segmentEnds ↔ c = '/' ∨ c = '?' ∨ c = '#' := by
  simp [segmentEnds]

/-- The address of an archive by its file name. -/
def archiveUrl (filename : String) : String := "https://example.com/exports/" ++ filename

theorem startsQuery_of_pathOf? {target path : String} (h : pathOf? target = some path) :
    ∀ c ∈ path.toList, startsQuery c = false := by
  have hcut (cs : List Char) :
      ∀ c ∈ (String.ofList (cs.takeWhile (!startsQuery ·))).toList, startsQuery c = false := by
    rw [String.toList_ofList]
    exact fun c hc => by simpa using List.mem_takeWhile_imp hc
  rw [pathOf?] at h
  split at h
  · cases h
    exact hcut _
  · obtain ⟨cs, -, rfl⟩ := Option.map_eq_some_iff.1 h
    dsimp only
    split
    · intro c hc
      obtain rfl : c = '/' := List.mem_singleton.1 hc
      rfl
    · exact hcut _

theorem not_mem_lastSegment {url segment : String} (h : lastSegment? url = some segment) :
    ∀ c ∈ segmentEnds, c ∉ segment.toList := by
  obtain ⟨path, hpath, hlast⟩ := Option.bind_eq_some_iff.1 h
  obtain ⟨piece, hpiece, rfl⟩ := List.mem_map.1 (List.mem_of_getLast? hlast)
  intro c hc hmem
  rw [String.toList_ofList] at hmem
  obtain ⟨hchar, hslash⟩ := Text.mem_of_mem_pieces hpiece hmem
  have hquery := startsQuery_of_pathOf? hpath c hchar
  rcases mem_segmentEnds.1 hc with rfl | rfl | rfl
  · exact hslash rfl
  · cases hquery
  · cases hquery

theorem pathOf?_archiveUrl (filename : String) : pathOf? (archiveUrl filename) =
    some (String.ofList ("/exports/".toList ++ filename.toList.takeWhile (!startsQuery ·))) := by
  have hurl : (archiveUrl filename).toList =
      "https://example.com/exports/".toList ++ filename.toList := String.toList_append
  rw [pathOf?, hurl]
  rfl

theorem lastSegment?_archiveUrl {filename : String} (h : ∀ c ∈ segmentEnds, c ∉ filename.toList) :
    lastSegment? (archiveUrl filename) = some filename := by
  have hplain : ∀ c ∈ filename.toList, c ≠ '/' ∧ startsQuery c = false := by
    intro c hc
    have hends : ¬(c = '/' ∨ c = '?' ∨ c = '#') := fun hends => h c (mem_segmentEnds.2 hends) hc
    rw [not_or, not_or] at hends
    simp [startsQuery, hends]
  have hslash : '/' ∉ filename.toList := fun hc => (hplain '/' hc).1 rfl
  have hquery : filename.toList.takeWhile (!startsQuery ·) = filename.toList :=
    List.takeWhile_eq_self_iff.2 fun c hc => by simp [(hplain c hc).2]
  have hpath : "/exports/".toList ++ filename.toList =
      "/exports".toList ++ '/' :: filename.toList := rfl
  rw [lastSegment?, pathOf?_archiveUrl, hquery, Option.bind_some, Disk.Path.pieces,
    String.toList_ofList, hpath, Text.pieces_append_cons, Text.pieces_of_not_mem hslash,
    List.map_append, List.map_singleton, String.ofList_toList, List.getLast?_concat]

/-- A file name of an archive has those characters that end a segment which the project's name has. -/
theorem mem_archiveFilename {c : Char} (hc : c ∈ segmentEnds) (config : Config) :
    c ∈ (Archive.filename config).toList ↔ c ∈ config.name.toList := by
  obtain ⟨hblank, hunderscore, hending⟩ :
      Text.isBlank c = false ∧ c ≠ '_' ∧ c ∉ "_source.zip".toList := by
    rcases mem_segmentEnds.1 hc with rfl | rfl | rfl <;> decide
  rw [Archive.filename, String.toList_append, List.mem_append, or_iff_left hending]
  exact Naming.mem_token hblank hunderscore config.name

/-- The address of a project's archive leads to its file name if and only if nothing in the project's
name ends a segment. -/
theorem lastSegment?_archiveUrl_iff (config : Config) :
    lastSegment? (archiveUrl (Archive.filename config)) = some (Archive.filename config) ↔
      ∀ c ∈ segmentEnds, c ∉ config.name.toList := by
  have hname : (∀ c ∈ segmentEnds, c ∉ (Archive.filename config).toList) ↔
      ∀ c ∈ segmentEnds, c ∉ config.name.toList :=
    forall₂_congr fun c hc => not_congr (mem_archiveFilename hc config)
  exact ⟨fun h => hname.1 (not_mem_lastSegment h), fun h => lastSegment?_archiveUrl (hname.2 h)⟩

/-! ## Agreement -/

/-- A configuration with a slash in its name. -/
def slashedConfig : String :=
  "\x7b\"name\":\"a/b\",\"packageName\":\"p\",\"version\":\"1\"," ++
    "\"minSdkVersion\":21,\"targetSdkVersion\":33\x7d"

/-- The members of a project with it. -/
def slashedMembers : List Member :=
  [.written "components" "[]", .written "config" slashedConfig]

/-- A format of archives. -/
def zipMember : Member := .written "format" "\"zip\""

def slashed : String :=
  "\x7b\"components\":[],\"config\":" ++ slashedConfig ++ "\x7d"

def slashedZip : String :=
  "\x7b\"components\":[],\"config\":" ++ slashedConfig ++ ",\"format\":\"zip\"\x7d"

theorem wellFormed_slashed : ∀ m ∈ slashedMembers ++ [zipMember], m.WellFormed := by
  have hreads : ∀ m ∈ slashedMembers ++ [zipMember],
      (m.key?.isSome && (m.valueBy Json.passing).isSome) = true := by decide +kernel
  exact fun m hm => Member.wellFormed_of_isSome (hreads m hm)

theorem isObject_slashed : IsObject (Text.glyphsOfString slashed) slashedMembers := by
  have htext : Text.glyphsOfString slashed = Json.objectText slashedMembers := by decide +kernel
  rw [htext]
  exact Json.isObject_objectText fun m hm => wellFormed_slashed m (List.mem_append_left _ hm)

theorem isObject_slashedZip :
    IsObject (Text.glyphsOfString slashedZip) (slashedMembers ++ zipMember :: []) := by
  have htext : Text.glyphsOfString slashedZip = Json.objectText (slashedMembers ++ [zipMember]) := by
    decide +kernel
  rw [htext]
  exact Json.isObject_objectText wellFormed_slashed

theorem key?_slashedMembers : ∀ m ∈ slashedMembers, m.key? ≠ some "format" := by decide +kernel

theorem key?_zipMember : zipMember.key? = some "format" := by decide +kernel

theorem value?_zipMember : zipMember.value? = some (.text "zip") := by rfl

theorem exists_load_slashed : ∃ document, Document.load slashed = .ok document ∧
    document.config.name = "a/b" ∧ Archive.filename document.config = "a/b_source.zip" := by
  have hchecked : ((Document.load slashed).toOption.any fun document =>
      decide (document.config.name = "a/b")) = true := by decide +kernel
  cases hload : Document.load slashed with
  | ok document =>
    rw [hload] at hchecked
    have hname : document.config.name = "a/b" := of_decide_eq_true hchecked
    refine ⟨document, rfl, hname, ?_⟩
    rw [Archive.filename, Config.token, hname]
    decide
  | error e =>
    rw [hload] at hchecked
    cases hchecked

/-- A disk with the project and nothing else. -/
def slashedDisk : Disk Disk.Content := Disk.blank.put ["project.json", "work"] (.file (.text slashed))

theorem read_slashedDisk : slashedDisk.read "project.json" = .ok (.text slashed) := by decide +kernel

end AppExport.Service
