/-
Decoding undoes encoding. Whatever text a project was read from, the text it is written as reads
back as the same project, unless its components nest deeper than a reader follows them or a number
in it is one of those that reading rounds to another one.
-/
import AppExport.Document
import AppExport.Proofs.Component.Decoded
import AppExport.Proofs.Config

namespace AppExport

open Json (DecodeError Gives Reads Value)

variable {room : Nat}

theorem Config.nodup_of_finish {draft : Config.Draft} {c : Config} (h : draft.finish = some c) :
    c.permissions.Nodup := by
  simp only [Config.Draft.finish, bind, pure, Option.bind_eq_some_iff, Option.some.injEq] at h
  obtain ⟨name, -, packageName, -, version, -, minSdkVersion, -, targetSdkVersion, -, rfl⟩ := h
  exact List.nodup_eraseDups _

theorem Config.gives : Gives (Config.decoder room) fun c => c.permissions.Nodup := by
  have hkeeps : Config.record.Keeps fun _ => True :=
    ⟨trivial, fun _ _ _ _ _ _ _ _ _ => trivial, fun _ _ _ _ _ _ _ _ _ _ _ => trivial⟩
  intro c config behind hread
  obtain ⟨draft, -, hfinish⟩ := hkeeps.decoder hread
  exact nodup_of_finish hfinish

namespace Document

/-- What holds of every project that is read. -/
structure Canonical (d : Document) : Prop where
  components : Component.Node.AllCanonical d.components
  permissions : d.config.permissions.Nodup

/-- What holds of the fields read so far. -/
structure Draft.Canonical (d : Draft) : Prop where
  components : ∀ nodes, d.components = some nodes → Component.Node.AllCanonical nodes
  permissions : ∀ config, d.config = some config → config.permissions.Nodup

theorem keeps : record.Keeps Draft.Canonical where
  start := by
    refine ⟨fun nodes h => ?_, fun config h => ?_⟩ <;> cases h
  others rule hrule := by cases hrule
  fields field hfield room d h := by
    simp only [record, List.mem_cons, List.not_mem_nil, or_false] at hfield
    rcases hfield with rfl | rfl
    · exact Json.slot_gives Component.forest_gives fun nodes hnodes =>
        ⟨fun _ hs => Option.some.inj hs ▸ hnodes, h.permissions⟩
    · exact Json.slot_gives Config.gives fun config hconfig =>
        ⟨h.components, fun _ hs => Option.some.inj hs ▸ hconfig⟩

theorem gives : Gives (record.decoder room) Canonical := by
  intro c document behind hread
  obtain ⟨⟨components, config⟩, hdraft, hfinish⟩ := keeps.decoder hread
  cases components with
  | none => cases hfinish
  | some nodes =>
    cases config with
    | none => cases hfinish
    | some config =>
      cases hfinish
      exact ⟨hdraft.components nodes rfl, hdraft.permissions config rfl⟩

theorem reads {d : Document} (hcanonical : d.Canonical) (hfits : d.toJson.Fits room) :
    Reads (record.decoder room) d.toJson.chars d := by
  obtain ⟨inner, rfl, hentries⟩ := hfits.of_object
  simp only [List.forall_mem_cons] at hentries
  obtain ⟨hcomponents, hconfig, -⟩ := hentries
  have hfirst := Json.steps_slot record inner {} "components" rfl rfl
    (Component.reads_forest hcanonical.components hcomponents)
  have hsteps := hfirst.append (Json.steps_slot record inner { components := some d.components }
    "config" rfl rfl (Config.reads hcanonical.permissions hconfig))
  rw [← Json.entriesChars_append] at hsteps
  rw [toJson, Value.chars]
  exact Json.reads_record hsteps rfl

/-- A project that has been read from a text reads back from its own text. -/
theorem decode_toJson_of_decode {text : String} {d : Document} (h : decode text = .ok d)
    (hnesting : Json.nesting d.toJson.compact ≤ Json.startRoom)
    (hfloats : ∀ x ∈ d.toJson.floats, x.ReadsBack) : decode d.toJson.compact = .ok d := by
  obtain ⟨_, hread, -⟩ := Json.decode_eq_ok_iff.1 h
  have hcanonical := gives hread
  rw [Json.nesting_compact] at hnesting
  obtain ⟨offset, hagain⟩ := reads hcanonical ⟨hnesting, hfloats⟩ [] 0 Json.stops_nil
  rw [List.append_nil] at hagain
  refine Json.decode_eq_ok_iff.2 ⟨.before [] offset, ?_, rfl⟩
  rw [Value.compact, String.toList_ofList]
  exact hagain

/-- A project as lists of fields, with a kind under a second name and a permission given twice. -/
def listed : String :=
  "[[[\"a\",\"View\",\x7b\"z\":1.5\x7d]],[\"n\",\"p\",\"1\",\"\",null,null," ++
    "[\"a\",\"b\",\"c\",\"d\"],[\"B\",\"B\"],\"both\",1,2]]"

theorem decode_toJson_of_decode_listed : ∃ d, decode listed = .ok d ∧
    d.config.permissions = ["B"] ∧ decode d.toJson.compact = .ok d := by
  have hchecked : ((decode listed).toOption.any fun d => decide (d.config.permissions = ["B"] ∧
      d.toJson.depth ≤ Json.startRoom ∧ ∀ x ∈ d.toJson.floats, x.ReadsBack)) = true := by
    decide +kernel
  cases hdecode : decode listed with
  | error e =>
    rw [hdecode] at hchecked
    cases hchecked
  | ok d =>
    rw [hdecode] at hchecked
    obtain ⟨hpermissions, hdepth, hfloats⟩ := of_decide_eq_true hchecked
    have hnesting : Json.nesting d.toJson.compact ≤ Json.startRoom := by
      rw [Json.nesting_compact]
      exact hdepth
    exact ⟨d, rfl, hpermissions, decode_toJson_of_decode hdecode hnesting hfloats⟩

end Document
end AppExport
