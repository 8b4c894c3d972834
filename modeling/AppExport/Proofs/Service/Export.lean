/-
Which answer a request gets. A body that does not decode, one without components or a configuration,
one with a repeated id, and any other get one answer each, in this order; assembling the app does
not fail, so the last always exports it.
-/
import AppExport.Proofs.Bundle.Assemble
import AppExport.Proofs.Component.Identity
import AppExport.Proofs.Json.Draft
import AppExport.Service.Export

namespace AppExport.Service

open AppExport.Bundle (FileSet assemble_eq)
open Component (FirstRepeat Forest)
open Json (DecodeError Value)

variable {body : List UInt8}

/-! ## Requests -/

namespace Request

/-- The fields that a body gives. -/
def decodeDraft (body : List UInt8) : Except DecodeError Draft :=
  Json.decodeGlyphs record.draft (Text.glyphsOfBytes body)

/-- The request that a draft makes. -/
def Draft.request (d : Draft) : Request where
  components := d.components.getD none
  config := d.config.getD none
  format := ((d.format.getD none).map Format.ofValue).getD .files

theorem decode_eq_map_request (body : List UInt8) :
    decode body = (decodeDraft body).map Draft.request :=
  Json.decodeGlyphs_map (Json.Record.decoder_eq_of_total fun _ => rfl) _

/-- Whether a field is absent or null. -/
def Lacks {α : Type} (field : Option (Option α)) : Prop := field = none ∨ field = some none

theorem lacks_iff {α : Type} {field : Option (Option α)} : Lacks field ↔ field.getD none = none := by
  rcases field with _ | _ | a <;> simp [Lacks]

theorem decode_of_draft {draft : Draft} (h : decodeDraft body = .ok draft) :
    decode body = .ok draft.request := by
  rw [decode_eq_map_request, h, Except.map]

theorem decode_eq_error_iff {e : DecodeError} :
    decode body = .error e ↔ decodeDraft body = .error e := by
  rw [decode_eq_map_request]
  cases decodeDraft body <;> simp [Except.map]

theorem format_request_eq_zip_iff {d : Draft} :
    d.request.format = .zip ↔ d.format = some (some (.text "zip")) := by
  rcases hformat : d.format with _ | _ | v
  · simp [Draft.request, hformat]
  · simp [Draft.request, hformat]
  · cases v <;> simp [Draft.request, hformat, Format.ofValue]

/-- A body whose fields include a forest and a configuration. -/
structure Asks (body : List UInt8) (draft : Draft) (forest : Forest) (config : Config) : Prop where
  decoded : decodeDraft body = .ok draft
  components : draft.components = some (some forest)
  config : draft.config = some (some config)

theorem Asks.decode {draft : Draft} {forest : Forest} {config : Config}
    (h : Asks body draft forest config) :
    decode body = .ok ⟨some forest, some config, draft.request.format⟩ := by
  rw [decode_of_draft h.decoded, Draft.request, h.components, h.config, Option.getD_some,
    Option.getD_some]

theorem lacks_or_asks {draft : Draft} (h : decodeDraft body = .ok draft) :
    (Lacks draft.components ∨ Lacks draft.config) ∨
      ∃ forest config, Asks body draft forest config := by
  rcases hcomponents : draft.components with _ | _ | forest
  · exact .inl (.inl (.inl rfl))
  · exact .inl (.inl (.inr rfl))
  · rcases hconfig : draft.config with _ | _ | config
    · exact .inl (.inr (.inl rfl))
    · exact .inl (.inr (.inr rfl))
    · exact .inr ⟨forest, config, h, hcomponents, hconfig⟩

theorem Asks.not_lacks {draft draft' : Draft} {forest : Forest} {config : Config}
    (h : Asks body draft forest config) (h' : decodeDraft body = .ok draft') :
    ¬(Lacks draft'.components ∨ Lacks draft'.config) := by
  obtain rfl : draft' = draft := Except.ok.inj (h'.symm.trans h.decoded)
  rw [lacks_iff, lacks_iff, h.components, h.config]
  exact nofun

theorem Asks.unique {draft draft' : Draft} {forest forest' : Forest} {config config' : Config}
    (h : Asks body draft forest config) (h' : Asks body draft' forest' config') :
    draft' = draft ∧ forest' = forest ∧ config' = config := by
  obtain rfl : draft' = draft := Except.ok.inj (h'.decoded.symm.trans h.decoded)
  have hforest := h'.components.symm.trans h.components
  have hconfig := h'.config.symm.trans h.config
  simp only [Option.some.injEq] at hforest hconfig
  exact ⟨rfl, hforest, hconfig⟩

end Request

/-! ## Outcomes -/

theorem outcome_of_error {e : DecodeError} (h : Request.decode body = .error e) :
    outcome body = .error (.malformed e) := by
  rw [outcome, h]
  rfl

/-- What answers a request that has been decoded. -/
def answer (request : Request) : Except Refusal Export :=
  match request.components, request.config with
  | some forest, some config => do
    (Document.checkIds forest).mapError .components
    let files ← (Bundle.assemble forest config).mapError .assembly
    match request.format with
    | .zip => return .archive (Archive.filename config)
    | .files => return .files files
  | _, _ => .error .incomplete

theorem outcome_of_ok {request : Request} (h : Request.decode body = .ok request) :
    outcome body = answer request := by
  rw [outcome, h]
  rfl

theorem answer_of_lacks {request : Request}
    (h : request.components = none ∨ request.config = none) :
    answer request = .error .incomplete := by
  rw [answer]
  rcases h with h | h
  · rw [h]
  · rw [h]
    cases request.components <;> rfl

theorem answer_of_repeats {forest : Forest} {id : String} (h : FirstRepeat id forest.ids)
    (config : Config) (format : Format) :
    answer ⟨some forest, some config, format⟩ = .error (.components (.repeatedId id)) := by
  have hcheck : Document.checkIds forest = .error (.repeatedId id) := by
    rw [Document.checkIds, Component.Forest.repeatedId?_eq_some_iff.2 h]
  simp only [answer, hcheck, Except.mapError, bind, Except.bind]

theorem answer_of_nodup {forest : Forest} (h : forest.ids.Nodup) {config : Config}
    {files : FileSet} (hfiles : Bundle.assemble forest config = .ok files) (format : Format) :
    answer ⟨some forest, some config, format⟩ =
      match format with
      | .zip => .ok (.archive (Archive.filename config))
      | .files => .ok (.files files) := by
  have hcheck : Document.checkIds forest = .ok () := by
    rw [Document.checkIds, Component.Forest.repeatedId?_eq_none_iff.2 h]
  rw [answer]
  dsimp only
  rw [hcheck, hfiles]
  cases format <;> rfl

/-! ## Responses -/

/-- The answer to a body, with why it gets that one. -/
inductive Answered (body : List UInt8) : Response → Prop
  | malformed {e : DecodeError} (hdecode : Request.decodeDraft body = .error e) :
    Answered body (Refusal.malformed e).response
  | incomplete {draft : Request.Draft} (hdecode : Request.decodeDraft body = .ok draft)
    (hlacks : Request.Lacks draft.components ∨ Request.Lacks draft.config) :
    Answered body Refusal.incomplete.response
  | repeated {draft : Request.Draft} {forest : Forest} {config : Config} {id : String}
    (hasks : Request.Asks body draft forest config) (hid : FirstRepeat id forest.ids) :
    Answered body (Refusal.components (.repeatedId id)).response
  | archive {draft : Request.Draft} {forest : Forest} {config : Config}
    (hasks : Request.Asks body draft forest config) (hids : forest.ids.Nodup)
    (hformat : draft.format = some (some (.text "zip"))) :
    Answered body (Export.archive (Archive.filename config)).response
  | files {draft : Request.Draft} {forest : Forest} {config : Config} {files : FileSet}
    (hasks : Request.Asks body draft forest config) (hids : forest.ids.Nodup)
    (hformat : draft.format ≠ some (some (.text "zip")))
    (hfiles : Bundle.assemble forest config = .ok files) :
    Answered body (Export.files files).response

theorem answered (body : List UInt8) : Answered body (respond body) := by
  cases hdecode : Request.decodeDraft body with
  | error e =>
    rw [respond, outcome_of_error (Request.decode_eq_error_iff.2 hdecode)]
    exact .malformed hdecode
  | ok draft =>
    rcases Request.lacks_or_asks hdecode with hlacks | ⟨forest, config, hasks⟩
    · have hmissing := hlacks.imp Request.lacks_iff.1 Request.lacks_iff.1
      rw [respond, outcome_of_ok (Request.decode_of_draft hdecode), answer_of_lacks hmissing]
      exact .incomplete hdecode hlacks
    · rw [respond, outcome_of_ok hasks.decode]
      cases hrepeated : forest.repeatedId? with
      | some id =>
        have hid := Component.Forest.repeatedId?_eq_some_iff.1 hrepeated
        rw [answer_of_repeats hid]
        exact .repeated hasks hid
      | none =>
        have hids := Component.Forest.repeatedId?_eq_none_iff.1 hrepeated
        rw [answer_of_nodup hids (assemble_eq forest config)]
        cases hformat : draft.request.format with
        | zip => exact .archive hasks hids (Request.format_request_eq_zip_iff.1 hformat)
        | files =>
          refine .files hasks hids (fun hzip => ?_) (assemble_eq forest config)
          rw [Request.format_request_eq_zip_iff.2 hzip] at hformat
          cases hformat

/-- What a response says has gone wrong, if it says so. -/
def Response.error? (r : Response) : Option String :=
  match r.body with
  | .object ((_, .text error) :: _) => some error
  | _ => none

/-- What a response says about what has gone wrong, if it does. -/
def Response.details? (r : Response) : Option String :=
  match r.body with
  | .object [_, (_, .text details)] => some details
  | _ => none

theorem Refusal.error?_response : ∀ refusal : Refusal, refusal.response.error? =
    match refusal with
    | malformed _ => some "Invalid request body"
    | incomplete => some "Missing components or config"
    | components _ => some "Invalid components"
    | assembly _ => some "Export failed"
  | malformed _ | incomplete | components _ | assembly _ => rfl

theorem Export.error?_response : ∀ e : Export, e.response.error? = none
  | files _ | archive _ => rfl

theorem Answered.of_error {r : Response} {e : DecodeError} (h : Answered body r)
    (hdecode : Request.decodeDraft body = .error e) : r = (Refusal.malformed e).response := by
  cases h with
  | malformed hdecode' => rw [Except.error.inj (hdecode'.symm.trans hdecode)]
  | incomplete hdecode' => cases hdecode'.symm.trans hdecode
  | repeated hasks | archive hasks | files hasks => cases hasks.decoded.symm.trans hdecode

theorem Answered.of_lacks {r : Response} {draft : Request.Draft} (h : Answered body r)
    (hdecode : Request.decodeDraft body = .ok draft)
    (hlacks : Request.Lacks draft.components ∨ Request.Lacks draft.config) :
    r = Refusal.incomplete.response := by
  cases h with
  | malformed hdecode' => cases hdecode'.symm.trans hdecode
  | incomplete => rfl
  | repeated hasks | archive hasks | files hasks => exact absurd hlacks (hasks.not_lacks hdecode)

theorem Answered.of_repeats {r : Response} {draft : Request.Draft} {forest : Forest}
    {config : Config} {id : String} (h : Answered body r)
    (hasks : Request.Asks body draft forest config) (hid : FirstRepeat id forest.ids) :
    r = (Refusal.components (.repeatedId id)).response := by
  cases h with
  | malformed hdecode => cases hdecode.symm.trans hasks.decoded
  | incomplete hdecode hlacks => exact absurd hlacks (hasks.not_lacks hdecode)
  | repeated hasks' hid' =>
    obtain ⟨rfl, rfl, rfl⟩ := hasks.unique hasks'
    rw [hid.unique hid']
  | archive hasks' hids | files hasks' hids =>
    obtain ⟨rfl, rfl, rfl⟩ := hasks.unique hasks'
    exact absurd hids hid.not_nodup

theorem Answered.of_nodup {r : Response} {draft : Request.Draft} {forest : Forest}
    {config : Config} (h : Answered body r) (hasks : Request.Asks body draft forest config)
    (hids : forest.ids.Nodup) :
    ∃ files, Bundle.assemble forest config = .ok files ∧
      (draft.format = some (some (.text "zip")) →
        r = (Export.archive (Archive.filename config)).response) ∧
      (draft.format ≠ some (some (.text "zip")) → r = (Export.files files).response) := by
  cases h with
  | malformed hdecode => cases hdecode.symm.trans hasks.decoded
  | incomplete hdecode hlacks => exact absurd hlacks (hasks.not_lacks hdecode)
  | repeated hasks' hid =>
    obtain ⟨rfl, rfl, rfl⟩ := hasks.unique hasks'
    exact absurd hids hid.not_nodup
  | archive hasks' _ hformat =>
    obtain ⟨rfl, rfl, rfl⟩ := hasks.unique hasks'
    exact ⟨_, assemble_eq _ _, fun _ => rfl, fun hne => absurd hformat hne⟩
  | files hasks' _ hformat hfiles =>
    obtain ⟨rfl, rfl, rfl⟩ := hasks.unique hasks'
    exact ⟨_, hfiles, fun heq => absurd heq hformat, fun _ => rfl⟩

theorem Answered.status_eq_ok_iff {r : Response} (h : Answered body r) :
    r.status = 200 ↔ ∃ draft forest config, Request.Asks body draft forest config ∧
      forest.ids.Nodup := by
  constructor
  · intro hstatus
    cases h with
    | archive hasks hids | files hasks hids => exact ⟨_, _, _, hasks, hids⟩
    | malformed | incomplete | repeated => cases hstatus
  · rintro ⟨draft, forest, config, hasks, hids⟩
    obtain ⟨files, -, hzip, hfiles⟩ := h.of_nodup hasks hids
    by_cases hformat : draft.format = some (some (.text "zip"))
    · rw [hzip hformat, Export.response]
    · rw [hfiles hformat, Export.response]

end AppExport.Service
