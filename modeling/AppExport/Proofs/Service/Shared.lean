/-
A project and a request to export one are read from the same objects. Without a format, an object makes
a project if and only if it makes a request that has both components and a configuration, and with one
it makes the same request but for the format.
-/
import AppExport.Proofs.Json.Fields
import AppExport.Proofs.Project.Exact
import AppExport.Proofs.Service.Export

namespace AppExport

open Component (Forest)
open Json (IsObject Member Record RefusesNull exact_orNull exact_value innerRoom orNull)

theorem Document.record_readsExactly : Document.record.ReadsExactly where
  fields := by
    simp only [Document.record, List.forall_mem_cons, List.not_mem_nil, false_implies, implies_true,
      and_true]
    exact ⟨.slot Component.exact_forest, .slot Config.exact_decoder⟩
  others := nofun

namespace Service.Request

theorem record_readsExactly : record.ReadsExactly where
  fields := by
    simp only [record, List.forall_mem_cons, List.not_mem_nil, false_implies, implies_true,
      and_true]
    exact ⟨.slot fun room => exact_orNull (Component.exact_forest room),
      .slot fun room => exact_orNull (Config.exact_decoder room),
      .slot fun room => exact_orNull (exact_value room)⟩
  others := nofun

/-- What has been read of a request that is a project. -/
def Draft.ofDocument (d : Document.Draft) : Draft where
  components := d.components.map some
  config := d.config.map some

/-- Whether no field that a project needs is null. -/
structure Draft.Definite (d : Draft) : Prop where
  components : d.components ≠ some none
  config : d.config ≠ some none

/-- The draft behind one more member. -/
def readMember (d : Draft) (m : Member) : Option Draft := m.add (record.entry innerRoom) d

theorem readMember_eq {m : Member} {key : String} (hkey : m.key? = some key) (d : Draft) :
    readMember d m =
      if key = "components" then
        if d.components.isSome then none
        else (m.valueBy (orNull Component.forest innerRoom)).map ({ d with components := some · })
      else if key = "config" then
        if d.config.isSome then none
        else (m.valueBy (orNull Config.decoder innerRoom)).map ({ d with config := some · })
      else if key = "format" then
        if d.format.isSome then none
        else (m.valueBy (orNull Json.value innerRoom)).map ({ d with format := some · })
      else (m.valueBy Json.passing).map fun _ => d := by
  rw [readMember]
  split
  next hcomponents => exact Member.add_slot (r := record) (hcomponents ▸ hkey) rfl
  next hcomponents =>
    split
    next hconfig => exact Member.add_slot (r := record) (hconfig ▸ hkey) rfl
    next hconfig =>
      split
      next hformat => exact Member.add_slot (r := record) (hformat ▸ hkey) rfl
      next hformat =>
        refine Member.add_skipped hkey ?_ rfl
        simp [record, Json.Field.slot, Json.Field.answers, Ne.symm hcomponents, Ne.symm hconfig,
          Ne.symm hformat]

end Service.Request

/-- The draft behind one more member. -/
def Document.readMember (d : Document.Draft) (m : Member) : Option Document.Draft :=
  m.add (Document.record.entry innerRoom) d

theorem Document.readMember_eq {m : Member} {key : String} (hkey : m.key? = some key)
    (d : Document.Draft) :
    Document.readMember d m =
      if key = "components" then
        if d.components.isSome then none
        else (m.valueBy (Component.forest innerRoom)).map ({ d with components := some · })
      else if key = "config" then
        if d.config.isSome then none
        else (m.valueBy (Config.decoder innerRoom)).map ({ d with config := some · })
      else (m.valueBy Json.passing).map fun _ => d := by
  rw [Document.readMember]
  split
  next hcomponents => exact Member.add_slot (r := Document.record) (hcomponents ▸ hkey) rfl
  next hcomponents =>
    split
    next hconfig => exact Member.add_slot (r := Document.record) (hconfig ▸ hkey) rfl
    next hconfig =>
      refine Member.add_skipped hkey ?_ rfl
      simp [Document.record, Json.Field.slot, Json.Field.answers, Ne.symm hcomponents,
        Ne.symm hconfig]

namespace Service.Request

/-! ## Without a format -/

/-- A field that only a request may leave null. -/
theorem exists_valueBy_map {α : Type} {decoder : Json.Decoder α} {m : Member} {next : Draft}
    {put : Option α → Draft} {put' : α → Document.Draft} (hrefuses : RefusesNull (decoder innerRoom))
    (hput : ∀ a, .ofDocument (put' a) = put (some a)) (hnull : ¬(put none).Definite)
    (hnext : next.Definite) :
    (m.valueBy (orNull decoder innerRoom)).map put = some next ↔
      ∃ next', (m.valueBy (decoder innerRoom)).map put' = some next' ∧ .ofDocument next' = next := by
  simp only [Option.map_eq_some_iff]
  constructor
  · rintro ⟨_ | a, hread, rfl⟩
    · exact absurd hnext hnull
    · exact ⟨put' a, ⟨a, (Member.valueBy_orNull hrefuses).1 hread, rfl⟩, hput a⟩
  · rintro ⟨_, ⟨a, hread, rfl⟩, rfl⟩
    exact ⟨some a, (Member.valueBy_orNull hrefuses).2 hread, (hput a).symm⟩

theorem readMember_ofDocument {d : Document.Draft} {m : Member} {next : Draft}
    (hkey : m.key? ≠ some "format") (hnext : next.Definite) :
    readMember (.ofDocument d) m = some next ↔
      ∃ next', Document.readMember d m = some next' ∧ .ofDocument next' = next := by
  cases hread : m.key? with
  | none => simp [readMember, Document.readMember, Member.add, hread]
  | some key =>
    have hformat : key ≠ "format" := fun h => hkey (h ▸ hread)
    obtain ⟨components, config⟩ := d
    rw [readMember_eq hread, Document.readMember_eq hread]
    split
    next =>
      cases components with
      | some forest => simp [Draft.ofDocument]
      | none =>
        exact exists_valueBy_map (Json.listOf_refusesNull _ _ _) (fun _ => rfl)
          (fun h => h.components rfl) hnext
    next =>
      split
      next =>
        cases config with
        | some config => simp [Draft.ofDocument]
        | none =>
          exact exists_valueBy_map (Json.Record.decoder_refusesNull _ _) (fun _ => rfl)
            (fun h => h.config rfl) hnext
      next =>
        cases m.valueBy Json.passing <;> simp

/-- A member leaves no field null that was not, and none that was is changed. -/
theorem Draft.Definite.of_readMember {d next : Draft} {m : Member} (hnext : next.Definite)
    (h : readMember d m = some next) : d.Definite := by
  cases hread : m.key? with
  | none => simp [readMember, Member.add, hread] at h
  | some key =>
    obtain ⟨components, config, format⟩ := d
    rw [readMember_eq hread] at h
    split at h
    next =>
      cases components with
      | some forest => simp at h
      | none =>
        obtain ⟨a, -, rfl⟩ := Option.map_eq_some_iff.1 h
        exact ⟨(Option.some_ne_none none).symm, hnext.config⟩
    next =>
      split at h
      next =>
        cases config with
        | some config => simp at h
        | none =>
          obtain ⟨a, -, rfl⟩ := Option.map_eq_some_iff.1 h
          exact ⟨hnext.components, (Option.some_ne_none none).symm⟩
      next =>
        split at h
        next =>
          cases format with
          | some format => simp at h
          | none =>
            obtain ⟨a, -, rfl⟩ := Option.map_eq_some_iff.1 h
            exact ⟨hnext.components, hnext.config⟩
        next =>
          obtain ⟨a, -, rfl⟩ := Option.map_eq_some_iff.1 h
          exact hnext

theorem Draft.Definite.of_foldlM {ms : List Member} {d last : Draft} (hlast : last.Definite)
    (h : ms.foldlM readMember d = some last) : d.Definite := by
  induction ms generalizing d with
  | nil => exact Option.some.inj h ▸ hlast
  | cons m ms ih =>
    rw [List.foldlM_cons] at h
    obtain ⟨next, hread, hothers⟩ := Option.bind_eq_some_iff.1 h
    exact (ih hothers).of_readMember hread

/-- Without a format, a definite request is a project and the other way around. -/
theorem foldlM_ofDocument {ms : List Member} {d : Document.Draft} {last : Draft}
    (hformat : ∀ m ∈ ms, m.key? ≠ some "format") (hlast : last.Definite) :
    ms.foldlM readMember (.ofDocument d) = some last ↔
      ∃ last', ms.foldlM Document.readMember d = some last' ∧ .ofDocument last' = last := by
  induction ms generalizing d with
  | nil => simp
  | cons m ms ih =>
    obtain ⟨hm, hms⟩ := List.forall_mem_cons.1 hformat
    simp only [List.foldlM_cons, Option.bind_eq_bind, Option.bind_eq_some_iff]
    constructor
    · rintro ⟨next, hread, hothers⟩
      obtain ⟨next', hread', rfl⟩ := (readMember_ofDocument hm (hlast.of_foldlM hothers)).1 hread
      obtain ⟨last', hothers', rfl⟩ := (ih hms).1 hothers
      exact ⟨last', ⟨next', hread', hothers'⟩, rfl⟩
    · rintro ⟨last', ⟨next', hread', hothers'⟩, rfl⟩
      have hothers := (ih hms).2 ⟨last', hothers', rfl⟩
      exact ⟨_, (readMember_ofDocument hm (hlast.of_foldlM hothers)).2 ⟨next', hread', rfl⟩, hothers⟩

/-! ## With a format -/

def Draft.withFormat (v : Json.Value) (d : Draft) : Draft := { d with format := some (some v) }

/-- A format that has been read makes no difference to the other members. -/
theorem readMember_withFormat {m : Member} (hkey : m.key? ≠ some "format") (v : Json.Value)
    (d : Draft) : readMember (d.withFormat v) m = (readMember d m).map (Draft.withFormat v) := by
  cases hread : m.key? with
  | none => simp [readMember, Member.add, hread]
  | some key =>
    have hformat : key ≠ "format" := fun h => hkey (h ▸ hread)
    rw [readMember_eq hread, readMember_eq hread]
    split
    next =>
      cases hgiven : d.components <;> simp [Draft.withFormat, hgiven, Function.comp_def]
    next =>
      split
      next => cases hgiven : d.config <;> simp [Draft.withFormat, hgiven, Function.comp_def]
      next => simp [Function.comp_def]

theorem foldlM_withFormat {ms : List Member} (hformat : ∀ m ∈ ms, m.key? ≠ some "format")
    (v : Json.Value) (d : Draft) :
    ms.foldlM readMember (d.withFormat v) = (ms.foldlM readMember d).map (Draft.withFormat v) := by
  induction ms generalizing d with
  | nil => rfl
  | cons m ms ih =>
    obtain ⟨hm, hms⟩ := List.forall_mem_cons.1 hformat
    rw [List.foldlM_cons, List.foldlM_cons, readMember_withFormat hm]
    cases readMember d m with
    | none => rfl
    | some next => exact ih hms next

theorem format_of_readMember {m : Member} {d next : Draft} (hkey : m.key? ≠ some "format")
    (h : readMember d m = some next) : next.format = d.format := by
  cases hread : m.key? with
  | none => simp [readMember, Member.add, hread] at h
  | some key =>
    have hformat : key ≠ "format" := fun h => hkey (h ▸ hread)
    rw [readMember_eq hread, if_neg hformat] at h
    split at h
    next =>
      split at h
      next => cases h
      next =>
        obtain ⟨a, -, rfl⟩ := Option.map_eq_some_iff.1 h
        rfl
    next =>
      split at h
      next =>
        split at h
        next => cases h
        next =>
          obtain ⟨a, -, rfl⟩ := Option.map_eq_some_iff.1 h
          rfl
      next =>
        obtain ⟨a, -, rfl⟩ := Option.map_eq_some_iff.1 h
        rfl

theorem format_of_foldlM {ms : List Member} {d last : Draft}
    (hformat : ∀ m ∈ ms, m.key? ≠ some "format") (h : ms.foldlM readMember d = some last) :
    last.format = d.format := by
  induction ms generalizing d with
  | nil => exact congrArg _ (Option.some.inj h).symm
  | cons m ms ih =>
    obtain ⟨hm, hms⟩ := List.forall_mem_cons.1 hformat
    rw [List.foldlM_cons] at h
    obtain ⟨next, hread, hothers⟩ := Option.bind_eq_some_iff.1 h
    exact (ih hms hothers).trans (format_of_readMember hm hread)

theorem readMember_format {m : Member} {d : Draft} {v : Json.Value} (hkey : m.key? = some "format")
    (hvalue : m.value? = some v) (hv : v ≠ .null) (hd : d.format = none) :
    readMember d m = some (d.withFormat v) := by
  rw [readMember_eq hkey, if_neg (by decide), if_neg (by decide), if_pos rfl, hd,
    Member.valueBy_orNull_value hvalue hv]
  rfl

/-- A format may stand anywhere among the members of a request that has none. -/
theorem foldlM_insert_format {before after : List Member} {m : Member} {v : Json.Value} {d : Draft}
    (hformat : ∀ m ∈ before ++ after, m.key? ≠ some "format") (hkey : m.key? = some "format")
    (hvalue : m.value? = some v) (hv : v ≠ .null) (hd : d.format = none) :
    (before ++ m :: after).foldlM readMember d =
      ((before ++ after).foldlM readMember d).map (Draft.withFormat v) := by
  obtain ⟨hbefore, hafter⟩ := List.forall_mem_append.1 hformat
  rw [List.foldlM_append, List.foldlM_append]
  cases hread : before.foldlM readMember d with
  | none => rfl
  | some middle =>
    have hmiddle : middle.format = none := (format_of_foldlM hbefore hread).trans hd
    simp only [Option.bind_eq_bind, Option.bind_some, List.foldlM_cons,
      readMember_format hkey hvalue hv hmiddle]
    exact foldlM_withFormat hafter v middle

end Service.Request
end AppExport
