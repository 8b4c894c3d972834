/-
A configuration that is written and read is the same configuration, if it asks for no permission
twice. Everything but the icon and the splash screen is always written.
-/
import AppExport.Config
import AppExport.Proofs.Json.Record
import AppExport.Proofs.List.EraseDups

namespace AppExport

open Json (Opens Reads Steps Value)

variable {room : Nat}

theorem Theme.reads {t : Theme} (hfits : t.toJson.Fits room) :
    Reads (Theme.record.decoder room) t.toJson.chars t := by
  obtain ⟨inner, rfl, -⟩ := hfits.of_object
  have hprimary := Json.steps_slot record inner {} "primaryColor" rfl rfl
    (Json.reads_string t.primaryColor)
  have hsecondary := Json.steps_slot record inner { primaryColor := some t.primaryColor }
    "secondaryColor" rfl rfl (Json.reads_string t.secondaryColor)
  have hbackground := Json.steps_slot record inner
    { primaryColor := some t.primaryColor, secondaryColor := some t.secondaryColor }
    "backgroundColor" rfl rfl (Json.reads_string t.backgroundColor)
  have htext := Json.steps_slot record inner
    { primaryColor := some t.primaryColor, secondaryColor := some t.secondaryColor,
      backgroundColor := some t.backgroundColor }
    "textColor" rfl rfl (Json.reads_string t.textColor)
  have hsteps := ((hprimary.append hsecondary).append hbackground).append htext
  simp only [← Json.entriesChars_append] at hsteps
  rw [Theme.toJson, Value.chars]
  exact Json.reads_record hsteps rfl

theorem Orientation.reads (o : Orientation) :
    Reads (Orientation.decoder room) (Value.text o.name).chars o := by
  have hlookup : ([Orientation.portrait, .landscape, .both].map fun o => (name o, o)).lookup
      o.name = some o := by
    cases o <;> rfl
  rw [Value.chars]
  exact Json.reads_choice hlookup

namespace Config

/-- The draft that a configuration's fields make. -/
def Draft.of (c : Config) : Draft where
  name := some c.name
  packageName := some c.packageName
  version := some c.version
  description := some c.description
  icon := c.icon.map some
  splashScreen := c.splashScreen.map some
  theme := some c.theme
  permissions := some c.permissions
  orientation := some c.orientation
  minSdkVersion := some c.minSdkVersion
  targetSdkVersion := some c.targetSdkVersion

theorem finish_of {c : Config} (h : c.permissions.Nodup) : (Draft.of c).finish = some c := by
  obtain ⟨name, packageName, version, description, icon, splashScreen, theme, permissions,
    orientation, minSdkVersion, targetSdkVersion⟩ := c
  simp only [Draft.finish, Draft.of, Json.getD_map_some, Option.getD_some, List.eraseDups_of_nodup h]
  rfl

theorem reads_orNull_text (s : String) :
    Reads (Json.orNull text room) (Value.text s).chars (some s) := by
  refine Json.reads_orNull ?_ (Json.reads_string s)
  rw [Value.chars]
  exact Json.notNull_quoteChars s.toList

theorem reads_permissions (permissions : List String) :
    Reads (Json.listOf "a set" text (room + 1)) (Value.list (permissions.map .text)).chars
      permissions := by
  have hitems : List.Forall₂ (fun text s => Opens text ∧ Reads (Config.text room) text s)
      (Value.itemsChars (permissions.map .text)) permissions := by
    induction permissions with
    | nil => exact .nil
    | cons s rest ih =>
      rw [List.map_cons, Value.itemsChars]
      refine .cons ⟨?_, Json.reads_string s⟩ ih
      rw [Value.chars]
      exact ⟨'"', _, rfl, by decide, by decide⟩
  rw [Value.chars]
  exact Json.reads_listOf hitems

theorem reads_uint32 (n : UInt32) : Reads Json.uint32 (Value.ofUInt32 n).chars n := by
  rw [Value.ofUInt32, Value.chars]
  exact Json.reads_uint32 n

/-- The entries for the names and the theme. -/
def nameEntries (c : Config) : Json.Entries :=
  [("name", .text c.name)] ++ [("packageName", .text c.packageName)] ++
    [("version", .text c.version)] ++ [("description", .text c.description)]

theorem steps_names (c : Config) : Steps (record.entry room) {} (Value.entriesChars c.nameEntries)
    { name := some c.name, packageName := some c.packageName, version := some c.version,
      description := some c.description } := by
  have hname := Json.steps_slot record room {} "name" rfl rfl (Json.reads_string c.name)
  have hpackageName := Json.steps_slot record room { name := some c.name } "packageName" rfl rfl
    (Json.reads_string c.packageName)
  have hversion := Json.steps_slot record room
    { name := some c.name, packageName := some c.packageName } "version" rfl rfl
    (Json.reads_string c.version)
  have hdescription := Json.steps_slot record room
    { name := some c.name, packageName := some c.packageName, version := some c.version }
    "description" rfl rfl (Json.reads_string c.description)
  simp only [nameEntries, Json.entriesChars_append]
  exact ((hname.append hpackageName).append hversion).append hdescription

/-- The entries for the icon and the splash screen, as far as there are any. -/
def imageEntries (c : Config) : Json.Entries :=
  (c.icon.map fun s => ("icon", .text s)).toList ++
    (c.splashScreen.map fun s => ("splashScreen", .text s)).toList

theorem steps_images (c : Config) : Steps (record.entry room)
    { name := some c.name, packageName := some c.packageName, version := some c.version,
      description := some c.description }
    (Value.entriesChars c.imageEntries)
    { name := some c.name, packageName := some c.packageName, version := some c.version,
      description := some c.description, icon := c.icon.map some,
      splashScreen := c.splashScreen.map some } := by
  have hicon := Json.steps_optional record room
    ({ name := some c.name, packageName := some c.packageName, version := some c.version,
       description := some c.description, icon := · })
    "icon" id rfl rfl (fun _ => rfl) fun s (_ : c.icon = some s) => reads_orNull_text s
  have hsplash := Json.steps_optional record room
    ({ name := some c.name, packageName := some c.packageName, version := some c.version,
       description := some c.description, icon := c.icon.map some, splashScreen := · })
    "splashScreen" id rfl rfl (fun _ => rfl)
    fun s (_ : c.splashScreen = some s) => reads_orNull_text s
  rw [Option.map_id_apply] at hicon hsplash
  simp only [imageEntries, Json.entriesChars_append]
  exact hicon.append hsplash

/-- The entries for everything else. -/
def buildEntries (c : Config) : Json.Entries :=
  [("theme", c.theme.toJson)] ++ [("permissions", .list (c.permissions.map .text))] ++
    [("orientation", .text c.orientation.name)] ++
    [("minSdkVersion", .ofUInt32 c.minSdkVersion)] ++
    [("targetSdkVersion", .ofUInt32 c.targetSdkVersion)]

theorem steps_build {c : Config} (hfits : c.theme.toJson.Fits (room + 1)) :
    Steps (record.entry (room + 1))
      { name := some c.name, packageName := some c.packageName, version := some c.version,
        description := some c.description, icon := c.icon.map some,
        splashScreen := c.splashScreen.map some }
      (Value.entriesChars c.buildEntries) (.of c) := by
  have htheme := Json.steps_slot record (room + 1)
    { Draft.of c with
        theme := none, permissions := none, orientation := none, minSdkVersion := none,
        targetSdkVersion := none }
    "theme" rfl rfl (Theme.reads hfits)
  have hpermissions := Json.steps_slot record (room + 1)
    { Draft.of c with
        permissions := none, orientation := none, minSdkVersion := none,
        targetSdkVersion := none }
    "permissions" rfl rfl (reads_permissions c.permissions)
  have horientation := Json.steps_slot record (room + 1)
    { Draft.of c with orientation := none, minSdkVersion := none, targetSdkVersion := none }
    "orientation" rfl rfl (Orientation.reads c.orientation)
  have hminimum := Json.steps_slot record (room + 1)
    { Draft.of c with minSdkVersion := none, targetSdkVersion := none }
    "minSdkVersion" rfl rfl (reads_uint32 c.minSdkVersion)
  have htarget := Json.steps_slot record (room + 1) { Draft.of c with targetSdkVersion := none }
    "targetSdkVersion" rfl rfl (reads_uint32 c.targetSdkVersion)
  simp only [buildEntries, Json.entriesChars_append]
  exact (((htheme.append hpermissions).append horientation).append hminimum).append htarget

theorem toJson_eq (c : Config) :
    c.toJson = .object (c.nameEntries ++ (c.imageEntries ++ c.buildEntries)) := by
  simp only [toJson, nameEntries, imageEntries, buildEntries, List.append_assoc, List.cons_append,
    List.nil_append]

/-- A configuration reads back. -/
theorem reads {c : Config} (hnodup : c.permissions.Nodup) (hfits : c.toJson.Fits room) :
    Reads (decoder room) c.toJson.chars c := by
  rw [toJson_eq] at hfits ⊢
  obtain ⟨outer, rfl, hentries⟩ := hfits.of_object
  have htheme : c.theme.toJson.Fits outer :=
    hentries ("theme", c.theme.toJson) (by simp [buildEntries])
  obtain ⟨inner, rfl, -⟩ := htheme.of_object
  have hsteps := (steps_names c).append ((steps_images c).append (steps_build htheme))
  simp only [← Json.entriesChars_append] at hsteps
  rw [Value.chars]
  exact Json.reads_record hsteps (finish_of hnodup)

end Config
end AppExport
