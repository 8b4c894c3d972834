/-
An app can always be assembled, and it has the same seven files every time. Its readme and its theme
constants are their templates, filled in with the configuration.
-/
import AppExport.Bundle.Assemble
import AppExport.Proofs.Bundle.FileSet
import AppExport.Proofs.Json.Value
import AppExport.Proofs.Template.Builtin

namespace AppExport.Bundle

open Component (Forest)
open Json (Value)
open Template (Engine Fields filled renderTag_dotted renderTag_helper shown)

/-! ## The readme -/

/-- What the readme has in place of its fields. -/
def readmeFields (config : Config) : Fields :=
  [("name", config.name), ("description", config.description),
   ("package_name", config.packageName), ("version", config.version),
   ("orientation", config.orientation.name),
   ("min_sdk_version", toString config.minSdkVersion.toNat),
   ("target_sdk_version", toString config.targetSdkVersion.toNat),
   ("theme.primaryColor", config.theme.primaryColor),
   ("theme.secondaryColor", config.theme.secondaryColor),
   ("theme.backgroundColor", config.theme.backgroundColor),
   ("theme.textColor", config.theme.textColor),
   ("permission_list", "\n".intercalate (config.permissions.map ("- " ++ ·)))]

theorem shown_ofUInt32 (n : UInt32) : shown (.ofUInt32 n) = (toString n.toNat).toList := by
  have hnonneg : ¬(n.toNat : Int) < 0 := by omega
  have hchars : shown (.ofUInt32 n) = Decimal.intChars n.toNat := rfl
  rw [hchars, Decimal.intChars, if_neg hnonneg, Int.natAbs_natCast, Decimal.digitChars]
  exact String.toList_ofList.symm

theorem readme_eq {engine : Engine}
    (h : engine.templates.lookup Template.readmeName = Template.ofText? Template.readmeSource)
    (config : Config) :
    readme engine config = .ok (filled (readmeFields config) Template.readmeSource) := by
  refine Template.render_eq_filled Template.readsAs_readme h ?_
  simp only [Template.readmeCalls, List.map_cons, List.forall_mem_cons]
  refine ⟨renderTag_dotted rfl rfl rfl, renderTag_dotted rfl rfl rfl,
    renderTag_dotted rfl rfl rfl, renderTag_dotted rfl rfl rfl, renderTag_dotted rfl rfl rfl,
    renderTag_dotted rfl rfl (shown_ofUInt32 _), renderTag_dotted rfl rfl (shown_ofUInt32 _),
    renderTag_dotted rfl rfl rfl, renderTag_dotted rfl rfl rfl, renderTag_dotted rfl rfl rfl,
    renderTag_dotted rfl rfl rfl, renderTag_dotted rfl rfl rfl, fun _ h => by cases h⟩

/-! ## The theme constants -/

/-- What the theme constants have in place of their fields. -/
def themeFields (theme : Theme) : Fields :=
  [("json theme.primaryColor", Text.quote theme.primaryColor),
   ("json theme.secondaryColor", Text.quote theme.secondaryColor),
   ("json theme.backgroundColor", Text.quote theme.backgroundColor),
   ("json theme.textColor", Text.quote theme.textColor)]

theorem themeModule_eq {engine : Engine}
    (h : engine.templates.lookup Template.themeName = Template.ofText? Template.themeSource)
    (config : Config) :
    themeModule engine config = .ok (filled (themeFields config.theme) Template.themeSource) := by
  refine Template.render_eq_filled Template.readsAs_theme h ?_
  simp only [Template.themeCalls, List.map_cons, List.forall_mem_cons]
  exact ⟨renderTag_helper rfl rfl rfl, renderTag_helper rfl rfl rfl,
    renderTag_helper rfl rfl rfl, renderTag_helper rfl rfl rfl, fun _ h => by cases h⟩

theorem decode_themeFields (theme : Theme) :
    (themeFields theme).map (fun field => Json.decode Json.value field.2) =
      [theme.primaryColor, theme.secondaryColor, theme.backgroundColor, theme.textColor].map
        fun color => .ok (.text color) := by
  simp only [themeFields, List.map_cons, List.map_nil, Json.decode_quote]

/-! ## The files -/

/-- The files of an app, in the order in which they are made. -/
def appFiles (forest : Forest) (config : Config) : List File :=
  [(Path.entry, entryModule forest config),
   (Path.package, packageDescriptor config),
   (Path.manifest, manifest config),
   (Path.readme, filled (readmeFields config) Template.readmeSource),
   (Path.types, typesModule),
   (Path.theme, filled (themeFields config.theme) Template.themeSource),
   (Path.primitives, primitivesSource)]

theorem assemble_eq (forest : Forest) (config : Config) :
    assemble forest config = .ok (.ofList (appFiles forest config)) := by
  obtain ⟨engine, hengine, hreadme, htheme, -⟩ := Template.exists_builtin
  rw [assemble, hengine, ok_bind, readme_eq hreadme, ok_bind,
    themeModule_eq htheme, ok_bind]
  rfl

/-- The paths of an app's files. -/
def appPaths : List String :=
  [Path.entry, Path.package, Path.manifest, Path.readme, Path.types, Path.theme, Path.primitives]

theorem nodup_appPaths : appPaths.Nodup := by decide

/-- Every forest and every configuration give an app of seven files. Its readme is the template with
the texts of the configuration in place of the fields, and its theme constants are theirs with texts
in quotes, which say the colors. -/
theorem assemble_documents (forest : Forest) (config : Config) :
    ∃ files, assemble forest config = .ok files ∧ files.paths.Perm appPaths ∧
      files.get? Path.readme = some (filled (readmeFields config) Template.readmeSource) ∧
      files.get? Path.theme = some (filled (themeFields config.theme) Template.themeSource) ∧
      (themeFields config.theme).map (fun field => Json.decode Json.value field.2) =
        [config.theme.primaryColor, config.theme.secondaryColor, config.theme.backgroundColor,
          config.theme.textColor].map fun color => .ok (.text color) := by
  have hnodup : ((appFiles forest config).map Prod.fst).Nodup := nodup_appPaths
  have hreadme : (Path.readme, filled (readmeFields config) Template.readmeSource) ∈
      appFiles forest config := .tail _ (.tail _ (.tail _ (.head _)))
  have htheme : (Path.theme, filled (themeFields config.theme) Template.themeSource) ∈
      appFiles forest config := .tail _ (.tail _ (.tail _ (.tail _ (.tail _ (.head _)))))
  exact ⟨_, assemble_eq forest config, FileSet.paths_ofList_perm hnodup,
    FileSet.get?_ofList hnodup hreadme, FileSet.get?_ofList hnodup htheme,
    decode_themeFields config.theme⟩

end AppExport.Bundle
