/-
The package descriptor and the manifest are JSON texts, and they are decoded to the objects they were
made from. So what tools read in them is what the configuration says, whatever texts it has.
-/
import AppExport.Proofs.Bundle.Assemble
import AppExport.Proofs.Json.Denotes

namespace AppExport.Json.Value

/-- The value that a path of keys leads to. -/
def at? : (path : List String) → Value → Option Value
  | [], v => some v
  | key :: path, object entries => (entries.lookup key).bind (at? path)
  | _ :: _, _ => none

end AppExport.Json.Value

namespace AppExport.Bundle

open Json (IsValueText Value decode decode_pretty isValueText_pretty startRoom value)

/-! ## What a descriptor says -/

/-- Paths of keys with the values they lead to. -/
abbrev Statements := List (List String × Value)

/-- Whether a text is JSON for a value in which every statement holds. -/
structure Describes (text : String) (v : Value) (statements : Statements) : Prop where
  valid : IsValueText text.toList
  decodes : decode value text = .ok v
  holds : ∀ s ∈ statements, v.at? s.1 = some s.2

theorem describes_pretty {v : Value} {statements : Statements} (hkeyed : v.Keyed)
    (hfits : v.Fits startRoom) (h : ∀ s ∈ statements, v.at? s.1 = some s.2) :
    Describes v.pretty v statements where
  valid := isValueText_pretty hkeyed
  decodes := by rw [decode_pretty hkeyed hfits.depth_le, v.reread_eq_self hfits.readsBack]
  holds := h

/-! ## The package descriptor -/

/-- What the package descriptor says of the configuration. -/
def packageStatements (config : Config) : Statements :=
  [(["name"], .text (Naming.token config.name)),
   (["version"], .text config.version),
   (["description"], .text config.description)]

theorem keyed_packageJson (config : Config) : (packageJson config).Keyed := by
  simp [packageJson, Value.Keyed, Value.KeyedEntries, Value.KeyedAll, Json.Entries.keys]

theorem fits_packageJson (config : Config) : (packageJson config).Fits startRoom where
  depth_le := by
    simp [packageJson, Value.depth, Value.depthEntries, Value.depthAll, startRoom]
  readsBack := by
    simp [packageJson, Value.floats, Value.floatsEntries, Value.floatsAll]

theorem packageStatements_hold (config : Config) :
    ∀ s ∈ packageStatements config, (packageJson config).at? s.1 = some s.2 := by
  simp only [packageStatements, List.forall_mem_cons]
  exact ⟨rfl, rfl, rfl, nofun⟩

theorem describes_packageDescriptor (config : Config) :
    Describes (packageDescriptor config) (packageJson config) (packageStatements config) :=
  describes_pretty (keyed_packageJson config) (fits_packageJson config) (packageStatements_hold config)

/-- Projects with the same package descriptor have the same token. -/
theorem token_of_packageDescriptor {config other : Config}
    (h : packageDescriptor config = packageDescriptor other) : config.token = other.token := by
  have hconfig := describes_packageDescriptor config
  have hother := describes_packageDescriptor other
  have hjson : packageJson config = packageJson other := by
    have hdecodes := hconfig.decodes
    rw [h, hother.decodes] at hdecodes
    exact (Except.ok.inj hdecodes).symm
  have hname := hconfig.holds _ (.head _)
  rw [hjson, hother.holds _ (.head _)] at hname
  exact (Value.text.inj (Option.some.inj hname)).symm

/-! ## The manifest -/

/-- What the manifest says of the configuration. -/
def manifestStatements (config : Config) : Statements :=
  [(["expo", "name"], .text config.name),
   (["expo", "slug"], .text (Naming.token config.name)),
   (["expo", "version"], .text config.version),
   (["expo", "orientation"], .text config.orientation.name),
   (["expo", "icon"], .text (config.icon.getD "./assets/icon.png")),
   (["expo", "splash", "image"], .text (config.splashScreen.getD "./assets/splash.png")),
   (["expo", "splash", "backgroundColor"], .text config.theme.backgroundColor),
   (["expo", "ios", "bundleIdentifier"], .text config.packageName),
   (["expo", "android", "package"], .text config.packageName),
   (["expo", "android", "adaptiveIcon", "backgroundColor"], .text config.theme.backgroundColor),
   (["expo", "android", "permissions"], .list (config.permissions.map .text))]

theorem keyed_manifestJson (config : Config) : (manifestJson config).Keyed := by
  simp [manifestJson, Value.Keyed, Value.KeyedEntries, Value.KeyedAll, Json.Entries.keys,
    Value.ofUInt32]

theorem fits_manifestJson (config : Config) : (manifestJson config).Fits startRoom where
  depth_le := by
    simp [manifestJson, Value.depth, Value.depthEntries, Value.depthAll, Value.ofUInt32, startRoom]
  readsBack := by
    simp [manifestJson, Value.floats, Value.floatsEntries, Value.floatsAll, Value.ofUInt32,
      Json.Number.ofUInt32]

theorem manifestStatements_hold (config : Config) :
    ∀ s ∈ manifestStatements config, (manifestJson config).at? s.1 = some s.2 := by
  simp only [manifestStatements, List.forall_mem_cons]
  exact ⟨rfl, rfl, rfl, rfl, rfl, rfl, rfl, rfl, rfl, rfl, rfl, nofun⟩

/-- Every app has a package descriptor and a manifest, and each is JSON for the object that was built
from the configuration, its keys in their order. They agree on the token of the name. -/
theorem descriptors_decode (config : Config) :
    (∀ forest, ∃ files, assemble forest config = .ok files ∧
      files.get? Path.package = some (packageDescriptor config) ∧
      files.get? Path.manifest = some (manifest config)) ∧
    Describes (packageDescriptor config) (packageJson config) (packageStatements config) ∧
    Describes (manifest config) (manifestJson config) (manifestStatements config) := by
  refine ⟨fun forest => ?_, ?_, ?_⟩
  · have hnodup : ((appFiles forest config).map Prod.fst).Nodup := nodup_appPaths
    have hpackage : (Path.package, packageDescriptor config) ∈ appFiles forest config :=
      .tail _ (.head _)
    have hmanifest : (Path.manifest, manifest config) ∈ appFiles forest config :=
      .tail _ (.tail _ (.head _))
    exact ⟨_, assemble_eq forest config, FileSet.get?_ofList hnodup hpackage,
      FileSet.get?_ofList hnodup hmanifest⟩
  · exact describes_packageDescriptor config
  · exact describes_pretty (keyed_manifestJson config) (fits_manifestJson config)
      (manifestStatements_hold config)

end AppExport.Bundle
