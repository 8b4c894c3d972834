/-
The configuration of an app: its names, its theme, the permissions it asks for and the platform
versions it is built for. A fresh project starts with `Config.fresh`.
-/
import AppExport.Json.Typed
import AppExport.Naming

namespace AppExport

open Json (Decoder Record Value orNull)

structure Theme where
  primaryColor : String
  secondaryColor : String
  backgroundColor : String
  textColor : String
deriving DecidableEq, Repr

inductive Orientation where
  | portrait
  | landscape
  | both
deriving DecidableEq, Repr

structure Config where
  /-- The name an app shows. -/
  name : String
  packageName : String
  version : String
  description : String
  icon : Option String
  splashScreen : Option String
  theme : Theme
  /-- Each permission once, in the order first given. -/
  permissions : List String
  orientation : Orientation
  minSdkVersion : UInt32
  targetSdkVersion : UInt32
deriving DecidableEq, Repr

def Theme.fresh : Theme where
  primaryColor := "#007AFF"
  secondaryColor := "#34C759"
  backgroundColor := "#ffffff"
  textColor := "#333333"

def Orientation.name : Orientation → String
  | portrait => "portrait"
  | landscape => "landscape"
  | both => "both"

namespace Config

def fresh : Config where
  name := "My App"
  packageName := "com.mycompany.myapp"
  version := "1.0.0"
  description := "A new mobile app built with drag and drop"
  icon := none
  splashScreen := none
  theme := .fresh
  permissions := ["INTERNET"]
  orientation := .portrait
  minSdkVersion := 21
  targetSdkVersion := 33

/-- The name as files and packages use it. -/
def token (config : Config) : String := Naming.token config.name

end Config

/-! ## Writing -/

def Theme.toJson (t : Theme) : Value :=
  .object
    [("primaryColor", .text t.primaryColor), ("secondaryColor", .text t.secondaryColor),
     ("backgroundColor", .text t.backgroundColor), ("textColor", .text t.textColor)]

def Config.toJson (c : Config) : Value :=
  .object <|
    [("name", .text c.name), ("packageName", .text c.packageName), ("version", .text c.version),
     ("description", .text c.description)] ++
    (c.icon.map fun s => ("icon", .text s)).toList ++
    (c.splashScreen.map fun s => ("splashScreen", .text s)).toList ++
    [("theme", c.theme.toJson), ("permissions", .list (c.permissions.map .text)),
     ("orientation", .text c.orientation.name),
     ("minSdkVersion", .ofUInt32 c.minSdkVersion),
     ("targetSdkVersion", .ofUInt32 c.targetSdkVersion)]

/-! ## Reading -/

namespace Theme

structure Draft where
  primaryColor : Option String := none
  secondaryColor : Option String := none
  backgroundColor : Option String := none
  textColor : Option String := none

def text : Decoder String := fun _ => Json.text "a string"

def record : Record Draft Theme where
  label := "struct Theme"
  fields :=
    [.slot "primaryColor" [] false (·.primaryColor) ({ · with primaryColor := some · }) text,
     .slot "secondaryColor" [] false (·.secondaryColor) ({ · with secondaryColor := some · }) text,
     .slot "backgroundColor" [] false (·.backgroundColor) ({ · with backgroundColor := some · })
       text,
     .slot "textColor" [] false (·.textColor) ({ · with textColor := some · }) text]
  others := none
  positional := true
  start := {}
  finish d := do
    return {
      primaryColor := ← d.primaryColor
      secondaryColor := ← d.secondaryColor
      backgroundColor := ← d.backgroundColor
      textColor := ← d.textColor }

end Theme

def Orientation.decoder : Decoder Orientation :=
  Json.choice ([.portrait, .landscape, .both].map fun o => (name o, o))

namespace Config

structure Draft where
  name : Option String := none
  packageName : Option String := none
  version : Option String := none
  description : Option String := none
  icon : Option (Option String) := none
  splashScreen : Option (Option String) := none
  theme : Option Theme := none
  permissions : Option (List String) := none
  orientation : Option Orientation := none
  minSdkVersion : Option UInt32 := none
  targetSdkVersion : Option UInt32 := none

def Draft.finish (d : Draft) : Option Config := do
  return {
    name := ← d.name
    packageName := ← d.packageName
    version := ← d.version
    description := d.description.getD ""
    icon := d.icon.getD none
    splashScreen := d.splashScreen.getD none
    theme := d.theme.getD .fresh
    permissions := (d.permissions.getD []).eraseDups
    orientation := d.orientation.getD .portrait
    minSdkVersion := ← d.minSdkVersion
    targetSdkVersion := ← d.targetSdkVersion }

def text : Decoder String := fun _ => Json.text "a string"

def record : Record Draft Config where
  label := "struct AppConfig"
  fields :=
    [.slot "name" [] false (·.name) ({ · with name := some · }) text,
     .slot "packageName" [] false (·.packageName) ({ · with packageName := some · }) text,
     .slot "version" [] false (·.version) ({ · with version := some · }) text,
     .slot "description" [] true (·.description) ({ · with description := some · }) text,
     .slot "icon" [] true (·.icon) ({ · with icon := some · }) (orNull text),
     .slot "splashScreen" [] true (·.splashScreen) ({ · with splashScreen := some · })
       (orNull text),
     .slot "theme" [] true (·.theme) ({ · with theme := some · }) Theme.record.decoder,
     .slot "permissions" [] true (·.permissions) ({ · with permissions := some · })
       (Json.listOf "a set" text),
     .slot "orientation" [] true (·.orientation) ({ · with orientation := some · })
       Orientation.decoder,
     .slot "minSdkVersion" [] false (·.minSdkVersion) ({ · with minSdkVersion := some · })
       fun _ => Json.uint32,
     .slot "targetSdkVersion" [] false (·.targetSdkVersion) ({ · with targetSdkVersion := some · })
       fun _ => Json.uint32]
  others := none
  positional := true
  start := {}
  finish := Draft.finish

def decoder : Decoder Config := record.decoder

end Config
end AppExport
