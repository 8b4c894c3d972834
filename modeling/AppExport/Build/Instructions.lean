/-
The document that a build leaves behind: how to build the app for its platforms by hand, and for a
release what to do before publishing.
-/
import AppExport.Build.Target
import AppExport.Config
import AppExport.Template.Builtin

namespace AppExport.Build

open Json (Value)
open Template (Engine TemplateError)

namespace Instructions

/-- The file name of a project's instructions. -/
def filename (config : Config) : String := config.token ++ "_build_instructions.md"

def prerequisites (platform : Platform) : List String :=
  ["- Node.js (v16 or later)", "- Expo CLI (`npm install -g @expo/cli`)"] ++
    (if platform.includesAndroid then ["- Android Studio with Android SDK"] else []) ++
    (if platform.includesIos then ["- Xcode (macOS only)"] else [])

def steps (platform : Platform) : List String :=
  ["Install dependencies: `npm install`", "Configure app.json with your credentials"] ++
    (if platform.includesAndroid then ["Build Android APK: `expo build:android`"] else []) ++
    (if platform.includesIos then ["Build iOS app: `expo build:ios`"] else [])

/-- The steps with their numbers, from one on. -/
def numbered (steps : List String) : List String :=
  steps.mapIdx fun i step => toString (i + 1) ++ ". " ++ step

def signingLine (s : Signing) : String :=
  "- Sign with keystore `" ++ s.keystore ++ "` (alias `" ++ s.keyAlias ++ "`)"

/-- The section of a release; a debug build has none. -/
def release (target : Target) : List String :=
  match target.variant with
  | .debug => []
  | .release =>
    ["",
     "## Release Build",
     "- Ensure all assets are optimized",
     "- Update version number in app.json"] ++
    (target.signing.map signingLine).toList ++
    ["- Test thoroughly before publishing",
     ""]

/-- The data of the instructions template. -/
def data (config : Config) (target : Target) : Value :=
  let lines (l : List String) : Value := .text ("\n".intercalate l)
  .object
    [("name", .text config.name),
     ("platform", .text target.platform.name),
     ("build_type", .text target.variant.name),
     ("prerequisites", lines (prerequisites target.platform)),
     ("steps", lines (numbered (steps target.platform))),
     ("release", lines (release target))]

end Instructions

def instructions (config : Config) (target : Target) : Except TemplateError String := do
  (← Engine.builtin).render Template.instructionsName (Instructions.data config target)

end AppExport.Build
