/-
The files of a generated app.
-/
import AppExport.Bundle.Documents
import AppExport.Bundle.FileSet
import AppExport.Bundle.Modules

namespace AppExport.Bundle

open Component (Forest)
open Template (Engine TemplateError)

namespace Path

def entry : String := "App.tsx"

def package : String := "package.json"

def manifest : String := "app.json"

def readme : String := "README.md"

def types : String := "types/index.ts"

def theme : String := "constants/Theme.ts"

def primitives : String := "components/primitives.tsx"

end Path

def assemble (forest : Forest) (config : Config) : Except TemplateError FileSet := do
  let engine ← Engine.builtin
  let readme ← readme engine config
  let theme ← themeModule engine config
  return .ofList
    [(Path.entry, entryModule forest config),
     (Path.package, packageDescriptor config),
     (Path.manifest, manifest config),
     (Path.readme, readme),
     (Path.types, typesModule),
     (Path.theme, theme),
     (Path.primitives, primitivesSource)]

end AppExport.Bundle
