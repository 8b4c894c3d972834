/-
The primitives a forest uses, each once, in the order in which the walk first meets them.
-/
import AppExport.Component.Node
import AppExport.Markup.Primitive

namespace AppExport.Markup

open Component (Forest)

def primitivesModule : String := "./components/primitives"

def imports (forest : Forest) : List Primitive :=
  let kinds := (forest.walk.map (·.kind)).eraseDups
  ((kinds.map fun kind => (Mapping.ofKind kind).primitive).filter (·.isImportable)).eraseDups

/-- The statement that imports them, unless there are none. -/
def importStatement? (primitives : List Primitive) : Option String :=
  if primitives.isEmpty then none
  else
    some ("import \x7b " ++ ", ".intercalate (primitives.map (·.tag)) ++ " \x7d from '" ++
      primitivesModule ++ "';")

end AppExport.Markup
