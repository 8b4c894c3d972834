/-
The built-in templates are read as what they look like: text, and tags that name the data or a
helper and the data. So the engine that holds them can always be made.
-/
import AppExport.Proofs.Results
import AppExport.Proofs.Template.Filled

namespace AppExport.Template

set_option maxRecDepth 4000

/-- What the tags of the readme call. -/
def readmeCalls : List Call :=
  [["name"], ["description"], ["package_name"], ["version"], ["orientation"],
   ["min_sdk_version"], ["target_sdk_version"], ["theme", "primaryColor"],
   ["theme", "secondaryColor"], ["theme", "backgroundColor"], ["theme", "textColor"],
   ["permission_list"]].map fun segments => (.dotted segments, [])

def themeCalls : List Call :=
  ["primaryColor", "secondaryColor", "backgroundColor", "textColor"].map fun color =>
    (.dotted ["json"], [.dotted ["theme", color]])

def instructionsCalls : List Call :=
  [(.dotted ["name"], []), (.dotted ["platform"], []), (.dotted ["upper"], [.dotted ["build_type"]]),
   (.dotted ["prerequisites"], []), (.dotted ["steps"], []), (.dotted ["release"], [])]

theorem readsAs_readme : ReadsAs readmeSource readmeCalls := by
  apply readsAs_of_pieces
  simp only [readmeSource, String.toList_intercalate, List.map_cons, List.map_nil,
    String.reduceToList]
  decide +kernel

theorem readsAs_theme : ReadsAs themeSource themeCalls := by
  apply readsAs_of_pieces
  simp only [themeSource, String.toList_intercalate, List.map_cons, List.map_nil,
    String.reduceToList]
  decide +kernel

theorem readsAs_instructions : ReadsAs instructionsSource instructionsCalls := by
  apply readsAs_of_pieces
  simp only [instructionsSource, String.toList_intercalate, List.map_cons, List.map_nil,
    String.reduceToList]
  decide +kernel

theorem register_eq {source : String} {template : Template} (h : ofText? source = some template)
    (name : String) (engine : Engine) :
    engine.register name source = .ok ⟨(name, template) :: engine.templates⟩ := by
  rw [Engine.register, h]

/-- The engine is made, and knows each template by its name. -/
theorem exists_builtin : ∃ engine, Engine.builtin = .ok engine ∧
    engine.templates.lookup readmeName = ofText? readmeSource ∧
    engine.templates.lookup themeName = ofText? themeSource ∧
    engine.templates.lookup instructionsName = ofText? instructionsSource := by
  obtain ⟨readme, hreadme, -, -⟩ := readsAs_readme
  obtain ⟨theme, htheme, -, -⟩ := readsAs_theme
  obtain ⟨instructions, hinstructions, -, -⟩ := readsAs_instructions
  refine ⟨⟨[(instructionsName, instructions), (themeName, theme), (readmeName, readme)]⟩, ?_, ?_⟩
  · rw [Engine.builtin, register_eq hreadme, ok_bind, register_eq htheme, ok_bind,
      register_eq hinstructions]
    rfl
  · rw [hreadme, htheme, hinstructions]
    simp [List.lookup_cons, readmeName, themeName, instructionsName]

end AppExport.Template
