/-
What goes wrong with templates, and the messages about it.
-/
import AppExport.Template.Syntax

namespace AppExport.Template

/-- What goes wrong in one tag. -/
inductive TagFault where
  | unknownHelper (name : String)
  | listByName (key : String)
  /-- A helper has too few arguments; it knows them by position. -/
  | missingArgument (helper : String) (position : Nat)
  /-- A helper has too few arguments; it knows them by name. -/
  | missingOperand (helper operand : String)
  | notInteger (helper operand : String)
deriving DecidableEq, Repr

inductive TemplateError where
  | unknownTemplate (name : String)
  | malformed
  | tag (template : String) (mark : Mark) (fault : TagFault)
deriving DecidableEq, Repr

def TagFault.message : TagFault → String
  | unknownHelper name => "Helper not found " ++ name
  | listByName key => "Cannot access array/vector with string index, " ++ key
  | missingArgument helper position =>
    "Helper/Decorator " ++ helper ++ " param at index " ++ toString position ++
      " required but not found"
  | missingOperand helper operand =>
    "Helper/Decorator " ++ helper ++ " param with name " ++ operand ++ " required but not found"
  | notInteger helper operand =>
    "Helper/Decorator " ++ helper ++ " param with name " ++ operand ++ " type mismatch for i64"

def TemplateError.message : TemplateError → String
  | unknownTemplate name => "Template error: Template not found " ++ name
  | malformed => "Invalid template"
  | tag template mark fault =>
    "Template error: Error rendering \"" ++ template ++ "\" line " ++ toString mark.line ++
      ", col " ++ toString mark.column ++ ": " ++ fault.message

end AppExport.Template
