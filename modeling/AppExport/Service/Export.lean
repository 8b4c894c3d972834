/-
Requests to export a project and their responses. A request is any sequence of bytes; what it asks
for is decided in the order that `respond` shows.
-/
import AppExport.Archive.Entry
import AppExport.Bundle.Assemble
import AppExport.Document

namespace AppExport.Service

open AppExport.Bundle (FileSet)
open Component (Forest)
open Json (DecodeError Decoder Record Value orNull)
open Template (TemplateError)

inductive Format where
  | files
  | zip
deriving DecidableEq, Repr

/-- Any value is a format, and all but one are that of files. -/
def Format.ofValue (v : Value) : Format :=
  match v with
  | .text s => if s = "zip" then .zip else .files
  | _ => .files

structure Request where
  components : Option Forest
  config : Option Config
  format : Format

namespace Request

structure Draft where
  components : Option (Option Forest) := none
  config : Option (Option Config) := none
  format : Option (Option Value) := none

def Draft.finish (d : Draft) : Option Request :=
  some {
    components := d.components.getD none
    config := d.config.getD none
    format := ((d.format.getD none).map Format.ofValue).getD .files }

def record : Record Draft Request where
  label := "struct ExportRequest"
  fields :=
    [.slot "components" [] true (·.components) ({ · with components := some · })
       (orNull Component.forest),
     .slot "config" [] true (·.config) ({ · with config := some · }) (orNull Config.decoder),
     .slot "format" [] true (·.format) ({ · with format := some · }) (orNull Json.value)]
  others := none
  positional := true
  start := {}
  finish := Draft.finish

def decode (body : List UInt8) : Except DecodeError Request :=
  Json.decodeGlyphs record.decoder (Text.glyphsOfBytes body)

end Request

/-! ## Responses -/

/-- Why nothing is exported. -/
inductive Refusal where
  | malformed (error : DecodeError)
  | incomplete
  | components (error : LoadError)
  | assembly (error : TemplateError)
deriving DecidableEq, Repr

/-- What is exported. -/
inductive Export where
  | files (set : FileSet)
  /-- Only the file name, under which the archive is offered elsewhere. -/
  | archive (filename : String)

/-- What answers a request. -/
def outcome (body : List UInt8) : Except Refusal Export := do
  let request ← (Request.decode body).mapError .malformed
  match request.components, request.config with
  | some forest, some config =>
    (Document.checkIds forest).mapError .components
    let files ← (Bundle.assemble forest config).mapError .assembly
    match request.format with
    | .zip => return .archive (Archive.filename config)
    | .files => return .files files
  | _, _ => throw .incomplete

structure Response where
  status : Nat
  body : Value
deriving Repr

def Refusal.response : Refusal → Response
  | malformed e =>
    ⟨400, .object [("error", .text "Invalid request body"), ("details", .text e.message)]⟩
  | incomplete => ⟨400, .object [("error", .text "Missing components or config")]⟩
  | components e =>
    ⟨400, .object [("error", .text "Invalid components"), ("details", .text e.message)]⟩
  | assembly e =>
    ⟨500, .object [("error", .text "Export failed"), ("details", .text e.message)]⟩

def Export.response : Export → Response
  | files set =>
    ⟨200, .object
      [("success", .bool true), ("files", set.toJson),
       ("message", .text "Source code files generated successfully")]⟩
  | archive filename =>
    ⟨200, .object
      [("success", .bool true),
       ("downloadUrl", .text ("https://example.com/exports/" ++ filename)),
       ("message", .text "Source code exported as ZIP (demo mode)")]⟩

def respond (body : List UInt8) : Response :=
  match outcome body with
  | .ok e => e.response
  | .error refusal => refusal.response

/-- What the service says of itself. -/
def about : Value :=
  .object
    [("message", .text "Blueprint source export API"),
     ("endpoints", .object
       [("POST /api/export", .text "Generate project source from a component tree")]),
     ("formats", .list [.text "files", .text "zip"])]

end AppExport.Service
