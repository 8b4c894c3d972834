import AppExport.Archive.Checksum
import AppExport.Archive.Container
import AppExport.Archive.Entry
import AppExport.Build.Instructions
import AppExport.Build.Simulation
import AppExport.Build.Stage
import AppExport.Build.Target
import AppExport.Bundle.Assemble
import AppExport.Bundle.Delivery
import AppExport.Bundle.Documents
import AppExport.Bundle.Download
import AppExport.Bundle.FileSet
import AppExport.Bundle.Modules
import AppExport.Cli.Arguments
import AppExport.Cli.Failure
import AppExport.Cli.Run
import AppExport.Component.Codec
import AppExport.Component.Edit
import AppExport.Component.Kind
import AppExport.Component.Node
import AppExport.Component.Props
import AppExport.Component.StyleValue
import AppExport.Config
import AppExport.Decimal.Binary64
import AppExport.Decimal.Digits
import AppExport.Decimal.Notation
import AppExport.Decimal.Shortest
import AppExport.Disk.Basic
import AppExport.Disk.Fault
import AppExport.Disk.Path
import AppExport.Disk.Storage
import AppExport.Document
import AppExport.Json.Cursor
import AppExport.Json.Fault
import AppExport.Json.Members
import AppExport.Json.Printer
import AppExport.Json.Reader
import AppExport.Json.Skip
import AppExport.Json.Token
import AppExport.Json.Typed
import AppExport.Json.Value
import AppExport.Main
import AppExport.Markup.Element
import AppExport.Markup.Imports
import AppExport.Markup.Lowering
import AppExport.Markup.Primitive
import AppExport.Markup.StyleObject
import AppExport.Naming
import AppExport.Proofs.Archive.Container
import AppExport.Proofs.Archive.Entry
import AppExport.Proofs.Build.Signing
import AppExport.Proofs.Build.Simulation
import AppExport.Proofs.Bundle.Assemble
import AppExport.Proofs.Bundle.Delivery
import AppExport.Proofs.Bundle.Descriptors
import AppExport.Proofs.Bundle.Download
import AppExport.Proofs.Bundle.FileSet
import AppExport.Proofs.Cli.Confined
import AppExport.Proofs.Cli.Downloads
import AppExport.Proofs.Cli.Export
import AppExport.Proofs.Cli.SharedDirectory
import AppExport.Proofs.Component.Decoded
import AppExport.Proofs.Component.Edit
import AppExport.Proofs.Component.Identity
import AppExport.Proofs.Component.Kind
import AppExport.Proofs.Component.Lenient
import AppExport.Proofs.Component.Levels
import AppExport.Proofs.Component.Node
import AppExport.Proofs.Component.Place
import AppExport.Proofs.Component.Props
import AppExport.Proofs.Component.Reordered
import AppExport.Proofs.Component.Resolved
import AppExport.Proofs.Component.StyleText
import AppExport.Proofs.Component.StyleValue
import AppExport.Proofs.Config
import AppExport.Proofs.Decimal.Notation
import AppExport.Proofs.Decimal.Rounding
import AppExport.Proofs.Decimal.Shortest
import AppExport.Proofs.Disk.Directory
import AppExport.Proofs.Disk.Place
import AppExport.Proofs.Disk.Storage
import AppExport.Proofs.Document
import AppExport.Proofs.Json.Denotes
import AppExport.Proofs.Json.Draft
import AppExport.Proofs.Json.Entrywise
import AppExport.Proofs.Json.Exact.Basic
import AppExport.Proofs.Json.Exact.Loop
import AppExport.Proofs.Json.Exact.Number
import AppExport.Proofs.Json.Exact.Record
import AppExport.Proofs.Json.Exact.Text
import AppExport.Proofs.Json.Exact.Typed
import AppExport.Proofs.Json.Fields
import AppExport.Proofs.Json.Float
import AppExport.Proofs.Json.Grammar
import AppExport.Proofs.Json.Members
import AppExport.Proofs.Json.Number
import AppExport.Proofs.Json.Numeral
import AppExport.Proofs.Json.Object
import AppExport.Proofs.Json.Overwrite
import AppExport.Proofs.Json.Passing.Completeness
import AppExport.Proofs.Json.Passing.Soundness
import AppExport.Proofs.Json.Passing.Token
import AppExport.Proofs.Json.Reads
import AppExport.Proofs.Json.Record
import AppExport.Proofs.Json.Refusal
import AppExport.Proofs.Json.Results
import AppExport.Proofs.Json.Room
import AppExport.Proofs.Json.Shape
import AppExport.Proofs.Json.Slot
import AppExport.Proofs.Json.Text
import AppExport.Proofs.Json.Value
import AppExport.Proofs.Json.Written
import AppExport.Proofs.List.EraseDups
import AppExport.Proofs.Markup.Attribute
import AppExport.Proofs.Markup.Bindings
import AppExport.Proofs.Markup.ImportList
import AppExport.Proofs.Markup.Indentation
import AppExport.Proofs.Markup.Literal
import AppExport.Proofs.Markup.Locality
import AppExport.Proofs.Markup.Observed
import AppExport.Proofs.Markup.Outline
import AppExport.Proofs.Markup.Placeholder
import AppExport.Proofs.Markup.Recognized
import AppExport.Proofs.Markup.Recovery
import AppExport.Proofs.Markup.StyleObject
import AppExport.Proofs.Markup.StyleRecovery
import AppExport.Proofs.Markup.Tag
import AppExport.Proofs.Naming
import AppExport.Proofs.Naming.Identifier
import AppExport.Proofs.Naming.Token
import AppExport.Proofs.Project.Exact
import AppExport.Proofs.Results
import AppExport.Proofs.Service.Agreement
import AppExport.Proofs.Service.Export
import AppExport.Proofs.Service.Shared
import AppExport.Proofs.Template.Builtin
import AppExport.Proofs.Template.Filled
import AppExport.Proofs.Text.ByteOrder
import AppExport.Proofs.Text.Lines
import AppExport.Proofs.Text.Pieces
import AppExport.Proofs.Text.Quoted
import AppExport.Proofs.Text.Utf8
import AppExport.Service.Address
import AppExport.Service.Export
import AppExport.Service.Route
import AppExport.Template.Builtin
import AppExport.Template.Constant
import AppExport.Template.Fault
import AppExport.Template.Helpers
import AppExport.Template.Logic
import AppExport.Template.Render
import AppExport.Template.Source
import AppExport.Template.Syntax
import AppExport.Template.Tag
import AppExport.Text.Blank
import AppExport.Text.Case
import AppExport.Text.CaseTable
import AppExport.Text.Cluster
import AppExport.Text.ClusterTable
import AppExport.Text.EscapeTable
import AppExport.Text.Escaped
import AppExport.Text.Glyph
import AppExport.Text.Lines
import AppExport.Text.Pieces
import AppExport.Text.Quoted
import AppExport.Text.Ranges
import AppExport.Text.Words
