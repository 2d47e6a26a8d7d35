import SchemaForge.Builder.Chain
import SchemaForge.Builder.Plan
import SchemaForge.CommandLine.Arguments
import SchemaForge.CommandLine.Layout
import SchemaForge.CommandLine.Markup
import SchemaForge.CommandLine.Run
import SchemaForge.Digest.Md5
import SchemaForge.Entries
import SchemaForge.Fault
import SchemaForge.Files
import SchemaForge.Generation.Backend
import SchemaForge.Generation.Registry
import SchemaForge.Generation.Session
import SchemaForge.Generation.Tidy
import SchemaForge.Java.Annotations
import SchemaForge.Java.Backend
import SchemaForge.Java.ClassDecl
import SchemaForge.Java.Imports
import SchemaForge.Java.Literal
import SchemaForge.Java.Names
import SchemaForge.Java.Templates
import SchemaForge.Java.Types
import SchemaForge.Json.Basic
import SchemaForge.Json.CodePoint
import SchemaForge.Json.Display
import SchemaForge.Json.File
import SchemaForge.Json.Reader
import SchemaForge.Json.Written
import SchemaForge.Loader.Load
import SchemaForge.Loader.Url
import SchemaForge.Logging
import SchemaForge.Main
import SchemaForge.Naming.Allocator
import SchemaForge.Naming.Words
import SchemaForge.Number.Binary64
import SchemaForge.Number.Shortest
import SchemaForge.Schema.Basic
import SchemaForge.Schema.Document
import SchemaForge.Schema.Version
import SchemaForge.Settings.Basic
import SchemaForge.Settings.Load
import SchemaForge.Targets
import SchemaForge.Template.Basic
import SchemaForge.Text.Blank
import SchemaForge.Text.Casing
import SchemaForge.Text.CasingTable
import SchemaForge.Text.Cells
import SchemaForge.Text.CellsTable
import SchemaForge.Text.Decimal
import SchemaForge.Text.Identifier
import SchemaForge.Text.Pieces
import SchemaForge.Text.Printable
import SchemaForge.Text.Quoted
import SchemaForge.Text.Runs
import SchemaForge.Text.Utf8
import SchemaForge.Proofs.Generation.Yields
import SchemaForge.Proofs.Java.Emission
import SchemaForge.Proofs.Builder.Keys
import SchemaForge.Proofs.Builder.Plans
import SchemaForge.Proofs.Builder.Walks
import SchemaForge.Proofs.Java.DerivedNames
import SchemaForge.Proofs.Template.Renders
import SchemaForge.Proofs.Java.ClassText
import SchemaForge.Proofs.Java.Construction
import SchemaForge.Proofs.Text.Casing
import SchemaForge.Proofs.Naming.Numbering
import SchemaForge.Proofs.Naming.Styles
import SchemaForge.Proofs.Naming.Histories
import SchemaForge.Proofs.Naming.UsedNames
import SchemaForge.Proofs.Naming.RequestTexts
import SchemaForge.Proofs.Naming.Identifiers
import SchemaForge.Proofs.Java.TypeNames
import SchemaForge.Proofs.Json.Alike
import SchemaForge.Proofs.Number.Intervals
import SchemaForge.Proofs.Number.ShortestDigits
import SchemaForge.Proofs.Number.ShortestText
import SchemaForge.Proofs.Json.CodePoints
import SchemaForge.Proofs.Json.Canonical
import SchemaForge.Proofs.Schema.Reading
import SchemaForge.Proofs.Json.WellKeyed
import SchemaForge.Proofs.Schema.Version
import SchemaForge.Proofs.Java.Identifiers
import SchemaForge.Proofs.Schema.Names
import SchemaForge.Proofs.Java.ClassPass
import SchemaForge.Proofs.Java.RejectedIds
import SchemaForge.Proofs.Java.ClassNames
import SchemaForge.Proofs.Java.Warnings
import SchemaForge.Proofs.Generation.Registration
import SchemaForge.Proofs.Generation.Aliases
import SchemaForge.Proofs.Settings.Members
import SchemaForge.Proofs.Settings.Precedence
import SchemaForge.Proofs.Loader.Endings
import SchemaForge.Proofs.Java.ImportList
import SchemaForge.Proofs.Java.ImportFamilies
import SchemaForge.Proofs.Java.SimpleNames
import SchemaForge.Proofs.Text.Utf8
import SchemaForge.Proofs.Files.Writing
import SchemaForge.Proofs.Json.Indented
import SchemaForge.Proofs.Json.ReadBack
import SchemaForge.Proofs.Settings.Saving
import SchemaForge.Proofs.Schema.RoundTrip
import SchemaForge.Proofs.Generation.TwoRuns
import SchemaForge.Proofs.Generation.Outcomes
import SchemaForge.Proofs.Generation.Reuse
import SchemaForge.Proofs.Java.Siblings
import SchemaForge.Proofs.CommandLine.Delivery
import SchemaForge.Proofs.Java.Refusals
import SchemaForge.Proofs.Java.Captures
import SchemaForge.Proofs.Java.CallGraph
import SchemaForge.Proofs.Generation.Lines
import SchemaForge.Proofs.Java.Literals
import SchemaForge.Proofs.Java.LiteralArrays
import SchemaForge.Proofs.Java.NameLiterals
import SchemaForge.Proofs.Java.ClassNameRequests
import SchemaForge.Proofs.Text.Substitution
import SchemaForge.Proofs.Naming.Cuts
import SchemaForge.Proofs.Naming.InWords
import SchemaForge.Proofs.Generation.Spacing
import SchemaForge.Proofs.Schema.Shapes
import SchemaForge.Proofs.Schema.Described
import SchemaForge.Proofs.Schema.Mappings
import SchemaForge.Proofs.Number.WholePart
import SchemaForge.Proofs.Java.ConnectionArguments
import SchemaForge.Proofs.Generation.Parts
import SchemaForge.Proofs.Text.CommaLists
import SchemaForge.Proofs.Java.Provider
import SchemaForge.Proofs.Java.UnhandledDirectives
import SchemaForge.Proofs.Java.DirectiveIndependence
import SchemaForge.Proofs.Java.EnumSource
import SchemaForge.Proofs.Java.EnumPass
import SchemaForge.Proofs.Generation.Removal
import SchemaForge.Proofs.Naming.Avoidance
import SchemaForge.Proofs.Java.ReservedNames
import SchemaForge.Proofs.Generation.Selection
import SchemaForge.Proofs.Generation.Reports
import SchemaForge.Proofs.Java.Reports
import SchemaForge.Proofs.Settings.Endings
