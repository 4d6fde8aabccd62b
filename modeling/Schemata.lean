import Schemata.Access
import Schemata.Attempt
import Schemata.Base64
import Schemata.Binary64.Basic
import Schemata.Binary64.Decimal
import Schemata.Binary64.Shortest
import Schemata.Calendar
import Schemata.Command.Answer
import Schemata.Command.Disk
import Schemata.Command.Error
import Schemata.Command.Line
import Schemata.Command.Run
import Schemata.Config.Basic
import Schemata.Config.File
import Schemata.Constraint
import Schemata.Entity.Info
import Schemata.Entity.Metadata
import Schemata.Entity.Schema
import Schemata.Entity.Status
import Schemata.FieldTree.Basic
import Schemata.FieldTree.Growth
import Schemata.FieldTree.Walk
import Schemata.FieldType
import Schemata.Instant.Basic
import Schemata.Instant.Reader
import Schemata.Json.Basic
import Schemata.Json.Printer
import Schemata.Json.Reader
import Schemata.Json.Shape
import Schemata.JsonSchema
import Schemata.Metadata.Document
import Schemata.Metadata.Error
import Schemata.Metadata.Fields
import Schemata.Metadata.Validation
import Schemata.Path
import Schemata.Path.Json
import Schemata.Projection.Basic
import Schemata.Projection.Reader
import Schemata.Projector.Basic
import Schemata.Projector.Compile
import Schemata.Projector.Document
import Schemata.Registry.Basic
import Schemata.Registry.Lifecycle
import Schemata.RoleMap
import Schemata.Scalar
import Schemata.SortedMap
import Schemata.Text.Blank
import Schemata.Text.Characters
import Schemata.Text.Digits
import Schemata.Text.Quoted
import Schemata.Text.Utf8
import Schemata.Toml.Literal
import Schemata.Toml.Reader
import Schemata.Toml.Table
import Schemata.Version
import Schemata.Proofs.Attempt
import Schemata.Proofs.FieldTree.Growth
import Schemata.Proofs.FieldTree.Nodes
import Schemata.Proofs.FieldTree.Paths
import Schemata.Proofs.FieldTree.WellFormed
import Schemata.Proofs.Json.Place
import Schemata.Proofs.Metadata.Checks
import Schemata.Proofs.Path
import Schemata.Proofs.Projector.LastExclusion
import Schemata.Proofs.Projector.Pointwise
import Schemata.Proofs.Projector.Rules
import Schemata.Proofs.Projector.Scope
import Schemata.Proofs.Projector.Shown
import Schemata.Proofs.Registry.DefaultVersion
import Schemata.Proofs.Registry.History
import Schemata.Proofs.Registry.PublishedVersion
import Schemata.Proofs.Registry.Records
import Schemata.Proofs.Registry.Roles
import Schemata.Proofs.Registry.Run
import Schemata.Proofs.Registry.Steps
import Schemata.Proofs.RoleMap
import Schemata.Proofs.SortedMap
import Schemata.Main
import Schemata.Proofs.Json.Part
import Schemata.Proofs.Projector.SubDocument
import Schemata.Proofs.Projector.Alike
import Schemata.Proofs.Projector.Flattening
import Schemata.Proofs.FieldTree.DeclarationOrder
import Schemata.Proofs.Json.Members
import Schemata.Proofs.JsonSchema
import Schemata.Proofs.Metadata.Declaration
import Schemata.Proofs.Metadata.Filling
import Schemata.Proofs.FieldTree.Keeps
import Schemata.Proofs.Metadata.Nesting
import Schemata.Proofs.Metadata.DeclaredFields
import Schemata.Proofs.Projector.Withheld
import Schemata.Proofs.Projector.UnknownMembers
import Schemata.Proofs.Projector.AddedExclusion
import Schemata.Proofs.Registry.Failures
import Schemata.Proofs.Registry.Independence
import Schemata.Proofs.Projector.Patterns
import Schemata.Proofs.Base64
import Schemata.Proofs.Calendar
import Schemata.Proofs.Text.Padding
import Schemata.Proofs.Projection
import Schemata.Proofs.Instant.Layout
import Schemata.Proofs.Scalar
import Schemata.Proofs.Projector.Idempotence
import Schemata.Proofs.Registry.Grants
import Schemata.Proofs.Entity.Info
import Schemata.Proofs.Registry.Loading
import Schemata.Proofs.Registry.Interchange
import Schemata.Proofs.Registry.RegisteredDefault
import Schemata.Proofs.Json.Kept
import Schemata.Proofs.Projector.Inclusion
import Schemata.Proofs.Projector.LastInclusion
import Schemata.Proofs.Projector.ScalarArrays
import Schemata.Proofs.Projector.Relocation
import Schemata.Proofs.Projector.DefaultPolicy
import Schemata.Proofs.Projector.IndexSegments
import Schemata.Proofs.Projector.Walk
import Schemata.Proofs.Projector.Slice
import Schemata.Proofs.FieldTree.RequiredFields
import Schemata.Proofs.Projector.AddedInclusion
import Schemata.Proofs.Projector.RuleOrder
import Schemata.Proofs.Metadata.Grammar
import Schemata.Proofs.Metadata.Acceptance
import Schemata.Proofs.Json.Reader
import Schemata.Proofs.FieldTree.Extension
import Schemata.Proofs.Binary64.Nearest
import Schemata.Proofs.Scalar.Encoding
import Schemata.Proofs.Version
import Schemata.Proofs.Path.Writing
import Schemata.Proofs.Path.Unification
import Schemata.Proofs.FieldType
import Schemata.Proofs.Projector.ExactMatch
import Schemata.Proofs.RoleMap.Merging
