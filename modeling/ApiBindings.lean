import ApiBindings.Binding
import ApiBindings.Binding.TypeMapping
import ApiBindings.CommandLine
import ApiBindings.CommandLine.Arguments
import ApiBindings.CommandLine.Commands
import ApiBindings.FileTree.Access
import ApiBindings.FileTree.Basic
import ApiBindings.Files
import ApiBindings.Http
import ApiBindings.Http.Address
import ApiBindings.Http.Wire
import ApiBindings.Identifier
import ApiBindings.Json.Basic
import ApiBindings.Json.Fields
import ApiBindings.Json.Printer
import ApiBindings.Json.Reader
import ApiBindings.Json.Token
import ApiBindings.Layout
import ApiBindings.Main
import ApiBindings.Path
import ApiBindings.Plan
import ApiBindings.Proofs.Binding.Binders
import ApiBindings.Proofs.Binding.Declared
import ApiBindings.Proofs.Binding.Imports
import ApiBindings.Proofs.Binding.LegalNames
import ApiBindings.Proofs.Binding.NormalTypes
import ApiBindings.Proofs.Binding.Routes
import ApiBindings.Proofs.Binding.ServiceMembers
import ApiBindings.Proofs.Binding.SupportedTypes
import ApiBindings.Proofs.Binding.TypeMapping
import ApiBindings.Proofs.Binding.WellFormedClasses
import ApiBindings.Proofs.Binding.WellFormedServices
import ApiBindings.Proofs.CommandLine.Generate
import ApiBindings.Proofs.CommandLine.Performing
import ApiBindings.Proofs.CommandLine.SameWork
import ApiBindings.Proofs.Fallible
import ApiBindings.Proofs.FileTree.Directories
import ApiBindings.Proofs.FileTree.Effects
import ApiBindings.Proofs.FileTree.Execution
import ApiBindings.Proofs.FileTree.Frame
import ApiBindings.Proofs.FileTree.Growth
import ApiBindings.Proofs.FileTree.Obstacles
import ApiBindings.Proofs.FileTree.Paving
import ApiBindings.Proofs.FileTree.Reading
import ApiBindings.Proofs.FileTree.Refusal
import ApiBindings.Proofs.FileTree.Repetition
import ApiBindings.Proofs.FileTree.Soundness
import ApiBindings.Proofs.Identifier.FileCase
import ApiBindings.Proofs.Identifier.KebabCase
import ApiBindings.Proofs.Identifier.LateWords
import ApiBindings.Proofs.Identifier.MemberCase
import ApiBindings.Proofs.Identifier.MemberSpelling
import ApiBindings.Proofs.Identifier.Repetition
import ApiBindings.Proofs.Json.Meaning
import ApiBindings.Proofs.Json.Reading
import ApiBindings.Proofs.Json.Records
import ApiBindings.Proofs.Json.Spelling
import ApiBindings.Proofs.Layout.Correspondence
import ApiBindings.Proofs.Layout.FilePath
import ApiBindings.Proofs.Layout.ImportPath
import ApiBindings.Proofs.Layout.ImportTarget
import ApiBindings.Proofs.Path.Parent
import ApiBindings.Proofs.Path.Parts
import ApiBindings.Proofs.Path.Resolution
import ApiBindings.Proofs.Path.Steps
import ApiBindings.Proofs.Plan.Announcement
import ApiBindings.Proofs.Plan.Emission
import ApiBindings.Proofs.Plan.ImportTargets
import ApiBindings.Proofs.Plan.Ownership
import ApiBindings.Proofs.Rendering.Attempts
import ApiBindings.Proofs.Rendering.Dispatch
import ApiBindings.Proofs.Rendering.Service
import ApiBindings.Proofs.Rendering.Wire
import ApiBindings.Proofs.Run.Completion
import ApiBindings.Proofs.Run.EmissionOrder
import ApiBindings.Proofs.Run.Generator
import ApiBindings.Proofs.Run.Outcomes
import ApiBindings.Proofs.Run.Posting
import ApiBindings.Proofs.Run.Regeneration
import ApiBindings.Proofs.Run.Sequence
import ApiBindings.Proofs.Run.Service
import ApiBindings.Proofs.Run.Settlement
import ApiBindings.Proofs.Run.Trace
import ApiBindings.Proofs.Source.Document
import ApiBindings.Proofs.Source.Loading
import ApiBindings.Proofs.Source.References
import ApiBindings.Proofs.Target.ImportGroups
import ApiBindings.Proofs.Target.ImportSet
import ApiBindings.Proofs.Target.Literals
import ApiBindings.Proofs.Target.Readability
import ApiBindings.Proofs.Target.TypeTexts
import ApiBindings.Proofs.Text.LetterCase
import ApiBindings.Rendering
import ApiBindings.Request
import ApiBindings.Run
import ApiBindings.Run.Report
import ApiBindings.Run.Schedule
import ApiBindings.Run.Task
import ApiBindings.Settings
import ApiBindings.Settings.Document
import ApiBindings.Settings.File
import ApiBindings.Source.Document
import ApiBindings.Source.Graph
import ApiBindings.Target.Declaration
import ApiBindings.Target.Printer
import ApiBindings.Target.TypeExpr
import ApiBindings.Text.Basic
import ApiBindings.Text.LetterCase
import ApiBindings.Text.Utf8
import ApiBindings.Toml.Reader
import ApiBindings.Toml.Scalar
import ApiBindings.Toml.Table
import ApiBindings.Toml.Text
import ApiBindings.Toml.Value
