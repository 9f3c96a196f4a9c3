import TagVersion.Config
import TagVersion.Declaration
import TagVersion.Diagnostic
import TagVersion.Environment.Lookup
import TagVersion.Environment.Pattern
import TagVersion.Error
import TagVersion.Files.Path
import TagVersion.Files.SystemError
import TagVersion.Files.Tree
import TagVersion.Metadata
import TagVersion.Project.Configuration
import TagVersion.Project.Draft
import TagVersion.Project.Hook
import TagVersion.Project.Release
import TagVersion.Project.SourceLine
import TagVersion.Project.Sources
import TagVersion.Project.Versioning
import TagVersion.Proofs.Branches
import TagVersion.Proofs.Branches.Literal
import TagVersion.Proofs.Branches.Repeating
import TagVersion.Proofs.Compact.NormalForm
import TagVersion.Proofs.Compact.Placeholders
import TagVersion.Proofs.Compact.Split
import TagVersion.Proofs.Compact.Tables
import TagVersion.Proofs.Config.Tables
import TagVersion.Proofs.Environment.Lookups
import TagVersion.Proofs.Environment.Patterns
import TagVersion.Proofs.Files.Locations
import TagVersion.Proofs.Files.Shape
import TagVersion.Proofs.Files.Writing
import TagVersion.Proofs.Filling.Calls
import TagVersion.Proofs.Filling.Exits
import TagVersion.Proofs.Filling.Outcome
import TagVersion.Proofs.Filling.Problems
import TagVersion.Proofs.Filling.Seeding
import TagVersion.Proofs.Metadata.History
import TagVersion.Proofs.Release.Chain
import TagVersion.Proofs.Release.Checks
import TagVersion.Proofs.Release.Commit
import TagVersion.Proofs.Release.DeclaredBranches
import TagVersion.Proofs.Release.DryRun
import TagVersion.Proofs.Release.Order
import TagVersion.Proofs.Release.Placement
import TagVersion.Proofs.Release.Prediction
import TagVersion.Proofs.Release.WholeTree
import TagVersion.Proofs.Repository.Distance
import TagVersion.Proofs.Repository.Conversion
import TagVersion.Proofs.Repository.Snapshots
import TagVersion.Proofs.Repository.Staging
import TagVersion.Proofs.Repository.Tags
import TagVersion.Proofs.Repository.WholeTree
import TagVersion.Proofs.Sources
import TagVersion.Proofs.Sources.Lines
import TagVersion.Proofs.Sources.Outcome
import TagVersion.Proofs.Sources.Pointers
import TagVersion.Proofs.Sources.Remarks
import TagVersion.Proofs.Sources.Repeating
import TagVersion.Proofs.Sources.Rewriting
import TagVersion.Proofs.Sources.Unreadable
import TagVersion.Proofs.Sources.Unsigned
import TagVersion.Proofs.Steps
import TagVersion.Proofs.Strategy.ExtraText
import TagVersion.Proofs.Strategy.NextVersions
import TagVersion.Proofs.Strategy.Problems
import TagVersion.Proofs.Template.Decomposition
import TagVersion.Proofs.Template.Parts
import TagVersion.Proofs.Toml.Kept
import TagVersion.Proofs.Version.DescriptionForm
import TagVersion.Proofs.Version.Descriptions
import TagVersion.Proofs.Version.LongNumbers
import TagVersion.Proofs.Version.Triplets
import TagVersion.Repository.Attributes
import TagVersion.Repository.Basic
import TagVersion.Repository.Checkout
import TagVersion.Repository.CommitIds
import TagVersion.Repository.Conversion
import TagVersion.Repository.Describe
import TagVersion.Repository.Ident
import TagVersion.Repository.Ignore
import TagVersion.Repository.LineEnds
import TagVersion.Repository.NameGlob
import TagVersion.Repository.PathRule
import TagVersion.Repository.RefName
import TagVersion.Repository.Site
import TagVersion.Repository.Snapshot
import TagVersion.Repository.Staging
import TagVersion.Scm.Recorder
import TagVersion.Shell.Arithmetic
import TagVersion.Shell.Builtins
import TagVersion.Shell.Bytes
import TagVersion.Shell.Child
import TagVersion.Shell.Condition
import TagVersion.Shell.Expansion
import TagVersion.Shell.Interpreter
import TagVersion.Shell.Launch
import TagVersion.Shell.Machine
import TagVersion.Shell.Meaning
import TagVersion.Shell.Output
import TagVersion.Shell.Parser
import TagVersion.Shell.Pattern
import TagVersion.Shell.Preparation
import TagVersion.Shell.Programs.Arguments
import TagVersion.Shell.Programs.FileOperations
import TagVersion.Shell.Programs.LineEditor
import TagVersion.Shell.Programs.Lines
import TagVersion.Shell.Programs.Search
import TagVersion.Shell.Programs.Table
import TagVersion.Shell.Programs.Values
import TagVersion.Shell.QuotedName
import TagVersion.Shell.Regex
import TagVersion.Shell.Syntax
import TagVersion.Strategy.Basic
import TagVersion.Strategy.Branches
import TagVersion.Strategy.Compact
import TagVersion.Strategy.Rendering
import TagVersion.Template.Format
import TagVersion.Template.Parser
import TagVersion.Template.Part
import TagVersion.Text.Blank
import TagVersion.Text.CodePoints
import TagVersion.Text.Cut
import TagVersion.Text.DecimalDigit
import TagVersion.Text.HiddenChar
import TagVersion.Text.Lossy
import TagVersion.Text.Numeral
import TagVersion.Text.Quoted
import TagVersion.Text.Regex
import TagVersion.Text.WordChar
import TagVersion.Toml.Document
import TagVersion.Toml.Kept
import TagVersion.Toml.Quotation
import TagVersion.Toml.Scalar
import TagVersion.Toml.Tree
import TagVersion.Toml.Value
import TagVersion.Version.Description
import TagVersion.Version.Facts
import TagVersion.Version.Field
import TagVersion.Version.Triplet
import TagVersion.Workspace
