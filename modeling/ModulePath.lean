import ModulePath.Cache.Loose
import ModulePath.Cache.Patterns
import ModulePath.FileSystem.Computer
import ModulePath.FileSystem.Tree
import ModulePath.Filter.Consult
import ModulePath.Filter.Expr
import ModulePath.Filter.Loose
import ModulePath.Glob.Checked
import ModulePath.Layers.Loose
import ModulePath.Log.Registry
import ModulePath.Main
import ModulePath.Program.Trace
import ModulePath.Proofs.Cache.Memo
import ModulePath.Proofs.Cache.Patterns
import ModulePath.Proofs.Descriptor.Grammar
import ModulePath.Proofs.Edge.Decision
import ModulePath.Proofs.FileSystem.Tree
import ModulePath.Proofs.Filter.Arguments
import ModulePath.Proofs.Filter.FirstRule
import ModulePath.Proofs.Filter.Meaning
import ModulePath.Proofs.Glob.Cut
import ModulePath.Proofs.Glob.Expression
import ModulePath.Proofs.Glob.Language
import ModulePath.Proofs.Glob.Tokens
import ModulePath.Proofs.Layers.SearchPath
import ModulePath.Proofs.Layers.Success
import ModulePath.Proofs.Outcome
import ModulePath.Proofs.Program.Outcome
import ModulePath.Proofs.Rule.Applies
import ModulePath.Proofs.Text.Sort
import ModulePath.Proofs.Value.Keys
import ModulePath.Proofs.Value.Parts
import ModulePath.Rule.Checked
import ModulePath.Proofs.Descriptor.Reading
import ModulePath.Proofs.FileSystem.Agreement
import ModulePath.Proofs.Layers.Confinement
import ModulePath.Proofs.Descriptor.Ending
import ModulePath.Proofs.Command.Run
import ModulePath.Proofs.Command.Malformed
import ModulePath.Proofs.Descriptor.Declared
import ModulePath.Proofs.Edge.Construction
import ModulePath.Proofs.Layers.Failure
import ModulePath.Proofs.Config.Sections
import ModulePath.Proofs.Command.InForce
import ModulePath.Proofs.Value.Dictionary
import ModulePath.Proofs.Config.Overlay
import ModulePath.Proofs.Config.Reachable
import ModulePath.Proofs.Cache.Recency
import ModulePath.Proofs.Report.Check
import ModulePath.Proofs.Layers.Explicit
import ModulePath.Proofs.Filter.Equality
import ModulePath.Proofs.Layers.BaseLayer
import ModulePath.Proofs.Layers.Names
import ModulePath.Proofs.Config.Validity
import ModulePath.Proofs.Descriptor.Writing
import ModulePath.Proofs.Edge.Widening
import ModulePath.Proofs.Edge.SpelledOut
import ModulePath.Proofs.Cache.Presence
import ModulePath.Proofs.Cache.Inclusion
import ModulePath.Proofs.Glob.Descendants
import ModulePath.Proofs.Text.Squeeze
import ModulePath.Proofs.Glob.NormalForm
import ModulePath.Proofs.Glob.Quoting
import ModulePath.Proofs.Cache.Balance
import ModulePath.Proofs.Glob.Repeated
import ModulePath.Proofs.Filter.Negation
import ModulePath.Proofs.Filter.RuleList
import ModulePath.Proofs.Filter.ShortCircuit
import ModulePath.Proofs.Filter.Selection
import ModulePath.Proofs.Filter.Classes
import ModulePath.Proofs.Path.Apart
import ModulePath.Proofs.FileSystem.Listing
import ModulePath.Proofs.Layers.ListingOrder
import ModulePath.Proofs.Layers.Entries
import ModulePath.Config.Objects
import ModulePath.Proofs.Config.Beside
import ModulePath.Proofs.Config.Writing
import ModulePath.Proofs.Config.Faults
import ModulePath.Proofs.Number.Digits
import ModulePath.Proofs.Command.Configuration
import ModulePath.Proofs.Config.Variables
import ModulePath.Proofs.Layers.LinePattern
import ModulePath.Proofs.Layers.Properties
import ModulePath.Proofs.Layers.Reads
import ModulePath.Proofs.Layers.Registration
import ModulePath.Proofs.Layers.Logging
import ModulePath.Proofs.Glob.Scanning
import ModulePath.Proofs.Number.Spelling
import ModulePath.Proofs.Config.Spelled
import ModulePath.Proofs.Descriptor.Forms
import ModulePath.Log.Script
import ModulePath.Proofs.Log.Nesting
import ModulePath.Proofs.Config.Sharing
