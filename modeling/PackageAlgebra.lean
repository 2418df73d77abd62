import PackageAlgebra.Atom.Basic
import PackageAlgebra.Atom.Parser
import PackageAlgebra.Atom.Printer
import PackageAlgebra.CommandLine.Reply
import PackageAlgebra.CommandLine.Request
import PackageAlgebra.Depend.Json
import PackageAlgebra.Depend.Parser
import PackageAlgebra.Depend.Tree
import PackageAlgebra.Error
import PackageAlgebra.Files
import PackageAlgebra.Gzip
import PackageAlgebra.Json.Basic
import PackageAlgebra.Json.Reader
import PackageAlgebra.Json.Writer
import PackageAlgebra.Main
import PackageAlgebra.Package.Basic
import PackageAlgebra.Package.Record.Attributes
import PackageAlgebra.Package.Record.Basic
import PackageAlgebra.Package.Record.Json
import PackageAlgebra.Pattern.Basic
import PackageAlgebra.Pattern.Bracket
import PackageAlgebra.Pattern.Parser
import PackageAlgebra.Pattern.Primitive
import PackageAlgebra.Pattern.Simplify
import PackageAlgebra.Pattern.Size
import PackageAlgebra.Proofs.Atom.Derived
import PackageAlgebra.Proofs.Atom.Match
import PackageAlgebra.Proofs.Atom.Parts
import PackageAlgebra.Proofs.Atom.RoundTrip
import PackageAlgebra.Proofs.Atom.Scale
import PackageAlgebra.Proofs.Atom.Spelling
import PackageAlgebra.Proofs.CommandLine.Location
import PackageAlgebra.Proofs.Depend.Conditionals
import PackageAlgebra.Proofs.Depend.Grammar
import PackageAlgebra.Proofs.Depend.Loaded
import PackageAlgebra.Proofs.Depend.Meaning
import PackageAlgebra.Proofs.Depend.Reload
import PackageAlgebra.Proofs.Depend.RoundTrip
import PackageAlgebra.Proofs.Except
import PackageAlgebra.Proofs.Files
import PackageAlgebra.Proofs.Json
import PackageAlgebra.Proofs.Package.Basic
import PackageAlgebra.Proofs.Package.Record
import PackageAlgebra.Proofs.Pattern.Anchored
import PackageAlgebra.Proofs.Pattern.Bracket
import PackageAlgebra.Proofs.Pattern.Escape
import PackageAlgebra.Proofs.Pattern.Local
import PackageAlgebra.Proofs.Pattern.Match
import PackageAlgebra.Proofs.Pattern.Parser
import PackageAlgebra.Proofs.Pattern.Primitive
import PackageAlgebra.Proofs.Query.Associate
import PackageAlgebra.Proofs.Query.AtomGroup
import PackageAlgebra.Proofs.Query.AttributePath
import PackageAlgebra.Proofs.Query.Best
import PackageAlgebra.Proofs.Query.Candidates
import PackageAlgebra.Proofs.Query.Concord
import PackageAlgebra.Proofs.Query.Group
import PackageAlgebra.Proofs.Query.Identity
import PackageAlgebra.Proofs.Query.Memory
import PackageAlgebra.Proofs.Query.PathMemory
import PackageAlgebra.Proofs.Query.ShortCircuit
import PackageAlgebra.Proofs.Query.Sorted
import PackageAlgebra.Proofs.Query.Timeline
import PackageAlgebra.Proofs.Query.ValueTest
import PackageAlgebra.Proofs.Query.Watched
import PackageAlgebra.Proofs.Repository.Entry
import PackageAlgebra.Proofs.Repository.Index
import PackageAlgebra.Proofs.Repository.Stack
import PackageAlgebra.Proofs.Text.Cut
import PackageAlgebra.Proofs.Text.Decimal
import PackageAlgebra.Proofs.Version.Glob
import PackageAlgebra.Proofs.Version.Grammar
import PackageAlgebra.Proofs.Version.Integers
import PackageAlgebra.Proofs.Version.NormalForm
import PackageAlgebra.Proofs.Version.Order
import PackageAlgebra.Proofs.Version.RoundTrip
import PackageAlgebra.Proofs.Version.Spelling
import PackageAlgebra.Query.Filter
import PackageAlgebra.Query.Group
import PackageAlgebra.Query.Selection
import PackageAlgebra.Query.Timeline
import PackageAlgebra.Repository.Basic
import PackageAlgebra.Repository.Config
import PackageAlgebra.Text
import PackageAlgebra.Unicode.Age
import PackageAlgebra.Unicode.Boundary
import PackageAlgebra.Unicode.CaseFold
import PackageAlgebra.Unicode.Category
import PackageAlgebra.Unicode.CharClass
import PackageAlgebra.Unicode.Derived
import PackageAlgebra.Unicode.Property
import PackageAlgebra.Unicode.Script
import PackageAlgebra.Unicode.ScriptExtension
import PackageAlgebra.Value
import PackageAlgebra.Version
