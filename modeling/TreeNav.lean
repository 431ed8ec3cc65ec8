import TreeNav.Arena
import TreeNav.Category
import TreeNav.Classifier
import TreeNav.CommandLine.Arguments
import TreeNav.CommandLine.Command
import TreeNav.CommandLine.Run
import TreeNav.CommandLine.Sidecar
import TreeNav.Fault
import TreeNav.FileName
import TreeNav.FileStore
import TreeNav.Language.Builtin
import TreeNav.Language.Override
import TreeNav.Language.Registry
import TreeNav.Language.Table
import TreeNav.Locate.Jump
import TreeNav.Locate.Motion
import TreeNav.Locate.Position
import TreeNav.Locate.Selection
import TreeNav.Locate.Sibling
import TreeNav.Main
import TreeNav.Motion
import TreeNav.Navigation
import TreeNav.Report.BoxTable
import TreeNav.Report.Json
import TreeNav.Report.Listing
import TreeNav.Report.Theme
import TreeNav.Session
import TreeNav.Settings
import TreeNav.Settings.File
import TreeNav.SortedMap
import TreeNav.Span
import TreeNav.Text.Alphanumeric
import TreeNav.Text.CaseContext
import TreeNav.Text.CaseRun
import TreeNav.Text.CodeRange
import TreeNav.Text.Lowercase
import TreeNav.Text.Pieces
import TreeNav.Text.Width
import TreeNav.Toml.DateTime
import TreeNav.Toml.Document
import TreeNav.Toml.Number
import TreeNav.Toml.Printer
import TreeNav.Toml.Quoted
import TreeNav.Toml.Reader
import TreeNav.Toml.Scan
import TreeNav.Toml.Value
import TreeNav.Tree.Basic
import TreeNav.Tree.Children
import TreeNav.Tree.Node
import TreeNav.Tree.Outline
import TreeNav.Tree.View
import TreeNav.Proofs.Enumeration
import TreeNav.Proofs.Lineage
import TreeNav.Proofs.WellFormed
import TreeNav.Proofs.Descent
import TreeNav.Proofs.Siblings
import TreeNav.Proofs.Searches
import TreeNav.Proofs.Run
import TreeNav.Proofs.Progress
import TreeNav.Proofs.Resolution
import TreeNav.Proofs.Settling
import TreeNav.Proofs.Reach
import TreeNav.Proofs.Nearest
import TreeNav.Proofs.Tour
import TreeNav.Proofs.Removal
import TreeNav.Proofs.Building
import TreeNav.Proofs.Records
import TreeNav.Proofs.Views
import TreeNav.Proofs.Preorder
import TreeNav.Proofs.Largest
import TreeNav.Proofs.Bounds
import TreeNav.Proofs.LetterCase
import TreeNav.Proofs.Merging
import TreeNav.Proofs.Overrides
import TreeNav.Proofs.Quoting
import TreeNav.Proofs.Statements
import TreeNav.Proofs.Documents
import TreeNav.Proofs.Storage
import TreeNav.Proofs.SettingsFile
import TreeNav.Proofs.Jumps
import TreeNav.Proofs.Neighbours
import TreeNav.Proofs.Deepest
import TreeNav.Proofs.Growing
import TreeNav.Proofs.Outward
import TreeNav.Proofs.LastWord
import TreeNav.Proofs.Listings
import TreeNav.Proofs.Repair
import TreeNav.Proofs.Handout
import TreeNav.Proofs.SetUp
import TreeNav.Proofs.Naming
import TreeNav.Proofs.FileLookup
