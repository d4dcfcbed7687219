import Arborist.Calendar
import Arborist.Command.Basic
import Arborist.Command.Display
import Arborist.Command.Find
import Arborist.Command.Invocation
import Arborist.Command.Transform
import Arborist.Diff.Blocks
import Arborist.Diff.Unified
import Arborist.Document
import Arborist.Edit.Basic
import Arborist.Edit.Render
import Arborist.Folder
import Arborist.Journal
import Arborist.Kind
import Arborist.Language
import Arborist.Log
import Arborist.Main
import Arborist.Numeral.Arithmetic
import Arborist.Numeral.Binary
import Arborist.Numeral.Integer
import Arborist.Query
import Arborist.Replace.Regex
import Arborist.Replace.Substitution
import Arborist.Revision.Draft
import Arborist.Revision.Imports
import Arborist.Revision.Insert
import Arborist.Revision.Remove
import Arborist.Revision.Rename
import Arborist.Revision.ReplaceIn
import Arborist.Selector.Basic
import Arborist.Selector.Flaw
import Arborist.Selector.Matching
import Arborist.Selector.Memory
import Arborist.Selector.Parser
import Arborist.Settings.Check
import Arborist.Settings.Datum
import Arborist.Settings.Load
import Arborist.Settings.Merge
import Arborist.Settings.Value
import Arborist.Text.Base64
import Arborist.Text.Blank
import Arborist.Text.Bytes
import Arborist.Text.Case
import Arborist.Text.Cased
import Arborist.Text.Letter
import Arborist.Text.Lines
import Arborist.Text.Printable
import Arborist.Text.Quoted
import Arborist.Tree.Basic
import Arborist.Tree.Outline
import Arborist.Tree.Place
import Arborist.Tree.Visitor
import Arborist.Tree.Walk
import Arborist.Yaml.Graph
import Arborist.Yaml.Load
import Arborist.Yaml.LoadFault
import Arborist.Yaml.Plain
import Arborist.Yaml.Point
import Arborist.Yaml.ScalarText
import Arborist.Yaml.Simple
import Arborist.Yaml.Tag
import Arborist.Yaml.Timestamp
import Arborist.Yaml.Token
import Arborist.Proofs.Edit.Order
import Arborist.Proofs.Text.Utf8
import Arborist.Proofs.Text.Rows
import Arborist.Proofs.Edit.Splice
import Arborist.Proofs.Edit.Outcome
import Arborist.Proofs.Selector.Grammar
import Arborist.Proofs.Selector.Lexical
import Arborist.Proofs.Selector.Reading
import Arborist.Proofs.Tree.Kinship
import Arborist.Proofs.Tree.Preorder
import Arborist.Proofs.Selector.Attribute
import Arborist.Proofs.Selector.Meaning
import Arborist.Proofs.Selector.Remembered
import Arborist.Proofs.Search.Listing
import Arborist.Proofs.Search.Laws
import Arborist.Proofs.Selector.Printing
import Arborist.Proofs.Revision.Operations
import Arborist.Proofs.Revision.Atomicity
import Arborist.Proofs.Selector.Recency
import Arborist.Proofs.Settings.Datum
import Arborist.Proofs.Settings.Ending
import Arborist.Proofs.Settings.Merging
import Arborist.Proofs.Settings.Loading
import Arborist.Proofs.Revision.Usage
import Arborist.Proofs.Tree.Layout
import Arborist.Proofs.Tree.Tour
import Arborist.Proofs.Tree.Way
import Arborist.Proofs.Tree.Deepest
import Arborist.Proofs.Revision.ImportCleanup
import Arborist.Proofs.Revision.ImportPlacement
import Arborist.Proofs.Revision.Removal
import Arborist.Proofs.Revision.CallPattern
import Arborist.Proofs.Revision.Renaming
import Arborist.Proofs.Replace.Literal
import Arborist.Proofs.Revision.ReplacingIn
import Arborist.Proofs.Revision.Insertion
import Arborist.Proofs.Command.Steps
import Arborist.Proofs.Command.WriteBack
import Arborist.Proofs.Settings.Keys
import Arborist.Proofs.Settings.ClosedForm
import Arborist.Proofs.Settings.Overrides
import Arborist.Proofs.Tree.Recovery
import Arborist.Proofs.Selector.Misreading
import Arborist.Proofs.Text.LineEnds
import Arborist.Proofs.Diff.CommonBlocks
import Arborist.Proofs.Diff.Patch
import Arborist.Proofs.Diff.Script
import Arborist.Proofs.Diff.Printed
import Arborist.Proofs.Diff.Separation
import Arborist.Proofs.Command.ShownDiff
