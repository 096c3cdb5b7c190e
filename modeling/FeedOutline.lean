import FeedOutline.Classified
import FeedOutline.Cli.Arguments
import FeedOutline.Cli.Request
import FeedOutline.Cli.Run
import FeedOutline.Cli.Session
import FeedOutline.Compile
import FeedOutline.Compile.Records
import FeedOutline.Config.Load
import FeedOutline.Config.Override
import FeedOutline.Config.Schema
import FeedOutline.Data.Binary
import FeedOutline.Data.Decimal
import FeedOutline.Data.Document
import FeedOutline.Data.Json
import FeedOutline.Data.Merge
import FeedOutline.Data.SetOrder
import FeedOutline.Data.Time
import FeedOutline.Data.Value
import FeedOutline.Disk.FileTree
import FeedOutline.Disk.Pathname
import FeedOutline.Engine
import FeedOutline.Entry
import FeedOutline.Environment
import FeedOutline.Environment.Assignment
import FeedOutline.Flat
import FeedOutline.Keyword
import FeedOutline.Ledger
import FeedOutline.Link
import FeedOutline.Log.Format
import FeedOutline.Log.Logger
import FeedOutline.Log.Record
import FeedOutline.Log.Setup
import FeedOutline.Main
import FeedOutline.Markup.Aside
import FeedOutline.Markup.Attribute
import FeedOutline.Markup.AttributeList
import FeedOutline.Markup.ContentModel
import FeedOutline.Markup.Declaration
import FeedOutline.Markup.Declarations
import FeedOutline.Markup.Doctype
import FeedOutline.Markup.Fault
import FeedOutline.Markup.NameChar
import FeedOutline.Markup.Node
import FeedOutline.Markup.Reader
import FeedOutline.Markup.Reference
import FeedOutline.Markup.Tag
import FeedOutline.Markup.Token
import FeedOutline.Markup.Value
import FeedOutline.Markup.Writer
import FeedOutline.Opml.Export
import FeedOutline.Opml.Import
import FeedOutline.Opml.Item
import FeedOutline.Outline.Drawer
import FeedOutline.Outline.Heading
import FeedOutline.Outline.Node
import FeedOutline.Outline.Reader
import FeedOutline.Proofs.Classified.Named
import FeedOutline.Proofs.Classified.Shape
import FeedOutline.Proofs.Cli.Append
import FeedOutline.Proofs.Cli.Session
import FeedOutline.Proofs.Compile.Addresses
import FeedOutline.Proofs.Compile.Depth
import FeedOutline.Proofs.Compile.Documents
import FeedOutline.Proofs.Compile.Feeds
import FeedOutline.Proofs.Compile.Ignored
import FeedOutline.Proofs.Compile.Outcome
import FeedOutline.Proofs.Compile.Parts
import FeedOutline.Proofs.Compile.Repeated
import FeedOutline.Proofs.Compile.Sources
import FeedOutline.Proofs.Compile.Titles
import FeedOutline.Proofs.Compile.Union
import FeedOutline.Proofs.Compile.WellFormed
import FeedOutline.Proofs.Config.Accepted
import FeedOutline.Proofs.Config.Escape
import FeedOutline.Proofs.Config.Marker
import FeedOutline.Proofs.Data.Copy
import FeedOutline.Proofs.Data.Place
import FeedOutline.Proofs.Data.TextKeys
import FeedOutline.Proofs.Disk.FileTree
import FeedOutline.Proofs.Disk.Pathname
import FeedOutline.Proofs.Engine.Run
import FeedOutline.Proofs.Entry
import FeedOutline.Proofs.Entry.Tagging
import FeedOutline.Proofs.Environment
import FeedOutline.Proofs.Except
import FeedOutline.Proofs.Flat.Dedupe
import FeedOutline.Proofs.Flat.Inheritance
import FeedOutline.Proofs.Flat.Leaves
import FeedOutline.Proofs.Flat.Paths
import FeedOutline.Proofs.Grouping
import FeedOutline.Proofs.LastGives
import FeedOutline.Proofs.Ledger
import FeedOutline.Proofs.Log.Files
import FeedOutline.Proofs.Log.Precedence
import FeedOutline.Proofs.Log.Setup
import FeedOutline.Proofs.Lookup
import FeedOutline.Proofs.Markup.Content
import FeedOutline.Proofs.Markup.Document
import FeedOutline.Proofs.Markup.Element
import FeedOutline.Proofs.Markup.Escape
import FeedOutline.Proofs.Markup.Refused
import FeedOutline.Proofs.Markup.Takes
import FeedOutline.Proofs.Opml.Admitted
import FeedOutline.Proofs.Opml.FeedText
import FeedOutline.Proofs.Opml.Folders
import FeedOutline.Proofs.Opml.Forged
import FeedOutline.Proofs.Opml.Headings
import FeedOutline.Proofs.Opml.Items
import FeedOutline.Proofs.Opml.Marked
import FeedOutline.Proofs.Opml.Portable
import FeedOutline.Proofs.Opml.ReadBack
import FeedOutline.Proofs.Opml.Recovered
import FeedOutline.Proofs.Opml.Returned
import FeedOutline.Proofs.Opml.RoundTrip
import FeedOutline.Proofs.Opml.Rules
import FeedOutline.Proofs.Opml.Tree
import FeedOutline.Proofs.Outline.Annotation
import FeedOutline.Proofs.Outline.Declared
import FeedOutline.Proofs.Outline.Depth
import FeedOutline.Proofs.Outline.Document
import FeedOutline.Proofs.Outline.Drawer
import FeedOutline.Proofs.Outline.Forest
import FeedOutline.Proofs.Outline.HeadingLine
import FeedOutline.Proofs.Outline.Marker
import FeedOutline.Proofs.Outline.Reading
import FeedOutline.Proofs.Outline.Seam
import FeedOutline.Proofs.Outline.Section
import FeedOutline.Proofs.RuleTable
import FeedOutline.Proofs.RuleTable.Build
import FeedOutline.Proofs.RuleTable.Feeds
import FeedOutline.Proofs.RuleTable.KeywordOrder
import FeedOutline.Proofs.RuleTable.Views
import FeedOutline.Proofs.Settings.Run
import FeedOutline.Proofs.Store
import FeedOutline.Proofs.TagSet
import FeedOutline.Proofs.Text.Lines
import FeedOutline.Rule
import FeedOutline.RuleTable
import FeedOutline.Sample
import FeedOutline.Settings
import FeedOutline.Store
import FeedOutline.TagSet
import FeedOutline.Text.Blank
import FeedOutline.Text.Case
import FeedOutline.Text.Digit
import FeedOutline.Text.Lines
import FeedOutline.Text.Quoted
import FeedOutline.Text.Ranges
import FeedOutline.Text.Similar
import FeedOutline.Text.Split
import FeedOutline.Text.Table.Case
import FeedOutline.Text.Table.Printable
import FeedOutline.Text.Table.Word
import FeedOutline.Text.Torn
import FeedOutline.Text.Utf8
import FeedOutline.Text.Word
import FeedOutline.Yaml.Base64
import FeedOutline.Yaml.Block
import FeedOutline.Yaml.Construct
import FeedOutline.Yaml.Cursor
import FeedOutline.Yaml.Fault
import FeedOutline.Yaml.Graph
import FeedOutline.Yaml.Load
import FeedOutline.Yaml.Node
import FeedOutline.Yaml.Number
import FeedOutline.Yaml.Plain
import FeedOutline.Yaml.Property
import FeedOutline.Yaml.Quoted
import FeedOutline.Yaml.Source
import FeedOutline.Yaml.Tag
import FeedOutline.Yaml.Time
import FeedOutline.Yaml.Token
import FeedOutline.Yaml.Tokens
import FeedOutline.Proofs.Data.Key
import FeedOutline.Proofs.Data.Merge
import FeedOutline.Proofs.Config.Override
import FeedOutline.Proofs.Config.Schema
import FeedOutline.Proofs.Log.Failure
import FeedOutline.Proofs.Outline.TagPattern
