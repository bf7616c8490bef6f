import DocFerry.Action
import DocFerry.Command.Basic
import DocFerry.Command.Execute
import DocFerry.Command.Reach
import DocFerry.Config.Calendar
import DocFerry.Config.Parts
import DocFerry.Config.Sections
import DocFerry.Config.SetOrder
import DocFerry.Config.Value
import DocFerry.Files.Change
import DocFerry.Files.Disk
import DocFerry.Files.Lookup
import DocFerry.Files.Path
import DocFerry.Json.Basic
import DocFerry.Json.Parse
import DocFerry.Json.Print
import DocFerry.Main
import DocFerry.Markup.Admonitions
import DocFerry.Markup.Brackets
import DocFerry.Markup.Cards
import DocFerry.Markup.Comments
import DocFerry.Markup.Convert
import DocFerry.Markup.Images
import DocFerry.Markup.Imports
import DocFerry.Markup.Tabs
import DocFerry.Markup.Tag
import DocFerry.Nav.Buckets
import DocFerry.Nav.Classify
import DocFerry.Nav.Group
import DocFerry.Nav.Manifest
import DocFerry.Nav.Pool
import DocFerry.Nav.Slug
import DocFerry.Number.Binary64
import DocFerry.Number.Reading
import DocFerry.Number.Rounding
import DocFerry.Number.Shortest
import DocFerry.Number.Sum
import DocFerry.Number.Whole
import DocFerry.Page.Convert
import DocFerry.Page.Heading
import DocFerry.Page.Metadata
import DocFerry.Page.Rank
import DocFerry.Site.Assemble
import DocFerry.Site.Assets
import DocFerry.Site.Brand
import DocFerry.Site.Category
import DocFerry.Site.Configuration
import DocFerry.Site.Document
import DocFerry.Site.Failure
import DocFerry.Site.Folders
import DocFerry.Site.Migration
import DocFerry.Site.Siblings
import DocFerry.Site.Walk
import DocFerry.Site.World
import DocFerry.Table
import DocFerry.Text.Basic
import DocFerry.Text.Blank
import DocFerry.Text.Case
import DocFerry.Text.CaseTable
import DocFerry.Text.Digit
import DocFerry.Text.Lines
import DocFerry.Text.PrintableTable
import DocFerry.Text.Quoted
import DocFerry.Text.Ranges
import DocFerry.Text.TitleCase
import DocFerry.Text.Utf8
import DocFerry.Text.Word
import DocFerry.Text.WordTable
import DocFerry.Yaml.Atom
import DocFerry.Yaml.Content
import DocFerry.Yaml.Cursor
import DocFerry.Yaml.Draft
import DocFerry.Yaml.Fault
import DocFerry.Yaml.Kind
import DocFerry.Yaml.Lexing
import DocFerry.Yaml.Merge
import DocFerry.Yaml.Node
import DocFerry.Yaml.Scalar
import DocFerry.Yaml.Source
import DocFerry.Yaml.Tag
import DocFerry.Yaml.Token
import DocFerry.Proofs.Table
import DocFerry.Proofs.Action
import DocFerry.Proofs.Agree
import DocFerry.Proofs.Text.Pieces
import DocFerry.Proofs.Files.Walking
import DocFerry.Proofs.Files.Settling
import DocFerry.Proofs.Files.Growth
import DocFerry.Proofs.Files.Change
import DocFerry.Proofs.Files.Tree
import DocFerry.Proofs.Files.Alike
import DocFerry.Proofs.Files.Plain
import DocFerry.Proofs.Files.Confined
import DocFerry.Proofs.Files.Names
import DocFerry.Proofs.Site.Jobs
import DocFerry.Proofs.Site.Sources
import DocFerry.Proofs.Site.Listing
import DocFerry.Proofs.Site.Apart
import DocFerry.Proofs.Site.Pages
import DocFerry.Proofs.Site.Keeping
import DocFerry.Proofs.Site.Shows
import DocFerry.Proofs.Nav.Slugs
import DocFerry.Proofs.Nav.Placing
import DocFerry.Proofs.Site.Gathering
import DocFerry.Proofs.Site.Assembled
import DocFerry.Proofs.Site.Run
import DocFerry.Proofs.Site.Navigation
import DocFerry.Proofs.Site.Preservation
import DocFerry.Proofs.Site.Visits
import DocFerry.Proofs.Site.Leaves
import DocFerry.Proofs.Site.Partition
import DocFerry.Proofs.Site.Built
import DocFerry.Proofs.Site.Reset
import DocFerry.Proofs.Site.Rerun
import DocFerry.Proofs.Site.Edited
import DocFerry.Proofs.Site.Parallel
import DocFerry.Proofs.Text.Rewriting
import DocFerry.Proofs.Text.Trimming
import DocFerry.Proofs.Markup.Admonitions
import DocFerry.Proofs.Markup.Items
import DocFerry.Proofs.Markup.Tags
import DocFerry.Proofs.Markup.Images
import DocFerry.Proofs.Markup.Translation
import DocFerry.Proofs.Page.Metadata
import DocFerry.Proofs.Page.Written
import DocFerry.Proofs.Json.Escapes
import DocFerry.Proofs.Json.RoundTrip
import DocFerry.Proofs.Nav.ReadBack
import DocFerry.Proofs.Site.ManifestFile
import DocFerry.Proofs.Text.TitleCase
import DocFerry.Proofs.Page.Converted
import DocFerry.Proofs.Markup.Inert
import DocFerry.Proofs.Page.Opening
import DocFerry.Proofs.Page.KeptMetadata
import DocFerry.Proofs.Page.Headings
import DocFerry.Proofs.Page.PlainPage
import DocFerry.Proofs.Site.Origins
import DocFerry.Proofs.Number.Order
import DocFerry.Proofs.Site.Ranking
import DocFerry.Proofs.Files.Copies
import DocFerry.Proofs.Markup.References
import DocFerry.Proofs.Markup.Passages
import DocFerry.Proofs.Markup.Attributes
import DocFerry.Proofs.Markup.ImageTags
import DocFerry.Proofs.Site.Pictures
import DocFerry.Proofs.Site.Writing
import DocFerry.Proofs.Nav.Nesting
import DocFerry.Proofs.Site.Hollow
import DocFerry.Proofs.Files.Below
import DocFerry.Proofs.Site.Outline
import DocFerry.Proofs.Site.Unwritten
import DocFerry.Proofs.Site.Labels
import DocFerry.Proofs.Site.Titles
import DocFerry.Proofs.Site.Outside
import DocFerry.Proofs.Site.Interrupted
import DocFerry.Proofs.Site.Refusal
import DocFerry.Proofs.Site.Preview
import DocFerry.Proofs.Nav.Sharing
import DocFerry.Proofs.Number.Limit
import DocFerry.Proofs.Json.Refusals
import DocFerry.Proofs.Site.Failing
import DocFerry.Proofs.Site.FolderMetadata
import DocFerry.Proofs.Site.CategoryFile
import DocFerry.Proofs.Site.Overwriting
import DocFerry.Proofs.Site.Leading
import DocFerry.Proofs.Site.Warnings
import DocFerry.Proofs.Site.PageSlugs
import DocFerry.Proofs.Files.Directories
import DocFerry.Proofs.Site.AssetCopies
import DocFerry.Proofs.Site.Logo
import DocFerry.Proofs.Command.Settings
import DocFerry.Proofs.Files.OneFolder
import DocFerry.Proofs.Site.OneFolder
import DocFerry.Proofs.Site.Spelling
import DocFerry.Proofs.Markup.ImageDocuments
import DocFerry.Proofs.Page.BlankTitles
import DocFerry.Proofs.Page.QuotedTitles
import DocFerry.Proofs.Markup.TabTitles
import DocFerry.Proofs.Markup.ImagesAgain
import DocFerry.Proofs.Site.IndexPages
import DocFerry.Proofs.Markup.Comments
import DocFerry.Proofs.Markup.Cards
import DocFerry.Proofs.Markup.Imports
import DocFerry.Proofs.Config.Sections
import DocFerry.Proofs.Config.Shown
import DocFerry.Proofs.Files.Overlay
import DocFerry.Proofs.Site.AssetOverlay
import DocFerry.Proofs.Text.Stored
import DocFerry.Proofs.Site.Encodings
import DocFerry.Proofs.Site.ProjectName
