import DocClaims.Checking.Batch
import DocClaims.Checking.Checker
import DocClaims.Checking.Plan
import DocClaims.Checking.SourceRoot
import DocClaims.Claim
import DocClaims.ClaimDocument
import DocClaims.ClaimSet
import DocClaims.Command.Option
import DocClaims.Command.Request
import DocClaims.Command.Run
import DocClaims.Command.Texts
import DocClaims.Config.Basic
import DocClaims.Config.Load
import DocClaims.Data.Datum
import DocClaims.Data.Mismatch
import DocClaims.Data.Shape
import DocClaims.Extraction
import DocClaims.Files.Node
import DocClaims.Files.Tree
import DocClaims.Files.Visit
import DocClaims.Glob.Basic
import DocClaims.Glob.Reader
import DocClaims.Json.Lexeme
import DocClaims.Json.Reader
import DocClaims.Json.Value
import DocClaims.Json.Writer
import DocClaims.Main
import DocClaims.Markup.Event
import DocClaims.Markup.Reference
import DocClaims.Markup.ReferenceNames
import DocClaims.Markup.Token
import DocClaims.Number.Decimal
import DocClaims.Number.Double
import DocClaims.Number.Literal
import DocClaims.OutputPath
import DocClaims.Path
import DocClaims.Pattern.Basic
import DocClaims.Pattern.Search
import DocClaims.PerCategory
import DocClaims.Proofs.Categories
import DocClaims.Proofs.Checking.Absence
import DocClaims.Proofs.Checking.Agreement
import DocClaims.Proofs.Checking.Batches
import DocClaims.Proofs.Checking.Ends
import DocClaims.Proofs.Checking.Reports
import DocClaims.Proofs.Checking.Searches
import DocClaims.Proofs.Checking.Tiers
import DocClaims.Proofs.Checking.Verdicts
import DocClaims.Proofs.ClaimFiles
import DocClaims.Proofs.ClaimSets
import DocClaims.Proofs.ClaimSets.Inserting
import DocClaims.Proofs.Command.Runs
import DocClaims.Proofs.Config.Accepted
import DocClaims.Proofs.Config.Extensions
import DocClaims.Proofs.Config.Searches
import DocClaims.Proofs.Data.Fits
import DocClaims.Proofs.Extraction
import DocClaims.Proofs.Files.Visits
import DocClaims.Proofs.Files.Writing
import DocClaims.Proofs.Glob.Extension
import DocClaims.Proofs.Glob.Matching
import DocClaims.Proofs.Glob.Reading
import DocClaims.Proofs.Json.Compact
import DocClaims.Proofs.Json.Lexemes
import DocClaims.Proofs.Json.Reading
import DocClaims.Proofs.Json.RoundTrip
import DocClaims.Proofs.Json.Scalars
import DocClaims.Proofs.Json.Strings
import DocClaims.Proofs.MarkedTexts
import DocClaims.Proofs.Markup.Elements
import DocClaims.Proofs.Number.Digits
import DocClaims.Proofs.Outcomes
import DocClaims.Proofs.Path
import DocClaims.Proofs.Path.Relative
import DocClaims.Proofs.Pattern.Characters
import DocClaims.Proofs.Pattern.Fits
import DocClaims.Proofs.Pattern.Parts
import DocClaims.Proofs.Pattern.Readings
import DocClaims.Proofs.Pattern.Runs
import DocClaims.Proofs.Pattern.Scans
import DocClaims.Proofs.Pattern.Words
import DocClaims.Proofs.Report.Finished
import DocClaims.Proofs.Report.Tally
import DocClaims.Proofs.ReportFiles
import DocClaims.Proofs.Rules
import DocClaims.Proofs.Rules.Addresses
import DocClaims.Proofs.Rules.ConfigPaths
import DocClaims.Proofs.Rules.JoinedNames
import DocClaims.Proofs.Rules.Methods
import DocClaims.Proofs.Rules.QualifiedNames
import DocClaims.Proofs.Rules.Resources
import DocClaims.Proofs.Rules.Separators
import DocClaims.Proofs.Rules.SnakeCase
import DocClaims.Proofs.Rules.Written
import DocClaims.Proofs.Scanner.Grouping
import DocClaims.Proofs.Search.Chain
import DocClaims.Proofs.Search.Completion
import DocClaims.Proofs.Search.Consultation
import DocClaims.Proofs.Search.Listings
import DocClaims.Proofs.Search.Walks
import DocClaims.Proofs.Text.Lines
import DocClaims.Proofs.Text.Suffix
import DocClaims.Proofs.Text.Utf8
import DocClaims.Proofs.WrittenClaims
import DocClaims.Proofs.Yaml.BlockText
import DocClaims.Proofs.Yaml.BlockTokens
import DocClaims.Proofs.Yaml.Characters
import DocClaims.Proofs.Yaml.DataEvents
import DocClaims.Proofs.Yaml.DataTokens
import DocClaims.Proofs.Yaml.Lexing
import DocClaims.Proofs.Yaml.PlainText
import DocClaims.Proofs.Yaml.QuotedText
import DocClaims.Proofs.Yaml.Reading
import DocClaims.Proofs.Yaml.RoundTrip
import DocClaims.Proofs.Yaml.ScalarTokens
import DocClaims.Proofs.Yaml.WrittenText
import DocClaims.Report.Basic
import DocClaims.Report.Builder
import DocClaims.Report.Format
import DocClaims.Report.Overview
import DocClaims.Rule
import DocClaims.Scanner
import DocClaims.Search.Backend
import DocClaims.Search.Chain
import DocClaims.Search.FileClass
import DocClaims.Search.Grep
import DocClaims.Search.Hit
import DocClaims.Search.Program
import DocClaims.Search.Query
import DocClaims.Search.Ripgrep
import DocClaims.Search.Searcher
import DocClaims.Search.Walk
import DocClaims.SortedTexts
import DocClaims.Terminal
import DocClaims.Text.Blank
import DocClaims.Text.CaseRanges
import DocClaims.Text.EscapedRanges
import DocClaims.Text.LetterCase
import DocClaims.Text.Lines
import DocClaims.Text.Quoted
import DocClaims.Text.Split
import DocClaims.Text.Utf8
import DocClaims.Text.WordChar
import DocClaims.Text.WordRanges
import DocClaims.Timestamp
import DocClaims.TypePath
import DocClaims.Verdict
import DocClaims.Yaml.Document
import DocClaims.Yaml.Event
import DocClaims.Yaml.Fault
import DocClaims.Yaml.Plain
import DocClaims.Yaml.Reader
import DocClaims.Yaml.ScalarText
import DocClaims.Yaml.Style
import DocClaims.Yaml.Token
import DocClaims.Yaml.Writer
import DocClaims.Proofs.TypePath.Words
import DocClaims.Proofs.TypePath.Segments
import DocClaims.Proofs.TypePath.Names
import DocClaims.Proofs.TypePath.Hyphens
import DocClaims.Proofs.Files.Ways
import DocClaims.Proofs.Checking.Found
import DocClaims.Proofs.Search.WalkChains
import DocClaims.Proofs.Checking.ExpectedFiles
import DocClaims.Proofs.Checking.Shortcut
import DocClaims.Proofs.Checking.Growth
import DocClaims.Proofs.Markup.Events
import DocClaims.Proofs.Markup.RawText
import DocClaims.Proofs.Rules.ResourceScans
import DocClaims.Proofs.Json.Fitting
import DocClaims.Proofs.Search.Outputs
import DocClaims.Proofs.Report.Overview
import DocClaims.Proofs.OutputPath
import DocClaims.Proofs.Files.Rewriting
import DocClaims.Proofs.Command.DefaultOutputs
