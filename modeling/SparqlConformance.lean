import SparqlConformance.Answers.Answer
import SparqlConformance.Answers.Cardinality
import SparqlConformance.Answers.Comparison
import SparqlConformance.Answers.Csv
import SparqlConformance.Answers.Decoded
import SparqlConformance.Answers.Error
import SparqlConformance.Answers.JsonResults
import SparqlConformance.Answers.Judgement
import SparqlConformance.Answers.Reading
import SparqlConformance.Answers.ResultSetGraph
import SparqlConformance.Answers.ResultsDocument
import SparqlConformance.Answers.Simple
import SparqlConformance.Answers.Solution
import SparqlConformance.Answers.Solutions
import SparqlConformance.Answers.SortedGraph
import SparqlConformance.Answers.Tsv
import SparqlConformance.Answers.XmlResults
import SparqlConformance.CommandLine.Arguments
import SparqlConformance.CommandLine.Order
import SparqlConformance.CommandLine.Session
import SparqlConformance.CommandLine.Summary
import SparqlConformance.Data.Members
import SparqlConformance.Diff.Merge
import SparqlConformance.Diff.Middle
import SparqlConformance.Diff.Readable
import SparqlConformance.Diff.Script
import SparqlConformance.Diff.Unified
import SparqlConformance.Engine.Format
import SparqlConformance.Engine.Request
import SparqlConformance.Files.Path
import SparqlConformance.Files.Url
import SparqlConformance.Files.View
import SparqlConformance.Format.Csv
import SparqlConformance.Format.Json.Event
import SparqlConformance.Format.Json.Value
import SparqlConformance.Format.Xml
import SparqlConformance.Format.Xml.Tree
import SparqlConformance.Machine.Calls
import SparqlConformance.Machine.Description
import SparqlConformance.Machine.FileTree
import SparqlConformance.Machine.Shell.Arithmetic
import SparqlConformance.Machine.Shell.Expansion
import SparqlConformance.Machine.Shell.Interpreter
import SparqlConformance.Machine.Shell.Pattern
import SparqlConformance.Machine.Shell.Script
import SparqlConformance.Machine.Shell.Word
import SparqlConformance.Machine.State
import SparqlConformance.Machine.Utilities
import SparqlConformance.Machine.World
import SparqlConformance.Main
import SparqlConformance.Manifest.Conversion
import SparqlConformance.Manifest.Entries
import SparqlConformance.Manifest.Error
import SparqlConformance.Manifest.Inclusion
import SparqlConformance.Manifest.Reference
import SparqlConformance.Number.Binary64
import SparqlConformance.Number.Fixed
import SparqlConformance.Number.Power
import SparqlConformance.Number.Shortest
import SparqlConformance.Plans.Plan
import SparqlConformance.Programs.Command
import SparqlConformance.Programs.Search
import SparqlConformance.Proofs.AbnormalEnds
import SparqlConformance.Proofs.CanonicalGraphs
import SparqlConformance.Proofs.ClosedComments
import SparqlConformance.Proofs.CommentEdits
import SparqlConformance.Proofs.CsvRecords
import SparqlConformance.Proofs.CsvRoundTrip
import SparqlConformance.Proofs.DamagedRows
import SparqlConformance.Proofs.DocumentEdits
import SparqlConformance.Proofs.DocumentSolutions
import SparqlConformance.Proofs.EarlReports
import SparqlConformance.Proofs.EarnedPasses
import SparqlConformance.Proofs.EncodedText
import SparqlConformance.Proofs.EngineFiles
import SparqlConformance.Proofs.EqualGraphs
import SparqlConformance.Proofs.FileNames
import SparqlConformance.Proofs.FileReferences
import SparqlConformance.Proofs.FirstSight
import SparqlConformance.Proofs.FlatTriples
import SparqlConformance.Proofs.InclusionTrees
import SparqlConformance.Proofs.IndexedDocuments
import SparqlConformance.Proofs.IndexedTriples
import SparqlConformance.Proofs.IriCharacters
import SparqlConformance.Proofs.IsomorphicDocuments
import SparqlConformance.Proofs.JUnitCharacters
import SparqlConformance.Proofs.JUnitStructure
import SparqlConformance.Proofs.JoinedLines
import SparqlConformance.Proofs.JoinedPaths
import SparqlConformance.Proofs.JsonScalars
import SparqlConformance.Proofs.JsonSpelling
import SparqlConformance.Proofs.JsonText
import SparqlConformance.Proofs.JsonTextEquality
import SparqlConformance.Proofs.KeyedLists
import SparqlConformance.Proofs.LabelReading
import SparqlConformance.Proofs.LabeledLines
import SparqlConformance.Proofs.LaxComparison
import SparqlConformance.Proofs.ListWalks
import SparqlConformance.Proofs.LoadedSuites
import SparqlConformance.Proofs.LowercaseTags
import SparqlConformance.Proofs.ManifestLists
import SparqlConformance.Proofs.ManifestLoading
import SparqlConformance.Proofs.MemberLists
import SparqlConformance.Proofs.NamedRows
import SparqlConformance.Proofs.NormalDocuments
import SparqlConformance.Proofs.OrderedComparison
import SparqlConformance.Proofs.PatchHunks
import SparqlConformance.Proofs.PatchText
import SparqlConformance.Proofs.PlannedTests
import SparqlConformance.Proofs.PlansReadBack
import SparqlConformance.Proofs.PrintedRows
import SparqlConformance.Proofs.PrintedValues
import SparqlConformance.Proofs.QueryTokens
import SparqlConformance.Proofs.QuotedLiterals
import SparqlConformance.Proofs.Renaming
import SparqlConformance.Proofs.ResultSetGraphs
import SparqlConformance.Proofs.RowOrder
import SparqlConformance.Proofs.RowText
import SparqlConformance.Proofs.RunCourses
import SparqlConformance.Proofs.ScriptSides
import SparqlConformance.Proofs.SharedStems
import SparqlConformance.Proofs.SingleColumn
import SparqlConformance.Proofs.SolutionMatching
import SparqlConformance.Proofs.SolutionOrder
import SparqlConformance.Proofs.SortedRows
import SparqlConformance.Proofs.StrictComparison
import SparqlConformance.Proofs.SuiteCourses
import SparqlConformance.Proofs.SymbolicText
import SparqlConformance.Proofs.ToolVerdicts
import SparqlConformance.Proofs.TripleReading
import SparqlConformance.Proofs.WrittenDocuments
import SparqlConformance.Proofs.WrittenNumbers
import SparqlConformance.Proofs.WrittenTerms
import SparqlConformance.Proofs.XmlMarkup
import SparqlConformance.Query.Blanking
import SparqlConformance.Query.Outline
import SparqlConformance.Rdf.Iri
import SparqlConformance.Rdf.NTriples
import SparqlConformance.Rdf.Names
import SparqlConformance.Rdf.Relabeling
import SparqlConformance.Rdf.Term
import SparqlConformance.Rdf.TripleIndex
import SparqlConformance.Rdf.Vocabulary
import SparqlConformance.Rdf.Written
import SparqlConformance.Reports.Earl
import SparqlConformance.Reports.JUnit
import SparqlConformance.Runs.Preparation
import SparqlConformance.Runs.Report
import SparqlConformance.Runs.Run
import SparqlConformance.Suites.Report
import SparqlConformance.Suites.Run
import SparqlConformance.Suites.Suite
import SparqlConformance.Tests.Case
import SparqlConformance.Tests.Execution
import SparqlConformance.Tests.Kind
import SparqlConformance.Tests.Outcome
import SparqlConformance.Tests.Record
import SparqlConformance.Tests.Signal
import SparqlConformance.Text.CharClass
import SparqlConformance.Text.Lines
import SparqlConformance.Text.Space
import SparqlConformance.Text.Utf8
import SparqlConformance.Text.WordChar
import SparqlConformance.World
import SparqlConformance.Proofs.ReachedSubjects
import SparqlConformance.Proofs.RemoteNames
import SparqlConformance.Proofs.SkippedTests
