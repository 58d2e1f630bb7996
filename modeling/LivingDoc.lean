import LivingDoc.Assessment
import LivingDoc.CommandLine
import LivingDoc.Config
import LivingDoc.Cucumber
import LivingDoc.Decimal
import LivingDoc.Directory
import LivingDoc.Feature
import LivingDoc.Gherkin.Basic
import LivingDoc.Gherkin.Decoding
import LivingDoc.Gherkin.Encoding
import LivingDoc.Gherkin.Interpretation
import LivingDoc.Json.Basic
import LivingDoc.Json.Decoder
import LivingDoc.Json.Numeral
import LivingDoc.Json.Printer
import LivingDoc.Json.Quoted
import LivingDoc.Json.Token
import LivingDoc.Keyword
import LivingDoc.Language
import LivingDoc.Loading
import LivingDoc.Main
import LivingDoc.Proofs.Agreement
import LivingDoc.Proofs.CommandLine
import LivingDoc.Proofs.Cucumber
import LivingDoc.Proofs.Cucumber.Indexing
import LivingDoc.Proofs.Except
import LivingDoc.Proofs.ExitCode
import LivingDoc.Proofs.Gherkin.Faults
import LivingDoc.Proofs.Gherkin.Interpretation
import LivingDoc.Proofs.Gherkin.Reification
import LivingDoc.Proofs.Gherkin.RoundTrip
import LivingDoc.Proofs.Gherkin.Translation
import LivingDoc.Proofs.Gherkin.Variants
import LivingDoc.Proofs.JoinedReports
import LivingDoc.Proofs.Json.Decoder
import LivingDoc.Proofs.Json.Forms
import LivingDoc.Proofs.Json.Layout
import LivingDoc.Proofs.Json.Reading
import LivingDoc.Proofs.Json.Scanning
import LivingDoc.Proofs.Keyword
import LivingDoc.Proofs.LanguagePrecedence
import LivingDoc.Proofs.Loading
import LivingDoc.Proofs.Masking
import LivingDoc.Proofs.MergeTree
import LivingDoc.Proofs.Outcome
import LivingDoc.Proofs.OutlineRows
import LivingDoc.Proofs.Printout
import LivingDoc.Proofs.ReportFaults
import LivingDoc.Proofs.RowAnswers
import LivingDoc.Proofs.SourceTree
import LivingDoc.Proofs.SpecRun.Acceptance
import LivingDoc.Proofs.SpecRun.Embedding
import LivingDoc.Proofs.SpecRun.HostBytes
import LivingDoc.Proofs.SpecRun.Index
import LivingDoc.Proofs.SpecRun.OpenElements
import LivingDoc.Proofs.SpecRun.OpenFeatures
import LivingDoc.Proofs.SpecRun.Page
import LivingDoc.Proofs.SpecRun.Payload
import LivingDoc.Proofs.SpecRun.Records
import LivingDoc.Proofs.SpecRun.Restoring
import LivingDoc.Proofs.TestRun
import LivingDoc.Proofs.Text.Blank
import LivingDoc.Proofs.Text.Cut
import LivingDoc.Proofs.Text.Markers
import LivingDoc.Proofs.Text.Utf8
import LivingDoc.Proofs.Verdict
import LivingDoc.Proofs.Xml.Attributes
import LivingDoc.Proofs.Xml.Markup
import LivingDoc.Proofs.Xml.Reading
import LivingDoc.Proofs.Xml.Rendering
import LivingDoc.Proofs.Xml.Resolution
import LivingDoc.Proofs.Xml.Tree
import LivingDoc.Record
import LivingDoc.Report
import LivingDoc.Report.Malformed
import LivingDoc.Run
import LivingDoc.Source
import LivingDoc.SpecRun.Index
import LivingDoc.SpecRun.Page
import LivingDoc.Text.Ascii
import LivingDoc.Text.Blank
import LivingDoc.Text.Cut
import LivingDoc.Text.Digit
import LivingDoc.Text.Utf8
import LivingDoc.Toml.Document
import LivingDoc.Toml.Quoted
import LivingDoc.Toml.Scalar
import LivingDoc.Toml.Table
import LivingDoc.Toml.Value
import LivingDoc.Verdict
import LivingDoc.Verdict.Decoding
import LivingDoc.Wording
import LivingDoc.Xml.Basic
import LivingDoc.Xml.Reference
import LivingDoc.Xml.Tag
import LivingDoc.Xml.Token
