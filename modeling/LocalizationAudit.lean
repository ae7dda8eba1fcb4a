import LocalizationAudit.CommandLine.Run
import LocalizationAudit.FileSystem.Memory
import LocalizationAudit.Log.Recorder
import LocalizationAudit.Main
import LocalizationAudit.Resource.CustomKeys
import LocalizationAudit.Swift.Language
import LocalizationAudit.Proofs.Key
import LocalizationAudit.Proofs.Path
import LocalizationAudit.Proofs.ScanResult
import LocalizationAudit.Proofs.FileSystem
import LocalizationAudit.Proofs.Scan.Contribution
import LocalizationAudit.Proofs.Scan.Gathering
import LocalizationAudit.Proofs.Scan.Usage
import LocalizationAudit.Proofs.Resource.Grammar
import LocalizationAudit.Proofs.Resource.Search
import LocalizationAudit.Proofs.Resource.Keys
import LocalizationAudit.Proofs.Resource.Resynchronisation
import LocalizationAudit.Proofs.Scan.Scheduling
import LocalizationAudit.Proofs.Encoding.Reading
import LocalizationAudit.Proofs.Encoding.Utf8
import LocalizationAudit.Proofs.Encoding.Utf16
import LocalizationAudit.Proofs.Encoding.ByteOrderMark
import LocalizationAudit.Proofs.Encoding.Acceptance
import LocalizationAudit.Proofs.Encoding.Refusal
import LocalizationAudit.Proofs.Encoding.FirstFit
import LocalizationAudit.Proofs.Encoding.ResourceEncodings
import LocalizationAudit.Proofs.Resource.ByteOrderMark
import LocalizationAudit.Proofs.SyntaxTree.Traversal
import LocalizationAudit.Proofs.SyntaxTree.Placement
import LocalizationAudit.Proofs.Literal.Runs
import LocalizationAudit.Proofs.Literal.Stripping
import LocalizationAudit.Proofs.Literal.Segments
import LocalizationAudit.Proofs.Literal.Extraction
import LocalizationAudit.Proofs.FileSystem.Memory
import LocalizationAudit.Proofs.Scan.Accounting
import LocalizationAudit.Proofs.Scan.Spelling
import LocalizationAudit.Proofs.Resource.UnmarkedUtf16
import LocalizationAudit.Proofs.Scan.Locations
import LocalizationAudit.Proofs.Scan.Filtering
import LocalizationAudit.Proofs.FileSystem.Disk
import LocalizationAudit.Proofs.FileSystem.Refusal
import LocalizationAudit.Proofs.Scan.Mirroring
import LocalizationAudit.Proofs.Scan.Relocation
import LocalizationAudit.Proofs.Literal.MaximalRuns
import LocalizationAudit.Proofs.Literal.Layout
import LocalizationAudit.Proofs.Literal.Parts
import LocalizationAudit.Proofs.Literal.RawDelimiters
import LocalizationAudit.Proofs.Literal.Indentation
import LocalizationAudit.Proofs.Literal.ClosingLine
import LocalizationAudit.Proofs.Literal.RawLine
import LocalizationAudit.Proofs.Console.Markup
import LocalizationAudit.Proofs.Console.Printing
import LocalizationAudit.Proofs.CommandLine.Workers
import LocalizationAudit.Proofs.CommandLine.ExitCode
import LocalizationAudit.Proofs.Text.LineEnds
import LocalizationAudit.Proofs.Resource.LineEnds
import LocalizationAudit.Proofs.SyntaxTree.FaultSearch
import LocalizationAudit.Proofs.ScanResult.History
import LocalizationAudit.Proofs.Report
import LocalizationAudit.Proofs.Text.Trimming
import LocalizationAudit.Proofs.Text.Integer
import LocalizationAudit.Proofs.CommandLine.Settings
import LocalizationAudit.Proofs.Literal.LineEnds
import LocalizationAudit.Proofs.Text.LowerCase
import LocalizationAudit.Proofs.Scan.Extension
import LocalizationAudit.Proofs.Console.Emoji
import LocalizationAudit.Proofs.Console.LooseBackslashes
import LocalizationAudit.Proofs.Console.Layout
import LocalizationAudit.Proofs.Console.Ascii
import LocalizationAudit.Proofs.Console.Verbatim
