import Walkthrough.Attempt
import Walkthrough.CommandLine
import Walkthrough.CommandLine.Arguments
import Walkthrough.Compile
import Walkthrough.Crawl
import Walkthrough.Doctor
import Walkthrough.Execution
import Walkthrough.Guide
import Walkthrough.Guide.Clause
import Walkthrough.Guide.Directive
import Walkthrough.Guide.Line
import Walkthrough.Json.Display
import Walkthrough.Json.Reader
import Walkthrough.Json.Writer
import Walkthrough.Main
import Walkthrough.Number
import Walkthrough.Proofs.Attempt
import Walkthrough.Proofs.Compile.Format
import Walkthrough.Proofs.Run.Artifacts
import Walkthrough.Proofs.Compile.Replay
import Walkthrough.Proofs.Compile.RoundTrip
import Walkthrough.Proofs.Crawl.Isolation
import Walkthrough.Proofs.Crawl.LoginPage
import Walkthrough.Proofs.Guide.Fragment
import Walkthrough.Proofs.Json.RoundTrip
import Walkthrough.Proofs.Reference
import Walkthrough.Proofs.Run.Course
import Walkthrough.Proofs.Run.Ending
import Walkthrough.Proofs.Run.Limits
import Walkthrough.Proofs.Run.Sequence
import Walkthrough.Proofs.Run.Shots
import Walkthrough.Proofs.Run.Verdict
import Walkthrough.Proofs.Text.Encoding
import Walkthrough.Proofs.Tour.RoundTrip
import Walkthrough.Run
import Walkthrough.Run.Artifacts
import Walkthrough.Run.Result
import Walkthrough.Scan
import Walkthrough.Scan.Source
import Walkthrough.Schema
import Walkthrough.Session
import Walkthrough.Settings
import Walkthrough.Settings.Load
import Walkthrough.Store
import Walkthrough.Suggest
import Walkthrough.Text.Digit
import Walkthrough.Text.Lines
import Walkthrough.Text.Lower
import Walkthrough.Text.Quoted
import Walkthrough.Text.Utf8
import Walkthrough.Timing
import Walkthrough.Tour
import Walkthrough.Tour.Cue
import Walkthrough.Tour.Reader
import Walkthrough.TourMap.Document
import Walkthrough.Url.Host
import Walkthrough.Url.Route
import Walkthrough.Vocabulary
import Walkthrough.Proofs.CommandLine
import Walkthrough.Proofs.Compile.Atomic
import Walkthrough.Proofs.Compile.Examined
import Walkthrough.Proofs.Execution
import Walkthrough.Proofs.Run.Confinement
import Walkthrough.Proofs.Crawl.ScanEntry
import Walkthrough.Proofs.Doctor.Reports
import Walkthrough.Proofs.Run.Captures
import Walkthrough.Proofs.Reference.Issues
import Walkthrough.Proofs.Guide.Modified
import Walkthrough.Proofs.Guide.Spacing
import Walkthrough.Proofs.Guide.Located
import Walkthrough.Proofs.Run.Budget
import Walkthrough.Proofs.Run.Failing
import Walkthrough.Proofs.TourMap.RoundTrip
import Walkthrough.Proofs.Url.Flag
import Walkthrough.Proofs.Url.Segments
import Walkthrough.Proofs.Run.Jobs
import Walkthrough.Proofs.Suggest.Distance
import Walkthrough.Proofs.TourMap.Document
import Walkthrough.Proofs.Vocabulary
import Walkthrough.Proofs.Session.Closing
import Walkthrough.Proofs.Guide.Division
import Walkthrough.Proofs.Guide.Exclusive
import Walkthrough.Proofs.Scan
import Walkthrough.Proofs.Tour.Identifiers
