import DocPipeline.Artifact
import DocPipeline.CommandLine.Argument
import DocPipeline.CommandLine.Options
import DocPipeline.CommandLine.Program
import DocPipeline.CommandLine.Reading
import DocPipeline.CommandLine.Value
import DocPipeline.Delivery
import DocPipeline.Diagnostic
import DocPipeline.Document.Basic
import DocPipeline.Document.Download
import DocPipeline.Failure
import DocPipeline.Files.Access
import DocPipeline.Files.Change
import DocPipeline.Files.Path
import DocPipeline.Files.Replace
import DocPipeline.Files.Tree
import DocPipeline.Files.Writers
import DocPipeline.Graph.Basic
import DocPipeline.Graph.Diagnostic
import DocPipeline.Graph.Json
import DocPipeline.Graph.Load
import DocPipeline.Graph.Validity
import DocPipeline.Graph.Yaml
import DocPipeline.Interval
import DocPipeline.Job.Clock
import DocPipeline.Job.Status
import DocPipeline.Job.Task
import DocPipeline.Job.Wait
import DocPipeline.Json.Basic
import DocPipeline.Json.Decode
import DocPipeline.Json.Reader
import DocPipeline.Json.Writer
import DocPipeline.Main
import DocPipeline.Number.Decimal
import DocPipeline.Number.Double
import DocPipeline.Number.Power
import DocPipeline.Preview
import DocPipeline.Prompt
import DocPipeline.Proofs.Alike
import DocPipeline.Proofs.Artifact
import DocPipeline.Proofs.CommandLine.Choices
import DocPipeline.Proofs.CommandLine.Grammar
import DocPipeline.Proofs.CommandLine.Printing
import DocPipeline.Proofs.CommandLine.Reading
import DocPipeline.Proofs.CommandLine.Registration
import DocPipeline.Proofs.Document.Fetching
import DocPipeline.Proofs.Document.Found
import DocPipeline.Proofs.Document.Frame
import DocPipeline.Proofs.Document.Name
import DocPipeline.Proofs.Except
import DocPipeline.Proofs.Files.Entry
import DocPipeline.Proofs.Files.Frame
import DocPipeline.Proofs.Files.Place
import DocPipeline.Proofs.Files.Sound
import DocPipeline.Proofs.Files.Writer
import DocPipeline.Proofs.Files.Writers
import DocPipeline.Proofs.Graph.Json
import DocPipeline.Proofs.Graph.Keys
import DocPipeline.Proofs.Graph.Languages
import DocPipeline.Proofs.Graph.Reading
import DocPipeline.Proofs.Graph.Rules
import DocPipeline.Proofs.Graph.Shape
import DocPipeline.Proofs.Graph.Sources
import DocPipeline.Proofs.Graph.Yaml
import DocPipeline.Proofs.Interval
import DocPipeline.Proofs.Job.TaskOutcomes
import DocPipeline.Proofs.Job.WaitCourse
import DocPipeline.Proofs.Job.WaitCut
import DocPipeline.Proofs.Job.WaitLength
import DocPipeline.Proofs.Job.WaitLimits
import DocPipeline.Proofs.Json.Decode
import DocPipeline.Proofs.Json.Forward
import DocPipeline.Proofs.Json.Grammar
import DocPipeline.Proofs.Json.Layout
import DocPipeline.Proofs.Json.Number
import DocPipeline.Proofs.Json.RoundTrip
import DocPipeline.Proofs.Json.Spelled
import DocPipeline.Proofs.Json.Spelling
import DocPipeline.Proofs.Json.Text
import DocPipeline.Proofs.Json.Tolerance
import DocPipeline.Proofs.Json.Variation
import DocPipeline.Proofs.Preview
import DocPipeline.Proofs.Run.Alike
import DocPipeline.Proofs.Run.AllOrNothing
import DocPipeline.Proofs.Run.Counts
import DocPipeline.Proofs.Run.Footprint
import DocPipeline.Proofs.Run.Progress
import DocPipeline.Proofs.Run.Protocol
import DocPipeline.Proofs.Run.Secrecy
import DocPipeline.Proofs.Run.Sending
import DocPipeline.Proofs.Run.Transcript
import DocPipeline.Proofs.Run.Unwatched
import DocPipeline.Proofs.Schedule
import DocPipeline.Proofs.Service.Address
import DocPipeline.Proofs.Service.Alike
import DocPipeline.Proofs.Service.Answers
import DocPipeline.Proofs.Service.Artifacts
import DocPipeline.Proofs.Service.Confinement
import DocPipeline.Proofs.Service.Form
import DocPipeline.Proofs.Service.Requests
import DocPipeline.Proofs.Settings
import DocPipeline.Proofs.Settings.Steps
import DocPipeline.Proofs.Text.Encoding
import DocPipeline.Proofs.Text.Pieces
import DocPipeline.Proofs.Text.Split
import DocPipeline.Proofs.Text.Utf8
import DocPipeline.Proofs.Text.Words
import DocPipeline.Proofs.Url.FileName
import DocPipeline.Proofs.Url.Percent
import DocPipeline.Proofs.Url.Route
import DocPipeline.Proofs.Url.Tail
import DocPipeline.Proofs.Web.Hops
import DocPipeline.Proofs.Web.Registration
import DocPipeline.Proofs.Web.Trail
import DocPipeline.Proofs.Yaml.Block
import DocPipeline.Proofs.Yaml.Character
import DocPipeline.Proofs.Yaml.Decode
import DocPipeline.Proofs.Yaml.Document
import DocPipeline.Proofs.Yaml.Layout
import DocPipeline.Proofs.Yaml.Parse
import DocPipeline.Proofs.Yaml.Plain
import DocPipeline.Proofs.Yaml.Quoted
import DocPipeline.Proofs.Yaml.Scan
import DocPipeline.Proofs.Yaml.Shape
import DocPipeline.Proofs.Yaml.Token
import DocPipeline.Proofs.Yaml.Variation
import DocPipeline.Run.Basic
import DocPipeline.Run.Scene
import DocPipeline.Schedule
import DocPipeline.Service.Basic
import DocPipeline.Service.Client
import DocPipeline.Service.Form
import DocPipeline.Service.Memory
import DocPipeline.Service.Wire
import DocPipeline.Settings
import DocPipeline.Text.Base64
import DocPipeline.Text.Blank
import DocPipeline.Text.EscapedTable
import DocPipeline.Text.Lowercase
import DocPipeline.Text.LowercaseTable
import DocPipeline.Text.Quoted
import DocPipeline.Text.Split
import DocPipeline.Text.Utf8
import DocPipeline.Url.Basic
import DocPipeline.Url.Host
import DocPipeline.Url.Parse
import DocPipeline.Url.Percent
import DocPipeline.Url.Punycode
import DocPipeline.Url.Route
import DocPipeline.Web.Code
import DocPipeline.Web.Request
import DocPipeline.Web.Traffic
import DocPipeline.Yaml.Decode
import DocPipeline.Yaml.Document
import DocPipeline.Yaml.Fault
import DocPipeline.Yaml.Mark
import DocPipeline.Yaml.Meaning
import DocPipeline.Yaml.Node
import DocPipeline.Yaml.Token.Basic
import DocPipeline.Yaml.Token.Name
import DocPipeline.Yaml.Token.Scalar
import DocPipeline.Yaml.Token.Scan
import DocPipeline.Yaml.Writer
