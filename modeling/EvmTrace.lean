import EvmTrace.Bytes
import EvmTrace.Bytes.Hex
import EvmTrace.Call
import EvmTrace.CallTree
import EvmTrace.Clock
import EvmTrace.CommandLine
import EvmTrace.CommandLine.Arguments
import EvmTrace.Csv
import EvmTrace.Decode
import EvmTrace.Decode.Shape
import EvmTrace.Disk
import EvmTrace.Disk.FileTree
import EvmTrace.Disk.Path
import EvmTrace.Document
import EvmTrace.Document.Text
import EvmTrace.Json
import EvmTrace.Json.Draft
import EvmTrace.Json.Numeral
import EvmTrace.Json.Printer
import EvmTrace.Json.Reader
import EvmTrace.Json.Token
import EvmTrace.Keccak
import EvmTrace.Main
import EvmTrace.Recording
import EvmTrace.Replay
import EvmTrace.Session
import EvmTrace.Sink
import EvmTrace.Store
import EvmTrace.Summary
import EvmTrace.Text
import EvmTrace.Text.CaseTable
import EvmTrace.Text.Lowercase
import EvmTrace.TokenEvent
import EvmTrace.Trace
import EvmTrace.Trace.Codec
import EvmTrace.Word
import EvmTrace.Proofs.Classification
import EvmTrace.Proofs.CallTree.Branch
import EvmTrace.Proofs.CallTree.View
import EvmTrace.Proofs.CallTree.Depths
import EvmTrace.Proofs.CallTree.Ledger
import EvmTrace.Proofs.CallTree.Tracking
import EvmTrace.Proofs.CallTree.Growth
import EvmTrace.Proofs.CallTree.OpenParent
import EvmTrace.Proofs.Session.Alike
import EvmTrace.Proofs.Session.Delivery
import EvmTrace.Proofs.Session.Execution
import EvmTrace.Proofs.Session.Reproduction
import EvmTrace.Proofs.Session.Isolation
import EvmTrace.Proofs.Replay.Ending
import EvmTrace.Proofs.Replay.Independence
import EvmTrace.Proofs.CallTree.Skeleton
import EvmTrace.Proofs.Session.Exits
import EvmTrace.Proofs.CallTree.Closing
import EvmTrace.Proofs.CallTree.Outputs
import EvmTrace.Proofs.Session.Course
import EvmTrace.Proofs.Session.Attribution
import EvmTrace.Proofs.Session.Payments
import EvmTrace.Proofs.Session.TokenTransfers
import EvmTrace.Proofs.Text.Utf8
import EvmTrace.Proofs.Text.Joined
import EvmTrace.Proofs.Text.Lines
import EvmTrace.Proofs.Bytes.Hex
import EvmTrace.Proofs.Json.Quoted
import EvmTrace.Proofs.Document.Reading
import EvmTrace.Proofs.Disk.Storing
import EvmTrace.Proofs.Store.DocumentFile
import EvmTrace.Proofs.Csv.Reader
import EvmTrace.Proofs.Csv.Tables
import EvmTrace.Proofs.Csv.Entries
import EvmTrace.Proofs.Document.Decoding
import EvmTrace.Proofs.Csv.Lines
import EvmTrace.Proofs.CommandLine.Validation
import EvmTrace.Proofs.Json.Reordered
import EvmTrace.Proofs.Word.Hex
import EvmTrace.Proofs.Decode.Values
import EvmTrace.Proofs.Decode.Records
import EvmTrace.Proofs.Trace.Codec
import EvmTrace.Proofs.Recording.Reading
import EvmTrace.Proofs.Disk.Places
import EvmTrace.Proofs.Disk.Ancestors
import EvmTrace.Proofs.Disk.Changes
import EvmTrace.Proofs.Disk.Nesting
import EvmTrace.Proofs.Store.Writing
import EvmTrace.Proofs.Store.Refused
import EvmTrace.Proofs.Replay.Files
import EvmTrace.Proofs.Recording.Readable
import EvmTrace.Proofs.Replay.Tracing
import EvmTrace.Proofs.Replay.Run
import EvmTrace.Proofs.CallTree.Numbering
import EvmTrace.Proofs.CallTree.Location
import EvmTrace.Proofs.Word.Topic
import EvmTrace.Proofs.TokenEvent.Emitted
import EvmTrace.Proofs.Decode.Undeclared
import EvmTrace.Proofs.Recording.Acceptance
import EvmTrace.Proofs.Recording.Undeclared
import EvmTrace.Proofs.Store.Counterparts
import EvmTrace.Proofs.Replay.Undeclared
import EvmTrace.Proofs.Session.WithoutPayments
import EvmTrace.Proofs.Replay.DepthLimit
import EvmTrace.Proofs.Replay.Streams
import EvmTrace.Proofs.Summary.Accounting
import EvmTrace.Proofs.Text.Lowercase
import EvmTrace.Proofs.Call.Naming
import EvmTrace.Proofs.CallTree.Bounds
import EvmTrace.Proofs.CallTree.Layout
