import FixClient.Catalog.Build
import FixClient.Client.Script
import FixClient.CommandLine
import FixClient.Console
import FixClient.Document.Instances
import FixClient.Document.Number
import FixClient.Endpoint
import FixClient.Environment
import FixClient.Frame.Decoder
import FixClient.Frame.Peek
import FixClient.Frame.Reader
import FixClient.Frame.Writer
import FixClient.Harness
import FixClient.Main
import FixClient.Scenario.Builtin
import FixClient.Session.Lifecycle
import FixClient.Session.Settings
import FixClient.Proofs.Calendar
import FixClient.Proofs.Catalog.RoundTrip
import FixClient.Proofs.Client.AfterFailure
import FixClient.Proofs.Client.Announcement
import FixClient.Proofs.Client.AnswerSplit
import FixClient.Proofs.Client.ChunkSize
import FixClient.Proofs.Client.ChunkStop
import FixClient.Proofs.Client.Delivery
import FixClient.Proofs.Client.FiniteStream
import FixClient.Proofs.Client.FirstAnswer
import FixClient.Proofs.Client.KeptAnswer
import FixClient.Proofs.Client.Lifecycle
import FixClient.Proofs.Client.LogonObserver
import FixClient.Proofs.Client.Passage
import FixClient.Proofs.Client.Reception
import FixClient.Proofs.Client.RunShape
import FixClient.Proofs.Client.SentType
import FixClient.Proofs.Console
import FixClient.Proofs.Endpoint
import FixClient.Proofs.Frame.Canonical
import FixClient.Proofs.Frame.Corruption
import FixClient.Proofs.Frame.Decoder
import FixClient.Proofs.Frame.Delimited
import FixClient.Proofs.Frame.Header
import FixClient.Proofs.Frame.Located
import FixClient.Proofs.Frame.Peek
import FixClient.Proofs.Frame.Printed
import FixClient.Proofs.Frame.Stream
import FixClient.Proofs.Frame.TagReader
import FixClient.Proofs.Frame.Truncated
import FixClient.Proofs.MsgType
import FixClient.Proofs.Session.CallOrder
import FixClient.Proofs.Timestamp.Moments
import FixClient.Proofs.Timestamp.Texts
