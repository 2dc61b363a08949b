import Osdp.Library.Run
import Osdp.Library.Window
import Osdp.Library.Spacing
import Osdp.Library.Ring
import Osdp.Library.Encoding
import Osdp.Library.Resumable
import Osdp.Library.Delta
import Osdp.Library.Coalescing
import Osdp.Library.BlockMode
import Osdp.Library.Shift
import Osdp.Library.Pattern
import Osdp.Library.Watchdog
import Osdp.Library.Progress
import Osdp.Model.Frame
import Osdp.Model.Cmd
import Osdp.Model.Builders
import Osdp.Model.Secure
import Osdp.Model.Aes128
import Osdp.Model.Bus
import Osdp.Model.Calls
import Osdp.Model.Pd
import Osdp.Model.Scan
import Osdp.Model.Serve
import Osdp.Model.Line
import Osdp.Model.Panel
import Osdp.Model.Submit
import Osdp.Model.Record
import Osdp.Model.Store
import Osdp.Model.SchemaDrift
import Osdp.Analysis.SessionSpec
import Osdp.Analysis.NextSpec
import Osdp.Analysis.ReplySpec
import Osdp.Analysis.Queue
import Osdp.Analysis.Conservation
import Osdp.Analysis.Attribution
import Osdp.Analysis.KeyInstall
import Osdp.Analysis.BusRun
import Osdp.Analysis.Contacts
import Osdp.Analysis.KeyTransit
import Osdp.Analysis.PdSpec
import Osdp.Analysis.Outputs
import Osdp.Analysis.Timers
import Osdp.Analysis.Refusal
import Osdp.Analysis.EventQueue
import Osdp.Analysis.Codec
import Osdp.Analysis.Assembly
import Osdp.Analysis.Journal
import Osdp.Analysis.PlainLine
import Osdp.Analysis.Acknowledgement
import Osdp.Analysis.Reporting
import Osdp.Analysis.LineSpec
import Osdp.Analysis.RetrySpec
import Osdp.Analysis.AtMostOnce
import Osdp.Analysis.Padding
import Osdp.Analysis.SealedFrame
import Osdp.Analysis.ChannelSpec
import Osdp.Analysis.ChannelSync
import Osdp.Analysis.Representation
import Osdp.Analysis.KeyAdoption
import Osdp.Analysis.Agreement
import Osdp.Analysis.SessionOrigin
import Osdp.Analysis.Addresses
import Osdp.Analysis.Solicited
import Osdp.Analysis.Evidence
import Osdp.Analysis.KeyExposure
import Osdp.Analysis.Sizes
import Osdp.Analysis.Serving
import Osdp.Analysis.WireFormat
import Osdp.Analysis.MacInput
import Osdp.Analysis.Estimate
import Osdp.Analysis.RoundTrip
import Osdp.Analysis.Delimiting
import Osdp.Analysis.Bursts
import Osdp.Analysis.Transparency
import Osdp.Analysis.Chunks
import Osdp.Analysis.Answers
import Osdp.Analysis.Freshness
import Osdp.Analysis.Fidelity
import Osdp.Analysis.Handshake
import Osdp.Analysis.Publishing
import Osdp.Analysis.Silence
import Osdp.Analysis.QueueGrowth
import Osdp.Analysis.Receipts
import Osdp.Analysis.Submission
import Osdp.Analysis.Cursors
import Osdp.Analysis.ProtoText
import Osdp.Analysis.ProtoReading
import Osdp.Analysis.ProtoRun
import Osdp.Analysis.SchemaGate
import Osdp.Analysis.Retention
import Osdp.Analysis.Paging
import Osdp.Analysis.Names
import Osdp.Analysis.Enrolment
import Osdp.Analysis.Conversation
import Osdp.Analysis.SessionEnd
import Osdp.Analysis.Delivery
import Osdp.Analysis.Stranding
