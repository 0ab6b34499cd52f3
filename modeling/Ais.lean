import Ais.Limits
import Ais.Bytes.Ascii
import Ais.Fault
import Ais.Sentence.Header
import Ais.Assembly
import Ais.Payload.Packing
import Ais.Json.Forms
import Ais.Batch
import Ais.Pool
import Ais.Queue.Channel
import Ais.Queue.Locked
import Ais.Queue.Lockfree
import Ais.Stage
import Ais.Stage.Intake
import Ais.Stage.Relay
import Ais.Receiver
import Ais.Stage.Inlet
import Ais.Station
import Ais.Station.Session
import Ais.Proofs.Sentence.Form
import Ais.Proofs.Sentence.Record
import Ais.Proofs.Sentence.Grammar
import Ais.Proofs.Message.Joined
import Ais.Proofs.Assembly.Slot
import Ais.Proofs.Assembly.Table
import Ais.Proofs.Assembly.History
import Ais.Proofs.Assembly.Sound
import Ais.Proofs.Payload.Bits
import Ais.Proofs.Payload.Packer
import Ais.Proofs.Payload.Armoured
import Ais.Proofs.Checksum
import Ais.Proofs.Message.Carried
import Ais.Proofs.Batch
import Ais.Proofs.Stage.Lines
import Ais.Proofs.Queue.Ends
import Ais.Proofs.Stage.Intake
import Ais.Proofs.Stage.Pieces
import Ais.Proofs.Stage.Counted
import Ais.Proofs.Queue.Ring
import Ais.Proofs.Queue.Slots
import Ais.Proofs.Assembly.Shown
import Ais.Proofs.Assembly.Apart
import Ais.Proofs.Payload.Shown
import Ais.Proofs.Stage.Conversion
import Ais.Proofs.Stage.Relay
import Ais.Proofs.Receiver.Outcome
import Ais.Proofs.Receiver.Schedule
import Ais.Proofs.Queue.Lockfree
import Ais.Proofs.Queue.Interleaving
import Ais.Proofs.Queue.Locked
import Ais.Proofs.Stage.Exhausted
import Ais.Proofs.Stage.Reader
import Ais.Proofs.Stage.Unlimited
import Ais.Proofs.Sentence.LineEnds
import Ais.Proofs.Stage.Dry
import Ais.Proofs.Stage.Balance
import Ais.Proofs.Receiver.Accounts
import Ais.Proofs.Pool
import Ais.Proofs.Queue.Closing
import Ais.Proofs.Queue.Twins
import Ais.Proofs.Bytes.Residue
import Ais.Proofs.Payload.Residue
import Ais.Proofs.Stage.Twins
import Ais.Proofs.Stage.TwinRelays
import Ais.Proofs.Receiver.Twins
import Ais.Proofs.Station.Worker
import Ais.Proofs.Station.Feeder
import Ais.Proofs.Station.Step
import Ais.Proofs.Station.Pools
import Ais.Proofs.Station.Conveying
import Ais.Proofs.Station.Shutdown
import Ais.Proofs.Station.Busy
import Ais.Proofs.Station.Reading
import Ais.Proofs.Payload.Window
import Ais.Proofs.Sentence.Replaced
import Ais.Proofs.Stage.Delivery
import Ais.Proofs.Stage.Turns
import Ais.Proofs.Stage.Rounds
import Ais.Proofs.Sentence.Checked
import Ais.Proofs.Payload.Confined
import Ais.Proofs.Payload.Packed
import Ais.Proofs.Payload.Numbers
import Ais.Proofs.Payload.Reads
import Ais.Proofs.Payload.Text
import Ais.Proofs.Payload.Offsets
import Ais.Proofs.Payload.Spans
import Ais.Proofs.Payload.Finds
import Ais.Proofs.Report.Position
import Ais.Proofs.Report.Voyage
import Ais.Proofs.Report.Dispatch
import Ais.Proofs.Pool.Lending
import Ais.Proofs.Stage.Totals
import Ais.Proofs.Batch.Marked
