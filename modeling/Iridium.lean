import Iridium.Lib.Tlv
import Iridium.SbdDirectIp.Codec
import Iridium.SbdDirectIp.Unpack
import Iridium.SbdDirectIp.Walk
import Iridium.SbdDirectIp.Category
import Iridium.SbdDirectIp.Parse
import Iridium.SbdDirectIp.MoDecoding
import Iridium.SbdDirectIp.Confirmation
import Iridium.SbdDirectIp.Truncation
import Iridium.SbdDirectIp.Encoder
import Iridium.IncomingSbdSession
import Iridium.Lib.Segmentation
import Iridium.SessionSegmentation
import Iridium.Lib.Outbox
import Iridium.JobUnitQueue
import Iridium.SbdTransmitter
import Iridium.Transmitter.Refinement
import Iridium.Transmitter.Conservation
import Iridium.Transmitter.Provenance
import Iridium.Transmitter.Exchange
import Iridium.SbdDirectIp.RoundTrip
import Iridium.SbdDirectIp.Asymmetry
import Iridium.SbdDirectIp.ParseErrors
import Iridium.SbdDirectIp.Agreement
import Iridium.SessionHeader
import Iridium.SbdDirectIp.Copies
import Iridium.Transmitter.Isolation
import Iridium.SbdDirectIp.Framing
import Iridium.Lib.Serial
import Iridium.Lib.Text
import Iridium.Modem
import Iridium.SbdDirectIp.PayloadLength
import Iridium.Modem.Transfer
import Iridium.Lib.Decimal
import Iridium.Modem.Casts
import Iridium.Modem.Checksum
import Iridium.Modem.Chunking
import Iridium.Modem.Reply
import Iridium.Modem.Status
import Iridium.Modem.Bounds
import Iridium.Modem.Failures
import Iridium.Transmitter.Backoff
import Iridium.Lib.Pool
import Iridium.SbdReceiver
import Iridium.Receiver.Sessions
import Iridium.Receiver.Delivery
import Iridium.Receiver.Accepting
import Iridium.Modem.Deadline
import Iridium.Lib.Dialogue
import Iridium.Modem.Commands
import Iridium.Transmitter.Dispatch
import Iridium.Transmitter.Progress
import Iridium.Lib.Monitor
import Iridium.JobUnitQueue.Threads
import Iridium.Programs.Sender
import Iridium.Programs.Conversation
import Iridium.Programs.LockFile
