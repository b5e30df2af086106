import Libsfp.Lib.Stuffing
import Libsfp.Lib.Link
import Libsfp.Model.Receiver
import Libsfp.Session.Network
import Libsfp.Lib.Window
import Libsfp.Session.Window
import Libsfp.Session.Reliable
import Libsfp.Session.Handshake
import Libsfp.Session.ExactlyOnce
import Libsfp.Session.StateTable
import Libsfp.Session.Quiescence
import Libsfp.Session.Termination
import Libsfp.Session.Listener
import Libsfp.Session.Agreement
import Libsfp.Api.Calls
import Libsfp.Session.Labels
import Libsfp.Api.History
import Libsfp.Api.Trace
import Libsfp.Api.Locking
import Libsfp.Api.Safety
import Libsfp.Api.Reinit
import Libsfp.Lib.ShiftRegister
import Libsfp.Octet.Detection
import Libsfp.Asio.MessageQueue
import Libsfp.Asio.Outbox
import Libsfp.Api.Deliveries
import Libsfp.Asio.ReadPump
import Libsfp.Asio.Stream
import Libsfp.Asio.StreamReads
import Libsfp.Asio.StreamWrites
import Libsfp.Lib.Repair
import Libsfp.Session.Recovery
import Libsfp.Lib.WriteBuffer
import Libsfp.Octet.Chunks
import Libsfp.Api.Device
import Libsfp.Session.Stabilization
import Libsfp.Api.Output
import Libsfp.Session.OctetLine
import Libsfp.Session.Streaming
import Libsfp.Session.Asking
import Libsfp.Asio.Duplex
import Libsfp.Asio.EndToEnd
import Libsfp.Api.Replies
import Libsfp.Session.Echo
import Libsfp.Asio.Receives
import Libsfp.Asio.Flow
import Libsfp.Asio.Impl
import Libsfp.Asio.Queues
