import PeerWire.Conversation.Desk
import PeerWire.Main
import PeerWire.Proofs.Assignment.Departures
import PeerWire.Proofs.Assignment.Exclusive
import PeerWire.Proofs.Bitfield.Encoding
import PeerWire.Proofs.Client.Download
import PeerWire.Proofs.Conversation.FirstFailure
import PeerWire.Proofs.Conversation.Interest
import PeerWire.Proofs.Conversation.Known
import PeerWire.Proofs.Message.Draining
import PeerWire.Proofs.Outbox.Ending
import PeerWire.Proofs.Session.Cancelled
import PeerWire.Proofs.Session.Crash
import PeerWire.Proofs.Session.ExitReport
import PeerWire.Proofs.Session.FieldExchange
import PeerWire.Proofs.Session.HandshakeExchange
import PeerWire.Proofs.Session.KeepAlive
import PeerWire.Proofs.Session.SchedulerBooks
import PeerWire.Proofs.Session.Snapshots
import PeerWire.Proofs.Session.StalledWire
import PeerWire.Proofs.Session.Unestablished
import PeerWire.Proofs.Teardown.Abandonment
import PeerWire.Proofs.Teardown.Race.Course
