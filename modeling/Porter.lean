import Porter.Connection.Destination
import Porter.Connection.Fin
import Porter.Connection.Fresh
import Porter.Connection.Handshake.Closing
import Porter.Connection.Isolation
import Porter.Connection.Reclaim
import Porter.Connection.Session
import Porter.Connection.Table
import Porter.Connection.TcpEvents
import Porter.Connection.Timeout
import Porter.Crypto.Authentic
import Porter.Crypto.Nonce
import Porter.Delivery.Answer
import Porter.Delivery.AtMostOnce
import Porter.Delivery.Continuity
import Porter.Delivery.Framing
import Porter.Delivery.Integrity
import Porter.Delivery.Merge
import Porter.Delivery.Progress
import Porter.Delivery.RawOrder
import Porter.Delivery.Reject
import Porter.Delivery.RejectCost
import Porter.Delivery.Reorder
import Porter.Delivery.Retransmit
import Porter.Delivery.RoundTrip
import Porter.Delivery.Suppress
import Porter.Delivery.Writable
import Porter.Packet.Layout
import Porter.Send.Blocking
import Porter.Send.Queue
import Porter.Send.Route
import Porter.Window.Refine
