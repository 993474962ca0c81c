import AntRelay.Base.Outcome
import AntRelay.Base.Bits
import AntRelay.Base.BitCodec
import AntRelay.Base.Crc
import AntRelay.Base.Framing
import AntRelay.Base.Segments
import AntRelay.Base.Machine
import AntRelay.Base.Loop
import AntRelay.Base.Delimited
import AntRelay.Base.Search
import AntRelay.Base.Cobs
import AntRelay.Base.CobsInPlace
import AntRelay.Base.CobsStream
import AntRelay.Base.SortedMap
import AntRelay.Base.Table
import AntRelay.Base.Bincode
import AntRelay.Base.Text
import AntRelay.Format.PackedStruct
import AntRelay.Format.Header
import AntRelay.Format.SourceInfo
import AntRelay.Format.HeaderPacket
import AntRelay.Format.WithCrc
import AntRelay.Format.Payloads
import AntRelay.Format.Bijection
import AntRelay.Format.Corruption
import AntRelay.Format.Serde
import AntRelay.Format.Downlink
import AntRelay.Format.Epoch
import AntRelay.Format.OutputLength
import AntRelay.Codec.BytesMut
import AntRelay.Codec.Cobs
import AntRelay.Codec.Frames
import AntRelay.Codec.RoundTrip
import AntRelay.Codec.Malformed
import AntRelay.Codec.Progress
import AntRelay.Codec.AllDelimiters
import AntRelay.Codec.Exclusive
import AntRelay.Codec.Inclusive
import AntRelay.Runtime.StateMachine
import AntRelay.Runtime.Steps
import AntRelay.Runtime.Invariant
import AntRelay.Runtime.OneTask
import AntRelay.Runtime.BleLink
import AntRelay.Runtime.Resend
import AntRelay.Runtime.History
import AntRelay.Runtime.BackgroundWork
import AntRelay.Runtime.RoverStop
import AntRelay.Runtime.AntStart
import AntRelay.Runtime.AntStop
import AntRelay.Runtime.Commander
import AntRelay.Runtime.Telemetry
import AntRelay.Runtime.Replies
import AntRelay.Runtime.Garbage
import AntRelay.Runtime.PacketReplies
import AntRelay.Runtime.Relay
import AntRelay.Runtime.RequestIds
import AntRelay.Runtime.Eviction
import AntRelay.Runtime.SerialReader
import AntRelay.Runtime.Downlink
import AntRelay.Trace.Downlink
import AntRelay.Base.Channel
import AntRelay.Base.Drain
import AntRelay.Base.Simulation
import AntRelay.Base.Bus
import AntRelay.Base.Follows
import AntRelay.Codec.Channel
import AntRelay.Runtime.Station
import AntRelay.Runtime.Exchange
import AntRelay.Runtime.Acks
import AntRelay.Runtime.Quiet
import AntRelay.Runtime.Broadcast
import AntRelay.Runtime.Reconnect
import AntRelay.Runtime.Pairing
import AntRelay.Runtime.Echo
import AntRelay.Runtime.Plan
import AntRelay.Runtime.Forwarding
import AntRelay.Runtime.Recovery
import AntRelay.Runtime.Port
import AntRelay.Runtime.Delivery
import AntRelay.Runtime.Reception
import AntRelay.Runtime.Uplink
import AntRelay.Runtime.GroundPath
import AntRelay.Runtime.Orders
import AntRelay.Base.Retry
import AntRelay.Runtime.Sending
import AntRelay.Runtime.Retries
import AntRelay.Base.Once
import AntRelay.Format.Cached
import AntRelay.Trace.Layer
import AntRelay.Runtime.OverrideRegistry
