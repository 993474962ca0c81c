import AntRelay.Base.Bus
import AntRelay.Runtime.Downlink
import AntRelay.Runtime.Station

namespace AntRelay.Runtime
open AntRelay.Base AntRelay.Format

variable {crc : Checksum} {ε : Type}

inductive Broadcast (crc : Checksum) where
  | serialDownPacket (pkt : Bytes)
  | serialUpPacket (pkt : Bytes)
  | downMessage (msg : Message crc)
  | upMessage (msg : Message crc)
  | ackMessage (msg : Message crc)
  | antMessage (pkt : AntPacket crc)
  | groundUpPacket (pkt : Bytes)
  | upCommand (msg : Message crc)
  | log (log : Log)

inductive Topic where
  | serialDownPacket
  | serialUpPacket
  | downMessage
  | upMessage
  | ackMessage
  | antMessage
  | groundUpPacket
  | upCommand
  | log
  deriving DecidableEq, Repr

inductive Listener where
  | antDecode
  | serial
  | downlink (address : Nat)
  deriving DecidableEq, Repr

namespace Broadcast

def topic : Broadcast crc → Topic
  | .serialDownPacket _ => .serialDownPacket
  | .serialUpPacket _ => .serialUpPacket
  | .downMessage _ => .downMessage
  | .upMessage _ => .upMessage
  | .ackMessage _ => .ackMessage
  | .antMessage _ => .antMessage
  | .groundUpPacket _ => .groundUpPacket
  | .upCommand _ => .upCommand
  | .log _ => .log

def serialDownPacket? : Broadcast crc → Option Bytes
  | .serialDownPacket pkt => some pkt
  | _ => none

def serialUpPacket? : Broadcast crc → Option Bytes
  | .serialUpPacket pkt => some pkt
  | _ => none

def downMessage? : Broadcast crc → Option (Message crc)
  | .downMessage msg => some msg
  | _ => none

def upMessage? : Broadcast crc → Option (Message crc)
  | .upMessage msg => some msg
  | _ => none

def antMessage? : Broadcast crc → Option (AntPacket crc)
  | .antMessage pkt => some pkt
  | _ => none

def groundUpPacket? : Broadcast crc → Option Bytes
  | .groundUpPacket pkt => some pkt
  | _ => none

def upCommand? : Broadcast crc → Option (Message crc)
  | .upCommand msg => some msg
  | _ => none

end Broadcast

abbrev BroadcastBus (crc : Checksum) := Bus Listener Topic (Broadcast crc)
abbrev BroadcastPost (crc : Checksum) := Post Listener Topic (Broadcast crc)

def Serial.publishes : Broadcast crc → List (Broadcast crc)
  | .upMessage msg =>
      match Serial.handleUpMessage msg with
      | some packed => [.serialUpPacket packed]
      | none => []
  | .serialDownPacket pkt =>
      match Serial.handleDownPacket pkt with
      | some unpacked =>
          .downMessage unpacked :: if Serial.issuesAck unpacked then [.ackMessage unpacked] else []
      | none => []
  | _ => []

def AntDecode.publishes : Broadcast crc → List (Broadcast crc)
  | .downMessage msg =>
      match AntDecode.handle msg with
      | some pkt => [.antMessage pkt]
      | none => []
  | _ => []

def Uplink.command? (pkt : Bytes) : Option (Message crc) :=
  match (unpackFromSlice pkt : PackingResult (Message crc)) with
  | .ok msg => some msg
  | .error _ => none
  | .panicked => none

def Uplink.publishes (crc : Checksum) (pkt : Bytes) : List (Broadcast crc) :=
  .groundUpPacket pkt ::
    match Uplink.command? pkt with
    | some msg => [.upCommand msg]
    | none => []

namespace Listener

def publishes : Listener → Broadcast crc → List (Broadcast crc)
  | .antDecode => AntDecode.publishes
  | .serial => Serial.publishes
  | .downlink _ => fun _ => []

def start : List (BroadcastPost crc) :=
  [.subscribe .antDecode .downMessage, .subscribe .serial .upMessage,
    .subscribe .serial .serialDownPacket]

end Listener

inductive Wait where
  | socket
  | sleep
  | send (socket : Nat) (packet : Bytes)
  deriving DecidableEq, Repr

/-- `Downlink`, with its context.  Its sockets are numbered. -/
structure DownlinkActor where
  sender : Option Nat
  subscribed : Bool
  waits : List Wait
  stopping : Bool
  sockets : Nat
  deriving DecidableEq, Repr

inductive DownlinkAction where
  | finish (index : Nat) (ok : Bool)
  | handle
  | restart
  deriving DecidableEq, Repr

inductive Fate (ε : Type) where
  | sent (socket : Nat) (packet : Bytes)
  | failed (socket : Nat)
  | notCompressed (err : ε)
  | panicked
  deriving DecidableEq, Repr

inductive DownlinkSeen (ε : Type) where
  | connected (socket : Nat)
  | fate (fate : Fate ε)
  deriving DecidableEq, Repr

namespace DownlinkActor

def default : DownlinkActor where
  sender := none
  subscribed := false
  waits := [.socket]
  stopping := false
  sockets := 0

def topics : List Topic :=
  [.serialDownPacket, .serialUpPacket, .downMessage, .upMessage, .groundUpPacket, .upCommand, .log]

/-- What the ground is told; the other types have no handler. -/
def extract : Broadcast crc → Option (Downlink crc)
  | .serialDownPacket pkt => some (.serialDownlinkRaw ⟨pkt⟩)
  | .serialUpPacket pkt => some (.serialUplinkRaw ⟨pkt⟩)
  | .groundUpPacket pkt => some (.uplinkMirror ⟨pkt⟩)
  | .upMessage msg => some (.serialUplink msg)
  | .downMessage msg => some (.serialDownlink msg)
  | .upCommand msg => some (.uplinkInterpreted msg)
  | .log log => some (.log log)
  | .ackMessage _ => none
  | .antMessage _ => none

def finish (self : DownlinkActor) (index : Nat) (ok : Bool) :
    Option (DownlinkActor × List Topic × List (DownlinkSeen ε)) :=
  if self.stopping then none
  else
    match self.waits[index]? with
    | none => none
    | some wait =>
        let self := { self with waits := self.waits.eraseIdx index }
        match wait with
        | .socket =>
            if ok then
              some ({ self with
                sender := some self.sockets
                subscribed := true
                sockets := self.sockets + 1 },
                if self.subscribed then [] else topics, [.connected self.sockets])
            else some ({ self with stopping := true }, [], [])
        | .sleep => some (self, [], [])
        | .send socket packet =>
            if ok then some (self, [], [.fate (.sent socket packet)])
            else some ({ self with stopping := true }, [], [.fate (.failed socket)])

def ready (self : DownlinkActor) : Bool :=
  self.waits.isEmpty && !self.stopping

def handle (brotli : Brotli ε) (self : DownlinkActor) (msg : Downlink crc) :
    DownlinkActor × List (DownlinkSeen ε) :=
  match genHandle brotli id self.sender msg with
  | .ok (socket, packet) => ({ self with waits := self.waits ++ [.send socket packet] }, [])
  | .error err => (self, [.fate (.notCompressed err)])
  | .panicked => (self, [.fate .panicked])

/-- `restarting`, then `started`; what the old context waited for is dropped. -/
def restart (self : DownlinkActor) : Option DownlinkActor :=
  if self.stopping then some { self with waits := [.sleep, .socket], stopping := false }
  else none

end DownlinkActor

structure Node (crc : Checksum) where
  bus : BroadcastBus crc
  downlinks : Nat → DownlinkActor

inductive NodeAction (crc : Checksum) where
  | upMessage (msg : Message crc)
  | serialDownPacket (pkt : Bytes)
  | datagram (pkt : Bytes)
  | log (log : Log)
  | forward
  | serial
  | antDecode
  | downlink (address : Nat) (a : DownlinkAction)

inductive NodeSeen (crc : Checksum) (ε : Type) where
  | posted (post : BroadcastPost crc)
  | handled (listener : Listener) (msg : Broadcast crc)
  | downlink (address : Nat) (item : DownlinkSeen ε)

namespace Node

def default : Node crc where
  bus := ⟨Listener.start, fun _ => [], fun _ => []⟩
  downlinks := fun _ => .default

def publish (s : Node crc) (msgs : List (Broadcast crc)) : Node crc × List (NodeSeen crc ε) :=
  let posts := msgs.map Post.issue
  ({ s with bus := s.bus.post posts }, posts.map .posted)

def react (s : Node crc) (listener : Listener) : Option (Node crc × List (NodeSeen crc ε)) :=
  (s.bus.take listener).map fun (msg, bus) =>
    let (s, shown) := publish { s with bus := bus } (listener.publishes msg)
    (s, .handled listener msg :: shown)

def downlink (brotli : Brotli ε) (s : Node crc) (address : Nat) :
    DownlinkAction → Option (Node crc × List (NodeSeen crc ε))
  | .finish index ok =>
      ((s.downlinks address).finish index ok).map fun (self, topics, shown) =>
        let posts := topics.map (.subscribe (.downlink address))
        ({ s with
          bus := s.bus.post posts
          downlinks := Function.update s.downlinks address self },
          posts.map .posted ++ shown.map (.downlink address))
  | .handle =>
      if !(s.downlinks address).ready then none
      else
        (s.bus.take (.downlink address)).map fun (msg, bus) =>
          let (self, shown) :=
            match DownlinkActor.extract msg with
            | some d => (s.downlinks address).handle brotli d
            | none => (s.downlinks address, [])
          ({ s with bus := bus, downlinks := Function.update s.downlinks address self },
            .handled (.downlink address) msg :: shown.map (.downlink address))
  | .restart =>
      (s.downlinks address).restart.map fun self =>
        ({ s with downlinks := Function.update s.downlinks address self }, [])

def next (brotli : Brotli ε) (s : Node crc) :
    NodeAction crc → Option (Node crc × List (NodeSeen crc ε))
  | .upMessage msg => some (s.publish [.upMessage msg])
  | .serialDownPacket pkt => some (s.publish [.serialDownPacket pkt])
  | .datagram pkt => some (s.publish (Uplink.publishes crc pkt))
  | .log log => some (s.publish [.log log])
  | .forward => (s.bus.forward Broadcast.topic).map fun bus => ({ s with bus := bus }, [])
  | .serial => s.react .serial
  | .antDecode => s.react .antDecode
  | .downlink address a => s.downlink brotli address a

def machine (crc : Checksum) (brotli : Brotli ε) :
    Machine (Node crc) (NodeAction crc) (NodeSeen crc ε) where
  init := default
  next := next brotli

end Node

end AntRelay.Runtime
