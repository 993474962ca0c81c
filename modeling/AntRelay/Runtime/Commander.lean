import AntRelay.Base.Machine
import AntRelay.Format.Payloads
import Mathlib.Data.List.AList

namespace AntRelay.Runtime
open AntRelay.Base AntRelay.Format

/-! `Commander` keeps the sending half of a channel for every request that
awaits a reply. Replies come from the serial port: `Serial` publishes a packet
with a source as an ack, and `AntDecode` publishes what a relay packet carries
from the ant. The receiving half belongs to the future the request's handler
returns, which runs to its end whether or not the requester still waits. -/

variable {crc : Checksum}

abbrev Sender := Nat

inductive Response (crc : Checksum) where
  | message (msg : Message crc)
  | ant (pkt : AntPacket crc)

inductive Effect (crc : Checksum) where
  | issue (msg : Message crc)
  | send (tx : Sender) (resp : Response crc)
  | dropSender (tx : Sender)

structure Commander where
  requests : AList fun _ : UniqueId => Sender

namespace Commander

def default : Commander where
  requests := ∅

def collectGarbage (self : Commander) (isClosed : Sender → Bool) : Commander :=
  let keys := (self.requests.entries.filter fun entry => isClosed entry.2).map (·.1)
  { self with requests := keys.foldl (fun requests k => requests.erase k) self.requests }

/-- `insert` drops the sender that was there under the same key. -/
def handleRequest (self : Commander) (msg : Message crc) (tx : Sender) :
    Commander × List (Effect crc) :=
  let id := msg.val.header.header.uniqueId
  let replaced := (self.requests.lookup id).toList.map .dropSender
  ({ self with requests := self.requests.insert id tx }, replaced ++ [.issue msg])

def handleAck (self : Commander) (msg : Message crc) : Commander × List (Effect crc) :=
  let ty := msg.val.header.header.ty
  -- drop relay packets in favor of the inner ant message
  if ty.event = .csRelay ∧ ty.disposition = .ack then (self, [])
  else
    match msg.val.header.payload with
    | .empty => (self, [])
    | .info info =>
        let msgId := info.header.uniqueId
        match self.requests.lookup msgId with
        | none => (self, [])
        | some tx =>
            ({ self with requests := self.requests.erase msgId }, [.send tx (.message msg)])

def handleAnt (self : Commander) (pkt : AntPacket crc) : Commander × List (Effect crc) :=
  match pkt.val.header.payload with
  | .empty => (self, [])
  | .info info =>
      let msgId := info.header.uniqueId
      match self.requests.lookup msgId with
      | none => (self, [])
      | some tx => ({ self with requests := self.requests.erase msgId }, [.send tx (.ant pkt)])

end Commander

def Serial.handleDownPacket (pkt : Bytes) : Option (Message crc) :=
  match (unpackFromSlice pkt : PackingResult (Message crc)) with
  | .ok unpacked => some unpacked
  | .error _ => none
  | .panicked => none

theorem Serial.handleDownPacket_wire (msg : Message crc) :
    Serial.handleDownPacket (wire msg) = some msg := by
  unfold Serial.handleDownPacket
  rw [Packable.unpackFromSlice_wire]

/-- Whether `try_issue_ack` publishes the message as an ack. -/
def Serial.issuesAck (msg : Message crc) : Bool :=
  match msg.val.header.payload with
  | .info _ => true
  | .empty => false

/-- What `AntDecode` publishes for a message. -/
def AntDecode.handle (msg : Message crc) : Option (AntPacket crc) :=
  let ty := msg.val.header.header.ty
  if ty.event = .csRelay ∧ ty.disposition = .ack then
    match (unpackFromSlice msg.val.payload.bytes : PackingResult (CSRelay crc)) with
    | .ok relay => some relay.payload
    | .error _ => none
    | .panicked => none
  else none

inductive Delivery (crc : Checksum) where
  | ack (msg : Message crc)
  | ant (pkt : AntPacket crc)

/-- The commander with everything around it: the channels' receiving ends that
are still there, the requesters that still wait, and what has been published
but not handled yet, with the number of the packet it comes from. -/
structure Link (crc : Checksum) where
  commander : Commander
  nextSender : Sender
  receivers : List Sender
  requesters : List Sender
  packets : Nat
  downMessages : List (Nat × Message crc)
  inbox : List (Option Nat × Delivery crc)

inductive LinkAction (crc : Checksum) where
  -- A request; `awaited` when it is made by `send`, not by `do_send`.
  | request (msg : Message crc) (awaited : Bool)
  | timeout (tx : Sender)
  | collectGarbage
  | downPacket (pkt : Bytes)
  | antDecode (index : Nat)
  -- A reply is published that comes from no packet.
  | publish (delivery : Delivery crc)
  | deliver (index : Nat)

inductive LinkSeen (crc : Checksum) where
  | registered (tx : Sender) (msg : Message crc)
  | issued (msg : Message crc)
  | handled (origin : Option Nat) (delivery : Delivery crc)
  | answered (origin : Option Nat) (tx : Sender) (resp : Response crc)
  | dropped (tx : Sender)

namespace Link

def default : Link crc where
  commander := .default
  nextSender := 0
  receivers := []
  requesters := []
  packets := 0
  downMessages := []
  inbox := []

def resolve (s : Link crc) (tx : Sender) : Link crc :=
  { s with receivers := s.receivers.erase tx, requesters := s.requesters.erase tx }

/-- A reply or a drop reaches the receiving end if that is still there. -/
def effect (s : Link crc) (origin : Option Nat) :
    Effect crc → Link crc × List (LinkSeen crc)
  | .issue msg => (s, [.issued msg])
  | .send tx resp =>
      if tx ∈ s.receivers then (s.resolve tx, [.answered origin tx resp]) else (s, [])
  | .dropSender tx => if tx ∈ s.receivers then (s.resolve tx, [.dropped tx]) else (s, [])

def effects (s : Link crc) (origin : Option Nat) :
    List (Effect crc) → Link crc × List (LinkSeen crc)
  | [] => (s, [])
  | first :: rest =>
      let (s, shown) := s.effect origin first
      let (s, more) := effects s origin rest
      (s, shown ++ more)

def handleDelivery (self : Commander) : Delivery crc → Commander × List (Effect crc)
  | .ack msg => self.handleAck msg
  | .ant pkt => self.handleAnt pkt

def next (s : Link crc) : LinkAction crc → Option (Link crc × List (LinkSeen crc))
  | .request msg awaited =>
      let tx := s.nextSender
      let (commander, done) := s.commander.handleRequest msg tx
      let (s, shown) := s.effects none done
      some ({ s with
        commander := commander
        nextSender := tx + 1
        receivers := s.receivers ++ [tx]
        requesters := if awaited then s.requesters ++ [tx] else s.requesters },
        .registered tx msg :: shown)
  | .timeout tx =>
      if tx ∈ s.requesters then some ({ s with requesters := s.requesters.erase tx }, [])
      else none
  | .collectGarbage =>
      some ({ s with commander := s.commander.collectGarbage fun tx => !s.receivers.contains tx },
        [])
  | .downPacket pkt =>
      let s' := { s with packets := s.packets + 1 }
      match Serial.handleDownPacket pkt with
      | none => some (s', [])
      | some msg =>
          let s' := { s' with downMessages := s.downMessages ++ [(s.packets, msg)] }
          if Serial.issuesAck msg then
            some ({ s' with inbox := s.inbox ++ [(some s.packets, .ack msg)] }, [])
          else some (s', [])
  | .antDecode index =>
      match s.downMessages[index]? with
      | none => none
      | some (packet, msg) =>
          let s' := { s with downMessages := s.downMessages.eraseIdx index }
          match AntDecode.handle msg with
          | none => some (s', [])
          | some pkt => some ({ s' with inbox := s.inbox ++ [(some packet, .ant pkt)] }, [])
  | .publish delivery => some ({ s with inbox := s.inbox ++ [(none, delivery)] }, [])
  | .deliver index =>
      match s.inbox[index]? with
      | none => none
      | some (origin, delivery) =>
          let (commander, done) := handleDelivery s.commander delivery
          let (s, shown) := { s with inbox := s.inbox.eraseIdx index }.effects origin done
          some ({ s with commander := commander }, .handled origin delivery :: shown)

def machine (crc : Checksum) : Machine (Link crc) (LinkAction crc) (LinkSeen crc) where
  init := default
  next := next

end Link

end AntRelay.Runtime
