import AntRelay.Codec.BytesMut
import AntRelay.Runtime.Broadcast

namespace AntRelay.Runtime
open AntRelay.Base AntRelay.Codec AntRelay.Format

variable {crc : Checksum}

structure UplinkActor where
  connecting : Bool
  receiver : Option Bytes
  stopping : Bool
  deriving DecidableEq, Repr

inductive UplinkAction where
  | connect (ok : Bool)
  | recv (datagram : Bytes)
  | recvFailed
  | restart
  deriving DecidableEq, Repr

inductive UplinkSeen (crc : Checksum) where
  | received (datagram : Bytes)
  | issued (msg : Broadcast crc)
  | panicked

namespace UplinkActor

def default : UplinkActor where
  connecting := true
  receiver := none
  stopping := false

def bufferSize : Nat := 8192

/-- `recv` writes a datagram to the front of the buffer, as much as fits. -/
def recvInto (buf datagram : Bytes) : Nat × Bytes :=
  let count := min buf.length datagram.length
  (count, datagram.take count ++ buf.drop count)

def receive (buf datagram : Bytes) : Outcome Empty (Bytes × Bytes) :=
  let buf := resize buf bufferSize
  let (count, buf) := recvInto buf datagram
  splitTo buf count

def next (crc : Checksum) (s : UplinkActor) :
    UplinkAction → Option (UplinkActor × List (UplinkSeen crc))
  | .connect ok =>
      if !s.connecting || s.stopping then none
      else if ok then some ({ s with connecting := false, receiver := some [] }, [])
      else some ({ s with connecting := false, stopping := true }, [])
  | .recv datagram =>
      if s.stopping then none
      else
        s.receiver.map fun buf =>
          match receive buf datagram with
          | .ok (pkt, buf) =>
              ({ s with receiver := some buf },
                .received datagram :: (Uplink.publishes crc pkt).map .issued)
          | _ => ({ s with receiver := none }, [.panicked])
  | .recvFailed =>
      if s.stopping then none
      else s.receiver.map fun _ => ({ s with receiver := none, stopping := true }, [])
  | .restart =>
      if s.stopping then some (⟨true, none, false⟩, []) else none

def machine (crc : Checksum) : Machine UplinkActor UplinkAction (UplinkSeen crc) where
  init := default
  next := next crc

theorem length_resize (buf : Bytes) (length : Nat) : (resize buf length).length = length := by
  rw [resize, List.length_append, List.length_take, List.length_replicate]
  omega

theorem receive_eq (buf datagram : Bytes) :
    ∃ left, receive buf datagram = .ok (datagram.take bufferSize, left) := by
  have hsize := length_resize buf bufferSize
  have hcount : (datagram.take (min bufferSize datagram.length)).length =
      min bufferSize datagram.length := by
    rw [List.length_take]
    omega
  refine ⟨(resize buf bufferSize).drop (min bufferSize datagram.length), ?_⟩
  simp only [receive, recvInto, hsize]
  rw [splitTo_of_le, List.take_left' hcount, List.drop_left' hcount, ← List.take_eq_take_min]
  rw [List.length_append, hcount]
  exact Nat.le_add_right _ _

end UplinkActor

namespace UplinkSeen

def datagram? : UplinkSeen crc → Option Bytes
  | .received datagram => some datagram
  | _ => none

def packet? : UplinkSeen crc → Option Bytes
  | .received datagram => some (datagram.take UplinkActor.bufferSize)
  | _ => none

def issued? : UplinkSeen crc → Option (Broadcast crc)
  | .issued msg => some msg
  | _ => none

def command? : UplinkSeen crc → Option (Message crc)
  | .issued msg => msg.upCommand?
  | _ => none

end UplinkSeen

section Steps

variable {s s' : UplinkActor} {a : UplinkAction} {shown : List (UplinkSeen crc)}

theorem uplink_recv {datagram : Bytes} (h : s.next crc (.recv datagram) = some (s', shown)) :
    shown = .received datagram ::
      (Uplink.publishes crc (datagram.take UplinkActor.bufferSize)).map .issued := by
  simp only [UplinkActor.next] at h
  split at h
  · cases h
  · obtain ⟨buf, _, hresult⟩ := Option.map_eq_some_iff.mp h
    obtain ⟨left, hreceive⟩ := UplinkActor.receive_eq buf datagram
    rw [hreceive] at hresult
    cases hresult
    rfl

theorem uplink_shown (h : s.next crc a = some (s', shown)) :
    shown = [] ∨ ∃ datagram, shown = .received datagram ::
      (Uplink.publishes crc (datagram.take UplinkActor.bufferSize)).map .issued := by
  cases a with
  | connect ok =>
      left
      simp only [UplinkActor.next] at h
      split at h
      · cases h
      · split at h <;> cases h <;> rfl
  | recv datagram => exact .inr ⟨datagram, uplink_recv h⟩
  | recvFailed =>
      left
      simp only [UplinkActor.next] at h
      split at h
      · cases h
      · obtain ⟨_, _, hresult⟩ := Option.map_eq_some_iff.mp h
        cases hresult
        rfl
  | restart =>
      left
      simp only [UplinkActor.next] at h
      split at h
      · cases h
        rfl
      · cases h

theorem filterMap_issued?_map (msgs : List (Broadcast crc)) :
    (msgs.map UplinkSeen.issued).filterMap UplinkSeen.issued? = msgs := by
  exact filterMap_map_some fun _ => rfl

theorem filterMap_command?_map (pkt : Bytes) :
    ((Uplink.publishes crc pkt).map UplinkSeen.issued).filterMap UplinkSeen.command? =
      (Uplink.command? pkt : Option (Message crc)).toList := by
  simp only [Uplink.publishes]
  cases (Uplink.command? pkt : Option (Message crc)) <;> rfl

theorem wire_of_command? {pkt : Bytes} {msg : Message crc}
    (h : Uplink.command? pkt = some msg) : wire msg = pkt := by
  unfold Uplink.command? at h
  split at h
  · rename_i found hunpack
    cases h
    exact CanonicalWire.wire_of_unpackFromSlice hunpack
  · cases h
  · cases h

end Steps

/-- All that is published: every datagram, as far as it fits the buffer, and the
command that it encodes. -/
structure Publishes (seen : List (UplinkSeen crc)) : Prop where
  issued : seen.filterMap UplinkSeen.issued? =
    (seen.filterMap UplinkSeen.datagram?).flatMap fun datagram =>
      Uplink.publishes crc (datagram.take UplinkActor.bufferSize)
  sane : .panicked ∉ seen

theorem Publishes.append {seen shown : List (UplinkSeen crc)} (h : Publishes seen)
    (hshown : Publishes shown) : Publishes (seen ++ shown) where
  issued := by
    rw [List.filterMap_append, List.filterMap_append, List.flatMap_append, h.issued,
      hshown.issued]
  sane := by
    rw [List.mem_append, not_or]
    exact ⟨h.sane, hshown.sane⟩

theorem publishes_received (datagram : Bytes) :
    Publishes (.received datagram ::
      (Uplink.publishes crc (datagram.take UplinkActor.bufferSize)).map UplinkSeen.issued) where
  issued := by
    have hdatagrams : ((Uplink.publishes crc (datagram.take UplinkActor.bufferSize)).map
        UplinkSeen.issued).filterMap UplinkSeen.datagram? = [] := by
      exact filterMap_map_none fun _ => rfl
    have hreceived : (UplinkSeen.received datagram : UplinkSeen crc).datagram? = some datagram :=
      rfl
    rw [List.filterMap_cons_none rfl, filterMap_issued?_map, List.filterMap_cons_some hreceived,
      hdatagrams, List.flatMap_singleton]
  sane := by simp

/-- However datagrams, failures and new sockets follow: for each datagram its
packet is published, with nothing of an earlier one, and then the message whose
encoding it is, if there is one; and the buffer is never cut past its end. -/
theorem uplink_publishes {visits : List (Visit _ UplinkAction (UplinkSeen crc))}
    {s : UplinkActor} {seen : List (UplinkSeen crc)}
    (hrun : (UplinkActor.machine crc).Run visits s seen) :
    Publishes seen ∧
      ∀ pkt, ∀ msg : Message crc, Uplink.command? pkt = some msg ↔ pkt = wire msg := by
  refine ⟨(hrun.always (fun _ seen => Publishes seen) ⟨rfl, by simp⟩ ?_).1, ?_⟩
  · intro s seen a s' shown h hnext
    apply h.append
    rcases uplink_shown hnext with rfl | ⟨datagram, rfl⟩
    · exact ⟨rfl, by simp⟩
    · exact publishes_received datagram
  · intro pkt msg
    constructor
    · intro h
      exact (wire_of_command? h).symm
    · rintro rfl
      unfold Uplink.command?
      rw [Packable.unpackFromSlice_wire]

set_option maxRecDepth 100000 in
theorem uplink_publishes_reconnected : ∃ visits s seen,
    (UplinkActor.machine (StandardCRC crc8Smbus)).Run visits s seen ∧
      seen.filterMap UplinkSeen.datagram? =
        [[1, 2], wire (command (StandardCRC crc8Smbus) ⟨⟨0⟩, 0⟩ .ant .antPing)] ∧
      Publishes seen := by
  have hrun := Machine.Run.start.follow
    (show (UplinkActor.machine (StandardCRC crc8Smbus)).follow [] _ [] [.connect true,
      .recv [1, 2], .recvFailed, .restart, .connect true,
      .recv (wire (command (StandardCRC crc8Smbus) ⟨⟨0⟩, 0⟩ .ant .antPing))] =
        some (_, _, _) from rfl)
  exact ⟨_, _, _, hrun, rfl, (uplink_publishes hrun).1⟩

end AntRelay.Runtime
