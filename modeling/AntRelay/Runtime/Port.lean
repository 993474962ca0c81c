import AntRelay.Base.Machine
import AntRelay.Codec.Channel
import AntRelay.Runtime.SerialReader

namespace AntRelay.Runtime
open AntRelay.Base AntRelay.Codec

/-! `RawIO` under its supervisor: it opens a port, gives the packets it handles
to the port's framed writer through a channel, publishes what the framed reader
yields, and opens the port again when it fails. The ports it has opened are
numbered. -/

/-- What `RawIO` waits for before it does anything else. -/
inductive PortWait where
  | makeIo
  | sleep
  deriving DecidableEq, Repr

structure Port where
  number : Nat
  queue : List Bytes
  -- Encoded and not written.
  unsent : Bytes
  writing : Bool
  buffer : Bytes
  ended : Bool
  deriving DecidableEq, Repr

/-- `RawIO`, with its context; `tx` is the number of the port whose channel the
sender is for. -/
structure PortActor where
  tx : Option Nat
  subscribed : Bool
  port : Option Port
  waits : List PortWait
  stopping : Bool
  -- The task of the actor has panicked, and with it the actor is gone.
  panicked : Bool
  opened : Nat
  mailbox : List Bytes
  deriving DecidableEq, Repr

inductive PortAction where
  | upPacket (pkt : Bytes)
  | finish (index : Nat) (ok : Bool)
  | handle
  | encode
  | write (count : Nat)
  | writeFailed
  | read (chunk : Bytes)
  | readEnded
  | readFailed
  | decode
  | restart
  deriving DecidableEq, Repr

inductive PortSeen where
  | upPacket (pkt : Bytes)
  | opened (port : Nat)
  | sent (port : Nat) (pkt : Bytes)
  -- It was not, since there is no sender or the writer is gone.
  | dropped (pkt : Bytes)
  | wrote (port : Nat) (bytes : Bytes)
  | read (port : Nat) (chunk : Bytes)
  | ended (port : Nat)
  | downPacket (port : Nat) (pkt : Bytes)
  | protocolError (port : Nat)
  | panicked
  deriving DecidableEq, Repr

namespace PortActor

def default : PortActor where
  tx := none
  subscribed := false
  port := none
  waits := [.makeIo]
  stopping := false
  panicked := false
  opened := 0
  mailbox := []

def ready (s : PortActor) : Bool :=
  s.waits.isEmpty && !s.stopping && !s.panicked

def finish (s : PortActor) (index : Nat) (ok : Bool) : Option (PortActor × List PortSeen) :=
  if s.stopping || s.panicked then none
  else
    match s.waits[index]? with
    | none => none
    | some wait =>
        let s := { s with waits := s.waits.eraseIdx index }
        match wait with
        | .makeIo =>
            if ok then
              some ({ s with
                tx := some s.opened
                subscribed := true
                port := some ⟨s.opened, [], [], true, [], false⟩
                opened := s.opened + 1 }, [.opened s.opened])
            else some ({ s with stopping := true }, [])
        | .sleep => some (s, [])

def send (s : PortActor) (tx : Nat) (pkt : Bytes) : Option PortActor :=
  s.port.bind fun port =>
    if port.number = tx ∧ port.writing then
      some { s with port := some { port with queue := port.queue ++ [pkt] } }
    else none

def handle (s : PortActor) (pkt : Bytes) : PortActor × List PortSeen :=
  match s.tx with
  | some tx =>
      match s.send tx pkt with
      | some s => (s, [.sent tx pkt])
      | none => (s, [.dropped pkt])
  | none => (s, [.dropped pkt])

/-- The framed writer encodes no more while it holds this much. -/
def backpressureBoundary : Nat := 8192

/-- Its task: an I/O error stops the actor, another one just ends the task. -/
def encode (cobs : CobsCrate) (s : PortActor) (port : Port) :
    Option (PortActor × List PortSeen) :=
  if !port.writing || backpressureBoundary ≤ port.unsent.length then none
  else
    match port.queue with
    | [] => none
    | pkt :: queue =>
        let port := { port with queue := queue }
        match (CobsCodec.encode cobs pkt port.unsent : Outcome (Error Empty) Bytes) with
        | .ok unsent => some ({ s with port := some { port with unsent := unsent } }, [])
        | .error (.io _) =>
            some ({ s with port := some { port with writing := false }, stopping := true }, [])
        | .error .cobsProtocol => some ({ s with port := some { port with writing := false } }, [])
        | .panicked => some ({ s with panicked := true }, [.panicked])

def write (s : PortActor) (port : Port) (count : Nat) : Option (PortActor × List PortSeen) :=
  if !port.writing || count = 0 || port.unsent.length < count then none
  else
    some ({ s with port := some { port with unsent := port.unsent.drop count } },
      [.wrote port.number (port.unsent.take count)])

def writeFailed (s : PortActor) (port : Port) : Option (PortActor × List PortSeen) :=
  if !port.writing then none
  else some ({ s with port := some { port with writing := false }, stopping := true }, [])

def readItem (s : PortActor) (port : Port) (x : Item Empty) : PortActor × List PortSeen :=
  let done := RawIO.default.handleItem x
  ({ s with port := some port, stopping := s.stopping || done.stopped },
    match x with
    | .ok _ => done.issued.map (.downPacket port.number)
    | .error _ => [.protocolError port.number])

/-- `decode` until the port has ended, `decode_eof` from then on. -/
def decode (cobs : CobsCrate) (s : PortActor) (port : Port) :
    Option (PortActor × List PortSeen) :=
  let call := if port.ended then CobsCodec.decodeEof cobs else CobsCodec.decode cobs
  match (call port.buffer : Outcome Empty (Option (Item Empty) × Bytes)) with
  | .ok (none, buffer) => some ({ s with port := some { port with buffer := buffer } }, [])
  | .ok (some x, buffer) => some (s.readItem { port with buffer := buffer } x)
  | _ => some ({ s with panicked := true }, [.panicked])

/-- `restarting`, then `started`; the tasks are dropped with the old context. -/
def restart (s : PortActor) : Option PortActor :=
  if s.stopping && !s.panicked then
    some { s with tx := none, port := none, waits := [.sleep, .makeIo], stopping := false }
  else none

def task (s : PortActor) (poll : Port → Option (PortActor × List PortSeen)) :
    Option (PortActor × List PortSeen) :=
  if s.ready then s.port.bind poll else none

def next (cobs : CobsCrate) (s : PortActor) : PortAction → Option (PortActor × List PortSeen)
  | .upPacket pkt =>
      if s.subscribed && !s.panicked then
        some ({ s with mailbox := s.mailbox ++ [pkt] }, [.upPacket pkt])
      else none
  | .finish index ok => s.finish index ok
  | .handle =>
      if !s.ready then none
      else
        match s.mailbox with
        | [] => none
        | pkt :: mailbox => some ({ s with mailbox := mailbox }.handle pkt)
  | .encode => s.task (s.encode cobs)
  | .write count => s.task fun port => s.write port count
  | .writeFailed => s.task s.writeFailed
  | .read chunk =>
      s.task fun port =>
        if port.ended then none
        else
          some ({ s with port := some { port with buffer := port.buffer ++ chunk } },
            [.read port.number chunk])
  | .readEnded =>
      s.task fun port =>
        if port.ended then none
        else some ({ s with port := some { port with ended := true } }, [.ended port.number])
  | .readFailed =>
      s.task fun port =>
        if port.ended then none
        else
          -- the framed reader's own error is unwrapped
          some ({ s with panicked := true }, [.panicked])
  | .decode => s.task (s.decode cobs)
  | .restart => s.restart.map fun s => (s, [])

def machine (cobs : CobsCrate) : Machine PortActor PortAction PortSeen where
  init := default
  next := next cobs

end PortActor

inductive PortMoved (cobs : CobsCrate) (s : PortActor) :
    PortAction → PortActor → List PortSeen → Prop where
  | arrived (pkt : Bytes) :
      PortMoved cobs s (.upPacket pkt) { s with mailbox := s.mailbox ++ [pkt] } [.upPacket pkt]
  | opened {index : Nat} (hwait : s.waits[index]? = some .makeIo) :
      PortMoved cobs s (.finish index true)
        { s with
          waits := s.waits.eraseIdx index
          tx := some s.opened
          subscribed := true
          port := some ⟨s.opened, [], [], true, [], false⟩
          opened := s.opened + 1 } [.opened s.opened]
  | refused {index : Nat} (hwait : s.waits[index]? = some .makeIo) :
      PortMoved cobs s (.finish index false)
        { s with waits := s.waits.eraseIdx index, stopping := true } []
  | slept {index : Nat} {ok : Bool} (hwait : s.waits[index]? = some .sleep) :
      PortMoved cobs s (.finish index ok) { s with waits := s.waits.eraseIdx index } []
  | sent {port : Port} {pkt : Bytes} {mailbox : List Bytes} (hready : s.ready = true)
      (hmail : s.mailbox = pkt :: mailbox) (hport : s.port = some port)
      (htx : s.tx = some port.number) (hwriting : port.writing = true) :
      PortMoved cobs s .handle
        { s with
          mailbox := mailbox
          port := some { port with queue := port.queue ++ [pkt] } } [.sent port.number pkt]
  | dropped {pkt : Bytes} {mailbox : List Bytes} (hready : s.ready = true)
      (hmail : s.mailbox = pkt :: mailbox)
      (hgone : ∀ port, s.port = some port → s.tx = some port.number → port.writing = false) :
      PortMoved cobs s .handle { s with mailbox := mailbox } [.dropped pkt]
  | encoded {port : Port} {pkt : Bytes} {queue : List Bytes} (hport : s.port = some port)
      (hqueue : port.queue = pkt :: queue) :
      PortMoved cobs s .encode
        { s with
          port := some { port with
            queue := queue
            unsent := port.unsent ++ CobsCodec.frame cobs Empty pkt } } []
  | wrote {port : Port} (hport : s.port = some port) (count : Nat) :
      PortMoved cobs s (.write count)
        { s with port := some { port with unsent := port.unsent.drop count } }
        [.wrote port.number (port.unsent.take count)]
  | writeFailed {port : Port} (hport : s.port = some port) :
      PortMoved cobs s .writeFailed
        { s with port := some { port with writing := false }, stopping := true } []
  | read {port : Port} (hport : s.port = some port) (hopen : port.ended = false)
      (chunk : Bytes) :
      PortMoved cobs s (.read chunk)
        { s with port := some { port with buffer := port.buffer ++ chunk } }
        [.read port.number chunk]
  | ended {port : Port} (hport : s.port = some port) :
      PortMoved cobs s .readEnded { s with port := some { port with ended := true } }
        [.ended port.number]
  | readFailed : PortMoved cobs s .readFailed { s with panicked := true } [.panicked]
  | nothing {port : Port} {buffer : Bytes} (hport : s.port = some port)
      (hdecode : (if port.ended then CobsCodec.decodeEof cobs port.buffer
        else CobsCodec.decode cobs port.buffer) =
          (.ok (none, buffer) : Outcome Empty (Option (Item Empty) × Bytes))) :
      PortMoved cobs s .decode { s with port := some { port with buffer := buffer } } []
  | downPacket {port : Port} {pkt buffer : Bytes} (hport : s.port = some port)
      (hdecode : (if port.ended then CobsCodec.decodeEof cobs port.buffer
        else CobsCodec.decode cobs port.buffer) =
          (.ok (some (.ok pkt), buffer) : Outcome Empty (Option (Item Empty) × Bytes))) :
      PortMoved cobs s .decode { s with port := some { port with buffer := buffer } }
        [.downPacket port.number pkt]
  | skipped {port : Port} {buffer : Bytes} (hport : s.port = some port)
      (hdecode : (if port.ended then CobsCodec.decodeEof cobs port.buffer
        else CobsCodec.decode cobs port.buffer) =
          (.ok (some (.error .cobsProtocol), buffer) :
            Outcome Empty (Option (Item Empty) × Bytes))) :
      PortMoved cobs s .decode { s with port := some { port with buffer := buffer } }
        [.protocolError port.number]
  | restarted (hstopping : s.stopping = true) :
      PortMoved cobs s .restart
        { s with tx := none, port := none, waits := [.sleep, .makeIo], stopping := false } []

section Moved

variable {cobs : CobsCrate} {s s' : PortActor} {shown : List PortSeen}

theorem decode_ne_panicked (cobs : CobsCrate) (ended : Bool) (buffer : Bytes) :
    ∃ item left, (if ended then CobsCodec.decodeEof cobs buffer
      else CobsCodec.decode cobs buffer) =
        (.ok (item, left) : Outcome Empty (Option (Item Empty) × Bytes)) := by
  have hdecode : ∀ src, ∃ item left, CobsCodec.decode cobs src =
      (.ok (item, left) : Outcome Empty (Option (Item Empty) × Bytes)) := by
    intro src
    by_cases hmem : (0 : UInt8) ∈ src
    · obtain ⟨item, left, hitem⟩ := CobsCodec.decode_of_zero_mem Empty cobs hmem
      exact ⟨_, _, hitem⟩
    · exact ⟨_, _, CobsCodec.decode_of_zero_not_mem hmem⟩
  split
  · rw [CobsCodec.decodeEof_eq]
    exact hdecode _
  · exact hdecode _

theorem PortActor.task_eq_some {poll : Port → Option (PortActor × List PortSeen)}
    (h : s.task poll = some (s', shown)) :
    ∃ port, s.port = some port ∧ poll port = some (s', shown) := by
  unfold PortActor.task at h
  split at h
  · exact Option.bind_eq_some_iff.mp h
  · cases h

theorem moved_of_finish {index : Nat} {ok : Bool} (h : s.finish index ok = some (s', shown)) :
    PortMoved cobs s (.finish index ok) s' shown := by
  unfold PortActor.finish at h
  split at h
  · cases h
  · split at h
    · cases h
    · rename_i wait hwait
      cases wait with
      | makeIo =>
          cases ok with
          | true =>
              cases h
              exact .opened hwait
          | false =>
              cases h
              exact .refused hwait
      | sleep =>
          cases h
          exact .slept hwait

theorem handle_port_cases (s : PortActor) (pkt : Bytes) :
    (∃ port, s.port = some port ∧ s.tx = some port.number ∧ port.writing = true ∧
      s.handle pkt = ({ s with port := some { port with queue := port.queue ++ [pkt] } },
        [.sent port.number pkt])) ∨
      ((∀ port, s.port = some port → s.tx = some port.number → port.writing = false) ∧
        s.handle pkt = (s, [.dropped pkt])) := by
  obtain ⟨tx, subscribed, port, waits, stopping, panicked, opened, mailbox⟩ := s
  cases tx with
  | none => exact .inr ⟨by simp, rfl⟩
  | some tx =>
      cases port with
      | none => exact .inr ⟨by simp, rfl⟩
      | some port =>
          by_cases hlive : port.number = tx ∧ port.writing = true
          · obtain ⟨rfl, hwriting⟩ := hlive
            refine .inl ⟨port, rfl, rfl, hwriting, ?_⟩
            simp only [PortActor.handle, PortActor.send, Option.bind_some]
            rw [if_pos ⟨trivial, hwriting⟩]
          · refine .inr ⟨?_, ?_⟩
            · intro other hport htx
              cases hport
              cases htx
              simpa using hlive
            · simp only [PortActor.handle, PortActor.send, Option.bind_some]
              rw [if_neg hlive]

theorem moved_of_handle (h : s.next cobs .handle = some (s', shown)) :
    PortMoved cobs s .handle s' shown := by
  simp only [PortActor.next] at h
  split at h
  · cases h
  · rename_i hready
    have hready : s.ready = true := by simpa using hready
    split at h
    · cases h
    · rename_i pkt mailbox hmail
      rcases handle_port_cases { s with mailbox := mailbox } pkt with
        ⟨port, hport, htx, hwriting, hhandle⟩ | ⟨hgone, hhandle⟩
      · rw [hhandle] at h
        cases h
        exact .sent hready hmail hport htx hwriting
      · rw [hhandle] at h
        cases h
        exact .dropped hready hmail hgone

theorem moved_of_decode {port : Port} (hport : s.port = some port)
    (h : s.decode cobs port = some (s', shown)) : PortMoved cobs s .decode s' shown := by
  obtain ⟨item, left, hdecode⟩ := decode_ne_panicked cobs port.ended port.buffer
  have hcall : (if port.ended then CobsCodec.decodeEof cobs else CobsCodec.decode cobs)
      port.buffer = (.ok (item, left) : Outcome Empty (Option (Item Empty) × Bytes)) := by
    rw [← hdecode]
    split <;> rfl
  simp only [PortActor.decode, hcall] at h
  cases item with
  | none =>
      cases h
      exact .nothing hport hdecode
  | some x =>
      cases x with
      | ok pkt =>
          cases h
          simp only [ RawIO.handleItem, RawIO.default, Bool.or_false]
          exact .downPacket hport hdecode
      | error err =>
          cases err with
          | io err => cases err
          | cobsProtocol =>
              cases h
              simp only [ RawIO.handleItem, RawIO.default, Bool.or_false]
              exact .skipped hport hdecode

theorem portMoved_of_next {a : PortAction} (h : s.next cobs a = some (s', shown)) :
    PortMoved cobs s a s' shown := by
  cases a with
  | upPacket pkt =>
      simp only [PortActor.next] at h
      split at h
      · cases h
        exact .arrived pkt
      · cases h
  | finish index ok => exact moved_of_finish h
  | handle => exact moved_of_handle h
  | encode =>
      obtain ⟨port, hport, hpoll⟩ := PortActor.task_eq_some h
      unfold PortActor.encode at hpoll
      split at hpoll
      · cases hpoll
      · split at hpoll
        · cases hpoll
        · rename_i pkt queue hqueue
          simp only [CobsCodec.encode_eq] at hpoll
          cases hpoll
          exact .encoded hport hqueue
  | write count =>
      obtain ⟨port, hport, hpoll⟩ := PortActor.task_eq_some h
      simp only [PortActor.write] at hpoll
      split at hpoll
      · cases hpoll
      · cases hpoll
        exact .wrote hport count
  | writeFailed =>
      obtain ⟨port, hport, hpoll⟩ := PortActor.task_eq_some h
      unfold PortActor.writeFailed at hpoll
      split at hpoll
      · cases hpoll
      · cases hpoll
        exact .writeFailed hport
  | read chunk =>
      obtain ⟨port, hport, hpoll⟩ := PortActor.task_eq_some h
      split at hpoll
      · cases hpoll
      · rename_i hended
        cases hpoll
        exact .read hport (by simpa using hended) chunk
  | readEnded =>
      obtain ⟨port, hport, hpoll⟩ := PortActor.task_eq_some h
      split at hpoll
      · cases hpoll
      · cases hpoll
        exact .ended hport
  | readFailed =>
      obtain ⟨port, hport, hpoll⟩ := PortActor.task_eq_some h
      split at hpoll
      · cases hpoll
      · cases hpoll
        exact .readFailed
  | decode =>
      obtain ⟨port, hport, hpoll⟩ := PortActor.task_eq_some h
      exact moved_of_decode hport hpoll
  | restart =>
      simp only [PortActor.next, PortActor.restart, Option.map_eq_some_iff] at h
      obtain ⟨again, hagain, hresult⟩ := h
      split at hagain
      · rename_i hstopping
        cases hagain
        cases hresult
        exact .restarted (by simp_all)
      · cases hagain

end Moved

end AntRelay.Runtime
