import AntRelay.Runtime.Commander
import AntRelay.Runtime.Invariant

namespace AntRelay.Runtime
open AntRelay.Base AntRelay.Format

/-! What the state machine sends becomes a request to the commander. A command
of its own waits for the clock and for the sequence counter first; a ground
command is passed on as it came. A packet from the serial port that parses
reaches the state machine as well. -/

variable {crc : Checksum}

/-- Where a request's id comes from: the ground's header, or what `params`
returned here, from a clock reading and the number of sequence numbers drawn
before. -/
inductive Origin where
  | ground (header : Header)
  | frontend (reading : Int) (call : Nat)
  deriving DecidableEq, Repr

def SeqService.handle (calls : Nat) : UInt8 :=
  UInt8.ofNat calls

def params (reading : Int) (call : Nat) : Params where
  time := .ofMillis reading
  seq := SeqService.handle call

def Origin.id : Origin → UniqueId
  | .ground header => header.uniqueId
  | .frontend reading call => ⟨(params reading call).time, (params reading call).seq⟩

inductive Pending (crc : Checksum) where
  -- `params` is awaited; the clock and the counter answer in any order.
  | draft (dest : Destination) (event : Event) (reading : Option Int) (call : Option Nat)
  | request (origin : Origin) (msg : Message crc) (awaited : Bool)

/-- The pings are sent by `do_send`, every other command by `send`. -/
def awaits (event : Event) : Bool :=
  event != .csPing && event != .antPing

namespace Pending

def ofSeen : Seen crc → Option (Pending crc)
  | .handled _ => none
  | .sent (.command dest event) => some (.draft dest event none none)
  | .sent (.forward msg) => some (.request (.ground msg.val.header.header) msg false)

/-- A future that awaits a reply goes when its task is cancelled or its timeout
passes; the actor's mailbox skips the request of one that is gone. -/
def cancellable : Pending crc → Bool
  | .draft _ event _ _ => awaits event
  | .request _ _ awaited => awaited

end Pending

def Task.retries : Task → Option (Destination × Event)
  | .garageOpenSend => some (.centralStation, .csGarageOpen)
  | .antStopSend => some (.ant, .antStop)
  | _ => none

def Action.isArriveDown : Action crc → Bool
  | .arriveDown _ => true
  | _ => false

def LinkAction.isArrival : LinkAction crc → Bool
  | .request _ _ => true
  | .downPacket _ => true
  | _ => false

structure Relay (crc : Checksum) where
  system : System crc
  -- How many sequence numbers have been drawn.
  calls : Nat
  pending : List (Pending crc)
  link : Link crc

inductive RelayAction (crc : Checksum) where
  -- Any step of the state machine but the arrival of a packet's message.
  | system (a : Action crc)
  | serial (pkt : Bytes)
  | retry (handle : SpawnHandle)
  | readClock (index : Nat) (reading : Int)
  | takeSeq (index : Nat)
  | compose (index : Nat)
  | submit (index : Nat)
  | cancel (index : Nat)
  | link (a : LinkAction crc)

inductive RelaySeen (crc : Checksum) where
  | system (item : Seen crc)
  | requested (tx : Sender) (origin : Origin)
  | link (item : LinkSeen crc)

namespace Relay

def default : Relay crc where
  system := ⟨.default, .default⟩
  calls := 0
  pending := []
  link := .default

def next (s : Relay crc) : RelayAction crc → Option (Relay crc × List (RelaySeen crc))
  | .system a =>
      if a.isArriveDown then none
      else
        (s.system.next a).map fun (system, shown) =>
          ({ s with system := system, pending := s.pending ++ shown.filterMap Pending.ofSeen },
            shown.map .system)
  | .serial pkt =>
      (s.link.next (.downPacket pkt)).bind fun (link, shown) =>
        match (Serial.handleDownPacket pkt : Option (Message crc)) with
        | none => some ({ s with link := link }, shown.map .link)
        | some msg =>
            (s.system.next (.arriveDown msg)).map fun (system, more) =>
              ({ s with link := link, system := system }, shown.map .link ++ more.map .system)
  | .retry handle =>
      ((s.system.ctx.tasks.lookup handle).bind Task.retries).map fun (dest, event) =>
        ({ s with pending := s.pending ++ [.draft dest event none none] }, [])
  | .readClock index reading =>
      match s.pending[index]? with
      | some (.draft dest event none call) =>
          some ({ s with pending := s.pending.set index (.draft dest event (some reading) call) },
            [])
      | _ => none
  | .takeSeq index =>
      match s.pending[index]? with
      | some (.draft dest event reading none) =>
          some ({ s with
            pending := s.pending.set index (.draft dest event reading (some s.calls))
            calls := s.calls + 1 }, [])
      | _ => none
  | .compose index =>
      match s.pending[index]? with
      | some (.draft dest event (some reading) (some call)) =>
          let msg := command crc (params reading call) dest event
          some ({ s with
            pending := s.pending.set index
              (.request (.frontend reading call) msg (awaits event)) }, [])
      | _ => none
  | .submit index =>
      match s.pending[index]? with
      | some (.request origin msg awaited) =>
          (s.link.next (.request msg awaited)).map fun (link, shown) =>
            ({ s with pending := s.pending.eraseIdx index, link := link },
              .requested s.link.nextSender origin :: shown.map .link)
      | _ => none
  | .cancel index =>
      match s.pending[index]? with
      | some entry =>
          if entry.cancellable then some ({ s with pending := s.pending.eraseIdx index }, [])
          else none
      | none => none
  | .link a =>
      if a.isArrival then none
      else (s.link.next a).map fun (link, shown) => ({ s with link := link }, shown.map .link)

def machine (crc : Checksum) : Machine (Relay crc) (RelayAction crc) (RelaySeen crc) where
  init := default
  next := next

end Relay

inductive RelayMoved (s : Relay crc) :
    RelayAction crc → Relay crc → List (RelaySeen crc) → Prop where
  | system {a : Action crc} {system : System crc} {shown : List (Seen crc)}
      (h : s.system.next a = some (system, shown)) :
      RelayMoved s (.system a)
        { s with system := system, pending := s.pending ++ shown.filterMap Pending.ofSeen }
        (shown.map .system)
  | refused {pkt : Bytes} {link : Link crc} {shown : List (LinkSeen crc)}
      (h : s.link.next (.downPacket pkt) = some (link, shown))
      (hpkt : (Serial.handleDownPacket pkt : Option (Message crc)) = none) :
      RelayMoved s (.serial pkt) { s with link := link } (shown.map .link)
  | received {pkt : Bytes} {link : Link crc} {shown : List (LinkSeen crc)} {msg : Message crc}
      {system : System crc} {more : List (Seen crc)}
      (h : s.link.next (.downPacket pkt) = some (link, shown))
      (hpkt : Serial.handleDownPacket pkt = some msg)
      (hsystem : s.system.next (.arriveDown msg) = some (system, more)) :
      RelayMoved s (.serial pkt) { s with link := link, system := system }
        (shown.map .link ++ more.map .system)
  | retried {handle : SpawnHandle} {dest : Destination} {event : Event} :
      RelayMoved s (.retry handle)
        { s with pending := s.pending ++ [.draft dest event none none] } []
  | clockRead {index : Nat} {reading : Int} {dest : Destination} {event : Event}
      {call : Option Nat} (h : s.pending[index]? = some (.draft dest event none call)) :
      RelayMoved s (.readClock index reading)
        { s with pending := s.pending.set index (.draft dest event (some reading) call) } []
  | seqTaken {index : Nat} {dest : Destination} {event : Event} {reading : Option Int}
      (h : s.pending[index]? = some (.draft dest event reading none)) :
      RelayMoved s (.takeSeq index)
        { s with
          pending := s.pending.set index (.draft dest event reading (some s.calls))
          calls := s.calls + 1 } []
  | composed {index : Nat} {dest : Destination} {event : Event} {reading : Int} {call : Nat}
      (h : s.pending[index]? = some (.draft dest event (some reading) (some call))) :
      RelayMoved s (.compose index)
        { s with
          pending := s.pending.set index (.request (.frontend reading call)
            (command crc (params reading call) dest event) (awaits event)) } []
  | submitted {index : Nat} {origin : Origin} {msg : Message crc} {awaited : Bool}
      {link : Link crc} {shown : List (LinkSeen crc)}
      (h : s.pending[index]? = some (.request origin msg awaited))
      (hlink : s.link.next (.request msg awaited) = some (link, shown)) :
      RelayMoved s (.submit index)
        { s with pending := s.pending.eraseIdx index, link := link }
        (.requested s.link.nextSender origin :: shown.map .link)
  | cancelled {index : Nat} :
      RelayMoved s (.cancel index) { s with pending := s.pending.eraseIdx index } []
  | link {a : LinkAction crc} {link : Link crc} {shown : List (LinkSeen crc)}
      (harrival : a.isArrival = false) (h : s.link.next a = some (link, shown)) :
      RelayMoved s (.link a) { s with link := link } (shown.map .link)

theorem relayMoved_of_next {s s' : Relay crc} {a : RelayAction crc} {shown : List (RelaySeen crc)}
    (h : s.next a = some (s', shown)) : RelayMoved s a s' shown := by
  cases a with
  | system a =>
      simp only [Relay.next] at h
      split at h
      · cases h
      · obtain ⟨⟨system, out⟩, hsystem, heq⟩ := Option.map_eq_some_iff.mp h
        cases heq
        exact .system hsystem
  | serial pkt =>
      obtain ⟨⟨link, out⟩, hlink, h⟩ := Option.bind_eq_some_iff.mp h
      simp only at h
      split at h
      · rename_i hpkt
        cases h
        exact .refused hlink hpkt
      · rename_i msg hpkt
        obtain ⟨⟨system, more⟩, hsystem, heq⟩ := Option.map_eq_some_iff.mp h
        cases heq
        exact .received hlink hpkt hsystem
  | retry handle =>
      obtain ⟨⟨dest, event⟩, _, heq⟩ := Option.map_eq_some_iff.mp h
      cases heq
      exact .retried
  | readClock index reading =>
      simp only [Relay.next] at h
      split at h
      · rename_i hpending
        cases h
        exact .clockRead hpending
      · cases h
  | takeSeq index =>
      simp only [Relay.next] at h
      split at h
      · rename_i hpending
        cases h
        exact .seqTaken hpending
      · cases h
  | compose index =>
      simp only [Relay.next] at h
      split at h
      · rename_i hpending
        cases h
        exact .composed hpending
      · cases h
  | submit index =>
      simp only [Relay.next] at h
      split at h
      · rename_i hpending
        obtain ⟨⟨link, out⟩, hlink, heq⟩ := Option.map_eq_some_iff.mp h
        cases heq
        exact .submitted hpending hlink
      · cases h
  | cancel index =>
      simp only [Relay.next] at h
      split at h
      · split at h
        · cases h
          exact .cancelled
        · cases h
      · cases h
  | link a =>
      simp only [Relay.next] at h
      split at h
      · cases h
      · rename_i harrival
        obtain ⟨⟨link, out⟩, hlink, heq⟩ := Option.map_eq_some_iff.mp h
        cases heq
        exact .link (by simpa using harrival) hlink

namespace RelaySeen

def link? : RelaySeen crc → Option (LinkSeen crc)
  | .link item => some item
  | _ => none

def system? : RelaySeen crc → Option (Seen crc)
  | .system item => some item
  | _ => none

theorem filterMap_link?_link (items : List (LinkSeen crc)) :
    (items.map RelaySeen.link).filterMap link? = items := by
  rw [List.filterMap_map]
  exact List.filterMap_some

theorem filterMap_link?_system (items : List (Seen crc)) :
    (items.map RelaySeen.system).filterMap link? = [] := by
  rw [List.filterMap_map]
  exact List.filterMap_eq_nil_iff.mpr fun _ _ => rfl

theorem filterMap_system?_system (items : List (Seen crc)) :
    (items.map RelaySeen.system).filterMap system? = items := by
  rw [List.filterMap_map]
  exact List.filterMap_some

theorem filterMap_system?_link (items : List (LinkSeen crc)) :
    (items.map RelaySeen.link).filterMap system? = [] := by
  rw [List.filterMap_map]
  exact List.filterMap_eq_nil_iff.mpr fun _ _ => rfl

theorem mem_filterMap_link? {item : LinkSeen crc} {seen : List (RelaySeen crc)} :
    item ∈ seen.filterMap link? ↔ .link item ∈ seen := by
  rw [List.mem_filterMap]
  constructor
  · rintro ⟨shown, hmem, hitem⟩
    cases shown with
    | link item' =>
        cases hitem
        exact hmem
    | system item' => cases hitem
    | requested tx origin => cases hitem
  · intro hmem
    exact ⟨.link item, hmem, rfl⟩

end RelaySeen

namespace Relay

def toLink : Machine.Projection (Relay.machine crc) (Link.machine crc) where
  state := Relay.link
  action := fun s a =>
    match a with
    | .serial pkt => some (.downPacket pkt)
    | .submit index =>
        match s.pending[index]? with
        | some (.request _ msg awaited) => some (.request msg awaited)
        | _ => none
    | .link a => some a
    | _ => none
  shown := RelaySeen.link?
  init := rfl
  step := by
    intro s a s' out b hnext haction
    cases relayMoved_of_next hnext with
    | refused h _ =>
        cases haction
        rw [RelaySeen.filterMap_link?_link]
        exact h
    | received h _ _ =>
        cases haction
        rw [List.filterMap_append, RelaySeen.filterMap_link?_link,
          RelaySeen.filterMap_link?_system, List.append_nil]
        exact h
    | submitted h hlink =>
        simp only [h] at haction
        cases haction
        rw [List.filterMap_cons_none rfl, RelaySeen.filterMap_link?_link]
        exact hlink
    | link _ h =>
        cases haction
        rw [RelaySeen.filterMap_link?_link]
        exact h
    | _ => cases haction
  stutter := by
    intro s a s' out hnext haction
    cases relayMoved_of_next hnext with
    | refused h _ => cases haction
    | received h _ _ => cases haction
    | submitted h hlink =>
        simp only [h] at haction
        cases haction
    | link _ h => cases haction
    | system h => exact ⟨rfl, RelaySeen.filterMap_link?_system _⟩
    | _ => exact ⟨rfl, rfl⟩

def toSystem : Machine.Projection (Relay.machine crc) (System.machine crc) where
  state := Relay.system
  action := fun _ a =>
    match a with
    | .system a => some a
    | .serial pkt => (Serial.handleDownPacket pkt).map .arriveDown
    | _ => none
  shown := RelaySeen.system?
  init := rfl
  step := by
    intro s a s' out b hnext haction
    cases relayMoved_of_next hnext with
    | system h =>
        cases haction
        rw [RelaySeen.filterMap_system?_system]
        exact h
    | received _ hpkt h =>
        simp only [hpkt] at haction
        cases haction
        rw [List.filterMap_append, RelaySeen.filterMap_system?_system,
          RelaySeen.filterMap_system?_link, List.nil_append]
        exact h
    | refused _ hpkt =>
        simp only [hpkt] at haction
        cases haction
    | _ => cases haction
  stutter := by
    intro s a s' out hnext haction
    cases relayMoved_of_next hnext with
    | system h => cases haction
    | received _ hpkt _ =>
        simp only [hpkt] at haction
        cases haction
    | refused _ hpkt => exact ⟨rfl, RelaySeen.filterMap_system?_link _⟩
    | submitted h hlink =>
        exact ⟨rfl, RelaySeen.filterMap_system?_link _⟩
    | link _ h => exact ⟨rfl, RelaySeen.filterMap_system?_link _⟩
    | _ => exact ⟨rfl, rfl⟩

theorem sound_of_run {visits : List (Visit (Relay crc) (RelayAction crc) (RelaySeen crc))}
    {s : Relay crc} {seen : List (RelaySeen crc)} (hrun : (Relay.machine crc).Run visits s seen) :
    Sound s.system :=
  (AntRelay.Runtime.sound_of_run (toSystem.run hrun)).1

end Relay

end AntRelay.Runtime
