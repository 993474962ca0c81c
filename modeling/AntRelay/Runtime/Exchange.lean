import AntRelay.Codec.Channel
import AntRelay.Runtime.Station

namespace AntRelay.Runtime
open AntRelay.Base AntRelay.Codec AntRelay.Format

/-! The commander and the central station with everything between them: messages
wait for `Serial`, packets for the framed writer, bytes on the line in both
directions, and packets for `Serial` again. Neither port fails here. -/

variable {smbus : Bytes → UInt8}

inductive Fault where
  | notPacked
  | notEncoded
  | stationEnded
  | frameSkipped
  | readerPanicked
  | packetRefused
  deriving DecidableEq, Repr

structure Exchange (smbus : Bytes → UInt8) where
  link : Link (StandardCRC smbus)
  upMessages : List (Message (StandardCRC smbus))
  upPackets : List Bytes
  up : Channel UInt8
  -- Whether the station is told to ack, and whether it still reads.
  autoack : Bool
  stationReads : Bool
  down : Channel UInt8
  downPackets : List Bytes

inductive ExchangeAction (smbus : Bytes → UInt8) where
  -- Any step of the link but the arrival of a packet.
  | link (a : LinkAction (StandardCRC smbus))
  | pack
  | encode
  | flushUp (count : Nat)
  | arriveUp (count : Nat)
  | readUplink
  | toggleAutoack
  | flushDown (count : Nat)
  | arriveDown (count : Nat)
  | readDownlink
  | receive

inductive ExchangeSeen (smbus : Bytes → UInt8) where
  | link (item : LinkSeen (StandardCRC smbus))
  | unacked (packet : Bytes)
  | fault (fault : Fault)

def LinkAction.comesIn {crc : Checksum} : LinkAction crc → Bool
  | .downPacket _ => true
  | .publish _ => true
  | _ => false

def LinkSeen.issued? {crc : Checksum} : LinkSeen crc → Option (Message crc)
  | .issued msg => some msg
  | _ => none

namespace Exchange

def default : Exchange smbus where
  link := .default
  upMessages := []
  upPackets := []
  up := .empty
  autoack := true
  stationReads := true
  down := .empty
  downPackets := []

variable (cobs : CobsCrate)

/-- What the station does with the packet its reader yields. -/
def stationHandle (s : Exchange smbus) (packet : Bytes) :
    Exchange smbus × List (ExchangeSeen smbus) :=
  match Station.readUplink (StandardCRC smbus) s.autoack packet with
  | .ok none => (s, [.unacked packet])
  | .ok (some bytes) =>
      match (CobsCodec.encode cobs bytes s.down.unsent : Outcome (Error Empty) Bytes) with
      | .ok unsent => ({ s with down := { s.down with unsent := unsent } }, [])
      | _ => ({ s with stationReads := false }, [.fault .stationEnded])
  | _ => ({ s with stationReads := false }, [.fault .stationEnded])

def next (s : Exchange smbus) :
    ExchangeAction smbus → Option (Exchange smbus × List (ExchangeSeen smbus))
  | .link a =>
      if a.comesIn then none
      else
        (s.link.next a).map fun (link, shown) =>
          ({ s with
            link := link
            upMessages := s.upMessages ++ shown.filterMap LinkSeen.issued? },
            shown.map .link)
  | .pack =>
      match s.upMessages with
      | [] => none
      | msg :: upMessages =>
          match Serial.handleUpMessage msg with
          | some packed =>
              some ({ s with
                upMessages := upMessages
                upPackets := s.upPackets ++ [packed] }, [])
          | none => some ({ s with upMessages := upMessages }, [.fault .notPacked])
  | .encode =>
      match s.upPackets with
      | [] => none
      | packet :: upPackets =>
          match (CobsCodec.encode cobs packet s.up.unsent : Outcome (Error Empty) Bytes) with
          | .ok unsent =>
              some ({ s with upPackets := upPackets, up := { s.up with unsent := unsent } }, [])
          | _ => some ({ s with upPackets := upPackets }, [.fault .notEncoded])
  | .flushUp count => some ({ s with up := s.up.flush count }, [])
  | .arriveUp count => some ({ s with up := s.up.arrive count }, [])
  | .readUplink =>
      if !s.stationReads then none
      else
        match (CobsCodec.decode cobs s.up.buffer : Outcome Empty (Option (Item Empty) × Bytes)) with
        | .ok (none, buffer) => some ({ s with up := { s.up with buffer := buffer } }, [])
        | .ok (some (.ok packet), buffer) =>
            some (stationHandle cobs { s with up := { s.up with buffer := buffer } } packet)
        | _ => some ({ s with stationReads := false }, [.fault .stationEnded])
  | .toggleAutoack => some ({ s with autoack := !s.autoack }, [])
  | .flushDown count => some ({ s with down := s.down.flush count }, [])
  | .arriveDown count => some ({ s with down := s.down.arrive count }, [])
  | .readDownlink =>
      match (CobsCodec.decode cobs s.down.buffer : Outcome Empty (Option (Item Empty) × Bytes)) with
      | .ok (none, buffer) => some ({ s with down := { s.down with buffer := buffer } }, [])
      | .ok (some (.ok packet), buffer) =>
          some ({ s with
            down := { s.down with buffer := buffer }
            downPackets := s.downPackets ++ [packet] }, [])
      | .ok (some (.error _), buffer) =>
          some ({ s with down := { s.down with buffer := buffer } }, [.fault .frameSkipped])
      | _ => some (s, [.fault .readerPanicked])
  | .receive =>
      match s.downPackets with
      | [] => none
      | packet :: downPackets =>
          (s.link.next (.downPacket packet)).map fun (link, shown) =>
            ({ s with link := link, downPackets := downPackets },
              shown.map .link ++
                if (Serial.handleDownPacket packet : Option (Message (StandardCRC smbus))).isSome
                then [] else [.fault .packetRefused])

def machine (smbus : Bytes → UInt8) :
    Machine (Exchange smbus) (ExchangeAction smbus) (ExchangeSeen smbus) where
  init := default
  next := next cobs

end Exchange

/-- The messages between the commander's request and its answer, in the places
they have got to: acks published to the commander, packets for `Serial`, frames
on the line back, frames on the line out, packets for the writer.  Those that
still wait for `Serial` are in the state itself. -/
structure Flight (cobs : CobsCrate) (s : Exchange smbus) where
  replied : List (Message (StandardCRC smbus))
  arrived : List (Message (StandardCRC smbus))
  returning : List (Message (StandardCRC smbus))
  going : List (Message (StandardCRC smbus))
  sending : List (Message (StandardCRC smbus))
  inbox : s.link.inbox.map Prod.snd = replied.map fun msg => .ack (Station.ackOf msg)
  downPackets : s.downPackets = arrived.map fun msg => wire (Station.ackOf msg)
  down : s.down.Carries (CobsCodec.format cobs Empty)
    (returning.map fun msg => wire (Station.ackOf msg))
  up : s.up.Carries (CobsCodec.format cobs Empty) (going.map wire)
  upPackets : s.upPackets = sending.map wire
  fits : ∀ msg ∈ sending ++ s.upMessages, ¬ Cobs.FullGroups (wire msg)
  decoding : ∀ entry ∈ s.link.downMessages, ∃ msg, entry.2 = Station.ackOf msg
  reads : s.stationReads = true

namespace Flight

variable {cobs : CobsCrate} {s : Exchange smbus}

def all (flight : Flight cobs s) : List (Message (StandardCRC smbus)) :=
  flight.replied ++ (flight.arrived ++ (flight.returning ++
    (flight.going ++ (flight.sending ++ s.upMessages))))

def start (cobs : CobsCrate) : Flight cobs (Exchange.machine cobs smbus).init where
  replied := []
  arrived := []
  returning := []
  going := []
  sending := []
  inbox := rfl
  downPackets := rfl
  down := Channel.carries_empty _
  up := Channel.carries_empty _
  upPackets := rfl
  fits := by
    intro msg hmem
    cases hmem
  decoding := by
    intro entry hmem
    cases hmem
  reads := rfl

end Flight

def Flight.MovesTo {cobs : CobsCrate} {s : Exchange smbus} (flight : Flight cobs s)
    (s' : Exchange smbus) : Prop :=
  s'.link.commander = s.link.commander ∧ s'.link.receivers = s.link.receivers ∧
    s'.link.nextSender = s.link.nextSender ∧
    ∃ flight' : Flight cobs s', flight'.all = flight.all

inductive ExchangeMoved {cobs : CobsCrate} {s : Exchange smbus} (flight : Flight cobs s) :
    ExchangeAction smbus → Exchange smbus → List (ExchangeSeen smbus) → Prop where
  | moved {a : ExchangeAction smbus} {s' : Exchange smbus} (h : flight.MovesTo s') :
      ExchangeMoved flight a s' []
  | requested {msg : Message (StandardCRC smbus)} {awaited : Bool} {s' : Exchange smbus}
      (hlink : LinkMoved s.link (.request msg awaited) s'.link
        [.registered s.link.nextSender msg, .issued msg])
      (flight' : Flight cobs s') (hall : flight'.all = flight.all ++ [msg]) :
      ExchangeMoved flight (.link (.request msg awaited)) s'
        [.link (.registered s.link.nextSender msg), .link (.issued msg)]
  | unacked {s' : Exchange smbus} {msg : Message (StandardCRC smbus)}
      {front back : List (Message (StandardCRC smbus))} (hlink : s'.link = s.link)
      (hall : flight.all = front ++ msg :: back) (flight' : Flight cobs s')
      (hall' : flight'.all = front ++ back) :
      ExchangeMoved flight .readUplink s' [.unacked (wire msg)]
  | delivered {s' : Exchange smbus} {index : Nat} {origin : Option Nat}
      {msg : Message (StandardCRC smbus)} {front back : List (Message (StandardCRC smbus))}
      {shown : List (LinkSeen (StandardCRC smbus))}
      (hindex : s.link.inbox[index]? = some (origin, .ack (Station.ackOf msg)))
      (hlink : LinkMoved s.link (.deliver index) s'.link shown)
      (hall : flight.all = front ++ msg :: back) (flight' : Flight cobs s')
      (hall' : flight'.all = front ++ back) :
      ExchangeMoved flight (.link (.deliver index)) s' (shown.map .link)

section Steps

variable {cobs : CobsCrate} {s s' : Exchange smbus} {shown : List (ExchangeSeen smbus)}

theorem Flight.pack (flight : Flight cobs s) (h : s.next cobs .pack = some (s', shown)) :
    ExchangeMoved flight .pack s' shown := by
  simp only [Exchange.next] at h
  split at h
  · cases h
  · rename_i msg upMessages hmessages
    rw [Serial.handleUpMessage_eq] at h
    cases h
    refine .moved ⟨rfl, rfl, rfl, { flight with
      sending := flight.sending ++ [msg]
      upPackets := by simp [flight.upPackets]
      fits := by
        have hfits := flight.fits
        rwa [hmessages, List.append_cons] at hfits }, ?_⟩
    simp [Flight.all, hmessages]

theorem Flight.encode (flight : Flight cobs s) (h : s.next cobs .encode = some (s', shown)) :
    ExchangeMoved flight .encode s' shown := by
  simp only [Exchange.next] at h
  split at h
  · cases h
  · rename_i packet upPackets hpackets
    rw [CobsCodec.encode_eq] at h
    cases h
    have hsending := flight.upPackets
    rw [hpackets] at hsending
    obtain ⟨msg, sending, hsplit, rfl, hrest⟩ := List.map_eq_cons_iff.mp hsending.symm
    have hfits := flight.fits
    rw [hsplit, List.cons_append, List.forall_mem_cons] at hfits
    refine .moved ⟨rfl, rfl, rfl, { flight with
      going := flight.going ++ [msg]
      sending := sending
      up := by
        rw [List.map_append]
        exact flight.up.write hfits.1
      upPackets := hrest.symm
      fits := hfits.2 }, ?_⟩
    simp [Flight.all, hsplit]

theorem Flight.readUplink (flight : Flight cobs s)
    (h : s.next cobs .readUplink = some (s', shown)) :
    ExchangeMoved flight .readUplink s' shown := by
  simp only [Exchange.next] at h
  rw [if_neg (by simp [flight.reads])] at h
  rcases flight.up.decode with hnothing | ⟨packet, rest, left, hgoing, hitem, hrest⟩
  · have hdecode : (CobsCodec.decode cobs s.up.buffer : Outcome Empty _) =
        .ok (none, s.up.buffer) := hnothing
    rw [hdecode] at h
    cases h
    exact .moved ⟨rfl, rfl, rfl, { flight with }, rfl⟩
  · have hdecode : (CobsCodec.decode cobs s.up.buffer : Outcome Empty _) =
        .ok (some (.ok packet), left) := hitem
    obtain ⟨msg, going, hsplit, rfl, hmore⟩ := List.map_eq_cons_iff.mp hgoing
    rw [hdecode] at h
    simp only [Exchange.stationHandle, Station.readUplink_wire] at h
    rw [← hmore] at hrest
    by_cases hack : s.autoack = true
    · simp only [hack, ↓reduceIte, CobsCodec.encode_eq, Option.some.injEq, Prod.mk.injEq] at h
      obtain ⟨rfl, rfl⟩ := h
      refine .moved ⟨rfl, rfl, rfl, { flight with
        going := going
        returning := flight.returning ++ [msg]
        up := hrest
        down := by
          rw [List.map_append]
          exact flight.down.write (Station.ackOf_not_fullGroups msg) }, ?_⟩
      simp [Flight.all, hsplit]
    · simp only [hack, Bool.false_eq_true, ↓reduceIte, Option.some.injEq, Prod.mk.injEq] at h
      obtain ⟨rfl, rfl⟩ := h
      have hall : flight.all = (flight.replied ++ (flight.arrived ++ flight.returning)) ++
          msg :: (going ++ (flight.sending ++ s.upMessages)) := by
        simp [Flight.all, hsplit]
      refine .unacked rfl hall { flight with going := going, up := hrest } ?_
      simp [Flight.all]

theorem Flight.readDownlink (flight : Flight cobs s)
    (h : s.next cobs .readDownlink = some (s', shown)) :
    ExchangeMoved flight .readDownlink s' shown := by
  simp only [Exchange.next] at h
  rcases flight.down.decode with hnothing | ⟨packet, rest, left, hreturning, hitem, hrest⟩
  · have hdecode : (CobsCodec.decode cobs s.down.buffer : Outcome Empty _) =
        .ok (none, s.down.buffer) := hnothing
    rw [hdecode] at h
    cases h
    exact .moved ⟨rfl, rfl, rfl, { flight with }, rfl⟩
  · have hdecode : (CobsCodec.decode cobs s.down.buffer : Outcome Empty _) =
        .ok (some (.ok packet), left) := hitem
    obtain ⟨msg, returning, hsplit, rfl, hmore⟩ := List.map_eq_cons_iff.mp hreturning
    rw [hdecode] at h
    rw [← hmore] at hrest
    cases h
    refine .moved ⟨rfl, rfl, rfl, { flight with
      returning := returning
      arrived := flight.arrived ++ [msg]
      downPackets := by simp [flight.downPackets]
      down := hrest }, ?_⟩
    simp [Flight.all, hsplit]

theorem Flight.receive (flight : Flight cobs s) (h : s.next cobs .receive = some (s', shown)) :
    ExchangeMoved flight .receive s' shown := by
  simp only [Exchange.next] at h
  split at h
  · cases h
  · rename_i packet downPackets hpackets
    have harrived := flight.downPackets
    rw [hpackets] at harrived
    obtain ⟨msg, arrived, hsplit, rfl, hrest⟩ := List.map_eq_cons_iff.mp harrived.symm
    simp only [Link.next, Serial.handleDownPacket_wire, Station.issuesAck_ackOf, ↓reduceIte,
      Option.map_some, List.map_nil, Option.isSome_some, List.append_nil, Option.some.injEq,
      Prod.mk.injEq] at h
    obtain ⟨rfl, rfl⟩ := h
    refine .moved ⟨rfl, rfl, rfl, { flight with
      arrived := arrived
      replied := flight.replied ++ [msg]
      inbox := by simp [flight.inbox]
      downPackets := hrest.symm
      decoding := ?_ }, ?_⟩
    · intro entry hmem
      rcases List.mem_append.mp hmem with hold | hnew
      · exact flight.decoding entry hold
      · rw [List.mem_singleton.mp hnew]
        exact ⟨msg, rfl⟩
    · simp [Flight.all, hsplit]

theorem Flight.delivered (flight : Flight cobs s) {index : Nat} {origin : Option Nat}
    {delivery : Delivery (StandardCRC smbus)} (link : Link (StandardCRC smbus))
    (hindex : s.link.inbox[index]? = some (origin, delivery))
    (hinbox : link.inbox = s.link.inbox.eraseIdx index)
    (hdecoding : link.downMessages = s.link.downMessages) :
    ∃ msg front back, delivery = .ack (Station.ackOf msg) ∧ flight.all = front ++ msg :: back ∧
      ∃ flight' : Flight cobs { s with link := link }, flight'.all = front ++ back := by
  have hreplied : (flight.replied.map fun msg => Delivery.ack (Station.ackOf msg))[index]? =
      some delivery := by
    rw [← flight.inbox, List.getElem?_map, hindex]
    rfl
  rw [List.getElem?_map, Option.map_eq_some_iff] at hreplied
  obtain ⟨msg, hmsg, rfl⟩ := hreplied
  obtain ⟨hlt, hget⟩ := List.getElem?_eq_some_iff.mp hmsg
  have hsplit : flight.replied =
      flight.replied.take index ++ msg :: flight.replied.drop (index + 1) := by
    rw [← hget, List.getElem_cons_drop, List.take_append_drop]
  refine ⟨msg, flight.replied.take index, flight.replied.drop (index + 1) ++ (flight.arrived ++
    (flight.returning ++ (flight.going ++ (flight.sending ++ s.upMessages)))), rfl, ?_, ?_⟩
  · rw [Flight.all]
    nth_rewrite 1 [hsplit]
    simp
  · refine ⟨{ flight with
      replied := flight.replied.eraseIdx index
      inbox := ?_
      decoding := ?_ }, ?_⟩
    · rw [hinbox, List.eraseIdx_eq_take_drop_succ, List.eraseIdx_eq_take_drop_succ,
        List.map_append, List.map_append, List.map_take, List.map_drop, List.map_take,
        List.map_drop, flight.inbox]
    · rw [hdecoding]
      exact flight.decoding
    · simp [Flight.all, List.eraseIdx_eq_take_drop_succ]

theorem Flight.link (flight : Flight cobs s) {a : LinkAction (StandardCRC smbus)}
    (hfits : ∀ msg awaited, a = .request msg awaited → ¬ Cobs.FullGroups (wire msg))
    (hmoved : ∀ link out, s.link.next a = some (link, out) → LinkMoved s.link a link out)
    (h : s.next cobs (.link a) = some (s', shown)) :
    ExchangeMoved flight (.link a) s' shown := by
  simp only [Exchange.next] at h
  split at h
  · cases h
  · rename_i hout
    obtain ⟨⟨link, out⟩, hnext, heq⟩ := Option.map_eq_some_iff.mp h
    cases heq
    have hlink := hmoved link out hnext
    cases hlink with
    | requested msg awaited =>
        refine .requested (.requested msg awaited) { flight with
          fits := ?_ } ?_
        · rw [← List.append_assoc, List.forall_mem_append]
          refine ⟨flight.fits, ?_⟩
          simp only [List.filterMap_cons, LinkSeen.issued?, List.filterMap_nil,
            List.forall_mem_singleton]
          exact hfits msg awaited rfl
        · simp [Flight.all, List.filterMap_cons, LinkSeen.issued?]
    | timedOut tx =>
        refine .moved ⟨rfl, rfl, rfl, { flight with fits := by simpa using flight.fits }, ?_⟩
        simp [Flight.all]
    | collected =>
        refine .moved ⟨rfl, rfl, rfl, { flight with fits := by simpa using flight.fits }, ?_⟩
        simp [Flight.all]
    | refused => exact absurd rfl hout
    | received => exact absurd rfl hout
    | published => exact absurd rfl hout
    | @decoded index packet reply hindex =>
        obtain ⟨msg, hreply⟩ := flight.decoding _ (List.mem_of_getElem? hindex)
        have hnone : AntDecode.handle reply = none := by
          rw [show reply = _ from hreply]
          exact Station.antDecode_ackOf msg
        refine .moved ⟨rfl, rfl, rfl, { flight with
          inbox := by simp [hnone, flight.inbox]
          fits := by simpa using flight.fits
          decoding := ?_ }, ?_⟩
        · intro entry hmem
          exact flight.decoding entry (List.mem_of_mem_eraseIdx hmem)
        · simp [Flight.all]
    | ignored hindex hnone =>
        obtain ⟨msg, front, back, rfl, hall, flight', hall'⟩ :=
          flight.delivered { s.link with inbox := _ } hindex rfl rfl
        simp only [List.filterMap_cons, LinkSeen.issued?, List.filterMap_nil, List.append_nil]
        exact .delivered hindex (.ignored hindex hnone) hall flight' hall'
    | @answered index origin delivery id tx hindex hanswers hlookup =>
        obtain ⟨msg, front, back, rfl, hall, flight', hall'⟩ :=
          flight.delivered { s.link with
            commander := ⟨s.link.commander.requests.erase id⟩
            receivers := s.link.receivers.erase tx
            requesters := s.link.requesters.erase tx
            inbox := _ } hindex rfl rfl
        simp only [List.filterMap_cons, LinkSeen.issued?, List.filterMap_nil, List.append_nil]
        exact .delivered hindex (.answered hindex hanswers hlookup) hall flight' hall'

theorem exchangeMoved_of_next (flight : Flight cobs s) {a : ExchangeAction smbus}
    (hfits : ∀ msg awaited, a = .link (.request msg awaited) → ¬ Cobs.FullGroups (wire msg))
    (hmoved : ∀ b link out, a = .link b → s.link.next b = some (link, out) →
      LinkMoved s.link b link out)
    (h : s.next cobs a = some (s', shown)) : ExchangeMoved flight a s' shown := by
  cases a with
  | link b =>
      refine flight.link ?_ (fun link out => hmoved b link out rfl) h
      rintro msg awaited rfl
      exact hfits msg awaited rfl
  | pack => exact flight.pack h
  | encode => exact flight.encode h
  | flushUp count =>
      cases h
      exact .moved ⟨rfl, rfl, rfl, { flight with up := flight.up.flush count }, rfl⟩
  | arriveUp count =>
      cases h
      exact .moved ⟨rfl, rfl, rfl, { flight with up := flight.up.arrive count }, rfl⟩
  | readUplink => exact flight.readUplink h
  | toggleAutoack =>
      cases h
      exact .moved ⟨rfl, rfl, rfl, { flight with }, rfl⟩
  | flushDown count =>
      cases h
      exact .moved ⟨rfl, rfl, rfl, { flight with down := flight.down.flush count }, rfl⟩
  | arriveDown count =>
      cases h
      exact .moved ⟨rfl, rfl, rfl, { flight with down := flight.down.arrive count }, rfl⟩
  | readDownlink => exact flight.readDownlink h
  | receive => exact flight.receive h

end Steps

end AntRelay.Runtime
