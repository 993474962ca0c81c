import AntRelay.Base.Drain
import AntRelay.Runtime.Acks
import AntRelay.Runtime.PacketReplies

namespace AntRelay.Runtime
open AntRelay.Base AntRelay.Codec AntRelay.Format

variable {smbus : Bytes → UInt8} {cobs : CobsCrate}

def Drained (cobs : CobsCrate) (c : Channel UInt8) : Prop :=
  c.unsent = [] ∧ c.wire = [] ∧
    (CobsCodec.decode cobs c.buffer : Outcome Empty _) = .ok (none, c.buffer)

structure Exchange.Quiet (cobs : CobsCrate) (s : Exchange smbus) : Prop where
  upMessages : s.upMessages = []
  upPackets : s.upPackets = []
  up : Drained cobs s.up
  down : Drained cobs s.down
  downPackets : s.downPackets = []
  inbox : s.link.inbox = []

section Quiet

variable {s : Exchange smbus} {seen : List (ExchangeSeen smbus)}

theorem Drained.eq_nil {c : Channel UInt8} (h : Drained cobs c) {items : List Bytes}
    (hcarries : c.Carries (CobsCodec.format cobs Empty) items) : items = [] :=
  hcarries.eq_nil h.2.1 h.1 h.2.2

theorem Flight.eq_nil_of_quiet (flight : Flight cobs s) (h : s.Quiet cobs) : flight.all = [] := by
  have hreplied := flight.inbox
  rw [h.inbox, List.map_nil] at hreplied
  have harrived := flight.downPackets
  rw [h.downPackets] at harrived
  have hsending := flight.upPackets
  rw [h.upPackets] at hsending
  simp only [Flight.all, List.append_eq_nil_iff]
  exact ⟨List.map_eq_nil_iff.mp hreplied.symm, List.map_eq_nil_iff.mp harrived.symm,
    List.map_eq_nil_iff.mp (h.down.eq_nil flight.down),
    List.map_eq_nil_iff.mp (h.up.eq_nil flight.up), List.map_eq_nil_iff.mp hsending.symm,
    h.upMessages⟩

theorem Answering.answered_of_quiet (h : Answering cobs s seen) (hquiet : s.Quiet cobs)
    {tx : Sender} {msg : Message (StandardCRC smbus)}
    (hmem : .registered tx msg ∈ linkSeen seen) :
    (∃ origin, .answered origin tx (.message (Station.ackOf msg)) ∈ linkSeen seen) ∨
      .unacked (wire msg) ∈ seen ∨ msg.val.header.header.ty.event = .csRelay := by
  obtain ⟨flight, haccounted⟩ := h.flight
  by_cases hopen : ∃ origin resp, .answered origin tx resp ∈ linkSeen seen
  · left
    obtain ⟨origin, resp, hanswered⟩ := hopen
    obtain ⟨own, hown, rfl⟩ := h.exact origin tx resp hanswered
    rw [h.kept.single tx msg own hmem hown]
    exact ⟨origin, hanswered⟩
  · right
    simp only [not_exists] at hopen
    rcases haccounted.complete tx msg ⟨hmem, hopen⟩ with hflight | hrest
    · rw [flight.eq_nil_of_quiet hquiet] at hflight
      cases hflight
    · exact hrest

end Quiet

def ExchangeAction.onTheWay : ExchangeAction smbus → Prop
  | .link (.deliver _) => True
  | .link _ => False
  | .toggleAutoack => False
  | _ => True

def frames (c : Channel UInt8) : Nat :=
  (c.buffer ++ (c.wire ++ c.unsent)).countP (· == 0)

/-- Each place a message passes counts more than the next one. -/
def Exchange.work (s : Exchange smbus) : Nat :=
  10 * s.upMessages.length + 9 * s.upPackets.length + (6 * frames s.up + s.up.distance) +
    (3 * frames s.down + s.down.distance) + 2 * s.downPackets.length + s.link.inbox.length

section Work

variable {s : Exchange smbus}

theorem countP_frame {item : Bytes} (h : ¬ Cobs.FullGroups item) :
    (CobsCodec.frame cobs Empty item).countP (· == 0) = 1 := by
  obtain ⟨body, hframe, hzero, _⟩ := CobsCodec.frame_of_fits h
  have hbody : body.countP (· == 0) = 0 := by
    rw [List.countP_eq_zero]
    intro b hmem hb
    rw [eq_of_beq hb] at hmem
    exact hzero hmem
  rw [hframe, List.countP_append, hbody]
  rfl

theorem frames_eq {c : Channel UInt8} {items : List Bytes}
    (h : c.Carries (CobsCodec.format cobs Empty) items) : frames c = items.length :=
  h.countP (· == 0) countP_frame

theorem frames_flush (c : Channel UInt8) (count : Nat) : frames (c.flush count) = frames c := by
  unfold frames Channel.flush
  rw [List.append_assoc, List.take_append_drop]

theorem frames_arrive (c : Channel UInt8) (count : Nat) : frames (c.arrive count) = frames c := by
  unfold frames Channel.arrive
  rw [List.append_assoc, ← List.append_assoc (c.wire.take count), List.take_append_drop]

theorem frames_write (c : Channel UInt8) {item : Bytes} (h : ¬ Cobs.FullGroups item) :
    frames { c with unsent := c.unsent ++ CobsCodec.frame cobs Empty item } = frames c + 1 := by
  have hone := @countP_frame cobs item h
  simp only [frames, List.countP_append, hone]
  omega

def Lessens (cobs : CobsCrate) (s : Exchange smbus) : Prop :=
  ∃ a s' shown, ExchangeAction.onTheWay a ∧ s.next cobs a = some (s', shown) ∧
    s'.work < s.work ∧ s'.autoack = s.autoack ∧
    (s.autoack = true → ∀ packet, .unacked packet ∉ shown)

theorem lessens_pack (h : s.upMessages ≠ []) : Lessens cobs s := by
  obtain ⟨msg, rest, hmessages⟩ := List.exists_cons_of_ne_nil h
  have hnext : s.next cobs .pack = some
      ({ s with upMessages := rest, upPackets := s.upPackets ++ [wire msg] }, []) := by
    simp only [Exchange.next, hmessages, Serial.handleUpMessage_eq]
  refine ⟨.pack, _, _, trivial, hnext, ?_, rfl, by simp⟩
  simp only [Exchange.work, hmessages, List.length_cons, List.length_append, List.length_nil]
  omega

theorem lessens_encode (flight : Flight cobs s) (h : s.upPackets ≠ []) : Lessens cobs s := by
  obtain ⟨packet, rest, hpackets⟩ := List.exists_cons_of_ne_nil h
  have hfits : ¬ Cobs.FullGroups packet := by
    have hmem : packet ∈ s.upPackets := by simp [hpackets]
    rw [flight.upPackets] at hmem
    obtain ⟨msg, hmsg, rfl⟩ := List.mem_map.mp hmem
    exact flight.fits msg (List.mem_append_left _ hmsg)
  have hnext : s.next cobs .encode = some
      ({ s with
        upPackets := rest
        up := { s.up with unsent := s.up.unsent ++ CobsCodec.frame cobs Empty packet } }, []) := by
    simp only [Exchange.next, hpackets, CobsCodec.encode_eq]
  refine ⟨.encode, _, _, trivial, hnext, ?_, rfl, by simp⟩
  have hdistance := s.up.distance_write (CobsCodec.frame cobs Empty packet)
  simp only [Exchange.work, hpackets, List.length_cons, frames_write _ hfits]
  omega

theorem lessens_flushUp (h : s.up.unsent ≠ []) : Lessens cobs s := by
  refine ⟨.flushUp s.up.unsent.length, _, _, trivial, rfl, ?_, rfl, by simp⟩
  have hdistance := Channel.distance_flush h
  simp only [Exchange.work, frames_flush]
  omega

theorem lessens_arriveUp (h : s.up.wire ≠ []) : Lessens cobs s := by
  refine ⟨.arriveUp s.up.wire.length, _, _, trivial, rfl, ?_, rfl, by simp⟩
  have hdistance := Channel.distance_arrive h
  simp only [Exchange.work, frames_arrive]
  omega

theorem lessens_flushDown (h : s.down.unsent ≠ []) : Lessens cobs s := by
  refine ⟨.flushDown s.down.unsent.length, _, _, trivial, rfl, ?_, rfl, by simp⟩
  have hdistance := Channel.distance_flush h
  simp only [Exchange.work, frames_flush]
  omega

theorem lessens_arriveDown (h : s.down.wire ≠ []) : Lessens cobs s := by
  refine ⟨.arriveDown s.down.wire.length, _, _, trivial, rfl, ?_, rfl, by simp⟩
  have hdistance := Channel.distance_arrive h
  simp only [Exchange.work, frames_arrive]
  omega

theorem reads_item {c : Channel UInt8} {items : List Bytes}
    (h : c.Carries (CobsCodec.format cobs Empty) items)
    (hmore : (CobsCodec.decode cobs c.buffer : Outcome Empty _) ≠ .ok (none, c.buffer)) :
    ∃ packet left, packet ∈ items ∧
      (CobsCodec.decode cobs c.buffer : Outcome Empty _) = .ok (some (.ok packet), left) ∧
      frames { c with buffer := left } + 1 = frames c := by
  rcases h.decode with hnothing | ⟨packet, rest, left, rfl, hitem, hrest⟩
  · exact absurd hnothing hmore
  · refine ⟨packet, left, List.mem_cons_self, hitem, ?_⟩
    rw [frames_eq h, frames_eq hrest, List.length_cons]

theorem lessens_readUplink (flight : Flight cobs s)
    (h : (CobsCodec.decode cobs s.up.buffer : Outcome Empty _) ≠ .ok (none, s.up.buffer)) :
    Lessens cobs s := by
  obtain ⟨packet, left, hmem, hdecode, hframes⟩ := reads_item flight.up h
  obtain ⟨msg, _, rfl⟩ := List.mem_map.mp hmem
  have hsame : Channel.distance { s.up with buffer := left } = s.up.distance := rfl
  by_cases hack : s.autoack = true
  · have hnext : s.next cobs .readUplink = some
        ({ s with
          up := { s.up with buffer := left }
          down := { s.down with
            unsent := s.down.unsent ++ CobsCodec.frame cobs Empty (wire (Station.ackOf msg)) } },
          []) := by
      simp only [Exchange.next, flight.reads, Bool.not_true, Bool.false_eq_true, ↓reduceIte,
        hdecode, Exchange.stationHandle, Station.readUplink_wire, hack, CobsCodec.encode_eq]
    refine ⟨.readUplink, _, _, trivial, hnext, ?_, rfl, by simp [hack]⟩
    have hdistance := s.down.distance_write
      (CobsCodec.frame cobs Empty (wire (Station.ackOf msg)))
    simp only [Exchange.work, frames_write _ (Station.ackOf_not_fullGroups msg), hsame]
    omega
  · have hnext : s.next cobs .readUplink = some
        ({ s with up := { s.up with buffer := left } }, [.unacked (wire msg)]) := by
      simp only [Exchange.next, flight.reads, Bool.not_true, Bool.false_eq_true, ↓reduceIte,
        hdecode, Exchange.stationHandle, Station.readUplink_wire, hack]
    refine ⟨.readUplink, _, _, trivial, hnext, ?_, rfl, by simp [hack]⟩
    simp only [Exchange.work, hsame]
    omega

theorem lessens_readDownlink (flight : Flight cobs s)
    (h : (CobsCodec.decode cobs s.down.buffer : Outcome Empty _) ≠ .ok (none, s.down.buffer)) :
    Lessens cobs s := by
  obtain ⟨packet, left, _, hdecode, hframes⟩ := reads_item flight.down h
  have hnext : s.next cobs .readDownlink = some
      ({ s with
        down := { s.down with buffer := left }
        downPackets := s.downPackets ++ [packet] }, []) := by
    simp only [Exchange.next, hdecode]
  have hsame : Channel.distance { s.down with buffer := left } = s.down.distance := rfl
  refine ⟨.readDownlink, _, _, trivial, hnext, ?_, rfl, by simp⟩
  simp only [Exchange.work, List.length_append, List.length_singleton, hsame]
  omega

theorem lessens_receive (flight : Flight cobs s) (h : s.downPackets ≠ []) : Lessens cobs s := by
  obtain ⟨packet, rest, hpackets⟩ := List.exists_cons_of_ne_nil h
  have harrived := flight.downPackets
  rw [hpackets] at harrived
  obtain ⟨msg, _, _, rfl, _⟩ := List.map_eq_cons_iff.mp harrived.symm
  have hnext : ∃ link shown, s.next cobs .receive = some
      ({ s with link := link, downPackets := rest }, shown) ∧
      link.inbox.length = s.link.inbox.length + 1 ∧ ∀ packet, .unacked packet ∉ shown := by
    simp only [Exchange.next, hpackets, Link.next, Serial.handleDownPacket_wire,
      Station.issuesAck_ackOf, ↓reduceIte, Option.map_some]
    exact ⟨_, _, rfl, by simp, by simp⟩
  obtain ⟨link, shown, hnext, hinbox, hunacked⟩ := hnext
  refine ⟨.receive, _, _, trivial, hnext, ?_, rfl, fun _ => hunacked⟩
  simp only [Exchange.work, hpackets, List.length_cons, hinbox]
  omega

theorem lessens_deliver (hmoved : ∀ link out, s.link.next (.deliver 0) = some (link, out) →
    LinkMoved s.link (.deliver 0) link out) (h : s.link.inbox ≠ []) : Lessens cobs s := by
  obtain ⟨⟨origin, delivery⟩, rest, hinbox⟩ := List.exists_cons_of_ne_nil h
  have hindex : s.link.inbox[0]? = some (origin, delivery) := by
    rw [hinbox]
    rfl
  have hdelivered : ∃ link out, s.link.next (.deliver 0) = some (link, out) := by
    simp only [Link.next, hindex]
    exact ⟨_, _, rfl⟩
  obtain ⟨link, out, hlink⟩ := hdelivered
  have hnext : s.next cobs (.link (.deliver 0)) = some
      ({ s with
        link := link
        upMessages := s.upMessages ++ out.filterMap LinkSeen.issued? }, out.map .link) := by
    simp only [Exchange.next, LinkAction.comesIn, Bool.false_eq_true, ↓reduceIte, hlink,
      Option.map_some]
  refine ⟨.link (.deliver 0), _, _, trivial, hnext, ?_, rfl, by simp⟩
  have hless : link.inbox.length < s.link.inbox.length ∧
      out.filterMap LinkSeen.issued? = [] := by
    cases hmoved link out hlink with
    | ignored hindex' => exact ⟨by simp [hinbox], rfl⟩
    | answered hindex' => exact ⟨by simp [hinbox], rfl⟩
  simp only [Exchange.work, hless.2, List.append_nil]
  omega

/-- As long as it is not quiet, a step makes the work less. -/
theorem Answering.lessens {seen : List (ExchangeSeen smbus)} (h : Answering cobs s seen)
    (hbusy : ¬ s.Quiet cobs) : Lessens cobs s := by
  obtain ⟨flight, _⟩ := h.flight
  by_contra hstuck
  apply hbusy
  refine ⟨?_, ?_, ⟨?_, ?_, ?_⟩, ⟨?_, ?_, ?_⟩, ?_, ?_⟩
  · exact of_not_not fun hne => hstuck (lessens_pack hne)
  · exact of_not_not fun hne => hstuck (lessens_encode flight hne)
  · exact of_not_not fun hne => hstuck (lessens_flushUp hne)
  · exact of_not_not fun hne => hstuck (lessens_arriveUp hne)
  · exact of_not_not fun hne => hstuck (lessens_readUplink flight hne)
  · exact of_not_not fun hne => hstuck (lessens_flushDown hne)
  · exact of_not_not fun hne => hstuck (lessens_arriveDown hne)
  · exact of_not_not fun hne => hstuck (lessens_readDownlink flight hne)
  · exact of_not_not fun hne => hstuck (lessens_receive flight hne)
  · refine of_not_not fun hne => hstuck (lessens_deliver ?_ hne)
    intro link out hlink
    apply linkMoved_of_next h.kept _ hlink
    rintro ⟨_, _, _, haction, _⟩
    cases haction

end Work

section Runs

variable {visits : List (Visit (Exchange smbus) (ExchangeAction smbus) (ExchangeSeen smbus))}
  {s : Exchange smbus} {seen : List (ExchangeSeen smbus)}

theorem no_request_of_onTheWay {a : ExchangeAction smbus} (h : ExchangeAction.onTheWay a) :
    ¬ Reuses ⟨s, seen, a⟩ ∧ ¬ RequestsFullGroups ⟨s, seen, a⟩ := by
  constructor
  · rintro ⟨_, _, _, rfl, _⟩
    exact h
  · rintro ⟨_, _, rfl, _⟩
    exact h

theorem Answering.leads_to_quiet (h : Answering cobs s seen) (hack : s.autoack = true) :
    ∃ s' seen', (Exchange.machine cobs smbus).Leads ExchangeAction.onTheWay s seen s' seen' ∧
      Answering cobs s' seen' ∧ s'.Quiet cobs ∧
      ∀ packet, .unacked packet ∈ seen' → .unacked packet ∈ seen := by
  let inv (s' : Exchange smbus) (seen' : List (ExchangeSeen smbus)) : Prop :=
    Answering cobs s' seen' ∧ s'.autoack = true ∧
      ∀ packet, .unacked packet ∈ seen' → .unacked packet ∈ seen
  have hstep : ∀ {s₁ seen₁}, inv s₁ seen₁ → ¬ s₁.Quiet cobs →
      ∃ a s₂ shown, ExchangeAction.onTheWay a ∧ s₁.next cobs a = some (s₂, shown) ∧
        inv s₂ (seen₁ ++ shown) ∧ s₂.work < s₁.work := by
    rintro s₁ seen₁ ⟨hinv, hack₁, hunacked⟩ hbusy
    obtain ⟨a, s₂, shown, hkind, hnext, hless, hsame, hacks⟩ := hinv.lessens hbusy
    refine ⟨a, s₂, shown, hkind, hnext,
      ⟨answering_step hinv (no_request_of_onTheWay hkind) hnext, hsame.trans hack₁, ?_⟩, hless⟩
    intro packet hmem
    rcases List.mem_append.mp hmem with hold | hnew
    · exact hunacked packet hold
    · exact absurd hnew (hacks hack₁ packet)
  obtain ⟨s', seen', hleads, ⟨hafter, _, hunacked⟩, hquiet⟩ :=
    Machine.leads_to_done (Exchange.machine cobs smbus) ExchangeAction.onTheWay inv
      (Exchange.Quiet cobs) Exchange.work hstep ⟨h, hack, fun _ hmem => hmem⟩
  exact ⟨s', seen', hleads, hafter, hquiet, hunacked⟩

end Runs

section Ping

def pingAcked : List (ExchangeAction crc8Smbus) :=
  [.pack, .encode, .flushUp 9, .flushUp 40, .arriveUp 3, .readUplink, .arriveUp 60, .readUplink,
    .flushDown 60, .arriveDown 60, .readDownlink, .receive, .link (.deliver 0)]

theorem pinged : (Exchange.machine .reference crc8Smbus).next Exchange.default
    (.link (.request ping true)) = some ({ (Exchange.default : Exchange crc8Smbus) with
      link := { (Link.default : Link (StandardCRC crc8Smbus)) with
        commander := ⟨Commander.default.requests.insert (requestId ping) 0⟩
        nextSender := 1
        receivers := [0]
        requesters := [0] }
      upMessages := [ping] }, [.link (.registered 0 ping), .link (.issued ping)]) := rfl

theorem ping_run {actions : List (ExchangeAction crc8Smbus)} {s : Exchange crc8Smbus}
    {visits : List (Visit (Exchange crc8Smbus) (ExchangeAction crc8Smbus) (ExchangeSeen crc8Smbus))}
    {seen : List (ExchangeSeen crc8Smbus)} (hkind : ∀ a ∈ actions, ExchangeAction.onTheWay a)
    (h : (Exchange.machine .reference crc8Smbus).follow [] Exchange.default []
      (.link (.request ping true) :: actions) = some (visits, s, seen)) :
    (Exchange.machine .reference crc8Smbus).Run visits s seen ∧
      ∀ visit ∈ visits, ¬ Reuses visit ∧ ¬ RequestsFullGroups visit := by
  refine ⟨Machine.Run.start.follow h, ?_⟩
  rw [Machine.follow, pinged] at h
  obtain ⟨more, rfl, hactions⟩ := Machine.follow_visits h
  intro visit hmem
  rcases List.mem_append.mp hmem with hfirst | hmore
  · rw [List.mem_singleton.mp hfirst]
    constructor
    · rintro ⟨_, _, _, _, _, hregistered, _⟩
      cases hregistered
    · rintro ⟨_, _, haction, hfull⟩
      cases haction
      exact absurd hfull (by decide)
  · apply no_request_of_onTheWay
    apply hkind
    rw [← hactions]
    exact List.mem_map_of_mem hmore

set_option maxRecDepth 100000 in
theorem pingAcked_run : ∃ visits s seen,
    (Exchange.machine .reference crc8Smbus).Run visits s seen ∧
      (∀ visit ∈ visits, ¬ Reuses visit ∧ ¬ RequestsFullGroups visit) ∧ s.Quiet .reference ∧
      linkSeen seen = [.registered 0 ping, .issued ping,
        .handled (some 0) (.ack (Station.ackOf ping)),
        .answered (some 0) 0 (.message (Station.ackOf ping))] ∧
      ∀ packet, .unacked packet ∉ seen := by
  obtain ⟨hrun, hids⟩ := ping_run
    (show ∀ a ∈ pingAcked, a.onTheWay by simp [pingAcked, ExchangeAction.onTheWay])
    (show _ = some (_, _, _) from rfl)
  refine ⟨_, _, _, hrun, hids, ⟨rfl, rfl, ⟨rfl, rfl, rfl⟩, ⟨rfl, rfl, rfl⟩, rfl, rfl⟩, rfl, ?_⟩
  intro packet
  simp

end Ping

section Results

variable (cobs : CobsCrate)
  {visits : List (Visit (Exchange smbus) (ExchangeAction smbus) (ExchangeSeen smbus))}
  {s : Exchange smbus} {seen : List (ExchangeSeen smbus)}

/-- Nothing goes wrong on the way, and a request is answered at most once, with
the ack of its own message. -/
theorem answered_with_own_ack (hrun : (Exchange.machine cobs smbus).Run visits s seen)
    (hids : ∀ visit ∈ visits, ¬ Reuses visit ∧ ¬ RequestsFullGroups visit) :
    (∀ fault, .fault fault ∉ seen) ∧
      (∀ origin tx resp, .answered origin tx resp ∈ linkSeen seen →
        ∃ msg, .registered tx msg ∈ linkSeen seen ∧ resp = .message (Station.ackOf msg)) ∧
      ∀ tx, (linkSeen seen).countP (LinkSeen.answersSender tx) ≤ 1 := by
  have hanswering := answering_of_run cobs hrun hids
  exact ⟨hanswering.faultless, hanswering.exact, hanswering.kept.once⟩

theorem answered_with_own_ack_ping : ∃ visits s seen,
    (Exchange.machine .reference crc8Smbus).Run visits s seen ∧
      .answered (some 0) 0 (.message (Station.ackOf ping)) ∈ linkSeen seen ∧
      (linkSeen seen).countP (LinkSeen.answersSender 0) ≤ 1 ∧ ∀ fault, .fault fault ∉ seen := by
  obtain ⟨visits, s, seen, hrun, hids, _, hseen, _⟩ := pingAcked_run
  obtain ⟨hfaultless, _, honce⟩ := answered_with_own_ack .reference hrun hids
  exact ⟨visits, s, seen, hrun, by simp [hseen], honce 0, hfaultless⟩

/-- Once all is quiet every request has been answered with the ack of its
message, unless the station read it while it was told not to ack, or it carries
something for the ant. -/
theorem all_answered_when_quiet (hrun : (Exchange.machine cobs smbus).Run visits s seen)
    (hids : ∀ visit ∈ visits, ¬ Reuses visit ∧ ¬ RequestsFullGroups visit)
    (hquiet : s.Quiet cobs) (tx : Sender)
    (msg : Message (StandardCRC smbus)) (hmem : .registered tx msg ∈ linkSeen seen) :
    (∃ origin, .answered origin tx (.message (Station.ackOf msg)) ∈ linkSeen seen) ∨
      .unacked (wire msg) ∈ seen ∨ msg.val.header.header.ty.event = .csRelay :=
  (answering_of_run cobs hrun hids).answered_of_quiet hquiet hmem

theorem all_answered_when_quiet_ping : ∃ visits s seen,
    (Exchange.machine .reference crc8Smbus).Run visits s seen ∧ s.Quiet .reference ∧
      ∃ origin, .answered origin 0 (.message (Station.ackOf ping)) ∈ linkSeen seen := by
  obtain ⟨visits, s, seen, hrun, hids, hquiet, hseen, hunacked⟩ := pingAcked_run
  refine ⟨visits, s, seen, hrun, hquiet, ?_⟩
  rcases all_answered_when_quiet .reference hrun hids hquiet 0 ping (by simp [hseen]) with
    hanswered | hmem | hrelay
  · exact hanswered
  · exact absurd hmem (hunacked _)
  · cases hrelay

/-- Whatever has happened, the parties' own steps lead to where all is quiet, and
as long as the station is told to ack no request is given up on the way. -/
theorem every_request_can_be_answered (hrun : (Exchange.machine cobs smbus).Run visits s seen)
    (hids : ∀ visit ∈ visits, ¬ Reuses visit ∧ ¬ RequestsFullGroups visit)
    (hack : s.autoack = true) :
    ∃ more s' seen', (Exchange.machine cobs smbus).Run (visits ++ more) s' seen' ∧
      (∀ visit ∈ more, visit.action.onTheWay) ∧ s'.Quiet cobs ∧
      ∀ tx msg, .registered tx msg ∈ linkSeen seen →
        (∃ origin, .answered origin tx (.message (Station.ackOf msg)) ∈ linkSeen seen') ∨
          .unacked (wire msg) ∈ seen ∨ msg.val.header.header.ty.event = .csRelay := by
  obtain ⟨s', seen', hleads, hanswering, hquiet, hunacked⟩ :=
    (answering_of_run cobs hrun hids).leads_to_quiet hack
  obtain ⟨more, hmore, hkind⟩ := hleads.run hrun
  refine ⟨more, s', seen', hmore, hkind, hquiet, ?_⟩
  intro tx msg hmem
  have hlater : .registered tx msg ∈ linkSeen seen' :=
    (hleads.seen_prefix.filterMap _).subset hmem
  rcases hanswering.answered_of_quiet hquiet hlater with hanswered | hdropped | hrelay
  · exact .inl hanswered
  · exact .inr (.inl (hunacked _ hdropped))
  · exact .inr (.inr hrelay)

theorem every_request_can_be_answered_ping : ∃ visits s seen,
    (Exchange.machine .reference crc8Smbus).Run visits s seen ∧ s.Quiet .reference ∧
      ∃ origin, .answered origin 0 (.message (Station.ackOf ping)) ∈ linkSeen seen := by
  obtain ⟨hrun, hids⟩ := ping_run (show ∀ a ∈ [], ExchangeAction.onTheWay a by simp)
    (show _ = some (_, _, _) from rfl)
  obtain ⟨more, s', seen', hmore, _, hquiet, hanswered⟩ :=
    every_request_can_be_answered .reference hrun hids rfl
  refine ⟨_, s', seen', hmore, hquiet, ?_⟩
  rcases hanswered 0 ping (List.mem_cons_self) with hanswered | hmem | hrelay
  · exact hanswered
  · simp at hmem
  · cases hrelay

end Results

end AntRelay.Runtime
