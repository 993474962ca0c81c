import AntRelay.Runtime.RequestIds

namespace AntRelay.Runtime
open AntRelay.Base AntRelay.Format

variable {crc : Checksum}

def Response.source (resp : Response crc) : Option Header :=
  let source :=
    match resp with
    | .message msg => msg.val.header.payload
    | .ant pkt => pkt.val.header.payload
  match source with
  | .empty => none
  | .info info => some info.header

def commandHeader (msg : Message crc) : Header :=
  msg.val.header.header

/-- What no step should do to a request made before it. -/
structure Undisturbed (visit : Visit (Relay crc) (RelayAction crc) (RelaySeen crc)) : Prop where
  -- A request finds no entry under its id.
  vacant : ∀ index origin msg awaited, visit.action = .submit index →
    visit.state.pending[index]? = some (.request origin msg awaited) →
    visit.state.link.commander.requests.lookup (requestId msg) = none
  -- No request is dropped.
  undropped : ∀ s' shown tx, visit.state.next visit.action = some (s', shown) →
    .link (.dropped tx) ∉ shown
  -- An ack that bears the header of another command reaches a listener only if its
  -- own command has that header as well and the other one has its answer.
  listener : ∀ s' shown packet tx resp header, visit.state.next visit.action = some (s', shown) →
    .link (.answered packet tx resp) ∈ shown → resp.source = some header →
    ∀ msg, .link (.registered tx msg) ∈ visit.seen →
    ∀ tx' msg', .link (.registered tx' msg') ∈ visit.seen → commandHeader msg' = header →
    tx' ≠ tx → commandHeader msg = header ∧
      ∃ packet' resp', .link (.answered packet' tx' resp') ∈ visit.seen

/-- A reply bears the header of an earlier command while one that has the same
id but another header has no answer yet. -/
def Late (visit : Visit (Relay crc) (RelayAction crc) (RelaySeen crc)) : Prop :=
  ∃ index packet delivery header, visit.action = .link (.deliver index) ∧
    visit.state.link.inbox[index]? = some (packet, delivery) ∧
    delivery.answers = some header.uniqueId ∧ delivery.response.source = some header ∧
    (∃ tx' msg', .link (.registered tx' msg') ∈ visit.seen ∧ commandHeader msg' = header) ∧
    ∃ tx msg, .link (.registered tx msg) ∈ visit.seen ∧ requestId msg = header.uniqueId ∧
      (∀ packet resp, .link (.answered packet tx resp) ∉ visit.seen) ∧
      commandHeader msg ≠ header

section Step

variable {s s' : Relay crc} {a : RelayAction crc} {seen shown : List (RelaySeen crc)}

/-- An answer is given where a reply to a registered request is handled. -/
theorem Identified.answered_mem (h : Identified s seen) (hkeeps : ¬ Evicts ⟨s, seen, a⟩)
    (hnext : s.next a = some (s', shown)) {packet : Option Nat} {tx : Sender}
    {resp : Response crc} (hmem : .link (.answered packet tx resp) ∈ shown) :
    ∃ index delivery id, a = .link (.deliver index) ∧
      s.link.inbox[index]? = some (packet, delivery) ∧ delivery.answers = some id ∧
      s.link.commander.requests.lookup id = some tx ∧ resp = delivery.response := by
  obtain ⟨b, out, haction, hlink, hitem⟩ := h.linkMoved_of_mem hkeeps hnext hmem
  obtain ⟨index, delivery, id, rfl, hindex, hanswers, hlookup, hresp⟩ := hlink.answered_mem hitem
  exact ⟨index, delivery, id, Relay.link_of_deliver hnext haction, hindex, hanswers, hlookup, hresp⟩

theorem Identified.answered_of_lookup (h : Identified s seen) {index : Nat}
    (hkeeps : ¬ Evicts ⟨s, seen, .link (.deliver index)⟩)
    (hnext : s.next (.link (.deliver index)) = some (s', shown)) {packet : Option Nat}
    {delivery : Delivery crc} {id : UniqueId} {tx : Sender}
    (hindex : s.link.inbox[index]? = some (packet, delivery))
    (hanswers : delivery.answers = some id)
    (hlookup : s.link.commander.requests.lookup id = some tx) :
    .link (.answered packet tx delivery.response) ∈ shown := by
  have hlink := h.linkMoved hkeeps hnext (b := .deliver index) rfl
  rw [← RelaySeen.mem_filterMap_link?]
  generalize shown.filterMap RelaySeen.link? = out at hlink ⊢
  generalize s'.link = link at hlink
  cases hlink with
  | ignored hindex' hnone =>
      rw [hindex] at hindex'
      cases hindex'
      rw [hnone id hanswers] at hlookup
      cases hlookup
  | answered hindex' hanswers' hlookup' =>
      rw [hindex] at hindex'
      cases hindex'
      rw [hanswers] at hanswers'
      cases hanswers'
      rw [hlookup] at hlookup'
      cases hlookup'
      simp

theorem Identified.dropped_not_mem (h : Identified s seen) (hkeeps : ¬ Evicts ⟨s, seen, a⟩)
    (hnext : s.next a = some (s', shown)) (tx : Sender) : .link (.dropped tx) ∉ shown := by
  intro hmem
  obtain ⟨b, out, _, hlink, hitem⟩ := h.linkMoved_of_mem hkeeps hnext hmem
  exact hlink.dropped_not_mem tx hitem

theorem Response.answers_eq (resp : Response crc) :
    resp.answers = resp.source.map Header.uniqueId := by
  have hsource (source : SourceInfo) : sourceId source =
      (match source with
        | .empty => none
        | .info info => some info.header : Option Header).map Header.uniqueId := by
    cases source <;> rfl
  cases resp with
  | message msg => exact hsource msg.val.header.payload
  | ant pkt => exact hsource pkt.val.header.payload

theorem Delivery.id_eq_of_source {delivery : Delivery crc} {id : UniqueId} {header : Header}
    (hanswers : delivery.answers = some id) (hsource : delivery.response.source = some header) :
    id = header.uniqueId := by
  have hresponse := Delivery.answers_response hanswers
  rw [Response.answers_eq, hsource] at hresponse
  exact (Option.some.inj hresponse).symm

theorem Identified.single (h : Identified s seen) {tx : Sender} {msg msg' : Message crc}
    (hmem : .link (.registered tx msg) ∈ seen) (hmem' : .link (.registered tx msg') ∈ seen) :
    msg = msg' :=
  h.kept.single tx msg msg' (RelaySeen.mem_filterMap_link?.mpr hmem)
    (RelaySeen.mem_filterMap_link?.mpr hmem')

theorem Identified.undisturbed (h : Identified s seen) (hkeeps : ¬ Evicts ⟨s, seen, a⟩)
    (htimely : ¬ Late ⟨s, seen, a⟩) :
    Undisturbed ⟨s, seen, a⟩ where
  vacant := h.vacant_iff.mpr hkeeps
  undropped := by
    intro s'' shown' tx hnext'
    exact h.dropped_not_mem hkeeps hnext' tx
  listener := by
    intro s'' shown' packet tx resp header hnext' hmem hsource msg hmsg tx' msg' hmsg' hheader hne
    obtain ⟨index, delivery, id, haction, hindex, hanswers, hlookup, rfl⟩ :=
      h.answered_mem hkeeps hnext' hmem
    have hid := Delivery.id_eq_of_source hanswers hsource
    subst hid
    obtain ⟨asked, hasked, haskedId, hopen⟩ := outstanding_iff.mp ((h.kept.table _ tx).mp hlookup)
    rw [h.single hasked hmsg] at haskedId
    constructor
    · by_contra hother
      exact htimely ⟨index, packet, delivery, header, haction, hindex, hanswers, hsource,
        ⟨tx', msg', hmsg', hheader⟩, tx, msg, hmsg, haskedId, hopen, hother⟩
    · by_contra hunanswered
      simp only [not_exists] at hunanswered
      have hmsgId : requestId msg' = header.uniqueId := by
        rw [← hheader]
        rfl
      have hlookup' := (h.kept.table header.uniqueId tx').mpr
        (outstanding_iff.mpr ⟨msg', hmsg', hmsgId, hunanswered⟩)
      rw [hlookup] at hlookup'
      exact hne (Option.some.inj hlookup').symm

theorem Undisturbed.not_late (hsafe : Undisturbed ⟨s, seen, a⟩) (h : Identified s seen)
    (hkeeps : ¬ Evicts ⟨s, seen, a⟩) (hnext : s.next a = some (s', shown)) :
    ¬ Late ⟨s, seen, a⟩ := by
  rintro ⟨index, packet, delivery, header, haction, hindex, hanswers, hsource,
    ⟨tx', msg', hmsg', hheader⟩, tx, msg, hmsg, hid, hopen, hother⟩
  simp only at haction
  subst haction
  have hlookup := (h.kept.table header.uniqueId tx).mpr
    (outstanding_iff.mpr ⟨msg, hmsg, hid, hopen⟩)
  have hmem := h.answered_of_lookup hkeeps hnext hindex hanswers hlookup
  have hne : tx' ≠ tx := by
    rintro rfl
    rw [h.single hmsg hmsg'] at hother
    exact hother hheader
  exact hother (hsafe.listener s' shown packet tx _ header hnext hmem hsource msg hmsg tx' msg'
    hmsg' hheader hne).1

end Step

/-- In every run: no request evicts another, none is dropped, and no listener
gets another command's ack, exactly as long as every request has an id that no
unanswered command has and no reply to an earlier command comes late. -/
theorem undisturbed_iff
    {visits : List (Visit (Relay crc) (RelayAction crc) (RelaySeen crc))} {s : Relay crc}
    {seen : List (RelaySeen crc)} (hrun : (Relay.machine crc).Run visits s seen) :
    (∀ visit ∈ visits, Undisturbed visit) ↔
      ∀ visit ∈ visits, NewId visit ∧ ¬ Late visit := by
  have hnext : ∀ visit ∈ visits, ∃ s' shown,
      visit.state.next visit.action = some (s', shown) := by
    intro visit hvisit
    obtain ⟨s', shown, hstep, _⟩ :=
      hrun.after (fun _ _ => True) trivial (fun _ _ => trivial) visit hvisit
    exact ⟨s', shown, hstep⟩
  have hidentified (hkeeps : ∀ visit ∈ visits, Identified visit.state visit.seen →
      ¬ Evicts visit) : ∀ visit ∈ visits, Identified visit.state visit.seen :=
    (hrun.invariant Identified (fun visit => Identified visit.state visit.seen → ¬ Evicts visit)
      .init (fun h hallowed hstep => h.moved (hallowed h) hstep) hkeeps).2
  constructor
  · intro hsafe visit hvisit
    have hkeeps : ∀ visit ∈ visits, Identified visit.state visit.seen → ¬ Evicts visit :=
      fun visit hvisit h => h.vacant_iff.mp (hsafe visit hvisit).vacant
    have h := hidentified hkeeps visit hvisit
    obtain ⟨s', shown, hstep⟩ := hnext visit hvisit
    exact ⟨h.newId_iff.mpr (hkeeps visit hvisit h),
      (hsafe visit hvisit).not_late h (hkeeps visit hvisit h) hstep⟩
  · intro hids visit hvisit
    have hkeeps : ∀ visit ∈ visits, Identified visit.state visit.seen → ¬ Evicts visit :=
      fun visit hvisit h => h.newId_iff.mp (hids visit hvisit).1
    have h := hidentified hkeeps visit hvisit
    exact h.undisturbed (hkeeps visit hvisit h) (hids visit hvisit).2

section Commands

def antCommand (event : Event) : Message (StandardCRC crc8Smbus) :=
  command _ ⟨⟨0⟩, 0⟩ .ant event

example : (unpackFromSlice [0xeb, 0x92, 0, 0, 0, 0, 0, 0x02, 0, 0, 0, 0, 0, 0, 0, 0, 0, 0xca] :
    PackingResult (Message (StandardCRC crc8Smbus))) = .ok (antCommand .antStart) := by
  decide +kernel

def pingAnt : List (RelayAction (StandardCRC crc8Smbus)) :=
  [.system (.arriveUp (antCommand .antPing)), .system .handle, .readClock 0 5000, .takeSeq 0,
    .compose 0, .submit 0, .submit 0]

theorem undisturbed_pingAnt : ∃ visits s seen,
    (Relay.machine (StandardCRC crc8Smbus)).Run visits s seen ∧ visits.length = 7 ∧
      s.link.receivers.length = 2 ∧ ∀ visit ∈ visits, Undisturbed visit := by
  have hrun := Machine.Run.start.follow
    (show (Relay.machine _).follow [] _ [] pingAnt = some (_, _, _) from rfl)
  have hsafe := (undisturbed_iff hrun).mpr (by
    intro visit hvisit
    simp only [List.nil_append, List.cons_append, List.mem_cons, List.not_mem_nil,
      or_false] at hvisit
    constructor
    · intro index origin msg awaited haction hindex tx earlier hrequested _
      rcases hvisit with rfl | rfl | rfl | rfl | rfl | rfl | rfl <;> cases haction <;> cases hindex
      · simp at hrequested
      · -- the second request, with the state machine's own one before it
        change _ ∈ [.system _, .system _, .system _, RelaySeen.requested 0 (.frontend 5000 0),
          .link _, .link _] at hrequested
        simp only [List.mem_cons, reduceCtorEq, RelaySeen.requested.injEq, List.not_mem_nil,
          or_false, false_or] at hrequested
        rw [hrequested.2]
        exact .inl (by decide)
    · rintro ⟨_, _, _, _, haction, _⟩
      rcases hvisit with rfl | rfl | rfl | rfl | rfl | rfl | rfl <;> cases haction)
  exact ⟨_, _, _, hrun, rfl, rfl, hsafe⟩

def startAck : Message (StandardCRC crc8Smbus) :=
  ⟨{ header := {
       header := { Header.command ⟨⟨9000⟩, 1⟩ .frontend .antStart with
         ty := { disposition := .ack, invalid := false, event := .antStart } }
       payload := .info ⟨commandHeader (antCommand .antStart), 0xca⟩ }
     payload := ⟨[]⟩ }⟩

def startThenStop : List (RelayAction (StandardCRC crc8Smbus)) :=
  [.system (.arriveUp (antCommand .antStart)), .system .handle, .submit 0,
    .system (.arriveUp (antCommand .antStop)), .system .handle, .submit 0]

/-- The stop evicts the start and gets the start's ack. -/
theorem startThenStop_disturbs : ∃ visits s seen,
    (Relay.machine (StandardCRC crc8Smbus)).Run visits s seen ∧
      .link (.registered 0 (antCommand .antStart)) ∈ seen ∧ .link (.dropped 0) ∈ seen ∧
      .link (.registered 1 (antCommand .antStop)) ∈ seen ∧
      .link (.answered (some 0) 1 (.message startAck)) ∈ seen ∧
      ¬ ∀ visit ∈ visits, Undisturbed visit := by
  have hrun := Machine.Run.start.follow
    (show (Relay.machine _).follow [] _ [] startThenStop = some (_, _, _) from rfl)
  have harrived := hrun.step (a := .serial (wire startAck)) (by
    simp only [Relay.machine, Relay.next, Link.next, Serial.handleDownPacket_wire]
    rfl)
  have hhandled := harrived.step (a := .link (.deliver 0)) rfl
  refine ⟨_, _, _, hhandled, List.mem_of_getElem? (i := 3) rfl, List.mem_of_getElem? (i := 9) rfl,
    List.mem_of_getElem? (i := 8) rfl, List.mem_of_getElem? (i := 12) rfl, ?_⟩
  intro hsafe
  have hstop := hsafe _ (List.mem_of_getElem? (i := 5) rfl)
  cases hstop.vacant 0 (.ground (commandHeader (antCommand .antStop))) (antCommand .antStop) false
    rfl rfl

end Commands

end AntRelay.Runtime
