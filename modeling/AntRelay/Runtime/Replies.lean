import AntRelay.Base.Table
import AntRelay.Runtime.Commander

namespace AntRelay.Runtime
open AntRelay.Base AntRelay.Format

variable {crc : Checksum}

def requestId (msg : Message crc) : UniqueId :=
  msg.val.header.header.uniqueId

def sourceId : SourceInfo → Option UniqueId
  | .empty => none
  | .info info => some info.header.uniqueId

namespace Response

/-- The command a response says it answers. -/
def answers : Response crc → Option UniqueId
  | .message msg => sourceId msg.val.header.payload
  | .ant pkt => sourceId pkt.val.header.payload

end Response

namespace Delivery

def response : Delivery crc → Response crc
  | .ack msg => .message msg
  | .ant pkt => .ant pkt

/-- The request a reply is for: none when it has no source, or when it is the
ack of a relay packet, which leaves the reply to what that carries. -/
def answers : Delivery crc → Option UniqueId
  | .ack msg =>
      let ty := msg.val.header.header.ty
      if ty.event = .csRelay ∧ ty.disposition = .ack then none
      else sourceId msg.val.header.payload
  | .ant pkt => sourceId pkt.val.header.payload

theorem answers_response {delivery : Delivery crc} {id : UniqueId}
    (h : delivery.answers = some id) : delivery.response.answers = some id := by
  cases delivery with
  | ack msg =>
      simp only [answers] at h
      split at h
      · cases h
      · exact h
  | ant pkt => exact h

end Delivery

def Outstanding (seen : List (LinkSeen crc)) (tx : Sender) (id : UniqueId) : Prop :=
  ∃ msg, .registered tx msg ∈ seen ∧ requestId msg = id ∧
    ∀ origin resp, .answered origin tx resp ∉ seen

/-- A request is about to be made under the id of one that is outstanding. -/
def Collides (visit : Visit (Link crc) (LinkAction crc) (LinkSeen crc)) : Prop :=
  ∃ msg awaited tx, visit.action = .request msg awaited ∧
    Outstanding visit.seen tx (requestId msg)

def RepliesTo (before : List (LinkSeen crc)) (item : LinkSeen crc) : Prop :=
  ∀ origin tx resp, item = .answered origin tx resp → ∃ earlier delivery msg,
    before = earlier ++ [.handled origin delivery] ∧ delivery.response = resp ∧
      .registered tx msg ∈ earlier ∧ resp.answers = some (requestId msg)

namespace LinkSeen

def answersSender (tx : Sender) : LinkSeen crc → Bool
  | .answered _ tx' _ => tx' == tx
  | _ => false

def answersFrom (packet : Nat) : LinkSeen crc → Bool
  | .answered (some packet') _ _ => packet' == packet
  | _ => false

end LinkSeen

section Handlers

variable (self : Commander) {delivery : Delivery crc}

theorem handleDelivery_idle
    (h : ∀ id, delivery.answers = some id → self.requests.lookup id = none) :
    Link.handleDelivery self delivery = (self, []) := by
  cases delivery with
  | ack msg =>
      simp only [Link.handleDelivery, Commander.handleAck]
      split
      · rfl
      · rename_i hrelay
        cases hsource : msg.val.header.payload with
        | empty => rfl
        | info info =>
            have hnone := h info.header.uniqueId (by
              simp only [Delivery.answers, hsource, sourceId]
              exact if_neg hrelay)
            simp only [hnone]
  | ant pkt =>
      simp only [Link.handleDelivery, Commander.handleAnt]
      cases hsource : pkt.val.header.payload with
      | empty => rfl
      | info info =>
          have hnone := h info.header.uniqueId (by simp only [Delivery.answers, hsource, sourceId])
          simp only [hnone]

theorem handleDelivery_answers {id : UniqueId} {tx : Sender}
    (h : delivery.answers = some id) (hlookup : self.requests.lookup id = some tx) :
    Link.handleDelivery self delivery =
      (⟨self.requests.erase id⟩, [.send tx delivery.response]) := by
  cases delivery with
  | ack msg =>
      simp only [Delivery.answers] at h
      simp only [Link.handleDelivery, Commander.handleAck]
      split at h
      · cases h
      · rename_i hrelay
        rw [if_neg hrelay]
        cases hsource : msg.val.header.payload with
        | empty =>
            rw [hsource] at h
            cases h
        | info info =>
            rw [hsource] at h
            cases h
            simp only [hlookup, Delivery.response]
  | ant pkt =>
      simp only [Delivery.answers] at h
      simp only [Link.handleDelivery, Commander.handleAnt]
      cases hsource : pkt.val.header.payload with
      | empty =>
          rw [hsource] at h
          cases h
      | info info =>
          rw [hsource] at h
          cases h
          simp only [hlookup, Delivery.response]

end Handlers

theorem collectGarbage_eq (self : Commander) {isClosed : Sender → Bool}
    (h : ∀ id tx, self.requests.lookup id = some tx → isClosed tx = false) :
    self.collectGarbage isClosed = self := by
  have hkeys : self.requests.entries.filter (fun entry => isClosed entry.2) = [] := by
    rw [List.filter_eq_nil_iff]
    intro entry hmem
    rw [h entry.1 entry.2 (AList.mem_lookup_iff.mpr hmem)]
    simp
  simp only [Commander.collectGarbage, hkeys, List.map_nil, List.foldl_nil]

structure Kept (s : Link crc) (seen : List (LinkSeen crc)) : Prop where
  table : ∀ id tx, s.commander.requests.lookup id = some tx ↔ Outstanding seen tx id
  live : ∀ tx, tx ∈ s.receivers ↔ ∃ id, Outstanding seen tx id
  nodup : s.receivers.Nodup
  fresh : ∀ tx msg, .registered tx msg ∈ seen → tx < s.nextSender
  single : ∀ tx msg msg', .registered tx msg ∈ seen → .registered tx msg' ∈ seen → msg = msg'
  asked : ∀ origin tx resp, .answered origin tx resp ∈ seen →
    ∃ msg, .registered tx msg ∈ seen
  once : ∀ tx, seen.countP (LinkSeen.answersSender tx) ≤ 1
  matched : Historically RepliesTo seen

inductive LinkMoved (s : Link crc) : LinkAction crc → Link crc → List (LinkSeen crc) → Prop where
  | requested (msg : Message crc) (awaited : Bool) :
      LinkMoved s (.request msg awaited)
        { s with
          commander := ⟨s.commander.requests.insert (requestId msg) s.nextSender⟩
          nextSender := s.nextSender + 1
          receivers := s.receivers ++ [s.nextSender]
          requesters := if awaited then s.requesters ++ [s.nextSender] else s.requesters }
        [.registered s.nextSender msg, .issued msg]
  | timedOut (tx : Sender) :
      LinkMoved s (.timeout tx) { s with requesters := s.requesters.erase tx } []
  | collected : LinkMoved s .collectGarbage s []
  | refused {pkt : Bytes} (h : (Serial.handleDownPacket pkt : Option (Message crc)) = none) :
      LinkMoved s (.downPacket pkt) { s with packets := s.packets + 1 } []
  | received {pkt : Bytes} {msg : Message crc} (h : Serial.handleDownPacket pkt = some msg) :
      LinkMoved s (.downPacket pkt)
        { s with
          packets := s.packets + 1
          downMessages := s.downMessages ++ [(s.packets, msg)]
          inbox := s.inbox ++
            if Serial.issuesAck msg then [(some s.packets, .ack msg)] else [] } []
  | decoded {index packet : Nat} {msg : Message crc}
      (h : s.downMessages[index]? = some (packet, msg)) :
      LinkMoved s (.antDecode index)
        { s with
          downMessages := s.downMessages.eraseIdx index
          inbox := s.inbox ++
            ((AntDecode.handle msg).map fun pkt => (some packet, .ant pkt)).toList } []
  | published (delivery : Delivery crc) :
      LinkMoved s (.publish delivery) { s with inbox := s.inbox ++ [(none, delivery)] } []
  | ignored {index : Nat} {origin : Option Nat} {delivery : Delivery crc}
      (h : s.inbox[index]? = some (origin, delivery))
      (hnone : ∀ id, delivery.answers = some id → s.commander.requests.lookup id = none) :
      LinkMoved s (.deliver index) { s with inbox := s.inbox.eraseIdx index }
        [.handled origin delivery]
  | answered {index : Nat} {origin : Option Nat} {delivery : Delivery crc} {id : UniqueId}
      {tx : Sender} (h : s.inbox[index]? = some (origin, delivery))
      (hanswers : delivery.answers = some id)
      (hlookup : s.commander.requests.lookup id = some tx) :
      LinkMoved s (.deliver index)
        { s with
          commander := ⟨s.commander.requests.erase id⟩
          receivers := s.receivers.erase tx
          requesters := s.requesters.erase tx
          inbox := s.inbox.eraseIdx index }
        [.handled origin delivery, .answered origin tx delivery.response]

/-- An action does one of these as long as every sender in the table has its
receiver and a new request finds its id free. -/
theorem linkMoved_of_live {s s' : Link crc} {a : LinkAction crc} {shown : List (LinkSeen crc)}
    (hlive : ∀ id tx, s.commander.requests.lookup id = some tx → tx ∈ s.receivers)
    (hfree : ∀ msg awaited, a = .request msg awaited →
      s.commander.requests.lookup (requestId msg) = none)
    (h : s.next a = some (s', shown)) : LinkMoved s a s' shown := by
  cases a with
  | request msg awaited =>
      have hnone := hfree msg awaited rfl
      unfold requestId at hnone
      simp only [Link.next, Commander.handleRequest, hnone, Option.toList_none, List.map_nil,
        List.nil_append, Link.effects, Link.effect, List.append_nil] at h
      cases h
      exact .requested msg awaited
  | timeout tx =>
      simp only [Link.next] at h
      split at h
      · cases h
        exact .timedOut tx
      · cases h
  | collectGarbage =>
      have hsame : (s.commander.collectGarbage fun tx => !s.receivers.contains tx) =
          s.commander := by
        apply collectGarbage_eq
        intro id tx hlookup
        simp [hlive id tx hlookup]
      simp only [Link.next, hsame] at h
      cases h
      exact .collected
  | downPacket pkt =>
      simp only [Link.next] at h
      cases hpkt : (Serial.handleDownPacket pkt : Option (Message crc)) with
      | none =>
          rw [hpkt] at h
          cases h
          exact .refused hpkt
      | some msg =>
          have hmoved := LinkMoved.received (s := s) hpkt
          simp only [hpkt] at h
          split at h
          · rename_i hack
            rw [if_pos hack] at hmoved
            cases h
            exact hmoved
          · rename_i hack
            rw [if_neg hack, List.append_nil] at hmoved
            cases h
            exact hmoved
  | antDecode index =>
      simp only [Link.next] at h
      cases hindex : s.downMessages[index]? with
      | none =>
          rw [hindex] at h
          cases h
      | some entry =>
          obtain ⟨packet, msg⟩ := entry
          have hmoved := LinkMoved.decoded hindex
          simp only [hindex] at h
          cases hdecoded : AntDecode.handle msg with
          | none =>
              simp only [hdecoded, Option.map_none, Option.toList_none, List.append_nil]
                at h hmoved
              cases h
              exact hmoved
          | some pkt =>
              simp only [hdecoded, Option.map_some, Option.toList_some] at h hmoved
              cases h
              exact hmoved
  | publish delivery =>
      cases h
      exact .published delivery
  | deliver index =>
      simp only [Link.next] at h
      cases hindex : s.inbox[index]? with
      | none =>
          rw [hindex] at h
          cases h
      | some entry =>
          obtain ⟨origin, delivery⟩ := entry
          by_cases hidle : ∀ id, delivery.answers = some id →
              s.commander.requests.lookup id = none
          · simp only [hindex, handleDelivery_idle _ hidle, Link.effects] at h
            cases h
            exact .ignored hindex hidle
          · simp only [not_forall] at hidle
            obtain ⟨id, hanswers, hsome⟩ := hidle
            obtain ⟨tx, hlookup⟩ := Option.ne_none_iff_exists'.mp hsome
            simp only [hindex, handleDelivery_answers _ hanswers hlookup, Link.effects,
              Link.effect, hlive id tx hlookup, ↓reduceIte, List.append_nil] at h
            cases h
            exact .answered hindex hanswers hlookup

theorem linkMoved_of_next {s s' : Link crc} {a : LinkAction crc}
    {seen shown : List (LinkSeen crc)} (hkept : Kept s seen) (hallowed : ¬ Collides ⟨s, seen, a⟩)
    (h : s.next a = some (s', shown)) : LinkMoved s a s' shown := by
  apply linkMoved_of_live _ _ h
  · intro id tx hlookup
    exact (hkept.live tx).mpr ⟨id, (hkept.table id tx).mp hlookup⟩
  · intro msg awaited haction
    cases hlookup : s.commander.requests.lookup (requestId msg) with
    | none => rfl
    | some tx => exact absurd ⟨msg, awaited, tx, haction, (hkept.table _ tx).mp hlookup⟩ hallowed

namespace LinkMoved

variable {s s' : Link crc} {a : LinkAction crc} {shown : List (LinkSeen crc)}

theorem registered_mem (h : LinkMoved s a s' shown) {tx : Sender} {msg : Message crc}
    (hmem : .registered tx msg ∈ shown) :
    ∃ awaited, a = .request msg awaited ∧ tx = s.nextSender := by
  cases h with
  | requested msg' awaited =>
      simp only [List.mem_cons, LinkSeen.registered.injEq, reduceCtorEq, List.not_mem_nil,
        or_false] at hmem
      exact ⟨awaited, by rw [hmem.2], hmem.1⟩
  | _ => simp at hmem

theorem answered_mem (h : LinkMoved s a s' shown) {origin : Option Nat} {tx : Sender}
    {resp : Response crc} (hmem : .answered origin tx resp ∈ shown) :
    ∃ index delivery id, a = .deliver index ∧ s.inbox[index]? = some (origin, delivery) ∧
      delivery.answers = some id ∧ s.commander.requests.lookup id = some tx ∧
      resp = delivery.response := by
  cases h with
  | answered hindex hanswers hlookup =>
      simp only [List.mem_cons, reduceCtorEq, LinkSeen.answered.injEq, List.not_mem_nil, or_false,
        false_or] at hmem
      obtain ⟨rfl, rfl, rfl⟩ := hmem
      exact ⟨_, _, _, rfl, hindex, hanswers, hlookup, rfl⟩
  | _ => simp at hmem

theorem dropped_not_mem (h : LinkMoved s a s' shown) (tx : Sender) : .dropped tx ∉ shown := by
  cases h <;> simp

end LinkMoved

section Outstanding

variable {seen : List (LinkSeen crc)}

theorem outstanding_handled_only (origin : Option Nat) (delivery : Delivery crc) (tx : Sender)
    (id : UniqueId) :
    Outstanding (seen ++ [.handled origin delivery]) tx id ↔ Outstanding seen tx id := by
  simp [Outstanding]

theorem outstanding_registered {new : Sender} {msg : Message crc}
    (hfresh : ∀ msg, .registered new msg ∉ seen)
    (hunasked : ∀ origin resp, .answered origin new resp ∉ seen) (tx : Sender) (id : UniqueId) :
    Outstanding (seen ++ [.registered new msg, .issued msg]) tx id ↔
      Outstanding seen tx id ∨ tx = new ∧ requestId msg = id := by
  constructor
  · rintro ⟨other, hmem, hid, hopen⟩
    simp only [List.mem_append, List.mem_cons, LinkSeen.registered.injEq, reduceCtorEq,
      List.not_mem_nil, or_false] at hmem hopen
    cases hmem with
    | inl hmem => exact .inl ⟨other, hmem, hid, hopen⟩
    | inr hnew => exact .inr ⟨hnew.1, hnew.2 ▸ hid⟩
  · rintro (⟨other, hmem, hid, hopen⟩ | ⟨rfl, hid⟩)
    · exact ⟨other, List.mem_append_left _ hmem, hid, by simpa using hopen⟩
    · exact ⟨msg, by simp, hid, by simpa using hunasked⟩

theorem outstanding_answered (origin : Option Nat) (delivery : Delivery crc) (done : Sender)
    (resp : Response crc) (tx : Sender) (id : UniqueId) :
    Outstanding (seen ++ [.handled origin delivery, .answered origin done resp]) tx id ↔
      Outstanding seen tx id ∧ tx ≠ done := by
  constructor
  · rintro ⟨msg, hmem, hid, hopen⟩
    simp only [List.mem_append, List.mem_cons, reduceCtorEq, List.not_mem_nil, or_false,
      LinkSeen.answered.injEq, false_or, not_or] at hmem hopen
    refine ⟨⟨msg, hmem, hid, fun origin resp => (hopen origin resp).1⟩, ?_⟩
    rintro rfl
    exact (hopen origin resp).2 ⟨rfl, rfl, rfl⟩
  · rintro ⟨⟨msg, hmem, hid, hopen⟩, hne⟩
    refine ⟨msg, List.mem_append_left _ hmem, hid, ?_⟩
    intro origin' resp' hmem'
    simp only [List.mem_append, List.mem_cons, reduceCtorEq, List.not_mem_nil, or_false,
      LinkSeen.answered.injEq, false_or] at hmem'
    cases hmem' with
    | inl hmem' => exact hopen _ _ hmem'
    | inr hsame => exact hne hsame.2.1

end Outstanding

theorem kept_init : Kept (Link.machine crc).init [] where
  table := by
    intro id tx
    simp [Link.machine, Link.default, Commander.default, Outstanding]
  live := by
    intro tx
    simp [Link.machine, Link.default, Outstanding]
  nodup := List.nodup_nil
  fresh := by simp
  single := by simp
  asked := by simp
  once := by simp
  matched := .nil

theorem Kept.same {s s' : Link crc} {seen : List (LinkSeen crc)} (h : Kept s seen)
    (hcommander : s'.commander = s.commander) (hreceivers : s'.receivers = s.receivers)
    (hnext : s'.nextSender = s.nextSender) : Kept s' seen where
  table := by
    rw [hcommander]
    exact h.table
  live := by
    rw [hreceivers]
    exact h.live
  nodup := by
    rw [hreceivers]
    exact h.nodup
  fresh := by
    rw [hnext]
    exact h.fresh
  single := h.single
  asked := h.asked
  once := h.once
  matched := h.matched

theorem Kept.quiet {s s' : Link crc} {seen : List (LinkSeen crc)} (h : Kept s seen)
    (hcommander : s'.commander = s.commander) (hreceivers : s'.receivers = s.receivers)
    (hnext : s'.nextSender = s.nextSender) : Kept s' (seen ++ []) := by
  rw [List.append_nil]
  exact h.same hcommander hreceivers hnext

theorem Kept.handled {s : Link crc} {seen : List (LinkSeen crc)} (h : Kept s seen)
    (origin : Option Nat) (delivery : Delivery crc) :
    Kept s (seen ++ [.handled origin delivery]) where
  table := by
    intro id tx
    rw [outstanding_handled_only]
    exact h.table id tx
  live := by
    intro tx
    simp only [outstanding_handled_only]
    exact h.live tx
  nodup := h.nodup
  fresh := by
    intro tx msg hmem
    exact h.fresh tx msg (by simpa using hmem)
  single := by
    intro tx msg msg' hmem hmem'
    exact h.single tx msg msg' (by simpa using hmem) (by simpa using hmem')
  asked := by
    intro origin tx resp hmem
    obtain ⟨msg, hmsg⟩ := h.asked origin tx resp (by simpa using hmem)
    exact ⟨msg, List.mem_append_left _ hmsg⟩
  once := by
    intro tx
    rw [List.countP_append]
    exact h.once tx
  matched := h.matched.concat (by
    intro origin tx resp hitem
    cases hitem)

theorem Kept.requested {s : Link crc} {seen : List (LinkSeen crc)} (h : Kept s seen)
    {msg : Message crc} {requesters : List Sender}
    (hfree : ∀ tx, ¬ Outstanding seen tx (requestId msg)) :
    Kept { s with
      commander := ⟨s.commander.requests.insert (requestId msg) s.nextSender⟩
      nextSender := s.nextSender + 1
      receivers := s.receivers ++ [s.nextSender]
      requesters := requesters } (seen ++ [.registered s.nextSender msg, .issued msg]) := by
  have hnew : ∀ msg, .registered s.nextSender msg ∉ seen := by
    intro other hmem
    exact absurd (h.fresh _ _ hmem) (Nat.lt_irrefl _)
  have hunasked : ∀ origin resp, .answered origin s.nextSender resp ∉ seen := by
    intro origin resp hmem
    obtain ⟨other, hother⟩ := h.asked _ _ _ hmem
    exact hnew other hother
  have hiff := @outstanding_registered _ _ _ msg hnew hunasked
  exact
    { table := by
        intro id tx
        rw [hiff]
        rw [lookup_insert_eq_some, h.table]
        constructor
        · rintro (⟨rfl, rfl⟩ | ⟨_, hold⟩)
          · exact .inr ⟨rfl, rfl⟩
          · exact .inl hold
        · rintro (hold | ⟨rfl, rfl⟩)
          · refine .inr ⟨?_, hold⟩
            rintro rfl
            exact hfree tx hold
          · exact .inl ⟨rfl, rfl⟩
      live := by
        intro tx
        simp only [hiff, List.mem_append, List.mem_singleton, h.live]
        constructor
        · rintro (⟨id, hid⟩ | rfl)
          · exact ⟨id, .inl hid⟩
          · exact ⟨_, .inr ⟨rfl, rfl⟩⟩
        · rintro ⟨id, hid | ⟨rfl, _⟩⟩
          · exact .inl ⟨id, hid⟩
          · exact .inr rfl
      nodup := by
        have hunused : s.nextSender ∉ s.receivers := by
          intro hmem
          obtain ⟨_, other, hother, _⟩ := (h.live _).mp hmem
          exact hnew other hother
        exact List.nodup_append.mpr ⟨h.nodup, List.nodup_singleton _, by
          intro tx htx other hother hsame
          rw [List.mem_singleton.mp hother] at hsame
          exact hunused (hsame ▸ htx)⟩
      fresh := by
        intro tx other hmem
        simp only [List.mem_append, List.mem_cons, LinkSeen.registered.injEq, reduceCtorEq,
          List.not_mem_nil, or_false] at hmem
        cases hmem with
        | inl hmem => exact Nat.lt_succ_of_lt (h.fresh tx other hmem)
        | inr hsame => exact hsame.1 ▸ Nat.lt_succ_self _
      single := by
        intro tx first second hfirst hsecond
        simp only [List.mem_append, List.mem_cons, LinkSeen.registered.injEq, reduceCtorEq,
          List.not_mem_nil, or_false] at hfirst hsecond
        rcases hfirst with hfirst | ⟨rfl, rfl⟩ <;> rcases hsecond with hsecond | ⟨hsame, rfl⟩
        · exact h.single tx first second hfirst hsecond
        · exact absurd (hsame ▸ hfirst) (hnew first)
        · exact absurd hsecond (hnew second)
        · rfl
      asked := by
        intro origin tx resp hmem
        obtain ⟨other, hother⟩ := h.asked origin tx resp (by simpa using hmem)
        exact ⟨other, List.mem_append_left _ hother⟩
      once := by
        intro tx
        rw [List.countP_append]
        exact h.once tx
      matched := by
        apply h.matched.append
        intro item hmem before origin tx resp hitem
        rw [hitem] at hmem
        simp at hmem }

theorem Kept.answered {s : Link crc} {seen : List (LinkSeen crc)} (h : Kept s seen)
    {origin : Option Nat} {delivery : Delivery crc} {id : UniqueId} {tx : Sender}
    {requesters : List Sender} {inbox : List (Option Nat × Delivery crc)}
    (hanswers : delivery.answers = some id)
    (hlookup : s.commander.requests.lookup id = some tx) :
    Kept { s with
      commander := ⟨s.commander.requests.erase id⟩
      receivers := s.receivers.erase tx
      requesters := requesters
      inbox := inbox }
      (seen ++ [.handled origin delivery, .answered origin tx delivery.response]) := by
  have hopen : Outstanding seen tx id := (h.table id tx).mp hlookup
  obtain ⟨msg, hmsg, hid, hnone⟩ := hopen
  have hiff := @outstanding_answered _ seen origin delivery tx delivery.response
  exact
    { table := by
        intro id' tx'
        rw [hiff]
        rw [lookup_erase_eq_some]
        constructor
        · rintro ⟨hne, hother⟩
          refine ⟨(h.table _ _).mp hother, ?_⟩
          rintro rfl
          obtain ⟨msg', hmsg', hid', _⟩ := (h.table _ _).mp hother
          rw [h.single _ _ _ hmsg' hmsg, hid] at hid'
          exact hne hid'.symm
        · rintro ⟨hother, hne⟩
          have hlookup' := (h.table _ _).mpr hother
          refine ⟨?_, hlookup'⟩
          rintro rfl
          rw [hlookup] at hlookup'
          exact hne (Option.some.inj hlookup').symm
      live := by
        intro tx'
        simp only [h.nodup.mem_erase_iff, hiff, h.live]
        constructor
        · rintro ⟨hne, id', hother⟩
          exact ⟨id', hother, hne⟩
        · rintro ⟨id', hother, hne⟩
          exact ⟨hne, id', hother⟩
      nodup := h.nodup.erase tx
      fresh := by
        intro tx' other hmem
        exact h.fresh tx' other (by simpa using hmem)
      single := by
        intro tx' first second hfirst hsecond
        exact h.single tx' first second (by simpa using hfirst) (by simpa using hsecond)
      asked := by
        intro origin' tx' resp hmem
        simp only [List.mem_append, List.mem_cons, reduceCtorEq, List.not_mem_nil, or_false,
          LinkSeen.answered.injEq, false_or] at hmem
        cases hmem with
        | inl hmem =>
            obtain ⟨other, hother⟩ := h.asked _ _ _ hmem
            exact ⟨other, List.mem_append_left _ hother⟩
        | inr hsame => exact ⟨msg, List.mem_append_left _ (hsame.2.1 ▸ hmsg)⟩
      once := by
        intro tx'
        rw [List.countP_append]
        by_cases hsame : tx = tx'
        · subst hsame
          have hzero : seen.countP (LinkSeen.answersSender tx) = 0 := by
            rw [List.countP_eq_zero]
            intro item hitem hanswer
            cases item with
            | answered origin' tx' resp' =>
                rw [LinkSeen.answersSender, beq_iff_eq] at hanswer
                subst hanswer
                exact hnone _ _ hitem
            | _ => simp [LinkSeen.answersSender] at hanswer
          simp [hzero, LinkSeen.answersSender]
        · simpa [LinkSeen.answersSender, hsame] using h.once tx'
      matched := by
        rw [← List.singleton_append, ← List.append_assoc]
        refine (h.handled origin delivery).matched.concat ?_
        intro origin' tx' resp hitem
        cases hitem
        exact ⟨seen, delivery, msg, rfl, rfl, hmsg, by
          rw [hid]
          exact Delivery.answers_response hanswers⟩ }

theorem Kept.moved {s s' : Link crc} {a : LinkAction crc} {seen shown : List (LinkSeen crc)}
    (h : Kept s seen) (hallowed : ¬ Collides ⟨s, seen, a⟩) (hmoved : LinkMoved s a s' shown) :
    Kept s' (seen ++ shown) := by
  cases hmoved with
  | requested msg awaited =>
      exact h.requested fun tx hopen => hallowed ⟨msg, awaited, tx, rfl, hopen⟩
  | timedOut => exact h.quiet rfl rfl rfl
  | collected => exact h.quiet rfl rfl rfl
  | refused => exact h.quiet rfl rfl rfl
  | received => exact h.quiet rfl rfl rfl
  | decoded => exact h.quiet rfl rfl rfl
  | published => exact h.quiet rfl rfl rfl
  | ignored => exact (h.handled _ _).same rfl rfl rfl
  | answered _ hanswers hlookup => exact h.answered hanswers hlookup

end AntRelay.Runtime
