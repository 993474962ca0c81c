import AntRelay.Runtime.Exchange

namespace AntRelay.Runtime
open AntRelay.Base AntRelay.Codec AntRelay.Format

variable {smbus : Bytes → UInt8}

namespace ExchangeSeen

def link? : ExchangeSeen smbus → Option (LinkSeen (StandardCRC smbus))
  | .link item => some item
  | .unacked _ => none
  | .fault _ => none

theorem filterMap_link?_link (items : List (LinkSeen (StandardCRC smbus))) :
    (items.map ExchangeSeen.link).filterMap link? = items := by
  exact filterMap_map_some fun _ => rfl

end ExchangeSeen

def linkSeen (seen : List (ExchangeSeen smbus)) : List (LinkSeen (StandardCRC smbus)) :=
  seen.filterMap ExchangeSeen.link?

/-- A request is about to be made under the id of one that is outstanding. -/
def Reuses (visit : Visit (Exchange smbus) (ExchangeAction smbus) (ExchangeSeen smbus)) : Prop :=
  ∃ msg awaited tx, visit.action = .link (.request msg awaited) ∧
    Outstanding (linkSeen visit.seen) tx (requestId msg)

/-- A message is about to be sent whose packet consists of full groups alone. -/
def RequestsFullGroups
    (visit : Visit (Exchange smbus) (ExchangeAction smbus) (ExchangeSeen smbus)) : Prop :=
  ∃ msg awaited, visit.action = .link (.request msg awaited) ∧ Cobs.FullGroups (wire msg)

def Unanswered {crc : Checksum} (seen : List (LinkSeen crc)) (tx : Sender) (msg : Message crc) :
    Prop :=
  .registered tx msg ∈ seen ∧ ∀ origin resp, .answered origin tx resp ∉ seen

section Unanswered

variable {crc : Checksum} {seen : List (LinkSeen crc)}

theorem Unanswered.outstanding {tx : Sender} {msg : Message crc} (h : Unanswered seen tx msg) :
    Outstanding seen tx (requestId msg) :=
  ⟨msg, h.1, rfl, h.2⟩

theorem unanswered_handled (origin : Option Nat) (delivery : Delivery crc) (tx : Sender)
    (msg : Message crc) :
    Unanswered (seen ++ [.handled origin delivery]) tx msg ↔ Unanswered seen tx msg := by
  simp [Unanswered]

theorem unanswered_registered {new : Sender} {msg : Message crc}
    (hfresh : ∀ msg, .registered new msg ∉ seen)
    (hunasked : ∀ origin resp, .answered origin new resp ∉ seen) (tx : Sender)
    (msg' : Message crc) :
    Unanswered (seen ++ [.registered new msg, .issued msg]) tx msg' ↔
      Unanswered seen tx msg' ∨ tx = new ∧ msg' = msg := by
  simp only [Unanswered, List.mem_append, List.mem_cons, LinkSeen.registered.injEq, reduceCtorEq,
    List.not_mem_nil, or_false]
  constructor
  · rintro ⟨hold | hnew, hopen⟩
    · exact .inl ⟨hold, hopen⟩
    · exact .inr hnew
  · rintro (⟨hold, hopen⟩ | ⟨rfl, rfl⟩)
    · exact ⟨.inl hold, hopen⟩
    · exact ⟨.inr ⟨rfl, rfl⟩, hunasked⟩

theorem unanswered_answered (origin : Option Nat) (delivery : Delivery crc) (done : Sender)
    (resp : Response crc) (tx : Sender) (msg : Message crc) :
    Unanswered (seen ++ [.handled origin delivery, .answered origin done resp]) tx msg ↔
      Unanswered seen tx msg ∧ tx ≠ done := by
  simp only [Unanswered, List.mem_append, List.mem_cons, reduceCtorEq, LinkSeen.answered.injEq,
    List.not_mem_nil, or_false, false_or, not_or]
  constructor
  · rintro ⟨hmem, hopen⟩
    exact ⟨⟨hmem, fun origin resp => (hopen origin resp).1⟩,
      fun hsame => (hopen origin resp).2 ⟨rfl, hsame, rfl⟩⟩
  · rintro ⟨⟨hmem, hopen⟩, hne⟩
    exact ⟨hmem, fun origin resp => ⟨hopen origin resp, fun hsame => hne hsame.2.1⟩⟩

end Unanswered

/-- What is on its way is what has not been answered, each request once. -/
structure Accounted {cobs : CobsCrate} {s : Exchange smbus} (flight : Flight cobs s)
    (seen : List (ExchangeSeen smbus)) : Prop where
  distinct : (flight.all.map requestId).Nodup
  unanswered : ∀ msg ∈ flight.all, ∃ tx, Unanswered (linkSeen seen) tx msg
  complete : ∀ tx msg, Unanswered (linkSeen seen) tx msg →
    msg ∈ flight.all ∨ .unacked (wire msg) ∈ seen ∨ msg.val.header.header.ty.event = .csRelay

structure Answering (cobs : CobsCrate) (s : Exchange smbus) (seen : List (ExchangeSeen smbus)) :
    Prop where
  kept : Kept s.link (linkSeen seen)
  exact : ∀ origin tx resp, .answered origin tx resp ∈ linkSeen seen →
    ∃ msg, .registered tx msg ∈ linkSeen seen ∧ resp = .message (Station.ackOf msg)
  faultless : ∀ fault, .fault fault ∉ seen
  flight : ∃ flight : Flight cobs s, Accounted flight seen

section Steps

variable {cobs : CobsCrate} {s s' : Exchange smbus} {seen shown : List (ExchangeSeen smbus)}
  {a : ExchangeAction smbus}

theorem answering_start : Answering cobs (Exchange.machine cobs smbus).init [] where
  kept := kept_init
  exact := by simp [linkSeen]
  faultless := by simp
  flight := by
    refine ⟨.start cobs, ?_, ?_, ?_⟩
    · simp [Flight.all, Flight.start, Exchange.machine, Exchange.default]
    · simp [Flight.all, Flight.start, Exchange.machine, Exchange.default]
    · simp [Unanswered, linkSeen]

theorem Answering.answers (h : Answering cobs s seen) {flight : Flight cobs s}
    (haccounted : Accounted flight seen) {msg : Message (StandardCRC smbus)}
    (hmem : msg ∈ flight.all) :
    ∃ tx, Unanswered (linkSeen seen) tx msg ∧
      s.link.commander.requests.lookup (requestId msg) = some tx := by
  obtain ⟨tx, hopen⟩ := haccounted.unanswered msg hmem
  exact ⟨tx, hopen, (h.kept.table _ _).mpr hopen.outstanding⟩

theorem answers_ackOf (msg : Message (StandardCRC smbus)) :
    (Delivery.ack (Station.ackOf msg)).answers =
      if msg.val.header.header.ty.event = .csRelay then none else some (requestId msg) := by
  simp only [Delivery.answers, Station.sourceId_ackOf]
  rw [show (Station.ackOf msg).val.header.header.ty.disposition = .ack from rfl,
    show (Station.ackOf msg).val.header.header.ty.event = msg.val.header.header.ty.event from rfl]
  simp only [and_true]

theorem linkSeen_append (seen shown : List (ExchangeSeen smbus)) :
    linkSeen (seen ++ shown) = linkSeen seen ++ linkSeen shown :=
  List.filterMap_append

theorem LinkMoved.delivers {crc : Checksum} {s s' : Link crc} {index : Nat} {origin : Option Nat}
    {delivery : Delivery crc} {out : List (LinkSeen crc)}
    (h : LinkMoved s (.deliver index) s' out)
    (hindex : s.inbox[index]? = some (origin, delivery)) :
    (out = [.handled origin delivery] ∧
      ∀ id, delivery.answers = some id → s.commander.requests.lookup id = none) ∨
    ∃ id tx, delivery.answers = some id ∧ s.commander.requests.lookup id = some tx ∧
      out = [.handled origin delivery, .answered origin tx delivery.response] := by
  cases h with
  | ignored hindex' hnone =>
      rw [hindex] at hindex'
      cases hindex'
      exact .inl ⟨rfl, hnone⟩
  | answered hindex' hanswers hlookup =>
      rw [hindex] at hindex'
      cases hindex'
      exact .inr ⟨_, _, hanswers, hlookup, rfl⟩

theorem Answering.handles (h : Answering cobs s seen) {flight : Flight cobs s}
    (haccounted : Accounted flight seen) {index : Nat} {origin : Option Nat}
    {msg : Message (StandardCRC smbus)} {link : Link (StandardCRC smbus)}
    {out : List (LinkSeen (StandardCRC smbus))} (hmem : msg ∈ flight.all)
    (hindex : s.link.inbox[index]? = some (origin, .ack (Station.ackOf msg)))
    (hlink : LinkMoved s.link (.deliver index) link out) :
    ∃ tx, Unanswered (linkSeen seen) tx msg ∧
      ((msg.val.header.header.ty.event = .csRelay ∧
        out = [.handled origin (.ack (Station.ackOf msg))]) ∨
      (msg.val.header.header.ty.event ≠ .csRelay ∧
        out = [.handled origin (.ack (Station.ackOf msg)),
          .answered origin tx (.message (Station.ackOf msg))])) := by
  obtain ⟨tx, hopen, hlookup⟩ := h.answers haccounted hmem
  refine ⟨tx, hopen, ?_⟩
  rcases hlink.delivers hindex with ⟨hout, hnone⟩ | ⟨id, tx', hanswers, hlookup', hout⟩
  · left
    refine ⟨?_, hout⟩
    by_contra hother
    have hid := hnone (requestId msg) (by rw [answers_ackOf, if_neg hother])
    rw [hlookup] at hid
    cases hid
  · right
    rw [answers_ackOf] at hanswers
    split at hanswers
    · cases hanswers
    · rename_i hother
      cases hanswers
      rw [hlookup] at hlookup'
      cases hlookup'
      exact ⟨hother, hout⟩

theorem Answering.own (h : Answering cobs s seen) {msg : Message (StandardCRC smbus)}
    {tx tx' : Sender} (hopen : Unanswered (linkSeen seen) tx msg)
    (hopen' : Unanswered (linkSeen seen) tx' msg) : tx = tx' := by
  have hlookup := (h.kept.table _ _).mpr hopen.outstanding
  have hlookup' := (h.kept.table _ _).mpr hopen'.outstanding
  rw [hlookup] at hlookup'
  exact Option.some.inj hlookup'

theorem Accounted.rest {flight : Flight cobs s} (h : Accounted flight seen)
    {msg : Message (StandardCRC smbus)} {front back : List (Message (StandardCRC smbus))}
    (hall : flight.all = front ++ msg :: back) :
    ((front ++ back).map requestId).Nodup ∧ msg ∉ front ++ back ∧
      ∀ other, other ∈ flight.all ↔ other = msg ∨ other ∈ front ++ back := by
  have hdistinct := h.distinct
  rw [hall, List.map_append, List.map_cons, List.nodup_middle, List.nodup_cons,
    ← List.map_append] at hdistinct
  refine ⟨hdistinct.2, fun hmem => hdistinct.1 (List.mem_map_of_mem hmem), ?_⟩
  intro other
  rw [hall]
  simp only [List.mem_append, List.mem_cons]
  tauto

theorem Answering.delivered (h : Answering cobs s seen) {flight : Flight cobs s}
    (haccounted : Accounted flight seen) {index : Nat} {origin : Option Nat}
    {msg : Message (StandardCRC smbus)} {front back : List (Message (StandardCRC smbus))}
    {out : List (LinkSeen (StandardCRC smbus))}
    (hindex : s.link.inbox[index]? = some (origin, .ack (Station.ackOf msg)))
    (hlink : LinkMoved s.link (.deliver index) s'.link out)
    (hall : flight.all = front ++ msg :: back) (flight' : Flight cobs s')
    (hall' : flight'.all = front ++ back) :
    Answering cobs s' (seen ++ out.map .link) := by
  have hcollides : ¬ Collides ⟨s.link, linkSeen seen, .deliver index⟩ := by
    rintro ⟨_, _, _, haction, _⟩
    cases haction
  have hseen : linkSeen (seen ++ out.map .link) = linkSeen seen ++ out := by
    rw [linkSeen_append, linkSeen, linkSeen, ExchangeSeen.filterMap_link?_link]
  obtain ⟨hnodup, hgone, hmem⟩ := haccounted.rest hall
  obtain ⟨own, hown, hout⟩ := h.handles haccounted ((hmem msg).mpr (.inl rfl)) hindex hlink
  have hafter : ∀ tx other, Unanswered (linkSeen seen ++ out) tx other ↔
      Unanswered (linkSeen seen) tx other ∧
        (msg.val.header.header.ty.event = .csRelay ∨ tx ≠ own) := by
    intro tx other
    rcases hout with ⟨hrelay, rfl⟩ | ⟨hother, rfl⟩
    · rw [unanswered_handled, and_iff_left (.inl hrelay)]
    · rw [unanswered_answered, or_iff_right hother]
  refine ⟨?_, ?_, ?_, flight', ?_, ?_, ?_⟩
  · rw [hseen]
    exact h.kept.moved hcollides hlink
  · rw [hseen]
    intro origin' tx resp hanswered
    rcases List.mem_append.mp hanswered with hold | hnew
    · obtain ⟨other, hother, hresp⟩ := h.exact origin' tx resp hold
      exact ⟨other, List.mem_append_left _ hother, hresp⟩
    · rcases hout with ⟨_, rfl⟩ | ⟨_, rfl⟩
      · simp at hnew
      · simp only [List.mem_cons, reduceCtorEq, LinkSeen.answered.injEq, List.not_mem_nil,
          or_false, false_or] at hnew
        obtain ⟨_, rfl, rfl⟩ := hnew
        exact ⟨msg, List.mem_append_left _ hown.1, rfl⟩
  · intro fault hfault
    rcases List.mem_append.mp hfault with hold | hnew
    · exact h.faultless fault hold
    · simp at hnew
  · rw [hall']
    exact hnodup
  · intro other hother
    rw [hall'] at hother
    obtain ⟨tx, hopen⟩ := haccounted.unanswered other ((hmem other).mpr (.inr hother))
    refine ⟨tx, ?_⟩
    rw [hseen, hafter]
    refine ⟨hopen, .inr ?_⟩
    rintro rfl
    rw [h.kept.single _ _ _ hopen.1 hown.1] at hother
    exact hgone hother
  · intro tx other hopen
    rw [hseen, hafter] at hopen
    rcases haccounted.complete tx other hopen.1 with hflight | hunacked | hrelay
    · rcases (hmem other).mp hflight with rfl | hrest
      · rcases hopen.2 with hrelay | hne
        · exact .inr (.inr hrelay)
        · exact absurd (h.own hopen.1 hown) hne
      · rw [hall']
        exact .inl hrest
    · exact .inr (.inl (List.mem_append_left _ hunacked))
    · exact .inr (.inr hrelay)

theorem Answering.requested (h : Answering cobs s seen) {flight : Flight cobs s}
    (haccounted : Accounted flight seen) {msg : Message (StandardCRC smbus)} {awaited : Bool}
    (hids : ∀ tx, ¬ Outstanding (linkSeen seen) tx (requestId msg))
    (hlink : LinkMoved s.link (.request msg awaited) s'.link
      [.registered s.link.nextSender msg, .issued msg])
    (flight' : Flight cobs s') (hall' : flight'.all = flight.all ++ [msg]) :
    Answering cobs s'
      (seen ++ [.link (.registered s.link.nextSender msg), .link (.issued msg)]) := by
  have hcollides : ¬ Collides ⟨s.link, linkSeen seen, .request msg awaited⟩ := by
    rintro ⟨_, _, tx, haction, hopen⟩
    cases haction
    exact hids tx hopen
  have hseen : linkSeen
      (seen ++ [.link (.registered s.link.nextSender msg), .link (.issued msg)]) =
      linkSeen seen ++ [.registered s.link.nextSender msg, .issued msg] := by
    rw [linkSeen_append]
    rfl
  have hnew : ∀ other, .registered s.link.nextSender other ∉ linkSeen seen := by
    intro other hmem
    exact absurd (h.kept.fresh _ _ hmem) (Nat.lt_irrefl _)
  have hunasked : ∀ origin resp, .answered origin s.link.nextSender resp ∉ linkSeen seen := by
    intro origin resp hmem
    obtain ⟨other, hother⟩ := h.kept.asked _ _ _ hmem
    exact hnew other hother
  have hafter := @unanswered_registered _ _ _ msg hnew hunasked
  refine ⟨?_, ?_, ?_, flight', ?_, ?_, ?_⟩
  · rw [hseen]
    exact h.kept.moved hcollides hlink
  · rw [hseen]
    intro origin tx resp hanswered
    obtain ⟨other, hother, hresp⟩ := h.exact origin tx resp (by simpa using hanswered)
    exact ⟨other, List.mem_append_left _ hother, hresp⟩
  · intro fault hfault
    exact h.faultless fault (by simpa using hfault)
  · rw [hall', List.map_append, List.map_singleton]
    refine List.nodup_append.mpr ⟨haccounted.distinct, List.nodup_singleton _, ?_⟩
    intro id hid other hother hsame
    rw [List.mem_singleton.mp hother] at hsame
    obtain ⟨old, hold, rfl⟩ := List.mem_map.mp hid
    obtain ⟨tx, hopen⟩ := haccounted.unanswered old hold
    exact hids tx (hsame ▸ hopen.outstanding)
  · intro other hother
    rw [hall', List.mem_append, List.mem_singleton] at hother
    simp only [hseen, hafter]
    rcases hother with hold | rfl
    · obtain ⟨tx, hopen⟩ := haccounted.unanswered other hold
      exact ⟨tx, .inl hopen⟩
    · exact ⟨_, .inr ⟨rfl, rfl⟩⟩
  · intro tx other hopen
    rw [hseen, hafter] at hopen
    rw [hall']
    rcases hopen with hopen | ⟨rfl, rfl⟩
    · rcases haccounted.complete tx other hopen with hflight | hunacked | hrelay
      · exact .inl (List.mem_append_left _ hflight)
      · exact .inr (.inl (List.mem_append_left _ hunacked))
      · exact .inr (.inr hrelay)
    · exact .inl (by simp)

theorem Answering.unacked (h : Answering cobs s seen) {flight : Flight cobs s}
    (haccounted : Accounted flight seen) {msg : Message (StandardCRC smbus)}
    {front back : List (Message (StandardCRC smbus))} (hlink : s'.link = s.link)
    (hall : flight.all = front ++ msg :: back) (flight' : Flight cobs s')
    (hall' : flight'.all = front ++ back) :
    Answering cobs s' (seen ++ [.unacked (wire msg)]) := by
  have hseen : linkSeen (seen ++ [.unacked (wire msg)]) = linkSeen seen := by
    rw [linkSeen_append]
    exact List.append_nil _
  obtain ⟨hnodup, hgone, hmem⟩ := haccounted.rest hall
  refine ⟨?_, ?_, ?_, flight', ?_, ?_, ?_⟩
  · rw [hseen, hlink]
    exact h.kept
  · rw [hseen]
    exact h.exact
  · intro fault hfault
    exact h.faultless fault (by simpa using hfault)
  · rw [hall']
    exact hnodup
  · intro other hother
    rw [hall'] at hother
    rw [hseen]
    exact haccounted.unanswered other ((hmem other).mpr (.inr hother))
  · intro tx other hopen
    rw [hseen] at hopen
    rw [hall']
    rcases haccounted.complete tx other hopen with hflight | hunacked | hrelay
    · rcases (hmem other).mp hflight with rfl | hrest
      · exact .inr (.inl (by simp))
      · exact .inl hrest
    · exact .inr (.inl (List.mem_append_left _ hunacked))
    · exact .inr (.inr hrelay)

theorem Answering.moved (h : Answering cobs s seen) {flight : Flight cobs s}
    (haccounted : Accounted flight seen) (hids : ¬ Reuses ⟨s, seen, a⟩)
    (hmoved : ExchangeMoved flight a s' shown) : Answering cobs s' (seen ++ shown) := by
  cases hmoved with
  | moved hmoves =>
      obtain ⟨hcommander, hreceivers, hnext, flight', hall⟩ := hmoves
      rw [List.append_nil]
      refine ⟨h.kept.same hcommander hreceivers hnext, h.exact, h.faultless, flight', ?_, ?_, ?_⟩
      · rw [hall]
        exact haccounted.distinct
      · rw [hall]
        exact haccounted.unanswered
      · rw [hall]
        exact haccounted.complete
  | requested hlink flight' hall =>
      exact h.requested haccounted (fun tx hopen => hids ⟨_, _, tx, rfl, hopen⟩) hlink flight' hall
  | unacked hlink hall flight' hall' => exact h.unacked haccounted hlink hall flight' hall'
  | delivered hindex hlink hall flight' hall' =>
      exact h.delivered haccounted hindex hlink hall flight' hall'

theorem answering_step (h : Answering cobs s seen)
    (hids : ¬ Reuses ⟨s, seen, a⟩ ∧ ¬ RequestsFullGroups ⟨s, seen, a⟩)
    (hnext : s.next cobs a = some (s', shown)) : Answering cobs s' (seen ++ shown) := by
  obtain ⟨flight, haccounted⟩ := h.flight
  refine h.moved haccounted hids.1 (exchangeMoved_of_next flight ?_ ?_ hnext)
  · intro msg awaited haction hfull
    exact hids.2 ⟨msg, awaited, haction, hfull⟩
  · rintro b link out rfl hlink
    refine linkMoved_of_next h.kept ?_ hlink
    rintro ⟨msg, awaited, tx, rfl, hopen⟩
    exact hids.1 ⟨msg, awaited, tx, rfl, hopen⟩

end Steps

section Runs

variable (cobs : CobsCrate)
  {visits : List (Visit (Exchange smbus) (ExchangeAction smbus) (ExchangeSeen smbus))}
  {s : Exchange smbus} {seen : List (ExchangeSeen smbus)}

theorem answering_of_run (hrun : (Exchange.machine cobs smbus).Run visits s seen)
    (hids : ∀ visit ∈ visits, ¬ Reuses visit ∧ ¬ RequestsFullGroups visit) :
    Answering cobs s seen :=
  (hrun.invariant (Answering cobs) (fun visit => ¬ Reuses visit ∧ ¬ RequestsFullGroups visit)
    answering_start answering_step hids).1

end Runs

end AntRelay.Runtime
