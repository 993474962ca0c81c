import AntRelay.Runtime.Station

namespace AntRelay.Runtime
open AntRelay.Base AntRelay.Format

/-! A sender is closed once its receiver is gone. The receiver belongs to the
handler's future, which stays until the request is answered or evicted, so a
sender in the table is never closed, whether or not the requester still waits.
-/

variable {crc : Checksum}

/-- A request is made that nobody waits for, or its requester's timeout passes. -/
def GivesUp (tx : Sender) (visit : Visit (Link crc) (LinkAction crc) (LinkSeen crc)) : Prop :=
  (∃ msg, visit.action = .request msg false ∧ visit.state.nextSender = tx) ∨
    visit.action = .timeout tx

def Abandoned (visits : List (Visit (Link crc) (LinkAction crc) (LinkSeen crc)))
    (tx : Sender) : Prop :=
  ∃ visit ∈ visits, GivesUp tx visit

/-- The request has been answered, or evicted by another one. -/
def Resolved (seen : List (LinkSeen crc)) (tx : Sender) : Prop :=
  (∃ origin resp, .answered origin tx resp ∈ seen) ∨ .dropped tx ∈ seen

/-- Every entry belongs to a request whose requester still waits, so there are
no more entries than requesters that wait. -/
structure Collected (s : Link crc) : Prop where
  waiting : ∀ id tx, s.commander.requests.lookup id = some tx → tx ∈ s.requesters
  bounded : s.commander.requests.entries.length ≤ s.requesters.length

def TicksCollect (visits : List (Visit (Link crc) (LinkAction crc) (LinkSeen crc))) : Prop :=
  ∀ visit ∈ visits, visit.action = .collectGarbage →
    ∃ s' shown, visit.state.next visit.action = some (s', shown) ∧ Collected s'

/-- At every tick each request that has been given up is answered or evicted. -/
def ResolvedInTime (visits : List (Visit (Link crc) (LinkAction crc) (LinkSeen crc))) : Prop :=
  Historically (fun before visit => visit.action = .collectGarbage →
    ∀ tx, Abandoned before tx → Resolved visit.seen tx) visits

section History

variable {visits : List (Visit (Link crc) (LinkAction crc) (LinkSeen crc))}
  {seen shown : List (LinkSeen crc)}

@[simp] theorem abandoned_nil (tx : Sender) :
    ¬ Abandoned ([] : List (Visit (Link crc) (LinkAction crc) (LinkSeen crc))) tx := by
  rintro ⟨visit, hmem, _⟩
  cases hmem

theorem abandoned_concat {visit : Visit (Link crc) (LinkAction crc) (LinkSeen crc)} (tx : Sender) :
    Abandoned (visits ++ [visit]) tx ↔ Abandoned visits tx ∨ GivesUp tx visit := by
  simp only [Abandoned, List.mem_append, List.mem_singleton, or_and_right, exists_or,
    exists_eq_left]

@[simp] theorem resolved_nil (tx : Sender) : ¬ Resolved ([] : List (LinkSeen crc)) tx := by
  simp [Resolved]

theorem resolved_append (tx : Sender) :
    Resolved (seen ++ shown) tx ↔ Resolved seen tx ∨ Resolved shown tx := by
  unfold Resolved
  simp only [List.mem_append, exists_or]
  exact or_or_or_comm

end History

/-- Every sender in the table has its receiver and every receiver its sender;
a requester waits exactly while its request is open and not given up. -/
structure Held (visits : List (Visit (Link crc) (LinkAction crc) (LinkSeen crc)))
    (s : Link crc) (seen : List (LinkSeen crc)) : Prop where
  table : ∀ tx, tx ∈ s.receivers ↔ ∃ id, s.commander.requests.lookup id = some tx
  single : ∀ id id' tx, s.commander.requests.lookup id = some tx →
    s.commander.requests.lookup id' = some tx → id = id'
  receiversNodup : s.receivers.Nodup
  requestersNodup : s.requesters.Nodup
  waits : ∀ tx, tx ∈ s.requesters ↔ tx ∈ s.receivers ∧ ¬ Abandoned visits tx
  opened : ∀ tx, tx ∈ s.receivers ↔ tx < s.nextSender ∧ ¬ Resolved seen tx
  made : ∀ tx, Abandoned visits tx ∨ Resolved seen tx → tx < s.nextSender

theorem held_init : Held [] (Link.machine crc).init [] where
  table := by simp [Link.machine, Link.default, Commander.default]
  single := by simp [Link.machine, Link.default, Commander.default]
  receiversNodup := List.nodup_nil
  requestersNodup := List.nodup_nil
  waits := by simp [Link.machine, Link.default]
  opened := by simp [Link.machine, Link.default]
  made := by simp

section Held

variable {visits visits' : List (Visit (Link crc) (LinkAction crc) (LinkSeen crc))}
  {s s' : Link crc} {seen seen' : List (LinkSeen crc)}

theorem Held.same (h : Held visits s seen)
    (hlookup : ∀ id, s'.commander.requests.lookup id = s.commander.requests.lookup id)
    (hreceivers : s'.receivers = s.receivers) (hrequesters : s'.requesters = s.requesters)
    (hnext : s'.nextSender = s.nextSender)
    (hvisits : ∀ tx, Abandoned visits' tx ↔ Abandoned visits tx)
    (hseen : ∀ tx, Resolved seen' tx ↔ Resolved seen tx) : Held visits' s' seen' where
  table := by simpa only [hlookup, hreceivers] using h.table
  single := by simpa only [hlookup] using h.single
  receiversNodup := by simpa only [hreceivers] using h.receiversNodup
  requestersNodup := by simpa only [hrequesters] using h.requestersNodup
  waits := by simpa only [hreceivers, hrequesters, hvisits] using h.waits
  opened := by simpa only [hreceivers, hnext, hseen] using h.opened
  made := by simpa only [hnext, hvisits, hseen] using h.made

theorem Held.resolve (h : Held visits s seen) {id : UniqueId} {done : Sender}
    (hlookup : s.commander.requests.lookup id = some done)
    (hcommander : s'.commander = ⟨s.commander.requests.erase id⟩)
    (hreceivers : s'.receivers = s.receivers.erase done)
    (hrequesters : s'.requesters = s.requesters.erase done)
    (hnext : s'.nextSender = s.nextSender)
    (hvisits : ∀ tx, Abandoned visits' tx ↔ Abandoned visits tx)
    (hseen : ∀ tx, Resolved seen' tx ↔ Resolved seen tx ∨ tx = done) : Held visits' s' seen' := by
  have hopen : done ∈ s.receivers := (h.table done).mpr ⟨id, hlookup⟩
  have hreceiver (tx : Sender) : tx ∈ s'.receivers ↔ tx ≠ done ∧ tx ∈ s.receivers := by
    rw [hreceivers, h.receiversNodup.mem_erase_iff]
  exact
    { table := by
        intro tx
        rw [hreceiver, h.table, hcommander, exists_lookup_erase h.single hlookup]
      single := by
        intro id₁ id₂ tx h₁ h₂
        rw [hcommander] at h₁ h₂
        simp only [lookup_erase_eq_some] at h₁ h₂
        exact h.single _ _ _ h₁.2 h₂.2
      receiversNodup := by
        rw [hreceivers]
        exact h.receiversNodup.erase done
      requestersNodup := by
        rw [hrequesters]
        exact h.requestersNodup.erase done
      waits := by
        intro tx
        rw [hreceiver, hrequesters, h.requestersNodup.mem_erase_iff, h.waits, hvisits, and_assoc]
      opened := by
        intro tx
        rw [hreceiver, h.opened, hnext, hseen]
        tauto
      made := by
        intro tx hmade
        rw [hvisits, hseen] at hmade
        rw [hnext]
        rcases hmade with hgone | hold | rfl
        · exact h.made tx (.inl hgone)
        · exact h.made tx (.inr hold)
        · exact ((h.opened tx).mp hopen).1 }

theorem Held.register (h : Held visits s seen) {id : UniqueId} {awaited : Bool}
    (hfree : s.commander.requests.lookup id = none)
    (hlookup : ∀ id', s'.commander.requests.lookup id' =
      (s.commander.requests.insert id s.nextSender).lookup id')
    (hreceivers : s'.receivers = s.receivers ++ [s.nextSender])
    (hrequesters : s'.requesters =
      if awaited then s.requesters ++ [s.nextSender] else s.requesters)
    (hnext : s'.nextSender = s.nextSender + 1)
    (hvisits : ∀ tx, Abandoned visits' tx ↔
      Abandoned visits tx ∨ (awaited = false ∧ tx = s.nextSender))
    (hseen : ∀ tx, Resolved seen' tx ↔ Resolved seen tx) : Held visits' s' seen' := by
  have hunopened : s.nextSender ∉ s.receivers := by
    intro hmem
    exact Nat.lt_irrefl _ ((h.opened _).mp hmem).1
  have hnew : ¬ Abandoned visits s.nextSender ∧ ¬ Resolved seen s.nextSender := by
    constructor
    · intro hgone
      exact Nat.lt_irrefl _ (h.made _ (.inl hgone))
    · intro hdone
      exact Nat.lt_irrefl _ (h.made _ (.inr hdone))
  have hreceiver (tx : Sender) : tx ∈ s'.receivers ↔ tx ∈ s.receivers ∨ tx = s.nextSender := by
    rw [hreceivers, List.mem_append, List.mem_singleton]
  exact
    { table := by
        intro tx
        simp only [hreceiver, h.table, hlookup, exists_lookup_insert hfree]
      single := by
        intro id₁ id₂ tx h₁ h₂
        rw [hlookup] at h₁ h₂
        apply lookup_insert_single h.single _ id₁ id₂ tx h₁ h₂
        intro id' hid'
        exact hunopened ((h.table _).mpr ⟨id', hid'⟩)
      receiversNodup := by
        rw [hreceivers, ← List.concat_eq_append]
        exact h.receiversNodup.concat hunopened
      requestersNodup := by
        rw [hrequesters]
        split
        · rw [← List.concat_eq_append]
          exact h.requestersNodup.concat fun hmem => hunopened ((h.waits _).mp hmem).1
        · exact h.requestersNodup
      waits := by
        intro tx
        rw [hreceiver, hrequesters, hvisits]
        have hwaits := h.waits tx
        by_cases htx : tx = s.nextSender
        · subst htx
          cases awaited <;> simp_all
        · cases awaited <;> simp_all
      opened := by
        intro tx
        rw [hreceiver, hseen, h.opened, hnext]
        by_cases htx : tx = s.nextSender
        · subst htx
          simp [hnew.2]
        · simp only [htx, or_false, Nat.lt_succ_iff_lt_or_eq]
      made := by
        intro tx hmade
        rw [hvisits, hseen] at hmade
        rw [hnext]
        rcases hmade with (hgone | ⟨_, rfl⟩) | hdone
        · exact Nat.lt_succ_of_lt (h.made tx (.inl hgone))
        · exact Nat.lt_succ_self _
        · exact Nat.lt_succ_of_lt (h.made tx (.inr hdone)) }

theorem Held.giveUp (h : Held visits s seen) {gone : Sender} (hmem : gone ∈ s.requesters)
    (hvisits : ∀ tx, Abandoned visits' tx ↔ Abandoned visits tx ∨ tx = gone) :
    Held visits' { s with requesters := s.requesters.erase gone } seen := by
  refine ⟨h.table, h.single, h.receiversNodup, h.requestersNodup.erase gone, ?_, h.opened, ?_⟩
  · intro tx
    rw [h.requestersNodup.mem_erase_iff, h.waits, hvisits]
    tauto
  · intro tx hmade
    rw [hvisits] at hmade
    rcases hmade with (hgone | rfl) | hdone
    · exact h.made tx (.inl hgone)
    · exact ((h.opened tx).mp ((h.waits tx).mp hmem).1).1
    · exact h.made tx (.inr hdone)

end Held

inductive TableMoved (s : Link crc) :
    LinkAction crc → Link crc → List (LinkSeen crc) → Prop where
  | registered (msg : Message crc) (awaited : Bool)
      (hfree : s.commander.requests.lookup (requestId msg) = none) :
      TableMoved s (.request msg awaited)
        { s with
          commander := ⟨s.commander.requests.insert (requestId msg) s.nextSender⟩
          nextSender := s.nextSender + 1
          receivers := s.receivers ++ [s.nextSender]
          requesters := if awaited then s.requesters ++ [s.nextSender] else s.requesters }
        [.registered s.nextSender msg, .issued msg]
  | evicted (msg : Message crc) (awaited : Bool) {old : Sender}
      (hlookup : s.commander.requests.lookup (requestId msg) = some old) :
      TableMoved s (.request msg awaited)
        { s with
          commander := ⟨s.commander.requests.insert (requestId msg) s.nextSender⟩
          nextSender := s.nextSender + 1
          receivers := s.receivers.erase old ++ [s.nextSender]
          requesters :=
            if awaited then s.requesters.erase old ++ [s.nextSender] else s.requesters.erase old }
        [.registered s.nextSender msg, .dropped old, .issued msg]
  | gaveUp {tx : Sender} (hmem : tx ∈ s.requesters) :
      TableMoved s (.timeout tx) { s with requesters := s.requesters.erase tx } []
  | answered {index : Nat} {origin : Option Nat} {delivery : Delivery crc} {id : UniqueId}
      {tx : Sender} (hlookup : s.commander.requests.lookup id = some tx) :
      TableMoved s (.deliver index)
        { s with
          commander := ⟨s.commander.requests.erase id⟩
          receivers := s.receivers.erase tx
          requesters := s.requesters.erase tx
          inbox := s.inbox.eraseIdx index }
        [.handled origin delivery, .answered origin tx delivery.response]
  | other {a : LinkAction crc} {s' : Link crc} {shown : List (LinkSeen crc)}
      (hcommander : s'.commander = s.commander) (hreceivers : s'.receivers = s.receivers)
      (hrequesters : s'.requesters = s.requesters) (hnext : s'.nextSender = s.nextSender)
      (hgives : ∀ seen tx, ¬ GivesUp tx ⟨s, seen, a⟩) (hshown : ∀ tx, ¬ Resolved shown tx) :
      TableMoved s a s' shown

theorem collectGarbage_held {visits : List (Visit (Link crc) (LinkAction crc) (LinkSeen crc))}
    {s : Link crc} {seen : List (LinkSeen crc)} (h : Held visits s seen) :
    (s.commander.collectGarbage fun tx => !s.receivers.contains tx) = s.commander := by
  apply collectGarbage_eq
  intro id tx hlookup
  simp [(h.table tx).mpr ⟨id, hlookup⟩]

theorem tableMoved_of_next {visits : List (Visit (Link crc) (LinkAction crc) (LinkSeen crc))}
    {s s' : Link crc} {a : LinkAction crc} {seen shown : List (LinkSeen crc)}
    (hheld : Held visits s seen) (h : s.next a = some (s', shown)) : TableMoved s a s' shown := by
  have hlive (id : UniqueId) (tx : Sender) (hlookup : s.commander.requests.lookup id = some tx) :
      tx ∈ s.receivers := (hheld.table tx).mpr ⟨id, hlookup⟩
  by_cases hfree : ∀ msg awaited, a = .request msg awaited →
      s.commander.requests.lookup (requestId msg) = none
  · cases linkMoved_of_live hlive hfree h with
    | requested msg awaited => exact .registered msg awaited (hfree msg awaited rfl)
    | timedOut tx =>
        simp only [Link.next] at h
        split at h
        · rename_i hmem
          exact .gaveUp hmem
        · cases h
    | answered _ _ hlookup => exact .answered hlookup
    | ignored _ _ => exact .other rfl rfl rfl rfl (by simp [GivesUp]) (by simp [Resolved])
    | _ => exact .other rfl rfl rfl rfl (by simp [GivesUp]) (by simp)
  · simp only [not_forall] at hfree
    obtain ⟨msg, awaited, rfl, hsome⟩ := hfree
    obtain ⟨old, hlookup⟩ := Option.ne_none_iff_exists'.mp hsome
    have hmoved := TableMoved.evicted msg awaited hlookup
    have hopen := hlive _ _ hlookup
    unfold requestId at hlookup
    simp only [Link.next, Commander.handleRequest, hlookup, Option.toList_some, List.map_cons,
      List.map_nil, List.cons_append, List.nil_append, Link.effects, Link.effect, hopen,
      ↓reduceIte, Link.resolve, List.append_nil] at h
    cases h
    exact hmoved

theorem abandoned_request {visits : List (Visit (Link crc) (LinkAction crc) (LinkSeen crc))}
    {s : Link crc} {seen : List (LinkSeen crc)} (msg : Message crc) (awaited : Bool) (tx : Sender) :
    Abandoned (visits ++ [⟨s, seen, .request msg awaited⟩]) tx ↔
      Abandoned visits tx ∨ (awaited = false ∧ tx = s.nextSender) := by
  rw [abandoned_concat]
  simp only [GivesUp, LinkAction.request.injEq, reduceCtorEq, or_false]
  constructor
  · rintro (hold | ⟨_, ⟨_, hawaited⟩, hsame⟩)
    · exact .inl hold
    · exact .inr ⟨hawaited, hsame.symm⟩
  · rintro (hold | ⟨hawaited, hsame⟩)
    · exact .inl hold
    · exact .inr ⟨msg, ⟨rfl, hawaited⟩, hsame.symm⟩

theorem Held.moved {visits : List (Visit (Link crc) (LinkAction crc) (LinkSeen crc))}
    {s s' : Link crc} {a : LinkAction crc} {seen shown : List (LinkSeen crc)}
    (h : Held visits s seen) (hmoved : TableMoved s a s' shown) :
    Held (visits ++ [⟨s, seen, a⟩]) s' (seen ++ shown) := by
  cases hmoved with
  | registered msg awaited hfree =>
      apply h.register hfree (fun _ => rfl) rfl rfl rfl (abandoned_request msg awaited)
      intro tx
      simp [Resolved]
  | @evicted msg awaited old hlookup =>
      -- the old request is resolved first, then the new one finds its id free
      let between : Link crc :=
        { s with
          commander := ⟨s.commander.requests.erase (requestId msg)⟩
          receivers := s.receivers.erase old
          requesters := s.requesters.erase old }
      have hbetween : Held visits between (seen ++ [.dropped old]) := by
        refine h.resolve hlookup rfl rfl rfl rfl (fun _ => Iff.rfl) ?_
        intro tx
        rw [resolved_append]
        simp [Resolved]
      refine hbetween.register (AList.lookup_erase _ _) ?_ rfl rfl rfl
        (abandoned_request msg awaited) ?_
      · intro id
        apply Option.ext
        intro tx
        rw [lookup_insert_eq_some, lookup_insert_eq_some]
        simp only [between, lookup_erase_eq_some]
        tauto
      · intro tx
        simp [Resolved]
  | gaveUp hmem =>
      rw [List.append_nil]
      apply h.giveUp hmem
      intro tx
      rw [abandoned_concat]
      simp [GivesUp, eq_comm]
  | answered hlookup =>
      refine h.resolve hlookup rfl rfl rfl rfl ?_ ?_
      · intro tx
        rw [abandoned_concat]
        simp [GivesUp]
      · intro tx
        rw [resolved_append]
        simp [Resolved]
  | other hcommander hreceivers hrequesters hnext hgives hshown =>
      apply h.same (fun id => by rw [hcommander]) hreceivers hrequesters hnext
      · intro tx
        rw [abandoned_concat, or_iff_left (hgives seen tx)]
      · intro tx
        rw [resolved_append, or_iff_left (hshown tx)]

theorem held_of_run {visits : List (Visit (Link crc) (LinkAction crc) (LinkSeen crc))}
    {s : Link crc} {seen : List (LinkSeen crc)} (hrun : (Link.machine crc).Run visits s seen) :
    Held visits s seen :=
  hrun.recorded Held held_init fun h hnext => h.moved (tableMoved_of_next h hnext)

section Ticks

variable {visits : List (Visit (Link crc) (LinkAction crc) (LinkSeen crc))} {s : Link crc}
  {seen : List (LinkSeen crc)}

theorem Held.senders_nodup (h : Held visits s seen) :
    (s.commander.requests.entries.map (·.2)).Nodup := by
  apply List.Nodup.map_on
  · intro first hfirst second hsecond hsame
    have hlookup := AList.mem_lookup_iff.mpr hfirst
    have hlookup' := AList.mem_lookup_iff.mpr hsecond
    rw [← hsame] at hlookup'
    have hkey := h.single _ _ _ hlookup hlookup'
    exact Sigma.ext hkey (heq_of_eq hsame)
  · exact s.commander.requests.nodupKeys.nodup

/-- Whether all entries are waited for is decided by who has given up. -/
theorem Held.collected_iff (h : Held visits s seen) :
    Collected s ↔ ∀ tx, Abandoned visits tx → Resolved seen tx := by
  constructor
  · intro hcollected tx hgone
    by_contra hunresolved
    have hopen := (h.opened tx).mpr ⟨h.made tx (.inl hgone), hunresolved⟩
    obtain ⟨id, hlookup⟩ := (h.table tx).mp hopen
    exact ((h.waits tx).mp (hcollected.waiting id tx hlookup)).2 hgone
  · intro hresolved
    have hwaiting (id : UniqueId) (tx : Sender)
        (hlookup : s.commander.requests.lookup id = some tx) : tx ∈ s.requesters := by
      have hopen := (h.table tx).mpr ⟨id, hlookup⟩
      rw [h.waits]
      exact ⟨hopen, fun hgone => ((h.opened tx).mp hopen).2 (hresolved tx hgone)⟩
    refine ⟨hwaiting, ?_⟩
    rw [← List.length_map (·.2)]
    apply (List.subperm_of_subset h.senders_nodup ?_).length_le
    intro tx hmem
    obtain ⟨entry, hentry, rfl⟩ := List.mem_map.mp hmem
    exact hwaiting entry.1 entry.2 (AList.mem_lookup_iff.mpr hentry)

theorem Held.resolved_of_waiting (h : Held visits s seen) (hwaiting : s.receivers ⊆ s.requesters)
    (tx : Sender) (hgone : Abandoned visits tx) : Resolved seen tx := by
  by_contra hopen
  have hreceiver := (h.opened tx).mpr ⟨h.made tx (.inl hgone), hopen⟩
  exact ((h.waits tx).mp (hwaiting hreceiver)).2 hgone

theorem Held.tick (h : Held visits s seen) :
    (Link.machine crc).next s .collectGarbage = some (s, []) := by
  simp only [Link.machine, Link.next, collectGarbage_held h]

end Ticks

/-- In every run: after each tick every entry has a requester that waits, exactly
when at each tick every request that has been given up is answered or evicted
already. -/
theorem ticksCollect_iff {visits : List (Visit (Link crc) (LinkAction crc) (LinkSeen crc))}
    {s : Link crc} {seen : List (LinkSeen crc)} (hrun : (Link.machine crc).Run visits s seen) :
    TicksCollect visits ↔ ResolvedInTime visits := by
  constructor
  · intro hticks before visit after hsplit haction
    have hheld := held_of_run (hrun.until before visit after hsplit)
    obtain ⟨s', shown, hnext, hcollected⟩ := hticks visit (by simp [hsplit]) haction
    rw [haction] at hnext
    cases hheld.tick.symm.trans hnext
    exact hheld.collected_iff.mp hcollected
  · intro htime visit hvisit haction
    obtain ⟨before, after, hsplit⟩ := List.append_of_mem hvisit
    have hheld := held_of_run (hrun.until before visit after hsplit)
    rw [haction]
    exact ⟨visit.state, [], hheld.tick,
      hheld.collected_iff.mpr (htime before visit after hsplit haction)⟩

def numbered (seq : UInt8) (dest : Destination) (event : Event) :
    Message (StandardCRC crc8Smbus) :=
  command _ ⟨⟨0⟩, seq⟩ dest event

set_option maxRecDepth 100000 in
/-- A tick while a requester waits, once a ping that nobody waits for is answered. -/
theorem ticksCollect_waiting : ∃ visits s seen,
    (Link.machine (StandardCRC crc8Smbus)).Run visits s seen ∧ s.requesters = [0] ∧
      s.commander.requests.entries.length = 1 ∧ Abandoned visits 1 ∧ Resolved seen 1 ∧
      TicksCollect visits := by
  have hbefore := Machine.Run.start.follow
    (show (Link.machine _).follow [] _ [] [.request (numbered 0 .ant .antStart) true,
      .request (numbered 1 .centralStation .csPing) false,
      .downPacket (wire (Station.ackOf (numbered 1 .centralStation .csPing))), .deliver 0] =
        some (_, _, _) from rfl)
  have hheld := held_of_run hbefore
  have hresolved := hheld.resolved_of_waiting fun _ hmem => hmem
  have hrun := hbefore.follow (show (Link.machine _).follow _ _ _ [.collectGarbage] =
    some (_, _, _) from rfl)
  have hticks := (ticksCollect_iff hrun).mpr (by
    refine ((((Historically.nil.concat ?_).concat ?_).concat ?_).concat ?_).concat ?_
    · intro haction
      cases haction
    · intro haction
      cases haction
    · intro haction
      cases haction
    · intro haction
      cases haction
    · exact fun _ => hresolved)
  refine ⟨_, _, _, hrun, rfl, rfl, ?_, (resolved_append 1).mpr (.inl (hresolved 1 ?_)), hticks⟩
  · refine (abandoned_concat 1).mpr (.inl ((abandoned_concat 1).mpr (.inl ?_)))
    exact (abandoned_concat 1).mpr (.inl ((abandoned_concat 1).mpr (.inr (.inl ⟨_, rfl, rfl⟩))))
  · refine (abandoned_concat 1).mpr (.inl ((abandoned_concat 1).mpr (.inl ?_)))
    exact (abandoned_concat 1).mpr (.inr (.inl ⟨_, rfl, rfl⟩))

/-- A ping that nobody waits for and a command whose requester has timed out stay
in the table. -/
theorem abandoned_not_collected : ∃ visits s seen,
    (Link.machine (StandardCRC crc8Smbus)).Run visits s seen ∧ s.requesters = [] ∧
      s.commander.requests.entries.length = 2 ∧ ¬ TicksCollect visits := by
  have hrun := Machine.Run.start.follow
    (show (Link.machine _).follow [] _ [] [.request (numbered 0 .centralStation .csPing) false,
      .request (numbered 1 .ant .antStart) true, .timeout 1, .collectGarbage] =
        some (_, _, _) from rfl)
  refine ⟨_, _, _, hrun, rfl, rfl, ?_⟩
  intro hticks
  obtain ⟨s', shown, hnext, hcollected⟩ := hticks _ List.mem_concat_self rfl
  cases hnext
  exact absurd hcollected.bounded (by decide)

end AntRelay.Runtime
