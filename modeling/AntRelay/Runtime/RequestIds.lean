import AntRelay.Runtime.Relay
import AntRelay.Runtime.Replies

namespace AntRelay.Runtime
open AntRelay.Base AntRelay.Format

variable {crc : Checksum}

/-- Two commands get different ids: the ground's own if their headers differ,
the ones made here if the clock has moved on or the counter does not stand where
it stood. -/
def Origin.Apart : Origin → Origin → Prop
  | .ground header, .ground header' =>
      header.timestamp ≠ header'.timestamp ∨ header.seq ≠ header'.seq
  | .ground header, .frontend reading call =>
      header.timestamp ≠ .ofMillis reading ∨ header.seq.toNat ≠ call % 256
  | .frontend reading call, .ground header =>
      header.timestamp ≠ .ofMillis reading ∨ header.seq.toNat ≠ call % 256
  | .frontend reading call, .frontend reading' call' =>
      MissionEpoch.ofMillis reading ≠ .ofMillis reading' ∨ call % 256 ≠ call' % 256

theorem UniqueId.ne_iff (id id' : UniqueId) :
    id ≠ id' ↔ id.timestamp ≠ id'.timestamp ∨ id.seq ≠ id'.seq := by
  cases id
  cases id'
  simp only [ne_eq, UniqueId.mk.injEq, not_and_or]

theorem SeqService.toNat_handle (call : Nat) : (SeqService.handle call).toNat = call % 256 := by
  exact UInt8.toNat_ofNat'

theorem SeqService.eq_handle_iff (seq : UInt8) (call : Nat) :
    seq = SeqService.handle call ↔ seq.toNat = call % 256 := by
  rw [← UInt8.toNat_inj, SeqService.toNat_handle]

theorem Origin.apart_iff (origin origin' : Origin) :
    origin.Apart origin' ↔ origin.id ≠ origin'.id := by
  cases origin with
  | ground header =>
      cases origin' with
      | ground header' =>
          rw [UniqueId.ne_iff]
          rfl
      | frontend reading call =>
          rw [UniqueId.ne_iff]
          exact or_congr_right (not_congr (SeqService.eq_handle_iff header.seq call).symm)
  | frontend reading call =>
      cases origin' with
      | ground header =>
          rw [ne_comm, UniqueId.ne_iff]
          exact or_congr_right (not_congr (SeqService.eq_handle_iff header.seq call).symm)
      | frontend reading' call' =>
          have hseq := SeqService.eq_handle_iff (SeqService.handle call) call'
          rw [SeqService.toNat_handle] at hseq
          rw [UniqueId.ne_iff]
          exact or_congr_right (not_congr hseq.symm)

/-- Every command that has no answer yet is apart from the one requested. -/
def NewId (visit : Visit (Relay crc) (RelayAction crc) (RelaySeen crc)) : Prop :=
  ∀ index origin msg awaited, visit.action = .submit index →
    visit.state.pending[index]? = some (.request origin msg awaited) →
    ∀ tx earlier, .requested tx earlier ∈ visit.seen →
      (∀ packet resp, .link (.answered packet tx resp) ∉ visit.seen) → earlier.Apart origin

namespace Relay

variable {s s' : Relay crc} {a : RelayAction crc} {shown : List (RelaySeen crc)}

theorem submit_of_request {msg : Message crc} {awaited : Bool}
    (hnext : s.next a = some (s', shown))
    (haction : toLink.action s a = some (.request msg awaited)) :
    ∃ index origin, a = .submit index ∧
      s.pending[index]? = some (.request origin msg awaited) := by
  simp only [toLink] at haction
  cases relayMoved_of_next hnext with
  | submitted hindex hlink =>
      simp only [hindex] at haction
      cases haction
      exact ⟨_, _, rfl, hindex⟩
  | link harrival h =>
      cases haction
      cases harrival
  | _ => cases haction

theorem link_of_deliver {index : Nat} (hnext : s.next a = some (s', shown))
    (haction : toLink.action s a = some (.deliver index)) : a = .link (.deliver index) := by
  simp only [toLink] at haction
  cases relayMoved_of_next hnext with
  | submitted hindex hlink =>
      simp only [hindex] at haction
      cases haction
  | link harrival h =>
      cases haction
      rfl
  | _ => cases haction

end Relay

def Pending.Honest : Pending crc → Prop
  | .draft _ _ _ _ => True
  | .request origin msg _ => requestId msg = origin.id

theorem Pending.honest_ofSeen {item : Seen crc} {entry : Pending crc}
    (h : ofSeen item = some entry) : entry.Honest := by
  cases item with
  | handled mail => cases h
  | sent output =>
      cases output with
      | command dest event =>
          cases h
          trivial
      | forward msg =>
          cases h
          rfl

structure Identified (s : Relay crc) (seen : List (RelaySeen crc)) : Prop where
  kept : Kept s.link (seen.filterMap RelaySeen.link?)
  honest : ∀ entry ∈ s.pending, entry.Honest
  requested : ∀ tx origin, .requested tx origin ∈ seen →
    ∃ msg, .link (.registered tx msg) ∈ seen ∧ requestId msg = origin.id
  registered : ∀ tx msg, .link (.registered tx msg) ∈ seen →
    ∃ origin, .requested tx origin ∈ seen ∧ requestId msg = origin.id

/-- The request handled has the id of an unanswered one. -/
def Evicts (visit : Visit (Relay crc) (RelayAction crc) (RelaySeen crc)) : Prop :=
  ∃ index origin msg awaited tx, visit.action = .submit index ∧
    visit.state.pending[index]? = some (.request origin msg awaited) ∧
    Outstanding (visit.seen.filterMap RelaySeen.link?) tx (requestId msg)

theorem outstanding_iff {seen : List (RelaySeen crc)} {tx : Sender} {id : UniqueId} :
    Outstanding (seen.filterMap RelaySeen.link?) tx id ↔
      ∃ msg, .link (.registered tx msg) ∈ seen ∧ requestId msg = id ∧
        ∀ packet resp, .link (.answered packet tx resp) ∉ seen := by
  simp only [Outstanding, RelaySeen.mem_filterMap_link?]

namespace Identified

variable {s : Relay crc} {seen : List (RelaySeen crc)} {a : RelayAction crc}

theorem newId_iff (h : Identified s seen) : NewId ⟨s, seen, a⟩ ↔ ¬ Evicts ⟨s, seen, a⟩ := by
  constructor
  · rintro hnew ⟨index, origin, msg, awaited, tx, haction, hindex, hopen⟩
    obtain ⟨earlier, hregistered, hid, hunanswered⟩ := outstanding_iff.mp hopen
    obtain ⟨from', hrequested, hfrom⟩ := h.registered tx earlier hregistered
    have hapart := hnew index origin msg awaited haction hindex tx from' hrequested hunanswered
    have hhonest : requestId msg = origin.id := h.honest _ (List.mem_of_getElem? hindex)
    rw [Origin.apart_iff, ← hfrom, hid, hhonest] at hapart
    exact hapart rfl
  · intro hkeeps index origin msg awaited haction hindex tx earlier hrequested hunanswered
    rw [Origin.apart_iff]
    intro hsame
    obtain ⟨msg', hregistered, hid⟩ := h.requested tx earlier hrequested
    have hhonest : requestId msg = origin.id := h.honest _ (List.mem_of_getElem? hindex)
    apply hkeeps
    refine ⟨index, origin, msg, awaited, tx, haction, hindex, outstanding_iff.mpr ?_⟩
    exact ⟨msg', hregistered, by rw [hid, hsame, hhonest], hunanswered⟩

theorem vacant_iff (h : Identified s seen) :
    (∀ index origin msg awaited, a = .submit index →
      s.pending[index]? = some (.request origin msg awaited) →
      s.link.commander.requests.lookup (requestId msg) = none) ↔ ¬ Evicts ⟨s, seen, a⟩ := by
  constructor
  · rintro hvacant ⟨index, origin, msg, awaited, tx, haction, hindex, hopen⟩
    have hlookup := (h.kept.table (requestId msg) tx).mpr hopen
    rw [hvacant index origin msg awaited haction hindex] at hlookup
    cases hlookup
  · intro hkeeps index origin msg awaited haction hindex
    cases hlookup : s.link.commander.requests.lookup (requestId msg) with
    | none => rfl
    | some tx =>
        have hopen := (h.kept.table (requestId msg) tx).mp hlookup
        exact absurd ⟨index, origin, msg, awaited, tx, haction, hindex, hopen⟩ hkeeps

variable {s' : Relay crc} {shown : List (RelaySeen crc)}

theorem not_collides (hkeeps : ¬ Evicts ⟨s, seen, a⟩) (hnext : s.next a = some (s', shown))
    {b : LinkAction crc} (haction : Relay.toLink.action s a = some b) :
    ¬ Collides ⟨s.link, seen.filterMap RelaySeen.link?, b⟩ := by
  rintro ⟨msg, awaited, tx, hrequest, hopen⟩
  simp only at hrequest
  subst hrequest
  obtain ⟨index, origin, rfl, hindex⟩ := Relay.submit_of_request hnext haction
  exact hkeeps ⟨index, origin, msg, awaited, tx, rfl, hindex, hopen⟩

theorem linkMoved (h : Identified s seen) (hkeeps : ¬ Evicts ⟨s, seen, a⟩)
    (hnext : s.next a = some (s', shown)) {b : LinkAction crc}
    (haction : Relay.toLink.action s a = some b) :
    LinkMoved s.link b s'.link (shown.filterMap RelaySeen.link?) :=
  linkMoved_of_next h.kept (not_collides hkeeps hnext haction) (Relay.toLink.step hnext haction)

theorem linkMoved_of_mem (h : Identified s seen) (hkeeps : ¬ Evicts ⟨s, seen, a⟩)
    (hnext : s.next a = some (s', shown)) {item : LinkSeen crc} (hmem : .link item ∈ shown) :
    ∃ b out, Relay.toLink.action s a = some b ∧ LinkMoved s.link b s'.link out ∧ item ∈ out := by
  rw [← RelaySeen.mem_filterMap_link?] at hmem
  cases haction : Relay.toLink.action s a with
  | none =>
      have hquiet : shown.filterMap RelaySeen.link? = [] :=
        (Relay.toLink.stutter hnext haction).2
      rw [hquiet] at hmem
      cases hmem
  | some b => exact ⟨b, _, rfl, h.linkMoved hkeeps hnext haction, hmem⟩

theorem kept_next (h : Identified s seen) (hkeeps : ¬ Evicts ⟨s, seen, a⟩)
    (hnext : s.next a = some (s', shown)) :
    Kept s'.link ((seen ++ shown).filterMap RelaySeen.link?) := by
  rw [List.filterMap_append]
  cases haction : Relay.toLink.action s a with
  | none =>
      obtain ⟨hstate, hshown⟩ := Relay.toLink.stutter hnext haction
      have hlink : s'.link = s.link := hstate
      have hquiet : shown.filterMap RelaySeen.link? = [] := hshown
      rw [hlink, hquiet, List.append_nil]
      exact h.kept
  | some b =>
      exact h.kept.moved (not_collides hkeeps hnext haction) (h.linkMoved hkeeps hnext haction)

end Identified

theorem Pending.honest_command (reading : Int) (call : Nat) (dest : Destination) (event : Event)
    (awaited : Bool) : (request (.frontend reading call)
      (command crc (params reading call) dest event) awaited).Honest := rfl

theorem Pending.honest_set {pending : List (Pending crc)} (h : ∀ entry ∈ pending, entry.Honest)
    {index : Nat} {new : Pending crc} (hnew : new.Honest) :
    ∀ entry ∈ pending.set index new, entry.Honest := by
  intro entry hmem
  cases List.mem_or_eq_of_mem_set hmem with
  | inl hold => exact h entry hold
  | inr hsame =>
      rw [hsame]
      exact hnew

theorem RelayMoved.honest {s s' : Relay crc} {a : RelayAction crc} {shown : List (RelaySeen crc)}
    (hmoved : RelayMoved s a s' shown) (h : ∀ entry ∈ s.pending, entry.Honest) :
    ∀ entry ∈ s'.pending, entry.Honest := by
  intro entry hmem
  cases hmoved with
  | system =>
      cases List.mem_append.mp hmem with
      | inl hold => exact h entry hold
      | inr hnew =>
          obtain ⟨item, _, hitem⟩ := List.mem_filterMap.mp hnew
          exact Pending.honest_ofSeen hitem
  | retried =>
      cases List.mem_append.mp hmem with
      | inl hold => exact h entry hold
      | inr hnew =>
          rw [List.mem_singleton.mp hnew]
          trivial
  | clockRead => exact Pending.honest_set h (by trivial) entry hmem
  | seqTaken => exact Pending.honest_set h (by trivial) entry hmem
  | composed => exact Pending.honest_set h (Pending.honest_command _ _ _ _ _) entry hmem
  | submitted => exact h entry (List.mem_of_mem_eraseIdx hmem)
  | cancelled => exact h entry (List.mem_of_mem_eraseIdx hmem)
  | refused => exact h entry hmem
  | received => exact h entry hmem
  | link => exact h entry hmem

theorem Relay.requested_mem_of_submit {s s' : Relay crc} {shown : List (RelaySeen crc)}
    {index : Nat} {origin : Origin} {msg : Message crc} {awaited : Bool}
    (hnext : s.next (.submit index) = some (s', shown))
    (hindex : s.pending[index]? = some (.request origin msg awaited)) :
    .requested s.link.nextSender origin ∈ shown := by
  cases relayMoved_of_next hnext with
  | submitted hindex' _ =>
      rw [hindex] at hindex'
      cases hindex'
      exact List.mem_cons_self

theorem RelayMoved.requested_mem {s s' : Relay crc} {a : RelayAction crc}
    {shown : List (RelaySeen crc)} (hmoved : RelayMoved s a s' shown) {tx : Sender}
    {origin : Origin} (hmem : .requested tx origin ∈ shown) :
    ∃ index msg awaited, a = .submit index ∧
      s.pending[index]? = some (.request origin msg awaited) ∧ tx = s.link.nextSender := by
  cases hmoved with
  | submitted hindex hlink =>
      simp only [List.mem_cons, RelaySeen.requested.injEq, List.mem_map, reduceCtorEq, and_false,
        exists_false, or_false] at hmem
      obtain ⟨rfl, rfl⟩ := hmem
      exact ⟨_, _, _, rfl, hindex, rfl⟩
  | _ => simp at hmem

namespace Identified

variable {s s' : Relay crc} {a : RelayAction crc} {seen shown : List (RelaySeen crc)}

theorem moved (h : Identified s seen) (hkeeps : ¬ Evicts ⟨s, seen, a⟩)
    (hnext : s.next a = some (s', shown)) : Identified s' (seen ++ shown) where
  kept := h.kept_next hkeeps hnext
  honest := (relayMoved_of_next hnext).honest h.honest
  requested := by
    intro tx origin hmem
    cases List.mem_append.mp hmem with
    | inl hold =>
        obtain ⟨msg, hmsg, hid⟩ := h.requested tx origin hold
        exact ⟨msg, List.mem_append_left _ hmsg, hid⟩
    | inr hnew =>
        obtain ⟨index, msg, awaited, rfl, hindex, rfl⟩ :=
          (relayMoved_of_next hnext).requested_mem hnew
        have haction : Relay.toLink.action s (.submit index) = some (.request msg awaited) := by
          simp only [Relay.toLink, hindex]
        have hlink := h.linkMoved hkeeps hnext haction
        refine ⟨msg, List.mem_append_right _ ?_, h.honest _ (List.mem_of_getElem? hindex)⟩
        rw [← RelaySeen.mem_filterMap_link?]
        generalize shown.filterMap RelaySeen.link? = out at hlink ⊢
        generalize s'.link = link at hlink
        cases hlink with
        | requested => exact List.mem_cons_self
  registered := by
    intro tx msg hmem
    cases List.mem_append.mp hmem with
    | inl hold =>
        obtain ⟨origin, horigin, hid⟩ := h.registered tx msg hold
        exact ⟨origin, List.mem_append_left _ horigin, hid⟩
    | inr hnew =>
        obtain ⟨b, out, haction, hlink, hitem⟩ := h.linkMoved_of_mem hkeeps hnext hnew
        obtain ⟨awaited, rfl, rfl⟩ := hlink.registered_mem hitem
        obtain ⟨index, origin, rfl, hindex⟩ := Relay.submit_of_request hnext haction
        refine ⟨origin, List.mem_append_right _ ?_, h.honest _ (List.mem_of_getElem? hindex)⟩
        exact Relay.requested_mem_of_submit hnext hindex

theorem init : Identified (Relay.machine crc).init [] where
  kept := kept_init
  honest := by simp [Relay.machine, Relay.default]
  requested := by simp
  registered := by simp

end Identified

end AntRelay.Runtime
