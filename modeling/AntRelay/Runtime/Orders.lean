import AntRelay.Runtime.GroundPath

namespace AntRelay.Runtime
open AntRelay.Base AntRelay.Codec AntRelay.Format

variable {crc : Checksum}

/-- What commands are made of: a command that was sent, the time the clock gave and
the number that was drawn. -/
structure Sources where
  sent : Destination → Event → Prop
  read : Int → Prop
  drawn : Nat → Prop

def Sources.Made (src : Sources) (msg : Message crc) : Prop :=
  ∃ reading call dest event, msg = command crc (params reading call) dest event ∧
    src.sent dest event ∧ src.read reading ∧ src.drawn call

structure Sources.Within (src more : Sources) : Prop where
  sent : ∀ dest event, src.sent dest event → more.sent dest event
  read : ∀ reading, src.read reading → more.read reading
  drawn : ∀ call, src.drawn call → more.drawn call

theorem Sources.Made.mono {src more : Sources} {msg : Message crc} (h : src.Made msg)
    (hwithin : src.Within more) : more.Made msg := by
  obtain ⟨reading, call, dest, event, hmsg, hsent, hread, hdrawn⟩ := h
  exact ⟨reading, call, dest, event, hmsg, hwithin.sent dest event hsent,
    hwithin.read reading hread, hwithin.drawn call hdrawn⟩

/-- What is known of a draft by now, or the command that was made of it. -/
def Pending.OrderedBy (src : Sources) : Pending crc → Prop
  | .draft dest event reading call =>
      src.sent dest event ∧ (∀ time, reading = some time → src.read time) ∧
        ∀ number, call = some number → src.drawn number
  | .request (.ground _) _ _ => True
  | .request (.frontend _ _) msg _ => src.Made msg

structure Relay.OrderedBy (src : Sources) (s : Relay crc) : Prop where
  pending : ∀ entry ∈ s.pending, entry.OrderedBy src
  tasks : ∀ entry ∈ s.system.ctx.tasks, ∀ dest event,
    entry.2.retries = some (dest, event) → src.sent dest event

section Relay

variable {src more : Sources} {s s' : Relay crc} {a : RelayAction crc}
  {shown : List (RelaySeen crc)}

theorem Pending.OrderedBy.mono {entry : Pending crc} (h : entry.OrderedBy src)
    (hwithin : src.Within more) : entry.OrderedBy more := by
  cases entry with
  | draft dest event reading call =>
      exact ⟨hwithin.sent dest event h.1, fun time htime => hwithin.read time (h.2.1 time htime),
        fun number hnumber => hwithin.drawn number (h.2.2 number hnumber)⟩
  | request origin msg awaited =>
      cases origin with
      | ground header => trivial
      | frontend reading call => exact Sources.Made.mono h hwithin

theorem Relay.OrderedBy.mono (h : s.OrderedBy src) (hwithin : src.Within more) :
    s.OrderedBy more where
  pending := fun entry hmem => (h.pending entry hmem).mono hwithin
  tasks := fun entry hmem dest event hretries =>
    hwithin.sent dest event (h.tasks entry hmem _ _ hretries)

theorem Moved.starts {s s' : System crc} {a : Action crc} {shown : List (Seen crc)}
    (h : Moved s a s' shown) {entry : SpawnHandle × Task} (hmem : entry ∈ s'.ctx.tasks) :
    entry ∈ s.ctx.tasks ∨ ∀ dest event, entry.2.retries = some (dest, event) →
      .sent (.command dest event) ∈ shown := by
  cases h with
  | stepped _ _ hstep =>
      cases hstep with
      | bleDisconnect => cases hmem
      | powerSupplied _ =>
          cases List.mem_singleton.mp hmem
          exact .inr (by simp [Task.retries])
      | garageOpen _ =>
          cases List.mem_singleton.mp hmem
          refine .inr ?_
          rintro dest event hretries
          cases hretries
          simp
      | bleConnect _ =>
          cases List.mem_singleton.mp hmem
          exact .inr (by simp [Task.retries])
      | roverStop _ =>
          cases List.mem_singleton.mp hmem
          exact .inr (by simp [Task.retries])
      | roverMove _ =>
          cases List.mem_singleton.mp hmem
          refine .inr ?_
          rintro dest event hretries
          cases hretries
          simp
      | _ => exact .inl hmem
  | fired _ hfired =>
      cases hfired with
      | ping _ => exact .inl hmem
      | antStartAgain _ => exact .inl hmem
      | antStart _ =>
          cases List.mem_singleton.mp hmem
          exact .inr (by simp [Task.retries])
      | _ => cases hmem
  | _ => exact .inl hmem

theorem Relay.OrderedBy.system (h : s.OrderedBy src) (hsound : Sound s.system) {b : Action crc}
    {system : System crc} {items : List (Seen crc)} (hnext : s.system.next b = some (system, items))
    (hsent : ∀ dest event, .sent (.command dest event) ∈ items → src.sent dest event) :
    Relay.OrderedBy src { s with
      system := system
      pending := s.pending ++ items.filterMap Pending.ofSeen } where
  pending := by
    intro entry hmem
    rcases List.mem_append.mp hmem with hold | hnew
    · exact h.pending entry hold
    · obtain ⟨item, hitem, hentry⟩ := List.mem_filterMap.mp hnew
      cases item with
      | handled mail => cases hentry
      | sent output =>
          cases output with
          | command dest event =>
              cases hentry
              exact ⟨hsent dest event hitem, by simp, by simp⟩
          | forward msg =>
              cases hentry
              trivial
  tasks := by
    intro entry hmem dest event hretries
    rcases (moved_of_next hsound.tracked hnext).starts hmem with hold | hnew
    · exact h.tasks entry hold dest event hretries
    · exact hsent dest event (hnew dest event hretries)

theorem Relay.OrderedBy.set (h : s.OrderedBy src) (index : Nat) {entry : Pending crc}
    (hentry : entry.OrderedBy src) :
    ∀ other ∈ s.pending.set index entry, other.OrderedBy src := by
  intro other hmem
  rcases List.mem_or_eq_of_mem_set hmem with hold | rfl
  · exact h.pending other hold
  · exact hentry

theorem Relay.OrderedBy.next (h : s.OrderedBy src) (hsound : Sound s.system)
    (hnext : s.next a = some (s', shown))
    (hsent : ∀ dest event, .system (.sent (.command dest event)) ∈ shown → src.sent dest event)
    (hread : ∀ index reading, a = .readClock index reading → src.read reading)
    (hdrawn : ∀ call, call < s'.calls → src.drawn call) :
    s'.OrderedBy src ∧ ∀ reading call msg, (.frontend reading call, msg) ∈ s.requests a →
      src.Made msg := by
  cases relayMoved_of_next hnext with
  | system hsystem =>
      refine ⟨h.system hsound hsystem ?_, by simp [Relay.requests]⟩
      intro dest event hmem
      exact hsent dest event (List.mem_map_of_mem hmem)
  | refused _ _ => exact ⟨⟨h.pending, h.tasks⟩, by simp [Relay.requests]⟩
  | received _ _ hsystem =>
      cases hsystem
      exact ⟨⟨h.pending, h.tasks⟩, by simp [Relay.requests]⟩
  | @retried handle dest event =>
      obtain ⟨⟨dest', event'⟩, hlive, hresult⟩ := Option.map_eq_some_iff.mp hnext
      obtain ⟨task, htask, hretries⟩ := Option.bind_eq_some_iff.mp hlive
      simp only [Prod.mk.injEq, Relay.mk.injEq, List.append_cancel_left_eq, List.cons.injEq,
        Pending.draft.injEq, and_true, true_and] at hresult
      obtain ⟨rfl, rfl⟩ := hresult
      obtain ⟨before, after, htasks, _⟩ := List.lookup_eq_some_iff.mp htask
      have hordered := h.tasks (handle, task) (by rw [htasks]; simp) dest' event' hretries
      refine ⟨⟨?_, h.tasks⟩, by simp [Relay.requests]⟩
      intro entry hmem
      rcases List.mem_append.mp hmem with hold | hnew
      · exact h.pending entry hold
      · cases List.mem_singleton.mp hnew
        exact ⟨hordered, by simp, by simp⟩
  | @clockRead index reading dest event call hpending =>
      obtain ⟨hordered, _, hcall⟩ := h.pending _ (List.mem_of_getElem? hpending)
      refine ⟨⟨h.set index ⟨hordered, ?_, hcall⟩, h.tasks⟩, by simp [Relay.requests]⟩
      intro time htime
      cases htime
      exact hread index reading rfl
  | @seqTaken index dest event reading hpending =>
      obtain ⟨hordered, hreading, _⟩ := h.pending _ (List.mem_of_getElem? hpending)
      refine ⟨⟨h.set index ⟨hordered, hreading, ?_⟩, h.tasks⟩, by simp [Relay.requests]⟩
      intro number hnumber
      cases hnumber
      exact hdrawn s.calls (Nat.lt_succ_self _)
  | @composed index dest event reading call hpending =>
      obtain ⟨hordered, hreading, hcall⟩ := h.pending _ (List.mem_of_getElem? hpending)
      have hmade : src.Made (command crc (params reading call) dest event) :=
        ⟨reading, call, dest, event, rfl, hordered, hreading reading rfl, hcall call rfl⟩
      exact ⟨⟨h.set index hmade, h.tasks⟩, by simp [Relay.requests]⟩
  | @submitted index origin msg awaited _ _ hpending _ =>
      refine ⟨⟨fun entry hmem => h.pending entry (List.mem_of_mem_eraseIdx hmem), h.tasks⟩, ?_⟩
      intro reading call msg' hmem
      simp only [Relay.requests, hpending, List.mem_singleton, Prod.mk.injEq] at hmem
      obtain ⟨rfl, rfl⟩ := hmem
      have hordered := h.pending _ (List.mem_of_getElem? hpending)
      exact hordered
  | cancelled =>
      exact ⟨⟨fun entry hmem => h.pending entry (List.mem_of_mem_eraseIdx hmem), h.tasks⟩,
        by simp [Relay.requests]⟩
  | link _ _ => exact ⟨⟨h.pending, h.tasks⟩, by simp [Relay.requests]⟩

end Relay

variable {cobs : CobsCrate}
  {visits : List (Visit (GroundPath crc) (GroundAction crc) (GroundSeen crc))}
  {s s' : GroundPath crc} {seen shown : List (GroundSeen crc)}

def HasOrdered (seen : List (GroundSeen crc)) (dest : Destination) (event : Event) : Prop :=
  .relay (.system (.sent (.command dest event))) ∈ seen

def HasRead (visits : List (Visit (GroundPath crc) (GroundAction crc) (GroundSeen crc)))
    (reading : Int) : Prop :=
  ∃ visit ∈ visits, ∃ index, visit.action = .relay (.readClock index reading)

def sourcesOf (visits : List (Visit (GroundPath crc) (GroundAction crc) (GroundSeen crc)))
    (s : GroundPath crc) (seen : List (GroundSeen crc)) : Sources where
  sent := HasOrdered seen
  read := HasRead visits
  drawn := (· < s.relay.calls)

structure Ordering (visits : List (Visit (GroundPath crc) (GroundAction crc) (GroundSeen crc)))
    (s : GroundPath crc) (seen : List (GroundSeen crc)) : Prop where
  sound : Sound s.relay.system
  relay : s.relay.OrderedBy (sourcesOf visits s seen)
  asked : ∀ reading call msg, .requested (.frontend reading call) msg ∈ seen →
    (sourcesOf visits s seen).Made msg

section Ordering

theorem sourcesOf_within (hcalls : s.relay.calls ≤ s'.relay.calls)
    (visit : Visit (GroundPath crc) (GroundAction crc) (GroundSeen crc)) :
    (sourcesOf visits s seen).Within (sourcesOf (visits ++ [visit]) s' (seen ++ shown)) where
  sent := fun _ _ hsent => List.mem_append_left _ hsent
  read := by
    rintro reading ⟨other, hmem, hread⟩
    exact ⟨other, List.mem_append_left _ hmem, hread⟩
  drawn := fun _ hdrawn => Nat.lt_of_lt_of_le hdrawn hcalls

theorem ordering_init : Ordering [] (GroundPath.machine crc cobs).init [] where
  sound := sound_init
  relay := ⟨by simp [GroundPath.machine, GroundPath.default, Relay.default],
    by simp [GroundPath.machine, GroundPath.default, Relay.default, Context.default]⟩
  asked := by simp

theorem Ordering.aside (h : Ordering visits s seen)
    {visit : Visit (GroundPath crc) (GroundAction crc) (GroundSeen crc)}
    (hrelay : s'.relay = s.relay) (hasked : ∀ origin msg, .requested origin msg ∉ shown) :
    Ordering (visits ++ [visit]) s' (seen ++ shown) := by
  have hwithin : (sourcesOf visits s seen).Within
      (sourcesOf (visits ++ [visit]) s' (seen ++ shown)) :=
    sourcesOf_within (by rw [hrelay]) visit
  refine ⟨by rw [hrelay]; exact h.sound, by rw [hrelay]; exact h.relay.mono hwithin, ?_⟩
  intro reading call msg hmem
  have hold := (List.mem_append.mp hmem).resolve_right (hasked _ _)
  exact (h.asked reading call msg hold).mono hwithin

theorem calls_le {s s' : Relay crc} {a : RelayAction crc} {shown : List (RelaySeen crc)}
    (hnext : s.next a = some (s', shown)) : s.calls ≤ s'.calls := by
  cases relayMoved_of_next hnext with
  | seqTaken hpending => exact Nat.le_succ _
  | _ => exact Nat.le_refl _

theorem Ordering.moves (h : Ordering visits s seen) {a : RelayAction crc} {relay : Relay crc}
    {items : List (RelaySeen crc)} (hnext : s.relay.next a = some (relay, items))
    (hsame : s'.relay = relay)
    {visit : Visit (GroundPath crc) (GroundAction crc) (GroundSeen crc)}
    (hvisit : ∀ index reading, a = .readClock index reading →
      visit.action = .relay (.readClock index reading)) :
    Ordering (visits ++ [visit]) s'
      (seen ++ ((s.relay.requests a).map .ofRequest ++ items.map .relay)) := by
  subst hsame
  have hwithin : (sourcesOf visits s seen).Within (sourcesOf (visits ++ [visit]) s'
      (seen ++ ((s.relay.requests a).map .ofRequest ++ items.map .relay))) :=
    sourcesOf_within (calls_le hnext) visit
  obtain ⟨hrelay, hrequests⟩ := (h.relay.mono hwithin).next h.sound hnext
    (fun dest event hmem =>
      List.mem_append_right _ (List.mem_append_right _ (List.mem_map_of_mem hmem)))
    (fun index reading hread => ⟨visit, by simp, index, hvisit index reading hread⟩)
    (fun call hlt => hlt)
  refine ⟨relay_sound h.sound hnext, hrelay, ?_⟩
  intro reading call msg hmem
  rcases List.mem_append.mp hmem with hold | hnew
  · exact (h.asked reading call msg hold).mono hwithin
  · rcases List.mem_append.mp hnew with hrequest | hitem
    · obtain ⟨⟨origin, msg'⟩, hasked, heq⟩ := List.mem_map.mp hrequest
      cases heq
      exact hrequests reading call _ hasked
    · obtain ⟨_, _, heq⟩ := List.mem_map.mp hitem
      cases heq

theorem Ordering.next (h : Ordering visits s seen) {a : GroundAction crc}
    (hnext : s.next cobs a = some (s', shown)) :
    Ordering (visits ++ [⟨s, seen, a⟩]) s' (seen ++ shown) := by
  cases a with
  | uplink a =>
      obtain ⟨⟨uplink, items⟩, _, hresult⟩ := Option.map_eq_some_iff.mp hnext
      cases hresult
      exact h.aside rfl (by simp)
  | upCommand =>
      simp only [GroundPath.next] at hnext
      split at hnext
      · cases hnext
      · obtain ⟨⟨relay, items⟩, hrelay, hresult⟩ := Option.map_eq_some_iff.mp hnext
        cases hresult
        exact h.moves hrelay rfl (by simp)
  | relay a =>
      simp only [GroundPath.next] at hnext
      split at hnext
      · cases hnext
      · obtain ⟨⟨relay, items⟩, hrelay, hresult⟩ := Option.map_eq_some_iff.mp hnext
        cases hresult
        exact h.moves hrelay rfl fun index reading hread => by rw [hread]
  | pack =>
      simp only [GroundPath.next] at hnext
      split at hnext
      · cases hnext
      · split at hnext
        · cases hnext
          exact h.aside rfl (by simp)
        · split at hnext
          · cases hnext
            exact h.aside rfl (by simp)
          · cases hnext
            exact h.aside rfl (by simp)
  | port a =>
      simp only [GroundPath.next] at hnext
      split at hnext
      · cases hnext
      · obtain ⟨⟨port, items⟩, _, hresult⟩ := Option.map_eq_some_iff.mp hnext
        cases hresult
        exact h.aside rfl (by simp)

theorem ordering_of_run (hrun : (GroundPath.machine crc cobs).Run visits s seen) :
    Ordering visits s seen := by
  induction hrun with
  | start => exact ordering_init
  | step _ hnext ih => exact ih.next hnext

/-- Every packet that the writer of a port is given came from the ground in a
datagram as it is, or is a command that the state machine has sent, with a time
that the relay has read off its clock and the number of a draw that it has made. -/
theorem port_packets_explained
    (hrun : (GroundPath.machine crc cobs).Run visits s seen) (n : Nat) (pkt : Bytes)
    (hsent : pkt ∈ sentTo n (seen.filterMap GroundSeen.port?)) :
    (∃ datagram, .uplink (.received datagram) ∈ seen ∧
        pkt = datagram.take UplinkActor.bufferSize) ∨
      ∃ reading call dest event, pkt = wire (command crc (params reading call) dest event) ∧
        .relay (.system (.sent (.command dest event))) ∈ seen ∧ HasRead visits reading ∧
        call < s.relay.calls := by
  obtain ⟨_, hport⟩ := port_run hrun
  have hdelivered := delivered_of_run hport
  have hopened : n < s.port.opened := by
    by_contra hle
    rw [(hdelivered.future n (Nat.not_lt.mp hle)).1] at hsent
    cases hsent
  have hmem : pkt ∈ groundDatagrams seen ++ (ownOf (requestsOf seen)).map wire := by
    rw [(datagrams_perm hrun).mem_iff]
    have hall : pkt ∈ sentToPorts s seen :=
      List.mem_flatMap.mpr ⟨n, List.mem_range.mpr hopened, hsent⟩
    simp [hall]
  rcases List.mem_append.mp hmem with hground | hown
  · obtain ⟨hpacket, _⟩ := List.mem_filter.mp hground
    obtain ⟨item, hitem, hpkt⟩ := List.mem_filterMap.mp hpacket
    cases item with
    | uplink item =>
        cases item with
        | received datagram =>
            cases hpkt
            exact .inl ⟨datagram, hitem, rfl⟩
        | _ => cases hpkt
    | _ => cases hpkt
  · obtain ⟨msg, hrequest, rfl⟩ := List.mem_map.mp hown
    obtain ⟨⟨origin, msg'⟩, hrequested, horigin⟩ := List.mem_filterMap.mp hrequest
    cases origin with
    | ground header => cases horigin
    | frontend reading call =>
        cases horigin
        obtain ⟨item, hitem, heq⟩ := List.mem_filterMap.mp hrequested
        cases item with
        | requested origin msg' =>
            cases heq
            obtain ⟨reading', call', dest, event, rfl, hordered⟩ :=
              (ordering_of_run hrun).asked reading call _ hitem
            exact .inr ⟨reading', call', dest, event, rfl, hordered⟩
        | _ => cases heq

set_option maxRecDepth 100000 in
theorem port_packets_explained_groundPings : ∃ visits s seen,
    (GroundPath.machine (StandardCRC crc8Smbus) .reference).Run visits s seen ∧
      sentTo 0 (seen.filterMap GroundSeen.port?) =
        [wire (command (StandardCRC crc8Smbus) ⟨⟨0⟩, 0⟩ .ant .antPing)] ∧
      ∀ pkt ∈ sentTo 0 (seen.filterMap GroundSeen.port?),
        (∃ datagram, .uplink (.received datagram) ∈ seen ∧
          pkt = datagram.take UplinkActor.bufferSize) ∨
        ∃ reading call dest event,
          pkt = wire (command (StandardCRC crc8Smbus) (params reading call) dest event) ∧
            .relay (.system (.sent (.command dest event))) ∈ seen ∧ HasRead visits reading ∧
            call < s.relay.calls := by
  have hrun := Machine.Run.start.follow
    (show (GroundPath.machine (StandardCRC crc8Smbus) .reference).follow [] _ [] groundPings =
      some (_, _, _) from rfl)
  exact ⟨_, _, _, hrun, rfl, fun pkt hsent => port_packets_explained hrun 0 pkt hsent⟩

end Ordering

end AntRelay.Runtime
