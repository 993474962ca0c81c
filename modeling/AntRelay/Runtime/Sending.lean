import AntRelay.Base.Retry
import AntRelay.Runtime.Garbage
import AntRelay.Runtime.OneTask
import AntRelay.Runtime.Relay

namespace AntRelay.Runtime
open AntRelay.Base AntRelay.Format

/-! A task that sends a command tries up to four times, each time with a new
message, and believes a reply unless that says that the command was damaged.
What else happens to the state machine and to the link is open. -/

variable {crc : Checksum}

inductive MailboxError where
  | closed
  | timeout
  deriving DecidableEq, Repr

inductive SendError where
  | mailbox (error : MailboxError)
  | requestDropped
  | invalidChecksum
  | invalidAckChecksum
  deriving DecidableEq, Repr

def Response.header : Response crc → Header
  | .message msg => msg.val.header.header
  | .ant pkt => pkt.val.header.header

def checkReply (reply : Except MailboxError (Option (Response crc))) :
    Except SendError (Response crc) :=
  match reply with
  | .error e => .error (.mailbox e)
  | .ok none => .error .requestDropped
  | .ok (some resp) =>
      if resp.header.ty.invalid then .error .invalidAckChecksum else .ok resp

inductive Stage (crc : Checksum) where
  | composing
  | queued (msg : Message crc)
  | waiting (msg : Message crc) (tx : Sender)
  | resting

def Stage.msg? : Stage crc → Option (Message crc)
  | .queued msg => some msg
  | .waiting msg _ => some msg
  | _ => none

/-- The future of `send_retry`. -/
structure RetrySend (crc : Checksum) where
  dest : Destination
  event : Event
  retry : Retry SendError (Response crc)
  stage : Stage crc

namespace RetrySend

def maxCount : Nat := 3

def start (dest : Destination) (event : Event) : RetrySend crc where
  dest := dest
  event := event
  retry := .start maxCount
  stage := .composing

def finish (self : RetrySend crc) (reply : Except MailboxError (Option (Response crc))) :
    RetrySend crc :=
  { self with retry := self.retry.attempted (checkReply reply), stage := .resting }

end RetrySend

def LinkSeen.reply? (tx : Sender) : LinkSeen crc → Option (Option (Response crc))
  | .answered _ tx' resp => if tx' = tx then some (some resp) else none
  | .dropped tx' => if tx' = tx then some none else none
  | _ => none

def RetrySend.reply? (self : RetrySend crc) (shown : List (LinkSeen crc)) :
    Option (Message crc × Option (Response crc)) :=
  match self.stage with
  | .waiting msg tx => (shown.findSome? (LinkSeen.reply? tx)).map fun reply => (msg, reply)
  | _ => none

def RetrySend.settle (self : RetrySend crc) (shown : List (LinkSeen crc)) : RetrySend crc :=
  match self.reply? shown with
  | some (_, reply) => self.finish (.ok reply)
  | none => self

structure Sending (crc : Checksum) where
  system : System crc
  link : Link crc
  sends : SpawnHandle → Option (RetrySend crc)

inductive SendingAction (crc : Checksum) where
  | system (a : Action crc)
  -- The requests that the link gets by this are others'.
  | link (a : LinkAction crc)
  | compose (handle : SpawnHandle) (reading : Int) (call : Nat)
  | submit (handle : SpawnHandle)
  | timeout (handle : SpawnHandle)
  | wake (handle : SpawnHandle)

inductive SendingSeen (crc : Checksum) where
  | system (item : Seen crc)
  | link (item : LinkSeen crc)
  | composed (handle : SpawnHandle) (msg : Message crc)
  | attempted (handle : SpawnHandle) (msg : Message crc)
      (outcome : Except SendError (Response crc))
  | finished (handle : SpawnHandle) (result : Except SendError (Response crc))

namespace Sending

def default : Sending crc where
  system := ⟨.default, .default⟩
  link := .default
  sends := fun _ => none

/-- The sends of these tasks: a task that was not there before starts one. -/
def sendsOf (tasks : List (SpawnHandle × Task)) (sends : SpawnHandle → Option (RetrySend crc)) :
    SpawnHandle → Option (RetrySend crc) :=
  fun handle =>
    ((tasks.lookup handle).bind Task.retries).map fun (dest, event) =>
      (sends handle).getD (.start dest event)

def relink (s : Sending crc) (link : Link crc) (shown : List (LinkSeen crc)) :
    Sending crc × List (SendingSeen crc) :=
  ({ s with
    link := link
    sends := fun handle => (s.sends handle).map fun send => send.settle shown },
    shown.map .link ++ s.system.ctx.tasks.filterMap fun (handle, _) =>
      ((s.sends handle).bind fun send => send.reply? shown).map fun (msg, reply) =>
        .attempted handle msg (checkReply (.ok reply)))

def setSend (s : Sending crc) (handle : SpawnHandle) (send : RetrySend crc) : Sending crc :=
  { s with sends := fun other => if other = handle then some send else s.sends other }

def ownTimeout (s : Sending crc) : LinkAction crc → Bool
  | .timeout tx => s.system.ctx.tasks.any fun (handle, _) =>
      match (s.sends handle).map RetrySend.stage with
      | some (.waiting _ tx') => tx' == tx
      | _ => false
  | _ => false

def move (s : Sending crc) (a : Action crc) : Option (Sending crc × List (SendingSeen crc)) :=
  (s.system.next a).map fun (system, shown) =>
    ({ s with system := system, sends := sendsOf system.ctx.tasks s.sends }, shown.map .system)

def poll (s : Sending crc) (handle : SpawnHandle) : Option (RetrySend crc) :=
  if s.system.ctx.waiting.isEmpty then s.sends handle else none

def next (s : Sending crc) : SendingAction crc → Option (Sending crc × List (SendingSeen crc))
  | .system (.fire handle succeeded) =>
      match s.sends handle with
      | none => s.move (.fire handle succeeded)
      | some send =>
          -- the callback gets the result of the send
          send.retry.result.bind fun result =>
            if result.isOk = succeeded then
              (s.move (.fire handle succeeded)).map fun (s', shown) =>
                (s', .finished handle result :: shown)
            else none
  | .system a => s.move a
  | .link a =>
      if s.ownTimeout a then none
      else (s.link.next a).map fun (link, shown) => s.relink link shown
  | .compose handle reading call =>
      (s.poll handle).bind fun send =>
        match send.stage with
        | .composing =>
            let msg := command crc (params reading call) send.dest send.event
            some (s.setSend handle { send with stage := .queued msg }, [.composed handle msg])
        | _ => none
  | .submit handle =>
      (s.sends handle).bind fun send =>
        match send.stage with
        | .queued msg =>
            (s.link.next (.request msg true)).map fun (link, shown) =>
              let (s', seen) := s.relink link shown
              (s'.setSend handle { send with stage := .waiting msg s.link.nextSender }, seen)
        | _ => none
  | .timeout handle =>
      (s.poll handle).bind fun send =>
        let done := s.setSend handle (send.finish (.error .timeout))
        let outcome := checkReply (.error .timeout)
        match send.stage with
        | .queued msg => some (done, [.attempted handle msg outcome])
        | .waiting msg tx =>
            (s.link.next (.timeout tx)).map fun (link, _) =>
              ({ done with link := link }, [.attempted handle msg outcome])
        | _ => none
  | .wake handle =>
      (s.poll handle).bind fun send =>
        match send.stage, send.retry.result with
        | .resting, none => some (s.setSend handle { send with stage := .composing }, [])
        | _, _ => none

def machine (crc : Checksum) : Machine (Sending crc) (SendingAction crc) (SendingSeen crc) where
  init := default
  next := next

end Sending

inductive SendingMoved (s : Sending crc) :
    SendingAction crc → Sending crc → List (SendingSeen crc) → Prop where
  | system {a : Action crc} {system : System crc} {shown : List (Seen crc)}
      (h : s.system.next a = some (system, shown))
      (hplain : ∀ handle succeeded, a = .fire handle succeeded → s.sends handle = none) :
      SendingMoved s (.system a)
        { s with system := system, sends := Sending.sendsOf system.ctx.tasks s.sends }
        (shown.map .system)
  | finished {handle : SpawnHandle} {send : RetrySend crc}
      {result : Except SendError (Response crc)} {system : System crc} {shown : List (Seen crc)}
      (hsend : s.sends handle = some send) (hresult : send.retry.result = some result)
      (h : s.system.next (.fire handle result.isOk) = some (system, shown)) :
      SendingMoved s (.system (.fire handle result.isOk))
        { s with system := system, sends := Sending.sendsOf system.ctx.tasks s.sends }
        (.finished handle result :: shown.map .system)
  | link {a : LinkAction crc} {link : Link crc} {shown : List (LinkSeen crc)}
      (h : s.link.next a = some (link, shown)) :
      SendingMoved s (.link a) (s.relink link shown).1 (s.relink link shown).2
  | composed {handle : SpawnHandle} {send : RetrySend crc} (reading : Int) (call : Nat)
      (hsend : s.sends handle = some send) (hstage : send.stage = .composing) :
      SendingMoved s (.compose handle reading call)
        (s.setSend handle
          { send with stage := .queued (command crc (params reading call) send.dest send.event) })
        [.composed handle (command crc (params reading call) send.dest send.event)]
  | submitted {handle : SpawnHandle} {send : RetrySend crc} {msg : Message crc} {link : Link crc}
      {shown : List (LinkSeen crc)} (hsend : s.sends handle = some send)
      (hstage : send.stage = .queued msg)
      (h : s.link.next (.request msg true) = some (link, shown)) :
      SendingMoved s (.submit handle)
        ((s.relink link shown).1.setSend handle
          { send with stage := .waiting msg s.link.nextSender })
        (s.relink link shown).2
  | timedOutQueued {handle : SpawnHandle} {send : RetrySend crc} {msg : Message crc}
      (hsend : s.sends handle = some send) (hstage : send.stage = .queued msg) :
      SendingMoved s (.timeout handle) (s.setSend handle (send.finish (.error .timeout)))
        [.attempted handle msg (checkReply (.error .timeout))]
  | timedOut {handle : SpawnHandle} {send : RetrySend crc} {msg : Message crc} {tx : Sender}
      {link : Link crc} {shown : List (LinkSeen crc)} (hsend : s.sends handle = some send)
      (hstage : send.stage = .waiting msg tx)
      (h : s.link.next (.timeout tx) = some (link, shown)) :
      SendingMoved s (.timeout handle)
        { s.setSend handle (send.finish (.error .timeout)) with link := link }
        [.attempted handle msg (checkReply (.error .timeout))]
  | woken {handle : SpawnHandle} {send : RetrySend crc} (hsend : s.sends handle = some send)
      (hstage : send.stage = .resting) (hgoes : send.retry.result = none) :
      SendingMoved s (.wake handle) (s.setSend handle { send with stage := .composing }) []

theorem Sending.sends_of_poll {s : Sending crc} {handle : SpawnHandle} {send : RetrySend crc}
    (h : s.poll handle = some send) : s.sends handle = some send := by
  unfold poll at h
  split at h
  · exact h
  · cases h

theorem sendingMoved_of_next {s s' : Sending crc} {a : SendingAction crc}
    {shown : List (SendingSeen crc)} (h : s.next a = some (s', shown)) :
    SendingMoved s a s' shown := by
  cases a with
  | system a =>
      have hmove {a : Action crc} {s' : Sending crc} {shown : List (SendingSeen crc)}
          (hplain : ∀ handle succeeded, a = .fire handle succeeded → s.sends handle = none)
          (h : s.move a = some (s', shown)) : SendingMoved s (.system a) s' shown := by
        obtain ⟨⟨system, items⟩, hsystem, hresult⟩ := Option.map_eq_some_iff.mp h
        cases hresult
        exact .system hsystem hplain
      cases a with
      | fire handle succeeded =>
          simp only [Sending.next] at h
          split at h
          · rename_i hnone
            refine hmove ?_ h
            intro other _ hsame
            cases hsame
            exact hnone
          · rename_i send hsend
            obtain ⟨result, hresult, h⟩ := Option.bind_eq_some_iff.mp h
            split at h
            · rename_i hsucceeds
              obtain ⟨⟨s₁, items⟩, hmoved, heq⟩ := Option.map_eq_some_iff.mp h
              obtain ⟨⟨system, out⟩, hsystem, hpair⟩ := Option.map_eq_some_iff.mp hmoved
              cases hpair
              cases heq
              subst hsucceeds
              exact .finished hsend hresult hsystem
            · cases h
      | _ => exact hmove (by simp) h
  | link a =>
      simp only [Sending.next] at h
      split at h
      · cases h
      · obtain ⟨⟨link, items⟩, hlink, hresult⟩ := Option.map_eq_some_iff.mp h
        cases hresult
        exact .link hlink
  | compose handle reading call =>
      obtain ⟨send, hpoll, h⟩ := Option.bind_eq_some_iff.mp h
      split at h
      · rename_i hstage
        cases h
        exact .composed reading call (Sending.sends_of_poll hpoll) hstage
      · cases h
  | submit handle =>
      obtain ⟨send, hsend, h⟩ := Option.bind_eq_some_iff.mp h
      split at h
      · rename_i msg hstage
        obtain ⟨⟨link, items⟩, hlink, hresult⟩ := Option.map_eq_some_iff.mp h
        cases hresult
        exact .submitted hsend hstage hlink
      · cases h
  | timeout handle =>
      obtain ⟨send, hpoll, h⟩ := Option.bind_eq_some_iff.mp h
      have hsend := Sending.sends_of_poll hpoll
      simp only at h
      split at h
      · rename_i msg hstage
        cases h
        exact .timedOutQueued hsend hstage
      · rename_i msg tx hstage
        obtain ⟨⟨link, items⟩, hlink, hresult⟩ := Option.map_eq_some_iff.mp h
        cases hresult
        exact .timedOut hsend hstage hlink
      · cases h
  | wake handle =>
      obtain ⟨send, hpoll, h⟩ := Option.bind_eq_some_iff.mp h
      split at h
      · rename_i hstage hgoes
        cases h
        exact .woken (Sending.sends_of_poll hpoll) hstage hgoes
      · cases h

namespace SendingSeen

def link? : SendingSeen crc → Option (LinkSeen crc)
  | .link item => some item
  | _ => none

def system? : SendingSeen crc → Option (Seen crc)
  | .system item => some item
  | _ => none

def composed? (handle : SpawnHandle) : SendingSeen crc → Option (Message crc)
  | .composed handle' msg => if handle' = handle then some msg else none
  | _ => none

def attempted? (handle : SpawnHandle) :
    SendingSeen crc → Option (Message crc × Except SendError (Response crc))
  | .attempted handle' msg outcome => if handle' = handle then some (msg, outcome) else none
  | _ => none

end SendingSeen

theorem link?_relink (s : Sending crc) (link : Link crc) (shown : List (LinkSeen crc)) :
    (s.relink link shown).2.filterMap SendingSeen.link? = shown := by
  rw [Sending.relink, List.filterMap_append, List.filterMap_map, List.filterMap_filterMap]
  have hnone : (s.system.ctx.tasks.filterMap fun entry =>
      ((((s.sends entry.1).bind fun send => send.reply? shown).map fun reply =>
        (SendingSeen.attempted entry.1 reply.1 (checkReply (.ok reply.2)) : SendingSeen crc)).bind
          SendingSeen.link?)) = [] := by
    rw [List.filterMap_eq_nil_iff]
    intro entry _
    cases (s.sends entry.1).bind fun send => send.reply? shown <;> rfl
  rw [hnone, List.append_nil]
  exact List.filterMap_some

theorem system?_relink (s : Sending crc) (link : Link crc) (shown : List (LinkSeen crc)) :
    (s.relink link shown).2.filterMap SendingSeen.system? = [] := by
  rw [List.filterMap_eq_nil_iff]
  intro item hmem
  rcases List.mem_append.mp hmem with hlink | hattempt
  · obtain ⟨_, _, rfl⟩ := List.mem_map.mp hlink
    rfl
  · obtain ⟨_, _, hitem⟩ := List.mem_filterMap.mp hattempt
    obtain ⟨_, _, rfl⟩ := Option.map_eq_some_iff.mp hitem
    rfl

theorem Link.shown_of_timeout {s s' : Link crc} {tx : Sender} {shown : List (LinkSeen crc)}
    (h : s.next (.timeout tx) = some (s', shown)) : shown = [] := by
  simp only [Link.next] at h
  split at h
  · cases h
    rfl
  · cases h

namespace Sending

def toLink : Machine.Projection (Sending.machine crc) (Link.machine crc) where
  state := Sending.link
  action := fun s a =>
    match a with
    | .link a => some a
    | .submit handle => ((s.sends handle).bind fun send => send.stage.msg?).map (.request · true)
    | .timeout handle =>
        match (s.sends handle).map RetrySend.stage with
        | some (.waiting _ tx) => some (.timeout tx)
        | _ => none
    | _ => none
  shown := SendingSeen.link?
  init := rfl
  step := by
    intro s a s' out b hnext haction
    cases sendingMoved_of_next hnext with
    | link h =>
        cases haction
        rw [link?_relink]
        exact h
    | submitted hsend hstage h =>
        simp only [hsend, Option.bind_some, hstage, Stage.msg?, Option.map_some] at haction
        cases haction
        rw [link?_relink]
        exact h
    | timedOut hsend hstage h =>
        simp only [hsend, Option.map_some, hstage] at haction
        cases haction
        rw [Link.shown_of_timeout h] at h
        exact h
    | timedOutQueued hsend hstage =>
        simp only [hsend, Option.map_some, hstage] at haction
        cases haction
    | _ => cases haction
  stutter := by
    intro s a s' out hnext haction
    cases sendingMoved_of_next hnext with
    | system h _ => exact ⟨rfl, filterMap_map_none fun _ => rfl⟩
    | finished _ _ h => exact ⟨rfl, filterMap_map_none fun _ => rfl⟩
    | submitted hsend hstage h =>
        simp only [hsend, Option.bind_some, hstage, Stage.msg?, Option.map_some] at haction
        cases haction
    | timedOut hsend hstage h =>
        simp only [hsend, Option.map_some, hstage] at haction
        cases haction
    | link h => cases haction
    | _ => exact ⟨rfl, rfl⟩

def toSystem : Machine.Projection (Sending.machine crc) (System.machine crc) where
  state := Sending.system
  action := fun _ a =>
    match a with
    | .system a => some a
    | _ => none
  shown := SendingSeen.system?
  init := rfl
  step := by
    intro s a s' out b hnext haction
    have hsame (items : List (Seen crc)) :
        (items.map SendingSeen.system).filterMap SendingSeen.system? = items :=
      filterMap_map_some fun _ => rfl
    cases sendingMoved_of_next hnext with
    | system h _ =>
        cases haction
        rw [hsame]
        exact h
    | finished _ _ h =>
        cases haction
        rw [List.filterMap_cons_none rfl, hsame]
        exact h
    | _ => cases haction
  stutter := by
    intro s a s' out hnext haction
    cases sendingMoved_of_next hnext with
    | system h _ => cases haction
    | finished _ _ h => cases haction
    | link h => exact ⟨rfl, system?_relink ..⟩
    | submitted _ _ _ => exact ⟨rfl, system?_relink ..⟩
    | _ => exact ⟨rfl, rfl⟩

theorem sound_of_run {visits : List (Visit (Sending crc) (SendingAction crc) (SendingSeen crc))}
    {s : Sending crc} {seen : List (SendingSeen crc)}
    (hrun : (Sending.machine crc).Run visits s seen) : Sound s.system :=
  (AntRelay.Runtime.sound_of_run (toSystem.run hrun)).1

end Sending

end AntRelay.Runtime
