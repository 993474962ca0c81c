import AntRelay.Runtime.Sending
import AntRelay.Runtime.Station

namespace AntRelay.Runtime
open AntRelay.Base AntRelay.Format

variable {crc : Checksum}

section Link

variable {visits : List (Visit (Link crc) (LinkAction crc) (LinkSeen crc))}
  {s s' : Link crc} {a : LinkAction crc} {seen shown : List (LinkSeen crc)}

structure Credible (s : Link crc) (seen : List (LinkSeen crc)) : Prop where
  table : ∀ id tx, s.commander.requests.lookup id = some tx →
    ∃ msg, .registered tx msg ∈ seen ∧ requestId msg = id
  fresh : ∀ tx msg, .registered tx msg ∈ seen → tx < s.nextSender
  single : ∀ tx msg msg', .registered tx msg ∈ seen → .registered tx msg' ∈ seen → msg = msg'
  matched : Historically RepliesTo seen

theorem credible_init : Credible (Link.machine crc).init [] where
  table := by simp [Link.machine, Link.default, Commander.default]
  fresh := by simp
  single := by simp
  matched := .nil

theorem Credible.shrinks (h : Credible s seen)
    (htable : ∀ id tx, s'.commander.requests.lookup id = some tx →
      s.commander.requests.lookup id = some tx)
    (hnext : s'.nextSender = s.nextSender)
    (hregistered : ∀ tx msg, .registered tx msg ∉ shown)
    (hmatched : Historically RepliesTo (seen ++ shown)) : Credible s' (seen ++ shown) where
  table := by
    intro id tx hlookup
    obtain ⟨msg, hmem, hid⟩ := h.table id tx (htable id tx hlookup)
    exact ⟨msg, List.mem_append_left _ hmem, hid⟩
  fresh := by
    intro tx msg hmem
    rw [hnext]
    exact h.fresh tx msg ((List.mem_append.mp hmem).resolve_right (hregistered tx msg))
  single := by
    intro tx msg msg' hmem hmem'
    exact h.single tx msg msg'
      ((List.mem_append.mp hmem).resolve_right (hregistered tx msg))
      ((List.mem_append.mp hmem').resolve_right (hregistered tx msg'))
  matched := hmatched

theorem Credible.request (h : Credible s seen) {msg : Message crc}
    (hcommander : s'.commander = ⟨s.commander.requests.insert (requestId msg) s.nextSender⟩)
    (hnext : s'.nextSender = s.nextSender + 1)
    (hregistered : ∀ tx msg', .registered tx msg' ∈ shown ↔ tx = s.nextSender ∧ msg' = msg)
    (hanswered : ∀ origin tx resp, .answered origin tx resp ∉ shown) :
    Credible s' (seen ++ shown) where
  table := by
    intro id tx hlookup
    rw [hcommander, lookup_insert_eq_some] at hlookup
    rcases hlookup with ⟨rfl, rfl⟩ | ⟨_, hold⟩
    · exact ⟨msg, List.mem_append_right _ ((hregistered _ _).mpr ⟨rfl, rfl⟩), rfl⟩
    · obtain ⟨msg', hmem, hid⟩ := h.table id tx hold
      exact ⟨msg', List.mem_append_left _ hmem, hid⟩
  fresh := by
    intro tx msg' hmem
    rw [hnext]
    rcases List.mem_append.mp hmem with hold | hnew
    · exact Nat.lt_succ_of_lt (h.fresh tx msg' hold)
    · rw [((hregistered _ _).mp hnew).1]
      exact Nat.lt_succ_self _
  single := by
    intro tx msg₁ msg₂ hmem₁ hmem₂
    rcases List.mem_append.mp hmem₁ with hold₁ | hnew₁ <;>
      rcases List.mem_append.mp hmem₂ with hold₂ | hnew₂
    · exact h.single tx msg₁ msg₂ hold₁ hold₂
    · have hlt := h.fresh tx msg₁ hold₁
      rw [((hregistered _ _).mp hnew₂).1] at hlt
      exact absurd hlt (Nat.lt_irrefl _)
    · have hlt := h.fresh tx msg₂ hold₂
      rw [((hregistered _ _).mp hnew₁).1] at hlt
      exact absurd hlt (Nat.lt_irrefl _)
    · rw [((hregistered _ _).mp hnew₁).2, ((hregistered _ _).mp hnew₂).2]
  matched := by
    refine h.matched.append ?_
    rintro item hmem before origin tx resp rfl
    exact absurd hmem (hanswered origin tx resp)

theorem Credible.quiet (h : Credible s seen) (hcommander : s'.commander = s.commander)
    (hnext : s'.nextSender = s.nextSender) : Credible s' (seen ++ []) := by
  refine h.shrinks ?_ hnext (by simp) ?_
  · intro id tx hlookup
    rwa [hcommander] at hlookup
  · rw [List.append_nil]
    exact h.matched

theorem Credible.next (h : Credible s seen) (hheld : Held visits s seen)
    (hnext : s.next a = some (s', shown)) : Credible s' (seen ++ shown) := by
  by_cases hrequest : ∃ msg awaited, a = .request msg awaited
  · obtain ⟨msg, awaited, rfl⟩ := hrequest
    cases tableMoved_of_next hheld hnext with
    | registered _ _ hfree => exact h.request rfl rfl (by simp) (by simp)
    | evicted _ _ hlookup => exact h.request rfl rfl (by simp) (by simp)
    | other hcommander hreceivers hrequesters hsender hgives hshown =>
        -- a request always takes a new sender
        simp only [Link.next] at hnext
        cases hnext
        exact absurd hsender (Nat.succ_ne_self _)
  · have hlive (id : UniqueId) (tx : Sender)
        (hlookup : s.commander.requests.lookup id = some tx) : tx ∈ s.receivers :=
      (hheld.table tx).mpr ⟨id, hlookup⟩
    have hfree : ∀ msg awaited, a = .request msg awaited →
        s.commander.requests.lookup (requestId msg) = none :=
      fun msg awaited haction => absurd ⟨msg, awaited, haction⟩ hrequest
    cases linkMoved_of_live hlive hfree hnext with
    | requested msg awaited => exact absurd ⟨msg, awaited, rfl⟩ hrequest
    | ignored _ _ =>
        refine h.shrinks (fun _ _ hlookup => hlookup) rfl (by simp) (h.matched.append ?_)
        rintro item hmem before origin tx resp rfl
        simp at hmem
    | @answered index origin delivery id tx hindex hanswers hlookup =>
        refine h.shrinks ?_ rfl (by simp) ?_
        · intro id' tx' hlookup'
          exact ((lookup_erase_eq_some _ _ _).mp hlookup').2
        · rw [← List.singleton_append, ← List.append_assoc]
          refine Historically.concat (h.matched.concat ?_) ?_
          · rintro origin' tx' resp hitem
            cases hitem
          · rintro origin' tx' resp hitem
            cases hitem
            obtain ⟨msg, hmem, hid⟩ := h.table id tx hlookup
            refine ⟨seen, delivery, msg, rfl, rfl, hmem, ?_⟩
            rw [hid]
            exact Delivery.answers_response hanswers
    | _ => exact h.quiet rfl rfl

theorem credible_of_run (hrun : (Link.machine crc).Run visits s seen) : Credible s seen := by
  induction hrun with
  | start => exact credible_init
  | step hrun hnext ih => exact ih.next (held_of_run hrun) hnext

end Link

theorem Moved.tasks {s s' : System crc} {a : Action crc} {shown : List (Seen crc)}
    (h : Moved s a s' shown) :
    (s'.ctx.tasks = s.ctx.tasks ∧ s'.ctx.nextHandle = s.ctx.nextHandle) ∨
      (s'.ctx.tasks = [] ∧ s'.ctx.nextHandle = s.ctx.nextHandle) ∨
      ∃ task, s'.ctx.tasks = [(s.ctx.nextHandle, task)] ∧
        s'.ctx.nextHandle = s.ctx.nextHandle + 1 := by
  cases h with
  | stepped _ _ hstep =>
      cases hstep with
      | bleDisconnect => exact .inr (.inl ⟨rfl, rfl⟩)
      | powerSupplied _ => exact .inr (.inr ⟨_, rfl, rfl⟩)
      | garageOpen _ => exact .inr (.inr ⟨_, rfl, rfl⟩)
      | bleConnect _ => exact .inr (.inr ⟨_, rfl, rfl⟩)
      | roverStop _ => exact .inr (.inr ⟨_, rfl, rfl⟩)
      | roverMove _ => exact .inr (.inr ⟨_, rfl, rfl⟩)
      | _ => exact .inl ⟨rfl, rfl⟩
  | fired _ hfired =>
      cases hfired with
      | ping _ => exact .inl ⟨rfl, rfl⟩
      | antStart _ => exact .inr (.inr ⟨_, rfl, rfl⟩)
      | antStartAgain _ => exact .inl ⟨rfl, rfl⟩
      | _ => exact .inr (.inl ⟨rfl, rfl⟩)
  | _ => exact .inl ⟨rfl, rfl⟩

theorem Moved.opens {s s' : System crc} {a : Action crc} {shown : List (Seen crc)}
    (h : Moved s a s' shown) (hstate : s'.self.state = .garageOpen) :
    s.self.state = .garageOpen ∨
      (∃ mail, .handled mail ∈ shown ∧ mail.event = some .csBleDisconnect) ∨
      ∃ handle, a = .fire handle true ∧ s.ctx.tasks = [(handle, .garageOpenSend)] := by
  cases h with
  | @stepped mail _ _ _ _ _ _ hevent hstep =>
      cases hstep with
      | bleDisconnect => exact .inr (.inl ⟨mail, List.mem_cons_self, hevent⟩)
      | powerSupplied _ => cases hstate
      | bleConnect _ => cases hstate
      | roverStop _ => cases hstate
      | roverMove _ => cases hstate
      | _ => exact .inl hstate
  | @fired handle _ _ _ _ _ htasks hfired =>
      cases hfired with
      | garageOpen => exact .inr (.inr ⟨handle, rfl, htasks⟩)
      | bleSettled _ _ => cases hstate
      | bleSettledPending _ _ => cases hstate
      | _ => exact .inl hstate
  | _ => exact .inl hstate

theorem Fired.ends {sm sm' : StateMachine} {ctx ctx' : Context crc} {task : Task}
    {succeeded : Bool} {outputs : List (Output crc)}
    (h : Fired sm ctx task succeeded sm' ctx' outputs) (hretries : task.retries.isSome) :
    ctx'.tasks = [] := by
  cases h with
  | garageOpen => rfl
  | garageOpenFailed => rfl
  | antStopped _ => rfl
  | _ => cases hretries

def composedBy (handle : SpawnHandle) (seen : List (SendingSeen crc)) : List (Message crc) :=
  seen.filterMap (SendingSeen.composed? handle)

def attemptsOf (handle : SpawnHandle) (seen : List (SendingSeen crc)) :
    List (Message crc × Except SendError (Response crc)) :=
  seen.filterMap (SendingSeen.attempted? handle)

def linkOf (seen : List (SendingSeen crc)) : List (LinkSeen crc) :=
  seen.filterMap SendingSeen.link?

/-- A command that the link has been asked to send has this answer. -/
def Acked (seen : List (SendingSeen crc)) (msg : Message crc) (resp : Response crc) : Prop :=
  ∃ origin tx, .registered tx msg ∈ linkOf seen ∧ .answered origin tx resp ∈ linkOf seen ∧
    resp.answers = some (requestId msg) ∧ resp.header.ty.invalid = false

/-- Each attempt that is over has its message, and at most one is not over. -/
structure SendAccount (handle : SpawnHandle) (send : RetrySend crc)
    (seen : List (SendingSeen crc)) : Prop where
  after : Retry.After RetrySend.maxCount ((attemptsOf handle seen).map Prod.snd) send.retry
  messages : composedBy handle seen =
    (attemptsOf handle seen).map Prod.fst ++ send.stage.msg?.toList
  goes : send.stage.msg?.isSome → send.retry.result = none
  starts : send.stage = .composing → send.retry.result = none
  commands : ∀ msg ∈ composedBy handle seen,
    ∃ reading call, msg = command crc (params reading call) send.dest send.event
  registered : ∀ msg tx, send.stage = .waiting msg tx → .registered tx msg ∈ linkOf seen

section SendAccount

variable {handle : SpawnHandle} {send : RetrySend crc} {seen shown : List (SendingSeen crc)}

@[simp] theorem composedBy_append : composedBy handle (seen ++ shown) =
    composedBy handle seen ++ composedBy handle shown := List.filterMap_append

@[simp] theorem attemptsOf_append : attemptsOf handle (seen ++ shown) =
    attemptsOf handle seen ++ attemptsOf handle shown := List.filterMap_append

@[simp] theorem linkOf_append : linkOf (seen ++ shown) = linkOf seen ++ linkOf shown :=
  List.filterMap_append

theorem Acked.append {msg : Message crc} {resp : Response crc} (h : Acked seen msg resp)
    (shown : List (SendingSeen crc)) : Acked (seen ++ shown) msg resp := by
  obtain ⟨origin, tx, hregistered, hanswered, hvalid⟩ := h
  rw [Acked, linkOf_append]
  exact ⟨origin, tx, List.mem_append_left _ hregistered, List.mem_append_left _ hanswered, hvalid⟩

theorem account_start (dest : Destination) (event : Event)
    (hcomposed : composedBy handle seen = []) (hattempts : attemptsOf handle seen = []) :
    SendAccount handle (.start dest event) seen where
  after := by
    rw [hattempts]
    exact .start
  messages := by
    rw [hcomposed, hattempts]
    rfl
  goes := by
    intro _
    rfl
  starts := by
    intro _
    rfl
  commands := by
    rw [hcomposed]
    simp
  registered := by
    intro msg tx hstage
    cases hstage

theorem SendAccount.append (h : SendAccount handle send seen)
    (hcomposed : composedBy handle shown = []) (hattempts : attemptsOf handle shown = []) :
    SendAccount handle send (seen ++ shown) where
  after := by
    rw [attemptsOf_append, hattempts, List.append_nil]
    exact h.after
  messages := by
    rw [attemptsOf_append, composedBy_append, hattempts, hcomposed, List.append_nil,
      List.append_nil]
    exact h.messages
  goes := h.goes
  starts := h.starts
  commands := by
    rw [composedBy_append, hcomposed, List.append_nil]
    exact h.commands
  registered := by
    intro msg tx hstage
    rw [linkOf_append]
    exact List.mem_append_left _ (h.registered msg tx hstage)

theorem SendAccount.attempted (h : SendAccount handle send seen) {msg : Message crc}
    {reply : Except MailboxError (Option (Response crc))} (hmsg : send.stage.msg? = some msg)
    (hcomposed : composedBy handle shown = [])
    (hattempts : attemptsOf handle shown = [(msg, checkReply reply)]) :
    SendAccount handle (send.finish reply) (seen ++ shown) where
  after := by
    rw [attemptsOf_append, hattempts, List.map_append]
    exact h.after.attempt (h.goes (by rw [hmsg]; rfl)) _
  messages := by
    rw [attemptsOf_append, composedBy_append, hattempts, hcomposed, List.append_nil, h.messages,
      hmsg, List.map_append]
    exact (List.append_nil _).symm
  goes := by
    intro hsome
    cases hsome
  starts := by
    intro hstage
    cases hstage
  commands := by
    rw [composedBy_append, hcomposed, List.append_nil]
    exact h.commands
  registered := by
    intro msg tx hstage
    cases hstage

theorem SendAccount.composed (h : SendAccount handle send seen) (hstage : send.stage = .composing)
    (reading : Int) (call : Nat) :
    SendAccount handle
      { send with stage := .queued (command crc (params reading call) send.dest send.event) }
      (seen ++ [.composed handle (command crc (params reading call) send.dest send.event)]) where
  after := by
    rw [attemptsOf_append]
    exact (List.append_nil (attemptsOf handle seen)).symm ▸ h.after
  messages := by
    have hmessages := h.messages
    rw [hstage] at hmessages
    rw [attemptsOf_append, composedBy_append, hmessages]
    simp [composedBy, attemptsOf, SendingSeen.composed?, SendingSeen.attempted?, Stage.msg?]
  goes := by
    intro _
    exact h.starts hstage
  starts := by
    intro hnone
    cases hnone
  commands := by
    intro msg hmem
    rw [composedBy_append] at hmem
    rcases List.mem_append.mp hmem with hold | hnew
    · exact h.commands msg hold
    · simp only [composedBy, List.filterMap_cons, SendingSeen.composed?, if_pos,
        List.filterMap_nil, List.mem_singleton] at hnew
      exact ⟨reading, call, hnew⟩
  registered := by
    intro msg tx hnone
    cases hnone

theorem SendAccount.submitted (h : SendAccount handle send seen) {msg : Message crc} {tx : Sender}
    (hstage : send.stage = .queued msg) (hcomposed : composedBy handle shown = [])
    (hattempts : attemptsOf handle shown = []) (hregistered : .registered tx msg ∈ linkOf shown) :
    SendAccount handle { send with stage := .waiting msg tx } (seen ++ shown) := by
  have hbefore := h.append hcomposed hattempts
  refine ⟨hbefore.after, ?_, ?_, ?_, hbefore.commands, ?_⟩
  · rw [hbefore.messages, hstage]
    rfl
  · intro _
    exact h.goes (by rw [hstage]; rfl)
  · intro hnone
    cases hnone
  · intro msg' tx' hwaiting
    cases hwaiting
    rw [linkOf_append]
    exact List.mem_append_right _ hregistered

theorem SendAccount.woken (h : SendAccount handle send seen) (hstage : send.stage = .resting)
    (hgoes : send.retry.result = none) :
    SendAccount handle { send with stage := .composing } seen := by
  refine ⟨h.after, ?_, ?_, fun _ => hgoes, h.commands, ?_⟩
  · rw [h.messages, hstage]
    rfl
  · intro hsome
    cases hsome
  · intro msg tx hwaiting
    cases hwaiting

end SendAccount

def RetrySend.command (self : RetrySend crc) : Destination × Event :=
  (self.dest, self.event)

/-- The garage is reported open, or the central station has acked the command to
open it that a send has made. -/
def GarageOpened (seen : List (SendingSeen crc)) : Prop :=
  (∃ mail, .system (.handled mail) ∈ seen ∧ mail.event = some .csBleDisconnect) ∨
    ∃ handle reading call resp, .finished handle (.ok resp) ∈ seen ∧
      command crc (params reading call) .centralStation .csGarageOpen ∈
        composedBy handle seen ∧
      Acked seen (command crc (params reading call) .centralStation .csGarageOpen) resp

structure Trying (s : Sending crc) (seen : List (SendingSeen crc)) : Prop where
  sound : Sound s.system
  live : ∀ handle, (s.sends handle).map RetrySend.command =
    (s.system.ctx.tasks.lookup handle).bind Task.retries
  accounts : ∀ handle send, s.sends handle = some send → SendAccount handle send seen
  past : ∀ handle, s.sends handle = none → ∃ send, SendAccount handle send seen
  unborn : ∀ handle, s.system.ctx.nextHandle ≤ handle →
    composedBy handle seen = [] ∧ attemptsOf handle seen = []
  believed : ∀ handle msg resp, (msg, .ok resp) ∈ attemptsOf handle seen → Acked seen msg resp
  ended : ∀ handle result, .finished handle result ∈ seen →
    s.sends handle = none ∧ handle < s.system.ctx.nextHandle ∧
      ∃ send, SendAccount handle send seen ∧ send.retry.result = some result
  opened : s.system.self.state = .garageOpen → GarageOpened seen

theorem GarageOpened.append {seen : List (SendingSeen crc)} (h : GarageOpened seen)
    (shown : List (SendingSeen crc)) : GarageOpened (seen ++ shown) := by
  rcases h with ⟨mail, hmem, hevent⟩ | ⟨handle, reading, call, resp, hmem, hcomposed, hacked⟩
  · exact .inl ⟨mail, List.mem_append_left _ hmem, hevent⟩
  · refine .inr ⟨handle, reading, call, resp, List.mem_append_left _ hmem, ?_, hacked.append _⟩
    rw [composedBy_append]
    exact List.mem_append_left _ hcomposed

theorem trying_init : Trying (Sending.machine crc).init [] where
  sound := sound_init
  live := by
    intro handle
    rfl
  accounts := by
    intro handle send hsend
    cases hsend
  past := by
    intro handle _
    exact ⟨_, account_start .ant .antStop rfl rfl⟩
  unborn := by
    intro handle _
    exact ⟨rfl, rfl⟩
  believed := by
    intro handle msg resp hmem
    cases hmem
  ended := by
    intro handle result hmem
    cases hmem
  opened := by
    intro hstate
    cases hstate

namespace Trying

variable {s s' : Sending crc} {seen shown : List (SendingSeen crc)}

theorem task_of_send (h : Trying s seen) {handle : SpawnHandle} {send : RetrySend crc}
    (hsend : s.sends handle = some send) :
    ∃ task, s.system.ctx.tasks = [(handle, task)] ∧ task.retries = some send.command ∧
      handle < s.system.ctx.nextHandle := by
  have hlive := h.live handle
  rw [hsend, Option.map_some, eq_comm, Option.bind_eq_some_iff] at hlive
  obtain ⟨task, hlookup, hretries⟩ := hlive
  rcases h.sound.tracked.live with hnone | ⟨other, kind, htasks, hkept⟩
  · rw [hnone] at hlookup
    cases hlookup
  · rw [htasks, List.lookup_cons] at hlookup
    split at hlookup
    · rename_i hsame
      cases hlookup
      cases beq_iff_eq.mp hsame
      exact ⟨task, htasks, hretries, h.sound.tracked.fresh handle hkept⟩
    · cases hlookup

theorem sends_unborn (h : Trying s seen) {handle : SpawnHandle}
    (hle : s.system.ctx.nextHandle ≤ handle) : s.sends handle = none := by
  cases hsend : s.sends handle with
  | none => rfl
  | some send =>
      obtain ⟨_, _, _, hlt⟩ := h.task_of_send hsend
      exact absurd hlt (Nat.not_lt.mpr hle)

theorem step (h : Trying s seen) (hsystem : s'.system = s.system)
    (hlive : ∀ handle, (s'.sends handle).map RetrySend.command =
      (s.sends handle).map RetrySend.command)
    (haccount : ∀ handle send, s'.sends handle = some send →
      SendAccount handle send (seen ++ shown))
    (hquiet : ∀ handle, s.sends handle = none →
      composedBy handle shown = [] ∧ attemptsOf handle shown = [])
    (hbelieved : ∀ handle msg resp, (msg, .ok resp) ∈ attemptsOf handle shown →
      Acked (seen ++ shown) msg resp)
    (hfinished : ∀ handle result, .finished handle result ∉ shown) : Trying s' (seen ++ shown) where
  sound := by
    rw [hsystem]
    exact h.sound
  live := by
    intro handle
    rw [hlive, hsystem]
    exact h.live handle
  accounts := haccount
  past := by
    intro handle hnone
    have hbefore : s.sends handle = none := by
      have hsame := hlive handle
      rw [hnone, Option.map_none, eq_comm, Option.map_eq_none_iff] at hsame
      exact hsame
    obtain ⟨send, hsend⟩ := h.past handle hbefore
    exact ⟨send, hsend.append (hquiet handle hbefore).1 (hquiet handle hbefore).2⟩
  unborn := by
    intro handle hle
    rw [hsystem] at hle
    obtain ⟨hcomposed, hattempts⟩ := h.unborn handle hle
    obtain ⟨hcomposed', hattempts'⟩ := hquiet handle (h.sends_unborn hle)
    rw [composedBy_append, attemptsOf_append, hcomposed, hattempts, hcomposed', hattempts']
    exact ⟨rfl, rfl⟩
  believed := by
    intro handle msg resp hmem
    rw [attemptsOf_append] at hmem
    rcases List.mem_append.mp hmem with hold | hnew
    · exact (h.believed handle msg resp hold).append _
    · exact hbelieved handle msg resp hnew
  ended := by
    intro handle result hmem
    have hold := (List.mem_append.mp hmem).resolve_right (hfinished handle result)
    obtain ⟨hnone, hlt, send, hsend, hresult⟩ := h.ended handle result hold
    refine ⟨?_, by rwa [hsystem], send,
      hsend.append (hquiet handle hnone).1 (hquiet handle hnone).2, hresult⟩
    have hsame := hlive handle
    rwa [hnone, Option.map_none, Option.map_eq_none_iff] at hsame
  opened := by
    rw [hsystem]
    intro hstate
    exact (h.opened hstate).append _

theorem setSend (h : Trying s seen) {handle : SpawnHandle} {send send' : RetrySend crc}
    (haccount : SendAccount handle send' (seen ++ shown)) (hsend : s.sends handle = some send)
    (hcommand : send'.command = send.command) (hsystem : s'.system = s.system)
    (hsends : ∀ other, s'.sends other = if other = handle then some send' else s.sends other)
    (hquiet : ∀ other, other ≠ handle → composedBy other shown = [] ∧ attemptsOf other shown = [])
    (hbelieved : ∀ msg resp, (msg, .ok resp) ∉ attemptsOf handle shown)
    (hfinished : ∀ other result, .finished other result ∉ shown) : Trying s' (seen ++ shown) := by
  refine h.step hsystem ?_ ?_ ?_ ?_ hfinished
  · intro other
    rw [hsends]
    split
    · rename_i hsame
      rw [hsame, hsend, Option.map_some, Option.map_some, hcommand]
    · rfl
  · intro other live hlive
    rw [hsends] at hlive
    split at hlive
    · rename_i hsame
      cases hlive
      rw [hsame]
      exact haccount
    · rename_i hother
      exact (h.accounts other live hlive).append (hquiet other hother).1 (hquiet other hother).2
  · intro other hnone
    refine hquiet other ?_
    rintro rfl
    rw [hsend] at hnone
    cases hnone
  · intro other msg resp hmem
    by_cases hsame : other = handle
    · rw [hsame] at hmem
      exact absurd hmem (hbelieved msg resp)
    · rw [(hquiet other hsame).2] at hmem
      cases hmem

section Relink

variable (link : Link crc) (items : List (LinkSeen crc))

theorem composedBy_relink (s : Sending crc) (handle : SpawnHandle) :
    composedBy handle (s.relink link items).2 = [] := by
  rw [composedBy, List.filterMap_eq_nil_iff]
  intro item hmem
  rcases List.mem_append.mp hmem with hlink | hattempt
  · obtain ⟨_, _, rfl⟩ := List.mem_map.mp hlink
    rfl
  · obtain ⟨_, _, hitem⟩ := List.mem_filterMap.mp hattempt
    obtain ⟨_, _, rfl⟩ := Option.map_eq_some_iff.mp hitem
    rfl

theorem finished_not_mem_relink (s : Sending crc) (handle : SpawnHandle)
    (result : Except SendError (Response crc)) :
    .finished handle result ∉ (s.relink link items).2 := by
  intro hmem
  rcases List.mem_append.mp hmem with hlink | hattempt
  · obtain ⟨_, _, hitem⟩ := List.mem_map.mp hlink
    cases hitem
  · obtain ⟨_, _, hitem⟩ := List.mem_filterMap.mp hattempt
    obtain ⟨_, _, hpair⟩ := Option.map_eq_some_iff.mp hitem
    cases hpair

theorem attemptsOf_relink (h : Trying s seen) (handle : SpawnHandle) :
    attemptsOf handle (s.relink link items).2 =
      (((s.sends handle).bind fun send => send.reply? items).map fun entry =>
        (entry.1, checkReply (.ok entry.2))).toList := by
  have hlinks : (items.map SendingSeen.link).filterMap (SendingSeen.attempted? handle) = [] :=
    filterMap_map_none fun _ => rfl
  rw [attemptsOf, Sending.relink, List.filterMap_append, hlinks, List.nil_append]
  have hlive := h.live handle
  rcases h.sound.tracked.live with hnone | ⟨other, task, htasks, _⟩
  · rw [hnone, List.lookup_nil, Option.bind_none, Option.map_eq_none_iff] at hlive
    rw [hnone, hlive]
    rfl
  · rw [htasks, List.lookup_cons] at hlive
    simp only [htasks, List.filterMap_cons, List.filterMap_nil]
    generalize hother : ((s.sends other).bind fun send => send.reply? items) = reply
    by_cases hsame : other = handle
    · subst hsame
      rw [hother]
      cases reply with
      | none => rfl
      | some entry => simp [SendingSeen.attempted?]
    · simp only [beq_eq_false_iff_ne.mpr (Ne.symm hsame), List.lookup_nil, Option.bind_none,
        Option.map_eq_none_iff] at hlive
      rw [hlive]
      cases reply with
      | none => rfl
      | some entry => simp [SendingSeen.attempted?, hsame]

theorem stage_of_reply? {send : RetrySend crc} {msg : Message crc}
    {reply : Option (Response crc)} (hreply : send.reply? items = some (msg, reply)) :
    ∃ tx, send.stage = .waiting msg tx ∧
      ∃ item ∈ items, LinkSeen.reply? tx item = some reply := by
  unfold RetrySend.reply? at hreply
  split at hreply
  · rename_i tx hstage
    obtain ⟨found, hfound, hpair⟩ := Option.map_eq_some_iff.mp hreply
    cases hpair
    exact ⟨tx, hstage, List.exists_of_findSome?_eq_some hfound⟩
  · cases hreply

theorem account_settle (h : Trying s seen) {handle : SpawnHandle} {send : RetrySend crc}
    (hsend : s.sends handle = some send) :
    SendAccount handle (send.settle items) (seen ++ (s.relink link items).2) := by
  have haccount := h.accounts handle send hsend
  have hattempts := h.attemptsOf_relink link items handle
  rw [hsend, Option.bind_some] at hattempts
  have hcomposed := composedBy_relink link items s handle
  unfold RetrySend.settle
  cases hreply : send.reply? items with
  | none =>
      rw [hreply] at hattempts
      exact haccount.append hcomposed hattempts
  | some entry =>
      obtain ⟨msg, reply⟩ := entry
      rw [hreply] at hattempts
      obtain ⟨tx, hstage, _⟩ := stage_of_reply? items hreply
      exact haccount.attempted (by rw [hstage]; rfl) hcomposed hattempts

theorem checkReply_ok {reply : Option (Response crc)} {resp : Response crc}
    (h : checkReply (.ok reply) = .ok resp) :
    reply = some resp ∧ resp.header.ty.invalid = false := by
  unfold checkReply at h
  split at h
  · cases h
  · cases h
  · rename_i heq
    split at h
    · cases h
    · rename_i hvalid
      cases h
      cases heq
      exact ⟨rfl, by simpa using hvalid⟩

theorem believed_relink (h : Trying s seen)
    (hcredible : Credible link (linkOf (seen ++ (s.relink link items).2))) {handle : SpawnHandle}
    {msg : Message crc} {resp : Response crc}
    (hmem : (msg, .ok resp) ∈ attemptsOf handle (s.relink link items).2) :
    Acked (seen ++ (s.relink link items).2) msg resp := by
  rw [h.attemptsOf_relink, Option.mem_toList, Option.map_eq_some_iff] at hmem
  obtain ⟨⟨msg', reply⟩, hreply, hpair⟩ := hmem
  obtain ⟨send, hsend, hreply⟩ := Option.bind_eq_some_iff.mp hreply
  obtain ⟨rfl, hcheck⟩ := Prod.mk.inj hpair
  obtain ⟨rfl, hvalid⟩ := checkReply_ok hcheck
  obtain ⟨tx, hstage, item, hitem, hanswer⟩ := stage_of_reply? items hreply
  have hregistered := (h.accounts handle send hsend).registered _ tx hstage
  have hlinks : linkOf (seen ++ (s.relink link items).2) = linkOf seen ++ items := by
    rw [linkOf_append, linkOf, linkOf, link?_relink]
  rw [Acked]
  rw [hlinks] at hcredible ⊢
  cases item with
  | answered origin tx' resp' =>
      simp only [LinkSeen.reply?] at hanswer
      split at hanswer
      · rename_i hsame
        cases hanswer
        subst hsame
        refine ⟨origin, tx', List.mem_append_left _ hregistered, List.mem_append_right _ hitem, ?_,
          hvalid⟩
        obtain ⟨before, after, hsplit⟩ :=
          List.append_of_mem (List.mem_append_right (linkOf seen) hitem)
        obtain ⟨earlier, delivery, msg'', hbefore, hresponse, hfirst, hanswers⟩ :=
          hcredible.matched before _ after hsplit origin tx' resp rfl
        have hmem : .registered tx' msg'' ∈ linkOf seen ++ items := by
          rw [hsplit, hbefore]
          simp [hfirst]
        rw [hanswers, hcredible.single tx' _ _ hmem (List.mem_append_left _ hregistered)]
      · cases hanswer
  | dropped tx' =>
      simp only [LinkSeen.reply?] at hanswer
      split at hanswer
      · cases hanswer
      · cases hanswer
  | _ => cases hanswer

theorem relink (h : Trying s seen)
    (hcredible : Credible link (linkOf (seen ++ (s.relink link items).2))) :
    Trying (s.relink link items).1 (seen ++ (s.relink link items).2) := by
  refine h.step rfl ?_ ?_ ?_ ?_ (finished_not_mem_relink link items s)
  · intro handle
    simp only [Sending.relink, Option.map_map]
    cases s.sends handle with
    | none => rfl
    | some send =>
        simp only [Option.map_some, Function.comp_apply, RetrySend.settle]
        split <;> rfl
  · intro handle send hsend
    obtain ⟨before, hbefore, rfl⟩ := Option.map_eq_some_iff.mp hsend
    exact h.account_settle link items hbefore
  · intro handle hnone
    refine ⟨composedBy_relink link items s handle, ?_⟩
    rw [h.attemptsOf_relink, hnone]
    rfl
  · intro handle msg resp hmem
    exact h.believed_relink link items hcredible hmem

end Relink

section System

variable {system : System crc} {a : Action crc} {items : List (Seen crc)}

theorem sendsOf_eq (h : Trying s seen) (hmoved : Moved s.system a system items)
    {handle : SpawnHandle} {send : RetrySend crc}
    (hsend : Sending.sendsOf system.ctx.tasks s.sends handle = some send) :
    s.sends handle = some send ∨
      s.sends handle = none ∧ composedBy handle seen = [] ∧ attemptsOf handle seen = [] ∧
        ∃ dest event, send = .start dest event := by
  obtain ⟨⟨dest, event⟩, hretries, rfl⟩ := Option.map_eq_some_iff.mp hsend
  cases hbefore : s.sends handle with
  | some send => exact .inl rfl
  | none =>
      refine .inr ⟨rfl, ?_⟩
      have hunborn : s.system.ctx.nextHandle ≤ handle := by
        have hlive := h.live handle
        rw [hbefore, Option.map_none] at hlive
        rcases hmoved.tasks with ⟨htasks, _⟩ | ⟨htasks, _⟩ | ⟨task, htasks, _⟩
        · rw [htasks, ← hlive] at hretries
          cases hretries
        · rw [htasks] at hretries
          cases hretries
        · rw [htasks, List.lookup_cons] at hretries
          split at hretries
          · rename_i hsame
            exact Nat.le_of_eq (beq_iff_eq.mp hsame).symm
          · cases hretries
      exact ⟨(h.unborn handle hunborn).1, (h.unborn handle hunborn).2, dest, event, rfl⟩

theorem live_sendsOf (h : Trying s seen) (hmoved : Moved s.system a system items)
    (handle : SpawnHandle) :
    (Sending.sendsOf system.ctx.tasks s.sends handle).map RetrySend.command =
      (system.ctx.tasks.lookup handle).bind Task.retries := by
  unfold Sending.sendsOf
  cases hretries : (system.ctx.tasks.lookup handle).bind Task.retries with
  | none => rfl
  | some command =>
      obtain ⟨dest, event⟩ := command
      cases hsend : s.sends handle with
      | none => rfl
      | some send =>
          obtain ⟨task, htask, hcommand, hlt⟩ := h.task_of_send hsend
          simp only [Option.map_some, Option.getD_some, Option.some.injEq]
          -- the task is the one that was live before
          rcases hmoved.tasks with ⟨htasks, _⟩ | ⟨htasks, _⟩ | ⟨other, htasks, _⟩
          · rw [htasks, htask, List.lookup_cons, BEq.rfl] at hretries
            exact Option.some.inj (hcommand.symm.trans hretries)
          · rw [htasks] at hretries
            cases hretries
          · rw [htasks, List.lookup_cons, beq_eq_false_iff_ne.mpr (Nat.ne_of_lt hlt)] at hretries
            cases hretries

theorem nextHandle_le (hmoved : Moved s.system a system items) :
    s.system.ctx.nextHandle ≤ system.ctx.nextHandle := by
  rcases hmoved.tasks with ⟨_, hnext⟩ | ⟨_, hnext⟩ | ⟨_, _, hnext⟩
  · exact Nat.le_of_eq hnext.symm
  · exact Nat.le_of_eq hnext.symm
  · rw [hnext]
    exact Nat.le_succ _

theorem sendsOf_none (h : Trying s seen) (hmoved : Moved s.system a system items)
    {handle : SpawnHandle} (hnone : s.sends handle = none)
    (hlt : handle < s.system.ctx.nextHandle) :
    Sending.sendsOf system.ctx.tasks s.sends handle = none := by
  have hlive := h.live handle
  rw [hnone, Option.map_none] at hlive
  unfold Sending.sendsOf
  rcases hmoved.tasks with ⟨htasks, _⟩ | ⟨htasks, _⟩ | ⟨task, htasks, _⟩
  · rw [htasks, ← hlive]
    rfl
  · rw [htasks]
    rfl
  · rw [htasks, List.lookup_cons, beq_eq_false_iff_ne.mpr (Nat.ne_of_lt hlt)]
    rfl

theorem system_step (h : Trying s seen) (hnext : s.system.next a = some (system, items))
    (front : List (SendingSeen crc))
    (hquiet : ∀ handle, composedBy handle front = [] ∧ attemptsOf handle front = [])
    (hended : ∀ handle result, .finished handle result ∈ front →
      Sending.sendsOf system.ctx.tasks s.sends handle = none ∧
        ∃ send, s.sends handle = some send ∧ send.retry.result = some result)
    (hopened : system.self.state = .garageOpen →
      GarageOpened (seen ++ (front ++ items.map .system))) :
    Trying { s with system := system, sends := Sending.sendsOf system.ctx.tasks s.sends }
      (seen ++ (front ++ items.map .system)) := by
  have hmoved := moved_of_next h.sound.tracked hnext
  have hshown (handle : SpawnHandle) :
      composedBy handle (front ++ items.map SendingSeen.system) = [] ∧
        attemptsOf handle (front ++ items.map SendingSeen.system) = [] := by
    rw [composedBy_append, attemptsOf_append, (hquiet handle).1, (hquiet handle).2]
    exact ⟨filterMap_map_none fun _ => rfl, filterMap_map_none fun _ => rfl⟩
  have hpast (handle : SpawnHandle) : ∃ send, SendAccount handle send seen := by
    cases hsend : s.sends handle with
    | none => exact h.past handle hsend
    | some send => exact ⟨send, h.accounts handle send hsend⟩
  exact
    { sound := h.sound.moved hmoved
      live := h.live_sendsOf hmoved
      accounts := by
        intro handle send hsend
        rcases h.sendsOf_eq hmoved hsend with hold | ⟨_, hcomposed, hattempts, dest, event, rfl⟩
        · exact (h.accounts handle send hold).append (hshown handle).1 (hshown handle).2
        · exact (account_start dest event hcomposed hattempts).append (hshown handle).1
            (hshown handle).2
      past := by
        intro handle _
        obtain ⟨send, hsend⟩ := hpast handle
        exact ⟨send, hsend.append (hshown handle).1 (hshown handle).2⟩
      unborn := by
        intro handle hle
        obtain ⟨hcomposed, hattempts⟩ := h.unborn handle ((nextHandle_le hmoved).trans hle)
        rw [composedBy_append, attemptsOf_append, hcomposed, hattempts]
        exact hshown handle
      believed := by
        intro handle msg resp hmem
        rw [attemptsOf_append, (hshown handle).2, List.append_nil] at hmem
        exact (h.believed handle msg resp hmem).append _
      ended := by
        intro handle result hmem
        rcases List.mem_append.mp hmem with hold | hnew
        · obtain ⟨hnone, hlt, send, hsend, hresult⟩ := h.ended handle result hold
          exact ⟨h.sendsOf_none hmoved hnone hlt, hlt.trans_le (nextHandle_le hmoved), send,
            hsend.append (hshown handle).1 (hshown handle).2, hresult⟩
        · rcases List.mem_append.mp hnew with hfront | hitem
          · obtain ⟨hnone, send, hsend, hresult⟩ := hended handle result hfront
            obtain ⟨_, _, _, hlt⟩ := h.task_of_send hsend
            exact ⟨hnone, hlt.trans_le (nextHandle_le hmoved), send,
              (h.accounts handle send hsend).append (hshown handle).1 (hshown handle).2, hresult⟩
          · obtain ⟨_, _, heq⟩ := List.mem_map.mp hitem
            cases heq
      opened := hopened }

end System

/-- The result of a send that succeeds is the answer to a message of its own. -/
theorem acked_of_result (h : Trying s seen) {handle : SpawnHandle} {send : RetrySend crc}
    {resp : Response crc} (haccount : SendAccount handle send seen)
    (hresult : send.retry.result = some (.ok resp)) :
    ∃ reading call, command crc (params reading call) send.dest send.event ∈
        composedBy handle seen ∧
      Acked seen (command crc (params reading call) send.dest send.event) resp := by
  obtain ⟨errors, houtcomes, _⟩ := haccount.after.succeeded hresult
  have hmem : .ok resp ∈ (attemptsOf handle seen).map Prod.snd := by
    rw [houtcomes]
    simp
  obtain ⟨⟨msg, outcome⟩, hattempt, heq⟩ := List.mem_map.mp hmem
  cases heq
  have hcomposed : msg ∈ composedBy handle seen := by
    rw [haccount.messages]
    exact List.mem_append_left _ (List.mem_map_of_mem hattempt)
  obtain ⟨reading, call, rfl⟩ := haccount.commands msg hcomposed
  exact ⟨reading, call, hcomposed, h.believed handle _ resp hattempt⟩

theorem system (h : Trying s seen) {a : Action crc} {system : System crc}
    {items : List (Seen crc)} (hnext : s.system.next a = some (system, items))
    (hplain : ∀ handle succeeded, a = .fire handle succeeded → s.sends handle = none) :
    Trying { s with system := system, sends := Sending.sendsOf system.ctx.tasks s.sends }
      (seen ++ items.map .system) := by
  refine h.system_step hnext [] (fun _ => ⟨rfl, rfl⟩) (by simp) ?_
  intro hstate
  rcases (moved_of_next h.sound.tracked hnext).opens hstate with
    hbefore | ⟨mail, hmem, hevent⟩ | ⟨handle, rfl, htasks⟩
  · exact (h.opened hbefore).append _
  · exact .inl ⟨mail, List.mem_append_right _ (List.mem_map_of_mem hmem), hevent⟩
  · have hlive := h.live handle
    rw [hplain handle true rfl, htasks, List.lookup_cons, BEq.rfl] at hlive
    cases hlive

theorem finished (h : Trying s seen) {handle : SpawnHandle} {send : RetrySend crc}
    {result : Except SendError (Response crc)} {system : System crc} {items : List (Seen crc)}
    (hsend : s.sends handle = some send) (hresult : send.retry.result = some result)
    (hnext : s.system.next (.fire handle result.isOk) = some (system, items)) :
    Trying { s with system := system, sends := Sending.sendsOf system.ctx.tasks s.sends }
      (seen ++ .finished handle result :: items.map .system) := by
  have hmoved := moved_of_next h.sound.tracked hnext
  obtain ⟨task, htasks, hretries, _⟩ := h.task_of_send hsend
  refine h.system_step hnext [.finished handle result] (fun _ => ⟨rfl, rfl⟩) ?_ ?_
  · intro other result' hmem
    cases List.mem_singleton.mp hmem
    obtain ⟨sm, ctx, outputs, rfl, _, hfired⟩ :=
      hmoved.on_fire (by rw [htasks]; exact List.mem_singleton_self _)
    refine ⟨?_, send, hsend, hresult⟩
    rw [Sending.sendsOf, hfired.ends (by rw [hretries]; rfl)]
    rfl
  · intro hstate
    rcases hmoved.opens hstate with hbefore | ⟨mail, hmem, hevent⟩ | ⟨other, hsame, hgarage⟩
    · exact (h.opened hbefore).append _
    · refine .inl ⟨mail, List.mem_append_right _ (List.mem_append_right _ ?_), hevent⟩
      exact List.mem_map_of_mem hmem
    · obtain ⟨rfl, hok⟩ := Action.fire.inj hsame
      rw [htasks] at hgarage
      cases hgarage
      obtain ⟨hdest, hevent⟩ := Prod.mk.inj (Option.some.inj hretries)
      cases result with
      | error e => cases hok
      | ok resp =>
          obtain ⟨reading, call, hcomposed, hacked⟩ :=
            h.acked_of_result (h.accounts handle send hsend) hresult
          rw [← hdest, ← hevent] at hcomposed hacked
          refine .inr ⟨handle, reading, call, resp, by simp, ?_, hacked.append _⟩
          rw [composedBy_append]
          exact List.mem_append_left _ hcomposed

theorem timedOut (h : Trying s seen) {handle : SpawnHandle} {send : RetrySend crc}
    {msg : Message crc} (hsend : s.sends handle = some send)
    (hmsg : send.stage.msg? = some msg) (hsystem : s'.system = s.system)
    (hsends : ∀ other, s'.sends other =
      if other = handle then some (send.finish (.error .timeout)) else s.sends other) :
    Trying s' (seen ++ [.attempted handle msg (checkReply (.error .timeout))]) := by
  have hattempts : attemptsOf handle
      [.attempted handle msg (checkReply (.error .timeout) : Except _ (Response crc))] =
        [(msg, checkReply (.error .timeout))] := by
    simp [attemptsOf, SendingSeen.attempted?]
  have haccount := (h.accounts handle send hsend).attempted hmsg rfl hattempts
  refine h.setSend haccount hsend rfl hsystem hsends ?_ ?_ (by simp)
  · intro other hother
    simp [composedBy, attemptsOf, SendingSeen.composed?, SendingSeen.attempted?, Ne.symm hother]
  · intro msg' resp hmem
    rw [hattempts] at hmem
    cases List.mem_singleton.mp hmem

theorem registered_of_request {link link' : Link crc} {msg : Message crc} {awaited : Bool}
    {items : List (LinkSeen crc)} (h : link.next (.request msg awaited) = some (link', items)) :
    .registered link.nextSender msg ∈ items := by
  simp only [Link.next] at h
  cases h
  exact List.mem_cons_self

theorem submitted (h : Trying s seen) {handle : SpawnHandle} {send : RetrySend crc}
    {msg : Message crc} {link : Link crc} {items : List (LinkSeen crc)}
    (hsend : s.sends handle = some send) (hstage : send.stage = .queued msg)
    (hnext : s.link.next (.request msg true) = some (link, items))
    (hcredible : Credible link (linkOf (seen ++ (s.relink link items).2))) :
    Trying ((s.relink link items).1.setSend handle
      { send with stage := .waiting msg s.link.nextSender }) (seen ++ (s.relink link items).2) := by
  have hunasked : send.reply? items = none := by
    rw [RetrySend.reply?, hstage]
  have hattempts : attemptsOf handle (s.relink link items).2 = [] := by
    rw [h.attemptsOf_relink, hsend, Option.bind_some, hunasked]
    rfl
  have hregistered : .registered s.link.nextSender msg ∈ linkOf (s.relink link items).2 := by
    rw [linkOf, link?_relink]
    exact registered_of_request hnext
  have haccount := (h.accounts handle send hsend).submitted hstage
    (composedBy_relink link items s handle) hattempts hregistered
  have hrelinked := h.relink link items hcredible
  have hsame : (s.relink link items).1.sends handle = some send := by
    simp only [Sending.relink, hsend, Option.map_some, RetrySend.settle, hunasked]
  rw [← List.append_nil (seen ++ _)] at haccount ⊢
  exact hrelinked.setSend haccount hsame rfl rfl (fun _ => rfl) (fun _ _ => ⟨rfl, rfl⟩)
    (by simp [attemptsOf]) (by simp)

theorem moved (h : Trying s seen) {a : SendingAction crc}
    (hmoved : SendingMoved s a s' shown) (hcredible : Credible s'.link (linkOf (seen ++ shown))) :
    Trying s' (seen ++ shown) := by
  cases hmoved with
  | system hnext hplain => exact h.system hnext hplain
  | finished hsend hresult hnext => exact h.finished hsend hresult hnext
  | link _ => exact h.relink _ _ hcredible
  | @composed handle send reading call hsend hstage =>
      have haccount := (h.accounts handle send hsend).composed hstage reading call
      refine h.setSend haccount hsend rfl rfl (fun _ => rfl) ?_ (by simp [attemptsOf,
        SendingSeen.attempted?]) (by simp)
      intro other hother
      simp [composedBy, attemptsOf, SendingSeen.composed?, SendingSeen.attempted?, Ne.symm hother]
  | submitted hsend hstage hnext => exact h.submitted hsend hstage hnext hcredible
  | @timedOutQueued handle send msg hsend hstage =>
      exact h.timedOut hsend (by rw [hstage]; rfl) rfl fun _ => rfl
  | @timedOut handle send msg tx link items hsend hstage hnext =>
      exact h.timedOut hsend (by rw [hstage]; rfl) rfl fun _ => rfl
  | @woken handle send hsend hstage hgoes =>
      have haccount := (h.accounts handle send hsend).woken hstage hgoes
      rw [← List.append_nil seen] at haccount
      exact h.setSend haccount hsend rfl rfl (fun _ => rfl) (fun _ _ => ⟨rfl, rfl⟩)
        (by simp [attemptsOf]) (by simp)

end Trying

section Runs

variable {visits : List (Visit (Sending crc) (SendingAction crc) (SendingSeen crc))}
  {s : Sending crc} {seen : List (SendingSeen crc)}

theorem trying_of_run (hrun : (Sending.machine crc).Run visits s seen) : Trying s seen := by
  induction hrun with
  | start => exact trying_init
  | step hrun hnext ih =>
      exact ih.moved (sendingMoved_of_next hnext)
        (credible_of_run (Sending.toLink.run (hrun.step hnext)))

/-- Whenever the state machine takes the garage for open, the central station has
said so: it has reported that the rover is off the link, or has acked the very
command to open the garage, undamaged. -/
theorem garage_opened (hrun : (Sending.machine crc).Run visits s seen)
    (hstate : s.system.self.state = .garageOpen) : GarageOpened seen :=
  (trying_of_run hrun).opened hstate

def garageCommand (call : Nat) : Message (StandardCRC crc8Smbus) :=
  command _ (params 0 call) .centralStation .csGarageOpen

def garageRetried : List (SendingAction (StandardCRC crc8Smbus)) :=
  [.system (.arriveUp (roverPacket .feGarageOpen)), .system .handle, .compose 0 0 0, .submit 0,
    .timeout 0, .wake 0, .compose 0 0 1, .submit 0,
    .link (.downPacket (wire (Station.ackOf (garageCommand 1)))), .link (.deliver 0),
    .system (.fire 0 true)]

set_option maxRecDepth 100000 in
theorem garage_opened_garageRetried : ∃ visits s seen,
    (Sending.machine (StandardCRC crc8Smbus)).Run visits s seen ∧
      s.system.self.state = .garageOpen ∧ GarageOpened seen := by
  have hrun := Machine.Run.start.follow
    (show (Sending.machine _).follow [] _ [] garageRetried = some (_, _, _) from rfl)
  exact ⟨_, _, _, hrun, rfl, garage_opened hrun rfl⟩

/-- A send makes the same command four times at most, one after another, and ends
with the first that is acked, or with the last error once all four have failed. -/
theorem sends_tried (hrun : (Sending.machine crc).Run visits s seen) (handle : SpawnHandle) :
    (composedBy handle seen).length ≤ 4 ∧
      (∃ dest event, ∀ msg ∈ composedBy handle seen,
        ∃ reading call, msg = command crc (params reading call) dest event) ∧
      (attemptsOf handle seen).map Prod.fst <+: composedBy handle seen ∧
      (composedBy handle seen).length ≤ (attemptsOf handle seen).length + 1 ∧
      (∀ msg resp, (msg, .ok resp) ∈ attemptsOf handle seen → Acked seen msg resp) ∧
      (∀ resp, .finished handle (.ok resp) ∈ seen → ∃ errors : List SendError,
        (attemptsOf handle seen).map Prod.snd = errors.map .error ++ [.ok resp]) ∧
      ∀ e, .finished handle (.error e) ∈ seen → ∃ errors : List SendError,
        (attemptsOf handle seen).map Prod.snd = errors.map .error ∧ errors.length = 4 ∧
          errors.getLast? = some e := by
  have htrying := trying_of_run hrun
  obtain ⟨send, haccount⟩ : ∃ send, SendAccount handle send seen := by
    cases hsend : s.sends handle with
    | none => exact htrying.past handle hsend
    | some send => exact ⟨send, htrying.accounts handle send hsend⟩
  refine ⟨?_, ⟨send.dest, send.event, haccount.commands⟩, ?_, ?_, htrying.believed handle, ?_, ?_⟩
  · have hafter := haccount.after.length_le
    rw [haccount.messages, List.length_append, List.length_map]
    rw [List.length_map] at hafter
    cases hmsg : send.stage.msg? with
    | none => exact hafter
    | some msg =>
        have hlt := haccount.after.length_lt (haccount.goes (by rw [hmsg]; rfl))
        rw [List.length_map] at hlt
        exact hlt
  · rw [haccount.messages]
    exact List.prefix_append _ _
  · rw [haccount.messages, List.length_append, List.length_map]
    exact Nat.add_le_add_left Option.length_toList_le _
  · intro resp hmem
    obtain ⟨_, _, send', haccount', hresult⟩ := htrying.ended handle _ hmem
    obtain ⟨errors, houtcomes, _⟩ := haccount'.after.succeeded hresult
    exact ⟨errors, houtcomes⟩
  · intro e hmem
    obtain ⟨_, _, send', haccount', hresult⟩ := htrying.ended handle _ hmem
    exact haccount'.after.failed hresult

set_option maxRecDepth 100000 in
theorem sends_tried_garageRetried : ∃ visits s seen,
    (Sending.machine (StandardCRC crc8Smbus)).Run visits s seen ∧
      composedBy 0 seen = [garageCommand 0, garageCommand 1] ∧ (composedBy 0 seen).length ≤ 4 ∧
      .finished 0 (.ok (.message (Station.ackOf (garageCommand 1)))) ∈ seen := by
  have hrun := Machine.Run.start.follow
    (show (Sending.machine _).follow [] _ [] garageRetried = some (_, _, _) from rfl)
  refine ⟨_, _, _, hrun, rfl, (sends_tried hrun 0).1, ?_⟩
  exact List.mem_append_right _ List.mem_cons_self

end Runs

end AntRelay.Runtime
