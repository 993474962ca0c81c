import AntRelay.Runtime.StateMachine

namespace AntRelay.Runtime
open AntRelay.Base AntRelay.Format

variable {crc : Checksum}

/-- At most one task is live, and the actor keeps its handle.  The handle it
keeps may also be that of a task that has ended. -/
structure Tracked (sm : StateMachine) (ctx : Context crc) : Prop where
  live : ctx.tasks = [] ∨
    ∃ handle task, ctx.tasks = [(handle, task)] ∧ sm.runningTask = some handle
  fresh : ∀ handle, sm.runningTask = some handle → handle < ctx.nextHandle

namespace Context

def only (ctx : Context crc) (task : Task) : Context crc :=
  { ctx with tasks := [(ctx.nextHandle, task)], nextHandle := ctx.nextHandle + 1 }

def idle (ctx : Context crc) : Context crc :=
  { ctx with tasks := [] }

def cancelOld (ctx : Context crc) : Option SpawnHandle → Context crc
  | some handle => ctx.cancelFuture handle
  | none => ctx

end Context

section Cancel

variable {sm : StateMachine} {ctx : Context crc}

theorem Tracked.filter_tasks (h : Tracked sm ctx) {handle : SpawnHandle}
    (hkept : sm.runningTask = some handle) :
    ctx.tasks.filter (fun entry => entry.1 != handle) = [] := by
  cases h.live with
  | inl hnone => rw [hnone, List.filter_nil]
  | inr hone =>
      obtain ⟨live, task, htasks, hlive⟩ := hone
      rw [hkept] at hlive
      cases hlive
      simp [htasks]

theorem Tracked.start_cancelOld (h : Tracked sm ctx) (task : Task) :
    (ctx.start task).2.cancelOld sm.runningTask = ctx.only task := by
  cases hkept : sm.runningTask with
  | none =>
      have hnone : ctx.tasks = [] := by
        cases h.live with
        | inl hnone => exact hnone
        | inr hone =>
            obtain ⟨_, _, _, hlive⟩ := hone
            rw [hkept] at hlive
            cases hlive
      simp [Context.cancelOld, Context.start, Context.only, hnone]
  | some handle =>
      have hfresh := h.fresh handle hkept
      have hother : (ctx.nextHandle != handle) = true := by
        rw [bne_iff_ne]
        exact Nat.ne_of_gt hfresh
      unfold Context.cancelOld Context.cancelFuture Context.start Context.only
      simp only [List.filter_append, h.filter_tasks hkept, List.nil_append]
      simp [hother]

theorem Tracked.cancelOld (h : Tracked sm ctx) :
    ctx.cancelOld sm.runningTask = ctx.idle := by
  cases hkept : sm.runningTask with
  | none =>
      cases h.live with
      | inl hnone =>
          unfold Context.cancelOld Context.idle
          rw [← hnone]
      | inr hone =>
          obtain ⟨_, _, _, hlive⟩ := hone
          rw [hkept] at hlive
          cases hlive
  | some handle =>
      unfold Context.cancelOld Context.cancelFuture Context.idle
      simp only [h.filter_tasks hkept]

end Cancel

def ownEvent : State → Option Event
  | .pingCentralStation => some .fePowerSupplied
  | .garageOpen => some .feGarageOpen
  | .bleConnected => some .csBleConnect
  | .antRun => some .feRoverStop
  | .flightIdle => none
  | .antReady => none

def matched : List Event :=
  [.fePowerSupplied, .feGarageOpen, .csBleDisconnect, .csBleConnect, .feRoverStop, .feRoverMove,
    .feRestart, .debugCsPing, .antPing]

inductive Stepped (sm : StateMachine) (ctx : Context crc) :
    Event → StateMachine → Context crc → List (Output crc) → Prop where
  | repeated {event : Event} (h : ownEvent sm.state = some event) :
      Stepped sm ctx event sm ctx []
  | unmatched {event : Event} (h : event ∉ matched) : Stepped sm ctx event sm ctx []
  | powerSupplied (h : sm.state ≠ .pingCentralStation) :
      Stepped sm ctx .fePowerSupplied
        { sm with state := .pingCentralStation, runningTask := some ctx.nextHandle }
        (ctx.only .pingInterval) []
  | garageOpen (h : sm.state ≠ .garageOpen) :
      Stepped sm ctx .feGarageOpen { sm with runningTask := some ctx.nextHandle }
        (ctx.only .garageOpenSend) [.command .centralStation .csGarageOpen]
  | bleDisconnect :
      Stepped sm ctx .csBleDisconnect { sm with state := .garageOpen, runningTask := none }
        ctx.idle []
  | bleConnect (h : sm.state ≠ .bleConnected) :
      Stepped sm ctx .csBleConnect
        { sm with state := .bleConnected, runningTask := some ctx.nextHandle }
        (ctx.only .bleTimer) []
  | roverStop (h : sm.state = .antReady) :
      Stepped sm ctx .feRoverStop
        { sm with state := .antRun, runningTask := some ctx.nextHandle }
        (ctx.only .antStartDelay) []
  | roverStopQueued (hrun : sm.state ≠ .antRun) (hready : sm.state ≠ .antReady) :
      Stepped sm ctx .feRoverStop { sm with pendingEvt := some .feRoverStop } ctx []
  | roverMove (h : sm.state = .antRun) :
      Stepped sm ctx .feRoverMove
        { sm with state := .antReady, runningTask := some ctx.nextHandle }
        (ctx.only .antStopSend) [.command .ant .antStop]
  | roverMoveCleared (h : sm.state ≠ .antRun) :
      Stepped sm ctx .feRoverMove { sm with pendingEvt := none } ctx []
  | csPinged :
      Stepped sm ctx .debugCsPing sm (ctx.wait .centralStation .csPing)
        [.command .centralStation .csPing]
  | antPinged :
      Stepped sm ctx .antPing sm (ctx.wait .ant .antPing) [.command .ant .antPing]

theorem step_eq (sm : StateMachine) (event : Event) (ctx : Context crc) :
    sm.step event ctx = (StateMachine.arm { sm with runningTask := none } sm.runningTask
      event ctx).map fun done =>
        (done.self, done.ctx.cancelOld done.oldHandle, done.outputs) := by
  unfold StateMachine.step
  congr 1

theorem stepped_of_step {sm sm' : StateMachine} {ctx ctx' : Context crc} {event : Event}
    {outputs : List (Output crc)} (htracked : Tracked sm ctx)
    (h : sm.step event ctx = some (sm', ctx', outputs)) :
    Stepped sm ctx event sm' ctx' outputs := by
  rw [step_eq, Option.map_eq_some_iff] at h
  obtain ⟨done, harm, hdone⟩ := h
  have hstart := htracked.start_cancelOld
  have hdrop := htracked.cancelOld
  cases event with
  | fePowerSupplied =>
      simp only [StateMachine.arm] at harm
      split at harm
      · rename_i hstate
        cases harm
        cases hdone
        exact .repeated (by rw [hstate]; rfl)
      · rename_i hstate
        cases harm
        cases hdone
        rw [hstart]
        exact .powerSupplied hstate
  | feGarageOpen =>
      simp only [StateMachine.arm] at harm
      split at harm
      · rename_i hstate
        cases harm
        cases hdone
        exact .repeated (by rw [hstate]; rfl)
      · rename_i hstate
        cases harm
        cases hdone
        rw [hstart]
        exact .garageOpen hstate
  | csBleDisconnect =>
      cases harm
      cases hdone
      rw [hdrop]
      exact .bleDisconnect
  | csBleConnect =>
      simp only [StateMachine.arm] at harm
      split at harm
      · rename_i hstate
        cases harm
        cases hdone
        exact .repeated (by rw [hstate]; rfl)
      · rename_i hstate
        cases harm
        cases hdone
        rw [hstart]
        exact .bleConnect hstate
  | feRoverStop =>
      simp only [StateMachine.arm] at harm
      split at harm
      · rename_i hstate
        cases harm
        cases hdone
        exact .repeated (by rw [hstate]; rfl)
      · rename_i hstate
        cases harm
        cases hdone
        rw [hstart]
        exact .roverStop hstate
      · rename_i hrun hready
        cases harm
        cases hdone
        exact .roverStopQueued hrun hready
  | feRoverMove =>
      simp only [StateMachine.arm] at harm
      split at harm
      · rename_i hstate
        cases harm
        cases hdone
        rw [hstart]
        exact .roverMove hstate
      · rename_i hstate
        cases harm
        cases hdone
        exact .roverMoveCleared hstate
  | feRestart => cases harm
  | debugCsPing =>
      cases harm
      cases hdone
      exact .csPinged
  | antPing =>
      cases harm
      cases hdone
      exact .antPinged
  | _ =>
      cases harm
      cases hdone
      exact .unmatched (by decide)

def Mail.event : Mail crc → Option Event
  | .upCommand msg => some msg.val.header.header.ty.event
  | .downMessage msg =>
      let evt := msg.val.header.header.ty.event
      if evt = .csBleConnect ∨ evt = .csBleDisconnect then some evt else none
  | .eventWrap event => some event

def Mail.forwards : Mail crc → List (Output crc)
  | .upCommand msg =>
      let hdr := msg.val.header.header
      if hdr.destination = .ant ∨ hdr.destination = .centralStation then [.forward msg] else []
  | .downMessage _ => []
  | .eventWrap _ => []

inductive Fired (sm : StateMachine) (ctx : Context crc) :
    Task → Bool → StateMachine → Context crc → List (Output crc) → Prop where
  | ping (succeeded : Bool) :
      Fired sm ctx .pingInterval succeeded sm ctx [.command .centralStation .csPing]
  | garageOpen :
      Fired sm ctx .garageOpenSend true { sm with state := .garageOpen, runningTask := none }
        ctx.idle []
  | garageOpenFailed : Fired sm ctx .garageOpenSend false sm ctx.idle []
  | bleSettled (succeeded : Bool) (h : sm.pendingEvt = none) :
      Fired sm ctx .bleTimer succeeded { sm with state := .antReady } ctx.idle []
  | bleSettledPending (succeeded : Bool) {evt : Event} (h : sm.pendingEvt = some evt) :
      Fired sm ctx .bleTimer succeeded { sm with state := .antReady, pendingEvt := none }
        (ctx.idle.doSend (.eventWrap evt)) []
  | antStart (succeeded : Bool) :
      Fired sm ctx .antStartDelay succeeded { sm with runningTask := some ctx.nextHandle }
        ((ctx.only .antStartInterval).wait .ant .antStart) [.command .ant .antStart]
  | antStartAgain (succeeded : Bool) :
      Fired sm ctx .antStartInterval succeeded sm (ctx.wait .ant .antStart)
        [.command .ant .antStart]
  | antStopped (succeeded : Bool) : Fired sm ctx .antStopSend succeeded sm ctx.idle []

theorem fired_of_callback {sm : StateMachine} {ctx : Context crc} {handle : SpawnHandle}
    {task : Task} (htasks : ctx.tasks = [(handle, task)]) (succeeded : Bool) :
    Fired sm ctx task succeeded (sm.callback handle task succeeded ctx).1
      (sm.callback handle task succeeded ctx).2.1
      (sm.callback handle task succeeded ctx).2.2 := by
  have hfinish : ctx.finish handle = ctx.idle := by
    unfold Context.finish Context.idle
    rw [htasks]
    simp
  unfold StateMachine.callback
  cases task with
  | pingInterval => exact .ping succeeded
  | garageOpenSend =>
      cases succeeded with
      | true =>
          simp only [hfinish, ↓reduceIte]
          exact .garageOpen
      | false =>
          simp only [hfinish, Bool.false_eq_true, ↓reduceIte]
          exact .garageOpenFailed
  | bleTimer =>
      simp only [hfinish]
      cases hpending : sm.pendingEvt with
      | none =>
          have hsame : { sm with state := .antReady, pendingEvt := none } =
              { sm with state := .antReady } := by rw [← hpending]
          rw [hsame]
          exact .bleSettled succeeded hpending
      | some evt => exact .bleSettledPending succeeded hpending
  | antStartDelay =>
      simp only [hfinish]
      exact .antStart succeeded
  | antStartInterval => exact .antStartAgain succeeded
  | antStopSend =>
      simp only [hfinish]
      exact .antStopped succeeded

inductive Moved (s : System crc) : Action crc → System crc → List (Seen crc) → Prop where
  | arrivedUp (msg : Message crc) :
      Moved s (.arriveUp msg) ⟨s.self, s.ctx.doSend (.upCommand msg)⟩ []
  | arrivedDown (msg : Message crc) :
      Moved s (.arriveDown msg) ⟨s.self, s.ctx.doSend (.downMessage msg)⟩ []
  | waited {first : Destination × Event} {rest : List (Destination × Event)}
      (h : s.ctx.waiting = first :: rest) :
      Moved s .waitDone ⟨s.self, { s.ctx with waiting := rest }⟩ []
  | dropped {mail : Mail crc} {mailbox : List (Mail crc)}
      (hmail : s.ctx.mailbox = mail :: mailbox) (hevent : mail.event = none) :
      Moved s .handle ⟨s.self, { s.ctx with mailbox := mailbox }⟩ [.handled mail]
  | stepped {mail : Mail crc} {mailbox : List (Mail crc)} {event : Event} {sm : StateMachine}
      {ctx : Context crc} {outputs : List (Output crc)}
      (hmail : s.ctx.mailbox = mail :: mailbox) (hevent : mail.event = some event)
      (hstep : Stepped s.self { s.ctx with mailbox := mailbox } event sm ctx outputs) :
      Moved s .handle ⟨sm, ctx⟩ (.handled mail :: (outputs ++ mail.forwards).map .sent)
  | fired {handle : SpawnHandle} {task : Task} {succeeded : Bool} {sm : StateMachine}
      {ctx : Context crc} {outputs : List (Output crc)}
      (htasks : s.ctx.tasks = [(handle, task)])
      (hfired : Fired s.self s.ctx task succeeded sm ctx outputs) :
      Moved s (.fire handle succeeded) ⟨sm, ctx⟩ (outputs.map .sent)

theorem Moved.on_event {s s' : System crc} {shown : List (Seen crc)} {mail : Mail crc}
    {mailbox : List (Mail crc)} {event : Event} (h : Moved s .handle s' shown)
    (hmail : s.ctx.mailbox = mail :: mailbox) (hevent : mail.event = some event) :
    ∃ sm ctx outputs, s' = ⟨sm, ctx⟩ ∧
      shown = .handled mail :: (outputs ++ mail.forwards).map .sent ∧
      Stepped s.self { s.ctx with mailbox := mailbox } event sm ctx outputs := by
  cases h with
  | dropped hmail' hevent' =>
      rw [hmail] at hmail'
      cases hmail'
      rw [hevent] at hevent'
      cases hevent'
  | stepped hmail' hevent' hstep =>
      rw [hmail] at hmail'
      cases hmail'
      rw [hevent] at hevent'
      cases hevent'
      exact ⟨_, _, _, rfl, rfl, hstep⟩

theorem Moved.on_fire {s s' : System crc} {shown : List (Seen crc)} {handle : SpawnHandle}
    {task : Task} {succeeded : Bool} (h : Moved s (.fire handle succeeded) s' shown)
    (hmem : (handle, task) ∈ s.ctx.tasks) :
    ∃ sm ctx outputs, s' = ⟨sm, ctx⟩ ∧ shown = outputs.map .sent ∧
      Fired s.self s.ctx task succeeded sm ctx outputs := by
  cases h with
  | fired htasks hfired =>
      rw [htasks] at hmem
      cases List.mem_singleton.mp hmem
      exact ⟨_, _, _, rfl, rfl, hfired⟩

theorem handle_cases {sm sm' : StateMachine} {mail : Mail crc} {ctx ctx' : Context crc}
    {outputs : List (Output crc)} (h : sm.handle mail ctx = some (sm', ctx', outputs)) :
    (mail.event = none ∧ sm' = sm ∧ ctx' = ctx ∧ outputs = []) ∨
      ∃ event stepOutputs, mail.event = some event ∧
        sm.step event ctx = some (sm', ctx', stepOutputs) ∧
        outputs = stepOutputs ++ mail.forwards := by
  cases mail with
  | upCommand msg =>
      simp only [StateMachine.handle, StateMachine.handleUpCommand, Option.map_eq_some_iff] at h
      obtain ⟨⟨sm₁, ctx₁, out₁⟩, hstep, hresult⟩ := h
      refine .inr ⟨_, out₁, rfl, ?_⟩
      simp only [Mail.forwards]
      split at hresult
      · rename_i hdest
        cases hresult
        rw [if_pos hdest]
        exact ⟨hstep, rfl⟩
      · rename_i hdest
        cases hresult
        rw [if_neg hdest, List.append_nil]
        exact ⟨hstep, rfl⟩
  | downMessage msg =>
      simp only [StateMachine.handle, StateMachine.handleDownMessage] at h
      simp only [Mail.event, Mail.forwards, List.append_nil]
      split at h
      · rename_i hble
        rw [if_pos hble]
        exact .inr ⟨_, outputs, rfl, h, rfl⟩
      · rename_i hble
        cases h
        rw [if_neg hble]
        exact .inl ⟨rfl, rfl, rfl, rfl⟩
  | eventWrap event =>
      exact .inr ⟨event, outputs, rfl, h, by simp [Mail.forwards]⟩

theorem moved_of_next {s s' : System crc} {a : Action crc} {shown : List (Seen crc)}
    (htracked : Tracked s.self s.ctx) (h : s.next a = some (s', shown)) : Moved s a s' shown := by
  cases a with
  | arriveUp msg =>
      cases h
      exact .arrivedUp msg
  | arriveDown msg =>
      cases h
      exact .arrivedDown msg
  | waitDone =>
      simp only [System.next] at h
      split at h
      · cases h
      · rename_i hwaiting
        cases h
        exact .waited hwaiting
  | handle =>
      simp only [System.next] at h
      split at h
      · rename_i mail mailbox _ hmail
        rw [Option.map_eq_some_iff] at h
        obtain ⟨⟨sm, ctx, outputs⟩, hhandle, hresult⟩ := h
        cases hresult
        cases handle_cases hhandle with
        | inl hnone =>
            obtain ⟨hevent, rfl, rfl, rfl⟩ := hnone
            exact .dropped hmail hevent
        | inr hsome =>
            obtain ⟨event, stepOutputs, hevent, hstep, rfl⟩ := hsome
            have htracked' : Tracked s.self { s.ctx with mailbox := mailbox } :=
              ⟨htracked.live, htracked.fresh⟩
            exact .stepped hmail hevent (stepped_of_step htracked' hstep)
      · cases h
  | fire handle succeeded =>
      simp only [System.next] at h
      split at h
      · rename_i task _ hlookup
        cases h
        cases htracked.live with
        | inl hnone =>
            rw [hnone] at hlookup
            cases hlookup
        | inr hone =>
            obtain ⟨live, kind, htasks, _⟩ := hone
            rw [htasks, List.lookup_cons] at hlookup
            split at hlookup
            · rename_i hsame
              cases hlookup
              rw [beq_iff_eq] at hsame
              cases hsame
              exact .fired htasks (fired_of_callback htasks succeeded)
            · cases hlookup
      · cases h

end AntRelay.Runtime
