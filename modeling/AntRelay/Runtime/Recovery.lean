import AntRelay.Base.Drain
import AntRelay.Runtime.AntStart

namespace AntRelay.Runtime
open AntRelay.Base AntRelay.Format

variable {crc : Checksum}

/-- A step that needs nothing from outside but an answer, or its timeout. -/
def Action.isOwn : Action crc → Prop
  | .handle => True
  | .waitDone => True
  | _ => False

def Action.brings? : Action crc → Option (Mail crc)
  | .arriveUp msg => some (.upCommand msg)
  | .arriveDown msg => some (.downMessage msg)
  | _ => none

theorem Action.brings?_of_isOwn {a : Action crc} (h : a.isOwn) : a.brings? = none := by
  cases a with
  | arriveUp msg => cases h
  | arriveDown msg => cases h
  | handle => rfl
  | fire handle succeeded => cases h
  | waitDone => rfl

/-- Nothing in the mailbox ends the process. -/
def Stays (s : System crc) : Prop :=
  ∀ mail ∈ s.ctx.mailbox, mail.event ≠ some .feRestart

def Resting (s : System crc) : Prop :=
  s.ctx.waiting = [] ∧ s.ctx.mailbox = []

section Handle

variable {s : System crc} {mail : Mail crc} {mailbox : List (Mail crc)}

theorem step_ne_none (sm : StateMachine) (ctx : Context crc) {event : Event}
    (h : event ≠ .feRestart) : sm.step event ctx ≠ none := by
  rw [step_eq, Ne, Option.map_eq_none_iff]
  intro hnone
  cases event <;> simp only [StateMachine.arm] at hnone
  case feRestart => exact h rfl
  all_goals first
    | cases hnone
    | (split at hnone <;> cases hnone)

theorem handle_next (hwaiting : s.ctx.waiting = []) (hmail : s.ctx.mailbox = mail :: mailbox)
    (hstays : mail.event ≠ some .feRestart) :
    ∃ s' shown, s.next .handle = some (s', shown) := by
  suffices hsome : s.self.handle mail { s.ctx with mailbox := mailbox } ≠ none by
    obtain ⟨⟨sm, ctx, outputs⟩, hhandle⟩ := Option.ne_none_iff_exists'.mp hsome
    refine ⟨⟨sm, ctx⟩, .handled mail :: outputs.map .sent, ?_⟩
    simp only [hwaiting] at hhandle
    simp only [System.next, hwaiting, hmail, hhandle, Option.map_some]
  cases mail with
  | upCommand msg =>
      rw [StateMachine.handle, StateMachine.handleUpCommand, Ne, Option.map_eq_none_iff]
      exact step_ne_none _ _ fun hevent => hstays (congrArg some hevent)
  | downMessage msg =>
      rw [StateMachine.handle, StateMachine.handleDownMessage]
      split
      · rename_i hble
        refine step_ne_none _ _ fun hevent => ?_
        rw [hevent] at hble
        cases hble <;> contradiction
      · simp
  | eventWrap event =>
      exact step_ne_none _ _ fun hevent => hstays (congrArg some hevent)

theorem Stepped.work {sm sm' : StateMachine} {ctx ctx' : Context crc} {event : Event}
    {outputs : List (Output crc)} (h : Stepped sm ctx event sm' ctx' outputs) :
    ctx'.mailbox = ctx.mailbox ∧ ctx'.waiting.length ≤ ctx.waiting.length + 1 := by
  cases h with
  | repeated _ => exact ⟨rfl, Nat.le_succ _⟩
  | unmatched _ => exact ⟨rfl, Nat.le_succ _⟩
  | powerSupplied _ => exact ⟨rfl, Nat.le_succ _⟩
  | garageOpen _ => exact ⟨rfl, Nat.le_succ _⟩
  | bleDisconnect => exact ⟨rfl, Nat.le_succ _⟩
  | bleConnect _ => exact ⟨rfl, Nat.le_succ _⟩
  | roverStop _ => exact ⟨rfl, Nat.le_succ _⟩
  | roverStopQueued _ _ => exact ⟨rfl, Nat.le_succ _⟩
  | roverMove _ => exact ⟨rfl, Nat.le_succ _⟩
  | roverMoveCleared _ => exact ⟨rfl, Nat.le_succ _⟩
  | csPinged => exact ⟨rfl, List.length_append.le⟩
  | antPinged => exact ⟨rfl, List.length_append.le⟩

theorem Moved.handled {s' : System crc} {shown : List (Seen crc)} (h : Moved s .handle s' shown)
    (hmail : s.ctx.mailbox = mail :: mailbox) :
    s'.ctx.mailbox = mailbox ∧ s'.ctx.waiting.length ≤ s.ctx.waiting.length + 1 := by
  cases h with
  | dropped hmail' _ =>
      rw [hmail] at hmail'
      cases hmail'
      exact ⟨rfl, Nat.le_succ _⟩
  | stepped hmail' _ hstep =>
      rw [hmail] at hmail'
      cases hmail'
      exact hstep.work

end Handle

/-- The next step until nothing is left; a message counts itself and the wait
that may come of it. -/
theorem own_step {s : System crc} (hsound : Sound s) (hstays : Stays s) (h : ¬ Resting s) :
    ∃ a s' shown, Action.isOwn a ∧ s.next a = some (s', shown) ∧ (Sound s' ∧ Stays s') ∧
      2 * s'.ctx.mailbox.length + s'.ctx.waiting.length <
        2 * s.ctx.mailbox.length + s.ctx.waiting.length := by
  cases hwaiting : s.ctx.waiting with
  | cons first rest =>
      have hnext : s.next .waitDone = some (⟨s.self, { s.ctx with waiting := rest }⟩, []) := by
        simp only [System.next, hwaiting]
      have hmoved := moved_of_next hsound.tracked hnext
      refine ⟨.waitDone, _, _, trivial, hnext, ⟨hsound.moved hmoved, hstays⟩, ?_⟩
      simp
  | nil =>
      cases hmail : s.ctx.mailbox with
      | nil => exact absurd ⟨hwaiting, hmail⟩ h
      | cons mail mailbox =>
          rw [Stays, hmail, List.forall_mem_cons] at hstays
          obtain ⟨s', shown, hnext⟩ := handle_next hwaiting hmail hstays.1
          have hmoved := moved_of_next hsound.tracked hnext
          obtain ⟨hmailbox, hwait⟩ := hmoved.handled hmail
          rw [hwaiting, List.length_nil] at hwait
          refine ⟨.handle, s', shown, trivial, hnext, ⟨hsound.moved hmoved, ?_⟩, ?_⟩
          · rw [Stays, hmailbox]
            exact hstays.2
          · rw [hmailbox, List.length_cons, List.length_nil]
            omega

theorem takes_to_resting {s : System crc} (hsound : Sound s) (hstays : Stays s) :
    ∃ actions s' shown, (System.machine crc).Takes s actions s' shown ∧
      (∀ a ∈ actions, a.isOwn) ∧ Sound s' ∧ Resting s' := by
  have hstart : Sound s ∧ Stays s := ⟨hsound, hstays⟩
  obtain ⟨s', _, hleads, hinv, hrests⟩ : ∃ s' seen', (System.machine crc).Leads Action.isOwn
      s [] s' seen' ∧ (Sound s' ∧ Stays s') ∧ Resting s' :=
    Machine.leads_to_done (System.machine crc) Action.isOwn (fun s _ => Sound s ∧ Stays s) Resting
      (fun s => 2 * s.ctx.mailbox.length + s.ctx.waiting.length)
      (fun hinv hdone => own_step hinv.1 hinv.2 hdone) hstart
  obtain ⟨actions, shown, htakes, hown⟩ := hleads.takes
  exact ⟨actions, s', shown, htakes, hown, hinv.1, hrests⟩

section Rest

variable {sm sm' : StateMachine} {ctx ctx' : Context crc} {outputs : List (Output crc)}

theorem Stepped.on_bleDisconnect (h : Stepped sm ctx .csBleDisconnect sm' ctx' outputs) :
    sm'.state = .garageOpen ∧ ctx'.waiting = ctx.waiting := by
  cases h with
  | repeated hown => cases hstate : sm.state <;> rw [hstate] at hown <;> cases hown
  | unmatched hmatched => exact absurd (by decide) hmatched
  | bleDisconnect => exact ⟨rfl, rfl⟩

theorem Stepped.on_bleConnect (h : Stepped sm ctx .csBleConnect sm' ctx' outputs)
    (hstate : sm.state = .garageOpen) :
    sm'.state = .bleConnected ∧ ctx'.tasks = [(ctx.nextHandle, .bleTimer)] ∧
      ctx'.waiting = ctx.waiting := by
  cases h with
  | repeated hown =>
      rw [hstate] at hown
      cases hown
  | unmatched hmatched => exact absurd (by decide) hmatched
  | bleConnect _ => exact ⟨rfl, rfl, rfl⟩

theorem Stepped.on_roverStop_linked (h : Stepped sm ctx .feRoverStop sm' ctx' outputs)
    (hstate : sm.state = .bleConnected) :
    sm'.pendingEvt = some .feRoverStop ∧ sm'.state = sm.state ∧ ctx' = ctx := by
  cases h with
  | repeated hown =>
      rw [hstate] at hown
      cases hown
  | unmatched hmatched => exact absurd (by decide) hmatched
  | roverStop hready =>
      rw [hstate] at hready
      cases hready
  | roverStopQueued _ _ => exact ⟨rfl, rfl, rfl⟩

theorem Stepped.on_roverStop_ready (h : Stepped sm ctx .feRoverStop sm' ctx' outputs)
    (hstate : sm.state = .antReady) :
    sm'.state = .antRun ∧ ctx'.tasks = [(ctx.nextHandle, .antStartDelay)] ∧
      ctx'.waiting = ctx.waiting := by
  cases h with
  | repeated hown =>
      rw [hstate] at hown
      cases hown
  | unmatched hmatched => exact absurd (by decide) hmatched
  | roverStop _ => exact ⟨rfl, rfl, rfl⟩
  | roverStopQueued _ hready => exact absurd hstate hready

theorem Fired.on_bleTimer (h : Fired sm ctx .bleTimer true sm' ctx' outputs)
    (hpending : sm.pendingEvt = some .feRoverStop) :
    sm'.state = .antReady ∧ ctx' = ctx.idle.doSend (.eventWrap .feRoverStop) := by
  cases h with
  | bleSettled _ hnone =>
      rw [hpending] at hnone
      cases hnone
  | bleSettledPending _ hsome =>
      rw [hpending] at hsome
      cases hsome
      exact ⟨rfl, rfl⟩

theorem Fired.on_antStartDelay (h : Fired sm ctx .antStartDelay true sm' ctx' outputs) :
    sm'.state = sm.state ∧ outputs = [.command .ant .antStart] := by
  cases h with
  | antStart => exact ⟨rfl, rfl⟩

end Rest

section Takes

variable {s : System crc}

theorem takes_handle (hsound : Sound s) (hwaiting : s.ctx.waiting = []) {mail : Mail crc}
    (hmail : s.ctx.mailbox = [mail]) {event : Event} (hevent : mail.event = some event)
    (hstays : event ≠ .feRestart) :
    ∃ s' shown outputs, (System.machine crc).Takes s [.handle] s' shown ∧ Sound s' ∧
      s'.ctx.mailbox = [] ∧
      Stepped s.self { s.ctx with mailbox := [] } event s'.self s'.ctx outputs := by
  obtain ⟨s', shown, hnext⟩ := handle_next hwaiting hmail (by simp [hevent, hstays])
  have hmoved := moved_of_next hsound.tracked hnext
  obtain ⟨sm, ctx, outputs, rfl, _, hstep⟩ := hmoved.on_event hmail hevent
  exact ⟨_, _, outputs, .one hnext, hsound.moved hmoved, hstep.work.1, hstep⟩

theorem takes_arrival (hsound : Sound s) (hrests : Resting s) {a : Action crc} {mail : Mail crc}
    (hbrings : a.brings? = some mail) {event : Event} (hevent : mail.event = some event)
    (hstays : event ≠ .feRestart) :
    ∃ s' shown outputs, (System.machine crc).Takes s [a, .handle] s' shown ∧ Sound s' ∧
      s'.ctx.mailbox = [] ∧ Stepped s.self s.ctx event s'.self s'.ctx outputs := by
  have hnext : s.next a = some (⟨s.self, s.ctx.doSend mail⟩, []) := by
    cases a <;> cases hbrings <;> rfl
  have hmoved := moved_of_next hsound.tracked hnext
  have hmail : (s.ctx.doSend mail).mailbox = [mail] := by
    rw [Context.doSend, hrests.2]
    rfl
  obtain ⟨s', shown, outputs, htakes, hsound', hmailbox, hstep⟩ :=
    takes_handle (s := ⟨s.self, s.ctx.doSend mail⟩) (hsound.moved hmoved) hrests.1 hmail hevent
      hstays
  refine ⟨s', _, outputs, .cons hnext htakes, hsound', hmailbox, ?_⟩
  have hctx : { s.ctx.doSend mail with mailbox := [] } = s.ctx := by
    rw [Context.doSend, ← hrests.2]
  rw [← hctx]
  exact hstep

theorem takes_fire (hsound : Sound s) (hwaiting : s.ctx.waiting = []) {handle : SpawnHandle}
    {task : Task} (htasks : s.ctx.tasks = [(handle, task)]) :
    ∃ s' outputs, (System.machine crc).Takes s [.fire handle true] s' (outputs.map .sent) ∧
      Sound s' ∧ Fired s.self s.ctx task true s'.self s'.ctx outputs := by
  have hnext : s.next (.fire handle true) =
      some (⟨(s.self.callback handle task true s.ctx).1,
        (s.self.callback handle task true s.ctx).2.1⟩,
        (s.self.callback handle task true s.ctx).2.2.map .sent) := by
    simp only [System.next, hwaiting, htasks, List.lookup_cons_self]
  have hfired : Fired s.self s.ctx task true _ _ _ := fired_of_callback htasks true
  have hmoved := moved_of_next hsound.tracked hnext
  exact ⟨_, _, .one hnext, hsound.moved hmoved, hfired⟩

theorem takes_to_start (hsound : Sound s) (hrests : Resting s)
    {disconnect connect stop : Message crc}
    (hdisconnect : disconnect.val.header.header.ty.event = .csBleDisconnect)
    (hconnect : connect.val.header.header.ty.event = .csBleConnect)
    (hstop : stop.val.header.header.ty.event = .feRoverStop) :
    ∃ actions s' shown, (System.machine crc).Takes s actions s'
        (shown ++ [.sent (.command .ant .antStart)]) ∧ s'.self.state = .antRun ∧
      actions.filterMap Action.brings? =
        [.downMessage disconnect, .downMessage connect, .upCommand stop] := by
  have hdown : (Mail.downMessage disconnect).event = some .csBleDisconnect := by
    simp [Mail.event, hdisconnect]
  have hup : (Mail.downMessage connect).event = some .csBleConnect := by
    simp [Mail.event, hconnect]
  have hrover : (Mail.upCommand stop).event = some .feRoverStop := congrArg some hstop
  obtain ⟨s₁, shown₁, _, htakes₁, hsound₁, hmailbox₁, hstep₁⟩ :=
    takes_arrival hsound hrests (a := .arriveDown disconnect) rfl hdown (by decide)
  obtain ⟨hstate₁, hwaiting₁⟩ := hstep₁.on_bleDisconnect
  obtain ⟨s₂, shown₂, _, htakes₂, hsound₂, hmailbox₂, hstep₂⟩ :=
    takes_arrival hsound₁ ⟨hwaiting₁.trans hrests.1, hmailbox₁⟩ (a := .arriveDown connect) rfl
      hup (by decide)
  obtain ⟨hstate₂, htasks₂, hwaiting₂⟩ := hstep₂.on_bleConnect hstate₁
  have hrests₂ : Resting s₂ := ⟨hwaiting₂.trans (hwaiting₁.trans hrests.1), hmailbox₂⟩
  obtain ⟨s₃, shown₃, _, htakes₃, hsound₃, hmailbox₃, hstep₃⟩ :=
    takes_arrival hsound₂ hrests₂ (a := .arriveUp stop) rfl hrover (by decide)
  obtain ⟨hpending₃, _, hctx₃⟩ := hstep₃.on_roverStop_linked hstate₂
  have hwaiting₃ : s₃.ctx.waiting = [] := by
    rw [hctx₃]
    exact hrests₂.1
  have htasks₃ := htasks₂
  rw [← hctx₃] at htasks₃
  obtain ⟨s₄, outputs₄, htakes₄, hsound₄, hfired₄⟩ := takes_fire hsound₃ hwaiting₃ htasks₃
  obtain ⟨hstate₄, hctx₄⟩ := hfired₄.on_bleTimer hpending₃
  have hmail₄ : s₄.ctx.mailbox = [.eventWrap .feRoverStop] := by
    simp [hctx₄, Context.doSend, Context.idle, hmailbox₃]
  have hwaiting₄ : s₄.ctx.waiting = [] := by
    rw [hctx₄]
    exact hwaiting₃
  obtain ⟨s₅, shown₅, _, htakes₅, hsound₅, _, hstep₅⟩ :=
    takes_handle hsound₄ hwaiting₄ hmail₄ rfl (by decide)
  obtain ⟨hstate₅, htasks₅, hwaiting₅⟩ := hstep₅.on_roverStop_ready hstate₄
  obtain ⟨s₆, outputs₆, htakes₆, _, hfired₆⟩ :=
    takes_fire hsound₅ (hwaiting₅.trans hwaiting₄) htasks₅
  obtain ⟨hstate₆, rfl⟩ := hfired₆.on_antStartDelay
  have htakes := ((((htakes₁.append htakes₂).append htakes₃).append htakes₄).append
    htakes₅).append htakes₆
  exact ⟨_, s₆, _, htakes, hstate₆.trans hstate₅, rfl⟩

end Takes

/-- From every state of every run, unless a message in the mailbox ends the
process, the machine can be brought to start the ant: it needs no message but
reports that the link is down and up again and a rover stop. -/
theorem ant_can_be_started {visits : List (Visit (System crc) (Action crc) (Seen crc))}
    {s : System crc} {seen : List (Seen crc)} (hrun : (System.machine crc).Run visits s seen)
    (hstays : Stays s) (disconnect connect stop : Message crc)
    (hdisconnect : disconnect.val.header.header.ty.event = .csBleDisconnect)
    (hconnect : connect.val.header.header.ty.event = .csBleConnect)
    (hstop : stop.val.header.header.ty.event = .feRoverStop) :
    ∃ more s' shown, (System.machine crc).Run (visits ++ more) s'
        (seen ++ (shown ++ [.sent (.command .ant .antStart)])) ∧ s'.self.state = .antRun ∧
      (more.map Visit.action).filterMap Action.brings? =
        [.downMessage disconnect, .downMessage connect, .upCommand stop] := by
  obtain ⟨own, s₁, shown₁, htakes₁, hown, hsound₁, hrests₁⟩ :=
    takes_to_resting (sound_of_run hrun).1 hstays
  obtain ⟨actions, s₂, shown₂, htakes₂, hstate₂, hbrings₂⟩ :=
    takes_to_start hsound₁ hrests₁ hdisconnect hconnect hstop
  have hquiet : own.filterMap Action.brings? = [] := by
    rw [List.filterMap_eq_nil_iff]
    intro a hmem
    exact Action.brings?_of_isOwn (hown a hmem)
  obtain ⟨more, hmore, hactions⟩ := (htakes₁.append htakes₂).run hrun
  refine ⟨more, s₂, shown₁ ++ shown₂, ?_, hstate₂, ?_⟩
  · rwa [List.append_assoc]
  · rw [hactions, List.filterMap_append, hquiet, hbrings₂]
    rfl

theorem ant_can_be_started_stuck : ∃ visits s seen more s' shown,
    (System.machine (StandardCRC crc8Smbus)).Run visits s seen ∧ visits.length = 10 ∧
      s.self.state = .antRun ∧ s.ctx.tasks = [] ∧
      (System.machine (StandardCRC crc8Smbus)).Run (visits ++ more) s'
        (seen ++ (shown ++ [.sent (.command .ant .antStart)])) ∧ s'.self.state = .antRun ∧
      (more.map Visit.action).filterMap Action.brings? =
        [.downMessage (stationReport .csBleDisconnect), .downMessage (stationReport .csBleConnect),
          .upCommand (roverPacket .feRoverStop)] := by
  have hrun := Machine.Run.start.follow
    (show (System.machine _).follow [] _ [] (startAnt ++
      [.waitDone, .arriveUp (roverPacket .feGarageOpen), .handle, .fire 3 false]) =
        some (_, _, _) from rfl)
  obtain ⟨more, s', shown, hmore, hstate, hbrings⟩ := ant_can_be_started hrun
    (by
      intro mail hmem
      cases hmem)
    (stationReport .csBleDisconnect) (stationReport .csBleConnect) (roverPacket .feRoverStop)
    rfl rfl rfl
  exact ⟨_, _, _, more, s', shown, hrun, rfl, rfl, rfl, hmore, hstate, hbrings⟩

end AntRelay.Runtime
