import AntRelay.Runtime.Steps

namespace AntRelay.Runtime
open AntRelay.Base AntRelay.Format

variable {crc : Checksum}

/-- The states a task can be live in. -/
def Task.Fits : Task → State → Prop
  | .pingInterval, state => state = .pingCentralStation
  | .garageOpenSend, state => state ≠ .garageOpen
  | .bleTimer, state => state = .bleConnected
  | .antStartDelay, state => state = .antRun
  | .antStartInterval, state => state = .antRun
  | .antStopSend, state => state = .antReady

structure Sound (s : System crc) : Prop where
  tracked : Tracked s.self s.ctx
  fits : ∀ entry ∈ s.ctx.tasks, entry.2.Fits s.self.state
  pending : ∀ evt, s.self.pendingEvt = some evt → evt = .feRoverStop
  settled : s.self.state = .antReady ∨ s.self.state = .antRun → s.self.pendingEvt = none
  wraps : ∀ evt, Mail.eventWrap evt ∈ s.ctx.mailbox → evt = .feRoverStop

theorem Tracked.only {sm : StateMachine} {ctx : Context crc} (task : Task)
    (h : sm.runningTask = some ctx.nextHandle) : Tracked sm (ctx.only task) where
  live := .inr ⟨ctx.nextHandle, task, rfl, h⟩
  fresh := by
    intro handle hkept
    rw [h] at hkept
    cases hkept
    exact Nat.lt_add_one _

theorem Tracked.idle {sm : StateMachine} {ctx : Context crc}
    (h : ∀ handle, sm.runningTask = some handle → handle < ctx.nextHandle) :
    Tracked sm ctx.idle where
  live := .inl rfl
  fresh := h

theorem sound_init : Sound (System.machine crc).init where
  tracked := ⟨.inl rfl, by
    intro handle hkept
    cases hkept⟩
  fits := by
    intro entry hmem
    cases hmem
  pending := by
    intro evt hpending
    cases hpending
  settled := by
    intro hstate
    rfl
  wraps := by
    intro evt hmem
    cases hmem

section Steps

variable {sm sm' : StateMachine} {ctx ctx' : Context crc} {outputs : List (Output crc)}

theorem Sound.only (h : Sound ⟨sm, ctx⟩) {task : Task}
    (hkept : sm'.runningTask = some ctx.nextHandle) (hfits : task.Fits sm'.state)
    (hpending : sm'.pendingEvt = sm.pendingEvt)
    (hsettled : sm'.state = .antReady ∨ sm'.state = .antRun → sm.pendingEvt = none) :
    Sound ⟨sm', ctx.only task⟩ where
  tracked := .only task hkept
  fits := by
    intro entry hmem
    cases List.mem_singleton.mp hmem
    exact hfits
  pending := by
    intro evt hevt
    exact h.pending evt (hpending.symm.trans hevt)
  settled := by
    intro hstate
    exact hpending.trans (hsettled hstate)
  wraps := h.wraps

theorem Sound.idle (h : Sound ⟨sm, ctx⟩)
    (hkept : ∀ handle, sm'.runningTask = some handle → sm.runningTask = some handle)
    (hpending : ∀ evt, sm'.pendingEvt = some evt → sm.pendingEvt = some evt)
    (hsettled : sm'.state = .antReady ∨ sm'.state = .antRun → sm'.pendingEvt = none) :
    Sound ⟨sm', ctx.idle⟩ where
  tracked := .idle fun handle hhandle => h.tracked.fresh handle (hkept handle hhandle)
  fits := by
    intro entry hmem
    cases hmem
  pending := by
    intro evt hevt
    exact h.pending evt (hpending evt hevt)
  settled := hsettled
  wraps := h.wraps

theorem Sound.wait (h : Sound ⟨sm, ctx⟩) (dest : Destination) (event : Event) :
    Sound ⟨sm, ctx.wait dest event⟩ :=
  ⟨⟨h.tracked.live, h.tracked.fresh⟩, h.fits, h.pending, h.settled, h.wraps⟩

theorem Sound.doSend (h : Sound ⟨sm, ctx⟩) {mail : Mail crc}
    (hmail : ∀ evt, mail = .eventWrap evt → evt = .feRoverStop) :
    Sound ⟨sm, ctx.doSend mail⟩ where
  tracked := ⟨h.tracked.live, h.tracked.fresh⟩
  fits := h.fits
  pending := h.pending
  settled := h.settled
  wraps := by
    intro evt hmem
    cases List.mem_append.mp hmem with
    | inl hold => exact h.wraps evt hold
    | inr hnew => exact hmail evt (List.mem_singleton.mp hnew).symm

theorem Sound.stepped {event : Event} (h : Sound ⟨sm, ctx⟩)
    (hstep : Stepped sm ctx event sm' ctx' outputs) : Sound ⟨sm', ctx'⟩ := by
  cases hstep with
  | repeated _ => exact h
  | unmatched _ => exact h
  | powerSupplied _ => exact h.only rfl rfl rfl (by simp)
  | garageOpen hstate => exact h.only rfl hstate rfl h.settled
  | bleDisconnect => exact h.idle (by simp) (by simp) (by simp)
  | bleConnect _ => exact h.only rfl rfl rfl (by simp)
  | roverStop hstate => exact h.only rfl rfl rfl fun _ => h.settled (.inl hstate)
  | roverStopQueued hrun hready =>
      refine ⟨⟨h.tracked.live, h.tracked.fresh⟩, h.fits, ?_, ?_, h.wraps⟩
      · intro evt hevt
        cases hevt
        rfl
      · intro hstate
        cases hstate with
        | inl hstate => exact absurd hstate hready
        | inr hstate => exact absurd hstate hrun
  | roverMove hstate => exact h.only rfl rfl rfl fun _ => h.settled (.inr hstate)
  | roverMoveCleared _ =>
      refine ⟨⟨h.tracked.live, h.tracked.fresh⟩, h.fits, ?_, ?_, h.wraps⟩
      · intro evt hevt
        cases hevt
      · intro _
        rfl
  | csPinged => exact h.wait _ _
  | antPinged => exact h.wait _ _

theorem Sound.fired {handle : SpawnHandle} {task : Task} {succeeded : Bool}
    (h : Sound ⟨sm, ctx⟩) (htasks : ctx.tasks = [(handle, task)])
    (hfired : Fired sm ctx task succeeded sm' ctx' outputs) : Sound ⟨sm', ctx'⟩ := by
  have hfits := h.fits (handle, task) (by simp [htasks])
  cases hfired with
  | ping => exact h
  | garageOpen => exact h.idle (by simp) (by simp) (by simp)
  | garageOpenFailed => exact h.idle (fun _ => id) (fun _ => id) h.settled
  | bleSettled _ hnone => exact h.idle (fun _ => id) (by simp) fun _ => hnone
  | bleSettledPending _ hsome =>
      have hidle : Sound ⟨{ sm with state := .antReady, pendingEvt := none }, ctx.idle⟩ :=
        h.idle (fun _ => id) (by simp) fun _ => rfl
      apply hidle.doSend
      intro evt hevt
      cases hevt
      exact h.pending _ hsome
  | antStart =>
      have hrun : sm.state = .antRun := hfits
      have honly : Sound ⟨{ sm with runningTask := some ctx.nextHandle },
          ctx.only .antStartInterval⟩ :=
        h.only rfl hrun rfl fun _ => h.settled (.inr hrun)
      exact honly.wait _ _
  | antStartAgain => exact h.wait _ _
  | antStopped => exact h.idle (fun _ => id) (fun _ => id) h.settled

end Steps

theorem Sound.popped {s : System crc} {mail : Mail crc} {mailbox : List (Mail crc)} (h : Sound s)
    (hmail : s.ctx.mailbox = mail :: mailbox) :
    Sound ⟨s.self, { s.ctx with mailbox := mailbox }⟩ where
  tracked := ⟨h.tracked.live, h.tracked.fresh⟩
  fits := h.fits
  pending := h.pending
  settled := h.settled
  wraps := by
    intro evt hmem
    apply h.wraps evt
    rw [hmail]
    exact List.mem_cons_of_mem _ hmem

theorem Sound.moved {s s' : System crc} {a : Action crc} {shown : List (Seen crc)}
    (h : Sound s) (hmoved : Moved s a s' shown) : Sound s' := by
  cases hmoved with
  | arrivedUp msg => exact h.doSend (by simp)
  | arrivedDown msg => exact h.doSend (by simp)
  | waited _ => exact ⟨⟨h.tracked.live, h.tracked.fresh⟩, h.fits, h.pending, h.settled, h.wraps⟩
  | dropped hmail _ => exact h.popped hmail
  | stepped hmail _ hstep => exact (h.popped hmail).stepped hstep
  | fired htasks hfired => exact Sound.fired h htasks hfired

/-- The invariant holds before and after every step of every run. -/
theorem sound_of_run {visits : List (Visit (System crc) (Action crc) (Seen crc))}
    {s : System crc} {seen : List (Seen crc)}
    (hrun : (System.machine crc).Run visits s seen) :
    Sound s ∧ ∀ visit ∈ visits, Sound visit.state :=
  hrun.always (fun s _ => Sound s) sound_init
    fun h hnext => h.moved (moved_of_next h.tracked hnext)

theorem holds_iff_never (strong inv : System crc → List (Seen crc) → Prop)
    {bad : Visit (System crc) (Action crc) (Seen crc) → Prop}
    {visits : List (Visit (System crc) (Action crc) (Seen crc))} {s : System crc}
    {seen : List (Seen crc)} (hrun : (System.machine crc).Run visits s seen)
    (hinit : strong (System.machine crc).init [])
    (hmoved : ∀ {s s' : System crc} {a seen shown}, Sound s → strong s seen →
      ¬ bad ⟨s, seen, a⟩ → Moved s a s' shown → strong s' (seen ++ shown))
    (hweaken : ∀ {s : System crc} {seen}, Sound s → strong s seen → inv s seen)
    (hbreak : ∀ {s s' : System crc} {a seen shown}, Sound s → bad ⟨s, seen, a⟩ →
      Moved s a s' shown → ¬ inv s' (seen ++ shown)) :
    (inv s seen ∧ ∀ visit ∈ visits, inv visit.state visit.seen) ↔
      ∀ visit ∈ visits, ¬ bad visit :=
  hrun.holds_iff_never (fun s _ => Sound s) (fun s seen => Sound s ∧ strong s seen) inv
    (sound_of_run hrun).2 ⟨sound_init, hinit⟩
    (fun h hallowed hnext =>
      have hstep := moved_of_next h.1.tracked hnext
      ⟨h.1.moved hstep, hmoved h.1 h.2 hallowed hstep⟩)
    (fun h => hweaken h.1 h.2)
    (fun h hbad hnext => hbreak h hbad (moved_of_next h.tracked hnext))

end AntRelay.Runtime
