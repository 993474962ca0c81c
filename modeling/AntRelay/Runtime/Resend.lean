import AntRelay.Runtime.Invariant

namespace AntRelay.Runtime
open AntRelay.Base AntRelay.Format

variable {crc : Checksum}

def roverEvents : List Event :=
  [.fePowerSupplied, .feGarageOpen, .feRoverStop, .feRoverMove]

theorem mem_roverEvents {event : Event} : event ∈ roverEvents ↔ event = .fePowerSupplied ∨
    event = .feGarageOpen ∨ event = .feRoverStop ∨ event = .feRoverMove := by
  simp [roverEvents]

def StateMachine.steps (event : Event) : Nat → StateMachine → Context crc →
    Option (StateMachine × Context crc × List (Output crc))
  | 0, self, ctx => some (self, ctx, [])
  | times + 1, self, ctx =>
      (self.step event ctx).bind fun (self, ctx, outputs) =>
        (steps event times self ctx).map fun (self, ctx, more) => (self, ctx, outputs ++ more)

/-- The same state, pending event and live tasks, and the same commands sent. -/
def SameEffect (once again : StateMachine × Context crc × List (Output crc)) : Prop :=
  again.1.state = once.1.state ∧ again.1.pendingEvt = once.1.pendingEvt ∧
    again.2.1.tasks = once.2.1.tasks ∧ again.2.2 = once.2.2

/-- Handling the event `times` times in a row does what handling it once does. -/
def ResendsIdly (s : System crc) (event : Event) (times : Nat) : Prop :=
  ∃ once again, s.self.step event s.ctx = some once ∧
    s.self.steps event times s.ctx = some again ∧ SameEffect once again

section Step

variable (sm : StateMachine) (ctx : Context crc)

theorem step_ownEvent {event : Event} (h : ownEvent sm.state = some event) :
    sm.step event ctx = some (sm, ctx, []) := by
  obtain ⟨state, runningTask, pendingEvt⟩ := sm
  cases state with
  | flightIdle => cases h
  | antReady => cases h
  | _ =>
      cases h
      rfl

theorem step_roverStop_queued (hrun : sm.state ≠ .antRun) (hready : sm.state ≠ .antReady) :
    sm.step .feRoverStop ctx = some ({ sm with pendingEvt := some .feRoverStop }, ctx, []) := by
  unfold StateMachine.step StateMachine.arm
  cases hstate : sm.state with
  | antRun => exact absurd hstate hrun
  | antReady => exact absurd hstate hready
  | _ => rfl

theorem step_roverMove_cleared (h : sm.state ≠ .antRun) :
    sm.step .feRoverMove ctx = some ({ sm with pendingEvt := none }, ctx, []) := by
  simp only [StateMachine.step, StateMachine.arm, if_neg h, Option.map_some]

theorem step_garageOpen (htracked : Tracked sm ctx) (h : sm.state ≠ .garageOpen) :
    sm.step .feGarageOpen ctx = some ({ sm with runningTask := some ctx.nextHandle },
      ctx.only .garageOpenSend, [.command .centralStation .csGarageOpen]) := by
  rw [step_eq]
  simp only [StateMachine.arm, if_neg h, Option.map_some, htracked.start_cancelOld]
  rfl

theorem step_rover_some {event : Event} (h : event ∈ roverEvents) :
    ∃ done, sm.step event ctx = some done := by
  have harm : ∃ done, StateMachine.arm { sm with runningTask := none } sm.runningTask event ctx =
      some done := by
    rcases mem_roverEvents.mp h with rfl | rfl | rfl | rfl <;> simp only [StateMachine.arm] <;>
      split <;> exact ⟨_, rfl⟩
  obtain ⟨done, hdone⟩ := harm
  rw [step_eq, hdone]
  exact ⟨_, rfl⟩

end Step

theorem steps_succ {sm : StateMachine} {ctx : Context crc} {event : Event}
    {once : StateMachine × Context crc × List (Output crc)}
    (h : sm.step event ctx = some once) (times : Nat) :
    sm.steps event (times + 1) ctx = (once.1.steps event times once.2.1).map fun last =>
      (last.1, last.2.1, once.2.2 ++ last.2.2) := by
  rw [StateMachine.steps, h]
  rfl

section Again

variable {sm sm' : StateMachine} {ctx ctx' : Context crc} {outputs : List (Output crc)}

/-- After a rover event the same event does nothing, unless it started the
opening of the garage. -/
theorem Stepped.again {event : Event} (h : Stepped sm ctx event sm' ctx' outputs)
    (hsound : Sound ⟨sm, ctx⟩) (hrover : event ∈ roverEvents)
    (hgarage : event ≠ .feGarageOpen ∨ sm.state = .garageOpen) :
    sm'.step event ctx' = some (sm', ctx', []) := by
  cases h with
  | repeated hown => exact step_ownEvent sm ctx hown
  | unmatched hnot =>
      refine absurd ?_ hnot
      rcases mem_roverEvents.mp hrover with rfl | rfl | rfl | rfl <;> decide
  | powerSupplied _ => exact step_ownEvent _ _ rfl
  | garageOpen hstate =>
      cases hgarage with
      | inl hother => exact absurd rfl hother
      | inr hopen => exact absurd hopen hstate
  | roverStop _ => exact step_ownEvent _ _ rfl
  | roverStopQueued hrun hready => exact step_roverStop_queued _ _ hrun hready
  | roverMove hstate =>
      -- nothing is pending while the ant runs, so there is nothing to clear
      have hnone : sm.pendingEvt = none := hsound.settled (.inr hstate)
      rw [step_roverMove_cleared _ _ (by simp)]
      simp only [hnone]
  | roverMoveCleared hstate => exact step_roverMove_cleared _ _ hstate
  | bleDisconnect => simp [roverEvents] at hrover
  | bleConnect _ => simp [roverEvents] at hrover
  | csPinged => simp [roverEvents] at hrover
  | antPinged => simp [roverEvents] at hrover

theorem steps_of_again {event : Event} (h : sm.step event ctx = some (sm, ctx, [])) (times : Nat) :
    sm.steps event times ctx = some (sm, ctx, []) := by
  induction times with
  | zero => rfl
  | succ times ih =>
      rw [steps_succ h, ih]
      rfl

theorem steps_garageOpen_outputs {again : StateMachine × Context crc × List (Output crc)}
    {times : Nat} (hsound : Sound ⟨sm, ctx⟩) (hstate : sm.state ≠ .garageOpen)
    (h : sm.steps .feGarageOpen times ctx = some again) :
    again.2.2 = List.replicate times (.command .centralStation .csGarageOpen) := by
  induction times generalizing sm ctx again with
  | zero =>
      cases h
      rfl
  | succ times ih =>
      have hstep := step_garageOpen sm ctx hsound.tracked hstate
      rw [steps_succ hstep, Option.map_eq_some_iff] at h
      obtain ⟨last, hrest, rfl⟩ := h
      have hsound' := hsound.stepped (stepped_of_step hsound.tracked hstep)
      rw [List.replicate_succ, ← ih hsound' hstate hrest]
      rfl

end Again

/-- From every state of every run: handling a rover event `times` times in a row
does what handling it once does exactly when it is not `FEGarageOpen`, or is
handled only once, or the garage is open already. -/
theorem resendsIdly_iff {visits : List (Visit (System crc) (Action crc) (Seen crc))}
    {s : System crc} {seen : List (Seen crc)} (hrun : (System.machine crc).Run visits s seen)
    {event : Event} (hrover : event ∈ roverEvents) {times : Nat} (htimes : 1 ≤ times) :
    ResendsIdly s event times ↔
      event ≠ .feGarageOpen ∨ times = 1 ∨ s.self.state = .garageOpen := by
  have hsound : Sound s := (sound_of_run hrun).1
  obtain ⟨⟨sm, ctx, outputs⟩, honce⟩ := step_rover_some s.self s.ctx hrover
  obtain ⟨rest, rfl⟩ := Nat.exists_eq_add_of_le' htimes
  constructor
  · rintro ⟨once, again, honce', hagain, hsame⟩
    by_cases hgarage : event = .feGarageOpen
    · by_cases hopen : s.self.state = .garageOpen
      · exact .inr (.inr hopen)
      · subst hgarage
        have hsent := steps_garageOpen_outputs hsound hopen hagain
        rw [step_garageOpen _ _ hsound.tracked hopen] at honce'
        cases honce'
        rw [hsame.2.2.2] at hsent
        have hlength := congrArg List.length hsent
        rw [List.length_replicate] at hlength
        exact .inr (.inl hlength.symm)
    · exact .inl hgarage
  · intro hcondition
    by_cases hfirst : rest = 0
    · subst hfirst
      exact ⟨_, _, honce, steps_succ honce 0, rfl, rfl, rfl, List.append_nil _⟩
    · have hgarage : event ≠ .feGarageOpen ∨ s.self.state = .garageOpen := by
        rcases hcondition with hother | hone | hopen
        · exact .inl hother
        · exact absurd (Nat.succ.inj hone) hfirst
        · exact .inr hopen
      have hagain := (stepped_of_step hsound.tracked honce).again hsound hrover hgarage
      have hsteps := steps_succ honce rest
      rw [steps_of_again hagain] at hsteps
      exact ⟨_, _, honce, hsteps, rfl, rfl, rfl, List.append_nil _⟩

def powered : List (Action (StandardCRC crc8Smbus)) :=
  [.arriveUp (roverPacket .fePowerSupplied), .handle]

theorem resendsIdly_powered : ∃ visits s seen,
    (System.machine (StandardCRC crc8Smbus)).Run visits s seen ∧
      s.self.state = .pingCentralStation ∧ ResendsIdly s .feRoverStop 3 := by
  have hrun := Machine.Run.start.follow
    (show (System.machine _).follow [] _ [] powered = some (_, _, _) from rfl)
  have hthree : 1 ≤ 3 := by decide
  have hidly := (resendsIdly_iff hrun (by decide) hthree).mpr
    (.inl (show Event.feRoverStop ≠ .feGarageOpen by decide))
  exact ⟨_, _, _, hrun, rfl, hidly⟩

/-- Two `FEGarageOpen` in a row: the second cancels the first one's send and
sends again. -/
theorem garageOpen_resend_sends : ∃ visits s seen,
    (System.machine (StandardCRC crc8Smbus)).Run visits s seen ∧
      s.self.state = .pingCentralStation ∧ ¬ ResendsIdly s .feGarageOpen 2 := by
  have hrun := Machine.Run.start.follow
    (show (System.machine _).follow [] _ [] powered = some (_, _, _) from rfl)
  refine ⟨_, _, _, hrun, rfl, ?_⟩
  rintro ⟨once, again, honce, hagain, _, _, htasks, _⟩
  cases honce
  cases hagain
  cases htasks

end AntRelay.Runtime
