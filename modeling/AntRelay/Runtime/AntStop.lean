import AntRelay.Runtime.AntStart

namespace AntRelay.Runtime
open AntRelay.Base AntRelay.Format

variable {crc : Checksum}

/-- Once the machine is ready, a moving rover has no started ant. -/
def StoppedForMove (s : System crc) (seen : List (Seen crc)) : Prop :=
  s.self.state = .antReady → lastRover seen = some .feRoverMove →
    antStartOutstanding seen = false

def HandlesMove (visit : Visit (System crc) (Action crc) (Seen crc)) : Prop :=
  visit.action = .handle ∧ ∃ mail mailbox, visit.state.ctx.mailbox = mail :: mailbox ∧
    mail.roverEvent = some .feRoverMove

def SettlesMoving (visit : Visit (System crc) (Action crc) (Seen crc)) : Prop :=
  lastRover visit.seen = some .feRoverMove ∧ ∃ handle succeeded,
    visit.action = .fire handle succeeded ∧ (handle, Task.bleTimer) ∈ visit.state.ctx.tasks

/-- An ant that has been started stays so: the machine learns in `AntReady` that
the rover moves, or becomes ready knowing it. -/
def LeavesStarted (visit : Visit (System crc) (Action crc) (Seen crc)) : Prop :=
  antStartOutstanding visit.seen = true ∧
    (visit.state.self.state = .antReady ∧ HandlesMove visit ∨ SettlesMoving visit)

theorem outstanding_handled {seen : List (Seen crc)} {mail : Mail crc}
    {outputs : List (Output crc)} (h : LeavesAnt (outputs.map Seen.sent)) :
    antStartOutstanding (seen ++ .handled mail :: (outputs ++ mail.forwards).map .sent) =
      antStartOutstanding seen := by
  apply outstanding_of_leavesAnt
  rw [List.map_append]
  exact leavesAnt_append h (leavesAnt_forwards mail)

theorem outstanding_stopped (seen : List (Seen crc)) (mail : Mail crc) :
    antStartOutstanding (seen ++ .handled mail ::
      ([Output.command .ant .antStop] ++ mail.forwards).map .sent) = false := by
  rw [List.map_append, ← List.cons_append, ← List.append_assoc,
    outstanding_of_leavesAnt (leavesAnt_forwards mail), List.map_singleton,
    ← List.singleton_append, ← List.append_assoc]
  exact outstanding_concat _ rfl

section Step

variable {sm sm' : StateMachine} {ctx ctx' : Context crc} {outputs : List (Output crc)}

theorem Stepped.antReady {event : Event} (h : Stepped sm ctx event sm' ctx' outputs)
    (hready : sm'.state = .antReady) :
    sm.state = .antReady ∧ LeavesAnt (outputs.map Seen.sent) ∨
      outputs = [.command .ant .antStop] := by
  cases h with
  | repeated => exact .inl ⟨hready, rfl⟩
  | unmatched => exact .inl ⟨hready, rfl⟩
  | powerSupplied => cases hready
  | garageOpen => exact .inl ⟨hready, rfl⟩
  | bleDisconnect => cases hready
  | bleConnect => cases hready
  | roverStop => cases hready
  | roverStopQueued _ hnot => exact absurd hready hnot
  | roverMove => exact .inr rfl
  | roverMoveCleared => exact .inl ⟨hready, rfl⟩
  | csPinged => exact .inl ⟨hready, rfl⟩
  | antPinged => exact .inl ⟨hready, rfl⟩

theorem Fired.antReady {task : Task} {succeeded : Bool}
    (h : Fired sm ctx task succeeded sm' ctx' outputs) (hfits : task.Fits sm.state)
    (hready : sm'.state = .antReady) :
    LeavesAnt (outputs.map Seen.sent) ∧ (sm.state = .antReady ∨ task = .bleTimer) := by
  cases h with
  | ping => exact ⟨rfl, .inl hready⟩
  | garageOpen => cases hready
  | garageOpenFailed => exact ⟨rfl, .inl hready⟩
  | bleSettled => exact ⟨rfl, .inr rfl⟩
  | bleSettledPending => exact ⟨rfl, .inr rfl⟩
  | antStart =>
      rw [show sm.state = .antRun from hfits] at hready
      cases hready
  | antStartAgain =>
      rw [show sm.state = .antRun from hfits] at hready
      cases hready
  | antStopped => exact ⟨rfl, .inl hready⟩

theorem Fired.bleTimer {succeeded : Bool} (h : Fired sm ctx .bleTimer succeeded sm' ctx' outputs) :
    sm'.state = .antReady ∧ outputs = [] := by
  cases h with
  | bleSettled => exact ⟨rfl, rfl⟩
  | bleSettledPending => exact ⟨rfl, rfl⟩

theorem Stepped.on_roverMove (h : Stepped sm ctx .feRoverMove sm' ctx' outputs) :
    sm.state = .antRun ∧ outputs = [.command .ant .antStop] ∨
      sm.state ≠ .antRun ∧ sm'.state = sm.state ∧ outputs = [] := by
  cases h with
  | repeated hown => cases hstate : sm.state <;> simp [hstate, ownEvent] at hown
  | unmatched hmatched => simp [matched] at hmatched
  | roverMove hstate => exact .inl ⟨hstate, rfl⟩
  | roverMoveCleared hstate => exact .inr ⟨hstate, rfl, rfl⟩

end Step

theorem StoppedForMove.moved {s s' : System crc} {a : Action crc} {seen shown : List (Seen crc)}
    (h : StoppedForMove s seen) (hsound : Sound s) (hallowed : ¬ LeavesStarted ⟨s, seen, a⟩)
    (hmoved : Moved s a s' shown) : StoppedForMove s' (seen ++ shown) := by
  intro hready hmoves
  cases hmoved with
  | arrivedUp => simpa using h hready (by simpa using hmoves)
  | arrivedDown => simpa using h hready (by simpa using hmoves)
  | waited => simpa using h hready (by simpa using hmoves)
  | dropped hmail hevent =>
      rw [lastRover_dropped, Mail.roverEvent_of_dropped hevent] at hmoves
      rw [outstanding_of_leavesAnt (leavesAnt_handled _)]
      exact h hready hmoves
  | stepped hmail hevent hstep =>
      rename_i mail mailbox event sm ctx outputs
      rw [lastRover_handled] at hmoves
      cases hstep.antReady hready with
      | inr hstop =>
          rw [hstop]
          exact outstanding_stopped seen mail
      | inl hkept =>
          rw [outstanding_handled hkept.2]
          cases hrover : mail.roverEvent with
          | none =>
              rw [hrover, Option.none_or] at hmoves
              exact h hkept.1 hmoves
          | some command =>
              rw [hrover, Option.some_or] at hmoves
              by_contra hstarted
              rw [Bool.not_eq_false] at hstarted
              exact hallowed ⟨hstarted,
                .inl ⟨hkept.1, rfl, mail, mailbox, hmail, hrover.trans hmoves⟩⟩
  | fired htasks hfired =>
      rename_i handle task succeeded sm ctx outputs
      rw [lastRover_sent] at hmoves
      obtain ⟨hleaves, hfrom⟩ :=
        hfired.antReady (hsound.fits (handle, task) (by simp [htasks])) hready
      rw [outstanding_of_leavesAnt hleaves]
      cases hfrom with
      | inl hkept => exact h hkept hmoves
      | inr htimer =>
          by_contra hstarted
          rw [Bool.not_eq_false] at hstarted
          exact hallowed ⟨hstarted,
            .inr ⟨hmoves, handle, succeeded, rfl, by simp [htasks, htimer]⟩⟩

theorem LeavesStarted.not_stoppedForMove {s s' : System crc} {a : Action crc}
    {seen shown : List (Seen crc)} (h : LeavesStarted ⟨s, seen, a⟩) (hmoved : Moved s a s' shown) :
    ¬ StoppedForMove s' (seen ++ shown) := by
  obtain ⟨hstarted, ⟨hready, rfl, mail, mailbox, hmail, hrover⟩ |
    ⟨hmoves, handle, succeeded, rfl, hmem⟩⟩ := h
  · intro hstopped
    have hcommand := (Mail.event_of_roverEvent hrover).1
    obtain ⟨sm, ctx, outputs, rfl, rfl, hstep⟩ := hmoved.on_event hmail hcommand
    cases hstep.on_roverMove with
    | inl hrun =>
        rw [hready] at hrun
        cases hrun.1
    | inr hother =>
        obtain ⟨_, hstate, rfl⟩ := hother
        have hquiet : LeavesAnt (([] : List (Output crc)).map Seen.sent) := leavesAnt_nil
        have hnone := hstopped (hstate.trans hready) (by rw [lastRover_handled, hrover]; rfl)
        rw [outstanding_handled hquiet, hstarted] at hnone
        cases hnone
  · intro hstopped
    obtain ⟨sm, ctx, outputs, rfl, rfl, hfired⟩ := hmoved.on_fire hmem
    obtain ⟨hready, rfl⟩ := hfired.bleTimer
    have hnone := hstopped hready (by rw [lastRover_sent]; exact hmoves)
    rw [List.map_nil, List.append_nil, hstarted] at hnone
    cases hnone

/-- In a run the machine is never ready with a started ant and a moving rover
exactly when, the ant being started, it never learns of a move in `AntReady` and
never becomes ready after one. -/
theorem stopped_for_move_iff {visits : List (Visit (System crc) (Action crc) (Seen crc))}
    {s : System crc} {seen : List (Seen crc)}
    (hrun : (System.machine crc).Run visits s seen) :
    (StoppedForMove s seen ∧ ∀ visit ∈ visits, StoppedForMove visit.state visit.seen) ↔
      ∀ visit ∈ visits, ¬ LeavesStarted visit := by
  exact holds_iff_never StoppedForMove StoppedForMove hrun
    (by simp [StoppedForMove, antStartOutstanding])
    (fun hsound h hallowed hmoved => h.moved hsound hallowed hmoved)
    (fun _ h => h)
    (fun _ hleaves hmoved => hleaves.not_stoppedForMove hmoved)

theorem stopped_for_move_startAnt : ∃ visits s seen,
    (System.machine (StandardCRC crc8Smbus)).Run visits s seen ∧ visits.length = 9 ∧
      s.self.state = .antReady ∧ lastRover seen = some .feRoverMove ∧
      StoppedForMove s seen ∧ ∀ visit ∈ visits, StoppedForMove visit.state visit.seen := by
  have hrun := Machine.Run.start.follow
    (show (System.machine _).follow [] _ []
      (startAnt ++ [.waitDone, .arriveUp (roverPacket .feRoverMove), .handle]) =
        some (_, _, _) from rfl)
  have hstopped := (stopped_for_move_iff hrun).mpr (by
    rintro visit hvisit ⟨hstarted, ⟨hready, haction, _⟩ | ⟨hmoves, _⟩⟩
    all_goals
      simp only [List.nil_append, List.cons_append, List.mem_cons, List.not_mem_nil,
        or_false] at hvisit
    · rcases hvisit with rfl | rfl | rfl | rfl | rfl | rfl | rfl | rfl | rfl
      all_goals first
        | exact absurd hstarted (by decide)
        | cases hready
    · rcases hvisit with rfl | rfl | rfl | rfl | rfl | rfl | rfl | rfl | rfl
      all_goals exact absurd hmoves (by decide))
  exact ⟨_, _, _, hrun, rfl, rfl, rfl, hstopped⟩

/-- The rover moves while the link is down: no one stops the ant. -/
theorem bleDisconnect_not_stoppedForMove : ∃ visits s seen,
    (System.machine (StandardCRC crc8Smbus)).Run visits s seen ∧
      s.self.state = .antReady ∧ lastRover seen = some .feRoverMove ∧
      antStartOutstanding seen = true ∧ ¬ StoppedForMove s seen := by
  have hrun := Machine.Run.start.follow
    (show (System.machine _).follow [] _ []
      (startAnt ++ [.waitDone, .arriveDown (stationReport .csBleDisconnect), .handle,
        .arriveUp (roverPacket .feRoverMove), .handle, .arriveDown (stationReport .csBleConnect),
        .handle, .fire 3 true]) = some (_, _, _) from rfl)
  refine ⟨_, _, _, hrun, rfl, rfl, rfl, ?_⟩
  intro hstopped
  cases hstopped rfl rfl

def MovesUnstopped (visit : Visit (System crc) (Action crc) (Seen crc)) : Prop :=
  HandlesMove visit ∧ visit.state.self.state ≠ .antRun ∧ antStartOutstanding visit.seen = true

structure StopsSafely (s : System crc) (seen : List (Seen crc)) : Prop where
  safe : StartsSafely s seen
  started : antStartOutstanding seen = true → lastRover seen = some .feRoverStop

theorem StopsSafely.moved {s s' : System crc} {a : Action crc} {seen shown : List (Seen crc)}
    (h : StopsSafely s seen) (hfresh : ¬ StaleStop ⟨s, seen, a⟩)
    (hallowed : ¬ MovesUnstopped ⟨s, seen, a⟩) (hmoved : Moved s a s' shown) :
    StopsSafely s' (seen ++ shown) := by
  refine ⟨h.safe.moved hfresh hmoved, ?_⟩
  intro hstarted
  cases hmoved with
  | arrivedUp => simpa using h.started (by simpa using hstarted)
  | arrivedDown => simpa using h.started (by simpa using hstarted)
  | waited => simpa using h.started (by simpa using hstarted)
  | dropped hmail hevent =>
      rw [outstanding_of_leavesAnt (leavesAnt_handled _)] at hstarted
      rw [lastRover_dropped, Mail.roverEvent_of_dropped hevent]
      exact h.started hstarted
  | stepped hmail hevent hstep =>
      rename_i mail mailbox event sm ctx outputs
      rw [lastRover_handled]
      cases hrover : mail.roverEvent with
      | none =>
          rw [Option.none_or]
          cases hstep.leavesAnt with
          | inl hleaves =>
              rw [outstanding_handled hleaves] at hstarted
              exact h.started hstarted
          | inr hstop =>
              rw [hstop.2.2, outstanding_stopped] at hstarted
              cases hstarted
      | some command =>
          obtain ⟨hcommand, hkind⟩ := Mail.event_of_roverEvent hrover
          rw [hevent] at hcommand
          cases hcommand
          rcases hkind with rfl | rfl
          · rfl
          · cases hstep.on_roverMove with
            | inl hstop =>
                rw [hstop.2, outstanding_stopped] at hstarted
                cases hstarted
            | inr hcleared =>
                have hquiet : LeavesAnt (([] : List (Output crc)).map Seen.sent) := leavesAnt_nil
                rw [hcleared.2.2, outstanding_handled hquiet] at hstarted
                exact absurd ⟨⟨rfl, mail, mailbox, hmail, hrover⟩, hcleared.1, hstarted⟩ hallowed
  | fired htasks hfired =>
      rename_i handle task succeeded sm ctx outputs
      rw [lastRover_sent]
      cases hfired.leavesAnt (h.safe.sound.fits (handle, task) (by simp [htasks])) with
      | inl hleaves =>
          rw [outstanding_of_leavesAnt hleaves] at hstarted
          exact h.started hstarted
      | inr hstart => exact h.safe.running hstart.1

/-- As long as the rover's moves find the ant stopped or the machine in
`AntRun`, and no stop it has sent itself is out of date, an ant that has been
started and not stopped means that the rover stands still. -/
theorem outstanding_only_when_stopped
    {visits : List (Visit (System crc) (Action crc) (Seen crc))} {s : System crc}
    {seen : List (Seen crc)} (hrun : (System.machine crc).Run visits s seen)
    (hallowed : ∀ visit ∈ visits, ¬ StaleStop visit ∧ ¬ MovesUnstopped visit) :
    antStartOutstanding seen = true → lastRover seen = some .feRoverStop := by
  have hsafe := hrun.invariant StopsSafely
    (fun visit => ¬ StaleStop visit ∧ ¬ MovesUnstopped visit)
    ⟨startsSafely_init, by simp [antStartOutstanding]⟩
    (fun h hvisit hnext =>
      h.moved hvisit.1 hvisit.2 (moved_of_next h.safe.sound.tracked hnext)) hallowed
  exact hsafe.1.started

end AntRelay.Runtime
