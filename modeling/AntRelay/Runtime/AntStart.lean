import AntRelay.Runtime.Invariant
import AntRelay.Runtime.History

namespace AntRelay.Runtime
open AntRelay.Base AntRelay.Format

variable {crc : Checksum}

/-- The machine is ready and handles a rover stop of its own although the
rover's last command was another one. -/
def StaleStop (visit : Visit (System crc) (Action crc) (Seen crc)) : Prop :=
  visit.action = .handle ∧ visit.state.self.state = .antReady ∧
    (∃ mailbox, visit.state.ctx.mailbox = .eventWrap .feRoverStop :: mailbox) ∧
    lastRover visit.seen ≠ some .feRoverStop

section Step

variable {sm sm' : StateMachine} {ctx ctx' : Context crc} {outputs : List (Output crc)}

theorem Stepped.leavesAnt {event : Event} (h : Stepped sm ctx event sm' ctx' outputs) :
    LeavesAnt (outputs.map Seen.sent) ∨
      event = .feRoverMove ∧ sm.state = .antRun ∧ outputs = [.command .ant .antStop] := by
  cases h with
  | roverMove hstate => exact .inr ⟨rfl, hstate, rfl⟩
  | repeated => exact .inl rfl
  | unmatched => exact .inl rfl
  | powerSupplied => exact .inl rfl
  | garageOpen => exact .inl rfl
  | bleDisconnect => exact .inl rfl
  | bleConnect => exact .inl rfl
  | roverStop => exact .inl rfl
  | roverStopQueued => exact .inl rfl
  | roverMoveCleared => exact .inl rfl
  | csPinged => exact .inl rfl
  | antPinged => exact .inl rfl

theorem Fired.leavesAnt {task : Task} {succeeded : Bool}
    (h : Fired sm ctx task succeeded sm' ctx' outputs) (hfits : task.Fits sm.state) :
    LeavesAnt (outputs.map Seen.sent) ∨
      sm.state = .antRun ∧ outputs = [.command .ant .antStart] := by
  cases h with
  | antStart => exact .inr ⟨hfits, rfl⟩
  | antStartAgain => exact .inr ⟨hfits, rfl⟩
  | ping => exact .inl rfl
  | garageOpen => exact .inl rfl
  | garageOpenFailed => exact .inl rfl
  | bleSettled => exact .inl rfl
  | bleSettledPending => exact .inl rfl
  | antStopped => exact .inl rfl

theorem Stepped.antRun {event : Event} (h : Stepped sm ctx event sm' ctx' outputs)
    (hrun : sm'.state = .antRun) :
    sm.state = .antRun ∧ event ≠ .feRoverMove ∨ sm.state = .antReady ∧ event = .feRoverStop := by
  cases h with
  | repeated hown =>
      left
      refine ⟨hrun, ?_⟩
      rintro rfl
      rw [hrun] at hown
      cases hown
  | unmatched hmatched =>
      left
      refine ⟨hrun, ?_⟩
      rintro rfl
      simp [matched] at hmatched
  | powerSupplied => cases hrun
  | garageOpen => exact .inl ⟨hrun, by simp⟩
  | bleDisconnect => cases hrun
  | bleConnect => cases hrun
  | roverStop hready => exact .inr ⟨hready, rfl⟩
  | roverStopQueued hnot => exact absurd hrun hnot
  | roverMove => cases hrun
  | roverMoveCleared hnot => exact absurd hrun hnot
  | csPinged => exact .inl ⟨hrun, by simp⟩
  | antPinged => exact .inl ⟨hrun, by simp⟩

theorem Fired.antRun {task : Task} {succeeded : Bool}
    (h : Fired sm ctx task succeeded sm' ctx' outputs) (hrun : sm'.state = .antRun) :
    sm.state = .antRun := by
  cases h with
  | garageOpen => cases hrun
  | bleSettled => cases hrun
  | bleSettledPending => cases hrun
  | ping => exact hrun
  | garageOpenFailed => exact hrun
  | antStart => exact hrun
  | antStartAgain => exact hrun
  | antStopped => exact hrun

end Step

structure StartsSafely (s : System crc) (seen : List (Seen crc)) : Prop where
  sound : Sound s
  running : s.self.state = .antRun → lastRover seen = some .feRoverStop
  starts : StartsWhenStopped seen

/-- The rover stands still whenever a message has led into `AntRun` or left the
machine there. -/
theorem StartsSafely.running_stepped {s : System crc} {seen : List (Seen crc)} {mail : Mail crc}
    {mailbox : List (Mail crc)} {event : Event} {sm : StateMachine} {ctx : Context crc}
    {outputs : List (Output crc)} (h : StartsSafely s seen)
    (hallowed : ¬ StaleStop ⟨s, seen, .handle⟩) (hmail : s.ctx.mailbox = mail :: mailbox)
    (hevent : mail.event = some event)
    (hstep : Stepped s.self { s.ctx with mailbox := mailbox } event sm ctx outputs)
    (hrun : sm.state = .antRun) : mail.roverEvent.or (lastRover seen) = some .feRoverStop := by
  cases hrover : mail.roverEvent with
  | some command =>
      obtain ⟨hcommand, hkind⟩ := Mail.event_of_roverEvent hrover
      rw [hevent] at hcommand
      cases hcommand
      cases hkind with
      | inl hstop =>
          rw [hstop]
          rfl
      | inr hmove =>
          cases hstep.antRun hrun with
          | inl hkept => exact absurd hmove hkept.2
          | inr hentered =>
              rw [hmove] at hentered
              cases hentered.2
  | none =>
      rw [Option.none_or]
      cases hstep.antRun hrun with
      | inl hkept => exact h.running hkept.1
      | inr hentered =>
          obtain ⟨hready, rfl⟩ := hentered
          cases Mail.rover_or_wrap hevent (.inl rfl) with
          | inl hcommand =>
              rw [hrover] at hcommand
              cases hcommand
          | inr hwrap =>
              by_contra hstale
              exact hallowed ⟨rfl, hready, ⟨mailbox, by rw [← hwrap]; exact hmail⟩, hstale⟩

theorem StartsSafely.moved {s s' : System crc} {a : Action crc} {seen shown : List (Seen crc)}
    (h : StartsSafely s seen) (hallowed : ¬ StaleStop ⟨s, seen, a⟩)
    (hmoved : Moved s a s' shown) : StartsSafely s' (seen ++ shown) := by
  have hsound := h.sound.moved hmoved
  cases hmoved with
  | arrivedUp => exact ⟨hsound, by simpa using h.running, by simpa using h.starts⟩
  | arrivedDown => exact ⟨hsound, by simpa using h.running, by simpa using h.starts⟩
  | waited => exact ⟨hsound, by simpa using h.running, by simpa using h.starts⟩
  | dropped hmail hevent =>
      refine ⟨hsound, ?_, h.starts.append_of_not_mem (by simp)⟩
      rw [lastRover_dropped, Mail.roverEvent_of_dropped hevent]
      exact h.running
  | stepped hmail hevent hstep =>
      rename_i mail mailbox event sm ctx outputs
      refine ⟨hsound, ?_, h.starts.append_of_not_mem ?_⟩
      · rw [lastRover_handled]
        exact h.running_stepped hallowed hmail hevent hstep
      · rw [List.mem_cons, not_or, List.map_append, List.mem_append, not_or]
        refine ⟨by simp, ?_, (leavesAnt_forwards mail).antStart_not_mem⟩
        cases hstep.leavesAnt with
        | inl hleaves => exact hleaves.antStart_not_mem
        | inr hstop => simp [hstop.2.2]
  | fired htasks hfired =>
      rename_i handle task succeeded sm ctx outputs
      refine ⟨hsound, ?_, ?_⟩
      · rw [lastRover_sent]
        exact fun hrun => h.running (hfired.antRun hrun)
      · cases hfired.leavesAnt (h.sound.fits (handle, task) (by simp [htasks])) with
        | inl hleaves => exact h.starts.append_of_not_mem hleaves.antStart_not_mem
        | inr hstart =>
            rw [hstart.2]
            exact h.starts.concat fun _ => h.running hstart.1

theorem startsSafely_init : StartsSafely (System.machine crc).init [] where
  sound := sound_init
  running := by simp [System.machine, StateMachine.default]
  starts := .nil

/-- As long as no rover stop that the machine has sent itself is out of date
when it is handled in `AntReady`, the ant is started only while the rover stands
still. -/
theorem starts_only_when_stopped {visits : List (Visit (System crc) (Action crc) (Seen crc))}
    {s : System crc} {seen : List (Seen crc)}
    (hrun : (System.machine crc).Run visits s seen)
    (hallowed : ∀ visit ∈ visits, ¬ StaleStop visit) : StartsWhenStopped seen := by
  have hsafe := hrun.invariant StartsSafely (fun visit => ¬ StaleStop visit) startsSafely_init
    (fun h hvisit hnext => h.moved hvisit (moved_of_next h.sound.tracked hnext)) hallowed
  exact hsafe.1.starts

def startAnt : List (Action (StandardCRC crc8Smbus)) :=
  [.arriveDown (stationReport .csBleConnect), .handle, .fire 0 true,
    .arriveUp (roverPacket .feRoverStop), .handle, .fire 1 true]

theorem starts_when_stopped_startAnt : ∃ visits s seen,
    (System.machine (StandardCRC crc8Smbus)).Run visits s seen ∧ visits.length = 6 ∧
      antStartOutstanding seen = true ∧ StartsWhenStopped seen := by
  have hrun := Machine.Run.start.follow
    (show (System.machine _).follow [] _ [] startAnt = some (_, _, _) from rfl)
  have hstarts := starts_only_when_stopped hrun (by
    rintro visit hvisit ⟨_, _, ⟨mailbox, hmail⟩, _⟩
    simp only [List.nil_append, List.cons_append, List.mem_cons, List.not_mem_nil,
      or_false] at hvisit
    rcases hvisit with rfl | rfl | rfl | rfl | rfl | rfl <;> cases hmail)
  exact ⟨_, _, _, hrun, rfl, rfl, hstarts⟩

def moveBeforeSettled : List (Action (StandardCRC crc8Smbus)) :=
  [.arriveDown (stationReport .csBleConnect), .handle, .arriveUp (roverPacket .feRoverStop),
    .handle, .arriveUp (roverPacket .feRoverMove), .fire 0 true, .handle, .handle, .fire 1 true]

theorem staleStop_starts_ant : ∃ visits s seen,
    (System.machine (StandardCRC crc8Smbus)).Run visits s seen ∧
      lastRover seen = some .feRoverMove ∧ antStartOutstanding seen = true ∧
      ¬ StartsWhenStopped seen := by
  have hrun := Machine.Run.start.follow
    (show (System.machine _).follow [] _ [] moveBeforeSettled = some (_, _, _) from rfl)
  refine ⟨_, _, _, hrun, rfl, rfl, ?_⟩
  intro hstarts
  cases hstarts [.handled (.downMessage (stationReport .csBleConnect)),
    .handled (.upCommand (roverPacket .feRoverStop)),
    .handled (.upCommand (roverPacket .feRoverMove)), .handled (.eventWrap .feRoverStop)]
    _ [] rfl rfl

end AntRelay.Runtime
