import AntRelay.Runtime.Invariant
import AntRelay.Runtime.History

namespace AntRelay.Runtime
open AntRelay.Base AntRelay.Format

variable {crc : Checksum}

/-- Where the machine keeps that the rover has stopped. -/
def KeepsStop (sm : StateMachine) (mailbox : List (Mail crc)) : Prop :=
  sm.state = .antRun ∨ sm.pendingEvt = some .feRoverStop ∨ .eventWrap .feRoverStop ∈ mailbox

/-- If the rover has stopped, the machine knows. -/
def Remembers (s : System crc) (seen : List (Seen crc)) : Prop :=
  lastRover seen = some .feRoverStop → KeepsStop s.self s.ctx.mailbox

def leaving : List Event :=
  [.fePowerSupplied, .csBleDisconnect, .csBleConnect]

/-- `AntRun` is about to be left while the rover stands still and no message says
so any more. -/
structure Forgets (visit : Visit (System crc) (Action crc) (Seen crc)) : Prop where
  running : visit.state.self.state = .antRun
  stopped : lastRover visit.seen = some .feRoverStop
  unsaid : .eventWrap .feRoverStop ∉ visit.state.ctx.mailbox
  left : (visit.action = .handle ∧ ∃ mail mailbox event,
      visit.state.ctx.mailbox = mail :: mailbox ∧ mail.event = some event ∧ event ∈ leaving) ∨
    ∃ handle, visit.action = .fire handle true ∧
      (handle, Task.garageOpenSend) ∈ visit.state.ctx.tasks

section Step

variable {sm sm' : StateMachine} {ctx ctx' : Context crc} {outputs : List (Output crc)}

theorem keepsStop_of_roverStop (h : Stepped sm ctx .feRoverStop sm' ctx' outputs) :
    KeepsStop sm' ctx'.mailbox := by
  cases h with
  | repeated hown =>
      left
      cases hstate : sm.state <;> rw [hstate] at hown <;> simp_all [ownEvent]
  | unmatched hmatched => simp [matched] at hmatched
  | roverStop => exact .inl rfl
  | roverStopQueued => exact .inr (.inl rfl)

theorem KeepsStop.stepped {event : Event} (h : KeepsStop sm ctx.mailbox)
    (hmove : event ≠ .feRoverMove)
    (hleft : sm.state = .antRun → .eventWrap .feRoverStop ∉ ctx.mailbox → event ∉ leaving)
    (hstep : Stepped sm ctx event sm' ctx' outputs) : KeepsStop sm' ctx'.mailbox := by
  have helsewhere (hleaving : event ∈ leaving) :
      sm.pendingEvt = some .feRoverStop ∨ .eventWrap .feRoverStop ∈ ctx.mailbox := by
    by_contra hnone
    rw [not_or] at hnone
    rcases h with hrun | hpending | hmail
    · exact hleft hrun hnone.2 hleaving
    · exact hnone.1 hpending
    · exact hnone.2 hmail
  cases hstep with
  | repeated => exact h
  | unmatched => exact h
  | powerSupplied => exact .inr (helsewhere (by decide))
  | garageOpen => exact h
  | bleDisconnect => exact .inr (helsewhere (by decide))
  | bleConnect => exact .inr (helsewhere (by decide))
  | roverStop => exact .inl rfl
  | roverStopQueued => exact .inr (.inl rfl)
  | roverMove => exact absurd rfl hmove
  | roverMoveCleared => exact absurd rfl hmove
  | csPinged => exact h
  | antPinged => exact h

theorem KeepsStop.fired {handle : SpawnHandle} {task : Task} {succeeded : Bool}
    (h : KeepsStop sm ctx.mailbox) (hsound : Sound ⟨sm, ctx⟩)
    (htasks : ctx.tasks = [(handle, task)])
    (hleft : sm.state = .antRun → .eventWrap .feRoverStop ∉ ctx.mailbox →
      ¬ (task = .garageOpenSend ∧ succeeded = true))
    (hfired : Fired sm ctx task succeeded sm' ctx' outputs) : KeepsStop sm' ctx'.mailbox := by
  have hfits := hsound.fits (handle, task) (by simp [htasks])
  cases hfired with
  | ping => exact h
  | garageOpen =>
      right
      by_contra hnone
      rw [not_or] at hnone
      rcases h with hrun | hpending | hmail
      · exact hleft hrun hnone.2 ⟨rfl, rfl⟩
      · exact hnone.1 hpending
      · exact hnone.2 hmail
  | garageOpenFailed => exact h
  | bleSettled _ hnone =>
      have hstate : sm.state = .bleConnected := hfits
      rcases h with hrun | hpending | hmail
      · rw [hstate] at hrun
        cases hrun
      · rw [hnone] at hpending
        cases hpending
      · exact .inr (.inr hmail)
  | bleSettledPending _ hsome =>
      rw [hsound.pending _ hsome]
      exact .inr (.inr (List.mem_append_right _ List.mem_cons_self))
  | antStart => exact h
  | antStartAgain => exact h
  | antStopped => exact h

end Step

theorem wrap_behind {mail : Mail crc} {mailbox : List (Mail crc)}
    (hother : mail.event ≠ some .feRoverStop)
    (h : .eventWrap .feRoverStop ∈ mail :: mailbox) : .eventWrap .feRoverStop ∈ mailbox := by
  cases h with
  | head => exact absurd rfl hother
  | tail _ hmem => exact hmem

theorem KeepsStop.behind {sm : StateMachine} {queued mailbox : List (Mail crc)} {mail : Mail crc}
    (h : KeepsStop sm queued) (hmail : queued = mail :: mailbox)
    (hother : mail.event ≠ some .feRoverStop) : KeepsStop sm mailbox := by
  subst hmail
  exact h.imp id (Or.imp id (wrap_behind hother))

/-- One step keeps the memory unless it forgets. -/
theorem Remembers.moved {s s' : System crc} {a : Action crc} {seen shown : List (Seen crc)}
    (h : Remembers s seen) (hsound : Sound s) (hallowed : ¬ Forgets ⟨s, seen, a⟩)
    (hmoved : Moved s a s' shown) : Remembers s' (seen ++ shown) := by
  intro hstopped
  cases hmoved with
  | arrivedUp msg =>
      rw [List.append_nil] at hstopped
      exact (h hstopped).imp id (Or.imp id (List.mem_append_left _))
  | arrivedDown msg =>
      rw [List.append_nil] at hstopped
      exact (h hstopped).imp id (Or.imp id (List.mem_append_left _))
  | waited =>
      rw [List.append_nil] at hstopped
      exact h hstopped
  | dropped hmail hevent =>
      rename_i mail mailbox
      rw [lastRover_dropped, Mail.roverEvent_of_dropped hevent] at hstopped
      exact (h hstopped).behind hmail (by simp [hevent])
  | stepped hmail hevent hstep =>
      rename_i mail mailbox event sm ctx outputs
      rw [lastRover_handled] at hstopped
      by_cases hrover : event = .feRoverStop ∨ event = .feRoverMove
      · rcases hrover with rfl | rfl
        · exact keepsStop_of_roverStop hstep
        · cases Mail.rover_or_wrap hevent (.inr rfl) with
          | inl hcommand =>
              rw [hcommand] at hstopped
              cases hstopped
          | inr hwrap =>
              have hstop := hsound.wraps .feRoverMove (by simp [hmail, hwrap])
              cases hstop
      · rw [not_or] at hrover
        rw [Mail.roverEvent_of_not_rover hevent hrover.1 hrover.2, Option.none_or] at hstopped
        have hother : mail.event ≠ some .feRoverStop := by
          rw [hevent]
          exact fun hsame => hrover.1 (Option.some.inj hsame)
        have hkept := (h hstopped).behind hmail hother
        refine KeepsStop.stepped hkept hrover.2 ?_ hstep
        intro hrun hunsaid hleaving
        refine hallowed ⟨hrun, hstopped, ?_,
          .inl ⟨rfl, mail, mailbox, event, hmail, hevent, hleaving⟩⟩
        rw [hmail]
        exact fun hmem => hunsaid (wrap_behind hother hmem)
  | fired htasks hfired =>
      rename_i handle task succeeded sm ctx outputs
      rw [lastRover_sent] at hstopped
      refine KeepsStop.fired (h hstopped) hsound htasks ?_ hfired
      rintro hrun hunsaid ⟨rfl, rfl⟩
      exact hallowed ⟨hrun, hstopped, hunsaid, .inr ⟨handle, rfl, by simp [htasks]⟩⟩

theorem Forgets.not_remembers {s s' : System crc} {a : Action crc} {seen shown : List (Seen crc)}
    (h : Forgets ⟨s, seen, a⟩) (hsound : Sound s) (hmoved : Moved s a s' shown) :
    ¬ Remembers s' (seen ++ shown) := by
  have hnone : s.self.pendingEvt = none := hsound.settled (.inr h.running)
  intro hremembers
  cases h.left with
  | inl hhandled =>
      obtain ⟨rfl, mail, mailbox, event, hmail, hevent, hleaving⟩ := hhandled
      have hstopped : mail.roverEvent.or (lastRover seen) = some .feRoverStop := by
        rw [Mail.roverEvent_of_not_rover hevent (by rintro rfl; simp [leaving] at hleaving)
          (by rintro rfl; simp [leaving] at hleaving), Option.none_or]
        exact h.stopped
      have hunsaid : .eventWrap .feRoverStop ∉ mailbox := by
        intro hmem
        apply h.unsaid
        rw [hmail]
        exact List.mem_cons_of_mem _ hmem
      obtain ⟨sm, ctx, outputs, rfl, rfl, hstep⟩ := hmoved.on_event hmail hevent
      have hkeeps := hremembers (by rw [lastRover_handled]; exact hstopped)
      cases hstep with
      | repeated hown =>
          rw [h.running] at hown
          cases hown
          simp [leaving] at hleaving
      | unmatched hmatched =>
          simp only [leaving, matched, List.mem_cons] at hleaving hmatched
          tauto
      | powerSupplied => simp [KeepsStop, hnone, Context.only, hunsaid] at hkeeps
      | bleDisconnect => simp [KeepsStop, hnone, Context.idle, hunsaid] at hkeeps
      | bleConnect => simp [KeepsStop, hnone, Context.only, hunsaid] at hkeeps
      | garageOpen => simp [leaving] at hleaving
      | roverStop => simp [leaving] at hleaving
      | roverStopQueued => simp [leaving] at hleaving
      | roverMove => simp [leaving] at hleaving
      | roverMoveCleared => simp [leaving] at hleaving
      | csPinged => simp [leaving] at hleaving
      | antPinged => simp [leaving] at hleaving
  | inr hfired =>
      obtain ⟨handle, rfl, hmem⟩ := hfired
      obtain ⟨sm, ctx, outputs, rfl, rfl, hfired⟩ := hmoved.on_fire hmem
      have hkeeps := hremembers (by rw [lastRover_sent]; exact h.stopped)
      cases hfired with
      | garageOpen =>
          have hunsaid := h.unsaid
          simp [KeepsStop, hnone, Context.idle, hunsaid] at hkeeps

/-- In a run the machine always remembers a rover stop exactly when it never
leaves `AntRun` on a power, BLE or garage event while the rover stands still. -/
theorem remembers_iff {visits : List (Visit (System crc) (Action crc) (Seen crc))}
    {s : System crc} {seen : List (Seen crc)}
    (hrun : (System.machine crc).Run visits s seen) :
    (Remembers s seen ∧ ∀ visit ∈ visits, Remembers visit.state visit.seen) ↔
      ∀ visit ∈ visits, ¬ Forgets visit := by
  exact holds_iff_never Remembers Remembers hrun (by simp [Remembers])
    (fun hsound h hallowed hmoved => h.moved hsound hallowed hmoved)
    (fun _ h => h)
    (fun hsound hforgets hmoved => hforgets.not_remembers hsound hmoved)

def stopWhenReady : List (Action (StandardCRC crc8Smbus)) :=
  [.arriveDown (stationReport .csBleConnect), .handle, .fire 0 true,
    .arriveUp (roverPacket .feRoverStop), .handle]

theorem remembers_stopWhenReady : ∃ visits s seen,
    (System.machine (StandardCRC crc8Smbus)).Run visits s seen ∧ visits.length = 5 ∧
      s.self.state = .antRun ∧ lastRover seen = some .feRoverStop ∧ Remembers s seen ∧
      ∀ visit ∈ visits, Remembers visit.state visit.seen := by
  have hrun := Machine.Run.start.follow
    (show (System.machine _).follow [] _ [] stopWhenReady = some (_, _, _) from rfl)
  have hall := (remembers_iff hrun).mpr (by
    intro visit hvisit hforgets
    have hrunning := hforgets.running
    simp only [List.nil_append, List.cons_append, List.mem_cons, List.not_mem_nil,
      or_false] at hvisit
    rcases hvisit with rfl | rfl | rfl | rfl | rfl <;> cases hrunning)
  exact ⟨_, _, _, hrun, rfl, rfl, rfl, hall⟩

/-- A BLE drop loses it. -/
theorem bleDisconnect_not_remembers : ∃ visits s seen,
    (System.machine (StandardCRC crc8Smbus)).Run visits s seen ∧
      s.self = ⟨.garageOpen, none, none⟩ ∧ s.ctx.mailbox = [] ∧
      lastRover seen = some .feRoverStop ∧ ¬ Remembers s seen := by
  have hrun := Machine.Run.start.follow
    (show (System.machine _).follow [] _ []
      (stopWhenReady ++ [.arriveDown (stationReport .csBleDisconnect), .handle]) =
        some (_, _, _) from rfl)
  refine ⟨_, _, _, hrun, rfl, rfl, rfl, ?_⟩
  intro hremembers
  rcases hremembers rfl with hstate | hpending | hmail
  · cases hstate
  · cases hpending
  · cases hmail

end AntRelay.Runtime
