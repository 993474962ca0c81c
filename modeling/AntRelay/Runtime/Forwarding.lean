import AntRelay.Runtime.AntStart

namespace AntRelay.Runtime
open AntRelay.Base AntRelay.Format

variable {crc : Checksum}

/-- The command in a message that is to be passed on. -/
def Mail.relayed? : Mail crc → Option (Message crc)
  | .upCommand msg =>
      let hdr := msg.val.header.header
      if hdr.destination = .ant ∨ hdr.destination = .centralStation then some msg else none
  | .downMessage _ => none
  | .eventWrap _ => none

def Action.relayed? : Action crc → Option (Message crc)
  | .arriveUp msg => (Mail.upCommand msg).relayed?
  | _ => none

def Seen.forward? : Seen crc → Option (Message crc)
  | .sent (.forward msg) => some msg
  | _ => none

theorem Mail.forwards_eq (mail : Mail crc) :
    mail.forwards = mail.relayed?.toList.map Output.forward := by
  cases mail with
  | upCommand msg =>
      simp only [Mail.forwards, Mail.relayed?]
      split <;> rfl
  | downMessage msg => rfl
  | eventWrap event => rfl

theorem Mail.relayed?_of_dropped {mail : Mail crc} (h : mail.event = none) :
    mail.relayed? = none := by
  cases mail with
  | upCommand msg => cases h
  | downMessage msg => rfl
  | eventWrap event => rfl

theorem forwards_shown (mail : Mail crc) {outputs : List (Output crc)}
    (h : (outputs.map Seen.sent).filterMap Seen.forward? = []) :
    (Seen.handled mail :: (outputs ++ mail.forwards).map .sent).filterMap Seen.forward? =
      mail.relayed?.toList := by
  rw [List.filterMap_cons_none rfl, List.map_append, List.filterMap_append, h, List.nil_append,
    mail.forwards_eq]
  cases mail.relayed? <;> rfl

section Steps

variable {sm sm' : StateMachine} {ctx ctx' : Context crc} {outputs : List (Output crc)}

theorem Stepped.relays {event : Event} (h : Stepped sm ctx event sm' ctx' outputs) :
    ctx'.mailbox = ctx.mailbox ∧ (outputs.map Seen.sent).filterMap Seen.forward? = [] := by
  cases h with
  | repeated _ => exact ⟨rfl, rfl⟩
  | unmatched _ => exact ⟨rfl, rfl⟩
  | powerSupplied _ => exact ⟨rfl, rfl⟩
  | garageOpen _ => exact ⟨rfl, rfl⟩
  | bleDisconnect => exact ⟨rfl, rfl⟩
  | bleConnect _ => exact ⟨rfl, rfl⟩
  | roverStop _ => exact ⟨rfl, rfl⟩
  | roverStopQueued _ _ => exact ⟨rfl, rfl⟩
  | roverMove _ => exact ⟨rfl, rfl⟩
  | roverMoveCleared _ => exact ⟨rfl, rfl⟩
  | csPinged => exact ⟨rfl, rfl⟩
  | antPinged => exact ⟨rfl, rfl⟩

theorem Fired.relays {task : Task} {succeeded : Bool}
    (h : Fired sm ctx task succeeded sm' ctx' outputs) :
    ctx'.mailbox.filterMap Mail.relayed? = ctx.mailbox.filterMap Mail.relayed? ∧
      (outputs.map Seen.sent).filterMap Seen.forward? = [] := by
  cases h with
  | ping => exact ⟨rfl, rfl⟩
  | garageOpen => exact ⟨rfl, rfl⟩
  | garageOpenFailed => exact ⟨rfl, rfl⟩
  | bleSettled _ _ => exact ⟨rfl, rfl⟩
  | bleSettledPending _ _ =>
      refine ⟨?_, rfl⟩
      simp only [Context.doSend, Context.idle, List.filterMap_append]
      exact List.append_nil _
  | antStart => exact ⟨rfl, rfl⟩
  | antStartAgain => exact ⟨rfl, rfl⟩
  | antStopped => exact ⟨rfl, rfl⟩

end Steps

/-- What was to be passed on before a step, and what the step brings, has been
passed on by it or is still to be. -/
theorem Moved.relays {s s' : System crc} {a : Action crc} {shown : List (Seen crc)}
    (h : Moved s a s' shown) :
    shown.filterMap Seen.forward? ++ s'.ctx.mailbox.filterMap Mail.relayed? =
      s.ctx.mailbox.filterMap Mail.relayed? ++ a.relayed?.toList := by
  cases h with
  | arrivedUp msg =>
      simp only [Context.doSend, List.filterMap_append, Action.relayed?]
      cases hmsg : (Mail.upCommand msg).relayed? <;> simp [hmsg]
  | arrivedDown msg =>
      simp only [Context.doSend, List.filterMap_append]
      rfl
  | waited _ => exact (List.append_nil _).symm
  | dropped hmail hevent =>
      rw [hmail, List.filterMap_cons_none (Mail.relayed?_of_dropped hevent)]
      exact (List.append_nil _).symm
  | @stepped mail mailbox event sm ctx outputs hmail _ hstep =>
      obtain ⟨hmailbox, hnone⟩ := hstep.relays
      rw [forwards_shown mail hnone, hmailbox, hmail]
      show _ = _ ++ []
      rw [List.append_nil]
      cases hrelayed : mail.relayed? <;> simp [hrelayed]
  | fired _ hfired =>
      obtain ⟨hmailbox, hnone⟩ := hfired.relays
      rw [hmailbox, hnone]
      exact (List.append_nil _).symm

/-- In every run the commands for the ant and the central station that have come
from the ground are those handed to a forwarding future so far, unchanged and in
order, and behind them those still in the mailbox. -/
theorem ground_commands_forwarded {visits : List (Visit (System crc) (Action crc) (Seen crc))}
    {s : System crc} {seen : List (Seen crc)} (hrun : (System.machine crc).Run visits s seen) :
    seen.filterMap Seen.forward? ++ s.ctx.mailbox.filterMap Mail.relayed? =
      (visits.map Visit.action).filterMap Action.relayed? := by
  have hall := hrun.recorded
    (fun visits s seen => Sound s ∧
      seen.filterMap Seen.forward? ++ s.ctx.mailbox.filterMap Mail.relayed? =
        (visits.map Visit.action).filterMap Action.relayed?)
    ⟨sound_init, rfl⟩ ?_
  · exact hall.2
  · intro visits s seen a s' shown hinv hnext
    have hmoved := moved_of_next hinv.1.tracked hnext
    refine ⟨hinv.1.moved hmoved, ?_⟩
    rw [List.filterMap_append, List.append_assoc, hmoved.relays, ← List.append_assoc, hinv.2,
      List.map_append, List.filterMap_append]
    cases hrelayed : a.relayed? <;> simp [hrelayed]

def twoCommands : List (Action (StandardCRC crc8Smbus)) :=
  [.arriveUp (command _ ⟨⟨0⟩, 0⟩ .ant .antPing), .arriveUp (roverPacket .feRoverStop), .handle,
    .arriveUp (command _ ⟨⟨0⟩, 1⟩ .centralStation .csPing)]

theorem ground_commands_forwarded_twoCommands : ∃ visits s seen,
    (System.machine (StandardCRC crc8Smbus)).Run visits s seen ∧
      s.ctx.waiting = [(.ant, .antPing)] ∧
      seen.filterMap Seen.forward? ++ s.ctx.mailbox.filterMap Mail.relayed? =
        [command _ ⟨⟨0⟩, 0⟩ .ant .antPing, command _ ⟨⟨0⟩, 1⟩ .centralStation .csPing] := by
  have hrun := Machine.Run.start.follow
    (show (System.machine _).follow [] _ [] twoCommands = some (_, _, _) from rfl)
  exact ⟨_, _, _, hrun, rfl, ground_commands_forwarded hrun⟩

end AntRelay.Runtime
