import AntRelay.Runtime.Steps

namespace AntRelay.Runtime
open AntRelay.Base AntRelay.Format

variable {crc : Checksum}

/-- What the rover says with a command about its own motion. -/
def Mail.roverEvent : Mail crc → Option Event
  | .upCommand msg =>
      let evt := msg.val.header.header.ty.event
      if evt = .feRoverStop ∨ evt = .feRoverMove then some evt else none
  | .downMessage _ => none
  | .eventWrap _ => none

def Seen.roverEvent : Seen crc → Option Event
  | .handled mail => mail.roverEvent
  | .sent _ => none

/-- The last `FERoverStop` or `FERoverMove` command handled. -/
def lastRover (seen : List (Seen crc)) : Option Event :=
  (seen.filterMap Seen.roverEvent).getLast?

@[simp] theorem lastRover_nil : lastRover ([] : List (Seen crc)) = none := rfl

@[simp] theorem lastRover_sent (seen : List (Seen crc)) (outputs : List (Output crc)) :
    lastRover (seen ++ outputs.map .sent) = lastRover seen := by
  have hnone : (outputs.map Seen.sent).filterMap Seen.roverEvent = [] := by
    rw [List.filterMap_eq_nil_iff]
    intro item hmem
    obtain ⟨output, _, rfl⟩ := List.mem_map.mp hmem
    rfl
  rw [lastRover, List.filterMap_append, hnone, List.append_nil, lastRover]

@[simp] theorem lastRover_handled (seen : List (Seen crc)) (mail : Mail crc)
    (outputs : List (Output crc)) :
    lastRover (seen ++ .handled mail :: outputs.map .sent) =
      mail.roverEvent.or (lastRover seen) := by
  rw [← List.singleton_append, ← List.append_assoc, lastRover_sent, lastRover,
    List.filterMap_append, List.getLast?_append]
  cases hmail : mail.roverEvent <;> simp [Seen.roverEvent, hmail, lastRover]

@[simp] theorem lastRover_dropped (seen : List (Seen crc)) (mail : Mail crc) :
    lastRover (seen ++ [.handled mail]) = mail.roverEvent.or (lastRover seen) :=
  lastRover_handled seen mail []

theorem Mail.event_of_roverEvent {mail : Mail crc} {event : Event}
    (h : mail.roverEvent = some event) :
    mail.event = some event ∧ (event = .feRoverStop ∨ event = .feRoverMove) := by
  cases mail with
  | upCommand msg =>
      simp only [Mail.roverEvent] at h
      split at h
      · rename_i hrover
        cases h
        exact ⟨rfl, hrover⟩
      · cases h
  | downMessage msg => cases h
  | eventWrap event => cases h

theorem Mail.roverEvent_of_not_rover {mail : Mail crc} {event : Event}
    (h : mail.event = some event) (hstop : event ≠ .feRoverStop) (hmove : event ≠ .feRoverMove) :
    mail.roverEvent = none := by
  cases hrover : mail.roverEvent with
  | none => rfl
  | some other =>
      obtain ⟨hevent, hkind⟩ := Mail.event_of_roverEvent hrover
      rw [h] at hevent
      cases hevent
      cases hkind with
      | inl hkind => exact absurd hkind hstop
      | inr hkind => exact absurd hkind hmove

theorem Mail.rover_or_wrap {mail : Mail crc} {event : Event} (h : mail.event = some event)
    (hkind : event = .feRoverStop ∨ event = .feRoverMove) :
    mail.roverEvent = some event ∨ mail = .eventWrap event := by
  cases mail with
  | upCommand msg =>
      cases h
      exact .inl (if_pos hkind)
  | downMessage msg =>
      simp only [Mail.event] at h
      split at h
      · rename_i hble
        cases h
        rcases hkind with hkind | hkind <;> rw [hkind] at hble <;> simp at hble
      · cases h
  | eventWrap other =>
      cases h
      exact .inr rfl

theorem Mail.roverEvent_of_dropped {mail : Mail crc} (h : mail.event = none) :
    mail.roverEvent = none := by
  cases hrover : mail.roverEvent with
  | none => rfl
  | some event =>
      rw [(Mail.event_of_roverEvent hrover).1] at h
      cases h

def Seen.startsAnt : Seen crc → Option Bool
  | .sent (.command .ant .antStart) => some true
  | .sent (.command .ant .antStop) => some false
  | _ => none

/-- The machine has sent `AntStart` more recently than `AntStop`. -/
def antStartOutstanding (seen : List (Seen crc)) : Bool :=
  (seen.filterMap Seen.startsAnt).getLast?.getD false

def LeavesAnt (shown : List (Seen crc)) : Prop :=
  shown.filterMap Seen.startsAnt = []

theorem leavesAnt_nil : LeavesAnt ([] : List (Seen crc)) := rfl

theorem leavesAnt_handled (mail : Mail crc) : LeavesAnt [Seen.handled mail] := rfl

theorem outstanding_of_leavesAnt {shown : List (Seen crc)} (h : LeavesAnt shown)
    (seen : List (Seen crc)) : antStartOutstanding (seen ++ shown) = antStartOutstanding seen := by
  rw [antStartOutstanding, List.filterMap_append, h, List.append_nil, antStartOutstanding]

theorem outstanding_concat (seen : List (Seen crc)) {item : Seen crc} {starts : Bool}
    (h : item.startsAnt = some starts) : antStartOutstanding (seen ++ [item]) = starts := by
  simp [antStartOutstanding, List.filterMap_append, h]

theorem leavesAnt_forwards (mail : Mail crc) : LeavesAnt (mail.forwards.map Seen.sent) := by
  cases mail with
  | upCommand msg =>
      simp only [Mail.forwards]
      split <;> rfl
  | downMessage msg => rfl
  | eventWrap event => rfl

theorem leavesAnt_append {first second : List (Seen crc)} (hfirst : LeavesAnt first)
    (hsecond : LeavesAnt second) : LeavesAnt (first ++ second) := by
  rw [LeavesAnt, List.filterMap_append, hfirst, hsecond, List.append_nil]

theorem LeavesAnt.antStart_not_mem {shown : List (Seen crc)} (h : LeavesAnt shown) :
    .sent (.command .ant .antStart) ∉ shown := by
  intro hmem
  have hstarts : true ∈ shown.filterMap Seen.startsAnt :=
    List.mem_filterMap.mpr ⟨_, hmem, rfl⟩
  rw [h] at hstarts
  cases hstarts

/-- Every own `AntStart` was sent while the last rover command was a stop. -/
def StartsWhenStopped (seen : List (Seen crc)) : Prop :=
  Historically (fun before item =>
    item = .sent (.command .ant .antStart) → lastRover before = some .feRoverStop) seen

theorem StartsWhenStopped.append_of_not_mem {seen shown : List (Seen crc)}
    (h : StartsWhenStopped seen) (hshown : .sent (.command .ant .antStart) ∉ shown) :
    StartsWhenStopped (seen ++ shown) := by
  apply h.append
  intro item hmem _ hstart
  rw [hstart] at hmem
  exact absurd hmem hshown

end AntRelay.Runtime
