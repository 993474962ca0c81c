import AntRelay.Runtime.OneTask

namespace AntRelay.Runtime
open AntRelay.Base AntRelay.Format

variable {crc : Checksum}

def Seen.linkEvent : Seen crc → Option Event
  | .handled mail => mail.event.filter fun evt => evt = .csBleConnect || evt = .csBleDisconnect
  | .sent _ => none

/-- The latest `CSBLEConnect` or `CSBLEDisconnect` stepped on. -/
def lastLink (seen : List (Seen crc)) : Option Event :=
  (seen.filterMap Seen.linkEvent).getLast?

@[simp] theorem lastLink_sent (seen : List (Seen crc)) (outputs : List (Output crc)) :
    lastLink (seen ++ outputs.map .sent) = lastLink seen := by
  have hnone : (outputs.map Seen.sent).filterMap Seen.linkEvent = [] := by
    rw [List.filterMap_eq_nil_iff]
    intro item hmem
    obtain ⟨output, _, rfl⟩ := List.mem_map.mp hmem
    rfl
  rw [lastLink, List.filterMap_append, hnone, List.append_nil, lastLink]

theorem lastLink_handled (seen : List (Seen crc)) (mail : Mail crc)
    (outputs : List (Output crc)) :
    lastLink (seen ++ .handled mail :: outputs.map .sent) =
      (Seen.linkEvent (.handled mail)).or (lastLink seen) := by
  rw [← List.singleton_append, ← List.append_assoc, lastLink_sent, lastLink,
    List.filterMap_append, List.getLast?_append]
  cases hmail : Seen.linkEvent (.handled mail) <;> simp [hmail, lastLink]

theorem lastLink_event (seen : List (Seen crc)) {mail : Mail crc} {event : Event}
    (outputs : List (Output crc)) (hevent : mail.event = some event) :
    lastLink (seen ++ .handled mail :: outputs.map .sent) =
      if event = .csBleConnect ∨ event = .csBleDisconnect then some event else lastLink seen := by
  rw [lastLink_handled]
  by_cases hlink : event = .csBleConnect ∨ event = .csBleDisconnect
  · rw [if_pos hlink]
    simp [Seen.linkEvent, hevent, Option.filter, hlink]
  · rw [if_neg hlink]
    simp [Seen.linkEvent, hevent, Option.filter, hlink]

def State.Linked (state : State) : Prop :=
  state = .bleConnected ∨ state = .antReady ∨ state = .antRun

def State.Settled (state : State) : Prop :=
  state = .antReady ∨ state = .antRun

theorem State.Settled.linked {state : State} (h : state.Settled) : state.Linked :=
  .inr h

theorem not_linked_pingCentralStation : ¬ State.Linked .pingCentralStation := by
  simp [State.Linked]

theorem not_linked_garageOpen : ¬ State.Linked .garageOpen := by
  simp [State.Linked]

theorem not_settled_bleConnected : ¬ State.Settled .bleConnected := by
  simp [State.Settled]

def LinkUp (s : System crc) (seen : List (Seen crc)) : Prop :=
  s.self.state.Linked → lastLink seen = some .csBleConnect

section Steps

variable {sm sm' : StateMachine} {ctx ctx' : Context crc} {outputs : List (Output crc)}

theorem Stepped.linked {event : Event} (h : Stepped sm ctx event sm' ctx' outputs)
    (hlinked : sm'.state.Linked) :
    event = .csBleConnect ∨ (sm.state.Linked ∧ event ≠ .csBleDisconnect) := by
  cases h with
  | repeated hown =>
      refine .inr ⟨hlinked, ?_⟩
      rintro rfl
      cases hstate : sm.state <;> rw [hstate] at hown <;> cases hown
  | unmatched hevent =>
      refine .inr ⟨hlinked, ?_⟩
      rintro rfl
      exact hevent (by decide)
  | powerSupplied => exact absurd hlinked not_linked_pingCentralStation
  | garageOpen => exact .inr ⟨hlinked, by decide⟩
  | bleDisconnect => exact absurd hlinked not_linked_garageOpen
  | bleConnect => exact .inl rfl
  | roverStop hstate => exact .inr ⟨.inr (.inl hstate), by decide⟩
  | roverStopQueued => exact .inr ⟨hlinked, by decide⟩
  | roverMove hstate => exact .inr ⟨.inr (.inr hstate), by decide⟩
  | roverMoveCleared => exact .inr ⟨hlinked, by decide⟩
  | csPinged => exact .inr ⟨hlinked, by decide⟩
  | antPinged => exact .inr ⟨hlinked, by decide⟩

theorem Fired.linked {task : Task} {succeeded : Bool} (hfits : task.Fits sm.state)
    (h : Fired sm ctx task succeeded sm' ctx' outputs) (hlinked : sm'.state.Linked) :
    sm.state.Linked := by
  cases h with
  | ping => exact hlinked
  | garageOpen => exact absurd hlinked not_linked_garageOpen
  | garageOpenFailed => exact hlinked
  | bleSettled => exact .inl hfits
  | bleSettledPending => exact .inl hfits
  | antStart => exact hlinked
  | antStartAgain => exact hlinked
  | antStopped => exact hlinked

end Steps

theorem LinkUp.moved {s s' : System crc} {a : Action crc} {seen shown : List (Seen crc)}
    (h : LinkUp s seen) (hsound : Sound s) (hmoved : Moved s a s' shown) :
    LinkUp s' (seen ++ shown) := by
  intro hlinked
  cases hmoved with
  | arrivedUp =>
      rw [List.append_nil]
      exact h hlinked
  | arrivedDown =>
      rw [List.append_nil]
      exact h hlinked
  | waited =>
      rw [List.append_nil]
      exact h hlinked
  | @dropped mail _ _ hevent =>
      have hsame := lastLink_handled seen mail []
      have hnone : Seen.linkEvent (.handled mail) = none := by simp [Seen.linkEvent, hevent]
      rw [hnone, Option.none_or] at hsame
      exact hsame.trans (h hlinked)
  | stepped _ hevent hstep =>
      rw [lastLink_event seen _ hevent]
      cases hstep.linked hlinked with
      | inl hconnect => rw [if_pos (.inl hconnect), hconnect]
      | inr hkeep =>
          split
          · rename_i hlink
            cases hlink with
            | inl hconnect => rw [hconnect]
            | inr hdisconnect => exact absurd hdisconnect hkeep.2
          · exact h hkeep.1
  | fired htasks hfired =>
      rw [lastLink_sent]
      have hfits := hsound.fits _ (by rw [htasks]; exact List.mem_cons_self)
      exact h (hfired.linked hfits hlinked)

def Enters (state : State) (visit : Visit (System crc) (Action crc) (Seen crc)) : Prop :=
  visit.state.self.state ≠ state ∧ ∃ s' shown,
    visit.state.next visit.action = some (s', shown) ∧ s'.self.state = state

def ArmsTimer (handle : SpawnHandle)
    (visit : Visit (System crc) (Action crc) (Seen crc)) : Prop :=
  Enters .bleConnected visit ∧ Starts (handle, .bleTimer) visit

def Fires (handle : SpawnHandle) (visit : Visit (System crc) (Action crc) (Seen crc)) : Prop :=
  ∃ succeeded, visit.action = .fire handle succeeded

def StepsOn (event : Event) (visit : Visit (System crc) (Action crc) (Seen crc)) : Prop :=
  visit.action = .handle ∧ ∃ mail mailbox, visit.state.ctx.mailbox = mail :: mailbox ∧
    mail.event = some event

def OpensGarage (visit : Visit (System crc) (Action crc) (Seen crc)) : Prop :=
  ∃ handle, visit.action = .fire handle true ∧
    (handle, Task.garageOpenSend) ∈ visit.state.ctx.tasks

def Unsettles (visit : Visit (System crc) (Action crc) (Seen crc)) : Prop :=
  Enters .bleConnected visit ∨ StepsOn .csBleDisconnect visit ∨
    (StepsOn .fePowerSupplied visit ∧ Enters .pingCentralStation visit) ∨ OpensGarage visit

def Armed (handle : SpawnHandle)
    (visits : List (Visit (System crc) (Action crc) (Seen crc))) : Prop :=
  Since (ArmsTimer handle) (fun visit => ¬ Unsettles visit) visits

/-- The timer armed at the latest transition into `BLEConnected` has run its
callback, and nothing has unsettled the link since that transition. -/
def LinkSettled (visits : List (Visit (System crc) (Action crc) (Seen crc))) : Prop :=
  ∃ handle before armed between fired after,
    visits = before ++ armed :: (between ++ fired :: after) ∧
      ArmsTimer handle armed ∧ Fires handle fired ∧
      ∀ visit ∈ between ++ fired :: after, ¬ Unsettles visit

theorem LinkSettled.of_fires {handle : SpawnHandle}
    {visits : List (Visit (System crc) (Action crc) (Seen crc))}
    {visit : Visit (System crc) (Action crc) (Seen crc)} (h : Armed handle visits)
    (hfires : Fires handle visit) (hquiet : ¬ Unsettles visit) :
    LinkSettled (visits ++ [visit]) := by
  obtain ⟨before, armed, between, rfl, harmed, hbetween⟩ := h
  refine ⟨handle, before, armed, between, visit, [], by simp, harmed, hfires, ?_⟩
  rw [List.forall_mem_append, List.forall_mem_singleton]
  exact ⟨hbetween, hquiet⟩

theorem LinkSettled.concat {visits : List (Visit (System crc) (Action crc) (Seen crc))}
    {visit : Visit (System crc) (Action crc) (Seen crc)} (h : LinkSettled visits)
    (hquiet : ¬ Unsettles visit) : LinkSettled (visits ++ [visit]) := by
  obtain ⟨handle, before, armed, between, fired, after, rfl, harmed, hfires, hsince⟩ := h
  refine ⟨handle, before, armed, between, fired, after ++ [visit], by simp, harmed, hfires, ?_⟩
  rw [← List.cons_append, ← List.append_assoc, List.forall_mem_append, List.forall_mem_singleton]
  exact ⟨hsince, hquiet⟩

section Steps

variable {sm sm' : StateMachine} {ctx ctx' : Context crc} {outputs : List (Output crc)}

theorem Stepped.settled {event : Event} (h : Stepped sm ctx event sm' ctx' outputs)
    (hsettled : sm'.state.Settled) : sm.state.Settled := by
  cases h with
  | repeated => exact hsettled
  | unmatched => exact hsettled
  | powerSupplied => exact absurd hsettled.linked not_linked_pingCentralStation
  | garageOpen => exact hsettled
  | bleDisconnect => exact absurd hsettled.linked not_linked_garageOpen
  | bleConnect => exact absurd hsettled not_settled_bleConnected
  | roverStop hstate => exact .inl hstate
  | roverStopQueued => exact hsettled
  | roverMove hstate => exact .inr hstate
  | roverMoveCleared => exact hsettled
  | csPinged => exact hsettled
  | antPinged => exact hsettled

theorem Fired.settled {task : Task} {succeeded : Bool}
    (h : Fired sm ctx task succeeded sm' ctx' outputs) (hsettled : sm'.state.Settled) :
    sm.state.Settled ∨ task = .bleTimer := by
  cases h with
  | ping => exact .inl hsettled
  | garageOpen => exact absurd hsettled.linked not_linked_garageOpen
  | garageOpenFailed => exact .inl hsettled
  | bleSettled => exact .inr rfl
  | bleSettledPending => exact .inr rfl
  | antStart => exact .inl hsettled
  | antStartAgain => exact .inl hsettled
  | antStopped => exact .inl hsettled

theorem Stepped.bleTimer {event : Event} {handle : SpawnHandle}
    (h : Stepped sm ctx event sm' ctx' outputs) (hnew : (handle, .bleTimer) ∈ ctx'.tasks) :
    (handle, .bleTimer) ∈ ctx.tasks ∨ sm.state ≠ .bleConnected := by
  cases h with
  | repeated => exact .inl hnew
  | unmatched => exact .inl hnew
  | powerSupplied => simp [Context.only] at hnew
  | garageOpen => simp [Context.only] at hnew
  | bleDisconnect => cases hnew
  | bleConnect hstate => exact .inr hstate
  | roverStop => simp [Context.only] at hnew
  | roverStopQueued => exact .inl hnew
  | roverMove => simp [Context.only] at hnew
  | roverMoveCleared => exact .inl hnew
  | csPinged => exact .inl hnew
  | antPinged => exact .inl hnew

theorem Fired.bleTimer_mem {task : Task} {succeeded : Bool} {handle : SpawnHandle}
    (h : Fired sm ctx task succeeded sm' ctx' outputs) (hnew : (handle, .bleTimer) ∈ ctx'.tasks) :
    (handle, .bleTimer) ∈ ctx.tasks := by
  cases h with
  | ping => exact hnew
  | garageOpen => cases hnew
  | garageOpenFailed => cases hnew
  | bleSettled => cases hnew
  | bleSettledPending => cases hnew
  | antStart => simp [Context.only, Context.wait] at hnew
  | antStartAgain => exact hnew
  | antStopped => cases hnew

end Steps

section Moves

variable {s s' : System crc} {a : Action crc} {seen shown : List (Seen crc)}

theorem Moved.settled (h : Moved s a s' shown) (hsettled : s'.self.state.Settled) :
    s.self.state.Settled ∨
      ∃ handle, (handle, .bleTimer) ∈ s.ctx.tasks ∧ Fires handle ⟨s, seen, a⟩ := by
  cases h with
  | arrivedUp => exact .inl hsettled
  | arrivedDown => exact .inl hsettled
  | waited => exact .inl hsettled
  | dropped => exact .inl hsettled
  | stepped _ _ hstep => exact .inl (hstep.settled hsettled)
  | @fired handle _ succeeded _ _ _ htasks hfired =>
      cases hfired.settled hsettled with
      | inl hbefore => exact .inl hbefore
      | inr htimer =>
          refine .inr ⟨handle, ?_, succeeded, rfl⟩
          rw [htasks, htimer]
          exact List.mem_cons_self

theorem Moved.bleTimer {handle : SpawnHandle} (h : Moved s a s' shown)
    (hnew : (handle, .bleTimer) ∈ s'.ctx.tasks) :
    (handle, .bleTimer) ∈ s.ctx.tasks ∨ s.self.state ≠ .bleConnected := by
  cases h with
  | arrivedUp => exact .inl hnew
  | arrivedDown => exact .inl hnew
  | waited => exact .inl hnew
  | dropped => exact .inl hnew
  | stepped _ _ hstep => exact hstep.bleTimer hnew
  | fired _ hfired => exact .inl (hfired.bleTimer_mem hnew)

theorem StepsOn.disconnects (h : StepsOn .csBleDisconnect ⟨s, seen, a⟩)
    (hmoved : Moved s a s' shown) : s'.self.state = .garageOpen := by
  obtain ⟨haction, mail, mailbox, hmail, hevent⟩ := h
  cases haction
  obtain ⟨sm, ctx, outputs, rfl, rfl, hstep⟩ := hmoved.on_event hmail hevent
  cases hstep with
  | repeated hown =>
      cases hstate : s.self.state <;> rw [hstate] at hown <;> cases hown
  | unmatched hnot => exact absurd (by decide) hnot
  | bleDisconnect => rfl

theorem OpensGarage.opens (h : OpensGarage ⟨s, seen, a⟩) (hmoved : Moved s a s' shown) :
    s'.self.state = .garageOpen := by
  obtain ⟨handle, haction, hmem⟩ := h
  cases haction
  obtain ⟨sm, ctx, outputs, rfl, rfl, hfired⟩ := hmoved.on_fire hmem
  cases hfired
  rfl

theorem Unsettles.state (h : Unsettles ⟨s, seen, a⟩) (hmoved : Moved s a s' shown)
    (hnext : s.next a = some (s', shown)) :
    (s.self.state ≠ .bleConnected ∧ s'.self.state = .bleConnected) ∨
      ¬ s'.self.state.Linked := by
  rcases h with ⟨hother, s₁, shown₁, hnext₁, hstate⟩ | hdisconnect | ⟨_, hping⟩ | hopens
  · rw [hnext] at hnext₁
    cases hnext₁
    exact .inl ⟨hother, hstate⟩
  · rw [hdisconnect.disconnects hmoved]
    exact .inr not_linked_garageOpen
  · obtain ⟨_, s₁, shown₁, hnext₁, hstate⟩ := hping
    rw [hnext] at hnext₁
    cases hnext₁
    rw [hstate]
    exact .inr not_linked_pingCentralStation
  · rw [hopens.opens hmoved]
    exact .inr not_linked_garageOpen

end Moves

structure Settling (visits : List (Visit (System crc) (Action crc) (Seen crc)))
    (s : System crc) : Prop where
  armed : ∀ handle, (handle, .bleTimer) ∈ s.ctx.tasks → Armed handle visits
  settled : s.self.state.Settled → LinkSettled visits

theorem Settling.next {visits : List (Visit (System crc) (Action crc) (Seen crc))}
    {s s' : System crc} {a : Action crc} {seen shown : List (Seen crc)} (h : Settling visits s)
    (hsound : Sound s) (hnext : s.next a = some (s', shown)) :
    Settling (visits ++ [⟨s, seen, a⟩]) s' := by
  have hmoved := moved_of_next hsound.tracked hnext
  have hsound' := hsound.moved hmoved
  constructor
  · intro handle hnew
    have hstate : s'.self.state = .bleConnected := hsound'.fits _ hnew
    by_cases hold : (handle, .bleTimer) ∈ s.ctx.tasks
    · refine (h.armed handle hold).concat fun hunsettles => ?_
      cases hunsettles.state hmoved hnext with
      | inl henters =>
          have hsame := hmoved.state_of_survives hsound.tracked hold hnew
          exact henters.1 (hsame.symm.trans hstate)
      | inr hunlinked => exact hunlinked (.inl hstate)
    · have hother := (hmoved.bleTimer hnew).resolve_left hold
      exact .now visits ⟨⟨hother, s', shown, hnext, hstate⟩, hold, s', shown, hnext, hnew⟩
  · intro hsettled
    have hquiet : ¬ Unsettles ⟨s, seen, a⟩ := by
      intro hunsettles
      cases hunsettles.state hmoved hnext with
      | inl henters =>
          rw [henters.2] at hsettled
          exact not_settled_bleConnected hsettled
      | inr hunlinked => exact hunlinked hsettled.linked
    have hreached : s.self.state.Settled ∨
        ∃ handle, (handle, .bleTimer) ∈ s.ctx.tasks ∧ Fires handle ⟨s, seen, a⟩ :=
      hmoved.settled hsettled
    cases hreached with
    | inl hbefore => exact (h.settled hbefore).concat hquiet
    | inr htimer =>
        obtain ⟨handle, hmem, hfires⟩ := htimer
        exact .of_fires (h.armed handle hmem) hfires hquiet

/-- In every state of every run: a state that needs the BLE link has it, as far
as the central station has reported; and in `AntReady` and `AntRun` the link has
settled since the latest transition into `BLEConnected`. -/
theorem ant_states_need_link {visits : List (Visit (System crc) (Action crc) (Seen crc))}
    {s : System crc} {seen : List (Seen crc)} (hrun : (System.machine crc).Run visits s seen) :
    (s.self.state = .bleConnected ∨ s.self.state = .antReady ∨ s.self.state = .antRun →
      lastLink seen = some .csBleConnect) ∧
    (s.self.state = .antReady ∨ s.self.state = .antRun → LinkSettled visits) := by
  have hall : Sound s ∧ LinkUp s seen ∧ Settling visits s := by
    apply hrun.recorded fun visits s seen => Sound s ∧ LinkUp s seen ∧ Settling visits s
    · refine ⟨sound_init, ?_, ?_, ?_⟩
      · intro hlinked
        simp [State.Linked, System.machine, StateMachine.default] at hlinked
      · intro handle hmem
        cases hmem
      · intro hsettled
        simp [State.Settled, System.machine, StateMachine.default] at hsettled
    · intro visits s seen a s' shown h hnext
      have hmoved := moved_of_next h.1.tracked hnext
      exact ⟨h.1.moved hmoved, h.2.1.moved h.1 hmoved, h.2.2.next h.1 hnext⟩
  exact ⟨hall.2.1, hall.2.2.settled⟩

def reconnect : List (Action (StandardCRC crc8Smbus)) :=
  [.arriveDown (stationReport .csBleConnect), .handle,
    .arriveDown (stationReport .csBleDisconnect), .handle,
    .arriveDown (stationReport .csBleConnect), .handle, .fire 1 true]

theorem link_settled_reconnect : ∃ visits s seen,
    (System.machine (StandardCRC crc8Smbus)).Run visits s seen ∧ s.self.state = .antReady ∧
      lastLink seen = some .csBleConnect ∧ LinkSettled visits := by
  have hrun := Machine.Run.start.follow
    (show (System.machine _).follow [] _ [] reconnect = some (_, _, _) from rfl)
  have hlink := ant_states_need_link hrun
  exact ⟨_, _, _, hrun, rfl, hlink.1 (.inr (.inl rfl)), hlink.2 (.inl rfl)⟩

end AntRelay.Runtime
