import AntRelay.Runtime.Invariant

namespace AntRelay.Runtime
open AntRelay.Base AntRelay.Format

variable {crc : Checksum}

def State.Busy (state : State) : Prop :=
  state = .pingCentralStation ∨ state = .bleConnected ∨ state = .antRun

instance : DecidablePred State.Busy :=
  fun _ => inferInstanceAs (Decidable (_ ∨ _ ∨ _))

/-- With no garage-open send in flight, the work the state stands for is live. -/
structure Truthful (s : System crc) : Prop where
  pinging : s.self.state = .pingCentralStation →
    (∀ entry ∈ s.ctx.tasks, entry.2 ≠ .garageOpenSend) →
      ∃ handle, (handle, Task.pingInterval) ∈ s.ctx.tasks
  settling : s.self.state = .bleConnected →
    (∀ entry ∈ s.ctx.tasks, entry.2 ≠ .garageOpenSend) →
      ∃ handle, (handle, Task.bleTimer) ∈ s.ctx.tasks
  starting : s.self.state = .antRun →
    (∀ entry ∈ s.ctx.tasks, entry.2 ≠ .garageOpenSend) →
      ∃ handle, (handle, Task.antStartDelay) ∈ s.ctx.tasks ∨
        (handle, Task.antStartInterval) ∈ s.ctx.tasks

/-- A garage-open send is about to fail in a state that stands for work. -/
def FailsAtWork (visit : Visit (System crc) (Action crc) (Seen crc)) : Prop :=
  ∃ handle, visit.action = .fire handle false ∧
    (handle, Task.garageOpenSend) ∈ visit.state.ctx.tasks ∧ visit.state.self.state.Busy

def Working (s : System crc) : Prop :=
  s.self.state.Busy → s.ctx.tasks ≠ []

theorem Task.Fits.pinging {task : Task} (h : task.Fits .pingCentralStation)
    (hother : task ≠ .garageOpenSend) : task = .pingInterval := by
  cases task <;> simp [Task.Fits] at h hother ⊢

theorem Task.Fits.settling {task : Task} (h : task.Fits .bleConnected)
    (hother : task ≠ .garageOpenSend) : task = .bleTimer := by
  cases task <;> simp [Task.Fits] at h hother ⊢

theorem Task.Fits.starting {task : Task} (h : task.Fits .antRun)
    (hother : task ≠ .garageOpenSend) : task = .antStartDelay ∨ task = .antStartInterval := by
  cases task <;> simp [Task.Fits] at h hother ⊢

theorem Working.truthful {s : System crc} (h : Working s) (hsound : Sound s) : Truthful s := by
  have hlive (hbusy : s.self.state.Busy) (hnone : ∀ entry ∈ s.ctx.tasks,
      entry.2 ≠ .garageOpenSend) : ∃ handle task, (handle, task) ∈ s.ctx.tasks ∧
        task ≠ .garageOpenSend ∧ task.Fits s.self.state := by
    obtain ⟨entry, hentry⟩ := List.exists_mem_of_ne_nil _ (h hbusy)
    exact ⟨entry.1, entry.2, hentry, hnone entry hentry, hsound.fits entry hentry⟩
  constructor
  · intro hstate hnone
    obtain ⟨handle, task, hmem, hother, hfits⟩ := hlive (.inl hstate) hnone
    rw [hstate] at hfits
    rw [hfits.pinging hother] at hmem
    exact ⟨handle, hmem⟩
  · intro hstate hnone
    obtain ⟨handle, task, hmem, hother, hfits⟩ := hlive (.inr (.inl hstate)) hnone
    rw [hstate] at hfits
    rw [hfits.settling hother] at hmem
    exact ⟨handle, hmem⟩
  · intro hstate hnone
    obtain ⟨handle, task, hmem, hother, hfits⟩ := hlive (.inr (.inr hstate)) hnone
    rw [hstate] at hfits
    cases hfits.starting hother with
    | inl hdelay =>
        rw [hdelay] at hmem
        exact ⟨handle, .inl hmem⟩
    | inr hinterval =>
        rw [hinterval] at hmem
        exact ⟨handle, .inr hmem⟩

theorem Working.stepped {sm sm' : StateMachine} {ctx ctx' : Context crc} {event : Event}
    {outputs : List (Output crc)} (h : Working ⟨sm, ctx⟩)
    (hstep : Stepped sm ctx event sm' ctx' outputs) : Working ⟨sm', ctx'⟩ := by
  cases hstep with
  | repeated _ => exact h
  | unmatched _ => exact h
  | powerSupplied _ => exact fun _ => List.cons_ne_nil _ _
  | garageOpen _ => exact fun _ => List.cons_ne_nil _ _
  | bleDisconnect =>
      intro hbusy
      simp [State.Busy] at hbusy
  | bleConnect _ => exact fun _ => List.cons_ne_nil _ _
  | roverStop _ => exact fun _ => List.cons_ne_nil _ _
  | roverStopQueued _ _ => exact h
  | roverMove _ => exact fun _ => List.cons_ne_nil _ _
  | roverMoveCleared _ => exact h
  | csPinged => exact h
  | antPinged => exact h

theorem Working.fired {sm sm' : StateMachine} {ctx ctx' : Context crc} {task : Task}
    {succeeded : Bool} {outputs : List (Output crc)} (h : Working ⟨sm, ctx⟩)
    (hfits : task.Fits sm.state)
    (hallowed : ¬ (task = .garageOpenSend ∧ succeeded = false ∧ sm.state.Busy))
    (hfired : Fired sm ctx task succeeded sm' ctx' outputs) : Working ⟨sm', ctx'⟩ := by
  cases hfired with
  | ping => exact h
  | garageOpen =>
      intro hbusy
      simp [State.Busy] at hbusy
  | garageOpenFailed =>
      intro hbusy
      exact absurd ⟨rfl, rfl, hbusy⟩ hallowed
  | bleSettled =>
      intro hbusy
      simp [State.Busy] at hbusy
  | bleSettledPending =>
      intro hbusy
      simp [State.Busy] at hbusy
  | antStart => exact fun _ => List.cons_ne_nil _ _
  | antStartAgain => exact h
  | antStopped =>
      intro hbusy
      have hready : sm.state = .antReady := hfits
      simp [State.Busy, hready] at hbusy

theorem Working.popped {s : System crc} (h : Working s) (mailbox : List (Mail crc)) :
    Working ⟨s.self, { s.ctx with mailbox := mailbox }⟩ :=
  h

theorem Working.moved {s s' : System crc} {a : Action crc} {seen shown : List (Seen crc)}
    (h : Working s) (hsound : Sound s) (hallowed : ¬ FailsAtWork ⟨s, seen, a⟩)
    (hmoved : Moved s a s' shown) : Working s' := by
  cases hmoved with
  | arrivedUp => exact h
  | arrivedDown => exact h
  | waited => exact h
  | dropped => exact h
  | stepped _ _ hstep => exact (h.popped _).stepped hstep
  | fired htasks hfired =>
      rename_i handle task succeeded sm ctx outputs
      have hmem : (handle, task) ∈ s.ctx.tasks := by simp [htasks]
      refine Working.fired h (hsound.fits _ hmem) ?_ hfired
      rintro ⟨rfl, rfl, hbusy⟩
      exact hallowed ⟨handle, rfl, hmem, hbusy⟩

theorem FailsAtWork.not_truthful {s s' : System crc} {a : Action crc}
    {seen shown : List (Seen crc)} (h : FailsAtWork ⟨s, seen, a⟩) (hmoved : Moved s a s' shown) :
    ¬ Truthful s' := by
  obtain ⟨handle, haction, hmem, hbusy⟩ := h
  cases haction
  intro htruthful
  obtain ⟨sm, ctx, outputs, rfl, rfl, hfired⟩ := hmoved.on_fire hmem
  cases hfired with
  | garageOpenFailed =>
      rcases hbusy with hstate | hstate | hstate
      · obtain ⟨live, hlive⟩ := htruthful.pinging hstate (by simp [Context.idle])
        cases hlive
      · obtain ⟨live, hlive⟩ := htruthful.settling hstate (by simp [Context.idle])
        cases hlive
      · obtain ⟨live, hlive⟩ := htruthful.starting hstate (by simp [Context.idle])
        simp [Context.idle] at hlive

/-- In a run the state always tells the truth about the background work exactly
when no garage-open send fails while the state stands for work. -/
theorem truthful_iff {visits : List (Visit (System crc) (Action crc) (Seen crc))}
    {s : System crc} {seen : List (Seen crc)}
    (hrun : (System.machine crc).Run visits s seen) :
    (Truthful s ∧ ∀ visit ∈ visits, Truthful visit.state) ↔
      ∀ visit ∈ visits, ¬ FailsAtWork visit := by
  exact holds_iff_never (fun s _ => Working s) (fun s _ => Truthful s) hrun
    (by simp [Working, State.Busy, System.machine, StateMachine.default])
    (fun hsound h hallowed hmoved => h.moved hsound hallowed hmoved)
    (fun hsound h => h.truthful hsound)
    (fun _ hfails hmoved => hfails.not_truthful hmoved)

def openGarage (succeeded : Bool) : List (Action (StandardCRC crc8Smbus)) :=
  [.arriveUp (roverPacket .fePowerSupplied), .handle, .arriveUp (roverPacket .feGarageOpen),
    .handle, .fire 1 succeeded]

theorem truthful_openGarage : ∃ visits s seen,
    (System.machine (StandardCRC crc8Smbus)).Run visits s seen ∧ visits.length = 5 ∧
      s.self.state = .garageOpen ∧ Truthful s ∧ ∀ visit ∈ visits, Truthful visit.state := by
  have hrun := Machine.Run.start.follow
    (show (System.machine _).follow [] _ [] (openGarage true) = some (_, _, _) from rfl)
  have hall := (truthful_iff hrun).mpr (by
    intro visit hvisit hfails
    obtain ⟨handle, haction, _⟩ := hfails
    simp only [List.nil_append, List.cons_append, List.mem_cons, List.not_mem_nil,
      or_false] at hvisit
    rcases hvisit with rfl | rfl | rfl | rfl | rfl <;> cases haction)
  exact ⟨_, _, _, hrun, rfl, rfl, hall⟩

/-- A failed one leaves the machine pinging in name only. -/
theorem garageOpenFailed_not_truthful : ∃ visits s seen,
    (System.machine (StandardCRC crc8Smbus)).Run visits s seen ∧
      s.self.state = .pingCentralStation ∧ s.ctx.tasks = [] ∧ ¬ Truthful s := by
  have hrun := Machine.Run.start.follow
    (show (System.machine _).follow [] _ [] (openGarage false) = some (_, _, _) from rfl)
  refine ⟨_, _, _, hrun, rfl, rfl, ?_⟩
  intro htruthful
  obtain ⟨handle, hlive⟩ := htruthful.pinging rfl (by
    intro entry hmem
    cases hmem)
  cases hlive

end AntRelay.Runtime
