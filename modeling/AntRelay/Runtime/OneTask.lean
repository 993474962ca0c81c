import AntRelay.Runtime.Invariant

namespace AntRelay.Runtime
open AntRelay.Base AntRelay.Format

variable {crc : Checksum}

def Starts (entry : SpawnHandle × Task)
    (visit : Visit (System crc) (Action crc) (Seen crc)) : Prop :=
  entry ∉ visit.state.ctx.tasks ∧ ∃ s' shown, visit.state.next visit.action = some (s', shown) ∧
    entry ∈ s'.ctx.tasks

def Current (visits : List (Visit (System crc) (Action crc) (Seen crc))) (s : System crc)
    (entry : SpawnHandle × Task) : Prop :=
  Since (Starts entry) (fun visit => visit.state.self.state = s.self.state) visits

structure OneTask (visits : List (Visit (System crc) (Action crc) (Seen crc)))
    (s : System crc) : Prop where
  single : s.ctx.tasks.length ≤ 1
  kept : ∀ entry ∈ s.ctx.tasks, s.self.runningTask = some entry.1
  fits : ∀ entry ∈ s.ctx.tasks, entry.2.Fits s.self.state
  current : ∀ entry ∈ s.ctx.tasks, Current visits s entry

/-- A callback about to run is that of a task started in the present state. -/
def FiresCurrent (visits : List (Visit (System crc) (Action crc) (Seen crc))) : Prop :=
  Historically (fun before visit => ∀ handle succeeded, visit.action = .fire handle succeeded →
    ∃ task, (handle, task) ∈ visit.state.ctx.tasks ∧ task.Fits visit.state.self.state ∧
      Current before visit.state (handle, task)) visits

theorem Tracked.single {sm : StateMachine} {ctx : Context crc} (h : Tracked sm ctx) :
    ctx.tasks.length ≤ 1 := by
  cases h.live with
  | inl hnone => simp [hnone]
  | inr hone =>
      obtain ⟨handle, task, htasks, _⟩ := hone
      simp [htasks]

theorem Tracked.kept {sm : StateMachine} {ctx : Context crc} (h : Tracked sm ctx)
    {entry : SpawnHandle × Task} (hmem : entry ∈ ctx.tasks) :
    sm.runningTask = some entry.1 := by
  cases h.live with
  | inl hnone =>
      rw [hnone] at hmem
      cases hmem
  | inr hone =>
      obtain ⟨handle, task, htasks, hlive⟩ := hone
      rw [htasks, List.mem_singleton] at hmem
      rw [hmem]
      exact hlive

theorem Tracked.not_mem_only {sm : StateMachine} {ctx : Context crc} (h : Tracked sm ctx)
    {task : Task} {entry : SpawnHandle × Task} (hmem : entry ∈ (ctx.only task).tasks) :
    entry ∉ ctx.tasks := by
  intro hold
  have hfresh := h.fresh entry.1 (h.kept hold)
  have hnew : entry = (ctx.nextHandle, task) := List.mem_singleton.mp hmem
  rw [hnew] at hfresh
  exact Nat.lt_irrefl _ hfresh

section Steps

variable {sm sm' : StateMachine} {ctx ctx' : Context crc} {outputs : List (Output crc)}
  {entry : SpawnHandle × Task}

theorem Stepped.state_of_survives {event : Event} (hstep : Stepped sm ctx event sm' ctx' outputs)
    (h : Tracked sm ctx) (hold : entry ∈ ctx.tasks) (hnew : entry ∈ ctx'.tasks) :
    sm'.state = sm.state := by
  cases hstep with
  | repeated _ => rfl
  | unmatched _ => rfl
  | powerSupplied _ => exact absurd hold (h.not_mem_only hnew)
  | garageOpen _ => rfl
  | bleDisconnect => cases hnew
  | bleConnect _ => exact absurd hold (h.not_mem_only hnew)
  | roverStop _ => exact absurd hold (h.not_mem_only hnew)
  | roverStopQueued _ _ => rfl
  | roverMove _ => exact absurd hold (h.not_mem_only hnew)
  | roverMoveCleared _ => rfl
  | csPinged => rfl
  | antPinged => rfl

theorem Fired.state_of_survives {task : Task} {succeeded : Bool}
    (hfired : Fired sm ctx task succeeded sm' ctx' outputs) (hnew : entry ∈ ctx'.tasks) :
    sm'.state = sm.state := by
  cases hfired with
  | ping => rfl
  | garageOpen => cases hnew
  | garageOpenFailed => rfl
  | bleSettled => cases hnew
  | bleSettledPending => cases hnew
  | antStart => rfl
  | antStartAgain => rfl
  | antStopped => rfl

end Steps

theorem Moved.state_of_survives {s s' : System crc} {a : Action crc} {shown : List (Seen crc)}
    {entry : SpawnHandle × Task} (hmoved : Moved s a s' shown) (h : Tracked s.self s.ctx)
    (hold : entry ∈ s.ctx.tasks) (hnew : entry ∈ s'.ctx.tasks) :
    s'.self.state = s.self.state := by
  cases hmoved with
  | arrivedUp => rfl
  | arrivedDown => rfl
  | waited => rfl
  | dropped => rfl
  | stepped _ _ hstep => exact hstep.state_of_survives ⟨h.live, h.fresh⟩ hold hnew
  | fired _ hfired => exact hfired.state_of_survives hnew

/-- What is live after a step was started by it, or before it in the same state. -/
theorem Current.next {visits : List (Visit (System crc) (Action crc) (Seen crc))}
    {s s' : System crc} {seen shown : List (Seen crc)} {a : Action crc}
    (hcurrent : ∀ entry ∈ s.ctx.tasks, Current visits s entry) (hsound : Sound s)
    (hnext : (System.machine crc).next s a = some (s', shown)) :
    ∀ entry ∈ s'.ctx.tasks, Current (visits ++ [⟨s, seen, a⟩]) s' entry := by
  intro entry hnew
  by_cases hold : entry ∈ s.ctx.tasks
  · have hstate := (moved_of_next hsound.tracked hnext).state_of_survives hsound.tracked hold hnew
    rw [Current, hstate]
    exact (hcurrent entry hold).concat rfl
  · exact .now visits ⟨hold, s', shown, hnext, hnew⟩

theorem current_of_run {visits : List (Visit (System crc) (Action crc) (Seen crc))}
    {s : System crc} {seen : List (Seen crc)} (hrun : (System.machine crc).Run visits s seen) :
    ∀ entry ∈ s.ctx.tasks, Current visits s entry := by
  have hboth : Sound s ∧ ∀ entry ∈ s.ctx.tasks, Current visits s entry := by
    apply hrun.recorded fun visits s _ => Sound s ∧ ∀ entry ∈ s.ctx.tasks, Current visits s entry
    · refine ⟨sound_init, ?_⟩
      intro entry hmem
      cases hmem
    · intro visits s seen a s' shown h hnext
      exact ⟨h.1.moved (moved_of_next h.1.tracked hnext), Current.next h.2 h.1 hnext⟩
  exact hboth.2

theorem oneTask_of_run {visits : List (Visit (System crc) (Action crc) (Seen crc))}
    {s : System crc} {seen : List (Seen crc)} (hrun : (System.machine crc).Run visits s seen) :
    OneTask visits s where
  single := (sound_of_run hrun).1.tracked.single
  kept := by
    intro entry hmem
    exact (sound_of_run hrun).1.tracked.kept hmem
  fits := (sound_of_run hrun).1.fits
  current := current_of_run hrun

theorem fire_live {s s' : System crc} {handle : SpawnHandle} {succeeded : Bool}
    {shown : List (Seen crc)} (h : Tracked s.self s.ctx)
    (hnext : s.next (.fire handle succeeded) = some (s', shown)) :
    ∃ task, (handle, task) ∈ s.ctx.tasks := by
  cases moved_of_next h hnext with
  | fired htasks _ =>
      rw [htasks]
      exact ⟨_, List.mem_cons_self⟩

/-- In every state of every run at most one task is live, its handle is the one
the machine keeps, and its kind fits the state, which is the one it was started
in; so no callback writes over a transition later than its task. -/
theorem one_background_task {visits : List (Visit (System crc) (Action crc) (Seen crc))}
    {s : System crc} {seen : List (Seen crc)} (hrun : (System.machine crc).Run visits s seen) :
    OneTask visits s ∧ FiresCurrent visits := by
  refine ⟨oneTask_of_run hrun, ?_⟩
  intro before visit after hsplit handle succeeded haction
  have hbefore := oneTask_of_run (hrun.until before visit after hsplit)
  have hsound := (sound_of_run (hrun.until before visit after hsplit)).1
  obtain ⟨s', shown, hnext, -⟩ := hrun.after (fun _ _ => True) trivial (fun _ _ => trivial) visit
    (by simp [hsplit])
  rw [haction] at hnext
  obtain ⟨task, hmem⟩ := fire_live hsound.tracked hnext
  exact ⟨task, hmem, hbefore.fits _ hmem, hbefore.current _ hmem⟩

def openGarageSettling : List (Action (StandardCRC crc8Smbus)) :=
  [.arriveDown (stationReport .csBleConnect), .handle, .arriveUp (roverPacket .feGarageOpen),
    .handle]

theorem one_background_task_openGarageSettling : ∃ visits s seen,
    (System.machine (StandardCRC crc8Smbus)).Run visits s seen ∧
      s.self.state = .bleConnected ∧ s.ctx.tasks = [(1, .garageOpenSend)] ∧
      OneTask visits s ∧ FiresCurrent visits := by
  have hrun := Machine.Run.start.follow
    (show (System.machine _).follow [] _ [] openGarageSettling = some (_, _, _) from rfl)
  exact ⟨_, _, _, hrun, rfl, rfl, one_background_task hrun⟩

end AntRelay.Runtime
