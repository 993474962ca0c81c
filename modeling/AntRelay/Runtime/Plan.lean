import AntRelay.Base.Simulation
import AntRelay.Runtime.AntStart

namespace AntRelay.Runtime
open AntRelay.Base AntRelay.Format

variable {crc : Checksum}

structure Plan where
  state : State
  task : Option Task
  stopQueued : Bool
  deriving DecidableEq, Repr

inductive PlanAction where
  | event (event : Event)
  | done (task : Task) (succeeded : Bool)
  deriving DecidableEq, Repr

namespace Plan

def start : Plan where
  state := .flightIdle
  task := none
  stopQueued := false

def enter (state : State) (task : Task) (plan : Plan) : Plan :=
  { plan with state := state, task := some task }

def onEvent (plan : Plan) : Event → Option (Plan × List (Destination × Event))
  | .fePowerSupplied =>
      some (if plan.state = .pingCentralStation then plan
        else plan.enter .pingCentralStation .pingInterval, [])
  | .feGarageOpen =>
      if plan.state = .garageOpen then some (plan, [])
      else some ({ plan with task := some .garageOpenSend }, [(.centralStation, .csGarageOpen)])
  | .csBleDisconnect => some ({ plan with state := .garageOpen, task := none }, [])
  | .csBleConnect =>
      some (if plan.state = .bleConnected then plan else plan.enter .bleConnected .bleTimer, [])
  | .feRoverStop =>
      match plan.state with
      | .antRun => some (plan, [])
      | .antReady => some (plan.enter .antRun .antStartDelay, [])
      | _ => some ({ plan with stopQueued := true }, [])
  | .feRoverMove =>
      if plan.state = .antRun then some (plan.enter .antReady .antStopSend, [(.ant, .antStop)])
      else some ({ plan with stopQueued := false }, [])
  | .feRestart => none
  | .debugCsPing => some (plan, [(.centralStation, .csPing)])
  | .antPing => some (plan, [(.ant, .antPing)])
  | _ => some (plan, [])

def onDone (plan : Plan) (succeeded : Bool) : Task → Plan × List (Destination × Event)
  | .pingInterval => (plan, [(.centralStation, .csPing)])
  | .garageOpenSend =>
      if succeeded then ({ plan with state := .garageOpen, task := none }, [])
      else ({ plan with task := none }, [])
  | .bleTimer => ({ state := .antReady, task := none, stopQueued := false }, [])
  | .antStartDelay => ({ plan with task := some .antStartInterval }, [(.ant, .antStart)])
  | .antStartInterval => (plan, [(.ant, .antStart)])
  | .antStopSend => ({ plan with task := none }, [])

def next (plan : Plan) : PlanAction → Option (Plan × List (Destination × Event))
  | .event event => plan.onEvent event
  | .done task succeeded =>
      if plan.task = some task then some (plan.onDone succeeded task) else none

def machine : Machine Plan PlanAction (Destination × Event) where
  init := start
  next := next

def of (s : System crc) : Plan where
  state := s.self.state
  task := s.ctx.tasks.head?.map Prod.snd
  stopQueued := s.self.pendingEvt.isSome

end Plan

def Action.plan? (s : System crc) : Action crc → Option PlanAction
  | .arriveUp _ => none
  | .arriveDown _ => none
  | .handle => (s.ctx.mailbox.head?.bind Mail.event).map .event
  | .fire live succeeded => (s.ctx.tasks.lookup live).map fun task => .done task succeeded
  | .waitDone => none

def Seen.command? : Seen crc → Option (Destination × Event)
  | .sent (.command dest event) => some (dest, event)
  | _ => none

theorem command?_forwards (mail : Mail crc) :
    (mail.forwards.map Seen.sent).filterMap Seen.command? = [] := by
  cases mail with
  | upCommand msg =>
      simp only [Mail.forwards]
      split <;> rfl
  | downMessage msg => rfl
  | eventWrap event => rfl

theorem Plan.of_stepped {sm sm' : StateMachine} {ctx ctx' : Context crc} {event : Event}
    {outputs : List (Output crc)} (h : Stepped sm ctx event sm' ctx' outputs) :
    (Plan.of ⟨sm, ctx⟩).next (.event event) =
      some (Plan.of ⟨sm', ctx'⟩, (outputs.map Seen.sent).filterMap Seen.command?) := by
  cases h with
  | repeated hown =>
      cases hstate : sm.state <;> rw [hstate] at hown <;> cases hown <;>
        simp [Plan.next, Plan.onEvent, Plan.of, hstate]
  | unmatched hmatched =>
      cases event <;> first | rfl | exact absurd (by decide) hmatched
  | powerSupplied hstate =>
      have hout : (Plan.of ⟨sm, ctx⟩).state ≠ .pingCentralStation := hstate
      simp only [Plan.next, Plan.onEvent, if_neg hout]
      rfl
  | garageOpen hstate =>
      have hout : (Plan.of ⟨sm, ctx⟩).state ≠ .garageOpen := hstate
      simp only [Plan.next, Plan.onEvent, if_neg hout]
      rfl
  | bleDisconnect => rfl
  | bleConnect hstate =>
      have hout : (Plan.of ⟨sm, ctx⟩).state ≠ .bleConnected := hstate
      simp only [Plan.next, Plan.onEvent, if_neg hout]
      rfl
  | roverStop hstate =>
      simp only [Plan.next, Plan.onEvent, Plan.of, hstate]
      rfl
  | roverStopQueued hrun hready =>
      simp only [Plan.next, Plan.onEvent, Plan.of]
      rfl
  | roverMove hstate =>
      have hrunning : (Plan.of ⟨sm, ctx⟩).state = .antRun := hstate
      simp only [Plan.next, Plan.onEvent, if_pos hrunning]
      rfl
  | roverMoveCleared hstate =>
      have hout : (Plan.of ⟨sm, ctx⟩).state ≠ .antRun := hstate
      simp only [Plan.next, Plan.onEvent, if_neg hout]
      rfl
  | csPinged => rfl
  | antPinged => rfl

theorem Plan.of_fired {sm sm' : StateMachine} {ctx ctx' : Context crc} {handle : SpawnHandle}
    {task : Task} {succeeded : Bool} {outputs : List (Output crc)}
    (htasks : ctx.tasks = [(handle, task)])
    (h : Fired sm ctx task succeeded sm' ctx' outputs) :
    (Plan.of ⟨sm, ctx⟩).next (.done task succeeded) =
      some (Plan.of ⟨sm', ctx'⟩, (outputs.map Seen.sent).filterMap Seen.command?) := by
  have htask : (Plan.of ⟨sm, ctx⟩).task = some task := by simp [Plan.of, htasks]
  rw [Plan.next, if_pos htask]
  cases h with
  | bleSettled _ hnone => simp [Plan.onDone, Plan.of, Context.idle, hnone]
  | bleSettledPending _ hsome => simp [Plan.onDone, Plan.of, Context.idle, Context.doSend]
  | ping => rfl
  | garageOpen => rfl
  | garageOpenFailed => rfl
  | antStart => rfl
  | antStartAgain => rfl
  | antStopped => rfl

/-- The actor follows the plan: an action that is nothing in the plan changes
nothing in it. -/
noncomputable def planProjection (crc : Checksum) :
    Machine.Projection ((System.machine crc).restrict Sound) Plan.machine where
  state := Plan.of
  action := Action.plan?
  shown := Seen.command?
  init := rfl
  step := by
    intro s a s' shown b hnext haction
    obtain ⟨hsound, hnext⟩ := Machine.restrict_next.mp hnext
    have hmoved := moved_of_next hsound.tracked hnext
    cases hmoved with
    | arrivedUp msg => cases haction
    | arrivedDown msg => cases haction
    | waited _ => cases haction
    | dropped hmail hevent =>
        simp only [Action.plan?, hmail, List.head?_cons, Option.bind_some, hevent,
          Option.map_none] at haction
        cases haction
    | @stepped mail mailbox event sm ctx outputs hmail hevent hstep =>
        simp only [Action.plan?, hmail, List.head?_cons, Option.bind_some, hevent,
          Option.map_some] at haction
        cases haction
        rw [List.filterMap_cons_none rfl, List.map_append, List.filterMap_append,
          command?_forwards, List.append_nil]
        have hplan := Plan.of_stepped hstep
        exact hplan
    | @fired handle task succeeded sm ctx outputs htasks hfired =>
        simp only [Action.plan?, htasks, List.lookup_cons_self, Option.map_some] at haction
        cases haction
        exact Plan.of_fired htasks hfired
  stutter := by
    intro s a s' shown hnext haction
    obtain ⟨hsound, hnext⟩ := Machine.restrict_next.mp hnext
    have hmoved := moved_of_next hsound.tracked hnext
    cases hmoved with
    | arrivedUp msg => exact ⟨rfl, rfl⟩
    | arrivedDown msg => exact ⟨rfl, rfl⟩
    | waited _ => exact ⟨rfl, rfl⟩
    | dropped _ _ => exact ⟨rfl, rfl⟩
    | stepped hmail hevent _ =>
        simp only [Action.plan?, hmail, List.head?_cons, Option.bind_some, hevent,
          Option.map_some] at haction
        cases haction
    | fired htasks _ =>
        simp only [Action.plan?, htasks, List.lookup_cons_self, Option.map_some] at haction
        cases haction

/-- Every run of the actor is a run of its plan: the same states, the same task
in the background, the same commands sent in the same order. -/
theorem actor_follows_plan {visits : List (Visit (System crc) (Action crc) (Seen crc))}
    {s : System crc} {seen : List (Seen crc)} (hrun : (System.machine crc).Run visits s seen) :
    Plan.machine.Run (visits.filterMap (planProjection crc).visit) (Plan.of s)
      (seen.filterMap Seen.command?) :=
  (planProjection crc).run_restrict hrun (sound_of_run hrun).2

theorem actor_follows_plan_startAnt : ∃ visits s seen planned,
    (System.machine (StandardCRC crc8Smbus)).Run visits s seen ∧ visits.length = 6 ∧
      Plan.machine.Run planned ⟨.antRun, some .antStartInterval, false⟩ [(.ant, .antStart)] := by
  have hrun := Machine.Run.start.follow
    (show (System.machine _).follow [] _ [] startAnt = some (_, _, _) from rfl)
  exact ⟨_, _, _, _, hrun, rfl, actor_follows_plan hrun⟩

end AntRelay.Runtime
