import AntRelay.Base.Machine
import AntRelay.Format.Payloads

namespace AntRelay.Runtime
open AntRelay.Base AntRelay.Format

/-! The actor `StateMachine` with its context: the mailbox, the live tasks it
has started, and the futures it waits on. An action handles the message at the
head of the mailbox, runs the callback of a live task, ends a wait, or is the
arrival of a message. Nothing but an arrival happens while the actor waits. -/

inductive State where
  | flightIdle
  | pingCentralStation
  | garageOpen
  | bleConnected
  | antReady
  | antRun
  deriving DecidableEq, Repr

inductive Task where
  -- Every 5 s: ping the central station.
  | pingInterval
  -- Send `CSGarageOpen` until acknowledged, with retries.
  | garageOpenSend
  -- After 60 s: the BLE link has settled.
  | bleTimer
  -- After 10 s: start the ant.
  | antStartDelay
  -- Every 30 s: start the ant again.
  | antStartInterval
  -- Send `AntStop` until acknowledged, with retries.
  | antStopSend
  deriving DecidableEq, Repr

abbrev SpawnHandle := Nat

variable {crc : Checksum}

inductive Output (crc : Checksum) where
  | command (dest : Destination) (event : Event)
  | forward (msg : Message crc)

inductive Mail (crc : Checksum) where
  | upCommand (msg : Message crc)
  | downMessage (msg : Message crc)
  | eventWrap (event : Event)

structure StateMachine where
  state : State
  runningTask : Option SpawnHandle
  pendingEvt : Option Event
  deriving DecidableEq, Repr

def StateMachine.default : StateMachine where
  state := .flightIdle
  runningTask := none
  pendingEvt := none

/-- The actor's context.  `waiting` holds the commands whose replies it waits
for before it does anything else. -/
structure Context (crc : Checksum) where
  tasks : List (SpawnHandle × Task)
  nextHandle : SpawnHandle
  mailbox : List (Mail crc)
  waiting : List (Destination × Event)

namespace Context

def default : Context crc where
  tasks := []
  nextHandle := 0
  mailbox := []
  waiting := []

def start (ctx : Context crc) (task : Task) : SpawnHandle × Context crc :=
  (ctx.nextHandle,
    { ctx with
      tasks := ctx.tasks ++ [(ctx.nextHandle, task)]
      nextHandle := ctx.nextHandle + 1 })

def cancelFuture (ctx : Context crc) (handle : SpawnHandle) : Context crc :=
  { ctx with tasks := ctx.tasks.filter fun entry => entry.1 != handle }

/-- A task that does not repeat is over once its callback runs. -/
def finish (ctx : Context crc) (handle : SpawnHandle) : Context crc :=
  { ctx with tasks := ctx.tasks.filter fun entry => entry.1 != handle }

def wait (ctx : Context crc) (dest : Destination) (event : Event) : Context crc :=
  { ctx with waiting := ctx.waiting ++ [(dest, event)] }

def doSend (ctx : Context crc) (mail : Mail crc) : Context crc :=
  { ctx with mailbox := ctx.mailbox ++ [mail] }

end Context

namespace StateMachine

/-- What an arm of `step` leaves: `oldHandle` is the handle taken at the top
unless the arm has put it back. -/
structure Arm (crc : Checksum) where
  self : StateMachine
  ctx : Context crc
  oldHandle : Option SpawnHandle
  outputs : List (Output crc)

def arm (self : StateMachine) (oldHandle : Option SpawnHandle) (event : Event)
    (ctx : Context crc) : Option (Arm crc) :=
  let resetHandle (self : StateMachine) (ctx : Context crc) (outputs : List (Output crc)) :=
    some (Arm.mk { self with runningTask := oldHandle } ctx none outputs)
  let ignoreRepeat := resetHandle self ctx []
  match event with
  | .fePowerSupplied =>
      if self.state = .pingCentralStation then ignoreRepeat
      else
        let (handle, ctx) := ctx.start .pingInterval
        some ⟨{ self with runningTask := some handle, state := .pingCentralStation }, ctx,
          oldHandle, []⟩
  | .feGarageOpen =>
      if self.state = .garageOpen then ignoreRepeat
      else
        let (handle, ctx) := ctx.start .garageOpenSend
        some ⟨{ self with runningTask := some handle }, ctx, oldHandle,
          [.command .centralStation .csGarageOpen]⟩
  | .csBleDisconnect => some ⟨{ self with state := .garageOpen }, ctx, oldHandle, []⟩
  | .csBleConnect =>
      if self.state = .bleConnected then ignoreRepeat
      else
        let (handle, ctx) := ctx.start .bleTimer
        some ⟨{ self with state := .bleConnected, runningTask := some handle }, ctx, oldHandle, []⟩
  | .feRoverStop =>
      match self.state with
      | .antRun => ignoreRepeat
      | .antReady =>
          let (handle, ctx) := ctx.start .antStartDelay
          some ⟨{ self with runningTask := some handle, state := .antRun }, ctx, oldHandle, []⟩
      | _ => resetHandle { self with pendingEvt := some .feRoverStop } ctx []
  | .feRoverMove =>
      if self.state = .antRun then
        let (handle, ctx) := ctx.start .antStopSend
        some ⟨{ self with runningTask := some handle, state := .antReady }, ctx, oldHandle,
          [.command .ant .antStop]⟩
      else resetHandle { self with pendingEvt := none } ctx []
  | .feRestart => none
  | .debugCsPing =>
      resetHandle self (ctx.wait .centralStation .csPing) [.command .centralStation .csPing]
  | .antPing => resetHandle self (ctx.wait .ant .antPing) [.command .ant .antPing]
  | .fePing => resetHandle self ctx []
  | _ => resetHandle self ctx []

/-- Take the running task's handle, do the arm, cancel the task unless the arm
has put its handle back. -/
def step (self : StateMachine) (event : Event) (ctx : Context crc) :
    Option (StateMachine × Context crc × List (Output crc)) :=
  (arm { self with runningTask := none } self.runningTask event ctx).map fun done =>
    let ctx :=
      match done.oldHandle with
      | some handle => done.ctx.cancelFuture handle
      | none => done.ctx
    (done.self, ctx, done.outputs)

def handleUpCommand (self : StateMachine) (msg : Message crc) (ctx : Context crc) :
    Option (StateMachine × Context crc × List (Output crc)) :=
  let hdr := msg.val.header.header
  (step self hdr.ty.event ctx).map fun (self, ctx, outputs) =>
    if hdr.destination = .ant ∨ hdr.destination = .centralStation then
      (self, ctx, outputs ++ [.forward msg])
    else (self, ctx, outputs)

def handleDownMessage (self : StateMachine) (msg : Message crc) (ctx : Context crc) :
    Option (StateMachine × Context crc × List (Output crc)) :=
  let evt := msg.val.header.header.ty.event
  if evt = .csBleConnect ∨ evt = .csBleDisconnect then step self evt ctx
  else some (self, ctx, [])

def handle (self : StateMachine) (mail : Mail crc) (ctx : Context crc) :
    Option (StateMachine × Context crc × List (Output crc)) :=
  match mail with
  | .upCommand msg => handleUpCommand self msg ctx
  | .downMessage msg => handleDownMessage self msg ctx
  | .eventWrap event => step self event ctx

/-- The callback of a task; `succeeded` is how its send ended. -/
def callback (self : StateMachine) (handle : SpawnHandle) (task : Task) (succeeded : Bool)
    (ctx : Context crc) : StateMachine × Context crc × List (Output crc) :=
  match task with
  | .pingInterval => (self, ctx, [.command .centralStation .csPing])
  | .garageOpenSend =>
      let ctx := ctx.finish handle
      if succeeded then ({ self with runningTask := none, state := .garageOpen }, ctx, [])
      else (self, ctx, [])
  | .bleTimer =>
      let ctx := ctx.finish handle
      let evt := self.pendingEvt
      let self := { self with state := .antReady, pendingEvt := none }
      match evt with
      | none => (self, ctx, [])
      | some evt => (self, ctx.doSend (.eventWrap evt), [])
  | .antStartDelay =>
      let ctx := (ctx.finish handle).wait .ant .antStart
      let (handle, ctx) := ctx.start .antStartInterval
      ({ self with runningTask := some handle }, ctx, [.command .ant .antStart])
  | .antStartInterval => (self, ctx.wait .ant .antStart, [.command .ant .antStart])
  | .antStopSend => (self, ctx.finish handle, [])

end StateMachine

inductive Action (crc : Checksum) where
  | arriveUp (msg : Message crc)
  | arriveDown (msg : Message crc)
  | handle
  | fire (handle : SpawnHandle) (succeeded : Bool)
  | waitDone

structure System (crc : Checksum) where
  self : StateMachine
  ctx : Context crc

inductive Seen (crc : Checksum) where
  | handled (mail : Mail crc)
  | sent (output : Output crc)

namespace System

def next (s : System crc) : Action crc → Option (System crc × List (Seen crc))
  | .arriveUp msg => some (⟨s.self, s.ctx.doSend (.upCommand msg)⟩, [])
  | .arriveDown msg => some (⟨s.self, s.ctx.doSend (.downMessage msg)⟩, [])
  | .waitDone =>
      match s.ctx.waiting with
      | [] => none
      | _ :: waiting => some (⟨s.self, { s.ctx with waiting := waiting }⟩, [])
  | .handle =>
      match s.ctx.waiting, s.ctx.mailbox with
      | [], mail :: mailbox =>
          (s.self.handle mail { s.ctx with mailbox := mailbox }).map fun (self, ctx, outputs) =>
            (⟨self, ctx⟩, .handled mail :: outputs.map .sent)
      | _, _ => none
  | .fire handle succeeded =>
      match s.ctx.waiting, s.ctx.tasks.lookup handle with
      | [], some task =>
          let (self, ctx, outputs) := s.self.callback handle task succeeded s.ctx
          some (⟨self, ctx⟩, outputs.map .sent)
      | _, _ => none

def machine (crc : Checksum) : Machine (System crc) (Action crc) (Seen crc) where
  init := ⟨.default, .default⟩
  next := next

end System

/-- A packet of the rover: it carries neither a time nor a sequence number. -/
def roverPacket (event : Event) : Message (StandardCRC crc8Smbus) :=
  command _ ⟨⟨0⟩, 0⟩ .frontend event

def stationReport (event : Event) : Message (StandardCRC crc8Smbus) :=
  command _ ⟨⟨0⟩, 0⟩ .frontend event

end AntRelay.Runtime
