import Ros1Adapter.RobotControl

/-!
# Commands of the robot server

The command scheduler takes posted commands, queues them at their members,
passes one at a time to each native robot and runs the lifecycle barriers of
the registration thread. Registration publishes, removes and stops members;
the main thread moves the phase and ends the server; control calls release
native motion on their own threads. One step is one section under a mutex,
one native call or its return; the threads take steps in any order. Native
I/O may complete a command whenever it has one, cancelled or not, so requests
to cancel leave no trace here.
-/

namespace Ros1Adapter.RobotCommands

open RobotControl (Bytes MemberIdentity Operation NativeRobot ExecuteRequest memberSilence admission)

section Data

/-- Phase of an operation. -/
inductive OperationPhase where
  | succeeded
  | failed
  | rejected
  | cancelled
  | expired
  | uncertain
  deriving DecidableEq

/-- Class of an operation error. -/
inductive ErrorClass where
  | uncertain
  | rejected
  | cancelled
  | deadline
  | resourceExhausted
  | transient
  deriving DecidableEq

/-- Error of an operation. -/
structure OperationError where
  /-- Class. -/
  errorClass : ErrorClass
  /-- Code. -/
  code : String
  /-- Message. -/
  message : String
  deriving DecidableEq

/-- Final event of an operation; its identity, time and output play no part here. -/
structure OperationEvent where
  /-- Phase. -/
  phase : OperationPhase
  /-- Error. -/
  error : Option OperationError
  deriving DecidableEq

/-- An event with an error. -/
def commandError (errorClass : ErrorClass) (code message : String) : OperationEvent :=
  ⟨match errorClass with
    | .uncertain => .uncertain
    | .rejected => .rejected
    | .cancelled => .cancelled
    | .deadline => .expired
    | _ => .failed,some ⟨errorClass,code,message⟩⟩

/-- The server ended. -/
def serverStopped : OperationEvent := commandError .cancelled "server-stopped" "not executed: server shutdown"

/-- The scheduler ended before the command was admitted. -/
def schedulerExited : OperationEvent :=
  commandError .cancelled "server-stopped" "not executed: native scheduler exited"

/-- The server drains. -/
def enqueueDraining : OperationEvent := commandError .rejected "server-draining" "not executed: server is draining"

/-- The server drains while the command is queued. -/
def dispatchDraining : OperationEvent := commandError .cancelled "server-draining" "not executed: server is draining"

/-- The member is not registered. -/
def memberUnavailable : OperationEvent :=
  commandError .rejected "member-unavailable" "not executed: active member required"

/-- The queue of the member is full. -/
def robotQueueFull : OperationEvent :=
  commandError .resourceExhausted "robot-queue-full" "not executed: native command queue is full"

/-- An earlier result of the member is unknown. -/
def previousResultUnknown : OperationEvent :=
  commandError .rejected "previous-result-unknown" "not executed: previous native result is unknown"

/-- The caller cancelled. -/
def operationCancelled : OperationEvent := commandError .cancelled "operation-cancelled" "not executed: call cancelled"

/-- The deadline of the operation is over. -/
def deadlineExceeded : OperationEvent :=
  commandError .deadline "deadline-exceeded" "not executed: operation deadline elapsed"

/-- Motion without control. -/
def controlUnavailable : OperationEvent :=
  commandError .rejected "control-unavailable" "not executed: admitted member control is required"

/-- A release of motion during the release of its control. -/
def controlRetiring : OperationEvent :=
  commandError .rejected "control-retiring" "not executed: native control is retiring"

/-- The member was removed. -/
def memberRemoved : OperationEvent := commandError .cancelled "member-removed" "not executed: member removed"

/-- The admission of the command was interrupted. -/
def admissionInterrupted : OperationEvent :=
  commandError .uncertain "native-result-unknown" "command admission interrupted; reconcile outcome"

/-- The native I/O ended without a result. -/
def nativeOwnerExited : OperationEvent :=
  commandError .uncertain "native-result-unknown" "native owner exited without a result; reconcile outcome"

/-- The scheduler is gone and the command had no result. -/
def nativeSchedulerExited : OperationEvent :=
  commandError .uncertain "native-result-unknown" "native scheduler exited; reconcile outcome"

/-- Outcome of an admitted call, by who made it. -/
inductive Outcome where
  /-- The server made the event. -/
  | server (event : OperationEvent)
  /-- The native robot completed with the event. -/
  | native (event : OperationEvent)
  deriving DecidableEq

/-- Where an admitted call is; no part of the source reads it. -/
inductive Place where
  /-- Among the posted commands. -/
  | posted
  /-- In the queue of a member. -/
  | queued (member : ℕ)
  /-- With the scheduler on its way to the native robot. -/
  | dispatching
  /-- The native robot was called. -/
  | invoked
  /-- It left the server without the native robot. -/
  | dropped
  deriving DecidableEq

/-- An admitted call to execute an operation. -/
structure Call where
  /-- Request. -/
  request : ExecuteRequest := ⟨⟨"","","",0⟩,⟨"",0⟩,[],0⟩
  /-- The caller gave up. -/
  cancelled : Bool := false
  /-- Outcome. -/
  outcome : Option Outcome := none
  /-- Place of the call. -/
  place : Place := .dropped

/-- Owner of a native mutex. -/
inductive Thread where
  /-- Command scheduler. -/
  | scheduler
  /-- Registration thread. -/
  | registration
  /-- Thread of a control call. -/
  | rpc (call : ℕ)
  deriving DecidableEq

/-- The scheduler's side of one member object. -/
structure Slot where
  /-- Identity. -/
  identity : MemberIdentity := ⟨"","","",0⟩
  /-- Native robot. -/
  native : NativeRobot := ⟨fun _ => false,fun _ => false,fun _ => false,0⟩
  /-- The member is not in the table. -/
  closing : Bool := true
  /-- Queued commands. -/
  commands : List ℕ := []
  /-- A command is in flight. -/
  inFlight : Bool := false
  /-- A result is unknown. -/
  uncertain : Bool := false
  /-- Call in flight. -/
  activeCall : Option ℕ := none
  /-- The native robot has a command that it did not complete; it is no part of the source. -/
  outstanding : Bool := false
  /-- Owner of the native mutex. -/
  lock : Option Thread := none
  /-- The native robot was stopped. -/
  nativeStopped : Bool := false

/-- Phase of the server. -/
inductive Phase where
  | starting
  | ready
  | draining
  | drained
  | stopped
  deriving DecidableEq

/-- Where the command scheduler stands. A list of members is what is left of
its round, the flag says whether the periodic work is due in it. -/
inductive Loop where
  /-- Before a round. -/
  | head
  /-- With posted commands and a barrier to run. -/
  | jobs (left : List ℕ) (fence : Option (List ℕ))
  /-- With a command whose member was looked up. -/
  | lookup (call : ℕ) (found : Option ℕ) (left : List ℕ) (fence : Option (List ℕ))
  /-- In a barrier, with members left. -/
  | fence (left : List ℕ)
  /-- Before the look at the table. -/
  | refresh
  /-- In the round over the members. -/
  | serve (left : List ℕ) (due : Bool)
  /-- With a member that was not closing. -/
  | examined (member : ℕ) (left : List ℕ) (due : Bool)
  /-- With the native mutex, before the watchdog. -/
  | silence (member : ℕ) (left : List ℕ) (due : Bool)
  /-- In the watchdog of the native robot. -/
  | silent (member : ℕ) (left : List ℕ) (due : Bool)
  /-- With the native mutex, before the periodic work. -/
  | periodic (member : ℕ) (left : List ℕ) (due : Bool)
  /-- In the periodic work of the native robot. -/
  | inPeriodic (member : ℕ) (left : List ℕ) (due : Bool)
  /-- Before a command of the member. -/
  | ready (member : ℕ) (left : List ℕ) (due : Bool)
  /-- With the native mutex and a command, before the decision about control. -/
  | admission (member call : ℕ) (left : List ℕ) (due : Bool)
  /-- With an admitted command, before the native robot is called. -/
  | starting (member call : ℕ) (left : List ℕ) (due : Bool)
  /-- In the native robot. -/
  | executing (member : ℕ) (left : List ℕ) (due : Bool)
  /-- After the loop, with posted commands left. -/
  | failing (left : List ℕ)
  /-- Emptying the queues. -/
  | clearing (left all : List ℕ)
  /-- Before the native I/O is destroyed. -/
  | flushing (all : List ℕ)
  /-- Answering commands without a result. -/
  | settling (left : List ℕ)
  /-- The thread ended. -/
  | done

/-- Where the registration thread stands; the flag says that it closes all
members of a drain. -/
inductive Registrar where
  /-- Between jobs. -/
  | idle
  /-- With a robot to publish, after the look at the phase. -/
  | publishing (identity : MemberIdentity) (native : NativeRobot)
  /-- With removed members to fence. -/
  | fencing (members : List ℕ) (drain : Bool)
  /-- Before the barrier is posted. -/
  | posting (members : List ℕ) (drain : Bool)
  /-- Waiting for the barrier. -/
  | awaiting (members : List ℕ) (drain : Bool)
  /-- Waiting for commands in flight. -/
  | joining (members : List ℕ) (drain : Bool)
  /-- With members to stop. -/
  | stopping (left : List ℕ) (drain : Bool)
  /-- In the stop of a native robot. -/
  | inStop (member : ℕ) (left : List ℕ) (drain : Bool)
  /-- Before the control of a stopped member ends. -/
  | releasing (member : ℕ) (left : List ℕ) (drain : Bool)
  /-- The thread ended. -/
  | dead

/-- What happened so far; no part of the source reads it. -/
inductive Event where
  /-- A command was queued at a member. -/
  | admitted (member call : ℕ)
  /-- The native robot was called with a command, a safety operation or not. -/
  | executed (member call : ℕ) (safe : Bool)
  /-- The native robot completed a command. -/
  | completed (member call : ℕ) (event : OperationEvent)
  /-- The native robot was told of a silent owner. -/
  | coreSilent (member : ℕ)
  /-- The periodic work of the native robot was called. -/
  | periodic (member : ℕ)
  /-- The native robot was told to release motion. -/
  | retireControl (member : ℕ)
  /-- The native robot was told to stop. -/
  | stopCalled (member : ℕ)
  /-- The native robot stopped. -/
  | stopReturned (member : ℕ)
  deriving DecidableEq

/-- State of the server. -/
structure Server where
  /-- Control. -/
  control : RobotControl.State := {}
  /-- Phase. -/
  phase : Phase := .starting
  /-- No new commands. -/
  commandsClosed : Bool := false
  /-- The server ends. -/
  shutdown : Bool := false
  /-- The scheduler ends. -/
  stopping : Bool := false
  /-- The drain posted its cleanup. -/
  cleanup : Bool := false
  /-- Member objects. -/
  slots : ℕ → Slot := fun _ => {}
  /-- Number of member objects. -/
  memberCount : ℕ := 0
  /-- Registered members by robot. -/
  table : List (String × ℕ) := []
  /-- Revision of the table. -/
  membersRevision : ℕ := 0
  /-- Admitted calls. -/
  calls : ℕ → Call := fun _ => {}
  /-- Number of admitted calls. -/
  callCount : ℕ := 0
  /-- Posted commands. -/
  jobs : List ℕ := []
  /-- Posted barrier. -/
  fence : Option (List ℕ) := none
  /-- Result of the barrier. -/
  barrier : Option Bool := none
  /-- Command scheduler. -/
  loop : Loop := .head
  /-- Members of the scheduler. -/
  snapshot : List ℕ := []
  /-- Revision of the table that the scheduler has seen. -/
  seen : Option ℕ := none
  /-- Registration thread. -/
  registrar : Registrar := .idle
  /-- History. -/
  log : List Event := []

end Data

section Updates

/-- Change one member. -/
def Server.setSlot (s : Server) (m : ℕ) (change : Slot → Slot) : Server :=
  {s with slots := Function.update s.slots m (change (s.slots m))}

/-- Change one call. -/
def Server.setCall (s : Server) (c : ℕ) (change : Call → Call) : Server :=
  {s with calls := Function.update s.calls c (change (s.calls c))}

/-- Extend the history. -/
def Server.logged (s : Server) (event : Event) : Server := {s with log := s.log ++ [event]}

/-- Move the scheduler. -/
def Server.goto (s : Server) (loop : Loop) : Server := {s with loop := loop}

/-- Move the registration thread. -/
def Server.turn (s : Server) (registrar : Registrar) : Server := {s with registrar := registrar}

/-- Change the control. -/
def Server.setControl (s : Server) (change : RobotControl.State → RobotControl.State) : Server :=
  {s with control := change s.control}

/-- A call that has no outcome takes one. -/
def Call.finish (call : Call) (outcome : Outcome) : Call :=
  if call.outcome.isSome then call else {call with outcome := some outcome}

/-- Answer a call with an event of the server. -/
def finishExecute (c : ℕ) (event : OperationEvent) (s : Server) : Server :=
  s.setCall c (fun call => call.finish (.server event))

/-- Answer a call that leaves the server without the native robot. -/
def refuse (c : ℕ) (event : OperationEvent) (s : Server) : Server :=
  s.setCall c (fun call => {call.finish (.server event) with place := .dropped})

/-- Answer the queued commands of a member and empty its queue. -/
def clearCommands (m : ℕ) (event : OperationEvent) (s : Server) : Server :=
  ((s.slots m).commands.foldl (fun s c => refuse c event s) s).setSlot m (fun slot => {slot with commands := []})

/-- Refusing calls changes nothing but the calls. -/
theorem refuse_fold_frame (event : OperationEvent) (cs : List ℕ) (s : Server) :
    ∃ calls, cs.foldl (fun s c => refuse c event s) s={s with calls := calls} := by
  induction cs generalizing s with
  | nil => exact ⟨s.calls,rfl⟩
  | cons c rest ih =>
    obtain ⟨calls,same⟩ := ih (refuse c event s)
    exact ⟨calls,same⟩

/-- Clearing a queue changes nothing else but the calls. -/
theorem clearCommands_frame (m : ℕ) (event : OperationEvent) (s : Server) :
    ∃ calls, clearCommands m event s={s.setSlot m (fun slot => {slot with commands := []}) with calls := calls} := by
  obtain ⟨calls,same⟩ := refuse_fold_frame event (s.slots m).commands s
  unfold clearCommands
  rw [same]
  exact ⟨calls,rfl⟩

/-- Take the native mutex. -/
def Server.acquire (s : Server) (m : ℕ) (thread : Thread) : Server :=
  s.setSlot m (fun slot => {slot with lock := some thread})

/-- Leave the native mutex. -/
def Server.unlock (s : Server) (m : ℕ) : Server := s.setSlot m (fun slot => {slot with lock := none})

/-- The registered member with an identity. -/
def selectedMember (s : Server) (identity : MemberIdentity) : Option ℕ :=
  (s.table.lookup identity.robotId).filter (fun m => decide ((s.slots m).identity=identity))

/-- The scheduler thread has not ended. -/
def alive (s : Server) : Bool :=
  match s.loop with
  | .done => false
  | _ => true

end Updates

section Scheduler

/-- What the environment decides in one step of the scheduler. -/
structure Choice where
  /-- The step throws. -/
  throws : Bool := false
  /-- The native mutex looks busy. -/
  busy : Bool := false
  /-- The periodic work is due. -/
  due : Bool := false
  /-- The native robot released motion. -/
  released : Bool := false
  /-- Steady time in milliseconds. -/
  now : ℕ := 0
  /-- System time in nanoseconds. -/
  clock : Int := 0

/-- Most queued commands of a member. -/
def kMaximumCommandsPerRobot : ℕ := 32

/-- Most posted commands. -/
def kMaximumCommandJobs : ℕ := 32

/-- The loop ends; a barrier in hand fails with it. -/
def leaveLoop (left : List ℕ) (fence : Bool) (s : Server) : Server :=
  {(s.setControl RobotControl.schedulerThrow).goto (.failing left) with
    barrier := if fence then some false else s.barrier}

/-- Queue a command at its member or refuse it. -/
def enqueue (c : ℕ) (found : Option ℕ) (s : Server) : Server :=
  match found with
  | none => refuse c (if s.commandsClosed then enqueueDraining else memberUnavailable) s
  | some m =>
    if (s.slots m).closing || s.commandsClosed then
      refuse c (if s.commandsClosed then enqueueDraining else memberUnavailable) s
    else if kMaximumCommandsPerRobot ≤ (s.slots m).commands.length then refuse c robotQueueFull s
    else ((s.setSlot m (fun slot => {slot with commands := slot.commands ++ [c]})).setCall c
      (fun call => {call with place := .queued m})).logged (.admitted m c)

/-- Members of the next round: the registered ones and removed ones with a command in flight. -/
def refreshed (s : Server) : List ℕ :=
  if s.seen=some s.membersRevision then s.snapshot
  else s.table.map Prod.snd ++
    s.snapshot.filter (fun m => (s.slots m).closing && (s.slots m).inFlight && !decide (m∈s.table.map Prod.snd))

/-- Look at the table and begin the round over the members. -/
def refresh (due : Bool) (s : Server) : Server :=
  let members := (refreshed s).filter (fun m => !((s.slots m).closing && !(s.slots m).inFlight))
  ({s with snapshot := members, seen := some s.membersRevision}).goto (.serve members due)

/-- Why a popped command is not passed on before the decision about control. -/
def popRefusal (slot : Slot) (call : Call) (closed : Bool) (clock : Int) : Option OperationEvent :=
  if closed then some dispatchDraining
  else if slot.uncertain && !slot.native.isSafetyOperation call.request.operation then some previousResultUnknown
  else if call.cancelled then some operationCancelled
  else if call.request.operation.deadline ≤ clock then some deadlineExceeded
  else none

/-- First part of the dispatch of a member's next command. -/
def pop (m c : ℕ) (rest left : List ℕ) (due : Bool) (clock : Int) (s : Server) : Server :=
  let popped := s.setSlot m (fun slot => {slot with commands := rest})
  match popRefusal (s.slots m) (s.calls c) s.commandsClosed clock with
  | some event => (refuse c event popped).goto (.serve left due)
  | none => ((popped.setCall c (fun call => {call with place := .dispatching})).acquire m .scheduler).goto
      (.admission m c left due)

/-- A native question throws about a popped command, which is lost. -/
def lose (c : ℕ) (s : Server) : Server := leaveLoop [] false (s.setCall c (fun call => {call with place := .dropped}))

/-- Take the next command of a member, if there is one to take. -/
def takeCommand (m : ℕ) (left : List ℕ) (due : Bool) (choice : Choice) (s : Server) : Server :=
  let slot := s.slots m
  if s.shutdown || slot.inFlight || slot.lock.isSome || choice.busy then s.goto (.serve left due)
  else match slot.commands with
    | [] => s.goto (.serve left due)
    | c::rest =>
      if choice.throws then lose c (s.setSlot m (fun slot => {slot with commands := rest}))
      else pop m c rest left due choice.clock s

/-- Second part of the dispatch: the decision about control. -/
def decideControl (m c : ℕ) (left : List ℕ) (due : Bool) (choice : Choice) (s : Server) : Server :=
  let request := (s.calls c).request
  let now := choice.now
  if choice.throws then lose c (s.unlock m)
  else match admission s.control.controller (s.control.members m) request now with
  | .unavailable => ((refuse c controlUnavailable s).unlock m).goto (.serve left due)
  | .retiring => ((refuse c controlRetiring s).unlock m).goto (.serve left due)
  | .admitted _ => ((s.setControl (RobotControl.dispatch m request now)).setSlot m
      (fun slot => {slot with inFlight := true, activeCall := some c})).goto (.starting m c left due)

/-- The native robot is called with a command. -/
def callNative (m c : ℕ) (left : List ℕ) (due : Bool) (s : Server) : Server :=
  ((((s.setControl (RobotControl.execute m)).setSlot m (fun slot => {slot with outstanding := true})).setCall c
    (fun call => {call with place := .invoked})).logged
      (.executed m c ((s.slots m).native.isSafetyOperation (s.calls c).request.operation))).goto (.executing m left due)

/-- Answer the active call of a member without a result. -/
def settle (m : ℕ) (event : OperationEvent) (s : Server) : Server :=
  let answered := match (s.slots m).activeCall with
    | some c => finishExecute c event s
    | none => s
  answered.setSlot m (fun slot => {slot with activeCall := none, inFlight := false})

/-- Settling a member changes nothing else but the calls. -/
theorem settle_frame (m : ℕ) (event : OperationEvent) (s : Server) : ∃ calls, settle m event s=
    {s.setSlot m (fun slot => {slot with activeCall := none, inFlight := false}) with calls := calls} := by
  unfold settle
  simp only []
  split
  · exact ⟨_,rfl⟩
  · exact ⟨s.calls,rfl⟩

/-- One step of the command scheduler. -/
def schedule (choice : Choice) (s : Server) : Server :=
  match s.loop with
  | .head =>
    if s.stopping then leaveLoop [] false s
    else ({s with jobs := [], fence := none}).goto (.jobs s.jobs s.fence)
  | .jobs (c::left) fence =>
    if s.shutdown then (refuse c serverStopped s).goto (.jobs left fence)
    else s.goto (.lookup c (selectedMember s (s.calls c).request.identity) left fence)
  | .jobs [] (some members) => s.goto (.fence members)
  | .jobs [] none => s.goto .refresh
  | .lookup c found left fence =>
    if choice.throws then leaveLoop left fence.isSome (refuse c admissionInterrupted s)
    else (enqueue c found s).goto (.jobs left fence)
  | .fence (m::left) =>
    if choice.throws then leaveLoop [] true s else (clearCommands m memberRemoved s).goto (.fence left)
  | .fence [] => if choice.throws then leaveLoop [] true s else ({s with barrier := some true}).goto .refresh
  | .refresh => refresh choice.due s
  | .serve (m::left) due =>
    if choice.throws then leaveLoop [] false s
    else if (s.slots m).closing then s.goto (.serve left due) else s.goto (.examined m left due)
  | .serve [] _ => if choice.throws then leaveLoop [] false s else s.goto .head
  | .examined m left due =>
    if due && !s.shutdown && (s.slots m).lock.isNone && !choice.busy && !(s.slots m).closing then
      (s.acquire m .scheduler).goto (.silence m left due)
    else s.goto (.ready m left due)
  | .silence m left due =>
    if choice.throws then leaveLoop [] false (s.unlock m)
    else if memberSilence s.control.controller (s.control.members m) choice.now=0 then s.goto (.periodic m left due)
    else ((s.setControl (RobotControl.watch m choice.now)).logged (.coreSilent m)).goto (.silent m left due)
  | .silent m left due =>
    if choice.throws then leaveLoop [] false (s.unlock m)
    else (s.setControl (RobotControl.coreSilent choice.released)).goto (.periodic m left due)
  | .periodic m left due => (s.logged (.periodic m)).goto (.inPeriodic m left due)
  | .inPeriodic m left due =>
    if choice.throws then leaveLoop [] false (s.unlock m) else (s.unlock m).goto (.ready m left due)
  | .ready m left due => takeCommand m left due choice s
  | .admission m c left due => decideControl m c left due choice s
  | .starting m c left due => callNative m c left due s
  | .executing m left due =>
    if choice.throws then leaveLoop [] false (s.unlock m) else (s.unlock m).goto (.serve left due)
  | .failing (c::left) => (refuse c serverStopped s).goto (.failing left)
  | .failing [] =>
    let members := s.snapshot ++ (s.table.map Prod.snd).filter (fun m => !decide (m∈s.snapshot))
    s.goto (.clearing members members)
  | .clearing (m::left) all =>
    if choice.throws then (s.setControl RobotControl.schedulerExit).goto .done
    else (clearCommands m serverStopped s).goto (.clearing left all)
  | .clearing [] all => s.goto (.flushing all)
  | .flushing all => (s.setControl RobotControl.schedulerExit).goto (.settling all)
  | .settling (m::left) => (settle m nativeOwnerExited s).goto (.settling left)
  | .settling [] => s.goto .done
  | .done => s

/-- The native I/O of the scheduler exists. -/
def nativeIo (s : Server) : Bool :=
  match s.loop with
  | .settling _ => false
  | .done => false
  | _ => true

/-- A native command completes: the call is answered and the control work ends. -/
def completeNative (m : ℕ) (event : OperationEvent) (s : Server) : Server :=
  match (s.slots m).activeCall with
  | some c =>
    if !nativeIo s || !(s.slots m).outstanding then s
    else (((s.setControl (RobotControl.complete m (decide (event.phase=.succeeded) && event.error.isNone))).setSlot m
      (fun slot => {slot with
        activeCall := none, outstanding := false,
        uncertain := slot.uncertain || decide (event.phase=.uncertain)})).setCall c
          (fun call => call.finish (.native event))).logged (.completed m c event)
  | none => s

/-- The completion of a native command ends. -/
def land (m : ℕ) (s : Server) : Server :=
  if (s.slots m).outstanding || (s.slots m).activeCall.isSome then s
  else s.setSlot m (fun slot => {slot with inFlight := false})

end Scheduler

section Registration

/-- Begin to publish a robot: it is new and the server looks ready. -/
def applyMember (identity : MemberIdentity) (native : NativeRobot) (s : Server) : Server :=
  match s.registrar with
  | .idle =>
    if s.stopping || decide (s.phase≠.ready) || (s.table.lookup identity.robotId).isSome then s
    else s.turn (.publishing identity native)
  | _ => s

/-- Publish a robot. -/
def publish (identity : MemberIdentity) (native : NativeRobot) (s : Server) : Server :=
  ({s.setControl (RobotControl.register identity native) with
    slots := Function.update s.slots s.memberCount {identity := identity, native := native, closing := false},
    memberCount := s.memberCount+1, table := (identity.robotId,s.memberCount)::s.table,
    membersRevision := s.membersRevision+1}).turn .idle

/-- Take a member out of the table. -/
def takeOut (s : Server) (m : ℕ) : Server :=
  {(s.setControl (RobotControl.remove m)).setSlot m (fun slot => {slot with closing := true}) with
    table := s.table.filter (fun entry => entry.2≠m), membersRevision := s.membersRevision+1}

/-- Remove a registered member. -/
def removeMember (m : ℕ) (s : Server) : Server :=
  match s.registrar with
  | .idle =>
    if s.stopping || !decide (m∈s.table.map Prod.snd) then s else (takeOut s m).turn (.fencing [m] false)
  | _ => s

/-- Remove all members of a draining server. -/
def closeAllMembers (s : Server) : Server :=
  match s.registrar with
  | .idle =>
    if s.stopping || !s.cleanup then s
    else ({(s.table.map Prod.snd).foldl takeOut s with cleanup := false}).turn (.fencing (s.table.map Prod.snd) true)
  | _ => s

/-- A barrier fails: a removal ends the thread, a drain stops the members all the same. -/
def fenceFailed (members : List ℕ) (drain : Bool) (s : Server) : Server :=
  if drain then s.turn (.stopping members true) else s.turn .dead

/-- Answer what the members of a gone scheduler still hold. -/
def settleDead (s : Server) (m : ℕ) : Server := clearCommands m schedulerExited (settle m nativeSchedulerExited s)

/-- One step of the registration thread. -/
def register (throws : Bool) (s : Server) : Server :=
  match s.registrar with
  | .idle => s
  | .publishing identity native => publish identity native s
  | .fencing [] drain => s.turn (.stopping [] drain)
  | .fencing members drain =>
    if alive s then s.turn (.posting members drain)
    else (members.foldl settleDead s).turn (.stopping members drain)
  | .posting members drain =>
    if alive s && s.fence.isNone then
      ({s with fence := some members, barrier := none}).turn (.awaiting members drain)
    else fenceFailed members drain s
  | .awaiting members drain =>
    match s.barrier with
    | some true => s.turn (.joining members drain)
    | some false => fenceFailed members drain s
    | none => if alive s then s else ({s with fence := none}).turn (.fencing members drain)
  | .joining members drain =>
    if !alive s || members.all (fun m => !(s.slots m).inFlight) then s.turn (.stopping members drain) else s
  | .stopping [] _ => s.turn .idle
  | .stopping (m::left) drain =>
    if (s.slots m).lock.isSome then s
    else if (s.slots m).nativeStopped then s.turn (.releasing m left drain)
    else ((s.acquire m .registration).logged (.stopCalled m)).turn (.inStop m left drain)
  | .inStop m left drain =>
    if throws then (s.unlock m).turn (if drain then .stopping left true else .dead)
    else (((s.setSlot m (fun slot => {slot with nativeStopped := true})).unlock m).logged (.stopReturned m)).turn
      (.releasing m left drain)
  | .releasing m left drain => (s.setControl (RobotControl.stopMember m)).turn (.stopping left drain)
  | .dead => s

end Registration

section Machine

/-- The member whose native robot a control call releases. -/
def nativeRelease (s : Server) (r : ℕ) : Option ℕ :=
  match s.control.rpcs r with
  | .releaseNative _ m true => some m
  | .retireNative _ m _ _ => some m
  | _ => none

/-- A control call takes the native mutex and calls the native robot, unless it was stopped. -/
def retireCall (r : ℕ) (s : Server) : Server :=
  match nativeRelease s r with
  | none => s
  | some m =>
    if (s.slots m).lock.isSome then s
    else if (s.slots m).nativeStopped then s.setControl (RobotControl.returned r true)
    else (s.acquire m (.rpc r)).logged (.retireControl m)

/-- The native robot answers a control call, or throws. -/
def retireReturn (r : ℕ) (success : Bool) (s : Server) : Server :=
  match nativeRelease s r with
  | none => s
  | some m =>
    if (s.slots m).lock=some (.rpc r) then (s.setControl (RobotControl.returned r success)).unlock m else s

/-- Control steps that no other thread of the server takes part in. -/
def controlOnly (s : Server) : RobotControl.Step → Bool
  | .install _ _ => true
  | .accept _ _ _ => true
  | .ready _ => true
  | .done _ => true
  | .ended _ => true
  | .down => true
  | .retireStatus _ => true
  | .acquire _ _ => true
  | .renew _ _ _ => true
  | .release _ => true
  | .retire _ _ => true
  | .proceed _ _ _ => true
  | .returned r _ => (nativeRelease s r).isNone
  | .timeout _ => true
  | _ => false

/-- Post a command of a call that found the server ready. -/
def postCommand (request : ExecuteRequest) (s : Server) : Server :=
  if decide (s.phase=.starting) || s.stopping || s.shutdown || decide (kMaximumCommandJobs ≤ s.jobs.length) then s
  else {s with
    calls := Function.update s.calls s.callCount {request := request, place := .posted},
    callCount := s.callCount+1, jobs := s.jobs ++ [s.callCount]}

/-- What the main thread does. -/
inductive Lifecycle where
  /-- The server becomes ready. -/
  | ready
  /-- The drain begins. -/
  | drain
  /-- No new commands. -/
  | close
  /-- The cleanup of the drain is posted. -/
  | cleanup
  /-- The drain ends. -/
  | drained (success : Bool)
  /-- The server ends. -/
  | shutdown
  /-- The phase of a server that ends. -/
  | finish
  /-- The scheduler is told to end, after the registration thread has. -/
  | stop

/-- One step of the main thread. -/
def lifecycle (site : Lifecycle) (s : Server) : Server :=
  match site with
  | .ready => if s.phase=.starting then {s with phase := .ready} else s
  | .drain => if s.phase=.ready then {s with phase := .draining} else s
  | .close => if s.phase=.draining then {s with commandsClosed := true} else s
  | .cleanup => if s.phase=.draining ∧ s.commandsClosed=true then {s with cleanup := true} else s
  | .drained success => if s.phase=.draining then {s with phase := if success then .drained else .stopped} else s
  | .shutdown => {s with shutdown := true}
  | .finish => if s.shutdown then {s with phase := if s.phase=.drained then .drained else .stopped} else s
  | .stop =>
    if !s.shutdown || !(decide (s.phase=.drained) || decide (s.phase=.stopped)) then s
    else match s.registrar with
      | .idle => {s with stopping := true}
      | .dead => {s with stopping := true}
      | _ => s

/-- One step of the server. -/
inductive Action where
  /-- A call to execute an operation posts its command. -/
  | post (request : ExecuteRequest)
  /-- A caller gives up. -/
  | cancel (call : ℕ)
  /-- A step of control. -/
  | control (step : RobotControl.Step)
  /-- A control call enters the native robot. -/
  | retireCall (rpc : ℕ)
  /-- A control call leaves the native robot. -/
  | retireReturn (rpc : ℕ) (success : Bool)
  /-- The main thread. -/
  | lifecycle (site : Lifecycle)
  /-- The command scheduler. -/
  | schedule (choice : Choice)
  /-- A native command completes. -/
  | complete (member : ℕ) (event : OperationEvent)
  /-- The completion of a native command ends. -/
  | land (member : ℕ)
  /-- A robot is applied. -/
  | apply (identity : MemberIdentity) (native : NativeRobot)
  /-- A member is removed. -/
  | remove (member : ℕ)
  /-- All members are closed. -/
  | closeAll
  /-- The registration thread. -/
  | register (throws : Bool)

/-- State after one step. -/
def step (site : RobotControl.Site) (s : Server) : Action → Server
  | .post request => postCommand request s
  | .cancel c => s.setCall c (fun call => {call with cancelled := true})
  | .control input => if controlOnly s input then s.setControl (fun control => RobotControl.step site control input) else s
  | .retireCall r => retireCall r s
  | .retireReturn r success => retireReturn r success s
  | .lifecycle site => lifecycle site s
  | .schedule choice => schedule choice s
  | .complete m event => completeNative m event s
  | .land m => land m s
  | .apply identity native => applyMember identity native s
  | .remove m => removeMember m s
  | .closeAll => closeAllMembers s
  | .register throws => register throws s

end Machine

end Ros1Adapter.RobotCommands
