import Mathlib.Data.List.Basic
import Mathlib.Logic.Function.Basic
import Ros1Adapter.ActionRules

/-!
# Control of the robot server

Motion commands need a controller, its required status stream and control of
the member. Controllers, status owners and member control are guarded by one
mutex; commands are admitted by the scheduler and complete on it, releases
and retirements wait for them on their own threads and drop the mutex around
the native release. One step is one section under a mutex, one native call or
one decision of a native robot; every thread may take the next step.
-/

namespace Ros1Adapter.RobotControl

section Data

/-- Byte strings of credentials and identities. -/
abbrev Bytes := List UInt8

/-- Identity of a registered robot. -/
structure MemberIdentity where
  /-- Target. -/
  targetId : String
  /-- Run. -/
  runId : String
  /-- Robot. -/
  robotId : String
  /-- Connection epoch. -/
  connectionEpoch : ℕ
  deriving DecidableEq

/-- Characters of reference identifiers. -/
def identifierCharacter (c : Char) : Bool :=
  ('a' ≤ c && c ≤ 'z') || ('A' ≤ c && c ≤ 'Z') || ('0' ≤ c && c ≤ '9') || c == '.' || c == '_' || c == ':' || c == '-'

/-- Letters and digits. -/
def alphanumeric (c : Char) : Bool :=
  ('a' ≤ c && c ≤ 'z') || ('A' ≤ c && c ≤ 'Z') || ('0' ≤ c && c ≤ '9')

/-- 1 to 128 identifier characters. -/
def validReferenceId (value : String) : Bool :=
  value≠"" && decide (value.length ≤ 128) && value.toList.all identifierCharacter

/-- Up to 128 identifier characters without colons, the first one a letter or a digit. -/
def validRobotIdentity (value : String) : Bool :=
  match value.toList with
  | [] => false
  | first::rest => alphanumeric first && decide (rest.length ≤ 127) &&
    rest.all (fun c => alphanumeric c || c == '_' || c == '.' || c == '-')

/-- Whether an identity is complete. -/
def validIdentity (id : MemberIdentity) : Bool :=
  validRobotIdentity id.robotId && validReferenceId id.targetId && validReferenceId id.runId &&
    decide (id.connectionEpoch≠0)

/-- A robot operation; its input payload plays no part here. -/
structure Operation where
  /-- Endpoint of the operation. -/
  endpointId : String
  /-- Deadline in Unix nanoseconds. -/
  deadline : Int
  deriving DecidableEq

/-- What a native robot says about operations. -/
structure NativeRobot where
  /-- The operation starts continuous motion. -/
  requiresControl : Operation → Bool
  /-- The operation releases motion. -/
  isControlRelease : Operation → Bool
  /-- The operation makes the robot safer. -/
  isSafetyOperation : Operation → Bool
  /-- Silence of the owner in milliseconds before the robot is stopped, zero for none. -/
  controlSilenceLimit : ℕ

/-- A request to execute an operation. -/
structure ExecuteRequest where
  /-- Member. -/
  identity : MemberIdentity
  /-- Operation. -/
  operation : Operation
  /-- Grant of the controller. -/
  controllerGrant : Bytes
  /-- Generation of the control. -/
  controlGeneration : ℕ
  deriving DecidableEq

/-- A command between its admission and its completion. -/
structure Flight where
  /-- Request. -/
  request : ExecuteRequest
  /-- It starts motion. -/
  motion : Bool
  /-- It releases motion. -/
  release : Bool
  /-- It counts as control work. -/
  controlWork : Bool
  /-- The native robot was called. -/
  started : Bool
  /-- Controller generation at the admission; it is no part of the source. -/
  controller : ℕ
  deriving DecidableEq

/-- Control of one member object. -/
structure Member where
  /-- Identity. -/
  identity : MemberIdentity := ⟨"","","",0⟩
  /-- Native robot. -/
  native : NativeRobot := ⟨fun _ => false,fun _ => false,fun _ => false,0⟩
  /-- The member is not in the table. -/
  closing : Bool := true
  /-- Controller generation that owns the control. -/
  controlOwner : ℕ := 0
  /-- Generation of the control. -/
  controlGeneration : ℕ := 0
  /-- Last retired generation. -/
  retiredControlGeneration : ℕ := 0
  /-- Control commands between admission and completion. -/
  controlWork : ℕ := 0
  /-- The control is held. -/
  controlHeld : Bool := false
  /-- The control is being released. -/
  controlRetiring : Bool := false
  /-- A native release is under way. -/
  controlFinishing : Bool := false
  /-- A release waits for commands. -/
  controlReleaseWaiting : Bool := false
  /-- The robot may be moving. -/
  potentialMotion : Bool := false
  /-- Time since which the owner is silent. -/
  silentSince : ℕ := 0
  /-- Last heartbeat of the owner. -/
  controlHeartbeat : ℕ := 0
  /-- The native robot was stopped. -/
  nativeStopped : Bool := false
  /-- Command in flight. -/
  flight : Option Flight := none

/-- Owner of a status stream. -/
structure StatusOwner where
  /-- Grant of the controller. -/
  controllerGrant : Bytes
  /-- Generation. -/
  generation : ℕ
  /-- Identity of the open. -/
  openId : Bytes
  /-- Generation of the predecessor. -/
  predecessorGeneration : ℕ
  /-- Open of the predecessor. -/
  predecessorOpenId : Bytes
  deriving DecidableEq

/-- One owned status slot. -/
structure OwnedStatusSlot where
  /-- Stream in the slot. -/
  active : Option ℕ := none
  /-- Generation of the stream. -/
  generation : ℕ := 0
  /-- Last retired or fenced generation. -/
  retiredGeneration : ℕ := 0
  /-- Open of the stream. -/
  openId : Bytes := []
  /-- Last retired or fenced open. -/
  retiredOpenId : Bytes := []
  /-- The stream is being retired. -/
  retiring : Bool := false
  /-- The stream is ready. -/
  ready : Bool := false
  deriving DecidableEq

/-- Identity of a controller. -/
structure ControllerBinding where
  /-- Server instance. -/
  providerInstanceId : String
  /-- Agent of a remote controller. -/
  agentId : String
  /-- Epoch of the agent. -/
  agentEpochId : String
  /-- Core. -/
  coreId : String
  /-- Boot of the core. -/
  coreBootId : String
  deriving DecidableEq

/-- What happened in one slot under the current controller. -/
inductive SlotEvent where
  /-- A stream was admitted. -/
  | admitted (owner : StatusOwner)
  /-- A stream ended. -/
  | ended (generation : ℕ) (openId : Bytes)
  /-- An open that was not admitted was fenced. -/
  | fenced (generation : ℕ) (openId : Bytes)
  /-- A retirement was answered as joined. -/
  | joined (generation : ℕ) (openId : Bytes)
  deriving DecidableEq

/-- The controller of the server, its streams and slots. -/
structure Controller where
  /-- Generation, zero without a controller. -/
  generation : ℕ := 0
  /-- Last retired generation. -/
  retiredGeneration : ℕ := 0
  /-- Open of the controller. -/
  openId : Bytes := []
  /-- Open of the last retired controller. -/
  retiredOpenId : Bytes := []
  /-- Grant. -/
  grant : Bytes := []
  /-- Binding. -/
  binding : ControllerBinding := ⟨"","","","",""⟩
  /-- The controller is being retired. -/
  retiring : Bool := false
  /-- The retirement releases the members. -/
  finishing : Bool := false
  /-- Admitted control commands and waiting releases. -/
  work : ℕ := 0
  /-- Members whose control is held. -/
  members : List ℕ := []
  /-- Time of the last renewal, zero for none. -/
  lastRenewal : ℕ := 0
  /-- Owned streams, each with whether it is the required one. -/
  calls : List (ℕ × Bool) := []
  /-- Slot of the optional stream. -/
  optional : OwnedStatusSlot := {}
  /-- Slot of the required stream. -/
  control : OwnedStatusSlot := {}
  /-- History of the optional slot under this controller; it is no part of the source. -/
  optionalLog : List SlotEvent := []
  /-- History of the required slot under this controller; it is no part of the source. -/
  controlLog : List SlotEvent := []

/-- Identity of the server and the secret of its process owner. -/
structure Site where
  /-- Secret of the process owner. -/
  processOwner : Bytes
  /-- Target. -/
  targetId : String
  /-- Instance. -/
  instanceId : String

/-- Class of an error status. -/
inductive StatusCode where
  | invalidArgument
  | permissionDenied
  | failedPrecondition
  | resourceExhausted
  | deadlineExceeded
  | cancelled
  | unknown
  deriving DecidableEq

/-- Answer of a control call. -/
inductive Reply where
  /-- An error status. -/
  | error (code : StatusCode) (message : String)
  /-- Success. -/
  | ok
  deriving DecidableEq

end Data

section Slots

/-- The slot of a kind of stream. -/
def Controller.slot (c : Controller) (control : Bool) : OwnedStatusSlot :=
  if control then c.control else c.optional

/-- Replace the slot of a kind of stream. -/
def Controller.setSlot (c : Controller) (control : Bool) (slot : OwnedStatusSlot) : Controller :=
  if control then {c with control := slot} else {c with optional := slot}

/-- History of a slot. -/
def Controller.slotLog (c : Controller) (control : Bool) : List SlotEvent :=
  if control then c.controlLog else c.optionalLog

/-- Extend the history of a slot. -/
def Controller.record (c : Controller) (control : Bool) (event : SlotEvent) : Controller :=
  if control then {c with controlLog := c.controlLog ++ [event]}
  else {c with optionalLog := c.optionalLog ++ [event]}

/-- The grant of the installed controller. -/
def controllerCredential (c : Controller) (grant : Bytes) : Bool :=
  decide (c.generation≠0) && decide (grant.length=32) && decide (grant=c.grant)

/-- The grant of an installed controller that is not being retired. -/
def controllerGrant (c : Controller) (grant : Bytes) : Bool :=
  !c.retiring && controllerCredential c grant

/-- Whether a status owner is well formed. -/
def validStatusOwner (owner : StatusOwner) : Bool :=
  decide (owner.controllerGrant.length=32) && decide (owner.generation≠0) && decide (owner.openId.length=16) &&
    ((decide (owner.predecessorGeneration=0) && decide (owner.predecessorOpenId=[])) ||
      (decide (owner.predecessorGeneration≠0) && decide (owner.predecessorOpenId.length=16)))

/-- Whether the predecessor of an owner is the last one of a slot. -/
def matchesPredecessor (owner : StatusOwner) (slot : OwnedStatusSlot) : Bool :=
  decide (owner.predecessorGeneration=slot.retiredGeneration) &&
    decide (owner.predecessorOpenId=slot.retiredOpenId)

/-- The required stream is down. -/
def markControlDown (c : Controller) : Controller := {c with control := {c.control with ready := false}}

/-- Slot of an admitted stream. -/
def occupied (slot : OwnedStatusSlot) (stream : ℕ) (owner : StatusOwner) : OwnedStatusSlot :=
  {slot with
    active := some stream, generation := owner.generation, openId := owner.openId,
    retiring := false, ready := false}

/-- Admission of an owned stream. -/
def admitOwnedStatus (stream : ℕ) (control : Bool) (owner : StatusOwner) (c : Controller) : Reply × Controller :=
  if !validStatusOwner owner then (.error .invalidArgument "invalid status owner",c)
  else if !controllerGrant c owner.controllerGrant then
    (.error .permissionDenied "controller grant is unavailable",c)
  else if (c.slot control).active.isSome then
    (.error .failedPrecondition "prior status owner is not joined",c)
  else if !matchesPredecessor owner (c.slot control) ||
      decide (owner.generation ≤ (c.slot control).retiredGeneration) then
    (.error .failedPrecondition "status predecessor is retired or mismatched",c)
  else
    let admitted := c.setSlot control (occupied (c.slot control) stream owner)
    (.ok,({admitted with calls := (stream,control)::admitted.calls}).record control (.admitted owner))

/-- Slot after its stream ended. -/
def vacated (slot : OwnedStatusSlot) : OwnedStatusSlot :=
  {slot with
    retiredGeneration := slot.generation, retiredOpenId := slot.openId, openId := [],
    active := none, generation := 0, retiring := false, ready := false}

/-- Leave the slot of a stream that ended, if it is still there. -/
def leaveSlot (stream : ℕ) (control : Bool) (c : Controller) : Controller :=
  if (c.slot control).active=some stream then
    (c.setSlot control (vacated (c.slot control))).record control
      (.ended (c.slot control).generation (c.slot control).openId)
  else c

/-- End of an owned stream. -/
def releaseStatus (stream : ℕ) (c : Controller) : Controller :=
  match c.calls.lookup stream with
  | none => c
  | some control =>
    let left := leaveSlot stream control c
    {left with calls := left.calls.filter (fun other => other.1≠stream)}

/-- An owned stream becomes ready, unless it is retired. -/
def readyStatus (stream : ℕ) (c : Controller) : Controller :=
  match c.calls.lookup stream with
  | none => c
  | some control =>
    if (c.slot control).active≠some stream || (c.slot control).retiring || c.retiring then c
    else c.setSlot control {c.slot control with ready := true}

/-- The transport reports the end of a stream; the required one is down then. -/
def doneStatus (stream : ℕ) (c : Controller) : Controller :=
  if c.calls.lookup stream=some true ∧ c.control.active=some stream then markControlDown c else c

/-- A stream with an owner arrives; it is a new one. -/
def acceptStatus (stream : ℕ) (control : Bool) (owner : StatusOwner) (c : Controller) : Controller :=
  if (c.calls.lookup stream).isSome then c else (admitOwnedStatus stream control owner c).2

/-- A request to retire a status owner. -/
structure RetireStatusRequest where
  /-- Owner. -/
  owner : StatusOwner
  /-- The required stream is meant. -/
  control : Bool

/-- Whether a slot holds exactly an owner. -/
def holdsOwner (slot : OwnedStatusSlot) (owner : StatusOwner) : Bool :=
  slot.active.isSome && decide (slot.generation=owner.generation) && decide (slot.openId=owner.openId)

/-- Answer of a retirement: joined when the owner is the last retired one. -/
def retireStatusAnswer (request : RetireStatusRequest) (c : Controller) : Reply × Controller :=
  let slot := c.slot request.control
  if slot.retiredGeneration≠request.owner.generation ∨ slot.retiredOpenId≠request.owner.openId then
    (.error .failedPrecondition "status owner does not match",c)
  else (.ok,c.record request.control (.joined request.owner.generation request.owner.openId))

/-- First section of a retirement: nothing while it has to wait for the stream. -/
def retireStatus (request : RetireStatusRequest) (c : Controller) : Option Reply × Controller :=
  let owner := request.owner
  let slot := c.slot request.control
  if !validStatusOwner owner then (some (.error .invalidArgument "invalid status retirement"),c)
  else if !controllerGrant c owner.controllerGrant then
    (some (.error .permissionDenied "controller grant is unavailable"),c)
  else if holdsOwner slot owner && matchesPredecessor owner slot then
    (none,c.setSlot request.control {slot with retiring := true, ready := false})
  else if slot.active.isNone && decide (slot.retiredGeneration<owner.generation) && matchesPredecessor owner slot then
    let fenced := c.setSlot request.control
      {slot with retiredGeneration := owner.generation, retiredOpenId := owner.openId}
    let answer := retireStatusAnswer request (fenced.record request.control (.fenced owner.generation owner.openId))
    (some answer.1,answer.2)
  else
    let answer := retireStatusAnswer request c
    (some answer.1,answer.2)

/-- A waiting retirement goes on when its owner left the slot. -/
def retireStatusWakes (request : RetireStatusRequest) (c : Controller) : Bool :=
  let slot := c.slot request.control
  slot.active.isNone || decide (slot.generation≠request.owner.generation) ||
    decide (slot.openId≠request.owner.openId)

end Slots

section Controllers

/-- A request to install a controller. -/
structure InstallControllerRequest where
  /-- Secret of the process owner. -/
  processOwner : Bytes
  /-- Binding. -/
  binding : ControllerBinding
  /-- Generation. -/
  generation : ℕ
  /-- Open. -/
  openId : Bytes
  /-- Grant. -/
  controllerGrant : Bytes

/-- Whether a caller is the process owner. -/
def ownerAuthorized (site : Site) (unixPeer : Bool) (presented : Bytes) : Bool :=
  unixPeer && decide (presented.length=32) && decide (presented=site.processOwner)

/-- Whether an installation is well formed. -/
def validInstallation (site : Site) (request : InstallControllerRequest) : Bool :=
  let binding := request.binding
  let isLocal := binding.agentId="" && binding.agentEpochId=""
  let isRemote := validReferenceId binding.agentId && validReferenceId binding.agentEpochId &&
    decide (binding.agentId=site.targetId)
  decide (binding.providerInstanceId=site.instanceId) && validReferenceId binding.coreId &&
    validReferenceId binding.coreBootId && (isLocal || isRemote) && decide (request.generation≠0) &&
    decide (request.openId.length=16) && decide (request.controllerGrant.length=32)

/-- Install a controller; the same installation is accepted again. -/
def installController (site : Site) (unixPeer : Bool) (request : InstallControllerRequest) (c : Controller) :
    Reply × Controller :=
  if !ownerAuthorized site unixPeer request.processOwner then
    (.error .permissionDenied "private process owner is required",c)
  else if !validInstallation site request then (.error .invalidArgument "invalid controller installation",c)
  else if c.generation≠0 then
    if c.retiring || decide (request.generation≠c.generation) || decide (request.openId≠c.openId) ||
        decide (request.controllerGrant≠c.grant) || decide (request.binding≠c.binding) then
      (.error .failedPrecondition "controller owner already exists",c)
    else (.ok,c)
  else if request.generation ≤ c.retiredGeneration then
    (.error .failedPrecondition "controller generation is retired",c)
  else
    (.ok,{c with
      generation := request.generation, openId := request.openId,
      grant := request.controllerGrant, binding := request.binding})

/-- A request to retire a controller. -/
structure RetireControllerRequest where
  /-- Secret of the process owner. -/
  processOwner : Bytes
  /-- Generation. -/
  generation : ℕ
  /-- Open. -/
  openId : Bytes

/-- First section of a retirement: nothing while it has to wait. -/
def retireController (site : Site) (unixPeer : Bool) (request : RetireControllerRequest) (c : Controller) :
    Option Reply × Controller :=
  if !ownerAuthorized site unixPeer request.processOwner then
    (some (.error .permissionDenied "private process owner is required"),c)
  else if request.generation=0 ∨ request.openId.length≠16 then
    (some (.error .invalidArgument "invalid controller retirement"),c)
  else if c.generation=0 ∧ request.generation=c.retiredGeneration ∧ request.openId=c.retiredOpenId then
    (some .ok,c)
  else if request.generation≠c.generation ∨ request.openId≠c.openId then
    (some (.error .failedPrecondition "controller owner does not match"),c)
  else (none,markControlDown {c with retiring := true})

/-- A waiting retirement goes on when no stream and no command is left. -/
def retireControllerWakes (c : Controller) : Bool :=
  decide (c.generation=0) || (c.calls.isEmpty && decide (c.work=0) && !c.finishing)

/-- The controller after its retirement. -/
def retiredController (c : Controller) : Controller :=
  {c with
    retiredGeneration := c.generation, retiredOpenId := c.openId, generation := 0, openId := [],
    grant := [], binding := ⟨"","","","",""⟩, retiring := false, finishing := false, optional := {},
    control := {}, lastRenewal := 0, optionalLog := [], controlLog := []}

end Controllers

section Machine

/-- A request for one member: acquisition, release or one renewal of control. -/
structure ControlRequest where
  /-- Member. -/
  identity : MemberIdentity
  /-- Generation of the control. -/
  generation : ℕ
  /-- Grant of the controller. -/
  controllerGrant : Bytes

/-- A request to renew the heartbeats of members. -/
structure RenewControlRequest where
  /-- Grant of the controller. -/
  controllerGrant : Bytes
  /-- Generation of the required stream. -/
  statusGeneration : ℕ
  /-- Open of the required stream. -/
  statusOpenId : Bytes
  /-- Members with the generations of their control. -/
  members : List (MemberIdentity × ℕ)

/-- Where the thread of a control call stands. -/
inductive Rpc where
  /-- The call was answered. -/
  | answered (reply : Reply)
  /-- An acquisition that passed the first check. -/
  | acquireChecked (request : ControlRequest)
  /-- An acquisition that found its member. -/
  | acquireFound (request : ControlRequest) (member : ℕ)
  /-- A renewal that took its rate edge. -/
  | renewChecked (request : RenewControlRequest)
  /-- A renewal that looked its members up. -/
  | renewFound (request : RenewControlRequest) (members : List (Option ℕ))
  /-- A release that passed the first check. -/
  | releaseChecked (request : ControlRequest)
  /-- A release that found its member. -/
  | releaseFound (request : ControlRequest) (member : ℕ)
  /-- A release that waits for commands. -/
  | releaseWaiting (request : ControlRequest) (member : ℕ)
  /-- A release without the mutex, during its native call if it needs one. -/
  | releaseNative (request : ControlRequest) (member : ℕ) (native : Bool)
  /-- A retirement of the controller that waits for streams and commands. -/
  | retireWaiting (request : RetireControllerRequest)
  /-- A retirement of the controller with members left to release. -/
  | retireMembers (request : RetireControllerRequest) (left controls : List ℕ)
  /-- A retirement of the controller during a native call. -/
  | retireNative (request : RetireControllerRequest) (member : ℕ) (left controls : List ℕ)
  /-- A retirement of a status owner that waits for its stream. -/
  | retireStatusWaiting (request : RetireStatusRequest)

/-- What happened so far; no part of the source reads it. -/
inductive Event where
  /-- A controller was installed. -/
  | installed (generation : ℕ) (grant : Bytes)
  /-- A release was answered as joined under a controller. -/
  | released (member generation controller : ℕ) (grant : Bytes)
  /-- A retirement of a controller was answered as joined. -/
  | retired (controller : ℕ)
  /-- A command was passed to the native robot. -/
  | executed (member : ℕ) (flight : Flight)
  deriving DecidableEq

/-- Condition of the command scheduler. -/
inductive Scheduler where
  /-- Its loop runs. -/
  | running
  /-- An exception ended its loop. -/
  | failing
  /-- Its native services are destroyed. -/
  | exited
  deriving DecidableEq

/-- State of the control of a server. -/
structure State where
  /-- Member objects. -/
  members : ℕ → Member := fun _ => {}
  /-- Number of member objects. -/
  memberCount : ℕ := 0
  /-- Registered members by robot. -/
  table : List (String × ℕ) := []
  /-- Controller. -/
  controller : Controller := {}
  /-- Control calls. -/
  rpcs : ℕ → Rpc := fun _ => .answered .ok
  /-- Number of control calls. -/
  rpcCount : ℕ := 0
  /-- Scheduler. -/
  scheduler : Scheduler := .running
  /-- Member whose silence the scheduler reports to the native robot. -/
  watching : Option ℕ := none
  /-- History. -/
  log : List Event := []

/-- Change one member. -/
def State.setMember (s : State) (m : ℕ) (change : Member → Member) : State :=
  {s with members := Function.update s.members m (change (s.members m))}

/-- Move one control call on. -/
def State.setRpc (s : State) (r : ℕ) (rpc : Rpc) : State := {s with rpcs := Function.update s.rpcs r rpc}

/-- Begin a control call. -/
def State.addRpc (s : State) (rpc : Rpc) : State :=
  {s with rpcs := Function.update s.rpcs s.rpcCount rpc, rpcCount := s.rpcCount+1}

/-- Extend the history. -/
def State.logged (s : State) (event : Event) : State := {s with log := s.log ++ [event]}

/-- Answer a control call. -/
def State.answer (s : State) (r : ℕ) (reply : Reply) : State := s.setRpc r (.answered reply)

/-- The registered member with an identity. -/
def selectedMember (s : State) (identity : MemberIdentity) : Option ℕ :=
  (s.table.lookup identity.robotId).filter (fun m => decide ((s.members m).identity=identity))

/-- The required stream can carry control. -/
def streamAvailable (c : Controller) : Bool := c.control.active.isSome && c.control.ready && !c.control.retiring

/-- Most controlled members. -/
def kMaximumRobots : ℕ := 256

/-- Shortest heartbeat interval in milliseconds. -/
def kMinimumControlHeartbeat : ℕ := 100

/-- Answer without a grant. -/
def grantUnavailable : Reply := .error .permissionDenied "controller grant is unavailable"

/-- Answer without a required stream. -/
def streamUnavailable : Reply := .error .failedPrecondition "required control stream is unavailable"

/-- Change the controller. -/
def State.setController (s : State) (change : Controller → Controller) : State :=
  {s with controller := change s.controller}

/-- Enter a member among the controlled ones. -/
def State.setHeld (s : State) (m : ℕ) : State :=
  s.setController fun c => {c with members := m::c.members.filter (fun other => other≠m)}

/-- Remove a member from the controlled ones. -/
def State.eraseHeld (s : State) (m : ℕ) : State :=
  s.setController fun c => {c with members := c.members.filter (fun other => other≠m)}

/-- First section of an acquisition. -/
def acquireCheck (request : ControlRequest) (cancelled : Bool) (s : State) : State :=
  if !validIdentity request.identity || decide (request.generation=0) then
    s.addRpc (.answered (.error .invalidArgument "invalid control admission"))
  else if !controllerGrant s.controller request.controllerGrant then s.addRpc (.answered grantUnavailable)
  else if cancelled || !streamAvailable s.controller then s.addRpc (.answered streamUnavailable)
  else s.addRpc (.acquireChecked request)

/-- Look the member of an acquisition up. -/
def acquireFind (r : ℕ) (request : ControlRequest) (s : State) : State :=
  match selectedMember s request.identity with
  | none => s.answer r (.error .failedPrecondition "member is not current")
  | some m => s.setRpc r (.acquireFound request m)

/-- The control of a member passes to a new controller. -/
def adopted (controller : ℕ) (m : Member) : Member :=
  if m.controlOwner≠controller then
    {m with
      controlOwner := controller, controlGeneration := 0, retiredControlGeneration := 0,
      controlRetiring := false}
  else m

/-- The control of a member is held. -/
def heldBy (generation now : ℕ) (m : Member) : Member :=
  {m with
    controlGeneration := generation, controlHeld := true, controlRetiring := false,
    controlHeartbeat := now}

/-- Take the control of a member that is free for its owner. -/
def takeControl (r m : ℕ) (request : ControlRequest) (now : ℕ) (s : State) : State :=
  let member := s.members m
  if member.controlHeld then
    if member.controlRetiring || decide (request.generation≠member.controlGeneration) then
      s.answer r (.error .failedPrecondition "member control is already held")
    else s.answer r .ok
  else if request.generation ≤ member.retiredControlGeneration then
    s.answer r (.error .failedPrecondition "member control generation is retired")
  else if kMaximumRobots ≤ s.controller.members.length ∧ m∉s.controller.members then
    s.answer r (.error .resourceExhausted "member control capacity exhausted")
  else
    ((s.setMember m (heldBy request.generation now)).setHeld m).answer r .ok

/-- Last section of an acquisition. -/
def acquireCommit (r m : ℕ) (request : ControlRequest) (cancelled : Bool) (now : ℕ) (s : State) : State :=
  let member := s.members m
  if !controllerGrant s.controller request.controllerGrant then s.answer r grantUnavailable
  else if cancelled || member.closing || !streamAvailable s.controller then s.answer r streamUnavailable
  else if 0 < member.native.controlSilenceLimit ∧
      member.native.controlSilenceLimit < 3*kMinimumControlHeartbeat then
    s.answer r (.error .failedPrecondition "control watchdog is shorter than the scheduler budget")
  else if member.controlOwner≠s.controller.generation ∧
      (member.controlWork≠0 ∨ member.controlHeld=true ∨ member.potentialMotion=true) then
    s.answer r (.error .failedPrecondition "previous control owner is not retired")
  else takeControl r m request now (s.setMember m (adopted s.controller.generation))

/-- Shortest interval of renewals in milliseconds. -/
def kMinimumControlRenewInterval : ℕ := 50

/-- Whether a renewal names the required stream. -/
def namesStream (request : RenewControlRequest) (c : Controller) : Bool :=
  streamAvailable c && decide (c.control.generation=request.statusGeneration) &&
    decide (c.control.openId=request.statusOpenId)

/-- First section of a renewal. -/
def renewCheck (request : RenewControlRequest) (cancelled : Bool) (now : ℕ) (s : State) : State :=
  if request.statusGeneration=0 ∨ request.statusOpenId.length≠16 ∨ request.members=[] ∨
      kMaximumRobots<request.members.length then
    s.addRpc (.answered (.error .invalidArgument "invalid control renewal"))
  else if !controllerGrant s.controller request.controllerGrant then s.addRpc (.answered grantUnavailable)
  else if cancelled || !namesStream request s.controller then s.addRpc (.answered streamUnavailable)
  else if s.controller.lastRenewal≠0 ∧ now-s.controller.lastRenewal<kMinimumControlRenewInterval then
    s.addRpc (.answered (.error .resourceExhausted "control renewal is faster than its scheduler policy"))
  else (s.setController fun c => {c with lastRenewal := now}).addRpc (.renewChecked request)

/-- Whether every renewal names a different valid member and a generation. -/
def validRenewals : List (MemberIdentity × ℕ) → Bool
  | [] => true
  | (identity,generation)::rest =>
    validIdentity identity && decide (generation≠0) &&
      rest.all (fun other => other.1.robotId≠identity.robotId) && validRenewals rest

/-- Look the members of a renewal up. -/
def renewFind (r : ℕ) (request : RenewControlRequest) (s : State) : State :=
  if !validRenewals request.members then
    s.answer r (.error .invalidArgument "invalid control renewal member")
  else s.setRpc r (.renewFound request (request.members.map (fun renewal => selectedMember s renewal.1)))

/-- Whether a member takes a heartbeat. -/
def renewable (c : Controller) (m : Member) (generation : ℕ) : Bool :=
  !m.closing && decide (m.controlOwner=c.generation) && m.controlHeld && !m.controlRetiring &&
    decide (m.controlGeneration=generation) && decide (0 < m.native.controlSilenceLimit)

/-- Renew the heartbeat of one member. -/
def renewOne (now : ℕ) (s : State) (renewal : Option ℕ × ℕ) : State :=
  match renewal.1 with
  | none => s
  | some m =>
    if renewable s.controller (s.members m) renewal.2 then
      s.setMember m (fun member => {member with controlHeartbeat := now})
    else s

/-- Last section of a renewal. -/
def renewCommit (r : ℕ) (request : RenewControlRequest) (members : List (Option ℕ)) (cancelled : Bool)
    (now : ℕ) (s : State) : State :=
  if !controllerGrant s.controller request.controllerGrant then s.answer r grantUnavailable
  else if cancelled || !namesStream request s.controller then s.answer r streamUnavailable
  else ((members.zip (request.members.map Prod.snd)).foldl (renewOne now) s).answer r .ok

/-- First section of a release. -/
def releaseCheck (request : ControlRequest) (s : State) : State :=
  if !validIdentity request.identity || decide (request.generation=0) then
    s.addRpc (.answered (.error .invalidArgument "invalid control retirement"))
  else if !controllerCredential s.controller request.controllerGrant then s.addRpc (.answered grantUnavailable)
  else s.addRpc (.releaseChecked request)

/-- Look the member of a release up. -/
def releaseFind (r : ℕ) (request : ControlRequest) (s : State) : State :=
  match selectedMember s request.identity with
  | none => s.answer r (.error .failedPrecondition "member is not current")
  | some m => s.setRpc r (.releaseFound request m)

/-- Answer a release as joined. -/
def releaseJoined (r m : ℕ) (request : ControlRequest) (s : State) : State :=
  (s.logged (.released m request.generation s.controller.generation request.controllerGrant)).answer r .ok

/-- Second section of a release: an earlier retirement is confirmed, else the release waits. -/
def releaseEnter (r m : ℕ) (request : ControlRequest) (cancelled : Bool) (now : ℕ) (s : State) : State :=
  let member := s.members m
  if !controllerCredential s.controller request.controllerGrant ||
      decide (member.controlOwner≠s.controller.generation) then s.answer r grantUnavailable
  else if !member.controlHeld && decide (request.generation=member.retiredControlGeneration) then
    releaseJoined r m request s
  else if !member.controlHeld || decide (request.generation≠member.controlGeneration) then
    s.answer r (.error .failedPrecondition "member control does not match")
  else if cancelled then s.answer r (.error .cancelled "control retirement was not admitted")
  else if member.controlReleaseWaiting || member.controlFinishing then
    s.answer r (.error .failedPrecondition "control retirement is already joining")
  else
    let waiting := s.setMember m (fun member =>
      {member with controlRetiring := true, controlReleaseWaiting := true, silentSince := now})
    (waiting.setController fun c => {c with work := c.work+1}).setRpc r (.releaseWaiting request m)

/-- A waiting release leaves. -/
def leaveRelease (m : ℕ) (s : State) : State :=
  (s.setMember m (fun member => {member with controlReleaseWaiting := false})).setController fun c =>
    {c with work := c.work-1}

/-- A waiting release goes on when its control is gone or nothing uses it. -/
def releaseWakes (m : Member) : Bool :=
  !m.controlHeld || (decide (m.controlWork=0) && !m.controlFinishing)

/-- Third section of a release, after its wait. -/
def releaseWake (r m : ℕ) (request : ControlRequest) (s : State) : State :=
  let member := s.members m
  if !releaseWakes member then s
  else if !member.controlHeld then
    if request.generation≠member.retiredControlGeneration then
      (leaveRelease m s).answer r (.error .failedPrecondition "member control changed")
    else releaseJoined r m request (leaveRelease m s)
  else (s.setMember m (fun member => {member with controlFinishing := true})).setRpc r
    (.releaseNative request m member.potentialMotion)

/-- A waiting release runs into its deadline. -/
def releaseTimeout (r m : ℕ) (s : State) : State :=
  if releaseWakes (s.members m) then s
  else (leaveRelease m s).answer r (.error .deadlineExceeded "member control is still joining")

/-- The control of a member is gone. -/
def withoutControl (m : Member) : Member :=
  {m with potentialMotion := false, controlHeld := false, retiredControlGeneration := m.controlGeneration}

/-- Last section of a release. -/
def releaseReturn (r m : ℕ) (request : ControlRequest) (success : Bool) (s : State) : State :=
  let back := s.setMember m (fun member => {member with controlFinishing := false})
  if !success then
    (leaveRelease m back).answer r (.error .unknown "native control release did not complete")
  else
    let freed := (back.setMember m (fun member => {withoutControl member with controlRetiring := false})).eraseHeld m
    releaseJoined r m request (leaveRelease m freed)

/-- Answer a retirement of a controller as joined. -/
def retireJoined (r : ℕ) (request : RetireControllerRequest) (s : State) : State :=
  (s.logged (.retired request.generation)).answer r .ok

/-- A call to retire the controller. -/
def retireEnter (site : Site) (unixPeer : Bool) (request : RetireControllerRequest) (s : State) : State :=
  let entered := retireController site unixPeer request s.controller
  match entered.1 with
  | none => ({s with controller := entered.2}).addRpc (.retireWaiting request)
  | some .ok => (s.logged (.retired request.generation)).addRpc (.answered .ok)
  | some reply => s.addRpc (.answered reply)

/-- A retirement goes on after its wait. -/
def retireWake (r : ℕ) (request : RetireControllerRequest) (s : State) : State :=
  let c := s.controller
  if !retireControllerWakes c then s
  else if c.generation=0 then
    if request.generation=c.retiredGeneration ∧ request.openId=c.retiredOpenId then retireJoined r request s
    else s.answer r (.error .failedPrecondition "controller owner changed")
  else if request.generation=c.generation ∧ request.openId=c.openId ∧ c.retiring=true then
    (s.setController fun c => {c with finishing := true}).setRpc r (.retireMembers request c.members c.members)
  else s.answer r (.error .failedPrecondition "controller owner changed")

/-- A retirement runs into its deadline while it waits for streams and commands. -/
def retireTimeout (r : ℕ) (s : State) : State :=
  if retireControllerWakes s.controller then s
  else s.answer r (.error .deadlineExceeded "controller retirement is still joining")

/-- Whether a retirement can go on with a member. -/
def retireMemberWakes (generation : ℕ) (m : Member) : Bool :=
  decide (m.controlOwner≠generation) || !m.potentialMotion ||
    (decide (m.controlWork=0) && !m.controlReleaseWaiting && !m.controlFinishing)

/-- A retirement goes on with its next member. -/
def retireMember (r m : ℕ) (request : RetireControllerRequest) (left controls : List ℕ) (s : State) : State :=
  let member := s.members m
  if !retireMemberWakes request.generation member then s
  else if member.controlOwner≠request.generation ∨ member.potentialMotion=false then
    s.setRpc r (.retireMembers request left controls)
  else (s.setMember m (fun member => {member with controlFinishing := true})).setRpc r
    (.retireNative request m left controls)

/-- A retirement gives up. -/
def retireAbandoned (r : ℕ) (reply : Reply) (s : State) : State :=
  (s.setController fun c => {c with finishing := false}).answer r reply

/-- A retirement runs into its deadline while it waits for a member or for commands. -/
def retireMemberTimeout (r : ℕ) (request : RetireControllerRequest) (left : List ℕ) (s : State) : State :=
  match left with
  | m::_ =>
    if retireMemberWakes request.generation (s.members m) then s
    else retireAbandoned r (.error .deadlineExceeded "member control is still joining") s
  | [] =>
    if s.controller.work=0 then s
    else retireAbandoned r (.error .deadlineExceeded "independent control work is still joining") s

/-- A retirement has released a member. -/
def retireReturn (r m : ℕ) (request : RetireControllerRequest) (left controls : List ℕ) (success : Bool)
    (s : State) : State :=
  let back := s.setMember m (fun member => {member with controlFinishing := false})
  if !success then retireAbandoned r (.error .unknown "native control release did not complete") back
  else (back.setMember m (fun member => {member with potentialMotion := false})).setRpc r
    (.retireMembers request left controls)

/-- The control of a member ends with its controller. -/
def retireOne (generation now : ℕ) (s : State) (m : ℕ) : State :=
  if (s.members m).controlOwner≠generation then s
  else (s.setMember m (fun member =>
    {member with
      controlHeld := false, controlRetiring := false,
      retiredControlGeneration := member.controlGeneration, silentSince := now})).eraseHeld m

/-- Last section of a retirement. -/
def retireFinish (r : ℕ) (request : RetireControllerRequest) (controls : List ℕ) (now : ℕ) (s : State) : State :=
  if s.controller.work≠0 then s
  else retireJoined r request
    ((controls.foldl (retireOne request.generation now) s).setController retiredController)

/-- Decision about a command of a member. -/
inductive Admission where
  /-- Motion without control. -/
  | unavailable
  /-- A release while the control is being released. -/
  | retiring
  /-- The command is executed, as control work or not. -/
  | admitted (controlWork : Bool)
  deriving DecidableEq

/-- Whether the heartbeat of a member's owner is too old. -/
def staleHeartbeat (m : Member) (now : ℕ) : Bool :=
  decide (0 < m.native.controlSilenceLimit) && decide (m.native.controlSilenceLimit ≤ now-m.controlHeartbeat)

/-- Whether a member is controlled as a motion command says. -/
def motionAllowed (c : Controller) (m : Member) (request : ExecuteRequest) (now : ℕ) : Bool :=
  controllerGrant c request.controllerGrant && streamAvailable c && m.controlHeld && !m.controlRetiring &&
    !m.closing && !staleHeartbeat m now && decide (m.controlOwner=c.generation) &&
    decide (m.controlGeneration=request.controlGeneration)

/-- Whether the current controller owns a member. -/
def owned (c : Controller) (m : Member) : Bool := decide (m.controlOwner=c.generation) && decide (c.generation≠0)

/-- Decision of the scheduler under the mutex of the controller. -/
def admission (c : Controller) (m : Member) (request : ExecuteRequest) (now : ℕ) : Admission :=
  let motion := m.native.requiresControl request.operation
  let release := m.native.isControlRelease request.operation
  if motion && !motionAllowed c m request now then .unavailable
  else if release && owned c m && (m.controlFinishing || m.controlRetiring) then .retiring
  else .admitted (motion || (release && owned c m && m.controlHeld))

/-- A member with an admitted command. -/
def flying (c : Controller) (request : ExecuteRequest) (controlWork : Bool) (m : Member) : Member :=
  let motion := m.native.requiresControl request.operation
  let release := m.native.isControlRelease request.operation
  {m with
    controlWork := if controlWork then m.controlWork+1 else m.controlWork,
    potentialMotion := m.potentialMotion || motion,
    flight := some ⟨request,motion,release,controlWork,false,c.generation⟩}

/-- Count control work. -/
def countWork (controlWork : Bool) (c : Controller) : Controller :=
  if controlWork then {c with work := c.work+1} else c

/-- Admit a command of a member that has none in flight. -/
def dispatch (m : ℕ) (request : ExecuteRequest) (now : ℕ) (s : State) : State :=
  if s.scheduler≠.running ∨ s.memberCount ≤ m ∨ (s.members m).flight.isSome then s
  else match admission s.controller (s.members m) request now with
    | .admitted controlWork =>
      (s.setMember m (flying s.controller request controlWork)).setController (countWork controlWork)
    | _ => s

/-- Pass an admitted command to the native robot. -/
def execute (m : ℕ) (s : State) : State :=
  match (s.members m).flight with
  | some flight =>
    if s.scheduler≠.running ∨ flight.started then s
    else (s.setMember m (fun member => {member with flight := some {flight with started := true}})).logged
      (.executed m flight)
  | none => s

/-- A member after the completion of its command. -/
def landed (flight : Flight) (succeeded : Bool) (m : Member) : Member :=
  {m with
    controlWork := if flight.controlWork then m.controlWork-1 else m.controlWork,
    potentialMotion := m.potentialMotion && !(flight.controlWork && flight.release && succeeded),
    flight := none}

/-- Discount control work. -/
def discountWork (controlWork : Bool) (c : Controller) : Controller :=
  if controlWork then {c with work := c.work-1} else c

/-- Complete the command of a member. -/
def complete (m : ℕ) (succeeded : Bool) (s : State) : State :=
  match (s.members m).flight with
  | some flight =>
    if s.scheduler=.exited ∨ flight.started=false then s
    else (s.setMember m (landed flight succeeded)).setController (discountWork flight.controlWork)
  | none => s

/-- Silence of the owner of a member that may be moving. -/
def memberSilence (c : Controller) (m : Member) (now : ℕ) : ℕ :=
  if !m.potentialMotion then 0
  else if m.controlHeld && decide (m.controlOwner=c.generation) && !m.controlRetiring && !c.retiring then
    if m.native.controlSilenceLimit=0 then 0
    else if now-m.controlHeartbeat < m.native.controlSilenceLimit then 0
    else now-m.controlHeartbeat
  else now-m.silentSince

/-- The watchdog finds a silent owner. -/
def watch (m now : ℕ) (s : State) : State :=
  if s.scheduler≠.running ∨ memberSilence s.controller (s.members m) now=0 then s
  else {s with watching := some m}

/-- The native robot answers the watchdog. -/
def coreSilent (released : Bool) (s : State) : State :=
  match s.watching with
  | none => s
  | some m =>
    let back := {s with watching := none}
    if released && decide ((s.members m).controlWork=0) then
      back.setMember m (fun member => {member with potentialMotion := false})
    else back

/-- Register a robot that is not in the table. -/
def register (identity : MemberIdentity) (native : NativeRobot) (s : State) : State :=
  if (s.table.lookup identity.robotId).isSome then s
  else {s with
    members := Function.update s.members s.memberCount {identity := identity, native := native, closing := false},
    memberCount := s.memberCount+1, table := (identity.robotId,s.memberCount)::s.table}

/-- Take a member out of the table. -/
def remove (m : ℕ) (s : State) : State :=
  if (s.table.lookup (s.members m).identity.robotId)≠some m then s
  else {s.setMember m (fun member => {member with closing := true}) with
    table := s.table.filter (fun entry => entry.1≠(s.members m).identity.robotId)}

/-- Member after its stop. -/
def stoppedMember (m : Member) : Member := {withoutControl m with nativeStopped := true}

/-- Stop a removed member and end its control: its barrier left no command in
flight, or it failed together with the loop of the scheduler. -/
def stopMember (m : ℕ) (s : State) : State :=
  if !(s.members m).closing || decide (s.memberCount ≤ m) ||
      (decide (s.scheduler=.running) && (s.members m).flight.isSome) then s
  else (s.setMember m stoppedMember).eraseHeld m

/-- A native call throws on the scheduler. -/
def schedulerThrow (s : State) : State :=
  if s.scheduler=.running then {s with scheduler := .failing, watching := none} else s

/-- The scheduler destroys its native services; nothing completes any more. -/
def schedulerExit (s : State) : State :=
  {s with scheduler := .exited, watching := none, members := fun m => {s.members m with flight := none}}

/-- One step of the control of a server. -/
inductive Step where
  /-- A controller is installed. -/
  | install (unixPeer : Bool) (request : InstallControllerRequest)
  /-- A status stream with an owner arrives. -/
  | accept (stream : ℕ) (control : Bool) (owner : StatusOwner)
  /-- A status stream becomes ready. -/
  | ready (stream : ℕ)
  /-- The transport reports the end of a status stream. -/
  | done (stream : ℕ)
  /-- A status stream ends. -/
  | ended (stream : ℕ)
  /-- The required stream goes down with the server. -/
  | down
  /-- A status owner is retired. -/
  | retireStatus (request : RetireStatusRequest)
  /-- Control is acquired. -/
  | acquire (request : ControlRequest) (cancelled : Bool)
  /-- Heartbeats are renewed. -/
  | renew (request : RenewControlRequest) (cancelled : Bool) (now : ℕ)
  /-- Control is released. -/
  | release (request : ControlRequest)
  /-- The controller is retired. -/
  | retire (unixPeer : Bool) (request : RetireControllerRequest)
  /-- The thread of a control call goes on. -/
  | proceed (rpc : ℕ) (cancelled : Bool) (now : ℕ)
  /-- A native release of a control call returns or throws. -/
  | returned (rpc : ℕ) (success : Bool)
  /-- A waiting control call runs into its deadline. -/
  | timeout (rpc : ℕ)
  /-- The scheduler admits a command. -/
  | dispatch (member : ℕ) (request : ExecuteRequest) (now : ℕ)
  /-- The scheduler passes an admitted command to the native robot. -/
  | execute (member : ℕ)
  /-- A command completes. -/
  | complete (member : ℕ) (succeeded : Bool)
  /-- The watchdog checks a member. -/
  | watch (member now : ℕ)
  /-- The native robot answers the watchdog. -/
  | coreSilent (released : Bool)
  /-- A native call throws on the scheduler. -/
  | throw
  /-- The scheduler leaves. -/
  | exit
  /-- A robot is registered. -/
  | register (identity : MemberIdentity) (native : NativeRobot)
  /-- A member is taken out of the table. -/
  | remove (member : ℕ)
  /-- A removed member is stopped. -/
  | stop (member : ℕ)

/-- A call to retire a status owner. -/
def retireStatusEnter (request : RetireStatusRequest) (s : State) : State :=
  let entered := retireStatus request s.controller
  let after := {s with controller := entered.2}
  match entered.1 with
  | none => after.addRpc (.retireStatusWaiting request)
  | some reply => after.addRpc (.answered reply)

/-- A waiting retirement of a status owner goes on. -/
def retireStatusWake (r : ℕ) (request : RetireStatusRequest) (s : State) : State :=
  if !retireStatusWakes request s.controller then s
  else
    let answer := retireStatusAnswer request s.controller
    ({s with controller := answer.2}).answer r answer.1

/-- A waiting retirement of a status owner runs into its deadline. -/
def retireStatusTimeout (r : ℕ) (request : RetireStatusRequest) (s : State) : State :=
  if retireStatusWakes request s.controller then s
  else s.answer r (.error .deadlineExceeded "status retirement is still joining")

/-- The thread of a control call takes its next section. -/
def proceed (r : ℕ) (cancelled : Bool) (now : ℕ) (s : State) : State :=
  match s.rpcs r with
  | .acquireChecked request => acquireFind r request s
  | .acquireFound request m => acquireCommit r m request cancelled now s
  | .renewChecked request => renewFind r request s
  | .renewFound request members => renewCommit r request members cancelled now s
  | .releaseChecked request => releaseFind r request s
  | .releaseFound request m => releaseEnter r m request cancelled now s
  | .releaseWaiting request m => releaseWake r m request s
  | .retireWaiting request => retireWake r request s
  | .retireMembers request (m::left) controls => retireMember r m request left controls s
  | .retireMembers request [] controls => retireFinish r request controls now s
  | .retireStatusWaiting request => retireStatusWake r request s
  | .releaseNative _ _ _ => s
  | .retireNative _ _ _ _ => s
  | .answered _ => s

/-- A native release of a control call ends; without one the call just goes on. -/
def returned (r : ℕ) (success : Bool) (s : State) : State :=
  match s.rpcs r with
  | .releaseNative request m native => releaseReturn r m request (success || !native) s
  | .retireNative request m left controls => retireReturn r m request left controls success s
  | _ => s

/-- A waiting control call runs into its deadline. -/
def timeout (r : ℕ) (s : State) : State :=
  match s.rpcs r with
  | .releaseWaiting _ m => releaseTimeout r m s
  | .retireWaiting _ => retireTimeout r s
  | .retireMembers request left _ => retireMemberTimeout r request left s
  | .retireStatusWaiting request => retireStatusTimeout r request s
  | _ => s

/-- A call to install a controller. -/
def installEnter (site : Site) (unixPeer : Bool) (request : InstallControllerRequest) (s : State) : State :=
  let installed := installController site unixPeer request s.controller
  let after := {s with controller := installed.2}
  match installed.1 with
  | .ok => (after.logged (.installed request.generation request.controllerGrant)).addRpc (.answered .ok)
  | reply => after.addRpc (.answered reply)

/-- State after one step. -/
def step (site : Site) (s : State) : Step → State
  | .install unixPeer request => installEnter site unixPeer request s
  | .accept stream control owner => s.setController (acceptStatus stream control owner)
  | .ready stream => s.setController (readyStatus stream)
  | .done stream => s.setController (doneStatus stream)
  | .ended stream => s.setController (releaseStatus stream)
  | .down => s.setController markControlDown
  | .retireStatus request => retireStatusEnter request s
  | .acquire request cancelled => acquireCheck request cancelled s
  | .renew request cancelled now => renewCheck request cancelled now s
  | .release request => releaseCheck request s
  | .retire unixPeer request => retireEnter site unixPeer request s
  | .proceed r cancelled now => proceed r cancelled now s
  | .returned r success => returned r success s
  | .timeout r => timeout r s
  | .dispatch m request now => dispatch m request now s
  | .execute m => execute m s
  | .complete m succeeded => complete m succeeded s
  | .watch m now => watch m now s
  | .coreSilent released => coreSilent released s
  | .throw => schedulerThrow s
  | .exit => schedulerExit s
  | .register identity native => register identity native s
  | .remove m => remove m s
  | .stop m => stopMember m s

end Machine

end Ros1Adapter.RobotControl
