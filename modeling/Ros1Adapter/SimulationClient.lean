import Ros1Adapter.SceneNode

/-!
# The simulation client

A worker thread hands the latest desired scene to the world host over HTTP.
It discovers the host, applies the scene once for each instance, epoch and
revision, replays the motion state and leaves its last report in a single
slot. The caller's three methods and the worker share one mutex; each step
of the worker ends where it takes that mutex or makes its HTTP calls, so that
calls of the other side fall between any two of its sections. Answers, new
identities, the clock and the socket file belong to the surroundings.
-/

namespace Ros1Adapter.SimulationClient

open SceneJson SceneJsonText SceneDocument SceneFiles SceneCompile SceneNode ActionRules

section Transport

/-- What is known about the delivery of a failed call. -/
inductive Delivery where
  | notSent
  | outcomeUnknown
  deriving DecidableEq

/-- Outcome of one HTTP call. -/
inductive Answer where
  /-- The call failed on the way. -/
  | failed (delivery : Delivery) (what : String)
  /-- The peer answered. -/
  | response (status : ℕ) (body : String)
  deriving DecidableEq

/-- The call was reported as never sent. -/
def Answer.notSent : Answer → Bool
  | .failed .notSent _ => true
  | _ => false

/-- One HTTP request. -/
structure Request where
  /-- Instance that the connection is bound to, empty for discovery. -/
  fence : String
  /-- Method. -/
  method : String
  /-- Route. -/
  target : String
  /-- Identity of the request. -/
  requestId : String
  /-- Value of the body, if there is one. -/
  body : Option Json

/-- A request with its outcome. -/
structure Exchange where
  /-- Request. -/
  request : Request
  /-- Outcome. -/
  answer : Answer

/-- An exception that is no failed call. -/
inductive Refusal where
  /-- `SimulationFault`. -/
  | simulation (message code : String)
  /-- Any other exception. -/
  | other (what : String)
  deriving DecidableEq

/-- An exception on the worker. -/
inductive Fault where
  /-- `HttpCallError`. -/
  | http (delivery : Delivery) (what : String)
  /-- An exception of the worker's own. -/
  | refused (refusal : Refusal)
  deriving DecidableEq

/-- Surroundings of the worker. -/
structure Peer where
  /-- Outcome of each HTTP call in order. -/
  answer : ℕ → Answer
  /-- New identities in order. -/
  identity : ℕ → String
  /-- Bounded JSON check of a body. -/
  wellFormed : String → Bool
  /-- JSON value of a body. -/
  parseJson : String → Except Error Json
  /-- Spelling of a double. -/
  spell : Float → String
  /-- Name of a delivery class. -/
  deliveryName : Delivery → String
  /-- Local target. -/
  target : String
  /-- Operation timeout in milliseconds. -/
  timeout : ℕ
  /-- The directory of the socket is watched. -/
  watched : Bool

/-- Calls made so far and identities used. -/
structure Net where
  /-- Exchanges, oldest first. -/
  calls : List Exchange := []
  /-- New identities so far. -/
  identities : ℕ := 0

/-- Actions of the worker on the network. -/
abbrev Wire := EStateM Fault Net

end Transport

section Operations

variable (p : Peer)

/-- A new identity. -/
def newInstanceId : Wire String := fun net =>
  .ok (p.identity net.identities) {net with identities := net.identities+1}

/-- Result of a check. -/
def checked {α : Type} : Except Refusal α → Wire α
  | .ok a => fun net => .ok a net
  | .error refusal => fun net => .error (.refused refusal) net

/-- Make one HTTP call. -/
def send (request : Request) : Wire (ℕ × String) := fun net =>
  let after : Net := {net with calls := net.calls ++ [⟨request,p.answer net.calls.length⟩]}
  match p.answer net.calls.length with
  | .failed delivery what => .error (.http delivery what) after
  | .response status body => .ok (status,body) after

/-- An exception of another library seen by the worker. -/
def lifted {α : Type} : Except Error α → Except Refusal α
  | .ok a => .ok a
  | .error error => .error (.other error.what)

/-- Member access with a default; only objects have members. -/
def fieldOr (value : Json) (key : String) (fallback : Json) : Except Refusal Json :=
  match value with
  | .object _ => .ok (value.valueOr key fallback)
  | _ => .error (.other "cannot use value() with this type")

/-- Text of a member with a default. -/
def textOr (value : Json) (key fallback : String) : Except Refusal String := do
  let item ← fieldOr value key (.string fallback)
  match item with
  | .string text => return text
  | _ => .error (.other "type must be string")

/-- Boolean of a member with a default. -/
def flagOr (value : Json) (key : String) (fallback : Bool) : Except Refusal Bool := do
  let item ← fieldOr value key (.boolean fallback)
  match item with
  | .boolean flag => return flag
  | _ => .error (.other "type must be boolean")

/-- The exception of an answer with an error status. -/
def faultOf (result : Json) : Except Refusal Json := do
  let error ← fieldOr result "error" (.object [])
  match error with
  | .object _ => do
    let message ← textOr error "message" "Simulation request failed"
    let code ← textOr error "code" "internal"
    .error (.simulation message code)
  | _ => .error (.other "Simulation returned an invalid fault")

/-- Value of an answer. -/
def decoded (status : ℕ) (body : String) : Except Refusal Json :=
  if !p.wellFormed body then .error (.other "Simulation returned an invalid JSON response")
  else do
    let result ← lifted (p.parseJson body)
    match result with
    | .object _ => if 400 ≤ status then faultOf result else return result
    | _ => .error (.other "Simulation returned a non-object operation")

/-- Body of a request; it must have a JSON text. -/
def requestBody (method : String) (value : Json) : Except Refusal (Option Json) :=
  if method="GET" then .ok none
  else do
    let _ ← lifted (dumpJson p.spell value)
    return some value

/-- One call to the world host. -/
def call (fence target : String) (value : Json) (method requestId : String) : Wire Json := do
  let body ← checked (requestBody p method value)
  let response ← send p ⟨fence,method,target,requestId,body⟩
  checked (decoded p response.1 response.2)

/-- Route of an operation. -/
def operationRoute (requestId : String) : String := "/v1/operations/" ++ requestId

/-- Whether an operation is still under way. -/
def pending (result : Json) : Bool :=
  isText (result.valueOr "state" .null) "accepted" || isText (result.valueOr "state" .null) "running"

/-- Wait for an operation that is still under way. -/
def waitPending (fence requestId : String) (result : Json) : Wire Json :=
  if !isText (result.valueOr "id" .null) requestId then
    throw (.refused (.other "Simulation returned a different operation identity"))
  else if pending result then do
    let identity ← newInstanceId p
    call p fence (operationRoute requestId ++ "/wait") (.object []) "POST" identity
  else return result

/-- Submit an operation and wait for it. -/
def submit (fence route : String) (payload : Json) (method requestId : String) : Wire Json := do
  let result ← call p fence route payload method requestId
  waitPending p fence requestId result

/-- Read the retained result of an operation and wait for it. -/
def observe (fence requestId : String) : Wire Json := do
  let identity ← newInstanceId p
  let result ← call p fence (operationRoute requestId) (.object []) "GET" identity
  waitPending p fence requestId result

/-- Submit an operation; after an unknown outcome read its retained result. -/
def settled (fence route : String) (payload : Json) (method requestId : String) : Wire Json := fun net =>
  match submit p fence route payload method requestId net with
  | .error (.http .outcomeUnknown _) after => observe p fence requestId after
  | other => other

/-- Whether the error member of an operation says something. -/
def hasError : Json → Bool
  | .string text => text≠""
  | .boolean value => value
  | .integer value => value≠0
  | .float value => value != 0
  | .null => false
  | other => other.size≠0

/-- Text of a diagnostic. -/
def diagnosticText : Json → String
  | .string text => text
  | other => pythonRepr p.spell other

/-- Result of an operation that succeeded. -/
def outcome (requestId : String) (result : Json) : Except Refusal Json :=
  if isText (result.valueOr "id" .null) requestId && isText (result.valueOr "state" .null) "succeeded" then
    .ok (result.valueOr "result" (.object []))
  else
    let error := result.valueOr "error" .null
    let diagnostic := if hasError error then error else result.valueOr "state" .null
    .error (.other ("Simulation operation " ++ requestId ++ " did not complete: " ++ diagnosticText p diagnostic))

/-- An exception as it leaves an operation. -/
def operationFault (requestId : String) : Fault → Fault
  | .refused (.simulation message code) =>
    .refused <| .other ("Simulation operation " ++ requestId ++ ": " ++ message ++ " (" ++ code ++ ")")
  | other => other

/-- One operation of the world host. -/
def operation (fence route : String) (value : Json) (method requestId : String) : Wire Json := fun net =>
  let payload := value.set "operation_timeout_ms" (.integer p.timeout)
  match settled p fence route payload method requestId net with
  | .ok result after =>
    match outcome p requestId result with
    | .ok value => .ok value after
    | .error refusal => .error (.refused refusal) after
  | .error fault after => .error (operationFault requestId fault) after

end Operations

section Discovery

variable (p : Peer)

/-- Characters of identities. -/
def identityCharacter (c : Char) : Bool :=
  ('a' ≤ c && c ≤ 'z') || ('A' ≤ c && c ≤ 'Z') || ('0' ≤ c && c ≤ '9') || c == '.' || c == '_' || c == ':' || c == '-'

/-- Whether a text is an identity: 1 to 128 of the allowed characters. -/
def validInstance (text : String) : Bool :=
  decide (1 ≤ text.length) && decide (text.length ≤ 128) && text.toList.all identityCharacter

/-- Whether a description is one of a ready world host. -/
def readyWorld (status : ℕ) (description : Json) : Except Refusal Bool :=
  if status≠200 then .ok false
  else do
    let service ← fieldOr description "service" .null
    let version ← fieldOr description "api_version" .null
    if !isText service "xgc2.simulation" || !(isText version "v1" || isText version "1") then return false
    else flagOr description "ready" false

/-- Whether a description names the local target, if it names one. -/
def localTarget (description : Json) : Except Refusal Bool :=
  match description.member "service_ref" with
  | none => .ok true
  | some reference => do
    let target ← fieldOr reference "target_id" .null
    return isText target p.target

/-- Instance of a description. -/
def describedInstance (description : Json) : Except Refusal String := do
  let item ← lifted (description.atKey "instance_id")
  match item with
  | .string text => return text
  | _ => .error (.other "type must be string")

/-- The instance in the answer to a discovery. -/
def discovered (status : ℕ) (body : String) : Except Refusal String := do
  let description ← lifted (p.parseJson body)
  let ready ← readyWorld status description
  if !ready then .error (.other "World host is not ready")
  else
    let found ← describedInstance description
    if !validInstance found then .error (.other "Invalid discovered world instance")
    else
      let matched ← localTarget p description
      if !matched then .error (.other "Discovered world target differs from the local target")
      else return found

/-- Route of a held discovery. -/
def describeRoute : String := "/v1/describe?wait_ready_ms=30000"

/-- Discover the world host. -/
def discover : Wire String := do
  let identity ← newInstanceId p
  let response ← send p ⟨"","GET",describeRoute,identity,none⟩
  checked (discovered p response.1 response.2)

end Discovery

section Delivering

variable (p : Peer)

/-- The latest desired state. -/
structure Desired where
  /-- Compiled document. -/
  document : Json
  /-- Epoch. -/
  epoch : String
  /-- Revision. -/
  revision : ℕ
  /-- Motion. -/
  motion : MotionUpdate
  /-- Number of the update. -/
  serial : ℕ

/-- What an application is for. -/
structure Key where
  /-- Instance of the world host. -/
  instanceId : String
  /-- Epoch. -/
  epoch : String
  /-- Revision. -/
  revision : ℕ
  deriving DecidableEq

/-- Key of a desired state at an instance. -/
def Desired.key (d : Desired) (instanceId : String) : Key := ⟨instanceId,d.epoch,d.revision⟩

/-- Route of a scene application. -/
def applyRoute : String := "/v1/extensions/scene/apply"

/-- Route of a motion operation. -/
def motionRoute : String := "/v1/extensions/scene/motion"

/-- Body of an application. -/
def applyBody (d : Desired) : Json :=
  .object [("document",d.document),("epoch",.string d.epoch),("revision",.integer d.revision)]

/-- Operation that restores the motion state. -/
def motionName (motion : MotionUpdate) : String :=
  if motion.operation="reset" then "reset" else if motion.playing then "play" else "pause"

/-- Body of a motion operation. -/
def motionBody (d : Desired) : Json :=
  .object [("operation",.string (motionName d.motion)),("epoch",.string d.epoch),
    ("revision",.integer d.revision)]

/-- Refusal of a confirmation for another revision. -/
def committed (d : Desired) (native : Json) : Except Refusal Unit := do
  let epoch ← fieldOr native "epoch" .null
  let revision ← fieldOr native "revision" .null
  if epoch.equal (.string d.epoch) && revision.equal (.integer d.revision) then return ()
  else .error (.other "Simulation did not commit the requested scene revision")

/-- Apply the scene. -/
def applyDesired (instanceId : String) (d : Desired) : Wire Unit := do
  let identity ← newInstanceId p
  let native ← operation p instanceId applyRoute (applyBody d) "POST" identity
  checked (committed d native)

/-- A scene time that a report may carry. -/
abbrev SceneTime := {time : Option Json // ∀ value, time=some value → ∃ x, value.double?=some x ∧ x.isFinite=true}

/-- Whether a present member differs from an expected value. -/
def differs (native : Json) (key : String) (expected : Json) : Bool :=
  (native.member key).any (fun value => !value.equal expected)

/-- Scene time of a motion state; a present one is a finite number. -/
def reportedTime (native : Json) : Except Refusal SceneTime :=
  match native.member "scene_time" with
  | none => .ok ⟨none,fun _ h => by cases h⟩
  | some value =>
    match hd : value.double? with
    | none => .error (.other "Simulation returned mismatched motion state")
    | some x =>
      if hx : x.isFinite=true then .ok ⟨some value,fun _ h => by cases h; exact ⟨x,hd,hx⟩⟩
      else .error (.other "Simulation returned mismatched motion state")

/-- Scene time of a motion state that matches the desired one. -/
def matchedMotion (d : Desired) (native : Json) : Except Refusal SceneTime :=
  match native with
  | .object _ =>
    if differs native "epoch" (.string d.epoch) || differs native "revision" (.integer d.revision) ||
        differs native "playing" (.boolean d.motion.playing) then
      .error (.other "Simulation returned mismatched motion state")
    else reportedTime native
  | _ => .error (.other "Simulation returned mismatched motion state")

/-- Replay the motion state. -/
def moveDesired (instanceId : String) (d : Desired) : Wire SceneTime := do
  let identity ← newInstanceId p
  let native ← operation p instanceId motionRoute (motionBody d) "POST" identity
  checked (matchedMotion d native)

end Delivering

section Worker

/-- Where the worker stands. -/
inductive Phase where
  /-- The thread does not exist yet. -/
  | idle
  /-- Head of the loop. -/
  | loop
  /-- About to report that the peer is unavailable. -/
  | announce (d : Desired)
  /-- About to choose between discovery, delivery and waiting. -/
  | choose (d : Desired)
  /-- About to capture the latest desired state for a delivery. -/
  | capture
  /-- About to deliver. -/
  | deliver (d : Desired)
  /-- About to report a confirmed motion state. -/
  | report (d : Desired) (time : SceneTime)
  /-- About to handle an exception. -/
  | failed (d : Desired) (fault : Fault)
  /-- About to poll. -/
  | waiting (d : Desired)
  /-- About to handle changes of the socket file, each with its absence. -/
  | changing (d : Desired) (changes : List Bool)
  /-- The loop ended. -/
  | ended

/-- Members of the client and locals of its worker. -/
structure Client where
  /-- The client is closed. -/
  closed : Bool := false
  /-- Latest desired state. -/
  desired : Option Desired := none
  /-- Last report that was not taken. -/
  slot : Option Report := none
  /-- Number of the last update. -/
  serial : ℕ := 0
  /-- Discovery attempts. -/
  attempts : ℕ := 0
  /-- Position of the worker. -/
  phase : Phase := .idle
  /-- Key of the last application that began. -/
  attempted : Option Key := none
  /-- Discovered instance. -/
  instanceId : String := ""
  /-- Reason of the outage. -/
  peerMessage : String := "World host is waiting for discovery"
  /-- An instance is connected. -/
  connected : Bool := false
  /-- The application of the attempted key was confirmed. -/
  applied : Bool := false
  /-- The socket file is missing. -/
  missing : Bool := false
  /-- Last update that was delivered or refused. -/
  delivered : ℕ := 0
  /-- Last update that was reported as unavailable. -/
  unavailable : ℕ := 0
  /-- Calls and identities. -/
  net : Net := {}
  /-- Keys of the applications that began, newest first; it is no part of the source. -/
  visited : List Key := []

/-- What the surroundings decide in one step of the worker. -/
structure Turn where
  /-- The retry time has come. -/
  due : Bool
  /-- The socket file is missing. -/
  missing : Bool
  /-- Changes of the socket file that the poll returns, each with its absence afterwards. -/
  changes : List Bool

/-- A report of a client. -/
def reportOf (c : Client) (d : Desired) (applied : Bool) (message : String) (time : SceneTime) : Report :=
  ⟨d.epoch,d.revision,applied,c.instanceId,message,c.attempts,d.motion.playing,time.1,time.2⟩

/-- A missing scene time. -/
def noTime : SceneTime := ⟨none,fun _ h => by cases h⟩

/-- Leave a report in the slot unless the client is closed. -/
def emit (c : Client) (d : Desired) (applied : Bool) (message : String) (time : SceneTime) : Client :=
  if c.closed then c else {c with slot := some (reportOf c d applied message time)}

variable (p : Peer)

/-- Read the desired state at the head of the loop. -/
def readDesired (c : Client) : Client :=
  if c.closed then {c with phase := .ended}
  else match c.desired with
    | none => {c with phase := .ended}
    | some d =>
      {c with phase := if !c.connected && decide (c.unavailable≠d.serial) then .announce d else .choose d}

/-- Report the outage once for each update. -/
def announce (d : Desired) (c : Client) : Client :=
  {emit c d false c.peerMessage noTime with unavailable := d.serial, phase := .choose d}

/-- One discovery. -/
def connect (d : Desired) (c : Client) : Client :=
  match discover p c.net with
  | .ok found net =>
    {c with attempts := c.attempts+1, net := net, instanceId := found, connected := true, phase := .capture}
  | .error fault net => {c with attempts := c.attempts+1, net := net, phase := .failed d fault}

/-- Discover, deliver or wait. -/
def choose (turn : Turn) (d : Desired) (c : Client) : Client :=
  if !c.connected && !c.missing && turn.due then connect p d c
  else if c.connected && decide (c.delivered≠d.serial) then {c with phase := .capture}
  else {c with phase := .waiting d}

/-- Capture the latest desired state again after a held discovery. -/
def capture (c : Client) : Client :=
  match c.desired with
  | none => {c with phase := .ended}
  | some d => {c with phase := .deliver d}

/-- Remember the beginning of an application. -/
def visiting (key : Key) (visited : List Key) : List Key :=
  if visited.head?=some key then visited else key::visited

/-- Replay the motion state of an applied scene. -/
def move (d : Desired) (c : Client) : Client :=
  match moveDesired p c.instanceId d c.net with
  | .ok time net => {c with net := net, phase := .report d time}
  | .error fault net => {c with net := net, phase := .failed d fault}

/-- Begin the application of a key. -/
def begin (key : Key) (c : Client) : Client :=
  {c with attempted := some key, applied := false, visited := visiting key c.visited}

/-- Apply the scene and replay its motion state. -/
def applyThenMove (d : Desired) (c : Client) : Client :=
  match applyDesired p c.instanceId d c.net with
  | .ok _ net => move p d {c with net := net, applied := true}
  | .error fault net => {c with net := net, phase := .failed d fault}

/-- Deliver a desired state: apply a new key, then replay the motion of an applied one. -/
def deliver (d : Desired) (c : Client) : Client :=
  if c.attempted≠some (d.key c.instanceId) then applyThenMove p d (begin (d.key c.instanceId) c)
  else if c.applied then move p d c
  else {c with delivered := d.serial, phase := .loop}

/-- Report a confirmed motion state. -/
def confirm (d : Desired) (time : SceneTime) (c : Client) : Client :=
  {emit c d true "Native scene operation completed" time with delivered := d.serial, phase := .loop}

/-- Handle a failed call: the connection is lost. -/
def disconnect (turn : Turn) (d : Desired) (delivery : Delivery) (what : String) (c : Client) : Client :=
  let message := what ++ " (" ++ p.deliveryName delivery ++ ")"
  {emit c d false message noTime with
    attempted := if delivery=.notSent ∧ c.applied=false then none else c.attempted,
    connected := false, missing := turn.missing, peerMessage := message, unavailable := d.serial,
    phase := .loop}

/-- Handle any other exception: a refusal, or a discovery that found no world host. -/
def refuse (d : Desired) (what : String) (c : Client) : Client :=
  let reported := emit c d false what noTime
  if c.connected then {reported with delivered := d.serial, phase := .loop}
  else {reported with peerMessage := what, unavailable := d.serial, phase := .loop}

/-- Handle an exception. -/
def recover (turn : Turn) (d : Desired) (c : Client) : Fault → Client
  | .http delivery what => disconnect p turn d delivery what c
  | .refused (.simulation message _) => refuse d message c
  | .refused (.other what) => refuse d what c

/-- Poll the wake descriptor and the directory watch. -/
def poll (turn : Turn) (d : Desired) (c : Client) : Client :=
  {c with missing := c.missing && p.watched, phase := .changing d (if p.watched then turn.changes else [])}

/-- Handle one change of the socket file. -/
def changed (d : Desired) (missing : Bool) (rest : List Bool) (c : Client) : Client :=
  let message := "World host socket changed; waiting for discovery"
  {emit c d false message noTime with
    connected := false, missing := missing, peerMessage := message, unavailable := d.serial,
    phase := .changing d rest}

/-- One step of the worker. -/
def work (turn : Turn) (c : Client) : Client :=
  match c.phase with
  | .idle => c
  | .loop => readDesired c
  | .announce d => announce d c
  | .choose d => choose p turn d c
  | .capture => capture c
  | .deliver d => deliver p d c
  | .report d time => confirm d time c
  | .failed d fault => recover p turn d c fault
  | .waiting d => poll p turn d c
  | .changing d (missing::rest) => changed d missing rest c
  | .changing _ [] => {c with phase := .loop}
  | .ended => c

end Worker

section Interface

/-- Position of the worker after an update: the first one starts the thread. -/
def started : Phase → Phase
  | .idle => .loop
  | other => other

/-- Set the latest desired state. -/
def update (document : Json) (epoch : String) (revision : ℕ) (motion : MotionUpdate) (c : Client) : Client :=
  if c.closed then c
  else {c with
    serial := c.serial+1, desired := some ⟨document,epoch,revision,motion,c.serial+1⟩,
    phase := started c.phase}

/-- Take the last report. -/
def takeReport (c : Client) : Option Report × Client := (c.slot,{c with slot := none})

/-- Close the client. -/
def close (c : Client) : Client := {c with closed := true}

/-- One step of a client: a call of its owner or a step of its worker. -/
inductive Action where
  /-- A new desired state. -/
  | update (document : Json) (epoch : String) (revision : ℕ) (motion : MotionUpdate)
  /-- The owner takes a report. -/
  | take
  /-- The owner closes the client. -/
  | close
  /-- A step of the worker. -/
  | work (turn : Turn)

/-- Client after one step. -/
def step (p : Peer) (c : Client) : Action → Client
  | .update document epoch revision motion => update document epoch revision motion c
  | .take => (takeReport c).2
  | .close => close c
  | .work turn => work p turn c

end Interface

end Ros1Adapter.SimulationClient
