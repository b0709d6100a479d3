import Mathlib.Data.List.FinRange
import Ros1Adapter.ActionRules
import Ros1Adapter.SceneDocument

/-!
# The lidar control host

Configurations are accepted by the HTTP owner into 128 reused receipt slots
and queued by slot. One callback at a time is posted to the control lane,
which applies the queued configurations outside the mutex and finishes their
receipts; a failed post and a stop finish them as well. A step ends where the
mutex is given back. JSON parsing, clocks, cancellation and the two callbacks
belong to the surroundings.
-/

namespace Ros1Adapter.LidarControl

open SceneJson SceneDocument

section Data

/-- State of a receipt slot. -/
inductive OperationState where
  /-- The slot was never used. -/
  | free
  | accepted
  | succeeded
  | failed
  deriving DecidableEq

/-- One receipt slot. -/
structure Operation where
  /-- Identity of the request, empty in a free slot. -/
  id : String := ""
  /-- Body of the request. -/
  fingerprint : String := ""
  /-- State. -/
  state : OperationState := .free
  /-- Error code of a failed operation. -/
  error : String := ""
  /-- Revision. -/
  revision : ℕ := 0
  /-- Requested configuration. -/
  enabled : Bool := false
  /-- Deadline in milliseconds. -/
  deadline : ℤ := 0
  /-- Time of the receipt. -/
  completed : ℤ := 0
  /-- Reply to the submission. -/
  submit : Option ℕ := none
  /-- Replies to waits. -/
  waiters : List ℕ := []

/-- Response to a request. -/
inductive Response where
  /-- A JSON value. -/
  | json (status : ℕ) (value : Json)
  /-- An error of the transport's shape. -/
  | error (status : ℕ) (code message : String)

/-- Number of receipt slots. -/
abbrev Slot := Fin 128

/-- A held discovery. -/
structure ReadyWaiter where
  /-- Reply. -/
  reply : ℕ
  /-- Time of its release in milliseconds. -/
  untilTime : ℤ

/-- Where the control lane stands. -/
inductive LanePoint where
  /-- Outside `ApplyPending`. -/
  | idle
  /-- About to take a queued operation. -/
  | looping
  /-- An operation was taken. -/
  | taken (index : Slot) (enabled : Bool) (deadline : ℤ)
  /-- The configuration was applied, or the attempt failed. -/
  | tried (index : Slot) (enabled : Bool) (failure : String)

/-- A revision with its configuration. -/
structure Revision where
  /-- Number of the revision. -/
  number : ℕ
  /-- Configuration. -/
  enabled : Bool
  deriving DecidableEq

/-- Members of the control host, its lane and its callers. -/
structure Control where
  /-- Target. -/
  target : String
  /-- Socket. -/
  socket : String
  /-- Identity of the instance. -/
  identity : String
  /-- Facts. -/
  facts : List (String × Json) := []
  /-- Receipt slots. -/
  operations : Slot → Operation := fun _ => {}
  /-- Queued slots. -/
  pending : List Slot := []
  /-- Desired configuration. -/
  desired : Bool
  /-- Applied configuration. -/
  applied : Bool
  /-- The host stops. -/
  stopping : Bool := false
  /-- A callback is posted or about to be. -/
  scheduled : Bool := false
  /-- Desired revision. -/
  desiredRevision : ℕ := 1
  /-- Applied revision. -/
  appliedRevision : ℕ := 1
  /-- An operation is being applied. -/
  applying : Bool := false
  /-- Its deadline. -/
  applyingDeadline : ℤ := 0
  /-- The owner's dependency is ready. -/
  ready : Bool := true
  /-- Held discoveries. -/
  readyWaiters : List ReadyWaiter := []
  /-- Handlers that are about to post a callback. -/
  posters : ℕ := 0
  /-- Callbacks in the queue of the control lane. -/
  callbacks : ℕ := 0
  /-- Position of the control lane. -/
  lane : LanePoint := .idle
  /-- Number of requests so far. -/
  handed : ℕ := 0
  /-- Completed replies; it is no part of the source. -/
  completions : List (ℕ × Response) := []
  /-- Waiters removed after they reported a cancellation; it is no part of the source. -/
  pruned : List ℕ := []
  /-- Accepted operations; it is no part of the source. -/
  accepted : List Revision := []
  /-- Revisions with which the owner's callback was called; it is no part of the source. -/
  applies : List ℕ := []
  /-- Operations whose receipt says that they succeeded; it is no part of the source. -/
  succeeded : List Revision := []

/-- A new control host. -/
def newControl (socket target identity : String) (enabled : Bool) : Control :=
  {target := target, socket := socket, identity := identity, desired := enabled, applied := enabled}

end Data

section Values

/-- Value of a revision with its configuration. -/
def revisionValue (revision : ℕ) (enabled : Bool) : Json :=
  .object [("configuration",.object [("enabled",.boolean enabled)]),("revision",.integer revision)]

/-- Status of both configurations. -/
def configuration (s : Control) : Json :=
  .object [("applied",revisionValue s.appliedRevision s.applied),("desired",revisionValue s.desiredRevision s.desired),
    ("lifecycle",.string "ready"),("persisted",.null)]

/-- Name of a state. -/
def stateText : OperationState → String
  | .free => ""
  | .accepted => "accepted"
  | .succeeded => "succeeded"
  | .failed => "failed"

/-- Receipt of an operation. -/
def receipt (op : Operation) : Json :=
  let head := [("id",Json.string op.id),("kind",Json.string "source.configure")]
  match op.state with
  | .succeeded => .object (head ++ [("result",.object [("configuration",.object [("enabled",.boolean op.enabled)]),
      ("persisted",.null),("revision",.integer op.revision)]),("state",.string "succeeded")])
  | .failed => .object (("effects",.object [("applied",.boolean false)])::("error",.object [("code",.string op.error)])::
      head ++ [("state",.string "failed")])
  | state => .object (head ++ [("state",.string (stateText state))])

/-- Reply with a receipt. -/
def receiptReply (op : Operation) : Response := .json (if op.state=.accepted then 202 else 200) (receipt op)

/-- Assign every member of a second object. -/
def merged (facts : List (String × Json)) (current : List (String × Json)) : List (String × Json) :=
  current.foldl (fun members entry => Json.setMember entry.1 entry.2 members) facts

/-- Description of the host, with the current facts of its owner. -/
def describe (s : Control) (current : List (String × Json)) : Json :=
  .object [("api_version",.string "v1"),("capabilities",.array [.string "source.enabled.configure"]),
    ("facts",.object (Json.setMember "target_id" (.string s.target) (merged s.facts current))),
    ("instance_id",.string s.identity),
    ("limits",.object [("operation_timeout_ms",.integer 60000),("pending_operations",.integer 16),("retained_operations",.integer 128)]),
    ("persistence",.string "none; launch configuration owns initial state"),
    ("ready",.boolean (s.ready && !s.stopping)),("service",.string "xgc2.sensor.lidar"),
    ("service_ref",.object [("api_version",.string "v1"),("endpoint",.object [("address",.string s.socket),("kind",.string "unix")]),
      ("instance_id",.string s.identity),("profile",.string "http.v1"),("service",.string "xgc2.sensor.lidar"),
      ("target_id",.string s.target)])]

/-- Largest revision. -/
def maxRevision : ℕ := 9007199254740991

/-- A positive integer up to a bound. -/
def integer (value : Json) (high : ℕ) : Except String ℕ :=
  match value with
  | .integer (.ofNat n) => if n=0 || high<n then .error "positive integer required" else .ok n
  | _ => .error "positive integer required"

/-- Refusal of a value that is no object or has an unknown member. -/
def fieldsKnown (value : Json) (allowed : List String) : Except String Unit :=
  match value with
  | .object members =>
    match members.find? (fun entry => !allowed.contains entry.1) with
    | some entry => .error ("unknown lidar field: " ++ entry.1)
    | none => .ok ()
  | _ => .error "configuration object required"

/-- A checked configuration request. -/
structure Configure where
  /-- Revision that the caller expects. -/
  expected : ℕ
  /-- Requested configuration. -/
  enabled : Bool
  /-- Time limit in milliseconds. -/
  budget : ℕ

/-- Boolean of a configuration. -/
def enabledFlag (value : Json) : Except String Bool :=
  match value.valueOr "enabled" .null with
  | .boolean enabled => .ok enabled
  | _ => .error "boolean enabled required"

/-- Check a configuration request. -/
def configureOf (parsed : Option Json) : Except String Configure :=
  match parsed with
  | none => .error "invalid lidar JSON"
  | some value => do
    fieldsKnown value ["expected_revision","configuration","operation_timeout_ms"]
    let configuration := value.valueOr "configuration" .null
    fieldsKnown configuration ["enabled"]
    let enabled ← enabledFlag configuration
    let expected ← integer (value.valueOr "expected_revision" .null) maxRevision
    let budget ← integer (value.valueOr "operation_timeout_ms" .null) 60000
    return ⟨expected,enabled,budget⟩

/-- Wait of a discovery in milliseconds; only one query is known. -/
def parseWait (target : List Char) : Option ℕ :=
  match target.dropWhile (fun c => c ≠ '?') with
  | [] => some 0
  | _::parameter =>
    let key := "wait_ready_ms=".toList
    if !key.isPrefixOf parameter then none
    else
      let digits := parameter.drop key.length
      if digits.isEmpty || decide (5<digits.length) || digits.any (fun c => !c.isDigit) then none
      else
        let wait := digits.foldl (fun value c => 10*value+(c.toNat-48)) 0
        if wait ≤ 30000 then some wait else none

/-- Operation of a route, and whether the route waits for it. -/
def operationRoute (method : String) (target : List Char) : Option (String × Bool) :=
  let start := "/v1/operations/".toList
  if !start.isPrefixOf target then none
  else
    let id := target.drop start.length
    let ending := "/wait".toList
    if method="POST" && decide (5 < id.length) && ending.isSuffixOf id then
      some (String.ofList (id.take (id.length-5)),true)
    else some (String.ofList id,false)

end Values

section Steps

/-- Complete a reply. -/
def complete (reply : ℕ) (response : Response) (s : Control) : Control :=
  {s with completions := s.completions ++ [(reply,response)]}

/-- Slot after its operation ended. -/
def finished (op : Operation) (failure : String) (now : ℤ) : Operation :=
  {op with
    state := if failure="" then .succeeded else .failed, error := failure, completed := now, submit := none,
    waiters := []}

/-- Finish an operation: its submission and its waiters are answered with the receipt. -/
def finish (index : Slot) (failure : String) (now : ℤ) (s : Control) : Control :=
  let op := s.operations index
  let done := finished op failure now
  {s with
    operations := Function.update s.operations index done,
    completions := s.completions ++ (op.submit.toList ++ op.waiters).map (fun reply => (reply,.json 200 (receipt done))),
    succeeded := if failure="" then s.succeeded ++ [⟨op.revision,op.enabled⟩] else s.succeeded}

/-- Finish several operations. -/
def finishAll (failure : String) (now : ℤ) : List Slot → Control → Control
  | [],s => s
  | index::rest,s => finishAll failure now rest (finish index failure now s)

/-- What the surroundings decide about a request. -/
structure Arrival where
  /-- Method. -/
  method : String
  /-- Target. -/
  target : String
  /-- Identity of the request. -/
  requestId : String
  /-- Body. -/
  body : String
  /-- JSON value of the body, if it has one. -/
  parsed : Option Json
  /-- Deadline in milliseconds. -/
  deadline : ℤ
  /-- Reading of the clock. -/
  now : ℤ
  /-- Replies that report a cancellation. -/
  cancelled : ℕ → Bool
  /-- Current facts. -/
  current : List (String × Json)

/-- Slot with an identity. -/
def slotOf (s : Control) (id : String) : Option Slot := (List.finRange 128).find? (fun i => (s.operations i).id=id)

/-- Discovery: answered at once or held. -/
def handleDescribe (a : Arrival) (reply : ℕ) (s : Control) : Except String Control :=
  match parseWait a.target.toList with
  | none => .error "the only query is wait_ready_ms between 0 and 30000"
  | some wait =>
    if s.ready || wait=0 then .ok (complete reply (.json 200 (describe s a.current)) s)
    else .ok {s with readyWaiters := s.readyWaiters ++ [⟨reply,min (a.now+wait) (a.deadline-250)⟩]}

/-- Wait for an accepted operation; waiters that are cancelled give up their place. -/
def waitFor (a : Arrival) (reply : ℕ) (index : Slot) (s : Control) : Control :=
  let op := s.operations index
  let kept := op.waiters.filter (fun r => !a.cancelled r)
  let cleaned := {s with
    operations := Function.update s.operations index {op with waiters := kept},
    pruned := s.pruned ++ op.waiters.filter a.cancelled}
  if kept.length=4 then complete reply (.error 429 "resource_exhausted" "lidar operation waiter limit") cleaned
  else {cleaned with operations := Function.update s.operations index {op with waiters := kept ++ [reply]}}

/-- Query or wait for an operation. -/
def handleOperation (a : Arrival) (reply : ℕ) (id : String) (wait : Bool) (s : Control) : Except String Control :=
  if (!wait && a.method≠"GET") || id="" then .error "unknown lidar operation route"
  else match slotOf s id with
    | none => .ok (complete reply (.error 404 "not_found" "lidar operation unknown or expired") s)
    | some index =>
      if wait && (s.operations index).state=.accepted then .ok (waitFor a reply index s)
      else .ok (complete reply (receiptReply (s.operations index)) s)

/-- The slot for a new operation: a free one, else the oldest receipt. -/
def chooseSlot (operations : Slot → Operation) : List Slot → Option (Slot × ℤ) → Option Slot
  | [],best => best.map (fun b => b.1)
  | i::rest,best =>
    if (operations i).id="" then some i
    else if (operations i).state≠.accepted && best.all (fun b => decide ((operations i).completed<b.2)) then
      chooseSlot operations rest (some (i,(operations i).completed))
    else chooseSlot operations rest best

/-- Accept an operation and make sure that a callback is posted. -/
def accept (a : Arrival) (reply : ℕ) (c : Configure) (index : Slot) (s : Control) : Control :=
  {s with
    operations := Function.update s.operations index
      {id := a.requestId, fingerprint := a.body, state := .accepted, enabled := c.enabled,
        revision := s.desiredRevision+1, deadline := a.now+c.budget, submit := some reply},
    desiredRevision := s.desiredRevision+1, desired := c.enabled, pending := s.pending ++ [index],
    scheduled := true, posters := if s.scheduled then s.posters else s.posters+1,
    accepted := s.accepted ++ [⟨s.desiredRevision+1,c.enabled⟩]}

/-- A configuration request. -/
def handleConfigure (a : Arrival) (reply : ℕ) (s : Control) : Except String Control := do
  let c ← configureOf a.parsed
  match slotOf s a.requestId with
  | some index =>
    if (s.operations index).fingerprint≠a.body then
      return complete reply (.error 409 "conflict" "lidar request ID payload conflict") s
    else return complete reply (receiptReply (s.operations index)) s
  | none =>
    if c.expected≠s.desiredRevision then
      return complete reply (.error 409 "conflict" "lidar desired revision conflict") s
    else if 16 ≤ s.pending.length || s.desiredRevision=maxRevision then
      return complete reply (.error 429 "resource_exhausted" "lidar operation capacity") s
    else match chooseSlot s.operations (List.finRange 128) none with
      | none => return complete reply (.error 429 "resource_exhausted" "lidar receipt capacity") s
      | some index => return accept a reply c index s

/-- Route a request. -/
def routed (a : Arrival) (reply : ℕ) (s : Control) : Except String Control :=
  if a.method="GET" && a.target.toList.takeWhile (fun c => c ≠ '?')="/v1/describe".toList then handleDescribe a reply s
  else if a.method="GET" && (a.target="/v1/status" || a.target="/v1/health") then
    .ok (complete reply (.json 200 (configuration s)) s)
  else match operationRoute a.method a.target.toList with
    | some route => handleOperation a reply route.1 route.2 s
    | none =>
      if a.method≠"POST" || a.target≠"/v1/configure" then
        .ok (complete reply (.error 404 "not_found" "unknown lidar source route") s)
      else handleConfigure a reply s

/-- Handle a request up to the point where the mutex is given back. -/
def handle (a : Arrival) (s : Control) : Control :=
  let counted := {s with handed := s.handed+1}
  if s.stopping then complete s.handed (.error 503 "unavailable" "lidar source stopping") counted
  else match routed a s.handed counted with
    | .ok after => after
    | .error what => complete s.handed (.error 400 "invalid_argument" what) counted

/-- A handler posts its callback; a failed post finishes everything that is queued. -/
def post (succeeds : Bool) (now : ℤ) (s : Control) : Control :=
  match s.posters with
  | 0 => s
  | posters+1 =>
    if succeeds then {s with posters := posters, callbacks := s.callbacks+1}
    else {finishAll "internal" now s.pending s with pending := [], scheduled := false, posters := posters}

/-- Take the next queued operation or leave the callback. -/
def takeNext (s : Control) : Control :=
  match s.pending with
  | [] => {s with scheduled := false, lane := .idle}
  | index::rest =>
    if s.stopping then {s with scheduled := false, lane := .idle}
    else {s with
      pending := rest, applying := true, applyingDeadline := (s.operations index).deadline,
      lane := .taken index (s.operations index).enabled (s.operations index).deadline}

/-- Apply a configuration unless its deadline has passed. -/
def tryApply (now : ℤ) (throws : Bool) (index : Slot) (enabled : Bool) (deadline : ℤ) (s : Control) : Control :=
  if deadline ≤ now then {s with lane := .tried index enabled "deadline_exceeded"}
  else {s with
    applies := s.applies ++ [(s.operations index).revision],
    lane := .tried index enabled (if throws then "internal" else "")}

/-- Note the outcome of an operation. -/
def noteOutcome (now : ℤ) (index : Slot) (enabled : Bool) (failure : String) (s : Control) : Control :=
  let left := {s with applying := false, lane := .looping}
  if s.stopping then left
  else if failure="" then
    finish index failure now {left with applied := enabled, appliedRevision := (s.operations index).revision}
  else finish index failure now left

/-- One step of the control lane. -/
def stepLane (now : ℤ) (throws : Bool) (s : Control) : Control :=
  match s.lane with
  | .idle =>
    match s.callbacks with
    | 0 => s
    | callbacks+1 => {s with callbacks := callbacks, lane := .looping}
  | .looping => takeNext s
  | .taken index enabled deadline => tryApply now throws index enabled deadline s
  | .tried index enabled failure => noteOutcome now index enabled failure s

/-- Answer the held discoveries that are released. -/
def expireReady (now : ℤ) (cancelled : ℕ → Bool) (current : List (String × Json)) (s : Control) : Control :=
  let due := fun (w : ReadyWaiter) => s.ready || s.stopping || decide (w.untilTime ≤ now) || cancelled w.reply
  {s with
    completions := s.completions ++ (s.readyWaiters.filter due).map (fun w => (w.reply,.json 200 (describe s current))),
    readyWaiters := s.readyWaiters.filter (fun w => !due w)}

/-- Stop: every accepted operation and every held discovery is answered. -/
def stop (now : ℤ) (current : List (String × Json)) (s : Control) : Control :=
  if s.stopping then s
  else
    let stopped := finishAll "unavailable" now
      ((List.finRange 128).filter (fun i => (s.operations i).state=.accepted)) {s with stopping := true}
    {stopped with
      pending := [], readyWaiters := [],
      completions := stopped.completions ++
        s.readyWaiters.map (fun w => (w.reply,.json 200 (describe stopped current)))}

/-- One step of the host, its lane or its callers. -/
inductive Action where
  /-- A request arrives. -/
  | handle (arrival : Arrival)
  /-- A handler posts its callback. -/
  | post (succeeds : Bool) (now : ℤ)
  /-- A step of the control lane. -/
  | lane (now : ℤ) (throws : Bool)
  /-- The HTTP owner releases held discoveries. -/
  | expire (now : ℤ) (cancelled : ℕ → Bool) (current : List (String × Json))
  /-- The owner reports its dependency. -/
  | ready (ready : Bool)
  /-- The owner sets facts. -/
  | facts (facts : List (String × Json))
  /-- The owner stops the host. -/
  | stop (now : ℤ) (current : List (String × Json))

/-- Host after one step. -/
def step (s : Control) : Action → Control
  | .handle arrival => handle arrival s
  | .post succeeds now => post succeeds now s
  | .lane now throws => stepLane now throws s
  | .expire now cancelled current => expireReady now cancelled current s
  | .ready ready => {s with ready := ready}
  | .facts facts => {s with facts := facts}
  | .stop now current => stop now current s

end Steps

end Ros1Adapter.LidarControl
