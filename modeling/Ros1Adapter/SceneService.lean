import Mathlib.Data.List.Basic
import Ros1Adapter.ActionRules
import Ros1Adapter.SceneNode

/-!
# The scene authoring service

Requests are answered inline by their handler, from a queue of at most four by
a worker thread, or from held discoveries by a readiness thread. One mutex
guards the state and one condition variable wakes both threads; a step of a
thread ends where it gives the mutex back or waits. Clocks, cancellation and
the authoring node belong to the surroundings. Facts come from the owner of the
service, whose values have a JSON text.
-/

namespace Ros1Adapter.SceneService

open SceneJson SceneJsonText SceneDocument SceneFiles SceneNode

section Values

mutual
/-- Every number of a value has a JSON text. -/
def finite : Json → Bool
  | .float value => value.isFinite
  | .array items => finiteItems items
  | .object members => finiteMembers members
  | _ => true

/-- Every number of a list of values has a JSON text. -/
def finiteItems : List Json → Bool
  | [] => true
  | item::rest => finite item && finiteItems rest

/-- Every number of a list of members has a JSON text. -/
def finiteMembers : List (String × Json) → Bool
  | [] => true
  | (_,value)::rest => finite value && finiteMembers rest
end

/-- Facts of the owner; they have a JSON text. -/
structure Facts where
  /-- Value. -/
  value : Json
  /-- The value has a JSON text. -/
  encodable : finite value=true

/-- Assign every member of a second object. -/
def updateMembers (members : List (String × Json)) : List (String × Json) → List (String × Json)
  | [] => members
  | (key,value)::rest => updateMembers (Json.setMember key value members) rest

/-- Name of a profile. -/
def profileText : Profile → String
  | .gazebo => "gazebo"
  | .xsim => "xsim"
  | .physical => "physical"

/-- Profile of a name. -/
def profileOf (value : Json) : Option Profile :=
  if isText value "gazebo" then some .gazebo
  else if isText value "xsim" then some .xsim
  else if isText value "physical" then some .physical
  else none

end Values

section Messages

/-- One HTTP request. -/
structure HttpRequest where
  /-- Method. -/
  method : String
  /-- Target with its query. -/
  target : String
  /-- Identity of the request. -/
  requestId : String
  /-- Body. -/
  body : String
  /-- Headers. -/
  headers : List (String × String)
  /-- Deadline in milliseconds. -/
  deadline : ℤ

/-- One HTTP response. -/
structure HttpResponse where
  /-- Status. -/
  status : ℕ
  /-- Headers. -/
  headers : List (String × String)
  /-- Body. -/
  body : String
  deriving DecidableEq

/-- Libraries that the service calls. -/
structure Library where
  /-- Spelling of a double. -/
  spell : Float → String
  /-- `http_error` of the transport. -/
  httpError : ℕ → String → String → HttpResponse
  /-- Strict JSON check of a body by the transport. -/
  strict : String → Bool
  /-- JSON value of a body. -/
  parseJson : String → Except Error Json

/-- Drop the blanks outside string literals. -/
def compacted : Bool → Bool → List Char → List Char
  | _,_,[] => []
  | quoted,escaped,c::rest =>
    let kept := if quoted || c ≠ ' ' then [c] else []
    kept ++
      (if escaped then compacted quoted false rest
      else if quoted && c = '\\' then compacted quoted true rest
      else if c = '"' then compacted (!quoted) false rest
      else compacted quoted false rest)

variable (L : Library)

/-- Response with a JSON body. -/
def response (value : Json) (status : ℕ) : Except Error HttpResponse := do
  let spaced ← dumpJson L.spell value
  let compact := String.ofList (compacted false false spaced.toList)
  if kMaxDocumentBytes+65536<compact.utf8ByteSize then
    return L.httpError 503 "resource_exhausted" "JSON response limit exceeded"
  else return ⟨status,[("Content-Type","application/json")],compact⟩

/-- Response with an error. -/
def fault (status : ℕ) (code message : String) : Except Error HttpResponse :=
  response L (.object [("error",.object [("code",.string code),("message",.string message)])]) status

/-- Text before the query of a target. -/
def pathOf (target : String) : String := String.ofList (target.toList.takeWhile (fun c => c ≠ '?'))

/-- Start of a discovery with a wait. -/
def waitQuery : List Char := "/v1/describe?wait_ready_ms=".toList

/-- Wait of a discovery in milliseconds, if its target is well formed. -/
def waitBudget (target : String) : Option ℕ :=
  if target="/v1/describe" then some 0
  else if !waitQuery.isPrefixOf target.toList then none
  else
    let digits := target.toList.drop waitQuery.length
    if digits.isEmpty || decide (5<digits.length) || digits.any (fun c => !c.isDigit) then none
    else
      let count := digits.foldl (fun value c => 10*value+(c.toNat-48)) 0
      if 30000<count then none else some count

/-- Text in lower case. -/
def lowered (text : String) : String := String.ofList (text.toList.map Char.toLower)

/-- Text without blanks and tabs at either end. -/
def trimmed (text : List Char) : List Char :=
  let blank := fun (c : Char) => decide (c = ' ') || decide (c = '\t')
  ((text.dropWhile blank).reverse.dropWhile blank).reverse

/-- Media type of a header value. -/
def mediaType (value : String) : String :=
  String.ofList (trimmed ((value.toList.takeWhile (fun c => c ≠ ';')).map Char.toLower))

/-- Exactly one content type says JSON and no other is there. -/
def jsonContentType (headers : List (String × String)) : Bool :=
  let types := headers.filter (fun header => lowered header.1=="content-type")
  types.all (fun header => mediaType header.2=="application/json") && types.length==1

end Messages

section Execution

/-- An exception during the execution of a request. -/
inductive Thrown where
  /-- `CommandExpired`. -/
  | expired
  /-- Any other exception. -/
  | other

/-- What the surroundings decide while a request is executed. -/
structure Execution where
  /-- The request is cancelled at the first check. -/
  cancelled : Bool
  /-- The deadline has passed at the first check. -/
  expired : Bool
  /-- The request is cancelled at the second check. -/
  cancelledLater : Bool
  /-- The deadline has passed at the second check. -/
  expiredLater : Bool
  /-- Envelope of the node. -/
  envelope : Except Thrown Json
  /-- Receipt of the node for a command. -/
  command : Json → Except Thrown Json
  /-- Retained receipt of the node. -/
  result : String → Except Thrown (Option Json)

/-- Any exception is one of the execution. -/
def thrown {α : Type} : Except Error α → Except Thrown α
  | .ok a => .ok a
  | .error _ => .error .other

variable (L : Library)

/-- Value of a request body; an empty one is null. -/
def bodyValue (body : String) : Except Thrown Json :=
  if body="" then .ok .null else thrown (L.parseJson body)

/-- Answer to a query for a retained receipt. -/
def executeResult (x : Execution) (value : Json) : Except Thrown HttpResponse :=
  match value with
  | .object [("request_id",.string id)] => do
    let result ← x.result id
    match result with
    | none => thrown (fault L 404 "not_found" "Request result is unknown or outside retained history")
    | some receipt => thrown (response L receipt 200)
  | _ => thrown (fault L 400 "invalid_argument" "request_id is required")

/-- Answer to a command. -/
def executeCommand (profile : Profile) (x : Execution) (request : HttpRequest) (value : Json) : Except Thrown HttpResponse :=
  match value with
  | .object _ =>
    if value.contains "requestId" then
      thrown (fault L 400 "invalid_argument" "Command identity must come from X-Request-ID")
    else if profile=.xsim && isText (value.valueOr "operation" .null) "resync" then
      thrown (fault L 501 "unsupported" "Scene resync is unsupported for profile xsim")
    else if x.cancelledLater || x.expiredLater then
      thrown (fault L 408 "deadline_exceeded" "Scene request was cancelled or expired")
    else do
      let receipt ← x.command (value.set "requestId" (.string request.requestId))
      thrown (response L receipt 200)
  | _ => thrown (fault L 400 "invalid_argument" "Command identity must come from X-Request-ID")

/-- Execute a queued request. -/
def execute (profile : Profile) (x : Execution) (request : HttpRequest) : Except Thrown HttpResponse :=
  if x.cancelled || x.expired then
    thrown (fault L 408 "deadline_exceeded" "Scene request was cancelled or expired")
  else if request.method="GET" then do
    let envelope ← x.envelope
    thrown (response L envelope 200)
  else if kMaxDocumentBytes<request.body.utf8ByteSize then
    thrown (fault L 413 "resource_exhausted" "JSON request limit exceeded")
  else if request.body≠"" && !jsonContentType request.headers then
    thrown (fault L 415 "invalid_argument" "application/json required")
  else if request.body≠"" && !L.strict request.body then
    thrown (fault L 400 "invalid_argument" "invalid JSON request")
  else do
    let value ← bodyValue L request.body
    if request.target="/v1/commands/result" then executeResult L x value
    else executeCommand L profile x request value

/-- Response to a queued request: an exception becomes an error response. -/
def answerOf (profile : Profile) (stopping : Bool) (x : Execution) (request : HttpRequest) : Except Error HttpResponse :=
  if stopping then fault L 503 "unavailable" "Scene authoring is stopping"
  else match execute L profile x request with
    | .ok answer => .ok answer
    | .error .expired => fault L 408 "deadline_exceeded" "Scene command was cancelled or expired before application"
    | .error .other => fault L 500 "outcome_unknown" "Scene operation did not produce a known terminal result"

end Execution

section State

/-- A request that the worker executes. -/
structure Work where
  /-- Number of the request. -/
  id : ℕ
  /-- Request. -/
  request : HttpRequest
  /-- The caller can report a cancellation. -/
  cancellable : Bool

/-- A held discovery. -/
structure Waiter where
  /-- Number of the request. -/
  id : ℕ
  /-- Time of its release in milliseconds. -/
  untilTime : ℤ
  /-- The caller can report a cancellation. -/
  cancellable : Bool

/-- Where the worker stands. -/
inductive WorkerPoint where
  /-- About to look at the queue. -/
  | awake
  /-- Waiting on the condition variable. -/
  | asleep
  /-- Holding a request that left the queue, with the stop flag of that moment. -/
  | holding (work : Work) (stopping : Bool)
  /-- Executing a request that is not cancelled. -/
  | executing (work : Work) (stopping : Bool)
  /-- The thread returned. -/
  | ended

/-- Where the readiness thread stands. -/
inductive ReadinessPoint where
  /-- About to look at the waiters. -/
  | awake
  /-- Waiting on the condition variable, at most until a time if there is one. -/
  | asleep (limit : Option ℤ)
  /-- Answering released waiters with a description. -/
  | releasing (released : List Waiter) (description : Json)
  /-- The thread returned. -/
  | ended

/-- Where the owner stands in `close`. -/
inductive Closer where
  /-- Outside. -/
  | idle
  /-- The flags are set. -/
  | flagged
  /-- The threads are notified and the worker is joined. -/
  | joiningWorker
  /-- The readiness thread is joined. -/
  | joiningReadiness

/-- A response that a handler is about to deliver. -/
structure Reply where
  /-- Number of the request. -/
  id : ℕ
  /-- Response, or the exception that kept it from being built. -/
  answer : Except Error HttpResponse

/-- Members of the service, its threads and its callers. -/
structure Service where
  /-- Reference of the service. -/
  reference : Json
  /-- Profile. -/
  profile : Profile
  /-- The service stops. -/
  stopping : Bool := false
  /-- The service is closed. -/
  closed : Bool := false
  /-- The authoring node is there. -/
  node : Bool := false
  /-- Members of the facts. -/
  facts : List (String × Json) := []
  /-- There is a source of current facts. -/
  current : Bool := false
  /-- Queue of the worker. -/
  queue : List Work := []
  /-- Held discoveries. -/
  waiters : List Waiter := []
  /-- Position of the worker. -/
  worker : WorkerPoint := .awake
  /-- Position of the readiness thread. -/
  readiness : ReadinessPoint := .awake
  /-- Position of the owner. -/
  closer : Closer := .idle
  /-- A call of `close` returned; it is no part of the source. -/
  returned : Bool := false
  /-- Responses that handlers are about to deliver. -/
  replies : List Reply := []
  /-- Number of requests handed over so far. -/
  handed : ℕ := 0
  /-- Calls of the completion callbacks; it is no part of the source. -/
  completions : List (ℕ × HttpResponse) := []
  /-- Requests dropped after they reported a cancellation; it is no part of the source. -/
  dropped : List ℕ := []
  /-- Requests whose exception left the service; it is no part of the source. -/
  escaped : List ℕ := []

/-- Reference of a new service. -/
def referenceOf (path target identity : String) : Json :=
  .object [("target_id",.string target),("service",.string "xgc2.scene.authoring"),("api_version",.string "v1"),
    ("instance_id",.string identity),("profile",.string "http.v1"),
    ("endpoint",.object [("kind",.string "unix"),("address",.string path)])]

/-- A new service. -/
def newService (path target identity : String) (profile : Profile) : Service :=
  {reference := referenceOf path target identity, profile := profile}

/-- Both threads are notified. -/
def notifyAll (s : Service) : Service :=
  {s with
    worker := match s.worker with
      | .asleep => .awake
      | other => other
    readiness := match s.readiness with
      | .asleep _ => .awake
      | other => other}

/-- What the surroundings decide about a description. -/
structure Facing where
  /-- Current facts. -/
  current : List (String × Json)
  /-- The current facts have a JSON text. -/
  encodable : finiteMembers current=true
  /-- The node is online. -/
  online : Bool

/-- Native application of a profile. -/
def applicationOf : Profile → String
  | .gazebo => "native"
  | .xsim => "unsupported"
  | .physical => "visualization"

/-- Facts of a description. -/
def describedFacts (s : Service) (facing : Facing) : List (String × Json) :=
  let facts := if s.current then updateMembers s.facts facing.current else s.facts
  Json.setMember "scene_application" (.string (applicationOf s.profile))
    (Json.setMember "profile" (.string (profileText s.profile)) facts)

/-- What a completed command means. -/
def completionText : String :=
  "The command commits local desired state. Native application completes asynchronously and is reported in the scene envelope; reconnect replays the current scene once per world instance."

/-- Capabilities of a profile. -/
def capabilitiesOf (profile : Profile) : List Json :=
  let motion := if profile=.gazebo || profile=.physical || profile=.xsim then [Json.string "scene.motion"] else []
  [.string "scene.read",.string "scene.edit"] ++ motion ++ [.string "scene.save"]

/-- Description of the service. -/
def describeLocked (s : Service) (facing : Facing) : Json :=
  .object [("service_ref",s.reference),("capabilities",.array (capabilitiesOf s.profile)),
    ("limits",.object [("document_bytes",.integer kMaxDocumentBytes),("in_flight",.integer 4),("request_results",.integer 256)]),
    ("completion",.string completionText),("service",.string "xgc2.scene.authoring"),("api_version",.string "v1"),
    ("instance_id",s.reference.valueOr "instance_id" .null),("ready",.boolean (s.node && facing.online && !s.stopping)),
    ("facts",.object (describedFacts s facing))]

end State

section Steps

variable (L : Library)

/-- A handler is about to deliver a response. -/
def reply (answer : Except Error HttpResponse) (s : Service) : Service :=
  {s with replies := s.replies ++ [⟨s.handed,answer⟩], handed := s.handed+1}

/-- What the surroundings decide about a handed request. -/
structure Arrival where
  /-- Request. -/
  request : HttpRequest
  /-- The caller can report a cancellation. -/
  cancellable : Bool
  /-- Reading of the clock in milliseconds. -/
  now : ℤ
  /-- Description data. -/
  facing : Facing

/-- A discovery: answered at once or held. -/
def handleDescribe (a : Arrival) (s : Service) : Service :=
  match waitBudget a.request.target with
  | none => reply (fault L 400 "invalid_argument" "the only query is wait_ready_ms between 0 and 30000") s
  | some wait =>
    if s.node || s.stopping || wait=0 then reply (response L (describeLocked s a.facing) 200) s
    else
      notifyAll {s with
        waiters := s.waiters ++ [⟨s.handed,min (a.now+wait) (a.request.deadline-250),a.cancellable⟩],
        handed := s.handed+1}

/-- A health check. -/
def handleHealth (a : Arrival) (s : Service) : Service :=
  reply (response L (.object [("lifecycle",
    .string (if !s.stopping && s.node && a.facing.online then "ready" else "stopping"))]) 200) s

/-- Whether a request is work for the queue. -/
def isWork (request : HttpRequest) : Bool :=
  (request.method="GET" && request.target="/v1/scene") ||
    (request.method="POST" && (request.target="/v1/commands" || request.target="/v1/commands/result"))

/-- A request for the queue. -/
def handleWork (a : Arrival) (s : Service) : Service :=
  if !s.node || s.stopping then reply (fault L 503 "unavailable" "Scene authoring is not ready") s
  else if 4 ≤ s.queue.length then reply (fault L 503 "resource_exhausted" "Scene work capacity exhausted") s
  else notifyAll {s with queue := s.queue ++ [⟨s.handed,a.request,a.cancellable⟩], handed := s.handed+1}

/-- Hand a request to the service, up to the point where its handler gives the mutex back. -/
def handle (a : Arrival) (s : Service) : Service :=
  if a.request.method="GET" && pathOf a.request.target="/v1/describe" then handleDescribe L a s
  else if a.request.method="GET" && a.request.target="/v1/health" then handleHealth L a s
  else if !isWork a.request then reply (fault L 404 "not_found" "unknown scene authoring operation") s
  else handleWork L a s

/-- Call the completion callback with a response, unless building it threw. -/
def complete (id : ℕ) (answer : Except Error HttpResponse) (s : Service) : Service :=
  match answer with
  | .ok answer => {s with completions := s.completions ++ [(id,answer)]}
  | .error _ => {s with escaped := s.escaped ++ [id]}

/-- A handler delivers its response. -/
def deliverReply (id : ℕ) (s : Service) : Service :=
  match s.replies.find? (fun r => r.id=id) with
  | none => s
  | some r => complete id r.answer {s with replies := s.replies.eraseP (fun r => r.id=id)}

/-- Take a request out of the queue, wait for one or return. -/
def takeWork (s : Service) : Service :=
  match s.queue with
  | work::rest => {s with queue := rest, worker := .holding work s.stopping}
  | [] => {s with worker := if s.closed then .ended else .asleep}

/-- Drop a request that reports a cancellation. -/
def checkWork (work : Work) (stopping cancelled : Bool) (s : Service) : Service :=
  if work.cancellable && cancelled then {s with worker := .awake, dropped := s.dropped ++ [work.id]}
  else {s with worker := .executing work stopping}

/-- One step of the worker. -/
def stepWorker (cancelled : Bool) (x : Execution) (s : Service) : Service :=
  match s.worker with
  | .awake => takeWork s
  | .asleep => s
  | .holding work stopping => checkWork work stopping cancelled s
  | .executing work stopping =>
    complete work.id (answerOf L s.profile stopping x work.request) {s with worker := .awake}
  | .ended => s

/-- Waiters that are released and those that stay; the clock is read once for each. -/
def released (all : Bool) (clock : ℕ → ℤ) : ℕ → List Waiter → List Waiter × List Waiter
  | _,[] => ([],[])
  | i,waiter::rest =>
    let (out,kept) := released all clock (i+1) rest
    if all || decide (waiter.untilTime ≤ clock i) then (waiter::out,kept) else (out,waiter::kept)

/-- Earliest release among waiters. -/
def earliest : Waiter → List Waiter → ℤ
  | waiter,[] => waiter.untilTime
  | waiter,next::rest => min waiter.untilTime (earliest next rest)

/-- Look at the waiters: wait, return or release those that are due. -/
def scanWaiters (clock : ℕ → ℤ) (facing : Facing) (s : Service) : Service :=
  match s.waiters with
  | [] => {s with readiness := if s.closed then .ended else .asleep none}
  | waiter::rest =>
    if !s.node && !s.stopping && decide (clock 0<earliest waiter rest) then
      {s with readiness := .asleep (some (earliest waiter rest))}
    else
      {s with
        waiters := (released (s.node || s.stopping) clock 1 s.waiters).2,
        readiness := .releasing (released (s.node || s.stopping) clock 1 s.waiters).1 (describeLocked s facing)}

/-- Answer one released waiter unless it reports a cancellation; an exception ends the process. -/
def answerWaiter (waiter : Waiter) (rest : List Waiter) (description : Json) (cancelled : Bool) (s : Service) : Service :=
  if waiter.cancellable && cancelled then
    {s with readiness := .releasing rest description, dropped := s.dropped ++ [waiter.id]}
  else complete waiter.id (response L description 200) {s with readiness := .releasing rest description}

/-- One step of the readiness thread. -/
def stepReadiness (clock : ℕ → ℤ) (facing : Facing) (cancelled : Bool) (s : Service) : Service :=
  match s.readiness with
  | .awake => scanWaiters clock facing s
  | .asleep none => s
  | .asleep (some limit) => if limit ≤ clock 0 then {s with readiness := .awake} else s
  | .releasing (waiter::rest) description => answerWaiter L waiter rest description cancelled s
  | .releasing [] _ => {s with readiness := .awake}
  | .ended => s

/-- The service becomes ready; a refused call throws. -/
def ready (node : Bool) (facts : Facts) (s : Service) : Except Error Service :=
  match facts.value with
  | .object members =>
    if !node then .error (sceneError "Scene readiness requires a node and object facts")
    else if s.stopping then .ok s
    else if s.node then .error (sceneError "Scene service is already ready")
    else match facts.value.member "profile" with
      | none => .ok (notifyAll {s with node := true, facts := members})
      | some name =>
        match profileOf name with
        | none => .error (sceneError "Scene profile must be gazebo, xsim or physical")
        | some profile => .ok (notifyAll {s with node := true, facts := members, profile := profile})
  | _ => .error (sceneError "Scene readiness requires a node and object facts")

/-- New facts of the owner; a refused call throws. -/
def setFacts (facts : Facts) (current : Bool) (s : Service) : Except Error Service :=
  match facts.value with
  | .object members => .ok {s with facts := members, current := current}
  | _ => .error (sceneError "Scene facts must be an object")

/-- A refused call leaves the service as it was. -/
def afterCall (result : Except Error Service) (s : Service) : Service :=
  match result with
  | .ok after => after
  | .error _ => s

/-- The service stops to admit requests. -/
def stopping (s : Service) : Service := notifyAll {s with stopping := true}

/-- Begin to close the service; its one owner calls it. -/
def beginClose (s : Service) : Service :=
  match s.closer with
  | .idle => {s with stopping := true, closed := true, closer := .flagged}
  | _ => s

/-- One step of the owner in `close`. -/
def stepCloser (s : Service) : Service :=
  match s.closer,s.worker,s.readiness with
  | .idle,_,_ => s
  | .flagged,_,_ => notifyAll {s with closer := .joiningWorker}
  | .joiningWorker,.ended,_ => {s with closer := .joiningReadiness}
  | .joiningWorker,_,_ => s
  | .joiningReadiness,_,.ended => {s with closer := .idle, returned := true}
  | .joiningReadiness,_,_ => s

/-- A wake-up without a notification. -/
def wake (worker readiness : Bool) (s : Service) : Service :=
  {s with
    worker := match s.worker with
      | .asleep => if worker then .awake else .asleep
      | other => other
    readiness := match s.readiness with
      | .asleep limit => if readiness then .awake else .asleep limit
      | other => other}

/-- One step of the service, its threads or its callers. -/
inductive Action where
  /-- A request is handed over. -/
  | handle (arrival : Arrival)
  /-- A handler delivers its response. -/
  | deliver (id : ℕ)
  /-- A step of the worker. -/
  | worker (cancelled : Bool) (execution : Execution)
  /-- A step of the readiness thread. -/
  | readiness (clock : ℕ → ℤ) (facing : Facing) (cancelled : Bool)
  /-- A thread wakes up without a notification. -/
  | wake (worker readiness : Bool)
  /-- The owner reports readiness. -/
  | ready (node : Bool) (facts : Facts)
  /-- The owner sets facts. -/
  | facts (facts : Facts) (current : Bool)
  /-- The owner stops the service. -/
  | stopping
  /-- The owner calls `close`. -/
  | close
  /-- A step of the owner in `close`. -/
  | closing

/-- Service after one step. -/
def step (s : Service) : Action → Service
  | .handle arrival => handle L arrival s
  | .deliver id => deliverReply id s
  | .worker cancelled execution => stepWorker L cancelled execution s
  | .readiness clock facing cancelled => stepReadiness L clock facing cancelled s
  | .wake worker readiness => wake worker readiness s
  | .ready node facts => afterCall (ready node facts s) s
  | .facts facts current => afterCall (setFacts facts current s) s
  | .stopping => stopping s
  | .close => beginClose s
  | .closing => stepCloser s

end Steps

end Ros1Adapter.SceneService
