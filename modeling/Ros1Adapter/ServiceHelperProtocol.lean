import Ros1Adapter.ByteStreams
import Ros1Adapter.ServiceHelperFrames

/-!
# Service calls through helper processes

Every call of a service starts a helper process and exchanges frames with it
over a private socket: a request, the helper's readiness, a commit, and the
response. A call and its helper take turns in any order; either side's bytes
may be split anywhere, and cancellation, deadlines, broken sockets and the
helper's death may come before any turn. The calls share the number of calls in
flight and the next identity. Waiting in poll for a socket is a turn that does
nothing.
-/

namespace Ros1Adapter.ServiceHelperProtocol

open LittleEndian ByteStreams ServiceHelperFrames

section Values

/-- Bytes of a text. -/
def text (value : String) : Bytes := value.toUTF8.data.toList

/-- Class of an error. -/
inductive ErrorClass where
  | permanent
  | transient
  | uncertain
  | cancelled
  | deadline
  | rejected
  | resourceExhausted
  deriving DecidableEq

/-- An error of the tools. -/
structure Ros1ToolsError where
  /-- Code. -/
  code : String
  /-- Class. -/
  errorClass : ErrorClass
  /-- Message. -/
  message : Bytes
  deriving DecidableEq

/-- Request for a call; the cancellation and the clocks are inputs of the turns. -/
structure ServiceCallRequest where
  /-- Name of the service. -/
  service : Bytes
  /-- Type of the service. -/
  serviceType : Bytes
  /-- Time to wait for the service. -/
  waitForServiceMs : UInt32

/-- Result of a call. -/
structure ServiceCallResult (Response : Type) where
  /-- Name of the service. -/
  service : Bytes
  /-- Type of the service. -/
  serviceType : Bytes
  /-- Response. -/
  response : Response
  /-- Duration. -/
  durationMs : ℕ

/-- How a call or a part of it ends. -/
abbrev Outcome (Response : Type) := Except Ros1ToolsError (ServiceCallResult Response)

/-- What is thrown after the commit. -/
inductive Thrown where
  /-- An error of the tools. -/
  | tools (error : Ros1ToolsError)
  /-- Another exception. -/
  | other (what : Bytes)
  /-- Something that is no exception. -/
  | unknown

/-- What the payload of a response comes to. -/
inductive Decoded (Response : Type) where
  /-- It does not have the length of its type. -/
  | mismatch
  /-- A response. -/
  | response (value : Response)
  /-- Decoding throws. -/
  | threw (thrown : Thrown)

/-- What a check of the cancellation and the deadline sees. -/
inductive Check where
  | allowed
  | cancelled
  | expired
  | timedOut

/-- One turn of a loop that reads or writes. -/
inductive Turn where
  /-- The call was cancelled. -/
  | cancelled
  /-- Its deadline passed. -/
  | expired
  /-- Its own time is over. -/
  | timedOut
  /-- The socket moves some bytes. -/
  | moved (count : ℕ)
  /-- An interruption, or waiting. -/
  | again
  /-- The peer closed the socket. -/
  | closed
  /-- The socket fails. -/
  | failed (reason : Bytes)

end Values

section States

/-- Where a helper stands. -/
inductive HelperPoint where
  /-- Before it reads. -/
  | booting
  /-- Reading a request frame. -/
  | readingRequest (got : Bytes)
  /-- Reading the name. -/
  | readingName (got : Bytes)
  /-- Reading the checksum. -/
  | readingMd5 (got : Bytes)
  /-- Reading the payload. -/
  | readingPayload (got : Bytes)
  /-- Checking name and checksum. -/
  | validating
  /-- Looking for the service. -/
  | looking
  /-- Making the client. -/
  | making
  /-- Writing its readiness. -/
  | writingReady (rest : Bytes)
  /-- Reading the commit. -/
  | readingCommit (got : Bytes)
  /-- About to call. -/
  | entering
  /-- Inside the call. -/
  | calling
  /-- Writing the rest of a section of the response, then another one. -/
  | writingReply (rest later : Bytes)
  /-- Gone. -/
  | gone
  deriving DecidableEq

/-- A helper process. -/
structure Helper where
  /-- Where it stands. -/
  point : HelperPoint := .booting
  /-- Request frame it read. -/
  frame : ServiceHelperFrame := {}
  /-- Name it read. -/
  service : Bytes := []
  /-- Checksum it read. -/
  md5 : Bytes := []
  /-- Payload it read. -/
  payload : Bytes := []
  /-- Native calls it entered: name, checksum and payload. -/
  entered : List (Bytes × Bytes × Bytes) := []
  /-- Readiness it decided on. -/
  ready : Option ServiceHelperReadyStatus := none
  /-- Response it decided on. -/
  reply : Option (ServiceHelperResponseStatus × Bytes) := none

/-- What a call does when its helper is reaped. -/
inductive Ending where
  /-- It fails. -/
  | failed (error : Ros1ToolsError)
  /-- It looks at a response. -/
  | responded (frame : ServiceHelperFrame) (payload : Bytes)

/-- Where a call stands. -/
inductive CallPoint (Response : Type) where
  /-- The first check. -/
  | entry
  /-- Types, decoding and serialization. -/
  | resolving
  /-- The second check. -/
  | checking
  /-- Loading the number of calls in flight. -/
  | loading
  /-- Exchanging that number for one more. -/
  | exchanging (current : ℕ)
  /-- Starting the helper. -/
  | starting
  /-- The check after the helper did not start. -/
  | startFailed (reason : Bytes)
  /-- Taking an identity. -/
  | numbering
  /-- Writing the rest of a section of the request, then others. -/
  | writing (rest : Bytes) (later : List Bytes)
  /-- Reading the readiness. -/
  | readingReady (got : Bytes)
  /-- The check before the commit. -/
  | deciding
  /-- Writing the commit. -/
  | committing (rest : Bytes)
  /-- Reading the response frame. -/
  | readingResponse (got : Bytes)
  /-- The check after the response frame. -/
  | checkingResponse (got : Bytes)
  /-- Reading the payload of the response. -/
  | readingPayload (frame : ServiceHelperFrame) (got : Bytes)
  /-- The check after the payload. -/
  | checkingPayload (frame : ServiceHelperFrame) (got : Bytes)
  /-- The socket is closed; the helper is to be killed and reaped. -/
  | terminating (ending : Ending)
  /-- Decoding a response. -/
  | decoding (payload : Bytes)
  /-- Giving the permit back. -/
  | releasing (outcome : Outcome Response)
  /-- Returned. -/
  | returned (outcome : Outcome Response)

/-- A call with its helper and the two directions of their socket. -/
structure Call (Response : Type) where
  /-- Request. -/
  request : ServiceCallRequest
  /-- Checksum of the type. -/
  md5 : Bytes := []
  /-- Serialized request. -/
  payload : Bytes := []
  /-- Identity. -/
  requestId : UInt64 := 0
  /-- Where the call stands. -/
  point : CallPoint Response := .entry
  /-- It counts as in flight. -/
  permit : Bool := false
  /-- Its helper, if it was started. -/
  helper : Option Helper := none
  /-- The call closed the socket. -/
  closed : Bool := false
  /-- Bytes to the helper. -/
  down : Stream UInt8 := {}
  /-- Bytes to the call. -/
  up : Stream UInt8 := {}

/-- What the calls share. -/
structure Shared where
  /-- Number of calls in flight. -/
  inFlight : ℕ := 0
  /-- Next identity. -/
  next : UInt64 := 1

end States

section Helpers

variable {Response : Type}

/-- What a helper does next. -/
inductive HelperEvent where
  /-- Its descriptor and its parent are checked. -/
  | booted (ok : Bool)
  /-- A turn of a loop. -/
  | transfer (turn : Turn)
  /-- The library checks the name. -/
  | named (valid : Bool)
  /-- The service is found or not. -/
  | available (found : Bool)
  /-- The client is made or not. -/
  | made (ok : Bool)
  /-- It enters the native call. -/
  | enter
  /-- The native call fails. -/
  | callFailed
  /-- The native call gives a response, whose payload may be unreadable. -/
  | called (payload : Option Bytes)
  /-- It dies. -/
  | died

/-- Decide on a readiness. -/
def answerReady (status : ServiceHelperReadyStatus) (h : Helper) : Helper :=
  {h with ready := some status,point := .writingReady (makeServiceHelperReady h.frame.requestId status).bytes}

/-- Decide on a response. -/
def answerReply (status : ServiceHelperResponseStatus) (data : Bytes) (h : Helper) : Helper :=
  {h with
    reply := some (status,data),
    point := .writingReply (makeServiceHelperResponse h.frame.requestId status data.length).bytes data}

/-- A request frame was read. -/
def requestRead (got : Bytes) (h : Helper) : Helper :=
  let frame := ServiceHelperFrame.ofBytes got
  if validateServiceHelperRequest frame then {h with frame := frame,point := .readingName []} else {h with point := .gone}

/-- A name was read. -/
def nameRead (got : Bytes) (h : Helper) : Helper := {h with service := got,point := .readingMd5 []}

/-- A checksum was read; an empty payload is not read. -/
def md5Read (got : Bytes) (h : Helper) : Helper :=
  {h with md5 := got,point := if h.frame.payloadBytes=0 then .validating else .readingPayload []}

/-- A payload was read. -/
def payloadRead (got : Bytes) (h : Helper) : Helper := {h with payload := got,point := .validating}

/-- A commit was read: without a valid one the helper does not call. -/
def commitRead (got : Bytes) (h : Helper) : Helper :=
  if validateServiceHelperCommit (ServiceHelperFrame.ofBytes got) h.frame.requestId then {h with point := .entering}
  else {h with point := .gone}

/-- A turn of reading exactly so many bytes. -/
def readExact (c : Call Response) (h : Helper) (got : Bytes) (size : ℕ) (point : Bytes → HelperPoint)
    (done : Bytes → Helper → Helper) : Turn → Option (Call Response)
  | .moved count =>
    if 0<count ∧ got.length+count ≤ size then
      match c.down.pull count with
      | none => none
      | some (piece,down) =>
        some {c with
          down := down,
          helper := some (if (got ++ piece).length=size then done (got ++ piece) h else {h with point := point (got ++ piece)})}
    else none
  | .again => some c
  | .closed => if c.closed ∧ c.down.drained then some {c with helper := some {h with point := .gone}} else none
  | .failed _ => some {c with helper := some {h with point := .gone}}
  | .cancelled => none
  | .expired => none
  | .timedOut => none

/-- A turn of writing all of some bytes. -/
def writeExact (c : Call Response) (h : Helper) (rest : Bytes) (point : Bytes → HelperPoint) (done : HelperPoint) :
    Turn → Option (Call Response)
  | .moved count =>
    if 0<count ∧ count ≤ rest.length then
      some {c with
        up := c.up.push (rest.take count),
        helper := some {h with point := if rest.drop count=[] then done else point (rest.drop count)}}
    else none
  | .again => some c
  | .closed => some {c with helper := some {h with point := .gone}}
  | .failed _ => some {c with helper := some {h with point := .gone}}
  | .cancelled => none
  | .expired => none
  | .timedOut => none

/-- An absolute name of a service, as far as the helper looks at it itself. -/
def absoluteName (service : Bytes) : Bool := decide (service.head?=some 0x2f) && decide (service≠[0x2f])

/-- A turn of a helper. -/
def runHelper (c : Call Response) (h : Helper) : HelperEvent → Option (Call Response)
  | .booted ok =>
    match h.point with
    | .booting => some {c with helper := some {h with point := if ok then .readingRequest [] else .gone}}
    | _ => none
  | .transfer turn =>
    match h.point with
    | .readingRequest got => readExact c h got frameBytes .readingRequest requestRead turn
    | .readingName got => readExact c h got h.frame.serviceNameBytes.toNat .readingName nameRead turn
    | .readingMd5 got => readExact c h got h.frame.serviceMd5Bytes.toNat .readingMd5 md5Read turn
    | .readingPayload got => readExact c h got h.frame.payloadBytes.toNat .readingPayload payloadRead turn
    | .writingReady rest =>
      writeExact c h rest .writingReady (if h.ready=some .kReady then .readingCommit [] else .gone) turn
    | .readingCommit got => readExact c h got frameBytes .readingCommit commitRead turn
    | .writingReply rest later =>
      writeExact c h rest (fun rest => .writingReply rest later) (if later=[] then .gone else .writingReply later []) turn
    | _ => none
  | .named valid =>
    match h.point with
    | .validating =>
      some {c with
        helper := some (if absoluteName h.service && valid && validServiceMd5 h.md5 then {h with point := .looking}
          else answerReady .kProtocolError h)}
    | _ => none
  | .available found =>
    match h.point with
    | .looking => some {c with helper := some (if found then {h with point := .making} else answerReady .kServiceUnavailable h)}
    | _ => none
  | .made ok =>
    match h.point with
    | .making => some {c with helper := some (answerReady (if ok then .kReady else .kProtocolError) h)}
    | _ => none
  | .enter =>
    match h.point with
    | .entering => some {c with helper := some {h with entered := (h.service,h.md5,h.payload)::h.entered,point := .calling}}
    | _ => none
  | .callFailed =>
    match h.point with
    | .calling => some {c with helper := some (answerReply .kCallFailed [] h)}
    | _ => none
  | .called payload =>
    match h.point with
    | .calling =>
      match payload with
      | none => some {c with helper := some (answerReply .kProtocolError [] h)}
      | some data =>
        some {c with
          helper := some (if kMaximumServicePayloadBytes<data.length then answerReply .kResponseTooLarge [] h
            else answerReply .kCompleted data h)}
    | _ => none
  | .died => if h.point=.gone then none else some {c with helper := some {h with point := .gone}}

end Helpers

section Errors

/-- How a transfer before the commit ends. -/
inductive PreCommitIoResult where
  | kCancelled
  | kDeadline
  | kTransportError
  deriving DecidableEq

/-- How a transfer after the commit ends. -/
inductive PostCommitIoResult where
  | kCancelled
  | kRuntimeDeadline
  | kCallTimeout
  | kTransportError
  deriving DecidableEq

/-- Error of a transfer before the commit. -/
def failPreCommit (result : PreCommitIoResult) (reason : Bytes) : Ros1ToolsError :=
  match result with
  | .kCancelled => ⟨"service_call_cancelled",.cancelled,text "ROS1 service call was cancelled before dispatch"⟩
  | .kDeadline => ⟨"service_deadline_elapsed",.deadline,text "ROS1 service deadline elapsed before dispatch"⟩
  | .kTransportError =>
    ⟨"service_helper_unavailable",.transient,text "ROS1 service helper failed before dispatch: " ++ reason⟩

/-- Error of a transfer after the commit. -/
def failPostCommit (result : PostCommitIoResult) (service reason : Bytes) : Ros1ToolsError :=
  match result with
  | .kCancelled =>
    ⟨"service_call_cancelled",.uncertain,text "ROS1 service call to '" ++ service ++
      text "' was cancelled after commit; the server may have executed the request"⟩
  | .kRuntimeDeadline =>
    ⟨"service_deadline_elapsed",.uncertain,text "ROS1 service call to '" ++ service ++
      text "' crossed its Runtime deadline after commit; the server may have executed the request"⟩
  | .kCallTimeout =>
    ⟨"service_call_timeout",.uncertain,text "ROS1 service call to '" ++ service ++
      text "' exceeded callTimeoutMs after commit; the server may have executed the request"⟩
  | .kTransportError =>
    ⟨"service_call_failed",.uncertain,text "ROS1 service helper failed after commit for '" ++ service ++ text "': " ++ reason⟩

/-- What is thrown after the commit stays or becomes uncertain. -/
def afterCommit : Thrown → Ros1ToolsError
  | .tools error =>
    if error.errorClass=.uncertain then error
    else ⟨"service_result_failed",.uncertain,text "ROS1 service processing failed after commit: " ++ error.message⟩
  | .other what => ⟨"service_result_failed",.uncertain,text "ROS1 service processing failed after commit: " ++ what⟩
  | .unknown => ⟨"service_result_failed",.uncertain,text "ROS1 service processing failed after commit"⟩

/-- Error of a response that reports no result. -/
def responseError (status : UInt32) (service : Bytes) : Option Ros1ToolsError :=
  if status=ServiceHelperResponseStatus.kCallFailed.code then
    some ⟨"service_call_failed",.uncertain,text "ROS1 service call to '" ++ service ++ text "' failed after commit"⟩
  else if status=ServiceHelperResponseStatus.kResponseTooLarge.code then
    some ⟨"service_response_too_large",.uncertain,text "ROS1 service response exceeded the helper limit after commit"⟩
  else if status≠ServiceHelperResponseStatus.kCompleted.code then
    some ⟨"invalid_service_response",.uncertain,text "ROS1 service helper failed after commit"⟩
  else none

/-- Error of a readiness that allows no commit. -/
def readyError (frame : ServiceHelperFrame) (requestId : UInt64) (service : Bytes) : Option Ros1ToolsError :=
  if validateServiceHelperReady frame requestId=false then
    some ⟨"service_helper_protocol_error",.transient,text "ROS1 service helper returned an invalid pre-commit frame"⟩
  else if frame.status=ServiceHelperReadyStatus.kServiceUnavailable.code then
    some ⟨"service_unavailable",.transient,text "ROS1 service '" ++ service ++
      text "' was not available before waitForServiceMs elapsed"⟩
  else if frame.status≠ServiceHelperReadyStatus.kReady.code then
    some ⟨"service_helper_protocol_error",.transient,text "ROS1 service helper rejected the pre-commit request"⟩
  else none

end Errors

section Calls

variable {Response : Type}

/-- What a call does next. -/
inductive CallEvent where
  /-- A check of the cancellation and the deadline. -/
  | check (seen : Check)
  /-- The types are resolved and the request is serialized, or something fails. -/
  | resolved (outcome : Except Ros1ToolsError (Bytes × Bytes))
  /-- The number of calls in flight is loaded. -/
  | load
  /-- It is exchanged; a weak exchange may fail for no reason. -/
  | exchange (spurious : Bool)
  /-- The helper is started, or why not. -/
  | spawned (failure : Option Bytes)
  /-- An identity is taken. -/
  | number
  /-- A turn of a loop. -/
  | transfer (turn : Turn)
  /-- Something is thrown after the commit. -/
  | threw (thrown : Thrown)
  /-- The helper is killed and reaped. -/
  | reaped
  /-- The response is decoded after some time. -/
  | decode (durationMs : ℕ)
  /-- The permit is given back. -/
  | release

/-- End a call that has no helper to terminate. -/
def finish (outcome : Outcome Response) (c : Call Response) : Call Response :=
  {c with point := if c.permit then .releasing outcome else .returned outcome}

/-- Throw an error: a helper is terminated first. -/
def fail (error : Ros1ToolsError) (c : Call Response) : Call Response :=
  if c.helper.isSome then {c with closed := true,point := .terminating (.failed error)} else finish (.error error) c

/-- Require that a call may be dispatched. -/
def requirePreDispatchAllowed (seen : Check) (c next : Call Response) : Option (Call Response) :=
  match seen with
  | .allowed => some next
  | .cancelled => some (fail (failPreCommit .kCancelled []) c)
  | .expired => some (fail (failPreCommit .kDeadline []) c)
  | .timedOut => none

/-- A turn of a transfer before the commit. -/
def preCommit (c : Call Response) (closed : Option Bytes) (moved : ℕ → Option (Call Response)) : Turn → Option (Call Response)
  | .cancelled => some (fail (failPreCommit .kCancelled []) c)
  | .expired => some (fail (failPreCommit .kDeadline []) c)
  | .moved count => moved count
  | .again => some c
  | .closed => closed.map (fun reason => fail (failPreCommit .kTransportError reason) c)
  | .failed reason => some (fail (failPreCommit .kTransportError reason) c)
  | .timedOut => none

/-- A turn of a transfer after the commit. -/
def postCommit (c : Call Response) (closed : Option Bytes) (moved : ℕ → Option (Call Response)) : Turn → Option (Call Response)
  | .cancelled => some (fail (failPostCommit .kCancelled c.request.service []) c)
  | .expired => some (fail (failPostCommit .kRuntimeDeadline c.request.service []) c)
  | .timedOut => some (fail (failPostCommit .kCallTimeout c.request.service []) c)
  | .moved count => moved count
  | .again => some c
  | .closed => closed.map (fun reason => fail (failPostCommit .kTransportError c.request.service reason) c)
  | .failed reason => some (fail (failPostCommit .kTransportError c.request.service reason) c)

/-- The check after a transfer that came to its end after the commit. -/
def completed (seen : Check) (c next : Call Response) : Call Response :=
  match seen with
  | .allowed => next
  | .cancelled => fail (failPostCommit .kCancelled c.request.service []) c
  | .expired => fail (failPostCommit .kRuntimeDeadline c.request.service []) c
  | .timedOut => fail (failPostCommit .kCallTimeout c.request.service []) c

/-- The helper is gone. -/
def helperGone (c : Call Response) : Bool :=
  match c.helper with
  | none => true
  | some h => decide (h.point=.gone)

/-- Reason of a read at the end of the stream, if it can end. -/
def endOfStream (c : Call Response) : Option Bytes :=
  if c.up.drained ∧ helperGone c then some (text "service helper disconnected") else none

/-- Send some of the rest of a section. -/
def sendSome (c : Call Response) (rest : Bytes) (point : Bytes → CallPoint Response) (done : CallPoint Response) (count : ℕ) :
    Option (Call Response) :=
  if 0<count ∧ count ≤ rest.length then
    some {c with down := c.down.push (rest.take count),point := if rest.drop count=[] then done else point (rest.drop count)}
  else none

/-- Receive some of so many bytes. -/
def receiveSome (c : Call Response) (got : Bytes) (size : ℕ) (point : Bytes → CallPoint Response)
    (done : Bytes → Call Response → Call Response) (count : ℕ) : Option (Call Response) :=
  if 0<count ∧ got.length+count ≤ size then
    match c.up.pull count with
    | none => none
    | some (piece,up) =>
      let c := {c with up := up}
      some (if (got ++ piece).length=size then done (got ++ piece) c else {c with point := point (got ++ piece)})
  else none

/-- Frame of the request. -/
def requestFrame (c : Call Response) : ServiceHelperFrame :=
  makeServiceHelperRequest c.requestId c.request.service.length c.md5.length c.payload.length c.request.waitForServiceMs

/-- Sections of the request; an empty payload is not written. -/
def requestSections (c : Call Response) : List Bytes :=
  [c.request.service,c.md5] ++ if c.payload=[] then [] else [c.payload]

/-- Where a call stands after a section was written. -/
def afterSection : List Bytes → CallPoint Response
  | [] => .readingReady []
  | section_::later => .writing section_ later

/-- A readiness was read. -/
def readyRead (got : Bytes) (c : Call Response) : Call Response :=
  match readyError (ServiceHelperFrame.ofBytes got) c.requestId c.request.service with
  | some error => fail error c
  | none => {c with point := .deciding}

/-- A response frame was read and the call may go on. -/
def responseRead (got : Bytes) (c : Call Response) : Call Response :=
  let frame := ServiceHelperFrame.ofBytes got
  if validateServiceHelperResponse frame c.requestId=false then
    fail ⟨"invalid_service_response",.uncertain,text "ROS1 service helper returned an invalid post-commit frame"⟩ c
  else if frame.payloadBytes=0 then {c with closed := true,point := .terminating (.responded frame [])}
  else {c with point := .readingPayload frame []}

/-- The last checks before a call takes part. -/
def allow (c : Call Response) : Call Response :=
  if validServiceMd5 c.md5=false then
    fail ⟨"invalid_service_description",.permanent,text "ROS1 service description has an invalid MD5 digest"⟩ c
  else if c.request.service=[] ∨ kMaximumServiceNameBytes<c.request.service.length then
    fail ⟨"invalid_service_name",.permanent,text "ROS1 service name exceeds the helper protocol limit"⟩ c
  else {c with point := .loading}

/-- The request was serialized, or not. -/
def serialized (outcome : Except Ros1ToolsError (Bytes × Bytes)) (c : Call Response) : Call Response :=
  match outcome with
  | .error error => fail error c
  | .ok (md5,payload) =>
    if kMaximumServicePayloadBytes<payload.length then
      fail ⟨"service_request_too_large",.permanent,text "serialized ROS1 service request exceeds the helper limit"⟩ c
    else {c with md5 := md5,payload := payload,point := .checking}

/-- The helper was reaped. -/
def reaped (ending : Ending) (c : Call Response) : Call Response :=
  match ending with
  | .failed error => finish (.error error) c
  | .responded frame payload =>
    match responseError frame.status c.request.service with
    | some error => finish (.error error) c
    | none => {c with point := .decoding payload}

/-- Decode the payload of a response. -/
def decodeResponse (decoded : Decoded Response) (durationMs : ℕ) (c : Call Response) : Call Response :=
  match decoded with
  | .mismatch =>
    finish (.error ⟨"invalid_service_response",.uncertain,text "ROS1 service response length did not match its type"⟩) c
  | .response value => finish (.ok ⟨c.request.service,c.request.serviceType,value,durationMs⟩) c
  | .threw thrown => finish (.error (afterCommit thrown)) c

variable (decoding : Bytes → Bytes → Decoded Response) (maximumInFlight : ℕ)

/-- A turn of a call: what is shared afterwards, and the call. Responses are decoded by the type of the service. -/
def call (s : Shared) (c : Call Response) : CallEvent → Option (Shared × Call Response)
  | .check seen =>
    match c.point with
    | .entry => (requirePreDispatchAllowed seen c {c with point := .resolving}).map (s,·)
    | .checking => (requirePreDispatchAllowed seen c (allow c)).map (s,·)
    | .startFailed reason =>
      (requirePreDispatchAllowed seen c (fail ⟨"service_helper_unavailable",.transient,
        text "unable to start ROS1 service helper: " ++ reason⟩ c)).map (s,·)
    | .deciding =>
      (requirePreDispatchAllowed seen c {c with point := .committing (makeServiceHelperCommit c.requestId).bytes}).map (s,·)
    | .checkingResponse got => some (s,completed seen c (responseRead got c))
    | .checkingPayload frame got =>
      some (s,completed seen c {c with closed := true,point := .terminating (.responded frame got)})
    | _ => none
  | .resolved outcome =>
    match c.point with
    | .resolving => some (s,serialized outcome c)
    | _ => none
  | .load =>
    match c.point with
    | .loading => some (s,{c with point := .exchanging s.inFlight})
    | _ => none
  | .exchange spurious =>
    match c.point with
    | .exchanging current =>
      if maximumInFlight ≤ current then
        some (s,fail ⟨"service_call_busy",.resourceExhausted,text "maximum concurrent ROS1 service calls reached"⟩ c)
      else if s.inFlight=current ∧ spurious=false then
        some ({s with inFlight := current+1},{c with permit := true,point := .starting})
      else some (s,{c with point := .exchanging s.inFlight})
    | _ => none
  | .spawned failure =>
    match c.point with
    | .starting =>
      match failure with
      | some reason => some (s,{c with point := .startFailed reason})
      | none => some (s,{c with helper := some {},point := .numbering})
    | _ => none
  | .number =>
    match c.point with
    | .numbering =>
      let taken := {s with next := s.next+1}
      if s.next=0 then some (taken,c)
      else
        let c := {c with requestId := s.next}
        some (taken,{c with point := .writing (requestFrame c).bytes (requestSections c)})
    | _ => none
  | .transfer turn =>
    match c.point with
    | .writing rest later =>
      (preCommit c (some (text "service helper socket closed"))
        (sendSome c rest (fun rest => .writing rest later) (afterSection later)) turn).map (s,·)
    | .readingReady got =>
      (preCommit c (endOfStream c) (receiveSome c got frameBytes .readingReady readyRead) turn).map (s,·)
    | .committing rest =>
      (preCommit c (some (text "service helper socket closed"))
        (sendSome c rest .committing (.readingResponse [])) turn).map (s,·)
    | .readingResponse got =>
      (postCommit c (endOfStream c) (receiveSome c got frameBytes .readingResponse
        (fun got c => {c with point := .checkingResponse got})) turn).map (s,·)
    | .readingPayload frame got =>
      (postCommit c (endOfStream c) (receiveSome c got frame.payloadBytes.toNat (.readingPayload frame)
        (fun got c => {c with point := .checkingPayload frame got})) turn).map (s,·)
    | _ => none
  | .threw thrown =>
    match c.point with
    | .readingResponse _ => some (s,fail (afterCommit thrown) c)
    | .checkingResponse _ => some (s,fail (afterCommit thrown) c)
    | .readingPayload _ _ => some (s,fail (afterCommit thrown) c)
    | .checkingPayload _ _ => some (s,fail (afterCommit thrown) c)
    | _ => none
  | .reaped =>
    match c.point with
    | .terminating ending =>
      some (s,reaped ending {c with helper := c.helper.map (fun h => {h with point := .gone})})
    | _ => none
  | .decode durationMs =>
    match c.point with
    | .decoding payload => some (s,decodeResponse (decoding c.request.serviceType payload) durationMs c)
    | _ => none
  | .release =>
    match c.point with
    | .releasing outcome => some ({s with inFlight := s.inFlight-1},{c with permit := false,point := .returned outcome})
    | _ => none

end Calls

section Systems

variable {Response : Type}

/-- All calls and what they share. -/
structure System (Response : Type) where
  /-- What the calls share. -/
  shared : Shared := {}
  /-- Calls in the order of their beginnings. -/
  calls : List (Call Response) := []

/-- What happens next. -/
inductive Event where
  /-- A call begins. -/
  | begin_ (request : ServiceCallRequest)
  /-- A call takes a turn. -/
  | call (index : ℕ) (event : CallEvent)
  /-- The helper of a call takes a turn. -/
  | helper (index : ℕ) (event : HelperEvent)

variable (decoding : Bytes → Bytes → Decoded Response) (maximumInFlight : ℕ)

/-- The system after an event, if it can happen. -/
def step (s : System Response) : Event → Option (System Response)
  | .begin_ request => some {s with calls := s.calls ++ [{request := request}]}
  | .call index event =>
    match s.calls[index]? with
    | none => none
    | some c => (call decoding maximumInFlight s.shared c event).map (fun next => ⟨next.1,s.calls.set index next.2⟩)
  | .helper index event =>
    match s.calls[index]? with
    | none => none
    | some c =>
      match c.helper with
      | none => none
      | some h => (runHelper c h event).map (fun next => ⟨s.shared,s.calls.set index next⟩)

/-- The system after events in order, if they can happen. -/
def run (s : System Response) : List Event → Option (System Response)
  | [] => some s
  | event::rest => (step decoding maximumInFlight s event).bind (run · rest)

end Systems

end Ros1Adapter.ServiceHelperProtocol
