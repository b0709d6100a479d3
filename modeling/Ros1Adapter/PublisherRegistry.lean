import Mathlib.Data.Finmap
import Mathlib.Data.Int.Notation

/-!
# The publisher registry

Calls publish messages to topics and share one cached publisher for each
topic. A call selects an entry, waits, gives the entry back, and then hands
its messages over. Between these critical sections other calls run, the cache
may be cleared, and a new master may be observed. One step of a call is what it
does before another call can interfere.
-/

namespace Ros1Adapter.PublisherRegistry

/-- What identifies a publisher. -/
structure PublisherConfiguration where
  /-- Topic. -/
  topic : String
  /-- Type of its messages. -/
  messageType : String
  /-- Whether the last message is kept for new subscribers. -/
  latch : Bool
  /-- Size of the queue. -/
  queueSize : ℕ
  deriving DecidableEq

/-- A request to publish; the message itself plays no part here. -/
structure PublishRequest extends PublisherConfiguration where
  /-- Number of messages. -/
  publishCount : ℕ
  /-- Longest wait for subscribers. -/
  waitForSubscribersMs : ℕ
  deriving DecidableEq

/-- The answer to a request. -/
structure PublishResult where
  /-- Topic. -/
  topic : String
  /-- Type of the messages. -/
  messageType : String
  /-- Size of one message. -/
  serializedBytes : ℕ
  /-- Number of messages. -/
  publishedCount : ℕ
  /-- Number of subscribers at the end. -/
  subscriberCount : ℕ
  deriving DecidableEq

/-- An error of the tools. -/
structure ToolsError where
  /-- Code. -/
  code : String
  /-- Class. -/
  errorClass : String
  /-- Message. -/
  message : String
  deriving DecidableEq

/-- An exception that is not an error of the tools. -/
inductive Exception where
  /-- One with a text. -/
  | standard (what : String)
  /-- Anything else. -/
  | unknown
  deriving DecidableEq

/-- A message that mentions an exception. -/
def Exception.mention (message : String) : Exception → String
  | .standard what => message++": "++what
  | .unknown => message

/-- What a call throws. -/
inductive Failure where
  /-- An error of the tools. -/
  | tools (error : ToolsError)
  /-- Another exception. -/
  | other (exception : Exception)
  deriving DecidableEq

/-- Whether a failure leaves the outcome unknown. -/
def Failure.uncertain : Failure → Bool
  | .tools error => error.errorClass="uncertain"
  | .other _ => false

/-- A permanent error. -/
def permanentError (code message : String) : Failure := .tools ⟨code,"permanent",message⟩

/-- A transient error. -/
def transientError (code message : String) : Failure := .tools ⟨code,"transient",message⟩

/-- An error with an unknown outcome. -/
def uncertainError (code message : String) : Failure := .tools ⟨code,"uncertain",message⟩

/-- A cached publisher. -/
structure Entry where
  /-- Type of its messages. -/
  messageType : String
  /-- Whether it keeps the last message. -/
  latch : Bool
  /-- Size of its queue. -/
  queueSize : ℕ
  /-- Whether there is a native publisher. -/
  publisher : Bool
  /-- Calls that selected it and did not give it back. -/
  activeCalls : ℕ
  /-- Whether a call went on to hand messages over. -/
  nativeDispatchCommitted : Bool
  /-- Whether it was declared. -/
  declared : Bool
  deriving DecidableEq

/-- What all calls share. -/
structure Registry where
  /-- The table of entries by topic. -/
  entries : Finmap fun _ : String => ℕ
  /-- The entries that were ever made. -/
  store : ℕ → Entry
  /-- Their number. -/
  count : ℕ
  /-- The master process that the watcher sees. -/
  observedMasterPid : ℤ

/-- Parameters of a registry. -/
structure Settings where
  /-- Largest number of entries. -/
  maximumPublishers : ℕ
  /-- The master process to which it is bound. -/
  masterGeneration : ℤ

/-- What a call was made for. -/
inductive Job where
  /-- Publish messages. -/
  | publish (request : PublishRequest)
  /-- Declare a publisher. -/
  | declare (configuration : PublisherConfiguration)
  deriving DecidableEq

/-- Where a call stands. -/
inductive Phase where
  /-- Before the first check. -/
  | entering
  /-- Before the observed master is read. -/
  | loading
  /-- Before it is compared. -/
  | comparing (current : ℤ)
  /-- Before the message is made. -/
  | preparing
  /-- Before an entry is selected. -/
  | selecting (bytes : ℕ)
  /-- An entry is selected. -/
  | holding (entry bytes : ℕ)
  /-- Waiting for subscribers. -/
  | waiting (entry bytes : ℕ)
  /-- Before the last checks. -/
  | ready (entry bytes : ℕ)
  /-- Before the entry is given back after a failure. -/
  | releasing (entry : ℕ) (failure : Failure)
  /-- Before the entry is given back for the dispatch. -/
  | committing (entry bytes : ℕ)
  /-- At the head of the loop. -/
  | dispatching (index bytes : ℕ)
  /-- Waiting for the next message's time. -/
  | pausing (index bytes : ℕ)
  /-- Before a message is handed over. -/
  | sending (index bytes : ℕ)
  /-- After a message was handed over. -/
  | sent (index bytes : ℕ)
  /-- After the loop. -/
  | completing (bytes : ℕ)
  /-- The end. -/
  | finished (outcome : Except Failure (Option PublishResult))

/-- The entry that a call has selected and not given back. -/
def Phase.entry : Phase → Option ℕ
  | .holding entry _ | .waiting entry _ | .ready entry _ | .releasing entry _ | .committing entry _ => some entry
  | _ => none

/-- A call. -/
structure Call where
  /-- What it was made for. -/
  job : Job
  /-- Where it stands. -/
  phase : Phase
  /-- Number of messages handed to the native publisher, counted when the hand-over begins. -/
  handed : ℕ

/-- What a call finds around it in one step. -/
structure World where
  /-- Whether cancellation is requested. -/
  cancelled : Bool
  /-- Whether the deadline has passed. -/
  expired : Bool
  /-- Exception of something that is called around the hand-over. -/
  throws : Option Exception
  /-- Exception of the hand-over. -/
  publishThrows : Option Exception
  /-- The message's size when it is serialized. -/
  prepared : Except Failure (Option ℕ)
  /-- Whether there is a native publisher when a topic is advertised. -/
  advertised : Except Failure Bool
  /-- Number of subscribers. -/
  subscribers : ℕ
  /-- Whether the time to wait is over. -/
  waited : Bool
  /-- Whether ROS runs. -/
  ok : Bool

section Checks

/-- Whether a call may still go on before anything is handed over. -/
def requireDispatchAllowed (w : World) : Option Failure :=
  match w.throws with
  | some exception => some (.other exception)
  | none =>
    if w.cancelled then
      some (.tools ⟨"publish_cancelled","cancelled","ROS1 topic publish was cancelled before dispatch"⟩)
    else if w.expired then
      some (.tools ⟨"publish_deadline_elapsed","deadline","ROS1 topic publish deadline elapsed before dispatch"⟩)
    else none

/-- Whether a call may still go on afterwards. -/
def requireContinuationAllowed (w : World) : Option Failure :=
  match w.throws with
  | some exception =>
    some (uncertainError "publish_completion_failed"
      (exception.mention "ROS1 topic publish committed but completion failed"))
  | none =>
    if w.cancelled then
      some (uncertainError "publish_cancelled_after_dispatch" "ROS1 topic publish was cancelled after native dispatch")
    else if w.expired then
      some (uncertainError "publish_deadline_after_dispatch"
        "ROS1 topic publish crossed its deadline after native dispatch")
    else none

/-- What a job is about. -/
def Job.configuration : Job → PublisherConfiguration
  | .publish request => request.toPublisherConfiguration
  | .declare configuration => configuration

/-- Whether an entry was made with another configuration. -/
def Entry.conflicts (entry : Entry) (configuration : PublisherConfiguration) : Bool :=
  entry.messageType≠configuration.messageType || entry.latch≠configuration.latch ||
    entry.queueSize≠configuration.queueSize

/-- Change an entry. -/
def Registry.modify (s : Registry) (entry : ℕ) (f : Entry → Entry) : Registry :=
  {s with store := Function.update s.store entry (f (s.store entry))}

/-- Find the entry of a topic, or make it. -/
def select (settings : Settings) (w : World) (configuration : PublisherConfiguration) (s : Registry) :
    Except Failure (Registry × ℕ) :=
  match s.entries.lookup configuration.topic with
  | none =>
    if settings.maximumPublishers ≤ s.entries.keys.card then
      .error (.tools ⟨"publisher_capacity_exhausted","resource-exhausted",
        "maximum cached ROS1 publishers reached; replace or stop the Adapter instance before publishing another topic"⟩)
    else
      match w.advertised with
      | .error failure => .error failure
      | .ok publisher =>
        let entry : Entry :=
          ⟨configuration.messageType,configuration.latch,configuration.queueSize,publisher,0,false,false⟩
        .ok ({s with
          entries := s.entries.insert configuration.topic s.count
          store := Function.update s.store s.count entry
          count := s.count+1},s.count)
  | some entry =>
    if (s.store entry).conflicts configuration then
      .error (permanentError "publisher_configuration_conflict"
        ("topic '"++configuration.topic++"' is already cached with a different type, latch, or queueSize"))
    else .ok (s,entry)

/-- Give an entry back; it is dropped when nothing keeps it. -/
def release (topic : String) (entry : ℕ) (committed : Bool) (s : Registry) : Registry :=
  let t := s.modify entry fun e =>
    {e with
      activeCalls := e.activeCalls-1
      nativeDispatchCommitted := e.nativeDispatchCommitted || committed}
  let after := t.store entry
  if s.entries.lookup topic=some entry ∧ after.activeCalls=0 ∧ after.nativeDispatchCommitted=false ∧
      after.declared=false then {t with entries := t.entries.erase topic}
  else t

end Checks

section Steps

/-- End a call with a failure. -/
def Call.fail (c : Call) (failure : Failure) : Call := {c with phase := .finished (.error failure)}

/-- Go on, unless a check fails. -/
def Call.continue (c : Call) (check : Option Failure) (onFailure : Failure → Phase) (next : Phase) : Call :=
  match check with
  | some failure => {c with phase := onFailure failure}
  | none => {c with phase := next}

/-- One step of publishing after the entry was given back. -/
def dispatch (w : World) (request : PublishRequest) (c : Call) : Call :=
  match c.phase with
  | .dispatching index bytes =>
    if request.publishCount ≤ index then {c with phase := .completing bytes}
    else if 0 < index then {c with phase := .pausing index bytes}
    else {c with phase := .sending index bytes}
  | .pausing index bytes =>
    if w.waited then {c with phase := .sending index bytes}
    else c.continue (requireContinuationAllowed w) (fun failure => .finished (.error failure)) (.pausing index bytes)
  | .sending index bytes =>
    if !w.ok then
      c.fail (uncertainError "ros_shutdown_after_dispatch"
        "ROS1 shut down after one or more messages may have been published")
    else
      match requireContinuationAllowed w with
      | some failure => c.fail failure
      | none =>
        {c with
          phase := match w.publishThrows with
            | some exception => .finished (.error (uncertainError "publish_dispatch_failed"
                (exception.mention "ROS1 topic publish may have been dispatched")))
            | none => .sent index bytes
          handed := c.handed+1}
  | .sent index bytes =>
    c.continue (requireContinuationAllowed w) (fun failure => .finished (.error failure)) (.dispatching (index+1) bytes)
  | .completing bytes =>
    match w.throws with
    | some exception =>
      c.fail (uncertainError "publish_completion_failed"
        (exception.mention "ROS1 topic publish committed but completion failed"))
    | none =>
      {c with
        phase := .finished (.ok (some
          ⟨request.topic,request.messageType,bytes,request.publishCount,w.subscribers⟩))}
  | _ => c

/-- One step of publishing while an entry is held, up to giving it back. -/
def hold (w : World) (request : PublishRequest) (entry : ℕ) (publisher : Bool) (c : Call) : Call :=
  match c.phase with
  | .holding _ bytes =>
    if !publisher then
      {c with
        phase := .releasing entry (transientError "publisher_unavailable"
          ("ROS1 publisher is not available for topic '"++request.topic++"'"))}
    else if 0 < request.waitForSubscribersMs then {c with phase := .waiting entry bytes}
    else {c with phase := .ready entry bytes}
  | .waiting _ bytes =>
    if w.subscribers=0 ∧ w.ok ∧ !w.waited then
      c.continue (requireDispatchAllowed w) (.releasing entry) (.waiting entry bytes)
    else
      c.continue (requireDispatchAllowed w) (.releasing entry)
        (if w.subscribers=0 then .releasing entry (transientError "subscriber_wait_timeout"
            ("no subscriber connected to topic '"++request.topic++"' before waitForSubscribersMs elapsed"))
          else .ready entry bytes)
  | .ready _ bytes =>
    if !w.ok then
      {c with
        phase := .releasing entry (transientError "ros_shutdown"
          "ROS1 is shutting down before the message can be published")}
    else c.continue (requireDispatchAllowed w) (.releasing entry) (.committing entry bytes)
  | _ => c

/-- One step of a call. -/
def advance (settings : Settings) (w : World) (c : Call) (s : Registry) : Registry × Call :=
  match c.phase with
  | .entering => (s,c.continue (requireDispatchAllowed w) (fun failure => .finished (.error failure)) .loading)
  | .loading =>
    if s.observedMasterPid ≤ 0 then
      (s,c.fail (transientError "ros_master_generation_unavailable" "ROS1 master process generation is invalid"))
    else (s,{c with phase := .comparing s.observedMasterPid})
  | .comparing current =>
    if settings.masterGeneration≠current then
      ({s with entries := ∅},c.fail (transientError "ros_master_generation_changed"
        "ROS1 master process generation changed; this Adapter process is bound to the previous master and must be recycled"))
    else
      match c.job with
      | .publish _ => (s,{c with phase := .preparing})
      | .declare _ => (s,{c with phase := .selecting 0})
  | .preparing =>
    match w.prepared with
    | .error failure => (s,c.fail failure)
    | .ok none => (s,c.fail (permanentError "message_serialization_failed" "dynamic ROS1 serializer returned no message"))
    | .ok (some bytes) => (s,{c with phase := .selecting bytes})
  | .selecting bytes =>
    match select settings w c.job.configuration s with
    | .error failure => (s,c.fail failure)
    | .ok (t,entry) =>
      match c.job with
      | .publish _ =>
        (t.modify entry fun e => {e with activeCalls := e.activeCalls+1},{c with phase := .holding entry bytes})
      | .declare _ => (t.modify entry fun e => {e with declared := true},{c with phase := .finished (.ok none)})
  | .releasing entry failure => (release c.job.configuration.topic entry false s,c.fail failure)
  | .committing entry bytes =>
    (release c.job.configuration.topic entry true s,{c with phase := .dispatching 0 bytes})
  | .finished _ => (s,c)
  | phase =>
    match c.job with
    | .declare _ => (s,c)
    | .publish request =>
      match phase.entry with
      | some entry => (s,hold w request entry (s.store entry).publisher c)
      | none => (s,dispatch w request c)

/-- A registry with its calls. -/
structure State where
  /-- What the calls share. -/
  registry : Registry
  /-- The calls that were ever made. -/
  calls : List Call

/-- What happens next. -/
inductive Event where
  /-- A call to publish begins. -/
  | publish (request : PublishRequest)
  /-- A call to declare begins. -/
  | declare (configuration : PublisherConfiguration)
  /-- The table is cleared. -/
  | clear
  /-- The watcher sees a master process. -/
  | observe (pid : ℤ)
  /-- A call makes a step. -/
  | advance (call : ℕ) (w : World)

/-- The next state. -/
def State.step (settings : Settings) (s : State) : Event → State
  | .publish request => {s with calls := s.calls ++ [⟨.publish request,.entering,0⟩]}
  | .declare configuration => {s with calls := s.calls ++ [⟨.declare configuration,.loading,0⟩]}
  | .clear => {s with registry := {s.registry with entries := ∅}}
  | .observe pid => {s with registry := {s.registry with observedMasterPid := pid}}
  | .advance call w =>
    match s.calls[call]? with
    | none => s
    | some c =>
      let next := PublisherRegistry.advance settings w c s.registry
      ⟨next.1,s.calls.set call next.2⟩

/-- A registry without entries and calls. -/
def State.start (settings : Settings) : State :=
  ⟨⟨∅,fun _ => ⟨"",false,0,false,0,false,false⟩,0,settings.masterGeneration⟩,[]⟩

end Steps

end Ros1Adapter.PublisherRegistry
