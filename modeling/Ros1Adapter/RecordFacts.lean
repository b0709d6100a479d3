import Mathlib
import Ros1Adapter.ActionRules
import Ros1Adapter.SceneJson

/-!
# Facts kept beside a recording

The recorder keeps a list of facts next to its bags: what producers report to
have applied, what it samples itself, and what it could not observe. Appending
a producer's report also ends the validity of that producer's previous report,
through a saved reference. The list is bounded, and a seal closes it.
-/

namespace Ros1Adapter.RecordFacts

open ActionRules SceneJson

/-- A Python exception that the observer handles. -/
structure Failure where
  /-- Name of the exception's class. -/
  type : String
  /-- Its text. -/
  text : String
  deriving DecidableEq

/-- The exception most checks raise. -/
def valueError (text : String) : Failure := ⟨"ValueError",text⟩

/-- Largest payload of one fact. -/
def maxBytes : ℕ := 2^20

/-- Most facts of one recording. -/
def maxEvents : ℕ := 4096

/-- Largest sum of all stored payloads. -/
def maxTotalBytes : ℕ := 64*2^20

/-- Most messages that wait for the observer. -/
def maxMessages : ℕ := 256

/-- Library functions of the recorder's language. -/
structure Library where
  /-- The JSON reader, given what to do with a constant such as `NaN` and with the pairs of an object. A text with a
  lone surrogate is refused, as the writer refuses it later. -/
  loads : (String → Except Failure Json) → (List (String × Json) → Except Failure Json) → String → Except Failure Json
  /-- The JSON writer with sorted keys, which refuses numbers that are not finite. -/
  encoded : Json → Except Failure (List UInt8)
  /-- Hexadecimal digest of a payload. -/
  sha256 : List UInt8 → String

/-- Constants that JSON does not have are refused. -/
def rejectConstant (_value : String) : Except Failure Json := .error (valueError "non-finite-producer-json")

/-- Objects with a repeated name are refused. -/
def uniqueObject (pairs : List (String × Json)) : Except Failure Json :=
  let rec collect (result : List (String × Json)) : List (String × Json) → Except Failure Json
    | [] => .ok (.object result)
    | (name,item)::rest =>
      if (result.lookup name).isSome then .error (valueError "duplicate-producer-key")
      else collect (result ++ [(name,item)]) rest
  collect [] pairs

/-- Identity of a producer. -/
structure Key where
  /-- Kind of the source. -/
  kind : String
  /-- Name of the source. -/
  id : String
  /-- One life of the source. -/
  instanceId : String
  deriving DecidableEq

/-- What a producer reports to have done. -/
inductive Transition where
  /-- Values took effect. -/
  | applied
  /-- The values no longer have effect. -/
  | stopped
  deriving DecidableEq

/-- The word of a transition. -/
def Transition.text : Transition → String
  | .applied => "applied"
  | .stopped => "stopped"

/-- How a report follows the ones before it. -/
inductive Continuity where
  /-- The producer's first report. -/
  | firstObserved
  /-- The first report seen, after others that were not. -/
  | priorEventsUnobserved
  /-- Reports are missing since the previous one. -/
  | sequenceGap
  /-- The next report. -/
  | consecutive
  /-- The next report, with an earlier monotonic time. -/
  | producerClockRegression
  /-- The next report, with an earlier ROS time. -/
  | rosClockRegression
  deriving DecidableEq

/-- The words of a continuity. -/
def Continuity.text : Continuity → String
  | .firstObserved => "first-observed"
  | .priorEventsUnobserved => "prior-events-unobserved"
  | .sequenceGap => "sequence-gap"
  | .consecutive => "consecutive-producer-reports"
  | .producerClockRegression => "producer-clock-regression"
  | .rosClockRegression => "ros-clock-regression"

/-- Why a validity ended. -/
inductive EndReason where
  /-- No end was seen. -/
  | notObserved
  /-- The next report ended it. -/
  | next (event : Transition)
  /-- Later reports do not connect to it. -/
  | broken (continuity : Continuity)
  deriving DecidableEq

/-- The words of an end. -/
def EndReason.text : EndReason → String
  | .notObserved => "end-not-observed"
  | .next event => event.text
  | .broken continuity => continuity.text

/-- A stored payload. -/
structure Content where
  /-- Path below the recording. -/
  relativePath : String
  /-- Digest of the payload. -/
  sha256 : String
  /-- Number of bytes. -/
  sizeBytes : ℕ
  deriving DecidableEq

/-- The time during which reported values had effect. -/
structure Validity where
  /-- First time. -/
  start : Json
  /-- Last time, when it is known. -/
  finish : Option Json
  /-- What the times rest on. -/
  basis : String
  /-- Why it ended. -/
  endReason : EndReason

/-- The fields of a message that the checks accepted. -/
structure Message where
  /-- Who reports. -/
  key : Key
  /-- The source as it was sent. -/
  source : Json
  /-- Number of the report. -/
  sequence : ℤ
  /-- What happened. -/
  event : Transition
  /-- When it took effect, in three clocks. -/
  effectiveAt : Json

/-- A producer's report as a fact. -/
structure Report extends Message where
  /-- When the recorder received it. -/
  observedAt : Json
  /-- The stored message. -/
  content : Content
  /-- How it follows the previous report. -/
  continuity : Continuity
  /-- When its values had effect; a stop has none. -/
  validity : Option Validity

/-- The content of one fact. -/
inductive Body where
  /-- A report of a producer. -/
  | producer (report : Report)
  /-- A sample taken by the recorder. -/
  | snapshot (kind source : String) (observedAt : Json) (content : Content) (validity : String)
  /-- Something that could not be observed. -/
  | unavailable (kind source : String) (observedAt : Json) (reason : String)

/-- One fact. -/
structure Event where
  /-- Its number. -/
  ordinal : ℕ
  /-- Its content. -/
  body : Body

/-- A message on its way to the observer. -/
inductive Queued where
  /-- A text from the fact topic. -/
  | producer (source text : String) (observed : Json)
  /-- A subscription that failed. -/
  | unavailable (source reason : String)
  /-- A sample of another topic. -/
  | observation (kind source : String) (value observed : Json)

/-- The facts as they are written to the manifest. -/
structure Facts where
  /-- When observation began. -/
  observationStartedAt : Json
  /-- When it ended. -/
  observationEndedAt : Option Json
  /-- Whether it still runs. -/
  status : String
  /-- The facts in order. -/
  events : List Event
  /-- Facts that found no place. -/
  droppedEvents : ℕ
  /-- Messages left at the end. -/
  pendingAtClose : Option ℕ
  /-- Whether a thread was still running at the end. -/
  observerStillStopping : Option Bool

/-- The observer's state. -/
structure State where
  /-- Whether messages are no longer accepted. -/
  closed : Bool
  /-- Whether facts are no longer accepted. -/
  isSealed : Bool
  /-- Messages that wait, oldest first. -/
  messages : List Queued
  /-- Digest of the last sample of a source. -/
  observed : String × String → Option String
  /-- Last reason why a source could not be observed. -/
  missing : String × String → Option String
  /-- The place of each producer's last report. -/
  producers : Key → Option ℕ
  /-- Number of changes. -/
  revision : ℕ
  /-- The last revision that was written. -/
  persisted : Option ℕ
  /-- Facts and messages that found no place. -/
  dropped : ℕ
  /-- Sum of the stored payloads. -/
  storedBytes : ℕ
  /-- Digests of the stored payloads. -/
  storedHashes : List String
  /-- Their paths. -/
  storedPaths : List (String × String)
  /-- The facts that will be written. -/
  facts : Facts
  /-- The facts that were written. -/
  document : Option Facts

/-- The facts in order. -/
def State.events (s : State) : List Event := s.facts.events

/-- Replace the list of facts. -/
def State.withEvents (s : State) (events : List Event) : State := {s with facts := {s.facts with events := events}}

/-- An observer that starts at a time. -/
def newFacts (clock : Json) : State where
  closed := false
  isSealed := false
  messages := []
  observed := fun _ => none
  missing := fun _ => none
  producers := fun _ => none
  revision := 0
  persisted := none
  dropped := 0
  storedBytes := 0
  storedHashes := []
  storedPaths := []
  facts := ⟨clock,none,"observing",[],0,none,none⟩
  document := none

/-- An operation of the observer. -/
abbrev Observer (α : Type) : Type := EStateM Failure State α

/-- What the file system does with a payload. -/
inductive Disk where
  /-- The file is new and was written. -/
  | created
  /-- The file is there already. -/
  | existing (regular : Bool) (data : List UInt8)
  /-- The directory of the payloads is something else. -/
  | notDirectory
  /-- A call raised. -/
  | raised (failure : Failure)

/-- Outcome of keeping one payload. -/
def Disk.keep (disk : Disk) (data : List UInt8) : Except Failure Unit :=
  match disk with
  | .created => .ok ()
  | .existing regular found =>
    if regular=false then .error (valueError "fact-blob-not-regular")
    else if found.take (maxBytes+1)≠data then .error (valueError "fact-blob-conflict")
    else .ok ()
  | .notDirectory => .error (valueError "fact-directory-not-regular")
  | .raised failure => .error failure

/-- Letters that stay in a label. -/
def labelCharacter (c : Char) : Bool := c.isAlphanum || c== '_'

/-- Every run of other letters becomes one dash. -/
def dashed : Bool → List Char → List Char
  | _,[] => []
  | inRun,c::rest =>
    if labelCharacter c then c::dashed false rest
    else if inRun then dashed true rest else ('-')::dashed true rest

/-- Remove dashes at both ends. -/
def stripDashes (text : List Char) : List Char :=
  ((text.dropWhile (fun c => c==('-'))).reverse.dropWhile (fun c => c==('-'))).reverse

/-- The label of a payload's file. -/
def cleanLabel (label : String) : String :=
  let short := (stripDashes (dashed false label.toList)).take 64
  if short=[] then "fact" else String.ofList short

/-- The ending of a payload's file. -/
def cleanSuffix (suffix : String) : String :=
  match suffix.toList with
  | '.'::rest => if 1 ≤ rest.length ∧ rest.length ≤ 8 ∧ rest.all Char.isAlphanum then suffix else ".data"
  | _ => ".data"

/-- A number with at least six digits. -/
def sixDigits (n : ℕ) : String :=
  let digits := (toString n).toList
  String.ofList (List.replicate (6-digits.length) ('0') ++ digits)

/-- Keep a payload, within the bounds. -/
def store (lib : Library) (disk : Disk) (data : List UInt8) (label suffix : String) : Observer Content := do
  if maxBytes < data.length then throw (valueError "fact-payload-too-large")
  let digest := lib.sha256 data
  let s ← get
  if digest∉s.storedHashes ∧ maxTotalBytes < s.storedBytes+data.length then
    throw (valueError "fact-byte-budget-exhausted")
  let relative := (s.storedPaths.lookup digest).getD
    ("record-facts/" ++ cleanLabel label ++ "-revision-" ++ sixDigits (s.storedHashes.length+1) ++ cleanSuffix suffix)
  ofResult (disk.keep data)
  if digest∉s.storedHashes then
    modify fun s => {s with
      storedHashes := digest::s.storedHashes
      storedPaths := (digest,relative)::s.storedPaths
      storedBytes := s.storedBytes+data.length}
  pure ⟨relative,digest,data.length⟩

/-- Add a fact unless the list is sealed or full; the answer is its place. -/
def State.append (s : State) (body : Body) : State × Option ℕ :=
  if s.isSealed then (s,none)
  else if maxEvents ≤ s.events.length then ({s with dropped := s.dropped+1,revision := s.revision+1},none)
  else
    ({s.withEvents (s.events ++ [⟨s.events.length,body⟩]) with revision := s.revision+1},some s.events.length)

/-- Record a sample unless it is the same as the last one. -/
def observation (lib : Library) (disk : Disk) (kind source : String) (value observed : Json) : Observer Unit := do
  let data ← ofResult (lib.encoded value)
  let digest := lib.sha256 data
  let s ← get
  if s.observed (kind,source)=some digest then return ()
  let content ← store lib disk data (kind ++ "-" ++ source) ".json"
  modify fun s =>
    match s.append (.snapshot kind source observed content "observation-only; between-sample changes are unknown") with
    | (t,none) => t
    | (t,some _) => {t with observed := Function.update t.observed (kind,source) (some digest)}

/-- Record that a source could not be observed unless the reason is the same as before. -/
def State.unavailable (s : State) (kind source reason : String) (clock : Json) : State :=
  if s.missing (kind,source)=some reason then s
  else
    match s.append (.unavailable kind source clock reason) with
    | (t,none) => t
    | (t,some _) => {t with
        missing := Function.update t.missing (kind,source) (some reason)
        observed := Function.update t.observed (kind,source) none}

/-- What reading a declared file gave. -/
inductive FileRead where
  /-- A call raised an operating system error of a class. -/
  | raised (type : String)
  /-- The file was open. -/
  | opened (regular : Bool) (size : ℕ) (data : List UInt8) (changed : Bool)

/-- The bytes of a declared file, or why they do not count. -/
def FileRead.data (read : FileRead) : Except String (List UInt8) :=
  match read with
  | .raised type => .error type
  | .opened regular size data changed =>
    if regular=false then .error "not-regular"
    else if maxBytes < size then .error "too-large"
    else if maxBytes < data.length then .error "too-large"
    else if changed then .error "changed-during-read"
    else .ok data

/-- Why an attempt failed: the text of a failed check, or the class of another error. -/
def reasonOf (failure : Failure) : String := if failure.type="ValueError" then failure.text else failure.type

/-- Record the bytes of a declared file, or why there are none. -/
def file (lib : Library) (read : FileRead) (disk : Disk) (kind source suffix : String) (clock : Json) (s : State) :
    State :=
  match read.data with
  | .error reason => s.unavailable kind source reason clock
  | .ok data =>
    let digest := lib.sha256 data
    if s.observed (kind,source)=some digest then s
    else
      match store lib disk data (kind ++ "-" ++ source) suffix s with
      | .error failure t => t.unavailable kind source (reasonOf failure) clock
      | .ok content t =>
        match t.append (.snapshot kind source clock content "file-bytes-observed; consumer-load-unknown") with
        | (u,none) => u
        | (u,some _) => {u with
            observed := Function.update u.observed (kind,source) (some digest)
            missing := Function.update u.missing (kind,source) none}

/-- A text of one to thirty digits. -/
def isTime (text : String) : Bool := 1 ≤ text.length && text.length ≤ 30 && text.toList.all Char.isDigit

/-- The number that digits spell. -/
def intOf (text : String) : ℕ := text.toList.foldl (fun n c => 10*n+(c.toNat-48)) 0

/-- A text in an object. -/
def textAt (value : Json) (name : String) : Option String :=
  match value.member name with
  | some (.string text) => some text
  | _ => none

/-- One reading of a clock. -/
def timeAt (clock : Json) (name : String) : ℕ := intOf ((textAt clock name).getD "")

/-- A name that identifies a source. -/
def nameAt (source : Json) (name : String) : Except Failure String :=
  match textAt source name with
  | some text => if text="" ∨ 512 < text.length then .error (valueError "invalid-producer-identity") else .ok text
  | none => .error (valueError "invalid-producer-identity")

/-- A reading of a clock that is well formed. -/
def checkTime (clock : Json) (name : String) : Except Failure Unit :=
  match textAt clock name with
  | some text => if isTime text then .ok () else .error (valueError "invalid-producer-clock")
  | none => .error (valueError "invalid-producer-clock")

/-- Whether a member is an object. -/
def objectAt (value : Json) (name : String) : Bool :=
  match value.member name with
  | some (.object _) => true
  | _ => false

/-- The transition that a message names. -/
def transitionAt (value : Json) : Option Transition :=
  if textAt value "event"=some "applied" then some .applied
  else if textAt value "event"=some "stopped" then some .stopped
  else none

/-- The checks of a message, and the fields they accept. -/
def validateProducer (lib : Library) (value : Json) : Except Failure Message := do
  match value.member "schemaVersion" with
  | some (.integer 1) => pure ()
  | _ => throw (valueError "unsupported-producer-schema")
  let source := value.valueOr "source" .null
  let id ← nameAt source "id"
  let instanceId ← nameAt source "instanceId"
  let kind ← nameAt source "kind"
  let sequence ← match value.member "sequence" with
    | some (.integer n) =>
      if n < 1 ∨ 9007199254740991 < n then throw (valueError "invalid-producer-sequence") else pure n
    | _ => throw (valueError "invalid-producer-sequence")
  let event ← match transitionAt value with
    | some event =>
      if textAt value "evidence"≠some "producer-applied" then throw (valueError "invalid-producer-evidence")
      else pure event
    | none => throw (valueError "invalid-producer-evidence")
  let clock := value.valueOr "effectiveAt" .null
  checkTime clock "rosTimeNs"
  checkTime clock "unixTimeNs"
  checkTime clock "monotonicTimeNs"
  if objectAt value "values"=false ∨ objectAt value "provenance"=false then
    throw (valueError "missing-producer-values-or-provenance")
  let _ ← lib.encoded value
  pure ⟨⟨kind,id,instanceId⟩,source,sequence,event,clock⟩

/-- Read a text from the fact topic. -/
def readMessage (lib : Library) (text : String) : Except Failure Message := do
  if maxBytes < text.toUTF8.size then throw (valueError "fact-payload-too-large")
  let value ← lib.loads rejectConstant uniqueObject text
  validateProducer lib value

/-- The report at a place of the list. -/
def reportAt (events : List Event) (place : ℕ) : Option Report :=
  match events[place]? with
  | some ⟨_,.producer report⟩ => some report
  | _ => none

/-- A producer's last report and its place. -/
def State.previous (s : State) (key : Key) : Option (ℕ × Report) :=
  match s.producers key with
  | some place => (reportAt s.events place).map (fun report => (place,report))
  | none => none

/-- How a later message follows a report. -/
def continuityAfter (before after : Message) : Continuity :=
  if after.sequence=before.sequence+1 then
    if timeAt after.effectiveAt "monotonicTimeNs" < timeAt before.effectiveAt "monotonicTimeNs" then
      .producerClockRegression
    else if timeAt after.effectiveAt "rosTimeNs" < timeAt before.effectiveAt "rosTimeNs" then .rosClockRegression
    else .consecutive
  else .sequenceGap

/-- How a message follows what was seen of its producer. -/
def continuityOf (previous : Option (ℕ × Report)) (message : Message) : Continuity :=
  match previous with
  | some (_,before) => continuityAfter before.toMessage message
  | none => if message.sequence=1 then .firstObserved else .priorEventsUnobserved

/-- A validity whose end is not known. -/
def openValidity (message : Message) : Validity :=
  ⟨message.effectiveAt,none,"producer-reported-transition",.notObserved⟩

/-- The previous report's validity after a message. -/
def endValidity (message : Message) (continuity : Continuity) (validity : Validity) : Validity :=
  if continuity=.consecutive then {validity with finish := some message.effectiveAt,endReason := .next message.event}
  else {validity with endReason := .broken continuity}

/-- Change the report at a place. -/
def editReport (events : List Event) (place : ℕ) (edit : Report → Report) : List Event :=
  events.modify place fun event =>
    match event with
    | ⟨ordinal,.producer report⟩ => ⟨ordinal,.producer (edit report)⟩
    | other => other

/-- A new report, with its end not known. -/
def newReport (message : Message) (content : Content) (observed : Json) (previous : Option (ℕ × Report)) : Report :=
  ⟨message,observed,content,continuityOf previous message,some (openValidity message)⟩

/-- End the validity of the previous report. -/
def endPrevious (events : List Event) (message : Message) (previous : Option (ℕ × Report)) : List Event :=
  match previous with
  | some (last,before) =>
    if before.event=.applied then
      editReport events last fun r =>
        {r with validity := r.validity.map (endValidity message (continuityOf previous message))}
    else events
  | none => events

/-- The facts once a message is added at a place: the previous report ends, and a stop has no validity. -/
def settle (events : List Event) (place : ℕ) (message : Message) (previous : Option (ℕ × Report)) : List Event :=
  if message.event=.stopped then
    editReport (endPrevious events message previous) place fun r => {r with validity := none}
  else endPrevious events message previous

/-- The part of a report's recording that holds the lock. -/
def State.record (s : State) (message : Message) (content : Content) (observed : Json)
    (previous : Option (ℕ × Report)) : State :=
  match s.append (.producer (newReport message content observed previous)) with
  | (t,none) => t
  | (t,some place) =>
    {t.withEvents (settle t.events place message previous) with
      producers := Function.update t.producers message.key (some place)}

/-- Record a text from the fact topic. -/
def producer (lib : Library) (disk : Disk) (text : String) (observed : Json) : Observer Unit := do
  let message ← ofResult (readMessage lib text)
  let content ← store lib disk text.toUTF8.data.toList ("application-" ++ message.key.kind) ".json"
  let s ← get
  match s.previous message.key with
  | some (place,before) =>
    if message.sequence=before.sequence ∧ content.sha256=before.content.sha256 then pure ()
    else if message.sequence ≤ before.sequence then throw (valueError "producer-sequence-replay-or-conflict")
    else modify fun s => s.record message content observed (some (place,before))
  | none => modify fun s => s.record message content observed none

/-- The source of a queued message. -/
def Queued.source : Queued → String
  | .producer source _ _ => source
  | .unavailable source _ => source
  | .observation _ source _ _ => source

/-- Work on one message. -/
def handle (lib : Library) (disk : Disk) (clock : Json) : Queued → Observer Unit
  | .producer _ text observed => producer lib disk text observed
  | .unavailable source reason => modify fun s => s.unavailable "observer" source reason clock
  | .observation kind source value observed => observation lib disk kind source value observed

/-- Take one message and work on it; an exception becomes a fact. -/
def processMessage (lib : Library) (disk : Disk) (clock : Json) (s : State) : State :=
  match s.messages with
  | [] => s
  | message::rest =>
    match handle lib disk clock message {s with messages := rest} with
    | .ok _ t => t
    | .error failure t =>
      t.unavailable "observer" message.source
        (failure.type ++ ":" ++ String.ofList (failure.text.toList.take 200)) clock

/-- Accept a message unless the observer is closing or too many wait. -/
def enqueue (s : State) (message : Queued) : State :=
  if s.closed then s
  else if s.messages.length < maxMessages then {s with messages := s.messages ++ [message]}
  else {s with dropped := s.dropped+1,revision := s.revision+1}

/-- What asking for a parameter gave. -/
inductive ParameterRead where
  /-- A call raised an exception of a class. -/
  | raised (type : String)
  /-- The parameter is not there. -/
  | unset
  /-- Its value. -/
  | found (value : Json)

/-- Record a parameter, or why there is none. -/
def parameter (lib : Library) (read : ParameterRead) (disk : Disk) (name : String) (clock : Json) (s : State) : State :=
  match read with
  | .raised type => s.unavailable "parameter" name type clock
  | .unset => s.unavailable "parameter" name "parameter-unavailable" clock
  | .found value =>
    match observation lib disk "parameter" name value clock s with
    | .ok _ t => {t with missing := Function.update t.missing ("parameter",name) none}
    | .error failure t => t.unavailable "parameter" name failure.type clock

/-- Write the facts unless nothing changed. -/
def snapshot (s : State) : State :=
  if s.persisted=some s.revision then s
  else
    let facts := {s.facts with droppedEvents := s.dropped}
    {s with facts := facts,document := some facts,persisted := some s.revision}

/-- The end of observation, under the lock, with its last snapshot. -/
def sealFacts (clock : Json) (stillRunning : Bool) (s : State) : State :=
  snapshot {s with
    isSealed := true
    revision := s.revision+1
    facts := {s.facts with
      status := "closed"
      observationEndedAt := some clock
      pendingAtClose := some s.messages.length
      observerStillStopping := some stillRunning}}

/-- What can happen to an observer, in any order. -/
inductive Action where
  /-- A callback hands over a message. -/
  | enqueue (message : Queued)
  /-- The observer's thread works on one message. -/
  | process (disk : Disk) (clock : Json)
  /-- It reads a declared file. -/
  | file (read : FileRead) (disk : Disk) (kind source suffix : String) (clock : Json)
  /-- It asks for a declared parameter. -/
  | parameter (read : ParameterRead) (disk : Disk) (name : String) (clock : Json)
  /-- Its poll raised. -/
  | pollFailed (type : String) (clock : Json)
  /-- The recorder writes its manifest. -/
  | snapshot
  /-- The recorder begins to finish. -/
  | close
  /-- It seals the facts. -/
  | sealed (clock : Json) (stillRunning : Bool)

/-- The state after an action. -/
def step (lib : Library) (s : State) : Action → State
  | .enqueue message => enqueue s message
  | .process disk clock => processMessage lib disk clock s
  | .file read disk kind source suffix clock => file lib read disk kind source suffix clock s
  | .parameter read disk name clock => parameter lib read disk name clock s
  | .pollFailed type clock => s.unavailable "observer" "snapshot-poll" type clock
  | .snapshot => snapshot s
  | .close => {s with closed := true}
  | .sealed clock stillRunning => sealFacts clock stillRunning s

end Ros1Adapter.RecordFacts
