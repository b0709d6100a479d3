import Ros1Adapter.SceneProjection
import Ros1Adapter.SceneStore

/-!
# The scene node

The node owns a store, its hooks and the projection, and joins them with the
simulation client of the gazebo profile. One recursive mutex serializes its
public calls. State changes before an exception persist. The simulation is
known by its interface only; its own state may hold anything that happens
between two calls.
-/

namespace Ros1Adapter.SceneNode

open SceneJson SceneJsonText SceneDocument SceneFiles SceneCompile SceneProjection SceneStore ActionRules

section Data

/-- Deployment profile of a node. -/
inductive Profile where
  | gazebo
  | xsim
  | physical
  deriving DecidableEq

/-- Message of an update that is not confirmed yet. -/
def kPending : String := "World host application pending"

/-- A report of the simulation client. -/
structure Report where
  /-- Epoch of the reported update. -/
  epoch : String
  /-- Revision of the reported update. -/
  revision : ℕ
  /-- The world host applied the update. -/
  applied : Bool
  /-- Instance of the world host. -/
  instanceId : String
  /-- Message. -/
  message : String
  /-- Discovery attempts so far. -/
  connectAttempts : ℕ
  /-- Motion is running. -/
  playing : Bool
  /-- Scene time of the world host, if it reports one. -/
  sceneTime : Option Json
  /-- The client passes on finite numbers only. -/
  finite : ∀ time, sceneTime=some time → ∃ x, time.double?=some x ∧ x.isFinite=true

/-- Members that only a report of the client has. -/
structure PeerFields where
  /-- Instance of the world host. -/
  instanceId : String
  /-- Discovery attempts so far. -/
  connectAttempts : ℕ
  /-- Motion is running. -/
  playing : Bool
  /-- Scene time of the world host, if it reports one. -/
  sceneTime : Option Json

/-- The last known native application. -/
structure NativeReport where
  /-- Epoch. -/
  epoch : String
  /-- Revision. -/
  revision : ℕ
  /-- The world host applied the revision; only then is it operational and capable. -/
  applied : Bool
  /-- Message. -/
  message : String
  /-- Clock reading. -/
  headerStamp : Float
  /-- Members of a client report. -/
  peer : Option PeerFields

/-- JSON form of a native report, members in order. -/
def NativeReport.toJson (r : NativeReport) : Json :=
  let head := [("consumer",Json.string "gazebo"),("epoch",.string r.epoch),("revision",.integer r.revision),
    ("applied",.boolean r.applied),("operational",.boolean r.applied),
    ("capability",.string (if r.applied then "ok" else ""))]
  let tail := [("header_stamp",Json.float r.headerStamp)]
  match r.peer with
  | none => .object (head ++ ("message",.string r.message)::tail)
  | some peer =>
    let time := peer.sceneTime.toList.map (fun value => ("scene_time",value))
    .object (head ++ [("instance_id",.string peer.instanceId),("message",.string r.message),
      ("connect_attempts",.integer peer.connectAttempts),("playing",.boolean peer.playing)] ++ time ++ tail)

/-- Motion part of a desired update. -/
structure MotionUpdate where
  /-- Motion is running. -/
  playing : Bool
  /-- Scene time. -/
  sceneTime : Float
  /-- Motion operation that caused the update, or nothing. -/
  operation : String

/-- Interface of a simulation with its own state. -/
structure Simulation (τ : Type) where
  /-- Set the latest desired state. -/
  update : Json → String → ℕ → MotionUpdate → τ → τ
  /-- Take the latest report. -/
  takeReport : τ → Option Report × τ
  /-- Stop. -/
  close : τ → τ

/-- Public members kept with a receipt. -/
structure PublicReceipt where
  /-- Consumers, online and synchronization members. -/
  fields : List (String × Json)
  /-- Compiled definition. -/
  compiled : Json

/-- A compiled definition with its revision. -/
structure CompiledDefinition where
  /-- Epoch. -/
  epoch : String
  /-- Revision. -/
  revision : ℕ
  /-- Compiled document. -/
  value : Json

/-- Member variables of a node besides its store. -/
structure NodeClient (τ : Type) where
  /-- Asset directories as they are now. -/
  assets : Assets
  /-- Projection and outputs. -/
  canvas : Canvas
  /-- The node is online. -/
  online : Bool := true
  /-- Last native application. -/
  nativeReport : Option NativeReport := none
  /-- View of the last published document. -/
  publishedView : Option Json := none
  /-- Snapshot that the last accepted application prepared. -/
  appliedSnapshot : Option SceneSnapshot := none
  /-- Last compiled definition. -/
  compiled : Option CompiledDefinition := none
  /-- Prepared definition of the first revision. -/
  startupCompiled : Option Json := none
  /-- Motion operation that was not sent yet. -/
  motionOperation : String := ""
  /-- Public receipts by identity. -/
  publicReceipts : List (String × PublicReceipt) := []
  /-- Clock readings so far. -/
  readings : ℕ := 0
  /-- State of the simulation. -/
  simulation : τ

/-- A node: its store, the files, its own members and the store's trace. -/
abbrev Node (τ : Type) := World (NodeClient τ)

/-- Parameters and surroundings of a node. -/
structure Site (τ : Type) where
  /-- Profile; only gazebo has a simulation. -/
  profile : Profile
  /-- Asset directory, if it is an absolute path. -/
  resourceRoot : Option Path
  /-- Clock readings in order. -/
  clock : ℕ → Float
  /-- Geometry library and message time. -/
  drawing : Drawing
  /-- Simulation of the gazebo profile. -/
  simulation : Simulation τ

end Data

section Hooks

variable {τ : Type} (X : Externals) (site : Site τ)

/-- Actions on the members of a node. -/
abbrev Act (τ : Type) := EStateM Error (NodeClient τ)

/-- Read the clock. -/
def readClock : Act τ Float := fun c =>
  .ok (site.clock c.readings) {c with readings := c.readings+1}

/-- Run an action of the projection. -/
def onCanvas {α : Type} (action : Project α) : Act τ α := fun c =>
  match action c.canvas with
  | .ok a canvas => .ok a {c with canvas := canvas}
  | .error error canvas => .error error {c with canvas := canvas}

/-- Call the application output. -/
def application (epoch : String) (revision : ℕ) (applied : Bool) : Act τ Unit :=
  onCanvas (emit (.application epoch revision applied))

/-- Record an unconfirmed application and withdraw the truth of the scene. -/
def gazeboFailure (epoch : String) (revision : ℕ) (message : String) : Act τ Unit :=
  if site.profile≠.gazebo then return ()
  else do
    let stamp ← readClock site
    modify fun c => {c with nativeReport := some ⟨epoch,revision,false,message,stamp,none⟩}
    application epoch revision false

/-- Whether a prepared definition belongs to a document. -/
def preparedFor (prepared document : Json) : Except Error Bool :=
  match prepared with
  | .object _ =>
    if !isText (prepared.valueOr "schema" .null) kCompiledSchema then .ok false
    else do
      let id ← document.atKey "id"
      if !(prepared.valueOr "id" .null).equal id then .ok false
      else do
        let frame ← document.atKey "frame"
        return (prepared.valueOr "frame" .null).equal frame
  | _ => .ok false

/-- The definition of a document that is not compiled yet: the prepared one
serves the first revision only. -/
def newDefinition (document : Json) (c : NodeClient τ) : Except Error Json :=
  match c.startupCompiled with
  | some prepared => do
    let belongs ← preparedFor prepared document
    if belongs then return prepared
    else .error (sceneError "Prepared scene must belong to the initial source definition")
  | none => compile X c.assets site.resourceRoot document

/-- The compiled definition of a document under its revision. -/
def compiledFor (document : Json) (epoch : String) (revision : ℕ) : Act τ Json := do
  let c ← get
  match c.compiled.filter (fun found => decide (found.epoch=epoch) && decide (found.revision=revision)) with
  | some found => return found.value
  | none =>
    let value ← ofResult (newDefinition X site document c)
    modify fun c => {c with startupCompiled := none, compiled := some ⟨epoch,revision,value⟩}
    return value

/-- The apply hook: compile, and in gazebo prepare the snapshot. -/
def applyScene (document : Json) (epoch : String) (revision : ℕ) : Act τ Unit := do
  let compiled ← compiledFor X site document epoch revision
  if site.profile≠.gazebo then return ()
  else
    application epoch revision false
    let stamp ← readClock site
    let message ← onCanvas (snapshot site.drawing compiled epoch revision stamp)
    modify fun c => {c with appliedSnapshot := some message}
    gazeboFailure site epoch revision kPending

/-- The motion hook: remember the operation for the next update. -/
def applyMotion (operation : String) : Act τ Unit :=
  if site.profile≠.gazebo then return ()
  else modify fun c => {c with motionOperation := operation}

/-- Hooks of the node's store. -/
def hooks : Hooks (NodeClient τ) where
  apply := applyScene X site
  motion := fun operation _ _ => applyMotion site operation
  clock := fun c => (site.clock c.readings,{c with readings := c.readings+1})

end Hooks

section Node

variable {τ : Type} (X : Externals) (site : Site τ)

/-- Actions of a node. -/
abbrev NodeAct (τ : Type) := EStateM Error (Node τ)

/-- Run an action on the members of the node. -/
def onClient {α : Type} (action : Act τ α) : NodeAct τ α := fun w =>
  match action w.client with
  | .ok a client => .ok a {w with client := client}
  | .error error client => .error error {w with client := client}

/-- A value of the store that may read the clock. -/
def fromStore {α : Type} (read : Node τ → α × Node τ) : NodeAct τ α := fun w =>
  .ok (read w).1 (read w).2

/-- Envelope of the store. -/
def storeEnvelope : NodeAct τ Json := fromStore (envelopeLocked (hooks X site))

/-- Scene time of the store. -/
def storeSceneTime : NodeAct τ Float := fromStore (sceneTimeLocked (hooks X site))

/-- Hand the current scene and motion to the simulation. -/
def queueSimulation : NodeAct τ Unit :=
  if site.profile≠.gazebo then return ()
  else do
    let _ ← storeEnvelope X site
    let w ← get
    let epoch := w.store.epoch
    let revision := w.store.revision
    onClient (gazeboFailure site epoch revision kPending)
    let time ← storeSceneTime X site
    let w ← get
    let motion : MotionUpdate := ⟨w.store.playing,time,w.client.motionOperation⟩
    let compiled ← onClient (compiledFor X site w.store.document epoch revision)
    modify fun w => {w with client := {w.client with
      simulation := site.simulation.update compiled epoch revision motion w.client.simulation,
      motionOperation := ""}}

/-- Whether the report of an applied revision is synchronized with a revision. -/
def synchronizedWith (report : Option NativeReport) (epoch : String) (revision : ℕ) : Bool :=
  match report with
  | none => true
  | some r => r.applied && decide (r.epoch=epoch) && decide (r.revision=revision)

/-- Consumers as JSON. -/
def consumers (report : Option NativeReport) : Json := .array (report.toList.map NativeReport.toJson)

/-- Synchronization of an epoch and a revision as JSON. -/
def applicationView (c : NodeClient τ) (epoch : String) (revision : ℕ) : Json :=
  let synchronized := synchronizedWith c.nativeReport epoch revision
  .object [("consumers",consumers c.nativeReport),("synchronized",.boolean synchronized),
    ("syncRetryable",.boolean !synchronized)]

/-- Public members of a result. -/
def publicFields (c : NodeClient τ) (epoch : String) (revision : ℕ) : List (String × Json) :=
  let synchronized := synchronizedWith c.nativeReport epoch revision
  [("consumers",consumers c.nativeReport),("online",.boolean c.online),
    ("synchronized",.boolean synchronized),("syncRetryable",.boolean !synchronized)]

/-- A value with members assigned in order. -/
def withFields (value : Json) (fields : List (String × Json)) : Json :=
  fields.foldl (fun value field => value.set field.1 field.2) value

/-- View that decides whether a document is published again. -/
def publicView (w : Node τ) : Json :=
  .array [statusLocked w.store,applicationView w.client w.store.epoch w.store.revision,
    .boolean w.client.online]

/-- The published status of a node. -/
def documentStatus (w : Node τ) (time : Float) (compiled : Json) : Json :=
  withFields (statusLocked w.store) (("sceneTime",.float time)::("document",w.store.document)::
    ("compiled",compiled)::publicFields w.client w.store.epoch w.store.revision)

/-- Publish the document when its view changed. -/
def publishDocument : NodeAct τ Bool := do
  let w ← get
  let view := publicView w
  if w.client.publishedView.any (fun published => published.equal view) then return false
  else
    let time ← storeSceneTime X site
    let _ ← storeEnvelope X site
    let compiled ← onClient (compiledFor X site w.store.document w.store.epoch w.store.revision)
    let text ← ofResult (dumpJson X.spell (documentStatus w time compiled))
    onClient (onCanvas (emit (.document text)))
    modify fun w => {w with client := {w.client with publishedView := some view}}
    return true

/-- Magnitude of a difference above the tolerance of scene times. -/
def timeDiffers (reported stored : Float) : Bool := decide ((0.1 : Float) < magnitude (reported-stored))

/-- Outcome of a report for the current revision: applied or not, with its message. -/
def judged (report : Report) (playing : Bool) : NodeAct τ (Bool × String) :=
  if !report.applied then return (false,report.message)
  else if report.playing≠playing then return (false,"World host motion state is pending")
  else
    match report.sceneTime with
    | none => return (true,report.message)
    | some reported => do
      let stored ← storeSceneTime X site
      let time ← ofResult (getDouble reported)
      if timeDiffers time stored then
        return (false,"World host scene time differs; native motion seek is unavailable")
      else return (true,report.message)

/-- Take a report of the simulation; only one of the current revision counts. -/
def receiveSimulation : NodeAct τ Unit :=
  if site.profile≠.gazebo then return ()
  else do
    let w ← get
    let taken := site.simulation.takeReport w.client.simulation
    modify fun w => {w with client := {w.client with simulation := taken.2}}
    match taken.1 with
    | none => return ()
    | some report =>
      if report.epoch≠w.store.epoch ∨ report.revision≠w.store.revision then return ()
      else
        let outcome ← judged X site report w.store.playing
        let stamp ← onClient (readClock site)
        let peer : PeerFields := ⟨report.instanceId,report.connectAttempts,report.playing,report.sceneTime⟩
        modify fun w => {w with client := {w.client with
          nativeReport := some ⟨report.epoch,report.revision,outcome.1,outcome.2,stamp,some peer⟩}}
        onClient (application w.store.epoch w.store.revision outcome.1)
        let _ ← publishDocument X site

/-- Publish the state of the moving obstacles. -/
def tick : NodeAct τ Unit := do
  let w ← get
  if !w.client.online then return ()
  else
    receiveSimulation X site
    let stamp ← onClient (readClock site)
    let elapsed ← storeSceneTime X site
    let w ← get
    onClient (onCanvas (SceneProjection.tick site.drawing stamp elapsed w.store.playing))

/-- Snapshot of the current revision: the one the hook prepared, else a new one. -/
def currentSnapshot (compiled : Json) (epoch : String) (revision : ℕ) : NodeAct τ SceneSnapshot := do
  let w ← get
  match w.client.appliedSnapshot.filter (fun message =>
      decide (message.epoch=epoch) && decide (message.revision=revision)) with
  | some message => return message
  | none =>
    let stamp ← onClient (readClock site)
    onClient (onCanvas (snapshot site.drawing compiled epoch revision stamp))

/-- Call the application output with the synchronization of the current revision. -/
def publishApplication (epoch : String) (revision : ℕ) : NodeAct τ Unit := do
  let w ← get
  if site.profile=.gazebo ∨ site.profile=.xsim then
    onClient (application epoch revision (synchronizedWith w.client.nativeReport epoch revision))

/-- Publish the definition of the current revision. -/
def publishDefinition : NodeAct τ Unit := do
  let _ ← storeEnvelope X site
  let w ← get
  let epoch := w.store.epoch
  let revision := w.store.revision
  publishApplication site epoch revision
  let compiled ← onClient (compiledFor X site w.store.document epoch revision)
  let message ← currentSnapshot site compiled epoch revision
  onClient (onCanvas (definition site.drawing compiled epoch revision message))
  tick X site
  let _ ← publishDocument X site

/-- Unsigned number of a member. -/
def naturalAt (value : Json) (key : String) : Except Error ℕ := do
  let item ← value.atKey key
  match item with
  | .integer n => return n.toNat
  | _ => .error (jsonError "type must be number")

/-- Compiled member of a result that has a document. -/
def withCompiled (result : Json) (epoch : String) (revision : ℕ) : NodeAct τ Json :=
  match result.member "document" with
  | some document => do
    let compiled ← onClient (compiledFor X site document epoch revision)
    return result.set "compiled" compiled
  | none => return result

/-- Add the public members to a result. -/
def addPublicView (result : Json) : NodeAct τ Json := do
  let epoch ← ofResult (stringAt result "epoch")
  let revision ← ofResult (naturalAt result "revision")
  let w ← get
  withCompiled X site (withFields result (publicFields w.client epoch revision)) epoch revision

/-- The public envelope. -/
def envelope : NodeAct τ Json := do
  let result ← storeEnvelope X site
  addPublicView X site result

/-- Identity of a command, empty when it has none. -/
def commandId (request : Json) : String :=
  match request with
  | .object _ => (request.valueOr "requestId" .null).text?.getD ""
  | _ => ""

/-- The public receipt that replays a retained result. -/
def replayed (retained : Option Json) (result : Json) (cached : Option PublicReceipt) : Option Json :=
  match retained,cached with
  | some kept,some receipt =>
    if result.equal kept then some ((withFields result receipt.fields).set "compiled" receipt.compiled)
    else none
  | _,_ => none

/-- Most public receipts before those of dropped requests are removed. -/
def publicLimit : ℕ := 256

/-- Keep a public receipt; above the limit only receipts of retained requests stay. -/
def keepReceipt (s : Store) (id : String) (receipt : PublicReceipt)
    (receipts : List (String × PublicReceipt)) : List (String × PublicReceipt) :=
  let kept := (id,receipt)::receipts.filter (fun entry => entry.1≠id)
  if publicLimit<kept.length then kept.filter (fun entry => (requestResult s entry.1).isSome) else kept

/-- Public members of a result that has them. -/
def receiptFields (result : Json) : List (String × Json) :=
  ["consumers","online","synchronized","syncRetryable"].map (fun key => (key,result.valueOr key .null))

/-- Keep the public receipt of a result that the store retains. -/
def retainPublic (saved : Bool) (id : String) (result : Json) : NodeAct τ Unit :=
  if !saved then return ()
  else modify fun w => {w with client := {w.client with
    publicReceipts := keepReceipt w.store id
      ⟨receiptFields result,(w.client.compiled.map CompiledDefinition.value).getD .null⟩
      w.client.publicReceipts}}

/-- Send a changed scene or motion and take a report. -/
def synchronize (previous : ℕ) : NodeAct τ Unit := do
  let w ← get
  if w.store.revision≠previous ∨ w.client.motionOperation≠"" then do
    queueSimulation X site
    receiveSimulation X site

/-- Publish what a command changed. -/
def publishCommand (previous : ℕ) (request : Json) : NodeAct τ Unit := do
  let w ← get
  if w.store.revision≠previous then publishDefinition X site
  else if operationOf request≠.get then do
    tick X site
    let _ ← publishDocument X site

/-- Everything that follows the store's part of a command that is no replay. -/
def publishResult (previous : ℕ) (request result : Json) : NodeAct τ Json := do
  synchronize X site previous
  publishCommand X site previous request
  let w ← get
  let saved := (requestResult w.store (commandId request)).any (fun receipt => receipt.equal result)
  let published ← addPublicView X site result
  retainPublic saved (commandId request) published
  return published

/-- One command that did not expire. -/
def commandValue (io : CommandIo) (request : Json) : NodeAct τ Json := do
  let w ← get
  let retained := requestResult w.store (commandId request)
  let result ← fromStore (command X (hooks X site) io request)
  let after ← get
  match replayed retained result (after.client.publicReceipts.lookup (commandId request)) with
  | some answer => return answer
  | none => publishResult X site w.store.revision request result

/-- Result of a retained request with the public members it was first returned with. -/
def publicRequestResult (w : Node τ) (id : String) : Option Json :=
  (requestResult w.store id).map (fun receipt =>
    match w.client.publicReceipts.lookup id with
    | some cached => (withFields receipt cached.fields).set "compiled" cached.compiled
    | none => receipt)

/-- Go offline. -/
def shutdown : NodeAct τ Unit := do
  let w ← get
  if !w.client.online then return ()
  else
    modify fun w => {w with client := {w.client with online := false}}
    let _ ← publishDocument X site
    if site.profile=.gazebo then
      modify fun w => {w with client := {w.client with
        simulation := site.simulation.close w.client.simulation}}

/-- Start of a node over its store: queue, receive and publish the first revision. -/
def start : NodeAct τ Unit := do
  queueSimulation X site
  receiveSimulation X site
  publishDefinition X site

/-- Members of a node before its store exists. -/
def newClient (nameSpace : String) (assets : Assets) (prepared : Option Json) (simulation : τ) :
    NodeClient τ :=
  {assets := assets, canvas := {projection := newProjection X nameSpace}, startupCompiled := prepared,
    simulation := simulation}

/-- Construction of a node; an exception leaves none. -/
def openNode (arguments : StoreArguments) (files : Files) (client : NodeClient τ) :
    Except Error (Node τ) := do
  let w ← construct X (hooks X site) arguments files client
  match start X site w with
  | .ok _ node => .ok node
  | .error error _ => .error error

/-- One step of a node's run. -/
inductive NodeStep where
  /-- A command; an expired one is refused at once. -/
  | command (io : CommandIo) (request : Json) (expired : Bool)
  /-- A tick of the timer. -/
  | tick
  /-- A read of the public envelope. -/
  | envelope
  /-- The node goes offline. -/
  | shutdown
  /-- Asset files change. -/
  | assets (assets : Assets)
  /-- Another process changes, creates or deletes a file. -/
  | external (path : Path) (content : Option ByteArray)

/-- Node after one step; an exception keeps the changes before it. -/
def stepNode (w : Node τ) : NodeStep → Node τ
  | .command io request expired => if expired then w else stateOf (commandValue X site io request w)
  | .tick => stateOf (tick X site w)
  | .envelope => stateOf (envelope X site w)
  | .shutdown => stateOf (shutdown X site w)
  | .assets assets => {w with client := {w.client with assets := assets}}
  | .external path content =>
    {w with files := {w.files with
      contents := fun other => if other=path then content else w.files.contents other}}

end Node

end Ros1Adapter.SceneNode
