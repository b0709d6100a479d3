import Ros1Adapter.ActionRules
import Ros1Adapter.SceneFiles

/-!
# The scene store

One mutex serializes all commands, so the store is a sequential machine over
its own fields, the files it names and the state of its hooks. Member updates
that precede an exception persist. The trace records hook calls, file
replacements, completed saves and adopted loads, newest first; no operation
reads it.
-/

namespace Ros1Adapter.SceneStore

open SceneJson SceneJsonText SceneDocument SceneYaml SceneFiles PatternResiduals ActionRules

/-- Hooks and clock of a store over a client state. -/
structure Hooks (σ : Type) where
  /-- Apply a document under an epoch and a revision. -/
  apply : Json → String → ℕ → EStateM Error σ Unit
  /-- Apply a motion operation. -/
  motion : String → String → ℕ → EStateM Error σ Unit
  /-- Read the clock. -/
  clock : σ → Float × σ

/-- Facts of a run that claims are about. -/
inductive Event where
  /-- The apply hook was called and returned or threw. -/
  | applied (document : Json) (epoch : String) (revision : ℕ) (accepted : Bool)
  /-- The motion hook was called and returned or threw. -/
  | moved (operation : String) (epoch : String) (revision : ℕ) (accepted : Bool)
  /-- A rename replaced a file. -/
  | replaced (target : Path) (bytes : ByteArray)
  /-- A save completed. -/
  | saved (target : Path) (document : Json) (bytes : ByteArray)
  /-- A reload adopted the content of a file. -/
  | loaded (path : Path) (bytes : ByteArray)

/-- Retained result of a command; the document is kept beside the metadata. -/
structure Receipt where
  /-- Request identity. -/
  id : String
  /-- Text of the sorted request. -/
  fingerprint : String
  /-- Result with a null document. -/
  envelope : Json
  /-- Document of the result. -/
  document : Json

/-- Member variables of a scene store. -/
structure Store where
  /-- A hook or the clock is running. -/
  inHook : Bool
  /-- Geometry edits are refused. -/
  frozen : Bool
  /-- Working copy of the scene. -/
  workingFile : Option Path
  /-- Current document. -/
  document : Json
  /-- Identity of this store instance. -/
  epoch : String
  /-- Revision of the current document. -/
  revision : ℕ
  /-- Revision of the last accepted application. -/
  appliedRevision : ℕ
  /-- The last application returned normally. -/
  applicationKnown : Bool
  /-- Next unused revision. -/
  nextRevision : ℕ
  /-- Revision of the saved document. -/
  savedRevision : ℕ
  /-- Document of the last save or load. -/
  savedDocument : Json
  /-- File that the document comes from. -/
  source : Option Path
  /-- Directory granted for saves. -/
  saveRoot : Option Path
  /-- Digest of each file as last loaded or saved. -/
  fileDigests : Path → Option String
  /-- Motion is running. -/
  playing : Bool
  /-- Scene time at the last motion command. -/
  elapsed : Float
  /-- Clock reading at the last motion command. -/
  startedAt : Float
  /-- Earlier documents, oldest first. -/
  undoStack : List Json
  /-- Undone documents, the next redo last. -/
  redoStack : List Json
  /-- Receipt nodes by address, least recent first. -/
  requests : List (ℕ × Receipt)
  /-- Receipt node of each retained identity. -/
  requestIds : String → Option ℕ
  /-- Next unused node address. -/
  nextNode : ℕ
  /-- Incremental YAML writer. -/
  yaml : DocumentYaml
  /-- Obstacle validations so far. -/
  obstacleValidations : ℕ

/-- A store with its files, the state of its hooks and the trace of its run. -/
structure World (σ : Type) where
  /-- Member variables. -/
  store : Store
  /-- File system. -/
  files : Files
  /-- State behind the hooks and the clock. -/
  client : σ
  /-- Events, newest first. -/
  trace : List Event

/-- Actions of the store. -/
abbrev Act (σ : Type) := EStateM Error (World σ)

/-- Refusal of an edit over an unknown file content. -/
def kExternalEdit : String := "Scene YAML changed outside the editor; reload YAML before editing"

/-- Refusal of edits to a frozen scene. -/
def kFrozenError : String :=
  "Scene geometry is read-only for this simulator; select an editable scene to change obstacles"

/-- Operations of the command interface. -/
inductive Operation where
  | get
  | resync
  | save
  | reload
  | play
  | pause
  | reset
  | undo
  | redo
  | add
  | update
  | delete
  | clear
  | replace
  | unsupported (value : Json)
  deriving DecidableEq

/-- Operation named by a JSON value. -/
def Operation.ofJson : Json → Operation
  | .string "get" => .get
  | .string "resync" => .resync
  | .string "save" => .save
  | .string "reload" => .reload
  | .string "play" => .play
  | .string "pause" => .pause
  | .string "reset" => .reset
  | .string "undo" => .undo
  | .string "redo" => .redo
  | .string "add" => .add
  | .string "update" => .update
  | .string "delete" => .delete
  | .string "clear" => .clear
  | .string "replace" => .replace
  | value => .unsupported value

/-- Operation of a request. -/
def operationOf (request : Json) : Operation := Operation.ofJson (request.valueOr "operation" .null)

/-- Operations that a frozen store refuses. -/
def Operation.edits : Operation → Bool
  | .add | .update | .delete | .clear | .replace | .undo | .redo | .save | .reload => true
  | _ => false

section Store

variable {σ : Type} (X : Externals) (hooks : Hooks σ)

/-- Update the member variables. -/
def modifyStore (f : Store → Store) : Act σ Unit :=
  modify fun w => {w with store := f w.store}

/-- Append an event to the trace. -/
def record (event : Event) : Act σ Unit :=
  modify fun w => {w with trace := event::w.trace}

/-- Run a hook under the reentrancy flag and record its outcome. -/
def callHook (call : EStateM Error σ Unit) (event : Bool → Event) : Act σ Unit := fun w =>
  let guarded : Store := {w.store with inHook := true}
  let restored : Store := {guarded with inHook := w.store.inHook}
  match call w.client with
  | .ok _ client => .ok () ⟨restored,w.files,client,event true::w.trace⟩
  | .error error client => .error error ⟨restored,w.files,client,event false::w.trace⟩

/-- Read the clock; the reentrancy flag is up only meanwhile. -/
def nowLocked (w : World σ) : Float × World σ :=
  let reading := hooks.clock w.client
  (reading.1,{w with client := reading.2})

/-- Scene time at a clock reading. -/
def sceneTimeLocked (w : World σ) : Float × World σ :=
  if w.store.playing then
    let now := nowLocked hooks w
    let run := now.1-w.store.startedAt
    (w.store.elapsed+(if 0<run then run else 0),now.2)
  else (w.store.elapsed+0,w)

/-- Status members of every result. -/
def statusLocked (s : Store) : Json :=
  .object [("epoch",.string s.epoch),("revision",.integer s.revision),
    ("savedRevision",.integer s.savedRevision),
    ("dirty",.boolean (decide (s.document≠s.savedDocument) && !s.document.equal s.savedDocument)),
    ("playing",.boolean s.playing),("frozen",.boolean s.frozen),
    ("configuration",.object [
      ("desired",.object [("epoch",.string s.epoch),("revision",.integer s.revision)]),
      ("applied",.object [("epoch",.string s.epoch),("revision",.integer s.appliedRevision),
        ("known",.boolean s.applicationKnown)]),
      ("persisted",.object [("epoch",.string s.epoch),("revision",.integer s.savedRevision)])])]

/-- Status with the scene time and the document. -/
def envelopeLocked (w : World σ) : Json × World σ :=
  let time := sceneTimeLocked hooks w
  (((statusLocked w.store).set "sceneTime" (.float time.1)).set "document" w.store.document,time.2)

/-- Result of a command: the envelope with its success and error text. -/
def resultLocked (success : Bool) (error : String) (w : World σ) : Json × World σ :=
  let envelope := envelopeLocked hooks w
  let result := envelope.1.set "success" (.boolean success)
  (if success then result else result.set "error" (.string error),envelope.2)

/-- Apply a candidate under a fresh revision. -/
def apply (candidate : Json) : Act σ ℕ := do
  let w ← get
  let revision := w.store.nextRevision
  let epoch := w.store.epoch
  modifyStore fun s => {s with nextRevision := revision+1, applicationKnown := false}
  callHook (hooks.apply candidate epoch revision) (.applied candidate epoch revision)
  modifyStore fun s => {s with appliedRevision := revision, applicationKnown := true}
  return revision

/-- Compare a file with its expected digest. -/
def checkDigest (fault : Fault) (path : Path) (expected : Option String) (refusal : String) :
    Act σ Unit := do
  let w ← get
  let current ← ofResult (currentDigest X w.files fault path)
  if current≠expected then throw (sceneError refusal)

/-- The source still has the content that was last loaded or saved. -/
def checkSource (fault : Fault) : Act σ Unit := do
  let w ← get
  match w.store.source with
  | none => return ()
  | some source => checkDigest X fault source (w.store.fileDigests source) kExternalEdit

/-- Target of a save: inside the granted directory and a YAML file. -/
def saveTarget (s : Store) : Except Error Path :=
  match s.saveRoot with
  | none => .error (sceneError "This scene has no writable project directory configured")
  | some root =>
    match s.workingFile.or s.source with
    | none => .error (sceneError "This scene has no source YAML configured")
    | some target =>
      let outside := match target.lexicallyRelative root with
        | none => true
        | some relative => relative.head?==none || relative.head?==some ".."
      let extension := target.extension.map Char.toLower
      if outside then .error (sceneError "Save target is outside the configured project directory")
      else if extension≠".yaml".toList ∧ extension≠".yml".toList then
        .error (sceneError "Save target must be a YAML file")
      else .ok target

/-- Directories that exist after creating one with all its parents. -/
def withDirectories (files : Files) (directory : Path) : Files :=
  {files with directories := fun path => files.directories path || path.isPrefixOf directory}

/-- Create the directory of a working file and require the directory. -/
def prepareDirectory (io : SaveIo) (directory : Path) : Act σ Unit := do
  let w ← get
  if w.store.workingFile.isSome then
    ofResult (require X io.createDirectories directory)
    modify fun w => {w with files := withDirectories w.files directory}
  let w ← get
  ofResult (require X io.isDirectory directory)
  if !w.files.directories directory then throw (sceneError "Save directory does not exist")

/-- Encode the current document. -/
def encodeDocument : Act σ ByteArray := do
  let w ← get
  let dumped := w.store.yaml.dump X.spell w.store.document
  modifyStore fun s => {s with yaml := dumped.2}
  return dumped.1.toUTF8

/-- Rename the temporary file over its target. -/
def replaceStoreFile (io : SaveIo) (target : Path) (encoded : ByteArray) : Act σ Unit := do
  match io.rename with
  | some code => throw (renameError X code (temporaryPath io target) target)
  | none =>
    modify fun w => {w with
      files := {w.files with
        contents := fun path => if path=target then some encoded else w.files.contents path}}
    record (.replaced target encoded)

/-- Synchronize the directory of a replaced file; it is closed before either failure is reported. -/
def syncDirectory (io : SaveIo) (directory : Path) : Except Error Unit := do
  require X io.directoryOpen directory
  require X io.directorySync directory
  require X io.directoryClose directory

/-- Record the saved state in memory. -/
def markSaved (target : Path) (encoded : ByteArray) : Act σ Unit := do
  modifyStore fun s => {s with
    source := some target,
    fileDigests := fun path => if path=target then some (X.digest encoded) else s.fileDigests path,
    savedDocument := s.document, savedRevision := s.revision}
  let w ← get
  record (.saved target w.store.document encoded)

/-- Replace the target file by the current document. -/
def save (io : SaveIo) : Act σ Unit := do
  let w ← get
  let target ← ofResult (saveTarget w.store)
  prepareDirectory X io target.parent
  let expected := w.store.fileDigests target
  checkDigest X io.digestBefore target expected kExternalEdit
  let encoded ← encodeDocument X
  let w ← get
  ofResult (writeTemporary X io (w.files.present target) target encoded.size)
  checkDigest X io.digestAfter target expected "Scene file changed while saving"
  replaceStoreFile X io target encoded
  ofResult (syncDirectory X io target.parent)
  markSaved X target encoded

/-- Check the source and move a first edit into the working file. -/
def prepareEdit (io : CommandIo) : Act σ Unit := do
  checkSource X io.check
  let w ← get
  if w.store.workingFile.isSome && w.store.source≠w.store.workingFile then save X io.prepare

/-- Save after an edit; the live scene is already updated when this fails. -/
def autosave (io : SaveIo) : Act σ Unit := fun w =>
  match w.store.source with
  | none => .ok () w
  | some _ =>
    match save X io w with
    | .ok () w' => .ok () w'
    | .error error w' =>
      match error.kind with
      | .scene | .system =>
        .error (sceneError ("Live scene updated, but YAML was not saved: " ++ error.what)) w'
      | _ => .error error w'

/-- Replace the first element that satisfies a test. -/
def replaceFirst (test : Json → Bool) (replacement : Json) : List Json → List Json
  | [] => []
  | item::rest => if test item then replacement::rest else item::replaceFirst test replacement rest

/-- Whether an obstacle has the identity of another. -/
def sameId (id : Json) (item : Json) : Bool := (item.valueOr "id" .null).equal id

/-- Document of an addition or an update: the touched obstacle and the obstacle
set are checked, nothing else. -/
def placeObstacle (adds : Bool) (document request : Json) : Except Error Json := do
  let obstacles := (document.valueOr "obstacles" .null).items
  let replacement ← obstacle X.spell X.math (request.valueOr "obstacle" .null)
  let known := obstacles.any (sameId (replacement.valueOr "id" .null))
  if adds && known then .error (sceneError "Obstacle ID already exists")
  else if !adds && !known then .error (sceneError "Obstacle no longer exists")
  else
    let placed := if adds then obstacles ++ [replacement]
      else replaceFirst (sameId (replacement.valueOr "id" .null)) replacement obstacles
    checkObstacleSet placed
    return document.set "obstacles" (.array placed)

/-- Document of a deletion. -/
def removeObstacle (document request : Json) : Except Error Json := do
  let obstacles := (document.valueOr "obstacles" .null).items
  let id ← identifier (request.valueOr "id" .null) "Obstacle ID"
  let remaining := obstacles.filter (fun item => !sameId (.string id) item)
  if remaining.length=obstacles.length then .error (sceneError "Obstacle no longer exists")
  else return document.set "obstacles" (.array remaining)

/-- Candidate document of an edit. -/
def editCandidate (operation : Operation) (document request : Json) : Except Error Json :=
  match operation with
  | .add => placeObstacle X true document request
  | .update => placeObstacle X false document request
  | .delete => removeObstacle document request
  | .clear => .ok (document.set "obstacles" (.array []))
  | .replace => SceneDocument.document X.spell X.math (request.valueOr "document" .null)
  | _ => .error (sceneError ("Unsupported scene operation " ++
      pythonRepr X.spell (request.valueOr "operation" .null)))

/-- Obstacle validations that an edit performs before it may fail. -/
def validationsBefore : Operation → ℕ
  | .add | .update => 1
  | _ => 0

/-- Obstacle validations counted once the candidate exists. -/
def validationsAfter (operation : Operation) (candidate : Json) : ℕ :=
  match operation with
  | .replace => (candidate.valueOr "obstacles" .null).size
  | _ => 0

/-- Most documents that undo can return to. -/
def undoLimit : ℕ := 128

/-- Push onto the undo stack; the oldest entry leaves a full stack. -/
def pushUndo (stack : List Json) (document : Json) : List Json :=
  if undoLimit<(stack ++ [document]).length then (stack ++ [document]).drop 1 else stack ++ [document]

/-- Apply the current document again under a new revision. -/
def resync : Act σ Unit := do
  let w ← get
  let revision ← apply hooks w.store.document
  modifyStore fun s => {s with revision := revision}

/-- Adopt the content of the source file. -/
def reload (io : CommandIo) : Act σ Unit := do
  let w ← get
  match w.store.source with
  | none => throw (sceneError "This scene has no source YAML configured")
  | some source =>
    let bytes ← ofResult (read X w.files io.load source)
    let loaded ← ofResult (loadBytes X bytes)
    let revision ← apply hooks loaded.1
    modifyStore fun s => {s with
      document := loaded.1, revision := revision, savedDocument := loaded.1, savedRevision := revision,
      fileDigests := fun path => if path=source then some loaded.2 else s.fileDigests path,
      undoStack := [], redoStack := []}
    record (.loaded source bytes)

/-- Text of a motion operation. -/
def motionText : Operation → String
  | .play => "play"
  | .pause => "pause"
  | _ => "reset"

/-- Run, hold or reset the scene motion. -/
def move (operation : Operation) : Act σ Unit := do
  let w ← get
  callHook (hooks.motion (motionText operation) w.store.epoch w.store.revision)
    (.moved (motionText operation) w.store.epoch w.store.revision)
  let w ← get
  let elapsed := sceneTimeLocked hooks w
  let started := nowLocked hooks elapsed.2
  set {started.2 with store := {started.2.store with
    playing := decide (operation=Operation.play),
    elapsed := if operation=Operation.reset then 0 else elapsed.1,
    startedAt := started.1}}

/-- Return to the previous document. -/
def undo (io : CommandIo) : Act σ Unit := do
  let w ← get
  match w.store.undoStack.getLast? with
  | none => throw (sceneError "Nothing to undo")
  | some replacement =>
    prepareEdit X io
    let revision ← apply hooks replacement
    modifyStore fun s => {s with
      redoStack := s.redoStack ++ [s.document], undoStack := s.undoStack.dropLast,
      document := replacement, revision := revision}

/-- Return to the document that was undone last. -/
def redo (io : CommandIo) : Act σ Unit := do
  let w ← get
  match w.store.redoStack.getLast? with
  | none => throw (sceneError "Nothing to redo")
  | some replacement =>
    prepareEdit X io
    let revision ← apply hooks replacement
    modifyStore fun s => {s with
      undoStack := s.undoStack ++ [s.document], redoStack := s.redoStack.dropLast,
      document := replacement, revision := revision}

/-- Commit an edited document; an equal candidate commits nothing. -/
def edit (io : CommandIo) (operation : Operation) (request : Json) : Act σ Bool := do
  modifyStore fun s => {s with obstacleValidations := s.obstacleValidations+validationsBefore operation}
  let w ← get
  let candidate ← ofResult (editCandidate X operation w.store.document request)
  modifyStore fun s => {s with
    obstacleValidations := s.obstacleValidations+validationsAfter operation candidate}
  if candidate.equal w.store.document then return false
  else
    prepareEdit X io
    let revision ← apply hooks candidate
    modifyStore fun s => {s with
      undoStack := pushUndo s.undoStack s.document, redoStack := [],
      document := candidate, revision := revision}
    return true

/-- Refusals of a frozen store. -/
def frozenRefusal (operation : Json) : Option Error :=
  match operation with
  | .array _ => some (sceneError "unhashable type: 'list'")
  | .object _ => some (sceneError "unhashable type: 'dict'")
  | _ => if (Operation.ofJson operation).edits then some (sceneError kFrozenError) else none

/-- Everything that an operation does before its autosave; the result says
whether an autosave follows. -/
def commit (io : CommandIo) (request : Json) : Act σ Bool := do
  let w ← get
  match (if w.store.frozen then frozenRefusal (request.valueOr "operation" .null) else none) with
  | some error => throw error
  | none =>
    match operationOf request with
    | .resync => resync hooks; return false
    | .save => checkSource X io.check; save X io.save; return false
    | .reload => reload X hooks io; return false
    | .play => move hooks .play; return false
    | .pause => move hooks .pause; return false
    | .reset => move hooks .reset; return false
    | .undo => undo X hooks io; return true
    | .redo => redo X hooks io; return true
    | operation => edit X hooks io operation request

/-- One operation with the autosave of an edit. -/
def execute (io : CommandIo) (request : Json) : Act σ Unit := do
  let saves ← commit X hooks io request
  if saves then autosave X io.autosave

/-- Receipt limit of the store. -/
def receiptLimit : ℕ := 256

/-- Drop least recent receipts above the limit. -/
def evict : List (ℕ × Receipt) → (String → Option ℕ) → List (ℕ × Receipt) × (String → Option ℕ)
  | [],ids => ([],ids)
  | node::rest,ids =>
    if receiptLimit<(node::rest).length then
      evict rest (fun id => if id=node.2.id then none else ids id)
    else (node::rest,ids)

/-- The stored result with its document back in place. -/
def receiptValue (receipt : Receipt) : Json := receipt.envelope.set "document" receipt.document

/-- The receipt node of a retained identity. -/
def findReceipt (s : Store) (id : String) : Option (ℕ × Receipt) :=
  match s.requestIds id with
  | none => none
  | some address => (s.requests.lookup address).map (fun receipt => (address,receipt))

/-- Result of a retained request; recency is unchanged. -/
def requestResult (s : Store) (id : String) : Option Json :=
  (findReceipt s id).map (fun node => receiptValue node.2)

/-- Move a receipt node to the most recent end. -/
def splice (s : Store) (node : ℕ × Receipt) : Store :=
  {s with requests := s.requests.filter (fun other => other.1≠node.1) ++ [node]}

/-- The result without its document, members in order. -/
def receiptMetadata (result : Json) : Json :=
  .object (result.members.map (fun m => if m.1="document" then (m.1,.null) else m))

/-- Retain the result of a command as the most recent receipt. -/
def retain (id fingerprint : String) (result : Json) (s : Store) : Store :=
  let receipt : Receipt := ⟨id,fingerprint,receiptMetadata result,s.document⟩
  let kept := evict (s.requests ++ [(s.nextNode,receipt)])
    (fun other => if other=id then some s.nextNode else s.requestIds other)
  {s with requests := kept.1, requestIds := kept.2, nextNode := s.nextNode+1}

/-- Pattern of request identities. -/
def identityPattern : Pattern :=
  .repeated (.oneOf (fun c => isLetter c || isDigit c || c == '.' || c == '_' || c == ':' || c == '-')) 1 127

/-- Identity of a request. -/
def requestIdentity (request : Json) : Except Error String :=
  match request.valueOr "requestId" .null with
  | .string text =>
    if identityPattern.matchesText text then .ok text
    else .error (sceneError "Request ID must follow the XRPC identity contract")
  | _ => .error (sceneError "Request ID must follow the XRPC identity contract")

/-- Text that identifies a request up to member order. -/
def requestFingerprint (request : Json) : Except Error String := dumpJson X.spell (sortedFields request)

/-- The request names the current epoch and revision. -/
def expectsCurrent (s : Store) (request : Json) : Bool :=
  (request.valueOr "expectedEpoch" .null).equal (.string s.epoch) &&
    (match request.valueOr "expectedRevision" .null with
      | .integer revision => revision==(s.revision : Int)
      | _ => false)

/-- Members that a request may have. -/
def requestFields : List String :=
  ["requestId","expectedEpoch","expectedRevision","operation","obstacle","id","document"]

/-- What a request is before it reaches an operation. -/
inductive Admission where
  /-- Refused without a receipt. -/
  | refused (error : Error)
  /-- A read. -/
  | read
  /-- A retained request. -/
  | replay (node : ℕ × Receipt)
  /-- A request to execute under its identity and fingerprint. -/
  | fresh (id fingerprint : String)

/-- Checks of a request in source order. -/
def admission (s : Store) (request : Json) : Admission :=
  if s.inHook then .refused (sceneError "Scene commands cannot be issued from store hooks")
  else
    match fields X.spell request requestFields ["operation"] with
    | .error error => .refused error
    | .ok () =>
      if operationOf request=.get then .read
      else
        match requestIdentity request with
        | .error error => .refused error
        | .ok id =>
          match requestFingerprint X request with
          | .error error => .refused error
          | .ok fingerprint =>
            match findReceipt s id with
            | some node =>
              if node.2.fingerprint≠fingerprint then
                .refused (sceneError "Request ID was already used for a different operation")
              else .replay node
            | none =>
              if expectsCurrent s request then .fresh id fingerprint
              else .refused (sceneError "Scene changed; refresh before editing")

/-- Execute an admitted request and retain its result. -/
def perform (io : CommandIo) (request : Json) (id fingerprint : String) (w : World σ) : Json × World σ :=
  let finished := match execute X hooks io request w with
    | .ok () w' => resultLocked hooks true "" w'
    | .error error w' => resultLocked hooks false error.what w'
  (finished.1,{finished.2 with store := retain id fingerprint finished.1 finished.2.store})

/-- One command; every caught exception becomes a failed result. -/
def command (io : CommandIo) (request : Json) (w : World σ) : Json × World σ :=
  match admission X w.store request with
  | .refused error => resultLocked hooks false error.what w
  | .read => resultLocked hooks true "" w
  | .replay node => (receiptValue node.2,{w with store := splice w.store node})
  | .fresh id fingerprint => perform X hooks io request id fingerprint w

/-- Arguments of the store constructor. -/
structure StoreArguments where
  /-- Initial document. -/
  initial : Json
  /-- File of the initial document. -/
  source : Option Path := none
  /-- Directory granted for saves. -/
  saveRoot : Option Path := none
  /-- Digest of the source as the caller loaded it. -/
  sourceDigest : Option String := none
  /-- Geometry edits are refused. -/
  frozen : Bool := false
  /-- Working copy of the scene. -/
  workingFile : Option Path := none
  /-- Random identity of the store. -/
  epoch : String
  /-- Outcome of reading the working file. -/
  load : Fault := none
  /-- Outcome of the digest of the source. -/
  digest : Fault := none

/-- The working file, when it exists, takes the place of the source and of the
initial document. -/
def openInput (arguments : StoreArguments) (files : Files) :
    Except Error (Option Path × Json × Option String) :=
  match arguments.workingFile with
  | some working =>
    if files.present working then do
      let loaded ← readDocument X files arguments.load working
      return (some working,loaded.1,some loaded.2)
    else return (arguments.source,arguments.initial,arguments.sourceDigest)
  | none => return (arguments.source,arguments.initial,arguments.sourceDigest)

/-- Digest of the source at construction: the given one, else the current one. -/
def openDigest (arguments : StoreArguments) (files : Files) (source : Option Path)
    (given : Option String) : Except Error (Path → Option String) :=
  match source with
  | none => .ok fun _ => none
  | some path =>
    if files.present path then
      match given with
      | some digest =>
        if digest≠"" then .ok fun other => if other=path then some digest else none
        else do
          let current ← currentDigest X files arguments.digest path
          return fun other => if other=path then current else none
      | none => do
        let current ← currentDigest X files arguments.digest path
        return fun other => if other=path then current else none
    else .ok fun _ => none

/-- Member variables before the first application. -/
def openStore (arguments : StoreArguments) (source : Option Path) (document : Json)
    (digests : Path → Option String) : Store where
  inHook := false
  frozen := arguments.frozen
  workingFile := arguments.workingFile
  document := document
  epoch := arguments.epoch
  revision := 1
  appliedRevision := 0
  applicationKnown := false
  nextRevision := 2
  savedRevision := 1
  savedDocument := document
  source := source
  saveRoot := arguments.saveRoot.or ((arguments.workingFile.or source).map Path.parent)
  fileDigests := digests
  playing := false
  elapsed := 0
  startedAt := 0
  undoStack := []
  redoStack := []
  requests := []
  requestIds := fun _ => none
  nextNode := 0
  yaml := emptyYaml
  obstacleValidations := (document.valueOr "obstacles" .null).size

/-- Construction: validate the input, read the clock and apply revision one. -/
def construct (arguments : StoreArguments) (files : Files) (client : σ) : Except Error (World σ) := do
  let input ← openInput X arguments files
  let document ← SceneDocument.document X.spell X.math input.2.1
  let digests ← openDigest X arguments files input.1 input.2.2
  let started := nowLocked hooks (⟨openStore arguments input.1 document digests,files,client,[]⟩ : World σ)
  let opened : World σ := {started.2 with store := {started.2.store with startedAt := started.1}}
  match callHook (hooks.apply document arguments.epoch 1) (.applied document arguments.epoch 1) opened with
  | .ok () w => .ok {w with store := {w.store with appliedRevision := 1, applicationKnown := true}}
  | .error error _ => .error error

/-- One step of a run: a command with its system calls, or another writer. -/
inductive Step where
  /-- A command of any client. -/
  | command (io : CommandIo) (request : Json)
  /-- Another process changes, creates or deletes a file. -/
  | external (path : Path) (content : Option ByteArray)

/-- World after one step. -/
def stepWorld (w : World σ) : Step → World σ
  | .command io request => (command X hooks io request w).2
  | .external path content =>
    {w with files := {w.files with
      contents := fun other => if other=path then content else w.files.contents other}}

end Store

section Sample

/-- Mathematics without registered geometry types. -/
def sampleMath : Math :=
  Math.ieee (fun position _ => position) (fun _ _ => .error "Convex mesh is not closed") (fun _ => none)
    (fun _ => .error "Unsupported geometry")

/-- Externals for scenes without numbers; the digest spells every byte. -/
def sampleExternals (parseYaml : ByteArray → Except Error Json) : Externals where
  spell := fun _ => "0.0"
  math := sampleMath
  digest := fun bytes => String.ofList (bytes.data.toList.map (fun b => Char.ofNat b.toNat))
  parseYaml := parseYaml
  errnoText := fun _ => "Input/output error"

/-- A scene without obstacles. -/
def emptyScene : Json :=
  .object [("schema",.string kSchema),("id",.string "hall"),("frame",.string "map"),
    ("obstacles",.array [])]

/-- Hooks that accept everything. -/
def acceptingHooks : Hooks Unit where
  apply := fun _ _ _ => pure ()
  motion := fun _ _ _ => pure ()
  clock := fun client => (0,client)

/-- A file system with the given files and directories. -/
def filesOf (contents : List (Path × ByteArray)) (directories : List Path) : Files :=
  ⟨fun path => contents.lookup path,fun path => directories.contains path⟩

/-- The world of a new store whose hooks accept everything. -/
def openedSample (X : Externals) (arguments : StoreArguments) (files : Files) : World Unit :=
  match construct X acceptingHooks arguments files () with
  | .ok w => w
  | .error _ => ⟨openStore arguments none .null (fun _ => none),files,(),[]⟩

/-- Externals under which every file holds the empty scene. -/
def hallExternals : Externals := sampleExternals (fun _ => .ok emptyScene)

/-- The file of the sample scene. -/
def hallFile : Path := ["scenes","hall.yaml"]

/-- Arguments of the sample store. -/
def hallArguments : StoreArguments := {initial := emptyScene, epoch := "e", source := some hallFile}

/-- The sample store over a directory without files. -/
def hallWorld : World Unit := openedSample hallExternals hallArguments (filesOf [] [["scenes"]])

/-- A request with its identity and the revision it expects. -/
def sampleRequest (operation id : String) (revision : ℕ) (rest : List (String × Json)) : Json :=
  .object ([("operation",.string operation),("requestId",.string id),("expectedEpoch",.string "e"),
    ("expectedRevision",.integer revision)] ++ rest)

/-- A scene without obstacles under another identity. -/
def emptyRoom : Json :=
  .object [("schema",.string kSchema),("id",.string "room"),("frame",.string "map"),
    ("obstacles",.array [])]

end Sample

end Ros1Adapter.SceneStore
