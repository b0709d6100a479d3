import Ros1Adapter.ActionRules
import Mathlib.Data.List.AList
import Mathlib.Data.Int.Notation

/-!
# Finalization of recorded bags

When the native recorder has exited, its closed segments get their readable
names. A segment is moved by a link and an unlink, and the plan of all moves
is written to the manifest before the first one. A killed run is started
again; it reads the manifest and goes on. Every call to the file system may
fail, and the process may be killed before any of them.
-/

namespace Ros1Adapter.BagFinalization

open ActionRules

/-- A closed segment as the manifest pins it. -/
structure Segment where
  /-- Name that the native recorder gave. -/
  sourceName : String
  /-- Readable name to be issued. -/
  name : String
  /-- Number in the recording. -/
  index : ℕ
  /-- Device of its file. -/
  device : ℕ
  /-- Inode of its file. -/
  inode : ℕ
  /-- Size of its file. -/
  sizeBytes : ℕ
  deriving DecidableEq

/-- Whether a listed bag was closed. -/
inductive BagState where
  /-- The native recorder did not close it. -/
  | partialBag
  /-- It was closed and has its readable name. -/
  | finalized
  deriving DecidableEq

/-- A bag in the manifest. -/
structure BagFile where
  /-- Identity of a closed bag. -/
  id : Option String
  /-- Its name. -/
  name : String
  /-- Whether it was closed. -/
  state : BagState
  /-- Its size. -/
  sizeBytes : ℕ
  deriving DecidableEq

/-- How far finalization is. -/
inductive ArchiveState where
  /-- It has begun. -/
  | pending
  /-- It failed. -/
  | failed
  /-- It is done. -/
  | finalized
  deriving DecidableEq

/-- What a status call tells about a file. -/
structure Stat where
  /-- Device. -/
  device : ℕ
  /-- Inode. -/
  inode : ℕ
  /-- Size. -/
  size : ℕ
  /-- Time of the last write. -/
  modified : ℕ
  /-- Time of the last change of the inode. -/
  changed : ℕ
  /-- Whether it is a regular file. -/
  regular : Bool
  deriving DecidableEq

/-- A digest with the file it was made from. -/
structure Receipt where
  /-- Digest of the bytes. -/
  sha256 : String
  /-- The file at that time. -/
  contentIdentity : Stat
  deriving DecidableEq

/-- A bag that other services may fetch. -/
structure Part where
  /-- Slot of the recording. -/
  slotId : String
  /-- Target of the recording. -/
  targetId : String
  /-- Path of the bag. -/
  sourcePath : String
  /-- Digest of the bag. -/
  sha256 : String
  /-- Size of the bag. -/
  size : ℕ
  deriving DecidableEq

/-- The fields of the session manifest that finalization uses. -/
structure Document where
  /-- Identity of the recording. -/
  recordingId : String
  /-- Version of the naming rules. -/
  recordNamingVersion : ℕ
  /-- When recording ended. -/
  recordingEndedAt : Option String
  /-- Outcome of the recording. -/
  status : String
  /-- Exit code of the native recorder. -/
  recorderExitCode : Option ℤ
  /-- How far finalization is. -/
  archiveFinalizationState : Option ArchiveState
  /-- Why it failed. -/
  archiveFinalizationError : Option String
  /-- The planned moves. -/
  archiveSegments : Option (List Segment)
  /-- The listed bags. -/
  bagFiles : List BagFile
  /-- Slot of the recording. -/
  slotId : String
  /-- Target of the recording. -/
  targetId : String
  /-- Digests by name. -/
  partContentReceipts : List (String × Receipt)
  /-- Published bags. -/
  parts : List Part
  deriving DecidableEq

/-- What a file holds. -/
inductive Contents where
  /-- Bytes. -/
  | bytes (data : List UInt8)
  /-- A manifest. -/
  | manifest (document : Document)
  deriving DecidableEq

/-- A file, apart from its names. -/
structure Inode where
  /-- Device. -/
  device : ℕ
  /-- Whether it is a regular file. -/
  regular : Bool
  /-- Size. -/
  size : ℕ
  /-- Time of the last write. -/
  modified : ℕ
  /-- Time of the last change of the inode. -/
  changed : ℕ
  /-- What it holds. -/
  contents : Contents

/-- The directory of a recording. -/
structure World where
  /-- Inode of each name. -/
  entries : AList (fun _ : String => ℕ)
  /-- The files. -/
  inodes : ℕ → Inode
  /-- Number of the next new file. -/
  next : ℕ
  /-- Time of the file system. -/
  now : ℕ

/-- The inode of a name. -/
def World.entry (w : World) (name : String) : Option ℕ := w.entries.lookup name

/-- The status of an inode. -/
def World.statOf (w : World) (inode : ℕ) : Stat :=
  let file := w.inodes inode
  ⟨file.device,inode,file.size,file.modified,file.changed,file.regular⟩

/-- The recording that is finalized. -/
structure Site where
  /-- The directory. -/
  outputDirectory : String
  /-- First part of the names of its bags. -/
  stem : String
  /-- Identity of the recording. -/
  recordingId : String
  /-- Device of new files. -/
  device : ℕ
  /-- Digest of bytes. -/
  sha256 : List UInt8 → String
  /-- Size of a manifest. -/
  documentBytes : Document → ℕ

/-- Name of the manifest. -/
def manifestName : String := "session-manifest.json"

/-- Name under which a process writes the next manifest. -/
def temporaryName (pid : ℕ) : String := manifestName ++ ".part." ++ toString pid

/-- Why a run ends early. -/
inductive Exit where
  /-- The process was killed. -/
  | killed
  /-- An exception. -/
  | raised (text : String)
  deriving DecidableEq

/-- A running recorder. -/
structure Machine where
  /-- The directory. -/
  world : World
  /-- What the next calls to the file system do: they work, or raise a text. The process is killed where the list ends. -/
  plan : List (Option String)
  /-- The manifest in memory. -/
  document : Document

/-- An operation of the recorder. -/
abbrev Recorder (α : Type) : Type := EStateM Exit Machine α

/-- Raise a text. -/
def raise {α : Type} (text : String) : Recorder α := throw (.raised text)

/-- A call to the file system. -/
def call : Recorder Unit := do
  let m ← get
  match m.plan with
  | [] => throw .killed
  | none::rest => set {m with plan := rest}
  | some text::rest => do
    set {m with plan := rest}
    raise text

/-- The answer to a name that is not there. -/
def missingText (site : Site) (name : String) : String :=
  "[Errno 2] No such file or directory: '" ++ site.outputDirectory ++ "/" ++ name ++ "'"

/-- Status of a name. -/
def lstat (site : Site) (name : String) : Recorder Stat := do
  call
  let m ← get
  match m.world.entry name with
  | some inode => pure (m.world.statOf inode)
  | none => raise (missingText site name)

/-- Whether a name is there. -/
def lexists (name : String) : Recorder Bool := do
  call
  let m ← get
  pure (m.world.entry name).isSome

/-- Change the directory. -/
def change (f : World → World) : Recorder Unit := modify fun m => {m with world := f m.world}

/-- Change the manifest in memory. -/
def edit (f : Document → Document) : Recorder Unit := modify fun m => {m with document := f m.document}

/-- The time of an inode's change moves on. -/
def World.touch (w : World) (inode : ℕ) : World :=
  {w with
    now := w.now+1
    inodes := Function.update w.inodes inode {w.inodes inode with changed := w.now+1}}

/-- A second name for a file; false when the name is taken. -/
def link (site : Site) (source destination : String) : Recorder Bool := do
  call
  let m ← get
  match m.world.entry source with
  | none => raise (missingText site source)
  | some inode =>
    if (m.world.entry destination).isSome then pure false
    else do
      change fun w => ({w with entries := w.entries.insert destination inode}).touch inode
      pure true

/-- Remove a name; false when it is not there. -/
def unlink (name : String) : Recorder Bool := do
  call
  let m ← get
  match m.world.entry name with
  | none => pure false
  | some inode => do
    change fun w => ({w with entries := w.entries.erase name}).touch inode
    pure true

/-- Open a file for writing: what stands there is emptied. -/
def World.create (w : World) (site : Site) (name : String) : World :=
  match w.entry name with
  | some inode =>
    {w with
      now := w.now+1
      inodes := Function.update w.inodes inode
        {w.inodes inode with size := 0,modified := w.now+1,changed := w.now+1,contents := .bytes []}}
  | none =>
    {w with
      now := w.now+1
      next := w.next+1
      entries := w.entries.insert name w.next
      inodes := Function.update w.inodes w.next ⟨site.device,true,0,w.now+1,w.now+1,.bytes []⟩}

/-- Write a manifest into an open file. -/
def World.fill (w : World) (site : Site) (name : String) (document : Document) : World :=
  match w.entry name with
  | some inode =>
    {w with
      now := w.now+1
      inodes := Function.update w.inodes inode {w.inodes inode with
        size := site.documentBytes document
        modified := w.now+1
        changed := w.now+1
        contents := .manifest document}}
  | none => w

/-- Give a file another name, in place of what stands there. -/
def World.rename (w : World) (source destination : String) : World :=
  match w.entry source with
  | some inode => {w with entries := (w.entries.erase source).insert destination inode}
  | none => w

/-- Run a last part after a part that returns or raises. -/
def finallyDo (body last : Recorder Unit) : Recorder Unit := fun m =>
  match body m with
  | .ok _ t => last t
  | .error .killed t => .error .killed t
  | .error (.raised text) t =>
    match last t with
    | .ok _ u => .error (.raised text) u
    | .error exit u => .error exit u

/-- Handle an exception. -/
def catchRaised (body : Recorder Unit) (handler : String → Recorder Unit) : Recorder Unit := fun m =>
  match body m with
  | .error (.raised text) t => handler text t
  | result => result

/-- Write the manifest in memory under a temporary name, and put it in the place of the old one. -/
def replaceManifest (site : Site) (pid : ℕ) : Recorder Unit := do
  call
  change fun w => w.create site (temporaryName pid)
  call
  modify fun m => {m with world := m.world.fill site (temporaryName pid) m.document}
  call
  call
  change fun w => w.rename (temporaryName pid) manifestName

/-- Remove a temporary manifest that is still there. -/
def removeTemporary (pid : ℕ) : Recorder Unit := do
  let _ ← unlink (temporaryName pid)

/-- Write the manifest in memory to the directory. -/
def writeManifest (site : Site) (pid : ℕ) : Recorder Unit := do
  finallyDo (replaceManifest site pid) (removeTemporary pid)
  call
  call

/-- Whether a text ends with another one. -/
def endsWith (text ending : String) : Bool := ending.toList.isSuffixOf text.toList

/-- Names of bags of the recording, closed or not. -/
def isRecorded (site : Site) (name : String) : Bool :=
  if site.stem.toList.isPrefixOf name.toList then
    match name.toList.drop site.stem.toList.length with
    | [] => false
    | c::rest =>
      (c== '_' || c== '-' || c== '.') &&
        (endsWith (String.ofList (c::rest)) ".bag" || endsWith (String.ofList (c::rest)) ".bag.active")
  else false

/-- The names of bags in order. -/
def recordedNames (site : Site) (w : World) : List String :=
  (w.entries.keys.filter (isRecorded site)).mergeSort (fun a b => decide (a ≤ b))

/-- The names of bags, as the directory gives them. -/
def recordedPaths (site : Site) : Recorder (List String) := do
  call
  let m ← get
  pure (recordedNames site m.world)

/-- Name of a segment that the native recorder closed. -/
def sourceName (site : Site) (index : ℕ) : String := site.stem ++ "_" ++ toString index ++ ".bag"

/-- The number in a native name: the digits after the underscore, without leading zeros. -/
def nativeIndex (site : Site) (name : String) : Option ℕ :=
  let digits := ((name.toList.drop (site.stem.toList.length+1)).reverse.drop 4).reverse
  let index := Nat.ofDigitChars 10 digits 0
  if name=sourceName site index then some index else none

/-- A number with at least two digits. -/
def twoDigits (n : ℕ) : String :=
  let digits := (toString n).toList
  String.ofList (List.replicate (2-digits.length) ('0') ++ digits)

/-- The readable name of a segment. -/
def issuedBagName (site : Site) (index count : ℕ) : String :=
  if count=1 ∧ index=0 then site.stem ++ ".bag" else site.stem ++ "-part" ++ twoDigits (index+1) ++ ".bag"

/-- Move a closed file to a name that is free, or that is this file already. -/
def moveClosedWithoutReplacement (site : Site) (source destination : String) : Recorder Unit := do
  let info ← lstat site source
  if info.regular=false then raise "finalized bag is not a regular file"
  let opened ← lstat site source
  call
  if (opened.device,opened.inode,opened.size)≠(info.device,info.inode,info.size) then
    raise "closed bag changed before preservation"
  call
  let linked ← link site source destination
  if linked=false then
    let found ← lstat site destination
    if found.regular=false ∨ (info.device,info.inode)≠(found.device,found.inode) then
      raise "readable bag destination already exists"
  call
  call
  let removed ← unlink source
  if removed=false then raise (missingText site source)
  call

/-- The segments that the directory holds. -/
def scanSegments (site : Site) : List String → Recorder (List Segment)
  | [] => pure []
  | name::rest => do
    if endsWith name ".bag.active" then scanSegments site rest
    else
      match nativeIndex site name with
      | none => scanSegments site rest
      | some index => do
        let info ← lstat site name
        if info.regular=false then raise "bag inventory contains an unexpected closed file"
        let others ← scanSegments site rest
        pure (⟨name,"",index,info.device,info.inode,info.size⟩::others)

/-- Give every segment its readable name. -/
def nameSegments (site : Site) (segments : List Segment) : List Segment :=
  segments.map fun segment => {segment with name := issuedBagName site segment.index segments.length}

/-- The entry of a segment in the manifest. -/
def bagFile (site : Site) (count : ℕ) (segment : Segment) : BagFile :=
  ⟨some ("bag." ++ site.recordingId ++ "." ++ toString segment.index),issuedBagName site segment.index count,.finalized,
    segment.sizeBytes⟩

/-- Move one segment and check it. -/
def finalizeSegment (site : Site) (count : ℕ) (byIndex : List (ℕ × BagFile)) (segment : Segment) :
    Recorder (List (ℕ × BagFile)) := do
  let source := sourceName site segment.index
  let destination := issuedBagName site segment.index count
  if segment.sourceName≠source ∨ segment.name≠destination ∨ (byIndex.lookup segment.index).isSome then
    raise "bag finalization identity is invalid"
  let present ← lexists source
  if present then
    let info ← lstat site source
    if info.regular=false ∨ (info.device,info.inode,info.size)≠(segment.device,segment.inode,segment.sizeBytes) then
      raise "closed bag changed before finalization"
    moveClosedWithoutReplacement site source destination
  let info ← lstat site destination
  if info.regular=false ∨ (info.device,info.inode,info.size)≠(segment.device,segment.inode,segment.sizeBytes) then
    raise "finalized bag identity changed"
  pure (byIndex ++ [(segment.index,⟨some ("bag." ++ site.recordingId ++ "." ++ toString segment.index),destination,
    .finalized,info.size⟩)])

/-- Move all segments. -/
def finalizeSegments (site : Site) (count : ℕ) :
    List (ℕ × BagFile) → List Segment → Recorder (List (ℕ × BagFile))
  | byIndex,[] => pure byIndex
  | byIndex,segment::rest => do
    let next ← finalizeSegment site count byIndex segment
    finalizeSegments site count next rest

/-- List the bags that were not closed, and refuse closed ones that were not issued. -/
def listPartials (site : Site) (expected : List String) : List String → Recorder Unit
  | [] => pure ()
  | name::rest => do
    let info ← lstat site name
    if info.regular=false then raise "bag inventory contains a non-regular file"
    if endsWith name ".bag.active" then
      edit fun d => {d with bagFiles := d.bagFiles ++ [⟨none,name,.partialBag,info.size⟩]}
    else if name∉expected then raise "bag inventory contains an unowned closed file"
    listPartials site expected rest

/-- The entries in the order of their numbers. -/
def inIndexOrder (byIndex : List (ℕ × BagFile)) : List BagFile :=
  (byIndex.mergeSort (fun a b => decide (a.1 ≤ b.1))).map Prod.snd

/-- The part of finalization whose failure is written to the manifest. -/
def issueSegments (site : Site) (segments : List Segment) : Recorder Unit := do
  let byIndex ← finalizeSegments site segments.length [] segments
  if byIndex=[] then raise "no closed bag volume was issued"
  let names ← recordedPaths site
  listPartials site (byIndex.map fun entry => entry.2.name) names
  edit fun d => {d with
    bagFiles := d.bagFiles ++ inIndexOrder byIndex
    archiveFinalizationState := some .finalized
    archiveFinalizationError := none}

/-- A status, or nothing when the call raises. -/
def tryStat (site : Site) (name : String) : Recorder (Option Stat) := fun m =>
  match lstat site name m with
  | .ok info t => .ok (some info) t
  | .error (.raised _) t => .ok none t
  | .error .killed t => .error .killed t

/-- List what was not closed, in a failed recording. -/
def listRetained (site : Site) (known : List String) : List String → Recorder Unit
  | [] => pure ()
  | name::rest => do
    if endsWith name ".bag.active" ∧ name∉known then
      let found ← tryStat site name
      match found with
      | some info =>
        if info.regular then edit fun d => {d with bagFiles := d.bagFiles ++ [⟨none,name,.partialBag,info.size⟩]}
      | none => pure ()
    listRetained site known rest

/-- Report the bags that were not closed. -/
def inventoryPartialFiles (site : Site) : Recorder Unit := fun m =>
  match recordedPaths site m with
  | .ok names t => listRetained site (t.document.bagFiles.map BagFile.name) names t
  | .error (.raised _) t => .ok () t
  | .error .killed t => .error .killed t

/-- A slot's name. -/
def validSlot (slot : String) : Bool :=
  match slot.toList with
  | [] => true
  | c::rest => c.isLower && rest.length ≤ 63 && rest.all (fun d => d.isLower || d.isDigit || d== '-')

/-- A digest of sixty-four hexadecimal digits. -/
def validDigest (digest : String) : Bool :=
  digest.length==64 && digest.toList.all (fun c => c.isDigit || ('a' ≤ c && c ≤ 'f'))

/-- The bytes of a file. -/
def World.bytesOf (w : World) (inode : ℕ) : List UInt8 :=
  match (w.inodes inode).contents with
  | .bytes data => data
  | .manifest _ => []

/-- Publish one issued bag. -/
def publishPart (site : Site) (entry : BagFile) : Recorder Part := do
  if entry.name="" ∨ entry.name="." ∨ entry.name=".." ∨ entry.name.toList.contains ('/') then
    raise "recorder part name is outside its owned directory"
  let info ← lstat site entry.name
  if info.regular=false ∨ info.size≠entry.sizeBytes then raise "issued bag identity changed"
  let m ← get
  let pinned ← match m.document.partContentReceipts.lookup entry.name with
    | some receipt =>
      if receipt.contentIdentity≠info ∨ validDigest receipt.sha256=false then
        raise "issued bag content changed after publication"
      else pure receipt.sha256
    | none => do
      let opened ← lstat site entry.name
      if opened≠info then raise "issued bag changed before hashing"
      call
      let after ← lstat site entry.name
      if after≠info then raise "issued bag changed during hashing"
      let digest := site.sha256 (m.world.bytesOf info.inode)
      edit fun d => {d with partContentReceipts := d.partContentReceipts ++ [(entry.name,⟨digest,info⟩)]}
      pure digest
  pure ⟨m.document.slotId,m.document.targetId,site.outputDirectory ++ "/" ++ entry.name,pinned,info.size⟩

/-- Publish the issued bags one after the other. -/
def publishEach (site : Site) : List BagFile → Recorder (List Part)
  | [] => pure []
  | entry::rest =>
    if entry.state≠.finalized then publishEach site rest
    else do
      let part ← publishPart site entry
      let others ← publishEach site rest
      pure (part::others)

/-- Publish the issued bags of a recording that did not fail. -/
def publishParts (site : Site) : Recorder Unit := do
  let m ← get
  if validSlot m.document.slotId=false then raise "recorder part has invalid accepted slotId"
  if m.document.archiveFinalizationState≠some .finalized ∨ m.document.status="failed" then
    edit fun d => {d with parts := []}
  else do
    let parts ← publishEach site m.document.bagFiles
    edit fun d => {d with parts := parts}

/-- Mark finalization as begun. -/
def begin (d : Document) : Document := {d with archiveFinalizationState := some .pending,bagFiles := []}

/-- The planned moves: those of the manifest, or what the directory holds. -/
def planSegments (site : Site) : Recorder (List Segment) := do
  let m ← get
  match m.document.archiveSegments with
  | some segments => pure segments
  | none => do
    let names ← recordedPaths site
    let found ← scanSegments site names
    let segments := nameSegments site found
    edit fun d => {d with archiveSegments := some segments}
    pure segments

/-- Give every closed segment its readable name. -/
def finalizeArchiveFiles (site : Site) (pid : ℕ) : Recorder Unit := do
  edit begin
  writeManifest site pid
  let segments ← planSegments site
  edit begin
  writeManifest site pid
  catchRaised (issueSegments site segments) fun text => do
    edit fun d => {d with
      status := "failed"
      archiveFinalizationState := some .failed
      archiveFinalizationError := some text}
    inventoryPartialFiles site
    writeManifest site pid
    raise text
  publishParts site
  writeManifest site pid

/-- Whether a manifest is one whose finalization goes on. -/
def resumes (d : Document) : Bool :=
  d.recordingEndedAt.isSome && (d.status=="stopped" || d.status=="completed" || d.status=="failed") &&
    (d.archiveFinalizationState==some .pending || d.archiveFinalizationState==some .failed)

/-- What a recorder that is started again does with the manifest it finds. -/
def resume (site : Site) (pid : ℕ) : Recorder Unit := do
  let info ← lstat site manifestName
  if info.regular=false then raise "existing ROS bag manifest is not a regular file"
  call
  let m ← get
  match (m.world.inodes info.inode).contents with
  | .bytes _ => raise "Expecting value: line 1 column 1 (char 0)"
  | .manifest existing =>
    if existing.recordingId≠site.recordingId ∨ existing.recordNamingVersion≠1 then
      raise "existing ROS bag manifest belongs to another record"
    if resumes existing=false then raise "ROS bag record has already started; existing bytes are retained"
    edit fun _ => existing
    finalizeArchiveFiles site pid

/-- One run of a recorder: its process number and what its calls do. -/
structure Attempt where
  /-- Number of the process. -/
  pid : ℕ
  /-- What its calls to the file system do. -/
  plan : List (Option String)

/-- The directory after the first run, which ended the recording. -/
def firstWorld (site : Site) (w : World) (document : Document) (attempt : Attempt) : World :=
  (stateOf (finalizeArchiveFiles site attempt.pid ⟨w,attempt.plan,document⟩)).world

/-- The directory after one more run. -/
def laterWorld (site : Site) (document : Document) (w : World) (attempt : Attempt) : World :=
  (stateOf (resume site attempt.pid ⟨w,attempt.plan,document⟩)).world

/-- The directory after a first run and any number of later ones. -/
def worldAfter (site : Site) (w : World) (document : Document) (first : Attempt) (later : List Attempt) : World :=
  run (laterWorld site document) (firstWorld site w document first) later

end Ros1Adapter.BagFinalization
