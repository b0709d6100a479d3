import Ros1Adapter.SceneDocument
import Ros1Adapter.SceneYaml

/-!
# Scene files

Paths are absolute and in normal form, as the store resolves them. Files hold
bytes; every system call of a save has a recorded outcome, so a run may fail
at any of them. Reading enforces the size limit of the source and loading
validates the whole document.
-/

namespace Ros1Adapter.SceneFiles

open SceneJson SceneJsonText SceneDocument

/-- Components of an absolute path. -/
abbrev Path := List String

namespace Path

/-- Containing directory. -/
def parent (path : Path) : Path := path.dropLast

/-- Last component. -/
def filename (path : Path) : String := path.getLast?.getD ""

/-- Text form of the path. -/
def text (path : Path) : String := path.foldl (fun text part => text ++ "/" ++ part) ""

/-- Extension of the last component, with its dot. -/
def extension (path : Path) : List Char :=
  let name := path.filename.toList
  let suffix := (name.reverse.takeWhile (· ≠ '.')).reverse
  if name=['.','.'] || suffix.length=name.length || suffix.length+1=name.length then []
  else '.' :: suffix

/-- Both paths after their common leading components. -/
def afterCommon : Path → Path → Path × Path
  | a::as,b::bs => if a=b then afterCommon as bs else (a::as,b::bs)
  | as,bs => (as,bs)

/-- Relative path from a base; nothing when the base leaves the root. -/
def lexicallyRelative (target base : Path) : Option Path :=
  let rest := afterCommon target base
  let up := (rest.2.filter (fun part => part≠"" ∧ part≠"." ∧ part≠"..")).length
  let down := (rest.2.filter (fun part => part=="..")).length
  if rest.1=[] ∧ rest.2=[] then some ["."]
  else if up<down then none
  else if up=down ∧ (rest.1=[] ∨ rest.1.head?=some "") then some ["."]
  else some (List.replicate (up-down) ".." ++ rest.1)

end Path

/-- Largest document that the core reads. -/
def kMaxDocumentBytes : ℕ := 8*1024*1024

/-- Everything outside the modelled sources that files and documents need. -/
structure Externals where
  /-- Shortest round-trip spelling of a double. -/
  spell : Float → String
  /-- Double arithmetic and geometry mathematics. -/
  math : Math
  /-- SHA-256 text of a byte string. -/
  digest : ByteArray → String
  /-- YAML construction of a byte string. -/
  parseYaml : ByteArray → Except Error Json
  /-- Message of a system error number. -/
  errnoText : ℕ → String

/-- Contents of all files and the set of directories. -/
structure Files where
  /-- Bytes of each regular file. -/
  contents : Path → Option ByteArray
  /-- Directories. -/
  directories : Path → Bool

/-- Error number of a failed system call, or nothing when it succeeds. -/
abbrev Fault := Option ℕ

/-- Outcome of one `write` call. -/
inductive WriteOutcome where
  /-- Some bytes were written. -/
  | wrote (count : ℕ)
  /-- The call was interrupted before it wrote. -/
  | interrupted
  /-- The call failed. -/
  | failed (errno : ℕ)

/-- Outcomes of the system calls of one save, in call order. -/
structure SaveIo where
  /-- Creation of the working directory. -/
  createDirectories : Fault := none
  /-- Directory test of the parent. -/
  isDirectory : Fault := none
  /-- Digest of the target before encoding. -/
  digestBefore : Fault := none
  /-- Creation of the temporary file. -/
  mkstemps : Fault := none
  /-- Characters that the creation chose for the temporary name. -/
  chosen : String := "XXXXXX"
  /-- Existence and mode of the target. -/
  stat : Fault := none
  /-- Mode of the temporary file. -/
  fchmod : Fault := none
  /-- Calls of the write loop; later calls write everything. -/
  writes : List WriteOutcome := []
  /-- Synchronization of the temporary file. -/
  fsync : Fault := none
  /-- Close of the temporary file. -/
  close : Fault := none
  /-- Digest of the target before the rename. -/
  digestAfter : Fault := none
  /-- Rename over the target. -/
  rename : Fault := none
  /-- Open of the containing directory. -/
  directoryOpen : Fault := none
  /-- Synchronization of the containing directory. -/
  directorySync : Fault := none
  /-- Close of the containing directory. -/
  directoryClose : Fault := none

/-- Outcomes of all system calls of one command. -/
structure CommandIo where
  /-- Digest of the source before an edit or a save. -/
  check : Fault := none
  /-- Read of a reload. -/
  load : Fault := none
  /-- The save of a requested save. -/
  save : SaveIo := {}
  /-- The save into the working file before an edit. -/
  prepare : SaveIo := {}
  /-- The save after an edit. -/
  autosave : SaveIo := {}

section Reading

variable (X : Externals)

/-- Python-style text of a system error. -/
def ioError (code : ℕ) (path : Path) : Error :=
  sceneError ("[Errno " ++ toString code ++ "] " ++ X.errnoText code ++ ": " ++ reprText path.text)

/-- System error that names the target as well. -/
def renameError (code : ℕ) (path target : Path) : Error :=
  sceneError ((ioError X code path).what ++ " -> " ++ reprText target.text)

/-- Whether the path names a file or a directory. -/
def Files.present (files : Files) (path : Path) : Bool :=
  (files.contents path).isSome || files.directories path

/-- Bytes of a file within the size limit. -/
def read (files : Files) (fault : Fault) (path : Path) : Except Error ByteArray :=
  match fault with
  | some code => .error (ioError X code path)
  | none =>
    match files.contents path with
    | none => .error (ioError X (if files.directories path then 21 else 2) path)
    | some bytes =>
      if kMaxDocumentBytes<bytes.size then .error (sceneError "Scene file exceeds the supported size")
      else .ok bytes

/-- Validated document of a byte string with its digest. -/
def loadBytes (bytes : ByteArray) : Except Error (Json × String) := do
  let value ← X.parseYaml bytes
  let document ← document X.spell X.math value
  return (document,X.digest bytes)

/-- Validated document of a file with its digest. -/
def readDocument (files : Files) (fault : Fault) (path : Path) : Except Error (Json × String) := do
  let bytes ← read X files fault path
  loadBytes X bytes

/-- Digest of a file, or nothing for an absent one. -/
def currentDigest (files : Files) (fault : Fault) (path : Path) : Except Error (Option String) :=
  match fault with
  | some code => .error (ioError X code path)
  | none =>
    if files.present path then do
      let bytes ← read X files none path
      return some (X.digest bytes)
    else .ok none

/-- The write loop: every byte is written, or the first failure is thrown. -/
def writeLoop (path : Path) : ℕ → List WriteOutcome → Except Error Unit
  | 0,_ => .ok ()
  | _+1,[] => .ok ()
  | remaining+1,.wrote count::rest =>
    if count=0 then .error (ioError X 5 path) else writeLoop path (remaining+1-count) rest
  | remaining+1,.interrupted::rest => writeLoop path (remaining+1) rest
  | _+1,.failed code::_ => .error (ioError X code path)

/-- Throw the error of a failed call on a path. -/
def require (fault : Fault) (path : Path) : Except Error Unit :=
  match fault with
  | some code => .error (ioError X code path)
  | none => .ok ()

/-- Path of the temporary file beside its target. -/
def temporaryPath (io : SaveIo) (target : Path) : Path :=
  target.parent ++ ["." ++ target.filename ++ "." ++ io.chosen ++ ".tmp"]

/-- Create, fill, synchronize and close the temporary file of a save. -/
def writeTemporary (io : SaveIo) (present : Bool) (target : Path) (size : ℕ) : Except Error Unit := do
  let temporary := temporaryPath io target
  require X io.mkstemps target.parent
  if present then
    require X io.stat target
    require X io.fchmod temporary
  writeLoop X temporary size io.writes
  require X io.fsync temporary
  require X io.close temporary

end Reading

end Ros1Adapter.SceneFiles
