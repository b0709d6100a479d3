import Mathlib
import Ros1Adapter.ActionRules
import Ros1Adapter.SceneStore

/-!
# Resolution of scene sources

A source is a document, a fixed geometry or a random one whose generator fills
a result file beside its metadata. Each call looks for the result, runs the
generator, writes both files by renaming temporary ones over them and loads
the result; other processes may act between any two of these steps. What a
generator prints belongs to the surroundings.
-/

namespace Ros1Adapter.SceneGeneration

open SceneJson SceneJsonText SceneDocument SceneFiles SceneYaml SceneStore ActionRules

section Sources

variable (X : Externals)

/-- Tables and decoders of the generator interface. -/
structure Generator where
  /-- Python's `str.isalnum` for one character. -/
  alphanumeric : Char → Bool
  /-- Python's `json.loads` for the output of a generator. -/
  decode : ByteArray → Except Error Json

/-- What a source file asks for. -/
inductive Source where
  /-- The file is a scene document. -/
  | document (value : Json)
  /-- The file holds a fixed document. -/
  | fixed (value : Json)
  /-- The file names a generator. -/
  | random (value : Json)

/-- Classify the value of a source file. -/
def classify (value : Json) : Except Error Source :=
  match value with
  | .object _ =>
    if !isText (value.valueOr "schema" .null) "xgc2.scene-source.v1" then .ok (.document value)
    else
      let mode := value.valueOr "mode" .null
      if !isText (value.valueOr "format" .null) "geometry" || (!isText mode "fixed" && !isText mode "random") then
        .error (sceneError "Scene source requires explicit geometry format and fixed/random mode")
      else if isText mode "fixed" then do
        let fixed ← value.atKey "document"
        return .fixed fixed
      else .ok (.random value)
  | _ => .ok (.document value)

/-- What the bytes of a source file ask for. -/
def sourceOf (raw : ByteArray) : Except Error Source := do
  let value ← X.parseYaml raw
  classify value

/-- Python truth of a value. -/
def truth : Json → Bool
  | .null => false
  | .boolean value => value
  | .integer value => value≠0
  | .float value => value != 0
  | .string text => text≠""
  | .array items => !items.isEmpty
  | .object members => !members.isEmpty

/-- Whether a key may name a generator parameter. -/
def parameterName (G : Generator) (key : String) : Bool :=
  match key.toList with
  | [] => false
  | first::rest => first ≠ '-' && (first::rest).all (fun c => c = '-' || G.alphanumeric c)

/-- Command of a generator as an argument vector. -/
def commandWords : List Json → Option (List String)
  | [] => some []
  | .string word::rest => if word.toList.any (fun c => c.toNat=0) then none else (commandWords rest).map (word::·)
  | _::_ => none

/-- Arguments for the parameters of a generator. -/
def parameterWords (G : Generator) : List (String × Json) → Except Error (List String)
  | [] => .ok []
  | (key,value)::rest =>
    if !parameterName G key then .error (sceneError "Invalid generator parameter name")
    else match value with
      | .float number =>
        if !number.isFinite then .error (sceneError "Generator parameter must be a finite number")
        else do
          let words ← parameterWords G rest
          return ("--" ++ key)::X.spell number::words
      | .integer number => do
        let words ← parameterWords G rest
        return ("--" ++ key)::toString number::words
      | _ => .error (sceneError "Generator parameter must be a finite number")

/-- Parameters with the requested overrides; every override is declared. -/
def overridden (params requested : List (String × Json)) : Except Error (List (String × Json)) :=
  if requested.all (fun entry => (params.lookup entry.1).isSome) then
    .ok (requested.foldl (fun members entry => Json.setMember entry.1 entry.2 members) params)
  else .error (sceneError "Scene generation parameters are not declared by this generator")

/-- Member access with a default; only objects have members. -/
def fieldOr (value : Json) (key : String) (fallback : Json) : Except Error Json :=
  match value with
  | .object _ => .ok (value.valueOr key fallback)
  | _ => .error (jsonError "cannot use value() with this type")

/-- Parameters of a generator as an object, with the overrides of a call. -/
def callParameters (generator overrides : Json) : Except Error (List (String × Json)) := do
  let params ← fieldOr generator "parameters" (.object [])
  match params,if truth overrides then overrides else .object [] with
  | .object declared,.object requested => overridden declared requested
  | _,_ => .error (sceneError "Scene generation parameters are not declared by this generator")

/-- Command of a generator. -/
def generatorCommand (generator : Json) : Except Error (List String) := do
  let command ← fieldOr generator "command" .null
  match command with
  | .array (first::rest) =>
    match commandWords (first::rest) with
    | some words => return words
    | none => .error (sceneError "Scene generator requires an explicit argument vector")
  | _ => .error (sceneError "Scene generator requires an explicit argument vector")

/-- Argument vector and parameters of a generator run. -/
def generatorRun (G : Generator) (value overrides : Json) : Except Error (List String × List (String × Json)) := do
  let generator ← value.atKey "generator"
  let command ← generatorCommand generator
  let params ← callParameters generator overrides
  let words ← parameterWords X G params
  return (command ++ words,params)

/-- Python's complaint about a result without members. -/
def indexComplaint : Json → String
  | .array _ => "list indices must be integers or slices, not str"
  | .string _ => "string indices must be integers"
  | .null => "'NoneType' object is not subscriptable"
  | .boolean _ => "'bool' object is not subscriptable"
  | .float _ => "'float' object is not subscriptable"
  | _ => "'int' object is not subscriptable"

/-- Document of a generator result. -/
def producedScene (produced : Json) : Except Error Json :=
  match produced with
  | .object _ =>
    match produced.member "scene" with
    | none => .error (sceneError "Invalid generator result: 'scene'")
    | some scene =>
      match document X.spell X.math scene with
      | .ok generated => .ok generated
      | .error error =>
        if error.kind=.scene then .error (sceneError ("Invalid generator result: " ++ error.what)) else .error error
  | other => .error (sceneError ("Invalid generator result: " ++ indexComplaint other))

/-- Metadata of a generated scene. -/
def generationMetadata (raw : ByteArray) (params : List (String × Json)) (produced : Json) : Json :=
  let rest := Json.object (produced.members.filter (fun entry => entry.1≠"scene"))
  (((rest.set "parameters" (.object params)).set "sourceSha256" (.string (X.digest raw))).set "mode"
    (.string "random")).set "format" (.string "geometry")

/-- Value that a generator printed with its scene document. -/
def generatedScene (G : Generator) (output : ByteArray) : Except Error (Json × Json) := do
  let produced ← G.decode output
  let generated ← producedScene X produced
  return (produced,generated)

/-- Texts of the metadata and of the scene within the byte limit of a call. -/
def artifacts (maxBytes : ℕ) (raw : ByteArray) (params : List (String × Json)) (produced generated : Json) :
    Except Error (String × String) :=
  let metadata := dumpYaml X.spell (generationMetadata X raw params produced)
  let scene := dumpYaml X.spell generated
  if maxBytes < metadata.utf8ByteSize || maxBytes-metadata.utf8ByteSize<scene.utf8ByteSize then
    .error (sceneError "Generated scene artifacts exceed the granted byte limit")
  else .ok (metadata,scene)

/-- The exception of a failed system call. -/
def systemError (code : ℕ) (what : String) : Error := ⟨.system,what ++ X.errnoText code⟩

/-- The exception of a failed read. -/
def readError (code : ℕ) (path : Path) : Error := systemError X code (path.text ++ ": ")

/-- Document of a file with its digest. -/
def load (files : Files) (fault : Fault) (path : Path) : Except Error (Json × String) :=
  match fault,files.contents path with
  | some code,_ => .error (readError X code path)
  | none,none => .error (readError X (if files.directories path then 21 else 2) path)
  | none,some bytes =>
    if kMaxDocumentBytes<bytes.size then .error (sceneError "Scene file exceeds the supported size")
    else loadBytes X bytes

/-- The path and its ancestors exist as directories. -/
def createDirectories (files : Files) (path : Path) : Files :=
  {files with directories := fun other => files.directories other || other.isPrefixOf path}

/-- Rename a complete temporary file over its target. -/
def writeArtifact (files : Files) (path : Path) (body : String) : Files :=
  {files with contents := Function.update files.contents path (some body.toUTF8)}

end Sources

section Paths

/-- Name without its extension; a leading and a trailing dot belong to the name. -/
def stemOf (name : List Char) : List Char :=
  let suffix := (name.reverse.takeWhile (fun c => c ≠ '.')).reverse
  if suffix.length=name.length || suffix=[] || suffix.length+1=name.length then name
  else name.take (name.length-(suffix.length+1))

/-- Ending of the metadata file. -/
def metadataEnding : List Char := ".generation.yaml".toList

/-- Metadata file beside a result file. -/
def metadataPath (target : Path) : Path :=
  target.parent ++ [String.ofList (stemOf target.filename.toList ++ metadataEnding)]

/-- A stem with the metadata ending is another name. -/
theorem stemOf_ending_ne (name : List Char) : stemOf name ++ metadataEnding≠name := by
  have long : metadataEnding.length=16 := rfl
  intro same
  unfold stemOf at same
  simp only at same
  split at same
  · have sizes := congrArg List.length same
    rw [List.length_append] at sizes
    omega
  · next proper =>
    -- The extension has no dot, but the ending has one after its first.
    generalize hs : (name.reverse.takeWhile (fun c => c ≠ '.')).reverse=suffix at same proper
    simp only [Bool.or_eq_true,decide_eq_true_eq,not_or] at proper
    have bare : '.' ∉ suffix := by
      intro member
      rw [← hs,List.mem_reverse] at member
      have free := List.mem_takeWhile_imp member
      simp at free
    have tail : suffix <:+ name := by
      have start : name.reverse.takeWhile (fun c => c ≠ '.') <+: name.reverse := List.takeWhile_prefix _
      have turned := List.reverse_suffix.mpr start
      rw [List.reverse_reverse,hs] at turned
      exact turned
    have ending : metadataEnding <:+ name := ⟨_,same⟩
    have sizes := congrArg List.length same
    rw [List.length_append,List.length_take] at sizes
    have shorter : suffix.length+1=16 := by
      have fits := tail.length_le
      have fits_ := ending.length_le
      omega
    have inner : suffix <:+ metadataEnding := List.suffix_of_suffix_length_le tail ending (by omega)
    obtain ⟨front,whole⟩ := inner
    have one : front.length=1 := by
      have lengths := congrArg List.length whole
      rw [List.length_append] at lengths
      omega
    have found : '.' ∈ suffix := by
      have dropped : suffix=metadataEnding.drop 1 := by
        rw [← whole,← one,List.drop_left]
      rw [dropped]
      decide
    exact bare found

/-- The metadata file is not the result file. -/
theorem metadataPath_ne (target : Path) : metadataPath target≠target := by
  intro same
  have ht : target≠[] := by
    intro empty
    rw [empty] at same
    cases same
  have shape : target.parent ++ [target.filename]=target := by
    unfold Path.parent Path.filename
    rw [List.getLast?_eq_some_getLast ht]
    exact List.dropLast_append_getLast ht
  unfold metadataPath at same
  nth_rewrite 3 [← shape] at same
  have names := (List.append_inj' same rfl).2
  have name := congrArg String.toList (List.cons.inj names).1
  rw [String.toList_ofList] at name
  exact stemOf_ending_ne _ name

end Paths

section Machine

/-- What concurrent calls have in common. -/
structure Setting where
  /-- Libraries. -/
  X : Externals
  /-- Generator interface. -/
  G : Generator
  /-- Result file. -/
  working : Path
  /-- Bytes of the source file. -/
  raw : ByteArray
  /-- Value of the source file. -/
  value : Json
  /-- The source asks for random geometry. -/
  random : sourceOf X raw=.ok (.random value)

/-- Arguments of one call beside the common ones. -/
structure Call where
  /-- Overrides of generator parameters. -/
  overrides : Json
  /-- Byte limit. -/
  maxBytes : ℕ

/-- Where a call stands. -/
inductive Point where
  /-- About to read the source. -/
  | start
  /-- About to look for the result file. -/
  | looking
  /-- About to run the generator. -/
  | generating (arguments : List String) (params : List (String × Json))
  /-- About to create the directory of the result file. -/
  | creating (params : List (String × Json)) (produced generated : Json)
  /-- About to write the metadata file. -/
  | writingMetadata (metadata scene : String)
  /-- About to write the result file. -/
  | writingScene (scene : String)
  /-- About to load the result file. -/
  | loading
  /-- The call returned. -/
  | returned
  /-- The call threw. -/
  | thrown (error : Error)

/-- Values that a call returned. -/
structure Return where
  /-- Number of the call. -/
  caller : ℕ
  /-- Document. -/
  document : Json
  /-- Digest. -/
  digest : String

/-- Files and calls. -/
structure Calls where
  /-- Files. -/
  files : Files
  /-- Position of each call. -/
  points : ℕ → Point := fun _ => .start
  /-- Values returned so far; it is no part of the source. -/
  returns : List Return := []

/-- What the surroundings decide in one step of a call. -/
structure Turn where
  /-- Number of the call. -/
  caller : ℕ
  /-- Failure of the system call of the step. -/
  fault : Fault := none
  /-- Output of the generator, or its exception. -/
  output : Except Error ByteArray := .ok ByteArray.empty

variable (S : Setting) (calls : ℕ → Call)

/-- A call moves on. -/
def goto (caller : ℕ) (point : Point) (s : Calls) : Calls := {s with points := Function.update s.points caller point}

/-- Read the source; a random one needs a result file. -/
def readSource (turn : Turn) (s : Calls) : Calls :=
  match turn.fault with
  | some code => goto turn.caller (.thrown (readError S.X code [])) s
  | none =>
    if kMaxDocumentBytes<S.raw.size then
      goto turn.caller (.thrown (sceneError "Scene source exceeds the supported size")) s
    else if S.working.isEmpty then
      goto turn.caller (.thrown (sceneError "Random scene requires a run-owned result file")) s
    else goto turn.caller .looking s

/-- Use a result that exists or prepare a run of the generator. -/
def lookForResult (turn : Turn) (s : Calls) : Calls :=
  match turn.fault with
  | some code => goto turn.caller (.thrown (readError S.X code S.working)) s
  | none =>
    if (s.files.contents S.working).isSome then goto turn.caller .loading s
    else match generatorRun S.X S.G S.value (calls turn.caller).overrides with
      | .error error => goto turn.caller (.thrown error) s
      | .ok run => goto turn.caller (.generating run.1 run.2) s

/-- Run the generator and check its result. -/
def runGenerator (turn : Turn) (params : List (String × Json)) (s : Calls) : Calls :=
  match turn.output with
  | .error error => goto turn.caller (.thrown error) s
  | .ok output =>
    match generatedScene S.X S.G output with
    | .error error => goto turn.caller (.thrown error) s
    | .ok result => goto turn.caller (.creating params result.1 result.2) s

/-- Create the directory of the result and check the size of what is to be written. -/
def createDirectory (turn : Turn) (params : List (String × Json)) (produced generated : Json) (s : Calls) : Calls :=
  match turn.fault with
  | some code => goto turn.caller (.thrown (systemError S.X code "")) s
  | none =>
    let made := {s with files := createDirectories s.files S.working.parent}
    match artifacts S.X (calls turn.caller).maxBytes S.raw params produced generated with
    | .error error => goto turn.caller (.thrown error) made
    | .ok texts => goto turn.caller (.writingMetadata texts.1 texts.2) made

/-- Write one of the two files. -/
def write (turn : Turn) (path : Path) (body : String) (next : Point) (s : Calls) : Calls :=
  match turn.fault with
  | some code => goto turn.caller (.thrown (systemError S.X code "")) s
  | none => goto turn.caller next {s with files := writeArtifact s.files path body}

/-- Load the result and return. -/
def finish (turn : Turn) (s : Calls) : Calls :=
  match load S.X s.files turn.fault S.working with
  | .error error => goto turn.caller (.thrown error) s
  | .ok result => goto turn.caller .returned {s with returns := s.returns ++ [⟨turn.caller,result.1,result.2⟩]}

/-- One step of a call of `resolve`. -/
def step (s : Calls) (turn : Turn) : Calls :=
  match s.points turn.caller with
  | .start => readSource S turn s
  | .looking => lookForResult S calls turn s
  | .generating _ params => runGenerator S turn params s
  | .creating params produced generated => createDirectory S calls turn params produced generated s
  | .writingMetadata metadata scene => write S turn (metadataPath S.working) metadata (.writingScene scene) s
  | .writingScene scene => write S turn S.working scene .loading s
  | .loading => finish S turn s
  | .returned => s
  | .thrown _ => s

end Machine

section Agreement

variable {S : Setting} {calls : ℕ → Call}

/-- Every call that returned has the document and digest of the stored result. -/
def Agreed (S : Setting) (s : Calls) : Prop :=
  ∀ r∈s.returns, ∃ bytes, s.files.contents S.working=some bytes ∧ loadBytes S.X bytes=.ok (r.document,r.digest)

/-- A write of the result comes before every return or stores the same bytes again. -/
def unshaken (S : Setting) (s : Calls) (turn : Turn) : Bool :=
  match s.points turn.caller with
  | .writingScene scene =>
    turn.fault.isSome || s.returns.isEmpty || decide (s.files.contents S.working=some scene.toUTF8)
  | _ => true

/-- Agreement depends only on the stored result and the returns. -/
theorem agreed_frame {s t : Calls} (h : Agreed S s) (hf : t.files.contents S.working=s.files.contents S.working)
    (hr : t.returns=s.returns) : Agreed S t := by
  intro r member
  rw [hr] at member
  rw [hf]
  exact h r member

/-- A load returns the document and digest of the stored bytes. -/
theorem load_ok {X : Externals} {files : Files} {fault : Fault} {path : Path} {result : Json × String}
    (h : load X files fault path=.ok result) : ∃ bytes, files.contents path=some bytes ∧ loadBytes X bytes=.ok result := by
  unfold load at h
  split at h
  · cases h
  · cases h
  · next bytes stored =>
    split at h
    · cases h
    · exact ⟨bytes,stored,h⟩

/-- A step that lets the returned result stand keeps the agreement. -/
theorem step_agreed {s : Calls} (h : Agreed S s) {turn : Turn} (hu : unshaken S s turn=true) :
    Agreed S (step S calls s turn) := by
  unfold step
  split
  · unfold readSource
    split
    · exact agreed_frame h rfl rfl
    · split
      · exact agreed_frame h rfl rfl
      · split <;> exact agreed_frame h rfl rfl
  · unfold lookForResult
    split
    · exact agreed_frame h rfl rfl
    · split
      · exact agreed_frame h rfl rfl
      · split <;> exact agreed_frame h rfl rfl
  · unfold runGenerator
    split
    · exact agreed_frame h rfl rfl
    · split <;> exact agreed_frame h rfl rfl
  · unfold createDirectory
    split
    · exact agreed_frame h rfl rfl
    · simp only
      split <;> exact agreed_frame h rfl rfl
  · unfold write
    split
    · exact agreed_frame h rfl rfl
    · refine agreed_frame h ?_ rfl
      exact Function.update_of_ne (metadataPath_ne S.working).symm ..
  · next scene at_ =>
    unfold write
    split
    · exact agreed_frame h rfl rfl
    · next sound =>
      unfold unshaken at hu
      rw [at_] at hu
      simp only [sound,Option.isSome_none,Bool.false_or,Bool.or_eq_true,List.isEmpty_iff,decide_eq_true_eq] at hu
      rcases hu with before | same
      · intro r member
        have never : r∈s.returns := member
        rw [before] at never
        cases never
      · refine agreed_frame h ?_ rfl
        rw [same]
        exact Function.update_self ..
  · unfold finish
    split
    · exact agreed_frame h rfl rfl
    · next result loaded =>
      intro r member
      rcases List.mem_append.mp member with old | new
      · exact h r old
      · rw [List.mem_singleton.mp new]
        exact load_ok loaded
  · exact h
  · exact h

/-- In every run in which no returned result is replaced by other bytes, all
calls that returned have the document and digest of the stored result. -/
theorem run_agreed (S : Setting) (calls : ℕ → Call) (files : Files) (turns : List Turn)
    (h : Along (step S calls) (fun s turn => unshaken S s turn=true) {files := files} turns) :
    Agreed S (run (step S calls) {files := files} turns) :=
  run_invariant (fun s turn (hs : Agreed S s) hu => step_agreed hs hu) (fun _ member => by cases member) h

/-- Agreement on digests. -/
theorem agreed_digest {s : Calls} (h : Agreed S s) :
    s.returns.all (fun r => decide ((s.files.contents S.working).map S.X.digest=some r.digest))=true := by
  refine List.all_eq_true.mpr (fun r member => decide_eq_true ?_)
  obtain ⟨bytes,stored,loaded⟩ := h r member
  unfold loadBytes at loaded
  obtain ⟨value,-,rest⟩ := except_bind_ok.mp loaded
  obtain ⟨checked,-,result⟩ := except_bind_ok.mp rest
  have digest := congrArg Prod.snd (Except.ok.inj result)
  rw [stored]
  exact congrArg some digest

/-- A scene without obstacles under a name. -/
def namedScene (id : String) : Json :=
  .object [("schema",.string kSchema),("id",.string id),("frame",.string "map"),("obstacles",.array [])]

/-- A random source. -/
def randomSource : Json :=
  .object [("schema",.string "xgc2.scene-source.v1"),("format",.string "geometry"),("mode",.string "random"),
    ("generator",.object [("command",.array [.string "generate"])])]

/-- Values of the source and of two generated scenes. -/
def parseSample (bytes : ByteArray) : Except Error Json :=
  if bytes="source".toUTF8 then .ok randomSource
  else if bytes=(dumpYaml (fun _ => "0.0") (namedScene "hall")).toUTF8 then .ok (namedScene "hall")
  else if bytes=(dumpYaml (fun _ => "0.0") (namedScene "yard")).toUTF8 then .ok (namedScene "yard")
  else .error (jsonError "parse error")

/-- A generator whose two outputs name different scenes. -/
def sampleGenerator : Generator where
  alphanumeric := Char.isAlphanum
  decode := fun output =>
    .ok (.object [("scene",namedScene (if output="1".toUTF8 then "hall" else "yard"))])

/-- Two calls on one random source. -/
def sampleSetting : Setting where
  X := sampleExternals parseSample
  G := sampleGenerator
  working := ["run","scene.yaml"]
  raw := "source".toUTF8
  value := randomSource
  random := by
    have parsed : parseSample "source".toUTF8=.ok randomSource := if_pos rfl
    show parseSample "source".toUTF8 >>= classify=_
    rw [parsed]
    rfl

/-- Arguments of the sample calls. -/
def sampleCalls : ℕ → Call := fun _ => ⟨.null,4096⟩

/-- Steps of a call that generates a scene, after it found no result. -/
def generateSteps (caller : ℕ) (output : String) : List Turn :=
  [{caller := caller, output := .ok output.toUTF8},{caller := caller},{caller := caller},{caller := caller},
    {caller := caller}]

/-- Steps of a call up to its look for a result. -/
def lookSteps (caller : ℕ) : List Turn := [{caller := caller},{caller := caller}]

/-- Two calls that both find no result: the second replaces what the first returned. -/
theorem racing_calls_disagree : ¬∀ (S : Setting) (calls : ℕ → Call) (files : Files) (turns : List Turn),
    Agreed S (run (step S calls) {files := files} turns) := by
  intro h
  have agreed := agreed_digest (h sampleSetting sampleCalls (filesOf [] [])
    (lookSteps 1 ++ lookSteps 2 ++ generateSteps 1 "1" ++ generateSteps 2 "2"))
  revert agreed
  decide +kernel

/-- A call that looks after the other one wrote its scene returns the same result. -/
theorem later_call_agrees :
    let turns := lookSteps 1 ++ generateSteps 1 "1" ++ lookSteps 2 ++ [{caller := 2}]
    Along (step sampleSetting sampleCalls) (fun s turn => unshaken sampleSetting s turn=true) {files := filesOf [] []} turns ∧
      (run (step sampleSetting sampleCalls) {files := filesOf [] []} turns).returns.length=2 ∧
      Agreed sampleSetting (run (step sampleSetting sampleCalls) {files := filesOf [] []} turns) := by
  intro turns
  have calm : Along (step sampleSetting sampleCalls) (fun s turn => unshaken sampleSetting s turn=true)
      {files := filesOf [] []} turns := by
    decide +kernel
  exact ⟨calm,by decide +kernel,run_agreed sampleSetting sampleCalls _ turns calm⟩

end Agreement

end Ros1Adapter.SceneGeneration
