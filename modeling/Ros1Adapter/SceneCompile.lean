import Ros1Adapter.SceneDocumentNormal
import Ros1Adapter.SceneFiles
import Ros1Adapter.SceneFingerprint

/-!
# Scene compilation

A compiled scene is a closed self-contained form of a document: every part
refers to a shared table of geometries, every obstacle to a model, and models
of resource files are baked. Mesh import and SDF parsing are libraries outside
this repository; their results are data of the asset directory here.
-/

namespace Ros1Adapter.SceneCompile

open SceneJson SceneJsonText SceneDocument SceneDocumentNormal SceneFiles SceneFingerprint ActionRules

/-- Schema identity of compiled documents. -/
def kCompiledSchema : String := "xgc2.scene.compiled.v1"

section Assets

/-- Placement in native form. -/
structure Pose3 where
  /-- Position along x. -/
  x : Float := 0
  /-- Position along y. -/
  y : Float := 0
  /-- Position along z. -/
  z : Float := 0
  /-- First vector component of the orientation. -/
  qx : Float := 0
  /-- Second vector component of the orientation. -/
  qy : Float := 0
  /-- Third vector component of the orientation. -/
  qz : Float := 0
  /-- Scalar component of the orientation. -/
  qw : Float := 1

/-- One imported mesh with its node transform applied. -/
structure RawMesh where
  /-- Corner positions. -/
  vertices : List (List Float)
  /-- Faces as indices into the corners. -/
  faces : List (List (Fin vertices.length))

/-- Collision shape of an SDF body. -/
inductive SdfGeometry where
  | box (size : List Float)
  | sphere (radius : Float)
  | cylinder (radius length : Float)
  | mesh (uri : String) (sx sy sz : Float)
  | unsupported

/-- A collision of an SDF link; the pose is the resolved one or the refusal. -/
structure SdfCollision where
  /-- Name of the collision. -/
  name : String
  /-- Shape, if present. -/
  geometry : Option SdfGeometry
  /-- Pose in the model frame. -/
  pose : Except String Pose3

/-- A link of an SDF model. -/
structure SdfLink where
  /-- Name of the link. -/
  name : String
  /-- Collisions in order. -/
  collisions : List SdfCollision

/-- An SDF model with nested models; elements are tags with their names. -/
inductive SdfModel where
  | mk (name : String) (elements : List (String × Option String)) (pose : Except String Pose3)
    (links : List SdfLink) (models : List SdfModel)

/-- Outcome of reading an SDF file. -/
inductive SdfRead where
  | missing
  | malformed (what : String)
  | includes
  | refused (what : String)
  | root (worlds : ℕ) (models : List SdfModel)

/-- What compilation can read of the asset directories. -/
structure Assets where
  /-- Directories. -/
  directory : Path → Bool
  /-- Regular files. -/
  regular : Path → Bool
  /-- Meshes of a file in visiting order, or nothing when it cannot be parsed. -/
  meshes : Path → Option (List RawMesh)
  /-- Content of an SDF file. -/
  sdf : Path → SdfRead
  /-- Composition of placements. -/
  compose : Pose3 → Pose3 → Pose3

/-- JSON of a placement. -/
def fromPose (pose : Pose3) : Json :=
  .object [("position",floats [pose.x,pose.y,pose.z]),
    ("orientation",floats [pose.qx,pose.qy,pose.qz,pose.qw])]

/-- One component of a path in normal form; a parent step removes the last one. -/
def normalStep (path : Path) (component : String) : Path :=
  if component="" ∨ component="." then path
  else if component=".." then path.dropLast
  else path ++ [component]

/-- Base and relative text joined in normal form; a trailing separator stays. -/
def joined (base : Path) (relative : String) : Path :=
  let components := (segments relative.toList).map String.ofList
  let path := components.foldl normalStep base
  match components.getLast? with
  | some last => if last="" ∨ last="." ∨ last=".." then path ++ [""] else path
  | none => path

/-- A resource file below the asset directory. -/
def insideRoot (assets : Assets) (root base : Path) (relative : String) : Except Error Path :=
  if "model://".toList.isPrefixOf relative.toList || relative.toList.head?==some '/' then
    .error (sceneError "Scene resource URI must be asset-relative")
  else
    let full := joined base relative
    match full.lexicallyRelative root with
    | none => .error (sceneError "Scene resource URI must stay inside the asset directory")
    | some stayed =>
      if stayed.head?==none || stayed.head?==some ".." then
        .error (sceneError "Scene resource URI must stay inside the asset directory")
      else if !assets.regular full then .error (sceneError "Scene resource file is missing")
      else .ok full

end Assets

section Compiler

/-- Source of a mesh geometry: file, piece and scale. -/
structure MeshKey where
  /-- File of the mesh. -/
  path : Path
  /-- Piece of the file. -/
  piece : ℕ
  /-- Scale along x. -/
  sx : Float
  /-- Scale along y. -/
  sy : Float
  /-- Scale along z. -/
  sz : Float

/-- Neither double is below the other, as an ordered map compares keys. -/
def sameOrder (a b : Float) : Bool := !decide (a<b) && !decide (b<a)

/-- Keys that an ordered map does not tell apart. -/
def MeshKey.same (a b : MeshKey) : Bool :=
  decide (a.path=b.path) && decide (a.piece=b.piece) && sameOrder a.sx b.sx && sameOrder a.sy b.sy &&
    sameOrder a.sz b.sz

/-- State of one compilation. -/
structure Compiler where
  /-- Geometry table. -/
  geometries : List Json := []
  /-- Table index of each geometry text. -/
  indexes : List (String × ℕ) := []
  /-- Mesh files read so far. -/
  files : List (Path × List Json) := []
  /-- Table index of each mesh. -/
  meshGeometry : List (MeshKey × ℕ) := []
  /-- Resource files read. -/
  reads : ℕ := 0

/-- Actions of a compilation. -/
abbrev Compile := EStateM Error Compiler

variable (X : Externals) (assets : Assets)

/-- Table index of a geometry; equal texts share one entry. -/
def intern (geometry : Json) : Compile ℕ := do
  let key ← ofResult (dumpJson X.spell geometry)
  let compiler ← get
  match compiler.indexes.lookup key with
  | some index => return index
  | none =>
    let index := compiler.geometries.length
    set {compiler with
      geometries := compiler.geometries ++ [geometry], indexes := compiler.indexes ++ [(key,index)]}
    return index

/-- Table index of a mesh that was stored before. -/
def cachedMesh (compiler : Compiler) (key : MeshKey) : Option ℕ :=
  (compiler.meshGeometry.find? (fun entry => entry.1.same key)).map Prod.snd

/-- Store a mesh under its source. -/
def storeMesh (key : MeshKey) (geometry : Json) : Compile ℕ := do
  let compiler ← get
  let index := compiler.geometries.length
  set {compiler with
    geometries := compiler.geometries ++ [geometry],
    meshGeometry := compiler.meshGeometry ++ [(key,index)]}
  return index

/-- Distinct corner positions with the position of every corner among them. -/
def remapVertices : List (List Float) → List (List Float) → List (List Float) × List ℕ
  | distinct,[] => (distinct,[])
  | distinct,vertex::rest =>
    match distinct.findIdx? (fun other => decide (other=vertex)) with
    | some index =>
      let tail := remapVertices distinct rest
      (tail.1,index::tail.2)
    | none =>
      let tail := remapVertices (distinct ++ [vertex]) rest
      (tail.1,distinct.length::tail.2)

/-- Geometry of one imported mesh. -/
def meshPiece (mesh : RawMesh) : Except Error Json :=
  let remapped := remapVertices [] mesh.vertices
  if mesh.faces.any (fun face => face.length≠3) then .error (sceneError "Mesh face must be a triangle")
  else
    geometry X.spell X.math (.object [("type",.string "mesh"),
      ("vertices",.array (remapped.1.map floats)),
      ("triangles",.array (mesh.faces.flatten.map
        (fun corner => .integer ((remapped.2.getD corner.val 0 : ℕ) : Int))))])

/-- Geometries of imported meshes in order. -/
def meshPieces : List RawMesh → Except Error (List Json)
  | [] => .ok []
  | mesh::rest => do
    let head ← meshPiece X mesh
    let tail ← meshPieces rest
    return head::tail

/-- Pieces of a mesh file, read once. -/
def readMeshFile (path : Path) : Compile (List Json) := do
  let compiler ← get
  match compiler.files.lookup path with
  | some pieces => return pieces
  | none =>
    set {compiler with reads := compiler.reads+1}
    match assets.meshes path with
    | none => throw (sceneError "Mesh resource could not be parsed")
    | some meshes =>
      let pieces ← ofResult (meshPieces X meshes)
      if pieces.isEmpty then throw (sceneError "Mesh resource has no triangles")
      modify fun compiler => {compiler with files := compiler.files ++ [(path,pieces)]}
      return pieces

/-- A mesh with its vertices scaled. -/
def scaleBakedMesh (source : Json) (sx sy sz : Float) : Except Error Json :=
  if sx==1 && sy==1 && sz==1 then .ok source
  else if !(0<sx && 0<sy && 0<sz) then .error (sceneError "Mesh scale must be positive")
  else
    let scaled := (source.valueOr "vertices" .null).items.map (fun vertex =>
      Json.array ((vertex.items.zip [sx,sy,sz]).map (fun p => .float (X.math.mul (floatValue p.1) p.2))))
    geometry X.spell X.math (.object [("type",.string "mesh"),("vertices",.array scaled),
      ("triangles",source.valueOr "triangles" .null)])

/-- A part of a compiled model. -/
def partValue (id : Json) (pose : Json) (index : ℕ) (color : Json) : Json :=
  .object [("id",id),("pose",pose),("geometryIndex",.integer index),("color",color)]

/-- A part with an interned geometry. -/
def compiledPart (id : String) (pose : Pose3) (geometry : Json) : Compile Json := do
  let index ← intern X geometry
  return partValue (.string id) (fromPose pose) index amber

/-- Identity of a mesh piece; the first keeps the plain one. -/
def pieceId (id : String) (index : ℕ) : String := if index=0 then id else id ++ "_" ++ toString index

/-- Table index of a mesh piece under a scale; each source is stored once. -/
def pieceGeometry (key : MeshKey) (piece : Json) : Compile ℕ := do
  let compiler ← get
  match cachedMesh compiler key with
  | some found => return found
  | none =>
    let derived ← ofResult (scaleBakedMesh X piece key.sx key.sy key.sz)
    storeMesh key derived

/-- Parts of the pieces of a mesh file under a scale. -/
def meshParts (path : Path) (id : ℕ → String) (pose : Pose3) (sx sy sz : Float) :
    ℕ → List Json → Compile (List Json)
  | _,[] => return []
  | index,piece::rest => do
    let geometryIndex ← pieceGeometry X ⟨path,index,sx,sy,sz⟩ piece
    let tail ← meshParts path id pose sx sy sz (index+1) rest
    return partValue (.string (id index)) (fromPose pose) geometryIndex amber::tail

/-- Parts of one collision. -/
def collisionGeometry (root sdfDirectory : Path) (body : SdfGeometry) (id : String) (pose : Pose3) :
    Compile (List Json) :=
  match body with
  | .box size => do
    let shape ← ofResult (geometry X.spell X.math (.object [("type",.string "box"),("size",floats size)]))
    let part ← compiledPart X id pose shape
    return [part]
  | .sphere radius => do
    let shape ← ofResult (geometry X.spell X.math
      (.object [("type",.string "sphere"),("radius",.float radius)]))
    let part ← compiledPart X id pose shape
    return [part]
  | .cylinder radius length => do
    let shape ← ofResult (geometry X.spell X.math
      (.object [("type",.string "cylinder"),("radius",.float radius),("height",.float length)]))
    let part ← compiledPart X id pose shape
    return [part]
  | .mesh uri sx sy sz => do
    let file ← ofResult (insideRoot assets root sdfDirectory uri)
    let pieces ← readMeshFile X assets file
    meshParts X file (pieceId id) pose sx sy sz 0 pieces
  | .unsupported => throw (sceneError "SDF collision geometry is unsupported")

/-- Pose of an SDF element in its model. -/
def modelPose (pose : Except String Pose3) : Except Error Pose3 :=
  match pose with
  | .ok placed => .ok placed
  | .error what => .error (sceneError ("SDF pose is unsupported: " ++ what))

/-- Labels of elements that compilation leaves out. -/
def noteUnparsed (elements : List (String × Option String)) : List Json :=
  (elements.filter (fun e => e.1=="plugin" || e.1=="joint" || e.1=="actor" || e.1=="light")).map
    (fun e => .string (e.1 ++ (e.2.map (fun name => ":" ++ name)).getD ""))

/-- Parts of the collisions of a link. -/
def collectCollisions (root sdfDirectory : Path) (name : String) (place : Pose3 → Pose3) :
    List SdfCollision → Compile (List Json)
  | [] => return []
  | collision::rest => do
    match collision.geometry with
    | none => throw (sceneError "SDF collision geometry is unsupported")
    | some body =>
      let pose ← ofResult (modelPose collision.pose)
      let parts ← collisionGeometry X assets root sdfDirectory body (name ++ "_" ++ collision.name) (place pose)
      let tail ← collectCollisions root sdfDirectory name place rest
      return parts ++ tail

/-- Parts of the links of a model. -/
def collectLinks (root sdfDirectory : Path) (namespaceText : String) (place : Pose3 → Pose3) :
    List SdfLink → Compile (List Json)
  | [] => return []
  | link::rest => do
    let parts ← collectCollisions X assets root sdfDirectory (namespaceText ++ link.name) place link.collisions
    let tail ← collectLinks root sdfDirectory namespaceText place rest
    return parts ++ tail

mutual
/-- Parts and notes of a model; the root model's own pose is left to its placement. -/
def collectModel (root sdfDirectory : Path) (namespaceText : String) (parent : Option Pose3) :
    SdfModel → Compile (List Json × List Json)
  | .mk _ elements _ links models => do
    let place := fun inner => match parent with
      | none => inner
      | some outer => assets.compose outer inner
    let parts ← collectLinks X assets root sdfDirectory namespaceText place links
    let nested ← collectModels root sdfDirectory namespaceText place models
    return (parts ++ nested.1,noteUnparsed elements ++ nested.2)

/-- Parts and notes of nested models. -/
def collectModels (root sdfDirectory : Path) (namespaceText : String) (place : Pose3 → Pose3) :
    List SdfModel → Compile (List Json × List Json)
  | [] => return ([],[])
  | .mk name elements pose links models::rest => do
    let nested ← ofResult (modelPose pose)
    let head ← collectModel root sdfDirectory (namespaceText ++ name ++ "_") (some (place nested))
      (.mk name elements pose links models)
    let tail ← collectModels root sdfDirectory namespaceText place rest
    return (head.1 ++ tail.1,head.2 ++ tail.2)
end

/-- Parts and notes of a resource file. -/
def resourceParts (root path : Path) (format : String) : Compile (List Json × List Json) := do
  if format="mesh" ∨ format="gltf" then
    let pieces ← readMeshFile X assets path
    let parts ← meshParts X path (fun index => "mesh_" ++ toString index) {} 1 1 1 0 pieces
    return (parts,[])
  else if format="sdformat-model" then
    modify fun compiler => {compiler with reads := compiler.reads+1}
    match assets.sdf path with
    | .missing => throw (sceneError "Scene resource file is missing")
    | .malformed what => throw (sceneError ("SDF resource could not be parsed: " ++ what))
    | .includes => throw (sceneError "SDF include is unsupported")
    | .refused what => throw (sceneError ("SDF resource could not be parsed: " ++ what))
    | .root worlds models =>
      if worlds≠0 then throw (sceneError "SDF world is unsupported")
      else
        match models with
        | [model] => collectModel X assets root path.parent "" none model
        | _ => throw (sceneError "SDF resource requires one model")
  else throw (sceneError "Model resource format must be sdformat-model, gltf, or mesh")

/-- Compiled model of a resource. -/
def bakeResource (root : Path) (resource : Json) : Compile Json := do
  let path ← ofResult (insideRoot assets root root ((resource.valueOr "file" .null).text?.getD ""))
  let format := (resource.valueOr "format" .null).text?.getD ""
  let baked ← resourceParts X assets root path format
  if baked.1.isEmpty then throw (sceneError "Model resource has no collision geometry")
  let unparsed := if baked.2.isEmpty then [] else [("unparsed",Json.array baked.2)]
  return .object (("parts",.array baked.1)::
    ("resource",.object [("format",.string format),("file",.string path.text)])::unparsed)

/-- Compiled parts of analytic ones. -/
def partsFromAnalytic : List Json → Compile (List Json)
  | [] => return []
  | part::rest => do
    let index ← intern X (part.valueOr "geometry" .null)
    let tail ← partsFromAnalytic rest
    return partValue (part.valueOr "id" .null) (part.valueOr "pose" .null) index
      (part.valueOr "color" .null)::tail

/-- Compiled model of its own parts. -/
def analyticModel (value : Json) : Compile Json := do
  let parts ← partsFromAnalytic X (value.valueOr "parts" .null).items
  return .object [("parts",.array parts)]

/-- Compiled form of one authored model. -/
def compileModel (root : Path) (value : Json) : Compile Json :=
  match value.member "resource" with
  | some resource => bakeResource X assets root resource
  | none => analyticModel X value

/-- Compiled models of the authored table. -/
def compileModels (root : Path) : List (String × Json) → Compile (List (String × Json))
  | [] => return []
  | (name,value)::rest => do
    let model ← compileModel X assets root value
    let tail ← compileModels root rest
    return (name,model)::tail

/-- Name of the model of an obstacle with its own parts. -/
def inlineName (item : Json) : String := "__inline_" ++ (item.valueOr "id" .null).text?.getD ""

/-- Model table and model name of an obstacle; its own parts become a model behind
the authored ones. -/
def obstacleModel (models item : Json) : Compile (Json × String) :=
  match item.member "model" with
  | some model => return (models,model.text?.getD "")
  | none =>
    if models.contains (inlineName item) then
      throw (sceneError "Inline model name collides with an authored model")
    else do
      let model ← analyticModel X item
      return (models.set (inlineName item) model,inlineName item)

/-- A compiled obstacle. -/
def compiledObstacle (item : Json) (model : String) : Json :=
  .object [("id",item.valueOr "id" .null),("name",item.valueOr "name" .null),("model",.string model),
    ("pose",item.valueOr "pose" .null),("motion",item.valueOr "motion" .null)]

/-- Compiled obstacles with the model table behind them. -/
def compileObstacles (models : Json) : List Json → Compile (Json × List Json)
  | [] => return (models,[])
  | item::rest => do
    let named ← obstacleModel X models item
    let tail ← compileObstacles named.1 rest
    return (tail.1,compiledObstacle item named.2::tail.2)

/-- Whether a model table refers to a resource. -/
def usesResource (models : Json) : Bool := models.members.any (fun m => m.2.contains "resource")

/-- Compilation of a validated document. -/
def compileSource (root : Path) (source : Json) : Compile Json := do
  let authored ← compileModels X assets root (source.valueOr "models" (.object [])).members
  let compiled ← compileObstacles X (.object authored) (source.valueOr "obstacles" .null).items
  let compiler ← get
  return .object [("schema",.string kCompiledSchema),("id",source.valueOr "id" .null),
    ("frame",source.valueOr "frame" .null),
    ("ground",source.valueOr "ground" (.object [("mode",.string "default_plane"),("z",.float 0)])),
    ("geometries",.array compiler.geometries),("models",compiled.1),("obstacles",.array compiled.2)]

/-- The asset directory; only resources need one. -/
def assetRoot (root : Option Path) (models : Json) : Except Error Path :=
  if usesResource models && !(root.any assets.directory) then
    .error (sceneError "Compiled resources require an absolute asset directory")
  else .ok (root.getD [])

/-- Compiled form of a document against an asset directory. -/
def compile (root : Option Path) (value : Json) : Except Error Json := do
  let source ← document X.spell X.math value
  let directory ← assetRoot assets root (source.valueOr "models" (.object []))
  match compileSource X assets directory source {} with
  | .ok compiled _ => .ok compiled
  | .error error _ => .error error

end Compiler

section Tables

variable {X : Externals} {assets : Assets}

/-- A geometry that the validator built. -/
def ValidGeometry (X : Externals) (shape : Json) : Prop :=
  ∃ value, geometry X.spell X.math value=.ok shape

/-- A part of a compiled model whose geometry is in a table of the given size. -/
def PartFits (count : ℕ) (part : Json) : Prop :=
  ∃ (id : String) (pose : Pose3) (index : ℕ), part=partValue (.string id) (fromPose pose) index amber ∧
    index<count

/-- A compilation whose table has validated geometries and whose caches point into it. -/
structure Sound (X : Externals) (compiler : Compiler) : Prop where
  /-- Table entries are validated. -/
  geometries : ∀ shape∈compiler.geometries, ValidGeometry X shape
  /-- Indices of texts are in the table. -/
  indexes : ∀ entry∈compiler.indexes, entry.2<compiler.geometries.length
  /-- Indices of meshes are in the table. -/
  meshes : ∀ entry∈compiler.meshGeometry, entry.2<compiler.geometries.length
  /-- Pieces of read files are validated. -/
  files : ∀ entry∈compiler.files, ∀ piece∈entry.2, ValidGeometry X piece

/-- A sound compilation with at least the table of another. -/
def Grows (X : Externals) (before after : Compiler) : Prop :=
  Sound X after ∧ before.geometries.length≤after.geometries.length

/-- Parts of a grown table. -/
def Builds (X : Externals) (before : Compiler) (parts : List Json) (after : Compiler) : Prop :=
  Grows X before after ∧ ∀ part∈parts, PartFits after.geometries.length part

/-- A larger table fits the same parts. -/
theorem PartFits.mono {count larger : ℕ} {part : Json} (h : PartFits count part) (hc : count≤larger) :
    PartFits larger part := by
  obtain ⟨id,pose,index,hp,hi⟩ := h
  exact ⟨id,pose,index,hp,hi.trans_le hc⟩

/-- Parts built one after the other fit the last table. -/
theorem Builds.append {first middle last : Compiler} {parts more : List Json}
    (h : Builds X first parts middle) (h' : Builds X middle more last) :
    Builds X first (parts ++ more) last := by
  refine ⟨⟨h'.1.1,h.1.2.trans h'.1.2⟩,?_⟩
  intro part hp
  rcases List.mem_append.mp hp with hp | hp
  · exact (h.2 part hp).mono h'.1.2
  · exact h'.2 part hp

/-- No parts. -/
theorem Builds.none {compiler : Compiler} (h : Sound X compiler) : Builds X compiler [] compiler :=
  ⟨⟨h,le_refl _⟩,by simp⟩

/-- A validated geometry at the end of a table, with its index in either cache. -/
theorem Sound.push {compiler : Compiler} (h : Sound X compiler) {shape : Json} (hs : ValidGeometry X shape)
    {indexes : List (String × ℕ)} {meshes : List (MeshKey × ℕ)}
    (hi : ∀ entry∈indexes, entry∈compiler.indexes ∨ entry.2=compiler.geometries.length)
    (hm : ∀ entry∈meshes, entry∈compiler.meshGeometry ∨ entry.2=compiler.geometries.length) :
    Grows X compiler {compiler with
      geometries := compiler.geometries ++ [shape], indexes := indexes, meshGeometry := meshes} := by
  refine ⟨⟨?_,?_,?_,h.files⟩,by simp⟩
  · intro other ho
    rcases List.mem_append.mp ho with ho | ho
    · exact h.geometries other ho
    · rw [List.mem_singleton.mp ho]
      exact hs
  · intro entry he
    have hlength : entry.2<compiler.geometries.length+1 := by
      rcases hi entry he with he | he
      · have hold := h.indexes entry he
        omega
      · omega
    simpa using hlength
  · intro entry he
    have hlength : entry.2<compiler.geometries.length+1 := by
      rcases hm entry he with he | he
      · have hold := h.meshes entry he
        omega
      · omega
    simpa using hlength

/-- Interning a validated geometry gives an index of the table. -/
theorem intern_spec {shape : Json} (hs : ValidGeometry X shape) {compiler : Compiler}
    (h : Sound X compiler) :
    Meets (intern X shape) compiler
      (fun index after => Grows X compiler after ∧ index<after.geometries.length) (fun _ _ => True) := by
  unfold intern
  rw [meets_bind,meets_ofResult]
  refine ⟨?_,fun _ _ => trivial⟩
  intro key _
  rw [meets_bind,meets_get]
  cases hl : compiler.indexes.lookup key with
  | some index => exact ⟨⟨h,le_refl _⟩,h.indexes (key,index) (mem_of_lookup hl)⟩
  | none =>
    refine ⟨h.push hs ?_ (fun _ he => Or.inl he),by simp⟩
    intro entry he
    rcases List.mem_append.mp he with he | he
    · exact Or.inl he
    · rw [List.mem_singleton.mp he]
      exact Or.inr rfl

/-- Storing a validated mesh gives an index of the table. -/
theorem storeMesh_spec (key : MeshKey) {shape : Json} (hs : ValidGeometry X shape) {compiler : Compiler}
    (h : Sound X compiler) :
    Meets (storeMesh key shape) compiler
      (fun index after => Grows X compiler after ∧ index<after.geometries.length) (fun _ _ => True) := by
  refine ⟨h.push hs (fun _ he => Or.inl he) ?_,by simp⟩
  intro entry he
  rcases List.mem_append.mp he with he | he
  · exact Or.inl he
  · rw [List.mem_singleton.mp he]
    exact Or.inr rfl

/-- A cached mesh is in the table. -/
theorem cachedMesh_spec {compiler : Compiler} (h : Sound X compiler) {key : MeshKey} {index : ℕ}
    (hc : cachedMesh compiler key=some index) : index<compiler.geometries.length := by
  unfold cachedMesh at hc
  cases hf : compiler.meshGeometry.find? (fun entry => entry.1.same key) with
  | none => simp [hf] at hc
  | some entry =>
    rw [hf] at hc
    cases hc
    exact h.meshes entry (List.mem_of_find?_eq_some hf)

/-- Every imported mesh is validated. -/
theorem meshPieces_valid {meshes : List RawMesh} {pieces : List Json} (h : meshPieces X meshes=.ok pieces) :
    ∀ piece∈pieces, ValidGeometry X piece := by
  induction meshes generalizing pieces with
  | nil =>
    cases h
    simp
  | cons mesh rest ih =>
    unfold meshPieces at h
    simp only [except_bind_ok] at h
    obtain ⟨head,hhead,tail,htail,h⟩ := h
    cases h
    intro piece hp
    rcases List.mem_cons.mp hp with rfl | hp
    · unfold meshPiece at hhead
      dsimp only at hhead
      split at hhead
      · cases hhead
      · exact ⟨_,hhead⟩
    · exact ih htail piece hp

/-- A read mesh file has validated pieces. -/
theorem readMeshFile_spec (path : Path) {compiler : Compiler} (h : Sound X compiler) :
    Meets (readMeshFile X assets path) compiler
      (fun pieces after => Grows X compiler after ∧ ∀ piece∈pieces, ValidGeometry X piece)
      (fun _ _ => True) := by
  unfold readMeshFile
  rw [meets_bind,meets_get]
  cases hl : compiler.files.lookup path with
  | some pieces => exact ⟨⟨h,le_refl _⟩,h.files (path,pieces) (mem_of_lookup hl)⟩
  | none =>
    rw [meets_bind]
    show Meets _ {compiler with reads := compiler.reads+1} _ _
    cases assets.meshes path with
    | none => exact trivial
    | some meshes =>
      simp only
      rw [meets_bind,meets_ofResult]
      refine ⟨?_,fun _ _ => trivial⟩
      intro pieces hp
      have hvalid := meshPieces_valid hp
      rw [meets_ite]
      refine ⟨fun _ => trivial,fun _ => ?_⟩
      refine ⟨⟨⟨h.geometries,h.indexes,h.meshes,?_⟩,le_refl _⟩,hvalid⟩
      intro entry he
      rcases List.mem_append.mp he with he | he
      · exact h.files entry he
      · rw [List.mem_singleton.mp he]
        exact hvalid

/-- A scaled mesh is validated again. -/
theorem scaleBakedMesh_valid {source scaled : Json} {sx sy sz : Float} (hs : ValidGeometry X source)
    (h : scaleBakedMesh X source sx sy sz=.ok scaled) : ValidGeometry X scaled := by
  unfold scaleBakedMesh at h
  split at h
  · cases h
    exact hs
  · split at h
    · cases h
    · exact ⟨_,h⟩

/-- A mesh piece has an index of the table. -/
theorem pieceGeometry_spec (key : MeshKey) {piece : Json} (hp : ValidGeometry X piece) {compiler : Compiler}
    (h : Sound X compiler) :
    Meets (pieceGeometry X key piece) compiler
      (fun index after => Grows X compiler after ∧ index<after.geometries.length) (fun _ _ => True) := by
  unfold pieceGeometry
  rw [meets_bind,meets_get]
  cases hc : cachedMesh compiler key with
  | some found => exact ⟨⟨h,le_refl _⟩,cachedMesh_spec h hc⟩
  | none =>
    simp only
    rw [meets_bind,meets_ofResult]
    refine ⟨?_,fun _ _ => trivial⟩
    intro derived hd
    exact storeMesh_spec key (scaleBakedMesh_valid hp hd) h

/-- The parts of mesh pieces fit the table. -/
theorem meshParts_spec (path : Path) (id : ℕ → String) (pose : Pose3) (sx sy sz : Float) {pieces : List Json}
    (hp : ∀ piece∈pieces, ValidGeometry X piece) (index : ℕ) {compiler : Compiler}
    (h : Sound X compiler) :
    Meets (meshParts X path id pose sx sy sz index pieces) compiler (Builds X compiler)
      (fun _ _ => True) := by
  induction pieces generalizing index compiler with
  | nil => exact Builds.none h
  | cons piece rest ih =>
    unfold meshParts
    rw [meets_bind]
    refine (pieceGeometry_spec ⟨path,index,sx,sy,sz⟩ (hp piece (List.mem_cons_self ..)) h).mono ?_
      (fun _ _ _ => trivial)
    rintro found middle ⟨hgrows,hfound⟩
    rw [meets_bind]
    refine (ih (fun other ho => hp other (List.mem_cons_of_mem _ ho)) (index+1) hgrows.1).mono ?_
      (fun _ _ _ => trivial)
    intro tail after htail
    have hhead : Builds X compiler [partValue (.string (id index)) (fromPose pose) found amber] middle :=
      ⟨hgrows,fun part hpart => ⟨id index,pose,found,List.mem_singleton.mp hpart,hfound⟩⟩
    exact hhead.append htail

/-- A part with a validated geometry fits the table. -/
theorem compiledPart_spec (id : String) (pose : Pose3) {value : Json} {compiler : Compiler}
    (h : Sound X compiler) :
    Meets (do
      let shape ← ofResult (geometry X.spell X.math value)
      let part ← compiledPart X id pose shape
      return [part] : Compile (List Json)) compiler (Builds X compiler) (fun _ _ => True) := by
  rw [meets_bind,meets_ofResult]
  refine ⟨?_,fun _ _ => trivial⟩
  intro shape hs
  unfold compiledPart
  rw [meets_bind,meets_bind]
  refine (intern_spec ⟨_,hs⟩ h).mono ?_ (fun _ _ _ => trivial)
  rintro index after ⟨hgrows,hindex⟩
  exact ⟨hgrows,fun part hpart => ⟨id,pose,index,List.mem_singleton.mp hpart,hindex⟩⟩

/-- The parts of a collision fit the table. -/
theorem collisionGeometry_spec (root sdfDirectory : Path) (body : SdfGeometry) (id : String) (pose : Pose3)
    {compiler : Compiler} (h : Sound X compiler) :
    Meets (collisionGeometry X assets root sdfDirectory body id pose) compiler (Builds X compiler)
      (fun _ _ => True) := by
  cases body with
  | box _ | sphere _ | cylinder _ _ => exact compiledPart_spec id pose h
  | unsupported => exact trivial
  | mesh uri sx sy sz =>
    unfold collisionGeometry
    dsimp only
    rw [meets_bind,meets_ofResult]
    refine ⟨?_,fun _ _ => trivial⟩
    intro file _
    rw [meets_bind]
    refine (readMeshFile_spec file h).mono ?_ (fun _ _ _ => trivial)
    rintro pieces middle ⟨hgrows,hpieces⟩
    refine (meshParts_spec file (pieceId id) pose sx sy sz hpieces 0 hgrows.1).mono ?_ (fun _ _ _ => trivial)
    rintro parts after ⟨hafter,hparts⟩
    exact ⟨⟨hafter.1,hgrows.2.trans hafter.2⟩,hparts⟩

/-- Two builders in a row. -/
theorem builds_both {first second : Compile (List Json)} {compiler : Compiler}
    (hfirst : Meets first compiler (Builds X compiler) (fun _ _ => True))
    (hsecond : ∀ middle, Sound X middle → Meets second middle (Builds X middle) (fun _ _ => True)) :
    Meets (do
      let parts ← first
      let tail ← second
      return parts ++ tail : Compile (List Json)) compiler (Builds X compiler) (fun _ _ => True) := by
  rw [meets_bind]
  refine hfirst.mono ?_ (fun _ _ _ => trivial)
  intro parts middle hparts
  rw [meets_bind]
  refine (hsecond middle hparts.1.1).mono ?_ (fun _ _ _ => trivial)
  intro tail after htail
  exact hparts.append htail

/-- The parts of collisions fit the table. -/
theorem collectCollisions_spec (root sdfDirectory : Path) (name : String) (place : Pose3 → Pose3)
    (collisions : List SdfCollision) {compiler : Compiler} (h : Sound X compiler) :
    Meets (collectCollisions X assets root sdfDirectory name place collisions) compiler (Builds X compiler)
      (fun _ _ => True) := by
  induction collisions generalizing compiler with
  | nil => exact Builds.none h
  | cons collision rest ih =>
    unfold collectCollisions
    cases collision.geometry with
    | none => exact trivial
    | some body =>
      simp only
      rw [meets_bind,meets_ofResult]
      refine ⟨fun pose _ => ?_,fun _ _ => trivial⟩
      exact builds_both (collisionGeometry_spec root sdfDirectory body _ (place pose) h)
        (fun middle hm => ih hm)

/-- The parts of links fit the table. -/
theorem collectLinks_spec (root sdfDirectory : Path) (namespaceText : String) (place : Pose3 → Pose3)
    (links : List SdfLink) {compiler : Compiler} (h : Sound X compiler) :
    Meets (collectLinks X assets root sdfDirectory namespaceText place links) compiler (Builds X compiler)
      (fun _ _ => True) := by
  induction links generalizing compiler with
  | nil => exact Builds.none h
  | cons link rest ih =>
    exact builds_both (collectCollisions_spec root sdfDirectory _ place link.collisions h)
      (fun middle hm => ih hm)

mutual
/-- The parts of an SDF model fit the table. -/
theorem collectModel_spec (root sdfDirectory : Path) (namespaceText : String) (parent : Option Pose3) :
    ∀ (model : SdfModel) {compiler : Compiler}, Sound X compiler →
      Meets (collectModel X assets root sdfDirectory namespaceText parent model) compiler
        (fun found after => Builds X compiler found.1 after) (fun _ _ => True)
  | .mk _ elements _ links models,compiler,h => by
    unfold collectModel
    dsimp only
    rw [meets_bind]
    refine (collectLinks_spec root sdfDirectory namespaceText _ links h).mono ?_ (fun _ _ _ => trivial)
    intro parts middle hparts
    rw [meets_bind]
    refine (collectModels_spec root sdfDirectory namespaceText _ models hparts.1.1).mono ?_
      (fun _ _ _ => trivial)
    intro nested after hnested
    exact hparts.append hnested

/-- The parts of nested SDF models fit the table. -/
theorem collectModels_spec (root sdfDirectory : Path) (namespaceText : String) (place : Pose3 → Pose3) :
    ∀ (models : List SdfModel) {compiler : Compiler}, Sound X compiler →
      Meets (collectModels X assets root sdfDirectory namespaceText place models) compiler
        (fun found after => Builds X compiler found.1 after) (fun _ _ => True)
  | [],compiler,h => by
    unfold collectModels
    exact Builds.none h
  | .mk name elements pose links models::rest,compiler,h => by
    unfold collectModels
    rw [meets_bind,meets_ofResult]
    refine ⟨?_,fun _ _ => trivial⟩
    intro nested _
    rw [meets_bind]
    refine (collectModel_spec root sdfDirectory _ (some (place nested)) (.mk name elements pose links models)
      h).mono ?_ (fun _ _ _ => trivial)
    intro head middle hhead
    rw [meets_bind]
    refine (collectModels_spec root sdfDirectory namespaceText place rest hhead.1.1).mono ?_
      (fun _ _ _ => trivial)
    intro tail after htail
    exact hhead.append htail
end

/-- The parts of a resource fit the table. -/
theorem resourceParts_spec (root path : Path) (format : String) {compiler : Compiler}
    (h : Sound X compiler) :
    Meets (resourceParts X assets root path format) compiler
      (fun found after => Builds X compiler found.1 after) (fun _ _ => True) := by
  unfold resourceParts
  rw [meets_ite]
  constructor
  · intro _
    rw [meets_bind]
    refine (readMeshFile_spec path h).mono ?_ (fun _ _ _ => trivial)
    rintro pieces middle ⟨hgrows,hpieces⟩
    rw [meets_bind]
    refine (meshParts_spec path _ {} 1 1 1 hpieces 0 hgrows.1).mono ?_ (fun _ _ _ => trivial)
    rintro parts after ⟨hafter,hparts⟩
    exact ⟨⟨hafter.1,hgrows.2.trans hafter.2⟩,hparts⟩
  · intro _
    rw [meets_ite]
    refine ⟨fun _ => ?_,fun _ => trivial⟩
    rw [meets_bind]
    show Meets _ {compiler with reads := compiler.reads+1} _ _
    cases assets.sdf path with
    | missing | malformed _ | includes | refused _ => exact trivial
    | root worlds models =>
      simp only
      rw [meets_ite]
      refine ⟨fun _ => trivial,fun _ => ?_⟩
      split
      · have hread : Sound X {compiler with reads := compiler.reads+1} :=
          ⟨h.geometries,h.indexes,h.meshes,h.files⟩
        exact collectModel_spec root path.parent "" none _ hread
      · exact trivial

/-- A compiled model whose parts fit a table of the given size. -/
def ModelFits (count : ℕ) (model : Json) : Prop :=
  ∃ parts rest, model=.object (("parts",.array parts)::rest) ∧ ∀ part∈parts, PartFits count part

/-- A larger table fits the same model. -/
theorem ModelFits.mono {count larger : ℕ} {model : Json} (h : ModelFits count model) (hc : count≤larger) :
    ModelFits larger model := by
  obtain ⟨parts,rest,hm,hp⟩ := h
  exact ⟨parts,rest,hm,fun part hpart => (hp part hpart).mono hc⟩

/-- A model of a grown table. -/
def BuildsModel (X : Externals) (before : Compiler) (model : Json) (after : Compiler) : Prop :=
  Grows X before after ∧ ModelFits after.geometries.length model

/-- A baked resource fits the table. -/
theorem bakeResource_spec (root : Path) (resource : Json) {compiler : Compiler} (h : Sound X compiler) :
    Meets (bakeResource X assets root resource) compiler (BuildsModel X compiler) (fun _ _ => True) := by
  unfold bakeResource
  rw [meets_bind,meets_ofResult]
  refine ⟨?_,fun _ _ => trivial⟩
  intro path _
  dsimp only
  rw [meets_bind]
  refine (resourceParts_spec root path _ h).mono ?_ (fun _ _ _ => trivial)
  intro baked after hbaked
  rw [meets_ite]
  exact ⟨fun _ => trivial,fun _ => ⟨hbaked.1,baked.1,_,rfl,hbaked.2⟩⟩

/-- A part as the validator builds it. -/
def CanonicalPart (X : Externals) (part : Json) : Prop :=
  ∃ (id : String) (placed shape value : Json), part=.object [("id",.string id),("pose",placed),
    ("geometry",shape),("color",amber)] ∧ SceneDocument.pose X.spell X.math value=.ok placed ∧
    ValidGeometry X shape

/-- A validated placement has a native form. -/
theorem pose_native {value placed : Json} (h : SceneDocument.pose X.spell X.math value=.ok placed) :
    ∃ pose, placed=fromPose pose := by
  unfold SceneDocument.pose at h
  simp only [except_bind_ok] at h
  obtain ⟨_,_,position,hp,rotation,hr,unit,hu,h⟩ := h
  cases h
  have hlp := (vector_again hp).1
  have hlu := (normalise_length hu).trans (vector_again hr).1
  obtain ⟨x,y,z,rfl⟩ := List.length_eq_three.mp hlp
  match unit,hlu with
  | [a,b,c,d],_ => exact ⟨⟨x,y,z,a,b,c,d⟩,rfl⟩

/-- Compiled analytic parts fit the table. -/
theorem partsFromAnalytic_spec {parts : List Json} (hp : ∀ part∈parts, CanonicalPart X part)
    {compiler : Compiler} (h : Sound X compiler) :
    Meets (partsFromAnalytic X parts) compiler (Builds X compiler) (fun _ _ => True) := by
  induction parts generalizing compiler with
  | nil => exact Builds.none h
  | cons part rest ih =>
    obtain ⟨id,placed,shape,value,rfl,hpose,hshape⟩ := hp part (List.mem_cons_self ..)
    obtain ⟨pose,rfl⟩ := pose_native hpose
    unfold partsFromAnalytic
    rw [meets_bind]
    have hvalue : (Json.object [("id",.string id),("pose",fromPose pose),("geometry",shape),
        ("color",amber)]).valueOr "geometry" .null=shape := by simp [Json.valueOr]
    rw [hvalue]
    refine (intern_spec hshape h).mono ?_ (fun _ _ _ => trivial)
    rintro index middle ⟨hgrows,hindex⟩
    rw [meets_bind]
    refine (ih (fun other ho => hp other (List.mem_cons_of_mem _ ho)) hgrows.1).mono ?_
      (fun _ _ _ => trivial)
    intro tail after htail
    have hhead : Builds X compiler [partValue (.string id) (fromPose pose) index amber] middle :=
      ⟨hgrows,fun other ho => ⟨id,pose,index,List.mem_singleton.mp ho,hindex⟩⟩
    have hmembers : ∀ key item, (Json.object [("id",.string id),("pose",fromPose pose),("geometry",shape),
        ("color",amber)]).member key=some item → (Json.object [("id",.string id),("pose",fromPose pose),
        ("geometry",shape),("color",amber)]).valueOr key .null=item := by
      intro key item hk
      simp [Json.valueOr,hk]
    rw [hmembers "id" (.string id) (by simp),hmembers "pose" (fromPose pose) (by simp),
      hmembers "color" amber (by simp)]
    exact hhead.append htail

/-- Canonical parts of a list, one by one. -/
theorem partList_canonical {seen : List String} {items parts : List Json}
    (h : partList X.spell X.math seen items=.ok parts) : ∀ part∈parts, CanonicalPart X part := by
  induction items generalizing seen parts with
  | nil =>
    cases h
    simp
  | cons item rest ih =>
    unfold partList at h
    simp only [except_bind_ok] at h
    obtain ⟨_,_,id,_,h⟩ := h
    split at h
    · cases h
    simp only [except_bind_ok] at h
    obtain ⟨_,_,placed,hplaced,shape,hshape,tail,htail,h⟩ := h
    cases h
    intro part hpart
    rcases List.mem_cons.mp hpart with rfl | hpart
    · exact ⟨id,placed,shape,_,rfl,hplaced,_,hshape⟩
    · exact ih htail part hpart

/-- Normalized parts are canonical. -/
theorem normalizeParts_canonical {value parts : Json} (h : normalizeParts X.spell X.math value=.ok parts) :
    ∀ part∈parts.items, CanonicalPart X part := by
  unfold normalizeParts at h
  split at h
  · split at h
    · cases h
    · rw [except_bind_ok] at h
      obtain ⟨normalized,hn,h⟩ := h
      cases h
      exact partList_canonical hn
  · cases h

/-- A model of canonical parts fits the table. -/
theorem analyticModel_spec {value parts raw : Json} (hv : value.member "parts"=some parts)
    (hp : normalizeParts X.spell X.math raw=.ok parts) {compiler : Compiler} (h : Sound X compiler) :
    Meets (analyticModel X value) compiler (BuildsModel X compiler) (fun _ _ => True) := by
  unfold analyticModel
  have hvalue : value.valueOr "parts" .null=parts := by
    unfold Json.valueOr
    rw [hv]
    rfl
  rw [hvalue,meets_bind]
  refine (partsFromAnalytic_spec (normalizeParts_canonical hp) h).mono ?_ (fun _ _ _ => trivial)
  intro found after hfound
  exact ⟨hfound.1,found,[],rfl,hfound.2⟩

/-- A validated model fits the table. -/
theorem compileModel_spec (root : Path) {value entry : Json}
    (he : modelEntry X.spell X.math value=.ok entry) {compiler : Compiler} (h : Sound X compiler) :
    Meets (compileModel X assets root entry) compiler (BuildsModel X compiler) (fun _ _ => True) := by
  unfold modelEntry at he
  rw [except_bind_ok] at he
  obtain ⟨_,_,he⟩ := he
  split at he
  · cases he
  split at he
  · rw [except_bind_ok] at he
    obtain ⟨reference,_,he⟩ := he
    cases he
    unfold compileModel
    rw [member_here]
    exact bakeResource_spec root reference h
  · rw [except_bind_ok] at he
    obtain ⟨parts,hparts,he⟩ := he
    cases he
    unfold compileModel
    have hnone : (Json.object [("parts",parts)]).member "resource"=none := by simp
    rw [hnone]
    exact analyticModel_spec (member_here ..) hparts h

/-- Compiled models keep their names and fit the table. -/
theorem compileModels_spec (root : Path) {members defined : List (String × Json)}
    (hm : modelMembers X.spell X.math members=.ok defined) {compiler : Compiler} (h : Sound X compiler) :
    Meets (compileModels X assets root defined) compiler
      (fun found after => Grows X compiler after ∧ found.map Prod.fst=defined.map Prod.fst ∧
        ∀ m∈found, ModelFits after.geometries.length m.2) (fun _ _ => True) := by
  induction members generalizing defined compiler with
  | nil =>
    cases hm
    exact ⟨⟨h,le_refl _⟩,rfl,by simp⟩
  | cons m rest ih =>
    obtain ⟨key,value⟩ := m
    unfold modelMembers at hm
    simp only [except_bind_ok] at hm
    obtain ⟨name,_,entry,hentry,tail,htail,hm⟩ := hm
    cases hm
    unfold compileModels
    rw [meets_bind]
    refine (compileModel_spec root hentry h).mono ?_ (fun _ _ _ => trivial)
    intro model middle hmodel
    rw [meets_bind]
    refine (ih htail hmodel.1.1).mono ?_ (fun _ _ _ => trivial)
    rintro found after ⟨hgrows,hnames,hfits⟩
    refine ⟨⟨hgrows.1,hmodel.1.2.trans hgrows.2⟩,?_,?_⟩
    · rw [List.map_cons,List.map_cons,hnames]
    · intro other ho
      rcases List.mem_cons.mp ho with rfl | ho
      · exact hmodel.2.mono hgrows.2
      · exact hfits other ho

/-- A table of models that fit. -/
def TableFits (count : ℕ) (models : Json) : Prop :=
  ∃ members, models=.object members ∧ ∀ m∈members, ModelFits count m.2

/-- Members of an assigned list are old ones or the assigned one. -/
theorem mem_setMember {key : String} {item : Json} {members : List (String × Json)} {m : String × Json}
    (h : m∈Json.setMember key item members) : m∈members ∨ m.2=item := by
  induction members with
  | nil =>
    rw [List.mem_singleton.mp h]
    exact Or.inr rfl
  | cons first rest ih =>
    obtain ⟨k,v⟩ := first
    unfold Json.setMember at h
    split at h
    · rcases List.mem_cons.mp h with rfl | h
      · exact Or.inr rfl
      · exact Or.inl (List.mem_cons_of_mem _ h)
    · rcases List.mem_cons.mp h with rfl | h
      · exact Or.inl (List.mem_cons_self ..)
      · exact (ih h).imp (List.mem_cons_of_mem _) id

/-- A compiled obstacle of a table comes from an obstacle. -/
def CompiledFrom (models item compiled : Json) : Prop :=
  ∃ model : String, compiled=compiledObstacle item model ∧ models.contains model=true

/-- A model table that contains another and fits. -/
def Extends (X : Externals) (before : Compiler) (models found : Json) (after : Compiler) : Prop :=
  Grows X before after ∧ TableFits after.geometries.length found ∧
    ∀ name, models.contains name=true → found.contains name=true

/-- The model of a canonical obstacle is in the extended table. -/
theorem obstacleModel_spec {models item : Json} (hi : CanonicalObstacle X.spell X.math item)
    (hk : modelKnown models item=true) {compiler : Compiler} (h : Sound X compiler)
    (ht : TableFits compiler.geometries.length models) :
    Meets (obstacleModel X models item) compiler
      (fun named after => Extends X compiler models named.1 after ∧ named.1.contains named.2=true)
      (fun _ _ => True) := by
  obtain ⟨value,hv⟩ := hi
  obtain ⟨id,name,initial,movement,shape,rfl,_,_,hshape⟩ := obstacle_members hv
  unfold obstacleShape at hshape
  unfold obstacleModel
  split at hshape
  · rw [except_bind_ok] at hshape
    obtain ⟨model,_,hshape⟩ := hshape
    cases hshape
    have hmodel : (Json.object [("id",.string id),("name",.string name),("pose",initial),
        ("model",.string model),("motion",movement)]).member "model"=some (.string model) := by simp
    rw [hmodel]
    unfold modelKnown at hk
    rw [hmodel] at hk
    exact ⟨⟨⟨h,le_refl _⟩,ht,fun _ hn => hn⟩,hk⟩
  · rw [except_bind_ok] at hshape
    obtain ⟨parts,hparts,hshape⟩ := hshape
    cases hshape
    have hnone : (Json.object [("id",.string id),("name",.string name),("pose",initial),
        ("parts",parts),("motion",movement)]).member "model"=none := by simp
    rw [hnone]
    dsimp only
    rw [meets_ite]
    refine ⟨fun _ => trivial,fun _ => ?_⟩
    rw [meets_bind]
    refine (analyticModel_spec (by simp) hparts h).mono ?_ (fun _ _ _ => trivial)
    intro model after hmodel
    obtain ⟨members,rfl,hmembers⟩ := ht
    refine ⟨⟨hmodel.1,⟨_,rfl,?_⟩,?_⟩,?_⟩
    · intro m hm
      rcases mem_setMember hm with hm | hm
      · exact (hmembers m hm).mono hmodel.1.2
      · rw [hm]
        exact hmodel.2
    · intro other ho
      by_cases hother : other=inlineName (.object [("id",.string id),("name",.string name),
          ("pose",initial),("parts",parts),("motion",movement)])
      · rw [hother]
        unfold Json.contains
        rw [Json.member_set rfl]
        rfl
      · unfold Json.contains at ho ⊢
        rw [Json.member_set_other rfl hother]
        exact ho
    · unfold Json.contains
      rw [Json.member_set rfl]
      rfl

/-- An obstacle whose model is in a table is known in every larger table. -/
theorem modelKnown_mono {models larger item : Json}
    (hn : ∀ name, models.contains name=true → larger.contains name=true)
    (h : modelKnown models item=true) : modelKnown larger item=true := by
  unfold modelKnown at h ⊢
  cases hm : item.member "model" with
  | none => rfl
  | some model =>
    rw [hm] at h
    cases model with
    | string name => exact hn name h
    | _ => cases h

/-- Compiled obstacles come from their source and name models of the table. -/
theorem compileObstacles_spec {items : List Json} (hi : ∀ item∈items, CanonicalObstacle X.spell X.math item)
    {models : Json} (hk : ∀ item∈items, modelKnown models item=true) {compiler : Compiler}
    (h : Sound X compiler) (ht : TableFits compiler.geometries.length models) :
    Meets (compileObstacles X models items) compiler
      (fun found after => Extends X compiler models found.1 after ∧
        List.Forall₂ (CompiledFrom found.1) items found.2) (fun _ _ => True) := by
  induction items generalizing models compiler with
  | nil => exact ⟨⟨⟨h,le_refl _⟩,ht,fun _ hn => hn⟩,.nil⟩
  | cons item rest ih =>
    unfold compileObstacles
    rw [meets_bind]
    refine (obstacleModel_spec (hi item (List.mem_cons_self ..)) (hk item (List.mem_cons_self ..)) h ht).mono
      ?_ (fun _ _ _ => trivial)
    rintro named middle ⟨⟨hgrows,hfits,hnames⟩,hnamed⟩
    have hknown : ∀ other∈rest, modelKnown named.1 other=true :=
      fun other ho => modelKnown_mono hnames (hk other (List.mem_cons_of_mem _ ho))
    rw [meets_bind]
    refine (ih (fun other ho => hi other (List.mem_cons_of_mem _ ho)) hknown hgrows.1 hfits).mono ?_
      (fun _ _ _ => trivial)
    rintro tail after ⟨⟨hgrows',hfits',hnames'⟩,htail⟩
    refine ⟨⟨⟨hgrows'.1,hgrows.2.trans hgrows'.2⟩,hfits',fun name hn => hnames' name (hnames name hn)⟩,?_⟩
    exact .cons ⟨named.2,rfl,hnames' named.2 hnamed⟩ htail

/-- The parts of a compiled document. -/
structure Scene where
  /-- Scene identity. -/
  id : String
  /-- Scene frame. -/
  frame : String
  /-- Ground. -/
  ground : Json
  /-- Geometry table. -/
  geometries : List Json
  /-- Models. -/
  models : List (String × Json)
  /-- Obstacles. -/
  obstacles : List Json

/-- The compiled document of its parts. -/
def Scene.value (s : Scene) : Json :=
  .object [("schema",.string kCompiledSchema),("id",.string s.id),("frame",.string s.frame),
    ("ground",s.ground),("geometries",.array s.geometries),("models",.object s.models),
    ("obstacles",.array s.obstacles)]

/-- The grounds of compiled documents. -/
inductive GroundFits (models : Json) : Json → Prop
  /-- A finite plane. -/
  | plane {z : Float} (h : z.isFinite=true) :
    GroundFits models (.object [("mode",.string "default_plane"),("z",.float z)])
  /-- No ground. -/
  | none : GroundFits models (.object [("mode",.string "none")])
  /-- A placed model of the table. -/
  | model {name : String} (pose : Pose3) (h : models.contains name=true) :
    GroundFits models (.object [("mode",.string "model"),("model",.string name),("pose",fromPose pose)])

/-- What compilation establishes of the compiled form of some obstacles. -/
structure Scene.Fits (X : Externals) (items : List Json) (s : Scene) : Prop where
  /-- Table entries are validated. -/
  geometries : ∀ shape∈s.geometries, ValidGeometry X shape
  /-- Parts refer to table entries. -/
  models : ∀ m∈s.models, ModelFits s.geometries.length m.2
  /-- Obstacles are the source's with models of the table. -/
  obstacles : List.Forall₂ (CompiledFrom (.object s.models)) items s.obstacles
  /-- The ground refers to a model of the table. -/
  ground : GroundFits (.object s.models) s.ground

/-- A text value that equals a text is that text. -/
theorem isText_iff {value : Json} {text : String} : isText value text=true ↔ value=.string text := by
  cases value <;> simp [isText,Json.equal]

/-- A validated ground is one of the compiled ones. -/
theorem ground_fits {value owned models : Json} (h : SceneDocument.ground X.spell X.math value=.ok owned)
    (hk : isText (owned.valueOr "mode" .null) "model"=true → modelKnown models owned=true) :
    GroundFits models owned := by
  unfold SceneDocument.ground at h
  split at h
  · cases h
  rename_i mode _
  split at h
  · rename_i hplane
    simp only [except_bind_ok] at h
    obtain ⟨_,_,z,hz,h⟩ := h
    cases h
    rw [isText_iff] at hplane
    rw [hplane]
    exact .plane (number_ok hz).1
  split at h
  · rename_i hnone
    rw [except_bind_ok] at h
    obtain ⟨_,_,h⟩ := h
    cases h
    rw [isText_iff] at hnone
    rw [hnone]
    exact .none
  split at h
  · rename_i hmodel
    simp only [except_bind_ok] at h
    obtain ⟨_,_,name,_,placed,hplaced,h⟩ := h
    cases h
    obtain ⟨pose,rfl⟩ := pose_native hplaced
    rw [isText_iff] at hmodel
    subst hmodel
    refine .model pose ?_
    have hknown := hk (by simp [Json.valueOr,isText_iff])
    unfold modelKnown at hknown
    simpa using hknown
  · cases h

/-- An empty compilation is sound. -/
theorem sound_empty : Sound X {} := ⟨by simp,by simp,by simp,by simp⟩

/-- Model table of the document of its parts. -/
theorem Parts.valueOr_models (p : Parts) : p.document.valueOr "models" (.object [])=p.defined := by
  obtain ⟨id,frame,obstacles,models,ground⟩ := p
  cases models <;> cases ground <;> simp [Parts.document,Parts.defined,optionalMember,Json.valueOr]

variable (assets) in
/-- A compiled canonical document. -/
theorem compileSource_spec {p : Parts} (hp : p.Canonical X.spell X.math) (root : Path) :
    Meets (compileSource X assets root p.document) {}
      (fun compiled _ => ∃ s : Scene, compiled=s.value ∧ s.Fits X p.obstacles) (fun _ _ => True) := by
  have hdefined : ∃ members defined, modelMembers X.spell X.math members=.ok defined ∧
      p.defined=.object defined := by
    cases hm : p.models with
    | none => exact ⟨[],[],rfl,by unfold Parts.defined; rw [hm]; rfl⟩
    | some table =>
      obtain ⟨value,hv⟩ := hp.models table hm
      unfold SceneDocument.models at hv
      split at hv
      · rw [except_bind_ok] at hv
        obtain ⟨defined,hd,hv⟩ := hv
        cases hv
        exact ⟨_,defined,hd,by unfold Parts.defined; rw [hm]; rfl⟩
      · cases hv
  obtain ⟨members,defined,hmembers,hp'⟩ := hdefined
  unfold compileSource
  rw [Parts.valueOr_models,hp',meets_bind]
  refine (compileModels_spec root hmembers sound_empty).mono ?_ (fun _ _ _ => trivial)
  rintro authored middle ⟨hgrows,hnames,hfits⟩
  have hauthored : ∀ name, p.defined.contains name=true → (Json.object authored).contains name=true := by
    intro name hn
    rw [hp'] at hn
    rw [contains_of_keys hnames]
    exact hn
  have hitems : (p.document.valueOr "obstacles" .null).items=p.obstacles := by
    simp [Parts.document,Json.valueOr,Json.items]
  have hknown : ∀ item∈p.obstacles, modelKnown (.object authored) item=true :=
    fun item hi => modelKnown_mono hauthored (List.all_eq_true.mp hp.known item hi)
  rw [meets_bind,hitems]
  refine (compileObstacles_spec hp.obstacles hknown hgrows.1 ⟨authored,rfl,hfits⟩).mono ?_
    (fun _ _ _ => trivial)
  rintro ⟨found,obstacles⟩ after ⟨⟨hafter,⟨models,hmodels,hmodelsfit⟩,hextends⟩,hobstacles⟩
  cases hmodels
  rw [meets_bind,meets_get]
  have hground : GroundFits (.object models)
      (p.document.valueOr "ground" (.object [("mode",.string "default_plane"),("z",.float 0)])) := by
    cases hg : p.ground with
    | none =>
      have hdefault : p.document.valueOr "ground" (.object [("mode",.string "default_plane"),("z",.float 0)])=
          .object [("mode",.string "default_plane"),("z",.float 0)] := by
        cases hm : p.models <;> simp [Parts.document,optionalMember,hg,hm,Json.valueOr]
      rw [hdefault]
      exact .plane (by decide +kernel)
    | some owned =>
      have howned : p.document.valueOr "ground" (.object [("mode",.string "default_plane"),("z",.float 0)])=
          owned := by
        cases hm : p.models <;> simp [Parts.document,optionalMember,hg,hm,Json.valueOr]
      rw [howned]
      obtain ⟨⟨value,hv⟩,hmodel⟩ := hp.ground owned hg
      refine ground_fits hv ?_
      intro ht
      rw [ht,Bool.true_and,Bool.not_eq_false'] at hmodel
      exact modelKnown_mono (fun name hn => hextends name (hauthored name hn)) hmodel
  have hid : p.document.valueOr "id" .null=.string p.id := by simp [Parts.document,Json.valueOr]
  have hframe : p.document.valueOr "frame" .null=.string p.frame := by simp [Parts.document,Json.valueOr]
  rw [hid,hframe]
  exact ⟨⟨p.id,p.frame,_,after.geometries,models,obstacles⟩,rfl,
    ⟨hafter.1.geometries,hmodelsfit,hobstacles,hground⟩⟩

/-- Every compiled document belongs to a validated one. -/
theorem compile_spec {root : Option Path} {value compiled : Json}
    (h : compile X assets root value=.ok compiled) :
    ∃ p : Parts, SceneDocument.document X.spell X.math value=.ok p.document ∧ p.Canonical X.spell X.math ∧
      ∃ s : Scene, compiled=s.value ∧ s.Fits X p.obstacles := by
  unfold compile at h
  simp only [except_bind_ok] at h
  obtain ⟨source,hs,directory,_,h⟩ := h
  obtain ⟨p,rfl,hp⟩ := document_canonical hs
  have hspec := compileSource_spec assets hp directory
  unfold Meets at hspec
  split at h
  · rename_i result after hr
    rw [hr] at hspec
    cases h
    exact ⟨p,hs,hp,hspec⟩
  · cases h

end Tables

end Ros1Adapter.SceneCompile
