import Ros1Adapter.DoubleBits
import Ros1Adapter.SceneCompile

/-!
# Projection of compiled scenes to messages

A compiled scene becomes a snapshot, frames, markers and states. Definitions
that did not change are shared between revisions: shared objects carry an
address, and two references are the same object when their addresses agree.
The geometry mathematics and the time type are outside this repository.
-/

namespace Ros1Adapter.SceneProjection

open SceneJson SceneDocument SceneFiles SceneCompile DoubleBits ActionRules

section Messages

/-- A point or a vector. -/
structure Point where
  /-- First coordinate. -/
  x : Float := 0
  /-- Second coordinate. -/
  y : Float := 0
  /-- Third coordinate. -/
  z : Float := 0

/-- Type of a native geometry. -/
inductive GeometryType where
  | box
  | sphere
  | cylinder
  | capsule
  | ring
  | halfspaces
  | convex
  | mesh
  | ellipsoid
  /-- A type that has no finite surface here. -/
  | other
  deriving DecidableEq

/-- A native geometry; its triangles refer to its own vertices. -/
structure Geometry where
  /-- Type. -/
  type : GeometryType
  /-- Side lengths. -/
  size : Point := {}
  /-- Radius. -/
  radius : Float := 0
  /-- Height. -/
  height : Float := 0
  /-- Radii of an elliptic ring. -/
  radii : Float × Float := (0,0)
  /-- Tube radius of a ring. -/
  tubeRadius : Float := 0
  /-- Semiaxes of an ellipsoid. -/
  semiaxes : Point := {}
  /-- Corners. -/
  vertices : List Point := []
  /-- Faces. -/
  triangles : List (List (Fin vertices.length)) := []

/-- A closed surface. -/
structure Surface where
  /-- Corners. -/
  vertices : List Point
  /-- Corners of the faces in order. -/
  triangles : List (Fin vertices.length)

/-- Wire form of a geometry. -/
structure Payload where
  /-- Type number. -/
  type : ℕ
  /-- Parameters. -/
  parameters : List Float

/-- Message time. -/
structure Stamp where
  /-- Seconds. -/
  sec : ℕ := 0
  /-- Nanoseconds. -/
  nsec : ℕ := 0

/-- The functions of the external libraries. -/
structure Drawing where
  /-- Message time of a clock reading. -/
  time : Float → Stamp
  /-- Wire form of a geometry definition. -/
  geometryFromJson : Json → Except String Payload
  /-- Native form of a wire geometry. -/
  decodeGeometry : Payload → Except String Geometry
  /-- Surface points of an elliptic ring. -/
  sampleEllipticRingSurface : Float × Float → Float → Float → List Point
  /-- Corners of a bounded intersection of half spaces. -/
  finiteHalfspaces : Geometry → Except String Geometry
  /-- Convex hull of some corners. -/
  convexMeshOf : List Point → Except String Surface
  /-- Rotation of a vector by the orientation of a placement. -/
  rotate : Pose3 → Point → Point
  /-- Placement, linear and angular velocity of a motion at a time. -/
  evaluateMotion : Pose3 → Motion → Float → Bool → Pose3 × Point × Point

/-- Colour of a part. -/
structure Color where
  /-- Red. -/
  r : Float32
  /-- Green. -/
  g : Float32
  /-- Blue. -/
  b : Float32
  /-- Opacity. -/
  a : Float32

/-- One part of a published obstacle. -/
structure ScenePart where
  /-- Identity in its model. -/
  id : String
  /-- Placement in its model. -/
  pose : Pose3
  /-- Index of the geometry table. -/
  geometryIndex : ℕ
  /-- Colour. -/
  color : Color

/-- A published obstacle. -/
structure SceneObstacle where
  /-- Identity. -/
  id : String
  /-- Name. -/
  name : String
  /-- Motion type. -/
  motionType : String
  /-- The obstacle moves. -/
  dynamic : Bool
  /-- Initial placement. -/
  pose : Pose3
  /-- Parts of its model. -/
  parts : List ScenePart

/-- The published ground. -/
structure SceneGround where
  /-- Mode. -/
  mode : String
  /-- Height of a plane. -/
  z : Float := 0
  /-- Placement of a model. -/
  pose : Pose3 := {}
  /-- Parts of a model. -/
  parts : List ScenePart := []

/-- A published scene definition. -/
structure SceneSnapshot where
  /-- Time of the definition. -/
  stamp : Stamp
  /-- Frame of all placements. -/
  frame : String
  /-- Scene identity. -/
  sceneId : String
  /-- Epoch of the store. -/
  epoch : String
  /-- Revision of the document. -/
  revision : ℕ
  /-- Geometry table. -/
  geometries : List Payload
  /-- Ground. -/
  ground : SceneGround
  /-- Obstacles in order. -/
  obstacles : List SceneObstacle

/-- State of one moving obstacle. -/
structure SceneObstacleState where
  /-- Identity. -/
  id : String
  /-- Placement. -/
  pose : Pose3
  /-- Linear velocity. -/
  linear : Point
  /-- Angular velocity. -/
  angular : Point

/-- Published state of the moving obstacles. -/
structure SceneState where
  /-- Time of the state. -/
  stamp : Stamp
  /-- Frame of all placements. -/
  frame : String
  /-- Epoch of the store. -/
  epoch : String
  /-- Revision of the document. -/
  revision : ℕ
  /-- Motion is running. -/
  playing : Bool
  /-- Scene time. -/
  sceneTime : Float
  /-- Moving obstacles. -/
  obstacles : List SceneObstacleState

/-- Shape of a marker. -/
inductive MarkerType where
  | cube
  | sphere
  | cylinder
  | points
  | triangleList
  deriving DecidableEq

/-- A visualization marker. -/
inductive Marker where
  /-- Remove all markers. -/
  | deleteAll
  /-- Add one marker. -/
  | add (frame ns : String) (id : ℕ) (type : MarkerType) (pose : Pose3) (scale : Point) (color : Color)
    (points : List Point)

/-- A published transform. -/
structure TransformStamped where
  /-- Time. -/
  stamp : Stamp
  /-- Parent frame. -/
  frame : String
  /-- Child frame. -/
  child : String
  /-- Placement of the child. -/
  pose : Pose3

/-- A call of the outputs. -/
inductive Output where
  /-- Native application of a revision. -/
  | application (epoch : String) (revision : ℕ) (applied : Bool)
  /-- A definition. -/
  | snapshot (message : SceneSnapshot)
  /-- A state. -/
  | state (message : SceneState)
  /-- A document text. -/
  | document (text : String)
  /-- Markers. -/
  | markers (messages : List Marker)
  /-- Transforms that stay. -/
  | staticTransforms (messages : List TransformStamped)
  /-- Transforms of moving obstacles. -/
  | dynamicTransforms (messages : List TransformStamped)

end Messages

section Reading

mutual
/-- Equality of cached definitions: order and signed zeros count. -/
def sameProjectionValue : Json → Json → Bool
  | .null,.null => true
  | .boolean a,.boolean b => a==b
  | .integer a,.integer b => a==b
  | .float x,.float y => x==y && (!(x==0) || signbit x==signbit y)
  | .string a,.string b => a==b
  | .array a,.array b => sameProjectionItems a b
  | .object a,.object b => sameProjectionMembers a b
  | _,_ => false

/-- Equality of cached arrays. -/
def sameProjectionItems : List Json → List Json → Bool
  | [],[] => true
  | a::as,b::bs => sameProjectionValue a b && sameProjectionItems as bs
  | _,_ => false

/-- Equality of cached objects. -/
def sameProjectionMembers : List (String × Json) → List (String × Json) → Bool
  | [],[] => true
  | (k,v)::as,(l,w)::bs => k==l && sameProjectionValue v w && sameProjectionMembers as bs
  | _,_ => false
end

mutual
/-- The cache comparison holds of identical values only. -/
theorem sameProjectionValue_eq : ∀ {a b : Json}, sameProjectionValue a b=true → a=b
  | .null,b,h => by cases b <;> simp [sameProjectionValue] at h ⊢
  | .boolean _,b,h => by cases b <;> simp [sameProjectionValue] at h ⊢; exact h
  | .integer _,b,h => by cases b <;> simp [sameProjectionValue] at h ⊢; exact h
  | .string _,b,h => by cases b <;> simp [sameProjectionValue] at h ⊢; exact h
  | .float x,b,h => by
    cases b with
    | float y =>
      unfold sameProjectionValue at h
      rw [Bool.and_eq_true] at h
      rw [eq_of_beq h.1 h.2]
    | _ => simp [sameProjectionValue] at h
  | .array as,b,h => by
    cases b with
    | array bs =>
      unfold sameProjectionValue at h
      rw [sameProjectionItems_eq h]
    | _ => simp [sameProjectionValue] at h
  | .object as,b,h => by
    cases b with
    | object bs =>
      unfold sameProjectionValue at h
      rw [sameProjectionMembers_eq h]
    | _ => simp [sameProjectionValue] at h

/-- Arrays that compare equal are identical. -/
theorem sameProjectionItems_eq : ∀ {as bs : List Json}, sameProjectionItems as bs=true → as=bs
  | [],bs,h => by cases bs <;> simp [sameProjectionItems] at h ⊢
  | a::as,bs,h => by
    cases bs with
    | nil => simp [sameProjectionItems] at h
    | cons b bs =>
      unfold sameProjectionItems at h
      rw [Bool.and_eq_true] at h
      rw [sameProjectionValue_eq h.1,sameProjectionItems_eq h.2]

/-- Objects that compare equal are identical. -/
theorem sameProjectionMembers_eq :
    ∀ {as bs : List (String × Json)}, sameProjectionMembers as bs=true → as=bs
  | [],bs,h => by cases bs <;> simp [sameProjectionMembers] at h ⊢
  | (k,v)::as,bs,h => by
    cases bs with
    | nil => simp [sameProjectionMembers] at h
    | cons b bs =>
      obtain ⟨l,w⟩ := b
      unfold sameProjectionMembers at h
      rw [Bool.and_eq_true,Bool.and_eq_true] at h
      rw [beq_iff_eq.mp h.1.1,sameProjectionValue_eq h.1.2,sameProjectionMembers_eq h.2]
end

/-- Values that a loop over a JSON value visits. -/
def elements : Json → List Json
  | .null => []
  | .array items => items
  | .object members => members.map Prod.snd
  | value => [value]

/-- A found value, or an exception. -/
def orThrow {α : Type} (error : Error) : Option α → Except Error α
  | some a => .ok a
  | none => .error error

/-- Text of a string value. -/
def getString (value : Json) : Except Error String := orThrow (jsonError "type must be string") value.text?

/-- Double of a number value. -/
def getDouble (value : Json) : Except Error Float := orThrow (jsonError "type must be number") value.double?

/-- Double of an array element. -/
def component (value : Json) (index : ℕ) : Except Error Float := do
  let item ← orThrow (jsonError "array index is out of range") value.items[index]?
  getDouble item

/-- Text of a member. -/
def stringAt (value : Json) (key : String) : Except Error String := do
  let item ← value.atKey key
  getString item

/-- Native form of a placement. -/
def setPose (value : Json) : Except Error Pose3 := do
  let position ← value.atKey "position"
  let x ← component position 0
  let y ← component position 1
  let z ← component position 2
  let orientation ← value.atKey "orientation"
  let qx ← component orientation 0
  let qy ← component orientation 1
  let qz ← component orientation 2
  let qw ← component orientation 3
  return ⟨x,y,z,qx,qy,qz,qw⟩

/-- Schema text of a document; an absent one is empty. -/
def schemaText (document : Json) : Except Error String :=
  match document with
  | .object _ => getString (document.valueOr "schema" (.string ""))
  | _ => .error (jsonError "cannot use value() with a document that is no object")

/-- Only compiled documents are projected. -/
def requireCompiled (document : Json) : Except Error Unit := do
  let refusal := sceneError "SceneProjection requires xgc2.scene.compiled.v1"
  let schema ← schemaText document
  if schema≠kCompiledSchema then .error refusal
  else do
    let geometries ← document.atKey "geometries"
    let models ← document.atKey "models"
    let obstacles ← document.atKey "obstacles"
    match geometries,models,obstacles with
    | .array _,.object _,.array _ => .ok ()
    | _,_,_ => .error refusal

/-- Number of geometries that an unsigned 32-bit index reaches. -/
def indexLimit : ℕ := 2^32

/-- Index of the geometry of a part. -/
def geometryIndex (part : Json) (count : ℕ) : Except Error ℕ := do
  let value ← part.atKey "geometryIndex"
  let refusal := sceneError "Compiled part requires a nonnegative geometryIndex"
  if part.contains "geometry" then .error refusal
  else
    match value with
    | .integer index =>
      if index<0 then .error refusal
      else if count ≤ index.toNat ∨ indexLimit ≤ index.toNat then
        .error (sceneError "Compiled geometryIndex out of range")
      else .ok index.toNat
    | _ => .error refusal

/-- Motion type of a compiled obstacle; a motion without a native form is refused. -/
def motionType (item : Json) : Except Error String := do
  let motion ← item.atKey "motion"
  let type ← stringAt motion "type"
  if type≠"hold" ∧ type≠"constant_twist" ∧ type≠"ping_pong" ∧ type≠"circle" then
    .error (sceneError ("Unsupported Scene projection motion: " ++ type))
  else return type

/-- Message of a part. -/
def partMessage (definition : Json) : Except Error ScenePart := do
  let id ← stringAt definition "id"
  let placed ← definition.atKey "pose"
  let pose ← setPose placed
  let index ← definition.atKey "geometryIndex"
  let geometryIndex ← orThrow (jsonError "type must be number") (match index with
    | .integer n => some (n.toNat%indexLimit)
    | _ => none)
  let color ← definition.atKey "color"
  let r ← component color 0
  let g ← component color 1
  let b ← component color 2
  let a ← component color 3
  return ⟨id,pose,geometryIndex,⟨r.toFloat32,g.toFloat32,b.toFloat32,a.toFloat32⟩⟩

/-- Messages of parts in order. -/
def partMessages : List Json → Except Error (List ScenePart)
  | [] => .ok []
  | definition::rest => do
    let head ← partMessage definition
    let tail ← partMessages rest
    return head::tail

/-- Message of an obstacle with the parts of its model. -/
def obstacleMessage (item model : Json) : Except Error SceneObstacle := do
  let id ← stringAt item "id"
  let name ← stringAt item "name"
  let type ← motionType item
  let placed ← item.atKey "pose"
  let pose ← setPose placed
  let definitions ← model.atKey "parts"
  let parts ← partMessages (elements definitions)
  return ⟨id,name,type,decide (type≠"hold"),pose,parts⟩

end Reading

section Markers

variable (D : Drawing)

/-- An exception of the geometry library. -/
def geometryError (what : String) : Error := ⟨.invalidArgument,what⟩

/-- A library result as a result of this program. -/
def library {α : Type} : Except String α → Except Error α
  | .ok a => .ok a
  | .error what => .error (geometryError what)

/-- Corners of the triangles of a geometry. -/
def triangleCorners (geometry : Geometry) : List Point :=
  geometry.triangles.flatten.map (fun corner => geometry.vertices.get corner)

/-- Caps of a capsule: one sphere when it has no height, else two. -/
def capsuleCaps (part : ScenePart) (geometry : Geometry) (frame ns : String) : List Marker :=
  let diameter := 2*geometry.radius
  let cap := fun (index : ℕ) (direction : Float) =>
    let delta := D.rotate part.pose ⟨0,0,direction*geometry.height/2⟩
    Marker.add frame ns (index+1) .sphere
      {part.pose with x := part.pose.x+delta.x, y := part.pose.y+delta.y, z := part.pose.z+delta.z}
      ⟨diameter,diameter,diameter⟩ part.color []
  if geometry.height==0 then [cap 0 1] else [cap 0 (-1),cap 1 1]

/-- A geometry with corners; half spaces are intersected first. -/
def finiteGeometry (geometry : Geometry) : Except Error Geometry :=
  if geometry.type=.halfspaces then library (D.finiteHalfspaces geometry) else .ok geometry

/-- Surface points of a geometry that is given by its corners or half spaces. -/
def hullPoints (geometry : Geometry) : Except Error (List Point) := do
  let finite ← finiteGeometry D geometry
  let surface ← library (D.convexMeshOf finite.vertices)
  return surface.triangles.map (fun corner => surface.vertices.get corner)

/-- Markers of one part. -/
def partMarkers (oid : String) (part : ScenePart) (geometry : Geometry) (frame : String) :
    Except Error (List Marker) :=
  let ns := oid ++ "/" ++ part.id
  let marker := fun (type : MarkerType) (scale : Point) (points : List Point) =>
    Marker.add frame ns 0 type part.pose scale part.color points
  let diameter := 2*geometry.radius
  match geometry.type with
  | .box => .ok [marker .cube geometry.size []]
  | .sphere => .ok [marker .sphere ⟨diameter,diameter,diameter⟩ []]
  | .cylinder => .ok [marker .cylinder ⟨diameter,diameter,geometry.height⟩ []]
  | .capsule =>
    let body := if 0<geometry.height then [marker .cylinder ⟨diameter,diameter,geometry.height⟩ []] else []
    .ok (body ++ capsuleCaps D part geometry frame ns)
  | .ring =>
    let spacing := minimum 0.02 (geometry.tubeRadius*0.5)
    .ok [marker .points ⟨spacing,spacing,1⟩
      (D.sampleEllipticRingSurface geometry.radii geometry.tubeRadius spacing)]
  | .halfspaces => do
    let points ← hullPoints D geometry
    return [marker .triangleList ⟨1,1,1⟩ points]
  | .convex =>
    if geometry.triangles.isEmpty then do
      let points ← hullPoints D geometry
      return [marker .triangleList ⟨1,1,1⟩ points]
    else .ok [marker .triangleList ⟨1,1,1⟩ (triangleCorners geometry)]
  | .mesh => .ok [marker .triangleList ⟨1,1,1⟩ (triangleCorners geometry)]
  | .ellipsoid =>
    .ok [marker .sphere ⟨2*geometry.semiaxes.x,2*geometry.semiaxes.y,2*geometry.semiaxes.z⟩ []]
  | .other => .error (geometryError "marker geometry requires a finite surface representation")

end Markers

section Caches

/-- A shared object with its address. -/
structure Shared (α : Type) where
  /-- Address. -/
  address : ℕ
  /-- Content. -/
  value : α

/-- A shared model with the definitions of its parts. -/
structure Model where
  /-- Address. -/
  address : ℕ
  /-- Compiled model. -/
  value : Json
  /-- Geometry of each part. -/
  geometries : List (Shared Json)

/-- A cached obstacle message. -/
structure Body where
  /-- Compiled obstacle. -/
  value : Json
  /-- Its model. -/
  model : Model
  /-- Its message. -/
  message : SceneObstacle

/-- Cached markers of an obstacle or of the ground. -/
structure Markers where
  /-- Compiled obstacle or ground. -/
  value : Json
  /-- Its model. -/
  model : Model
  /-- Frame of the markers. -/
  frame : String
  /-- Messages. -/
  messages : List Marker

/-- State of a projection; hash maps are functions, since they are never iterated. -/
structure Projection where
  /-- Start of all frame names. -/
  namePrefix : String
  /-- Epoch of the last definition. -/
  epoch : String := ""
  /-- Revision of the last definition. -/
  revision : ℕ := 0
  /-- Frame of all placements. -/
  parent : String := ""
  /-- Obstacle messages by identity. -/
  bodies : String → Option Body := fun _ => none
  /-- Obstacle markers by identity. -/
  markers : String → Option Markers := fun _ => none
  /-- Markers of a ground model. -/
  groundMarkers : Option Markers := none
  /-- Models by name. -/
  models : String → Option Model := fun _ => none
  /-- Geometry table. -/
  geometries : List (Shared Json) := []
  /-- Obstacle frames by identity. -/
  frames : String → Option String := fun _ => none
  /-- Moving obstacles. -/
  entries : List Json := []
  /-- Next unused address. -/
  nextAddress : ℕ := 0

/-- A new projection; its frames are named after the node. -/
def newProjection (X : Externals) (nameSpace : String) : Projection :=
  {namePrefix := "xgc_scene_" ++ String.ofList ((X.digest nameSpace.toUTF8).toList.take 12)}

/-- A projection with the outputs it calls, newest first. -/
structure Canvas where
  /-- Projection. -/
  projection : Projection
  /-- Calls of the outputs. -/
  outputs : List Output := []

/-- Actions of a projection. -/
abbrev Project := EStateM Error Canvas

/-- Update the projection. -/
def modifyProjection (f : Projection → Projection) : Project Unit :=
  modify fun canvas => {canvas with projection := f canvas.projection}

/-- Call an output. -/
def emit (output : Output) : Project Unit :=
  modify fun canvas => {canvas with outputs := output::canvas.outputs}

/-- Geometry table of a document; an unchanged definition at its index is kept. -/
def shareGeometries : List (Shared Json) → ℕ → List Json → List (Shared Json) × ℕ
  | _,next,[] => ([],next)
  | known,next,shape::rest =>
    match known.head?.filter (fun shared => sameProjectionValue shared.value shape) with
    | some shared =>
      let tail := shareGeometries known.tail next rest
      (shared::tail.1,tail.2)
    | none =>
      let tail := shareGeometries known.tail (next+1) rest
      (⟨next,shape⟩::tail.1,tail.2)

/-- Definitions of parts. -/
def partReferences (definitions : List (Shared Json)) : List Json → Except Error (List (Shared Json))
  | [] => .ok []
  | part::rest => do
    let index ← geometryIndex part definitions.length
    let head ← orThrow (sceneError "Compiled geometryIndex out of range") definitions[index]?
    let tail ← partReferences definitions rest
    return head::tail

/-- Addresses of shared objects. -/
def addresses (shared : List (Shared Json)) : List ℕ := shared.map Shared.address

/-- The known model when its definition and its geometries are the same, else a new one. -/
def shareModel (known : Option Model) (value : Json) (references : List (Shared Json)) (next : ℕ) :
    Model × ℕ :=
  match known.filter (fun model => sameProjectionValue model.value value &&
      decide (addresses model.geometries=addresses references)) with
  | some model => (model,next)
  | none => (⟨next,value,references⟩,next+1)

/-- Models of a document by name. -/
def shareModels (definitions : List (Shared Json)) (known : String → Option Model) :
    ℕ → List (String × Json) → Except Error ((String → Option Model) × ℕ)
  | next,[] => .ok (fun _ => none,next)
  | next,(name,value)::rest => do
    let parts ← value.atKey "parts"
    let references ← partReferences definitions (elements parts)
    let shared := shareModel (known name) value references next
    let tail ← shareModels definitions known shared.2 rest
    return (fun key => if key=name then some shared.1 else tail.1 key,tail.2)

/-- Every obstacle names a known model and has a supported motion. -/
def checkItems (models : String → Option Model) : List Json → Except Error Unit
  | [] => .ok ()
  | item::rest => do
    let refusal := sceneError "Compiled obstacle requires a known model reference"
    if item.contains "parts" then .error refusal
    else do
      let name ← stringAt item "model"
      if (models name).isNone then .error refusal
      else do
        let _ ← motionType item
        checkItems models rest

/-- The ground has a supported mode and names a known model. -/
def checkGround (models : String → Option Model) (ground : Json) : Except Error Unit := do
  let mode ← stringAt ground "mode"
  if mode="model" then do
    let name ← stringAt ground "model"
    if (models name).isNone then .error (sceneError "Compiled ground requires a known model reference")
    else .ok ()
  else if mode="default_plane" then do
    let height ← ground.atKey "z"
    let z ← getDouble height
    if !z.isFinite then .error (sceneError "Ground z must be finite") else .ok ()
  else if mode≠"none" then .error (sceneError ("Unsupported Scene ground mode: " ++ mode))
  else .ok ()

/-- The projection with the geometry table and the models of a document. -/
def withModels (projection : Projection) (document : Json) : Except Error Projection := do
  requireCompiled document
  let definitions := shareGeometries projection.geometries projection.nextAddress
    (document.valueOr "geometries" .null).items
  let models ← shareModels definitions.1 projection.models definitions.2
    (document.valueOr "models" .null).members
  checkItems models.1 (document.valueOr "obstacles" .null).items
  let ground ← document.atKey "ground"
  checkGround models.1 ground
  return {projection with geometries := definitions.1, models := models.1, nextAddress := models.2}

/-- Share the definitions of a document; a refused document changes nothing. -/
def prepareModels (document : Json) : Project Unit := do
  let canvas ← get
  let projection ← ofResult (withModels canvas.projection document)
  modifyProjection fun _ => projection

end Caches

section Definitions

variable (D : Drawing)

/-- Wire forms of a geometry table. -/
def geometryMessages : List Json → Except Error (List Payload)
  | [] => .ok []
  | definition::rest => do
    let head ← library (D.geometryFromJson definition)
    let tail ← geometryMessages rest
    return head::tail

/-- A model by name. -/
def modelAt (models : String → Option Model) (name : String) : Except Error Model :=
  orThrow (jsonError "unordered_map::at") (models name)

/-- Message of the ground. -/
def groundMessage (models : String → Option Model) (ground : Json) : Except Error SceneGround := do
  let mode ← stringAt ground "mode"
  if mode="default_plane" then do
    let height ← ground.atKey "z"
    let z ← getDouble height
    return {mode := mode, z := z}
  else if mode="model" then do
    let placed ← ground.atKey "pose"
    let pose ← setPose placed
    let name ← stringAt ground "model"
    let model ← modelAt models name
    let definitions ← model.value.atKey "parts"
    let parts ← partMessages (elements definitions)
    return {mode := mode, pose := pose, parts := parts}
  else return {mode := mode}

/-- Body of an obstacle: the cached one when neither it nor its model changed. -/
def obstacleBody (projection : Projection) (item : Json) : Except Error (String × Body) := do
  let id ← stringAt item "id"
  let name ← stringAt item "model"
  let model ← modelAt projection.models name
  match (projection.bodies id).filter (fun body => sameProjectionValue body.value item &&
      decide (body.model.address=model.address)) with
  | some body => return (id,body)
  | none => do
    let message ← obstacleMessage item model.value
    return (id,⟨item,model,message⟩)

/-- Bodies of obstacles in order and by identity. -/
def obstacleBodies (projection : Projection) :
    List Json → Except Error (List SceneObstacle × (String → Option Body))
  | [] => .ok ([],fun _ => none)
  | item::rest => do
    let head ← obstacleBody projection item
    let tail ← obstacleBodies projection rest
    return (head.2.message::tail.1,fun key => (tail.2 key).or (if key=head.1 then some head.2 else none))

/-- Message of a prepared document with the bodies it was made of. -/
def snapshotMessage (projection : Projection) (document : Json) (epoch : String) (revision : ℕ)
    (stamp : Float) : Except Error (SceneSnapshot × (String → Option Body)) := do
  let frame ← stringAt document "frame"
  let id ← stringAt document "id"
  let geometries ← geometryMessages D (document.valueOr "geometries" .null).items
  let owned ← document.atKey "ground"
  let ground ← groundMessage projection.models owned
  let bodies ← obstacleBodies projection (document.valueOr "obstacles" .null).items
  return (⟨D.time stamp,frame,id,epoch,revision,geometries,ground,bodies.1⟩,bodies.2)

/-- Snapshot of a compiled document. -/
def snapshot (document : Json) (epoch : String) (revision : ℕ) (stamp : Float) : Project SceneSnapshot := do
  prepareModels document
  let canvas ← get
  let made ← ofResult (snapshotMessage D canvas.projection document epoch revision stamp)
  modifyProjection fun projection => {projection with bodies := made.2}
  return made.1

/-- Frame of an obstacle. -/
def frameName (projection : Projection) (held : Bool) (id : String) : String :=
  projection.namePrefix ++ "/" ++ projection.epoch ++ (if held then "/fixed/" else "/moving/") ++ id

/-- Frames and moving obstacles of a document, one obstacle after the other. -/
def scanFrames : List Json → Project Unit
  | [] => return ()
  | item::rest => do
    let id ← ofResult (stringAt item "id")
    let motion ← ofResult (item.atKey "motion")
    let type ← ofResult (motion.atKey "type")
    let held := isText type "hold"
    modifyProjection fun projection => {projection with
      frames := fun key => if key=id then some (frameName projection held id) else projection.frames key,
      entries := if held then projection.entries else projection.entries ++ [item]}
    scanFrames rest

/-- Adopt an epoch and a revision with their frames. -/
def adoptRevision (document : Json) (epoch : String) (revision : ℕ) : Project Unit := do
  let canvas ← get
  if canvas.projection.epoch≠epoch ∨ canvas.projection.revision≠revision then do
    modifyProjection fun projection => {projection with epoch := epoch, revision := revision}
    let frame ← ofResult (stringAt document "frame")
    modifyProjection fun projection => {projection with
      parent := frame, frames := fun _ => none, entries := []}
    scanFrames (document.valueOr "obstacles" .null).items

/-- Native forms of a geometry table. -/
def decodedGeometries : List Payload → Except Error (List Geometry)
  | [] => .ok []
  | payload::rest => do
    let head ← library (D.decodeGeometry payload)
    let tail ← decodedGeometries rest
    return head::tail

/-- Every part of a snapshot refers to a geometry of its table. -/
def checkIndices (snapshot : SceneSnapshot) (count : ℕ) : Except Error Unit :=
  if snapshot.obstacles.any (fun obstacle => obstacle.parts.any (fun part => count ≤ part.geometryIndex)) then
    .error (geometryError "snapshot geometry index out of range")
  else if snapshot.ground.mode="model" then
    if snapshot.ground.parts.any (fun part => count ≤ part.geometryIndex) then
      .error (sceneError "ground geometry index out of range")
    else .ok ()
  else if snapshot.ground.mode≠"default_plane" ∧ snapshot.ground.mode≠"none" then
    .error (sceneError ("Unsupported Scene ground mode: " ++ snapshot.ground.mode))
  else .ok ()

/-- Markers of parts in order. -/
def markersOf (oid : String) (geometries : List Geometry) (frame : String) :
    List ScenePart → Except Error (List Marker)
  | [] => .ok []
  | part::rest => do
    let geometry ← orThrow (geometryError "snapshot geometry index out of range")
      geometries[part.geometryIndex]?
    let head ← partMarkers D oid part geometry frame
    let tail ← markersOf oid geometries frame rest
    return head ++ tail

/-- Frame of an obstacle by identity. -/
def frameAt (projection : Projection) (id : String) : Except Error String :=
  orThrow (jsonError "unordered_map::at") (projection.frames id)

/-- Transform of an obstacle. -/
def transform (projection : Projection) (id : String) (pose : Pose3) (stamp : Stamp) :
    Except Error TransformStamped := do
  let child ← frameAt projection id
  return ⟨stamp,projection.parent,child,pose⟩

/-- Markers of something with a model: the cached ones when nothing changed, else new ones. -/
def sharedMarkers (known : Option Markers) (value : Json) (model : Model) (frame oid : String)
    (geometries : List Geometry) (parts : List ScenePart) : Except Error Markers :=
  match known.filter (fun markers => sameProjectionValue markers.value value &&
      decide (markers.model.address=model.address) && decide (markers.frame=frame)) with
  | some markers => .ok markers
  | none => do
    let messages ← markersOf D oid geometries frame parts
    return ⟨value,model,frame,messages⟩

/-- Fixed transforms, markers and marker cache of a definition. -/
structure Drawn where
  /-- Transforms of held obstacles. -/
  fixed : List TransformStamped := []
  /-- Marker messages. -/
  messages : List Marker := []
  /-- Markers by identity. -/
  cache : String → Option Markers := fun _ => none

/-- Transforms of one obstacle that does not move. -/
def fixedTransforms (projection : Projection) (body : SceneObstacle) (stamp : Stamp) :
    Except Error (List TransformStamped) :=
  if body.dynamic then .ok []
  else do
    let placed ← transform projection body.id body.pose stamp
    return [placed]

/-- Draw obstacles with their messages in order; a missing message is refused. -/
def drawObstacles (projection : Projection) (geometries : List Geometry) (stamp : Stamp) :
    List Json → List SceneObstacle → Except Error Drawn
  | [],_ => .ok {}
  | _::_,[] => .error (jsonError "vector::_M_range_check")
  | item::rest,body::bodies => do
    let fixed ← fixedTransforms projection body stamp
    let frame ← frameAt projection body.id
    let name ← stringAt item "model"
    let model ← modelAt projection.models name
    let drawn ← sharedMarkers D (projection.markers body.id) item model frame body.id geometries body.parts
    let tail ← drawObstacles projection geometries stamp rest bodies
    return ⟨fixed ++ tail.fixed,drawn.messages ++ tail.messages,
      fun key => (tail.cache key).or (if key=body.id then some drawn else none)⟩

/-- Draw a ground model. -/
def drawGround (projection : Projection) (geometries : List Geometry) (document : Json) (epoch : String)
    (snapshot : SceneSnapshot) : Except Error (List TransformStamped × Option Markers) :=
  if snapshot.ground.mode="model" then do
    let ground ← document.atKey "ground"
    let name ← stringAt ground "model"
    let model ← modelAt projection.models name
    let frame := projection.namePrefix ++ "/" ++ epoch ++ "/ground"
    let drawn ← sharedMarkers D projection.groundMarkers ground model frame frame geometries
      snapshot.ground.parts
    return ([⟨snapshot.stamp,projection.parent,frame,snapshot.ground.pose⟩],some drawn)
  else .ok ([],none)

/-- Publish the definition of a compiled document. -/
def definition (document : Json) (epoch : String) (revision : ℕ) (snapshot : SceneSnapshot) :
    Project Unit := do
  prepareModels document
  adoptRevision document epoch revision
  let geometries ← ofResult (decodedGeometries D snapshot.geometries)
  ofResult (checkIndices snapshot geometries.length)
  emit (.snapshot snapshot)
  let canvas ← get
  let drawn ← ofResult (drawObstacles D canvas.projection geometries snapshot.stamp
    (document.valueOr "obstacles" .null).items snapshot.obstacles)
  modifyProjection fun projection => {projection with markers := drawn.cache}
  let canvas ← get
  let ground ← ofResult (drawGround D canvas.projection geometries document epoch snapshot)
  modifyProjection fun projection => {projection with groundMarkers := ground.2}
  if !(drawn.fixed ++ ground.1).isEmpty then emit (.staticTransforms (drawn.fixed ++ ground.1))
  emit (.markers (.deleteAll::(drawn.messages ++ (ground.2.map Markers.messages).getD [])))

/-- State of a moving obstacle. -/
def movingState (item : Json) (elapsed : Float) (playing : Bool) : Except Error SceneObstacleState := do
  let placed ← item.atKey "pose"
  let pose ← setPose placed
  let movement ← item.atKey "motion"
  let motion ← toMotion movement
  let id ← stringAt item "id"
  let state := D.evaluateMotion pose motion elapsed playing
  return ⟨id,state.1,state.2.1,state.2.2⟩

/-- States and transforms of the moving obstacles. -/
def movingStates (projection : Projection) (stamp : Stamp) (elapsed : Float) (playing : Bool) :
    List Json → Except Error (List SceneObstacleState × List TransformStamped)
  | [] => .ok ([],[])
  | item::rest => do
    let body ← movingState D item elapsed playing
    let placed ← transform projection body.id body.pose stamp
    let tail ← movingStates projection stamp elapsed playing rest
    return (body::tail.1,placed::tail.2)

/-- Publish the state of the moving obstacles. -/
def tick (stamp elapsed : Float) (playing : Bool) : Project Unit := do
  let canvas ← get
  let projection := canvas.projection
  let states ← ofResult (movingStates D projection (D.time stamp) elapsed playing projection.entries)
  if !states.2.isEmpty then emit (.dynamicTransforms states.2)
  emit (.state ⟨D.time stamp,projection.parent,projection.epoch,projection.revision,playing,elapsed,states.1⟩)

end Definitions

end Ros1Adapter.SceneProjection
