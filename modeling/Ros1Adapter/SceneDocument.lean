import Mathlib
import Ros1Adapter.PatternResiduals
import Ros1Adapter.SceneJsonText

/-!
# Scene document validation

Every validator rebuilds its value in canonical member order with explicit
doubles. Double arithmetic and the geometry mathematics outside this
repository are fields of a parameter; comparisons are IEEE 754. The
incremental checks of single obstacles and the whole-document validator are
separate functions here as in the source.
-/

namespace Ros1Adapter.SceneDocument

open SceneJson SceneJsonText PatternResiduals

/-- Native motion of one obstacle. -/
inductive Motion where
  | hold
  | constantTwist (linear angular : List Float)
  | pingPong (pointA pointB : List Float) (speed : Float)
  | circle (center : List Float) (radius angularSpeed phase : Float)

/-- Double arithmetic and the functions of the external mathematics library. -/
structure Math where
  /-- Rounded sum. -/
  add : Float → Float → Float
  /-- Rounded difference. -/
  sub : Float → Float → Float
  /-- Rounded product. -/
  mul : Float → Float → Float
  /-- Rounded quotient. -/
  div : Float → Float → Float
  /-- Rounded square root. -/
  sqrt : Float → Float
  /-- Position at which a motion starts. -/
  motionStart : List Float → Motion → List Float
  /-- Canonical triangle indices of a valid convex mesh. -/
  validateConvexMesh : List (List Float) → List Int → Except String (List Int)
  /-- Declared field names of a registered geometry type. -/
  geometryFields : String → Option (List String)
  /-- Conversion of a registered geometry to its native form and back. -/
  geometryRoundTrip : Json → Except String Json

/-- The arithmetic of the target machine with given library functions. -/
def Math.ieee (motionStart : List Float → Motion → List Float)
    (validateConvexMesh : List (List Float) → List Int → Except String (List Int))
    (geometryFields : String → Option (List String))
    (geometryRoundTrip : Json → Except String Json) : Math :=
  ⟨Float.add,Float.sub,Float.mul,Float.div,Float.sqrt,
    motionStart,validateConvexMesh,geometryFields,geometryRoundTrip⟩

/-- Schema identity of authored documents. -/
def kSchema : String := "xgc2.scene.v1"

/-- An array of doubles. -/
def floats (values : List Float) : Json := .array (values.map .float)

/-- Distinct texts in ascending order, as `std::set` iterates them. -/
def textSet (texts : List String) : List String :=
  texts.dedup.insertionSort (· ≤ ·)

/-- Whether a JSON value equals the given text. -/
def isText (value : Json) (text : String) : Bool := value.equal (.string text)

section Validators

variable (spell : Float → String)

/-- Require an object with only allowed and all required members. -/
def fields (value : Json) (allowed required : List String) : Except Error Unit :=
  match value with
  | .object members =>
    let unknown := textSet ((members.map Prod.fst).filter (fun key => key∉allowed))
    let missing := textSet (required.filter (fun key => !value.contains key))
    if unknown≠[] ∨ missing≠[] then
      .error (sceneError ("Invalid fields: unknown=" ++ pythonRepr spell (.array (unknown.map .string)) ++
        ", missing=" ++ pythonRepr spell (.array (missing.map .string))))
    else .ok ()
  | _ => .error (sceneError "Expected an object")

/-- Only the empty list of texts makes an empty set. -/
theorem textSet_eq_nil {texts : List String} : textSet texts=[] ↔ texts=[] := by
  unfold textSet
  constructor
  · intro h
    have hl := congrArg List.length h
    rw [List.length_insertionSort] at hl
    exact (List.dedup_eq_nil _).mp (List.length_eq_zero_iff.mp hl)
  · rintro rfl
    rfl

/-- The field check accepts objects with allowed keys only and all required ones. -/
theorem fields_ok_iff {value : Json} {allowed required : List String} :
    fields spell value allowed required=.ok () ↔
      (∃ members, value=.object members ∧ ∀ m∈members, m.1∈allowed) ∧
        ∀ key∈required, value.contains key=true := by
  cases value with
  | object members =>
    have hunknown : textSet ((members.map Prod.fst).filter (fun key => key∉allowed))=[] ↔
        ∀ m∈members, m.1∈allowed := by
      rw [textSet_eq_nil,List.filter_eq_nil_iff]
      simp
    have hmissing : textSet (required.filter (fun key => !(Json.object members).contains key))=[] ↔
        ∀ key∈required, (Json.object members).contains key=true := by
      rw [textSet_eq_nil,List.filter_eq_nil_iff]
      simp
    unfold fields
    dsimp only
    rw [←hmissing]
    split
    · rename_i h
      rw [←not_and_or] at h
      simp only [reduceCtorEq,false_iff,Json.object.injEq,exists_eq_left']
      rw [←hunknown]
      exact h
    · rename_i h
      rw [←not_and_or,not_not] at h
      simp only [true_iff,Json.object.injEq,exists_eq_left']
      rw [←hunknown]
      exact h
  | _ => simp [fields]

/-- A finite number within bounds. -/
def number (value : Json) (label : String) (minimum maximum : Float) : Except Error Float :=
  match value.double? with
  | none => .error (sceneError (label ++ " must be finite"))
  | some result =>
    if !result.isFinite then .error (sceneError (label ++ " must be finite"))
    else if !(decide (minimum≤result) && decide (result ≤ maximum)) then
      .error (sceneError (label ++ " is outside the supported range"))
    else .ok result

/-- A number within the default bounds of the source. -/
def numberDefault (value : Json) (label : String) : Except Error Float :=
  number value label (-1e6) 1e6

/-- Every element as a number within the default bounds. -/
def numbers (label : String) : List Json → Except Error (List Float)
  | [] => .ok []
  | item::rest => do
    let head ← numberDefault item label
    let tail ← numbers label rest
    return head::tail

/-- An array of exactly `count` numbers. -/
def vector (value : Json) (label : String) (count : ℕ) : Except Error (List Float) :=
  match value with
  | .array items =>
    if items.length=count then numbers label items
    else .error (sceneError (label ++ " must have " ++ toString count ++ " components"))
  | _ => .error (sceneError (label ++ " must have " ++ toString count ++ " components"))

/-- Pattern of stable identifiers. -/
def identifierPattern : Pattern :=
  .seq (.oneOf (fun c => isLetter c || isDigit c))
    (.repeated (.oneOf (fun c => isLetter c || isDigit c || c == '_' || c == '.' || c == '-')) 0 127)

/-- A stable nonempty identifier. -/
def identifier (value : Json) (label : String) : Except Error String :=
  match value with
  | .string text =>
    if identifierPattern.matchesText text then .ok text
    else .error (sceneError (label ++ " must be a stable nonempty identifier"))
  | _ => .error (sceneError (label ++ " must be a stable nonempty identifier"))

section Numeric

variable (math : Math)

/-- Sum of squares in component order. -/
def squaredNorm (components : List Float) : Float :=
  components.foldl (fun squared x => math.add squared (math.mul x x)) 0

/-- Divide a quaternion by its computed norm; a vanishing norm is refused. -/
def normalise (rotation : List Float) : Except Error (List Float) :=
  let norm := math.sqrt (squaredNorm math rotation)
  if norm<1e-12 then .error (sceneError "Orientation quaternion must be nonzero")
  else .ok (rotation.map (fun x => math.div x norm))

/-- Placement with explicit position and unit orientation. -/
def pose (value : Json) : Except Error Json := do
  fields spell value ["position","orientation"] []
  let position ← vector (value.valueOr "position" (.array [.integer 0,.integer 0,.integer 0])) "position" 3
  let rotation ← vector
    (value.valueOr "orientation" (.array [.integer 0,.integer 0,.integer 0,.integer 1])) "orientation" 4
  let unit ← normalise math rotation
  return .object [("position",floats position),("orientation",floats unit)]

/-- Every element as a vector of three numbers. -/
def vectors (label : String) : List Json → Except Error (List (List Float))
  | [] => .ok []
  | point::rest => do
    let head ← vector point label 3
    let tail ← vectors label rest
    return head::tail

/-- An index of the vertex table; every other value becomes the invalid index. -/
def meshIndex (count : ℕ) (index : Json) : Int :=
  match index with
  | .integer n => if n<0 ∨ (count : Int)≤n then -1 else n
  | _ => -1

/-- Convex mesh with explicit triangles. -/
def convex (value : Json) : Except Error Json :=
  match value.valueOr "vertices" .null with
  | .array raw =>
    if raw.length<4 ∨ 4096<raw.length then
      .error (sceneError "Convex geometry requires 4 to 4096 vertices")
    else do
      let vertices ← vectors "vertex" raw
      let indices := (value.valueOr "triangles" .null).items.map (meshIndex vertices.length)
      match math.validateConvexMesh vertices indices with
      | .ok triangles =>
        .ok (.object [("type",.string "convex"),("vertices",.array (vertices.map floats)),
          ("triangles",.array (triangles.map .integer))])
      | .error what => .error (sceneError what)
  | _ => .error (sceneError "Convex geometry requires 4 to 4096 vertices")

/-- Smaller of two doubles as `std::min` selects it. -/
def minimum (a b : Float) : Float := if b<a then b else a

/-- Box with positive side lengths. -/
def boxGeometry (value : Json) : Except Error Json := do
  fields spell value ["type","size"] ["size"]
  let size ← vector (value.valueOr "size" .null) "box size" 3
  if size.any (fun side => side≤0) then .error (sceneError "Box side lengths must be positive")
  else return .object [("type",.string "box"),("size",floats size)]

/-- Sphere, cylinder or capsule; only the capsule may have no height. -/
def roundGeometry (kind : String) (value : Json) : Except Error Json :=
  if kind="sphere" then do
    fields spell value ["type","radius"] ["type","radius"]
    let radius ← number (value.valueOr "radius" .null) "radius" 1e-6 1e4
    return .object [("type",.string kind),("radius",.float radius)]
  else do
    fields spell value ["type","radius","height"] ["type","radius","height"]
    let radius ← number (value.valueOr "radius" .null) "radius" 1e-6 1e4
    let height ← number (value.valueOr "height" .null) "height" (if kind="capsule" then 0 else 1e-6) 1e4
    return .object [("type",.string kind),("radius",.float radius),("height",.float height)]

/-- Every ring radius within its own bounds. -/
def ringRadii : List Float → Except Error (List Float)
  | [] => .ok []
  | radius::rest => do
    let head ← number (.float radius) "ring radii" 1e-6 1e4
    let tail ← ringRadii rest
    return head::tail

/-- Elliptic ring whose tube fits both radii. -/
def ringGeometry (value : Json) : Except Error Json := do
  fields spell value ["type","radii","tubeRadius"] ["radii","tubeRadius"]
  let raw ← vector (value.valueOr "radii" .null) "ring radii" 2
  let radii ← ringRadii raw
  let tube ← number (value.valueOr "tubeRadius" .null) "ring tube radius" 1e-6 1e4
  match radii with
  | [first,second] =>
    if minimum first second≤tube then
      .error (sceneError "Ring tube radius must be smaller than both radii")
    else return .object [("type",.string "ring"),("radii",floats radii),("tubeRadius",.float tube)]
  | _ => .error (sceneError "ring radii must have 2 components")

/-- A convex value that states its triangles. -/
def hasTriangles (value : Json) : Bool :=
  match value.member "triangles" with
  | none => false
  | some (.array items) => !items.isEmpty
  | some _ => true

/-- Geometry of a type that the external registry declares. -/
def registeredGeometry (declared : List String) (value : Json) : Except Error Json := do
  fields spell value ("type"::declared) ["type"]
  match math.geometryRoundTrip value with
  | .ok result => .ok result
  | .error what => .error (sceneError what)

/-- Refusal of a geometry type without a canonical shape. -/
def unsupportedGeometry (kind : Json) : Error :=
  sceneError ("Unsupported geometry " ++ pythonRepr spell kind ++ "; no shape substitution is performed")

/-- Canonical geometry of one part. -/
def geometry (value : Json) : Except Error Json :=
  match value with
  | .object _ =>
    match value.valueOr "type" .null with
    | .string kind =>
      if kind="box" then boxGeometry spell value
      else if kind="sphere" ∨ kind="cylinder" ∨ kind="capsule" then roundGeometry spell kind value
      else if kind="ring" then ringGeometry spell value
      else if kind="convex" ∧ hasTriangles value then do
        fields spell value ["type","vertices","triangles"] ["vertices","triangles"]
        convex math value
      else
        match math.geometryFields kind with
        | some declared => registeredGeometry spell math declared value
        | none => .error (unsupportedGeometry spell (.string kind))
    | kind => .error (unsupportedGeometry spell kind)
  | _ => .error (sceneError "Geometry must be an object")

/-- Sum of squared coordinate differences. -/
def squaredDistance (a b : List Float) : Float :=
  (a.zip b).foldl (fun squared p => math.add squared (math.mul (math.sub p.1 p.2) (math.sub p.1 p.2))) 0

/-- Optional boolean member with a default. -/
def flag (value : Json) (key : String) (fallback : Bool) : Except Error Bool :=
  match value.member key with
  | none => .ok fallback
  | some (.boolean b) => .ok b
  | some _ => .error (sceneError (key ++ " must be a boolean"))

/-- Constant linear and angular velocity. -/
def twistMotion (value : Json) : Except Error Json := do
  fields spell value ["type","linear","angular"] []
  let zero := Json.array [.integer 0,.integer 0,.integer 0]
  let linear ← vector (value.valueOr "linear" zero) "linear velocity" 3
  let angular ← vector (value.valueOr "angular" zero) "angular velocity" 3
  return .object [("type",.string "constant_twist"),("linear",floats linear),("angular",floats angular)]

/-- Motion between two distinct points. -/
def pingPongMotion (value : Json) : Except Error Json := do
  fields spell value ["type","point_a","point_b","speed"] ["point_a","point_b","speed"]
  let a ← vector (value.valueOr "point_a" .null) "point A" 3
  let b ← vector (value.valueOr "point_b" .null) "point B" 3
  if squaredDistance math a b<1e-12 then .error (sceneError "Ping-pong endpoints must differ")
  else do
    let speed ← number (value.valueOr "speed" .null) "speed" 1e-6 1000
    return .object [("type",.string "ping_pong"),("point_a",floats a),("point_b",floats b),
      ("speed",.float speed)]

/-- Motion on a circle. -/
def circleMotion (value : Json) : Except Error Json := do
  fields spell value ["type","center","radius","angular_speed","phase"] ["center","radius","angular_speed"]
  let center ← vector (value.valueOr "center" .null) "circle center" 3
  let radius ← number (value.valueOr "radius" .null) "circle radius" 1e-6 1e4
  let speed ← number (value.valueOr "angular_speed" .null) "angular speed" (-1000) 1000
  let phase ← numberDefault (value.valueOr "phase" (.integer 0)) "phase"
  return .object [("type",.string "circle"),("center",floats center),("radius",.float radius),
    ("angular_speed",.float speed),("phase",.float phase)]

/-- Motion along waypoints, which only the document knows. -/
def waypointMotion (value : Json) : Except Error Json := do
  fields spell value
    ["type","velocity","orientation","angular_velocity","loop","sin","waypoints"] ["waypoints"]
  match value.valueOr "waypoints" .null with
  | .array points =>
    if points.length<2 ∨ 4096<points.length then
      .error (sceneError "Waypoints require 2 to 4096 positions")
    else do
      let velocity ← number (value.valueOr "velocity" (.float 1)) "velocity" 1e-6 1000
      let orientation ← flag value "orientation" true
      let angular ← number (value.valueOr "angular_velocity" (.float 0.8)) "angular velocity" 1e-6 1000
      let repeats ← flag value "loop" false
      let sin ← flag value "sin" false
      let positions ← vectors "waypoint" points
      return .object [("type",.string "waypoints"),("velocity",.float velocity),
        ("orientation",.boolean orientation),("angular_velocity",.float angular),
        ("loop",.boolean repeats),("sin",.boolean sin),("waypoints",.array (positions.map floats))]
  | _ => .error (sceneError "Waypoints require 2 to 4096 positions")

/-- Canonical motion of one obstacle. -/
def motion (value : Json) : Except Error Json :=
  match value with
  | .object _ =>
    match value.valueOr "type" (.string "hold") with
    | .string kind =>
      if kind="hold" then do
        fields spell value ["type"] []
        return .object [("type",.string "hold")]
      else if kind="constant_twist" then twistMotion spell value
      else if kind="ping_pong" then pingPongMotion spell math value
      else if kind="circle" then circleMotion spell value
      else if kind="waypoints" then waypointMotion spell value
      else .error (sceneError ("Unsupported motion " ++ pythonRepr spell (.string kind)))
    | kind => .error (sceneError ("Unsupported motion " ++ pythonRepr spell kind))
  | _ => .error (sceneError "Motion must be an object")

/-- Numbers of an array value. -/
def floatItems (value : Json) : List Float := value.items.filterMap Json.double?

/-- Double of a number value. -/
def floatValue (value : Json) : Float := value.double?.getD 0

/-- Native form of a canonical motion; waypoints have none. -/
def toMotion (value : Json) : Except Error Motion :=
  match value.valueOr "type" .null with
  | .string kind =>
    if kind="hold" then .ok .hold
    else if kind="constant_twist" then
      .ok (.constantTwist (floatItems (value.valueOr "linear" .null))
        (floatItems (value.valueOr "angular" .null)))
    else if kind="ping_pong" then
      .ok (.pingPong (floatItems (value.valueOr "point_a" .null))
        (floatItems (value.valueOr "point_b" .null)) (floatValue (value.valueOr "speed" .null)))
    else if kind="circle" then
      .ok (.circle (floatItems (value.valueOr "center" .null)) (floatValue (value.valueOr "radius" .null))
        (floatValue (value.valueOr "angular_speed" .null)) (floatValue (value.valueOr "phase" .null)))
    else .error (sceneError ("Unsupported native motion: " ++ kind))
  | _ => .error (sceneError "Unsupported native motion: ")

/-- A colour has four channels between zero and one. -/
def colorChecked (part : Json) : Except Error Unit :=
  match part.member "color" with
  | none => .ok ()
  | some value => do
    let color ← vector value "color" 4
    if color.any (fun channel => channel<0 || 1<channel) then
      .error (sceneError "Color channels must be between 0 and 1")
    else .ok ()

/-- The one colour that normalized parts carry. -/
def amber : Json := floats [1.0,0.5,0.1,1.0]

/-- Canonical parts in order; earlier part identities may not return. -/
def partList (seen : List String) : List Json → Except Error (List Json)
  | [] => .ok []
  | part::rest => do
    fields spell part ["id","pose","geometry","color"] ["id","geometry"]
    let pid ← identifier (part.valueOr "id" .null) "Part ID"
    if pid∈seen then .error (sceneError ("Duplicate part ID " ++ pid))
    else do
      colorChecked part
      let placed ← pose spell math (part.valueOr "pose" (.object []))
      let shape ← geometry spell math (part.valueOr "geometry" .null)
      let tail ← partList (pid::seen) rest
      return .object [("id",.string pid),("pose",placed),("geometry",shape),("color",amber)]::tail

/-- Between one and 128 canonical parts. -/
def normalizeParts (parts : Json) : Except Error Json :=
  match parts with
  | .array items =>
    if items.isEmpty ∨ 128 < items.length then .error (sceneError "Obstacle requires 1 to 128 parts")
    else do
      let normalized ← partList spell math [] items
      return .array normalized
  | _ => .error (sceneError "Obstacle requires 1 to 128 parts")

/-- Segments of a path text between slashes. -/
def segments (text : List Char) : List (List Char) := text.splitOn '/'

/-- Asset-relative reference of a model resource. -/
def resourceRef (value : Json) : Except Error Json := do
  fields spell value ["format","file"] ["format","file"]
  let format := value.valueOr "format" .null
  if !(isText format "sdformat-model" || isText format "gltf" || isText format "mesh") then
    .error (sceneError "Model resource format must be sdformat-model, gltf, or mesh")
  else
    match value.valueOr "file" .null with
    | .string file =>
      let text := file.toList
      if text.isEmpty || text.head?==some '/' || '\\'∈text || '\x00'∈text ||
          (segments text).any (fun part => part.isEmpty || part==['.'] || part==['.','.']) then
        .error (sceneError "Model resource file must be asset-relative")
      else return .object [("format",format),("file",.string file)]
    | _ => .error (sceneError "Model resource file must be asset-relative")

/-- An obstacle name has 1 to 256 characters and is not blank. -/
def nameChecked (name : Json) : Except Error String :=
  match name with
  | .string text =>
    if 256<text.toList.length || text.toList.all (fun c => pythonWhitespace c.toNat) then
      .error (sceneError "Obstacle name must have 1 to 256 characters")
    else .ok text
  | _ => .error (sceneError "Obstacle name must have 1 to 256 characters")

/-- Magnitude of a double. -/
def magnitude (x : Float) : Float := if x<0 then -x else x

/-- Whether a start differs from the placed position by more than the tolerance. -/
def startDiffers (start position : List Float) : Bool :=
  (start.zip position).any (fun p => (1e-6 : Float) < magnitude (math.sub p.1 p.2))

/-- A native motion starts where the obstacle is placed. -/
def startChecked (initial movement : Json) : Except Error Unit :=
  if isText (movement.valueOr "type" .null) "waypoints" then .ok ()
  else do
    let position := floatItems (initial.valueOr "position" .null)
    let native ← toMotion movement
    if startDiffers math (math.motionStart position native) position then
      .error (sceneError "Initial obstacle position must match its motion path start")
    else .ok ()

/-- Shape member of an obstacle: one model reference or its own parts. -/
def obstacleShape (value : Json) : Except Error (String × Json) :=
  match value.member "model" with
  | some model => do
    let name ← identifier model "Model ID"
    return ("model",.string name)
  | none => do
    let parts ← normalizeParts spell math (value.valueOr "parts" .null)
    return ("parts",parts)

/-- Canonical obstacle, checked on its own. -/
def obstacle (value : Json) : Except Error Json := do
  fields spell value ["id","name","pose","parts","motion","model"] ["id"]
  let oid ← identifier (value.valueOr "id" .null) "Obstacle ID"
  if oid="ground_plane" then .error (sceneError "ground_plane is owned by ground, not an obstacle")
  else do
    let name ← nameChecked (value.valueOr "name" (.string oid))
    if value.contains "parts"=value.contains "model" then
      .error (sceneError "Obstacle requires parts or one model")
    else do
      let initial ← pose spell math (value.valueOr "pose" (.object []))
      let movement ← motion spell math (value.valueOr "motion" (.object [("type",.string "hold")]))
      startChecked math initial movement
      let shape ← obstacleShape spell math value
      return .object [("id",.string oid),("name",.string name),("pose",initial),shape,("motion",movement)]

/-- Canonical model: analytic parts or one resource. -/
def modelEntry (value : Json) : Except Error Json := do
  fields spell value ["parts","resource"] []
  if value.contains "parts"=value.contains "resource" then
    .error (sceneError "Model requires parts or one resource")
  else
    match value.member "resource" with
    | some resource => do
      let reference ← resourceRef spell resource
      return .object [("resource",reference)]
    | none => do
      let parts ← normalizeParts spell math (value.valueOr "parts" .null)
      return .object [("parts",parts)]

/-- Canonical models in definition order. -/
def modelMembers : List (String × Json) → Except Error (List (String × Json))
  | [] => .ok []
  | (key,value)::rest => do
    let name ← identifier (.string key) "Model ID"
    let entry ← modelEntry spell math value
    let tail ← modelMembers rest
    return (name,entry)::tail

/-- The model table of a document. -/
def models (value : Json) : Except Error Json :=
  match value with
  | .object members => do
    let defined ← modelMembers spell math members
    return .object defined
  | _ => .error (sceneError "Models must be an object")

/-- Canonical ground: a plane, nothing or a placed model. -/
def ground (value : Json) : Except Error Json :=
  match value.member "mode" with
  | none => .error (sceneError "Ground requires a mode")
  | some mode =>
    if isText mode "default_plane" then do
      fields spell value ["mode","z"] ["mode"]
      let z ← numberDefault (value.valueOr "z" (.float 0)) "ground z"
      return .object [("mode",mode),("z",.float z)]
    else if isText mode "none" then do
      fields spell value ["mode"] ["mode"]
      return .object [("mode",mode)]
    else if isText mode "model" then do
      fields spell value ["mode","model","pose"] ["mode","model","pose"]
      let name ← identifier (value.valueOr "model" .null) "Model ID"
      let placed ← pose spell math (value.valueOr "pose" .null)
      return .object [("mode",mode),("model",.string name),("pose",placed)]
    else .error (sceneError "Ground mode must be default_plane, model, or none")

/-- Identity text of an obstacle. -/
def obstacleId (item : Json) : Except Error String :=
  match item.atKey "id" with
  | .ok (.string text) => .ok text
  | .ok _ => .error (jsonError "type must be string")
  | .error error => .error error

/-- Identities of all obstacles in order. -/
def obstacleIds : List Json → Except Error (List String)
  | [] => .ok []
  | item::rest => do
    let id ← obstacleId item
    let tail ← obstacleIds rest
    return id::tail

/-- Inline parts of all obstacles together. -/
def partCount (obstacles : List Json) : ℕ :=
  (obstacles.map (fun item => ((item.member "parts").map Json.size).getD 0)).sum

/-- Limits and identity uniqueness of an obstacle list. -/
def checkObstacleSet (obstacles : List Json) : Except Error Unit :=
  if 512<obstacles.length then .error (sceneError "Scene supports at most 512 obstacles")
  else do
    let ids ← obstacleIds obstacles
    if ids.dedup.length≠obstacles.length then .error (sceneError "Duplicate obstacle ID")
    else if 4096<partCount obstacles then
      .error (sceneError "Scene supports at most 4096 convex parts")
    else .ok ()

/-- Pattern of scene frames without a leading slash. -/
def framePattern : Pattern :=
  let head := fun c => isLetter c || c == '_'
  let name := Pattern.seq (.oneOf head) (.star (.oneOf (fun c => isLetter c || isDigit c || c == '_')))
  .seq name (.star (.seq (.char '/') name))

/-- An explicit frame name of at most 160 bytes. -/
def frameChecked (frame : Json) : Except Error String :=
  match frame with
  | .string text =>
    if 160<text.utf8ByteSize || !framePattern.matchesText text then
      .error (sceneError "Scene frame must be explicit and have no leading slash")
    else .ok text
  | _ => .error (sceneError "Scene frame must be explicit and have no leading slash")

/-- Canonical obstacles in order. -/
def obstacleList : List Json → Except Error (List Json)
  | [] => .ok []
  | item::rest => do
    let head ← obstacle spell math item
    let tail ← obstacleList rest
    return head::tail

/-- Whether an obstacle names only a model of the table. -/
def modelKnown (defined item : Json) : Bool :=
  match item.member "model" with
  | some (.string name) => defined.contains name
  | some _ => false
  | none => true

/-- Canonical ground member of a document, checked against its models. -/
def groundMember (value defined : Json) : Except Error (List (String × Json)) :=
  match value.member "ground" with
  | none => .ok []
  | some raw => do
    let owned ← ground spell math raw
    if isText (owned.valueOr "mode" .null) "model" && !modelKnown defined owned then
      .error (sceneError "Ground model is not defined")
    else return [("ground",owned)]

/-- Model member of a document, present exactly when it was authored. -/
def modelMember (value : Json) : Except Error (List (String × Json)) :=
  match value.member "models" with
  | none => .ok []
  | some raw => do
    let defined ← models spell math raw
    return [("models",defined)]

/-- The model table that a list of document members carries. -/
def definedModels (members : List (String × Json)) : Json :=
  (members.lookup "models").getD (.object [])

/-- Whole-document validation with all cross references. -/
def document (value : Json) : Except Error Json := do
  fields spell value ["schema","id","frame","obstacles","models","ground"] ["schema","id","frame","obstacles"]
  if !isText (value.valueOr "schema" .null) kSchema then .error (sceneError "Unsupported scene schema")
  else do
    let id ← identifier (value.valueOr "id" .null) "Scene ID"
    let frame ← frameChecked (value.valueOr "frame" .null)
    match value.valueOr "obstacles" .null with
    | .array items =>
      if 512 < items.length then .error (sceneError "Scene supports at most 512 obstacles")
      else do
        let obstacles ← obstacleList spell math items
        checkObstacleSet obstacles
        let modelPart ← modelMember spell math value
        if !obstacles.all (modelKnown (definedModels modelPart)) then
          .error (sceneError "Obstacle model is not defined")
        else do
          let groundPart ← groundMember spell math value (definedModels modelPart)
          return .object (("schema",.string kSchema)::("id",.string id)::("frame",.string frame)::
            ("obstacles",.array obstacles)::(modelPart ++ groundPart))
    | _ => .error (sceneError "Scene supports at most 512 obstacles")

end Numeric
end Validators

end Ros1Adapter.SceneDocument
