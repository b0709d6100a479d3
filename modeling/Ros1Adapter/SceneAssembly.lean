import Ros1Adapter.PythonFloat
import Ros1Adapter.SceneStoreValid

/-!
# Assembly of a world from element scenes

An assembled world holds the obstacles of its elements, placed and named after
them. Element scenes are validated before they are placed and the world is
validated as a whole afterwards, so every orientation is normalized twice.
Placement arithmetic belongs to the mathematics library and is a parameter.
-/

namespace Ros1Adapter.SceneAssembly

open SceneJson SceneJsonText SceneDocument SceneDocumentNormal SceneFiles SceneStore SceneStoreValid SceneYaml
open ActionRules

section Again

variable {spell : Float → String} {math : Math}

/-- A validated document is accepted again and comes back unchanged. -/
theorem document_idempotent (laws : MathLaws math True) {value result : Json}
    (h : SceneDocument.document spell math value=.ok result) :
    SceneDocument.document spell math result=.ok result := by
  obtain ⟨again,hagain,hexact⟩ := canonical_again laws (document_canonical h)
  rw [hagain,hexact trivial]

end Again

section Source

/-- Placement of an element in the world. -/
structure Placement where
  /-- Offset along the first axis. -/
  x : Float
  /-- Offset along the second axis. -/
  y : Float
  /-- Rotation about the vertical axis. -/
  yaw : Float

/-- Position and orientation in native form, the scalar part of the orientation last. -/
structure Pose3 where
  /-- Cartesian position. -/
  position : List Float
  /-- Orientation quaternion. -/
  orientation : List Float

/-- Placement arithmetic of the mathematics library. -/
structure Placer where
  /-- Pose of an element's child in the world. -/
  composePlacement : Placement → Pose3 → Pose3
  /-- Motion of an element's child in the world. -/
  placeMotion : Placement → Motion → Motion

/-- Python name of a JSON type. -/
def typeName : Json → String
  | .null => "NoneType"
  | .boolean _ => "bool"
  | .integer _ => "int"
  | .float _ => "float"
  | .string _ => "str"
  | .array _ => "list"
  | .object _ => "dict"

/-- Subscript access with Python's diagnostics. -/
def item (value : Json) (key : String) : Except Error Json :=
  match value with
  | .object members =>
    match members.lookup key with
    | some found => .ok found
    | none => .error (sceneError (reprText key))
  | .array _ => .error (sceneError "list indices must be integers or slices, not str")
  | .string _ => .error (sceneError "string indices must be integers")
  | other => .error (sceneError ("'" ++ typeName other ++ "' object is not subscriptable"))

/-- Member access with a default and Python's diagnostics. -/
def get (value : Json) (key : String) (fallback : Json) : Except Error Json :=
  match value with
  | .object members => .ok ((members.lookup key).getD fallback)
  | other => .error (sceneError ("'" ++ typeName other ++ "' object has no attribute 'get'"))

/-- Characters without the whitespace around them. -/
def stripped (characters : List Char) : List Char :=
  (characters.dropWhile (fun c => pythonWhitespace c.toNat)).rdropWhile (fun c => pythonWhitespace c.toNat)

/-- Text without the whitespace around it. -/
def strip (value : Json) : Except Error String :=
  match value with
  | .string text => .ok (String.ofList (stripped text.toList))
  | other => .error (sceneError ("'" ++ typeName other ++ "' object has no attribute 'strip'"))

/-- A member of string type, as `at` and `get` read it. -/
def textAt (value : Json) (key : String) : Except Error String :=
  match value.atKey key with
  | .ok (.string text) => .ok text
  | .ok _ => .error (jsonError "type must be string")
  | .error error => .error error

/-- Sources of the element scenes: elements, member names or characters. -/
def sourcesOf (documents : Json) : Except Error (List Json) :=
  match documents with
  | .array items => .ok items
  | .object members => .ok (members.map (fun m => .string m.1))
  | .string text => .ok (text.toList.map (fun c => .string (String.singleton c)))
  | other => .error (sceneError ("object of type '" ++ typeName other ++ "' has no len()"))

/-- Native form of a canonical placement. -/
def toPose (value : Json) : Pose3 :=
  ⟨floatItems (value.valueOr "position" .null),floatItems (value.valueOr "orientation" .null)⟩

/-- JSON form of a native placement. -/
def fromPose (pose : Pose3) : Json :=
  .object [("position",floats pose.position),("orientation",floats pose.orientation)]

/-- Letters of a scene identity; the Kelvin sign lowers to an ASCII letter. -/
def identityCharacter (c : Char) : Char :=
  if c.toNat=0x212a then 'k'
  else if 'A' ≤ c && c ≤ 'Z' then Char.ofNat (c.toNat+32)
  else if c = ' ' || c = '_' then '-'
  else c

variable (X : Externals) (P : Placer)

/-- Element scene read from its YAML source. -/
def yaml (source : Json) : Except Error Json :=
  match source with
  | .string text => X.parseYaml text.toUTF8
  | other => .error (sceneError ("'" ++ typeName other ++ "' object has no attribute 'read'"))

/-- Members of a motion that the library's placement moves. -/
def placedMembers (native : Motion) (movement : Json) : Json :=
  match native with
  | .hold => movement
  | .constantTwist linear angular => (movement.set "linear" (floats linear)).set "angular" (floats angular)
  | .pingPong a b _ => (movement.set "point_a" (floats a)).set "point_b" (floats b)
  | .circle center _ _ phase => (movement.set "center" (floats center)).set "phase" (.float phase)

/-- A motion in the world. -/
def placedMotion (placement : Placement) (movement : Json) : Except Error Json := do
  let native ← toMotion movement
  return placedMembers (P.placeMotion placement native) movement

/-- An obstacle in the world, before the world is validated. -/
def placedObstacle (eid : String) (placement : Placement) (original : Json) : Except Error Json := do
  let oid ← textAt original "id"
  let id ← identifier (.string (eid ++ "." ++ oid)) "ID"
  let name ← textAt original "name"
  let pose := P.composePlacement placement (toPose (original.valueOr "pose" .null))
  let movement ← placedMotion P placement (original.valueOr "motion" .null)
  return (((original.set "id" (.string id)).set "name" (.string (eid ++ " " ++ name))).set "pose"
    (fromPose pose)).set "motion" movement

/-- Obstacles of one element in the world. -/
def placedObstacles (eid : String) (placement : Placement) : List Json → Except Error (List Json)
  | [] => .ok []
  | original::rest => do
    let head ← placedObstacle P eid placement original
    let tail ← placedObstacles eid placement rest
    return head::tail

/-- What the loop over the elements has gathered so far. -/
structure Gathered where
  /-- Element identities, newest first. -/
  ids : List String
  /-- Frame of the last scene, empty before the first. -/
  frame : String
  /-- Placed obstacles in order. -/
  obstacles : List Json

/-- One round of the loop over the elements. -/
def gatherElement (gathered : Gathered) (element source : Json) : Except Error Gathered := do
  let raw ← item element "id"
  let eid ← identifier raw "Element ID"
  if '.'∈eid.toList ∨ eid∈gathered.ids then
    .error (sceneError "Element IDs must be unique and contain no dots")
  else do
    let xRaw ← get element "x" (.integer 0)
    let x ← number xRaw "x" (-1e4) 1e4
    let yRaw ← get element "y" (.integer 0)
    let y ← number yRaw "y" (-1e4) 1e4
    let yawRaw ← get element "yaw" (.integer 0)
    let yaw ← number yawRaw "yaw" (-1e4) 1e4
    let parsed ← SceneAssembly.yaml X source
    let scene ← SceneDocument.document X.spell X.math parsed
    if gathered.frame≠"" ∧ ¬isText (scene.valueOr "frame" .null) gathered.frame then
      .error (sceneError "All elements must use the same world frame")
    else do
      let frame ← textAt scene "frame"
      let placed ← placedObstacles P eid ⟨x,y,yaw⟩ (scene.valueOr "obstacles" .null).items
      return ⟨eid::gathered.ids,frame,gathered.obstacles ++ placed⟩

/-- The loop over the elements and their sources. -/
def gather : List (Json × Json) → Gathered → Except Error Gathered
  | [],gathered => .ok gathered
  | (element,source)::rest,gathered => do
    let next ← gatherElement X P gathered element source
    gather rest next

/-- Fidelity of an assembled world. -/
def fidelityKnown (fidelity : Json) : Bool :=
  isText fidelity "geometry-only" || isText fidelity "gazebo-world"

/-- Task text and elements of a request, with as many sources as elements. -/
def requestParts (request documents : Json) : Except Error (String × List (Json × Json)) := do
  let fidelity ← get request "fidelity" .null
  if !fidelityKnown fidelity then
    .error (sceneError "fidelity must be geometry-only or gazebo-world")
  else do
    let rawTask ← get request "task" (.string "")
    let text ← strip rawTask
    let task ← identifier (.string text) "Task"
    if 64<task.utf8ByteSize then .error (sceneError "Task must have at most 64 characters")
    else do
      let elements ← get request "elements" .null
      match elements with
      | .array items =>
        if items.length<2 ∨ 64 < items.length then
          .error (sceneError "An assembled world needs 2 to 64 elements")
        else do
          let sources ← sourcesOf documents
          if sources.length≠items.length then
            .error (sceneError "An assembled world needs 2 to 64 elements")
          else return (task,items.zip sources)
      | _ => .error (sceneError "An assembled world needs 2 to 64 elements")

/-- Camera extrinsics are given in the world frame. -/
def cameraChecked (extrinsic : Json) (frame : String) : Except Error Unit := do
  let camera ← SceneAssembly.yaml X extrinsic
  match camera with
  | .object members =>
    if isText ((members.lookup "parent_frame").getD .null) frame then .ok ()
    else .error (sceneError ("cameraFrom extrinsic parent frame must be the world frame " ++ frame))
  | _ => .error (sceneError ("cameraFrom extrinsic parent frame must be the world frame " ++ frame))

/-- Validated world and task of a request. -/
def assembledScene (request documents extrinsic : Json) : Except Error (Json × String) := do
  let (task,elements) ← requestParts request documents
  let gathered ← gather X P elements ⟨[],"",[]⟩
  cameraChecked X extrinsic gathered.frame
  let rawName ← item request "name"
  let name ← strip rawName
  let result ← SceneDocument.document X.spell X.math (.object [("schema",.string kSchema),
    ("id",.string (String.ofList (name.toList.map identityCharacter))),("frame",.string gathered.frame),
    ("obstacles",.array gathered.obstacles)])
  return (result,task)

/-- Assembled world as YAML text, with its task. -/
def assemble (request documents extrinsic : Json) : Except Error Json := do
  let (result,task) ← assembledScene X P request documents extrinsic
  let encoded := dumpYaml X.spell result
  if kMaxDocumentBytes<encoded.utf8ByteSize then
    .error (sceneError "Assembled scene exceeds the supported size")
  else return .object [("sceneDocument",.string encoded),("task",.string task)]

end Source


section Conversions

variable {spell : Float → String} {math : Math}

/-- A double is accepted as itself or not at all. -/
theorem number_exact {label : String} {lower upper x y : Float}
    (h : number (.float x) label lower upper=.ok y) : y=x := by
  unfold number at h
  simp only [Json.double?] at h
  split at h
  · cases h
  · split at h
    · cases h
    · cases h
      rfl

/-- Doubles are accepted as themselves or not at all. -/
theorem numbers_exact {label : String} {values result : List Float}
    (h : numbers label (values.map .float)=.ok result) : result=values := by
  induction values generalizing result with
  | nil =>
    cases h
    rfl
  | cons x rest ih =>
    rw [List.map_cons,numbers] at h
    simp only [except_bind_ok] at h
    obtain ⟨head,hhead,tail,htail,h⟩ := h
    cases h
    have hx : head=x := number_exact hhead
    rw [hx,ih htail]

/-- An array of doubles is accepted as itself or not at all. -/
theorem vector_exact {label : String} {count : ℕ} {values result : List Float}
    (h : vector (floats values) label count=.ok result) : result=values := by
  unfold vector floats at h
  dsimp only at h
  split at h
  · exact numbers_exact h
  · cases h

/-- The doubles of an array of doubles. -/
@[simp] theorem floatItems_floats (values : List Float) : floatItems (floats values)=values := by
  unfold floatItems floats Json.items
  induction values with
  | nil => rfl
  | cons x rest ih =>
    rw [List.map_cons,List.filterMap_cons]
    simp only [Json.double?]
    rw [ih]

/-- Validation of a native placement only normalizes its orientation. -/
theorem pose_native {position rotation : List Float} {placed : Json}
    (h : pose spell math (.object [("position",floats position),("orientation",floats rotation)])=.ok placed) :
    ∃ unit, normalise math rotation=.ok unit ∧
      placed=.object [("position",floats position),("orientation",floats unit)] := by
  unfold pose at h
  simp only [except_bind_ok,Json.valueOr,member_here,Option.getD_some,ne_eq,String.reduceEq,
    not_false_eq_true,member_next] at h
  obtain ⟨_,_,position',hposition,rotation',hrotation,unit,hunit,h⟩ := h
  cases h
  rw [vector_exact hposition]
  rw [vector_exact hrotation] at hunit
  exact ⟨unit,hunit,rfl⟩

/-- A canonical motion with its native form. -/
inductive MotionForm : Json → Motion → Prop
  | hold : MotionForm (.object [("type",.string "hold")]) .hold
  | twist (linear angular : List Float) :
    MotionForm (.object [("type",.string "constant_twist"),("linear",floats linear),("angular",floats angular)])
      (.constantTwist linear angular)
  | pingPong (a b : List Float) (speed : Float) :
    MotionForm (.object [("type",.string "ping_pong"),("point_a",floats a),("point_b",floats b),
      ("speed",.float speed)]) (.pingPong a b speed)
  | circle (center : List Float) (radius speed phase : Float) :
    MotionForm (.object [("type",.string "circle"),("center",floats center),("radius",.float radius),
      ("angular_speed",.float speed),("phase",.float phase)]) (.circle center radius speed phase)

/-- A validated motion that has a native form is canonical. -/
theorem motion_form {value movement : Json} {native : Motion} (h : motion spell math value=.ok movement)
    (hn : toMotion movement=.ok native) : MotionForm movement native := by
  unfold motion at h
  split at h
  · split at h
    · rename_i kind _
      split at h
      · simp only [except_bind_ok] at h
        obtain ⟨_,_,h⟩ := h
        cases h
        simp [toMotion,Json.valueOr] at hn
        cases hn
        exact .hold
      split at h
      · unfold twistMotion at h
        simp only [except_bind_ok] at h
        obtain ⟨_,_,linear,_,angular,_,h⟩ := h
        cases h
        simp [toMotion,Json.valueOr] at hn
        cases hn
        exact .twist linear angular
      split at h
      · unfold pingPongMotion at h
        simp only [except_bind_ok] at h
        obtain ⟨_,_,a,_,b,_,h⟩ := h
        split at h
        · cases h
        simp only [except_bind_ok] at h
        obtain ⟨speed,_,h⟩ := h
        cases h
        simp [toMotion,Json.valueOr,floatValue,Json.double?] at hn
        cases hn
        exact .pingPong a b speed
      split at h
      · unfold circleMotion at h
        simp only [except_bind_ok] at h
        obtain ⟨_,_,center,_,radius,_,speed,_,phase,_,h⟩ := h
        cases h
        simp [toMotion,Json.valueOr,floatValue,Json.double?] at hn
        cases hn
        exact .circle center radius speed phase
      split at h
      · unfold waypointMotion at h
        rw [except_bind_ok] at h
        obtain ⟨_,_,h⟩ := h
        split at h
        · split at h
          · cases h
          simp only [except_bind_ok] at h
          obtain ⟨_,_,_,_,_,_,_,_,_,_,_,_,h⟩ := h
          cases h
          simp [toMotion,Json.valueOr] at hn
        · cases h
      · cases h
    · cases h
  · cases h

end Conversions

section Moved

variable {spell : Float → String} {math : Math}

/-- A twist is accepted as itself or not at all. -/
theorem twist_exact {linear angular : List Float} {result : Json}
    (h : motion spell math (.object [("type",.string "constant_twist"),("linear",floats linear),
      ("angular",floats angular)])=.ok result) :
    result=.object [("type",.string "constant_twist"),("linear",floats linear),("angular",floats angular)] := by
  simp [motion,twistMotion,Json.valueOr,except_bind_ok] at h
  obtain ⟨_,linear',hlinear,angular',hangular,h⟩ := h
  rw [←h,vector_exact hlinear,vector_exact hangular]

/-- A motion between two points is accepted as itself or not at all. -/
theorem pingPong_exact {a b : List Float} {speed : Float} {result : Json}
    (h : motion spell math (.object [("type",.string "ping_pong"),("point_a",floats a),("point_b",floats b),
      ("speed",.float speed)])=.ok result) :
    result=.object [("type",.string "ping_pong"),("point_a",floats a),("point_b",floats b),("speed",.float speed)] := by
  simp [motion,pingPongMotion,Json.valueOr,except_bind_ok] at h
  obtain ⟨_,a',ha,b',hb,h⟩ := h
  split at h
  · cases h
  simp [except_bind_ok] at h
  obtain ⟨speed',hspeed,h⟩ := h
  rw [←h,vector_exact ha,vector_exact hb,number_exact hspeed]

/-- A motion on a circle is accepted as itself or not at all. -/
theorem circle_exact {center : List Float} {radius speed phase : Float} {result : Json}
    (h : motion spell math (.object [("type",.string "circle"),("center",floats center),("radius",.float radius),
      ("angular_speed",.float speed),("phase",.float phase)])=.ok result) :
    result=.object [("type",.string "circle"),("center",floats center),("radius",.float radius),
      ("angular_speed",.float speed),("phase",.float phase)] := by
  simp [motion,circleMotion,Json.valueOr,except_bind_ok,numberDefault] at h
  obtain ⟨_,center',hcenter,radius',hradius,speed',hspeed,phase',hphase,h⟩ := h
  rw [←h,vector_exact hcenter,number_exact hradius,number_exact hspeed,number_exact hphase]

/-- Members that a motion type does not have. -/
def foreignMotion (members : List (String × Json)) (allowed : List String) : Bool :=
  members.any (fun m => !allowed.contains m.1)

/-- A member outside the allowed ones is refused. -/
theorem fields_foreign {members : List (String × Json)} {allowed required : List String}
    (hforeign : foreignMotion members allowed=true) :
    ¬∃ u, fields spell (.object members) allowed required=.ok u := by
  rintro ⟨u,h⟩
  obtain ⟨⟨found,hfound,hall⟩,_⟩ := (fields_ok_iff spell).mp h
  cases hfound
  unfold foreignMotion at hforeign
  obtain ⟨m,hm,hout⟩ := List.any_eq_true.mp hforeign
  simp only [Bool.not_eq_true',List.contains_eq_mem,decide_eq_false_iff_not] at hout
  exact hout (hall m hm)

/-- A placed motion is accepted as itself or not at all, whatever the library returned. -/
theorem placedMembers_exact {movement result : Json} {native other : Motion} (hform : MotionForm movement native)
    (h : motion spell math (placedMembers other movement)=.ok result) :
    result=placedMembers other movement := by
  cases hform with
  | hold =>
    cases other with
    | hold =>
      simp [placedMembers,motion,Json.valueOr,except_bind_ok] at h
      exact h.2.symm
    | constantTwist _ _ | pingPong _ _ _ | circle _ _ _ _ =>
      simp [placedMembers,Json.set,Json.setMember,motion,Json.valueOr,except_bind_ok] at h
      exact absurd h.1 (fields_foreign rfl)
  | twist linear angular =>
    cases other with
    | hold => exact twist_exact h
    | constantTwist linear' angular' =>
      simp only [placedMembers,Json.set,Json.setMember,String.reduceEq,if_false,if_true] at h ⊢
      exact twist_exact h
    | pingPong _ _ _ | circle _ _ _ _ =>
      simp [placedMembers,Json.set,Json.setMember,motion,twistMotion,Json.valueOr,except_bind_ok] at h
      exact absurd h.1 (fields_foreign rfl)
  | pingPong a b speed =>
    cases other with
    | hold => exact pingPong_exact h
    | constantTwist _ _ | circle _ _ _ _ =>
      simp [placedMembers,Json.set,Json.setMember,motion,pingPongMotion,Json.valueOr,except_bind_ok] at h
      exact absurd h.1 (fields_foreign rfl)
    | pingPong a' b' speed' =>
      simp only [placedMembers,Json.set,Json.setMember,String.reduceEq,if_false,if_true] at h ⊢
      exact pingPong_exact h
  | circle center radius speed phase =>
    cases other with
    | hold => exact circle_exact h
    | constantTwist _ _ | pingPong _ _ _ =>
      simp [placedMembers,Json.set,Json.setMember,motion,circleMotion,Json.valueOr,except_bind_ok] at h
      exact absurd h.1 (fields_foreign rfl)
    | circle center' radius' speed' phase' =>
      simp only [placedMembers,Json.set,Json.setMember,String.reduceEq,if_false,if_true] at h ⊢
      exact circle_exact h

end Moved

section Turned

variable {spell : Float → String} {math : Math}

/-- What assembly relies on in the mathematics library: a valid convex mesh and
a registered geometry come back unchanged. -/
structure GeometryLaws (math : Math) : Prop where
  /-- The triangles of a valid convex mesh index its vertices and are returned again. -/
  mesh : ∀ vertices indices triangles, math.validateConvexMesh vertices indices=.ok triangles →
    triangles≠[] ∧ (∀ n∈triangles, 0≤n ∧ n<(vertices.length : Int)) ∧
      math.validateConvexMesh vertices triangles=.ok triangles
  /-- A registered geometry is written with its type, declared fields only and
  no triangles for a convex shape, and is written so again. -/
  registered : ∀ kind declared value result, math.geometryFields kind=some declared →
    value.member "type"=some (.string kind) → math.geometryRoundTrip value=.ok result →
    (∃ members, result=.object members ∧ ∀ m∈members, m.1∈"type"::declared) ∧
      result.member "type"=some (.string kind) ∧ (kind="convex" → hasTriangles result=false) ∧
      math.geometryRoundTrip result=.ok result

/-- The same library with orientations that stay as they are. -/
def upright (math : Math) : Math := {math with sqrt := fun _ => 1, div := fun x _ => x}

/-- Upright orientations are normalized already. -/
theorem upright_normalise (math : Math) (rotation : List Float) :
    normalise (upright math) rotation=.ok rotation := by
  have hnorm : ¬(1 : Float)<1e-12 := by decide +kernel
  unfold normalise
  dsimp only [upright]
  rw [if_neg hnorm,List.map_id']

/-- Geometry does not depend on the arithmetic of orientations. -/
theorem geometry_upright (value : Json) : geometry spell math value=geometry spell (upright math) value := by
  unfold geometry convex registeredGeometry
  rfl

/-- The library laws are all that canonical geometry needs to stay. -/
theorem GeometryLaws.upright (laws : GeometryLaws math) : MathLaws (upright math) True := by
  refine ⟨?_,?_,?_⟩
  · intro rotation unit hb hu
    rw [upright_normalise] at hu
    cases hu
    exact ⟨hb,rotation,upright_normalise math rotation,fun _ => rfl⟩
  · intro vertices indices triangles hmesh
    obtain ⟨hne,hindex,hagain⟩ := laws.mesh vertices indices triangles hmesh
    exact ⟨hne,hindex,triangles,hagain,fun _ => rfl⟩
  · intro kind declared value result hdeclared htype hresult
    obtain ⟨hmembers,hkind,hconvex,hagain⟩ := laws.registered kind declared value result hdeclared htype hresult
    exact ⟨hmembers,hkind,hconvex,result,hagain,fun _ => rfl⟩

/-- Canonical geometry is accepted as itself. -/
theorem geometry_exact (laws : GeometryLaws math) {value shape again : Json}
    (h : geometry spell math value=.ok shape) (hagain : geometry spell math shape=.ok again) : again=shape := by
  rw [geometry_upright] at h hagain
  obtain ⟨other,hother,hexact⟩ := geometry_again laws.upright h
  rw [hother] at hagain
  cases hagain
  exact hexact trivial

/-- A canonical part. -/
def partOf (id : String) (position rotation : List Float) (shape : Json) : Json :=
  .object [("id",.string id),("pose",fromPose ⟨position,rotation⟩),("geometry",shape),("color",amber)]

/-- The same part with its orientation normalized once more. -/
inductive Turned (math : Math) : Json → Json → Prop
  | turn (id : String) (position rotation unit : List Float) (shape : Json)
    (h : normalise math rotation=.ok unit) :
    Turned math (partOf id position rotation shape) (partOf id position unit shape)

/-- A canonical placement holds a position and an orientation. -/
theorem pose_form {value placed : Json} (h : pose spell math value=.ok placed) :
    ∃ position rotation, placed=fromPose ⟨position,rotation⟩ := by
  unfold pose at h
  simp only [except_bind_ok] at h
  obtain ⟨_,_,position,_,_,_,unit,_,h⟩ := h
  cases h
  exact ⟨position,unit,rfl⟩

/-- Canonical parts that are accepted again are the same up to their orientations. -/
theorem partList_turned (laws : GeometryLaws math) {seen other : List String} {items parts again : List Json}
    (h : partList spell math seen items=.ok parts) (hagain : partList spell math other parts=.ok again) :
    List.Forall₂ (Turned math) parts again := by
  induction items generalizing seen other parts again with
  | nil =>
    cases h
    cases hagain
    exact .nil
  | cons part rest ih =>
    unfold partList at h
    simp only [except_bind_ok] at h
    obtain ⟨_,_,pid,_,h⟩ := h
    split at h
    · cases h
    simp only [except_bind_ok] at h
    obtain ⟨_,_,placed,hplaced,shape,hshape,tail,htail,h⟩ := h
    cases h
    obtain ⟨position,rotation,rfl⟩ := pose_form hplaced
    unfold partList at hagain
    simp [Json.valueOr,except_bind_ok] at hagain
    obtain ⟨_,pid',hpid',hagain⟩ := hagain
    split at hagain
    · cases hagain
    simp [except_bind_ok] at hagain
    obtain ⟨_,placed',hplaced',shape',hshape',tail',htail',hagain⟩ := hagain
    subst hagain
    obtain ⟨unit,hunit,rfl⟩ := pose_native hplaced'
    have hid : pid'=pid := by
      unfold identifier at hpid'
      dsimp only at hpid'
      split at hpid' <;> cases hpid'
      rfl
    rw [hid,geometry_exact laws hshape hshape']
    exact .cons (.turn pid position rotation unit shape hunit) (ih htail htail')

end Turned

section Kept

variable {X : Externals} {P : Placer}

/-- A checked text is its own identifier. -/
theorem identifier_exact {text label result : String} (h : identifier (.string text) label=.ok result) :
    result=text := by
  unfold identifier at h
  dsimp only at h
  split at h
  · cases h
    rfl
  · cases h

/-- A checked name is the name. -/
theorem nameChecked_exact {text result : String} (h : nameChecked (.string text)=.ok result) : result=text := by
  unfold nameChecked at h
  dsimp only at h
  split at h
  · cases h
  · cases h
    rfl

/-- An obstacle of the world that stands for an obstacle of an element scene. -/
structure Kept (X : Externals) (P : Placer) (eid : String) (placement : Placement) (original result : Json) :
    Prop where
  /-- The identity names the element and the obstacle. -/
  id : ∃ oid, original.member "id"=some (.string oid) ∧ result.member "id"=some (.string (eid ++ "." ++ oid))
  /-- The name names the element and the obstacle. -/
  name : ∃ name, original.member "name"=some (.string name) ∧
    result.member "name"=some (.string (eid ++ " " ++ name))
  /-- The pose is the placed pose with a normalized orientation. -/
  pose : ∃ pose unit, original.member "pose"=some pose ∧
    normalise X.math (P.composePlacement placement (toPose pose)).orientation=.ok unit ∧
    result.member "pose"=some (fromPose ⟨(P.composePlacement placement (toPose pose)).position,unit⟩)
  /-- The motion is the placed motion. -/
  motion : ∃ movement moved, original.member "motion"=some movement ∧
    placedMotion P placement movement=.ok moved ∧ result.member "motion"=some moved
  /-- The parts are the same up to another normalization of their orientations. -/
  parts : ∃ before after, original.member "parts"=some (.array before) ∧
    result.member "parts"=some (.array after) ∧ List.Forall₂ (Turned X.math) before after
  /-- There is nothing else. -/
  keys : result.members.map Prod.fst=["id","name","pose","parts","motion"]

/-- A placed obstacle that has parts and is accepted stands for its original. -/
theorem placedObstacle_kept (laws : GeometryLaws X.math) {eid : String} {placement : Placement}
    {original placed result : Json} (ho : CanonicalObstacle X.spell X.math original)
    (hp : placedObstacle P eid placement original=.ok placed)
    (hr : obstacle X.spell X.math placed=.ok result) (hmodel : result.member "model"=none) :
    Kept X P eid placement original result := by
  obtain ⟨value,hvalue⟩ := ho
  obtain ⟨oid,name,initial,movement,shape,rfl,hinitial,hmovement,hshape⟩ := obstacle_members hvalue
  obtain ⟨position,rotation,rfl⟩ := pose_form hinitial
  unfold obstacleShape at hshape
  split at hshape
  · -- an obstacle with a model still has it when the world is validated
    rw [except_bind_ok] at hshape
    obtain ⟨model,hmodelId,hshape⟩ := hshape
    cases hshape
    simp [placedObstacle,textAt,Json.atKey,Json.valueOr,except_bind_ok] at hp
    obtain ⟨id,_,moved,_,hp⟩ := hp
    simp [Json.set,Json.setMember] at hp
    subst hp
    obtain ⟨_,_,_,_,shape',rfl,_,_,hshape'⟩ := obstacle_members hr
    simp [obstacleShape,except_bind_ok] at hshape'
    obtain ⟨model',_,rfl⟩ := hshape'
    simp at hmodel
  · rw [except_bind_ok] at hshape
    obtain ⟨parts,hparts,hshape⟩ := hshape
    cases hshape
    simp [placedObstacle,textAt,Json.atKey,Json.valueOr,except_bind_ok] at hp
    obtain ⟨id,hid,moved,hmoved,hp⟩ := hp
    simp [Json.set,Json.setMember] at hp
    subst hp
    rw [identifier_exact hid] at hr
    unfold obstacle at hr
    simp [Json.valueOr,except_bind_ok] at hr
    obtain ⟨_,id',hid',hr⟩ := hr
    rw [identifier_exact hid'] at hr
    split at hr
    · cases hr
    simp [except_bind_ok,Json.contains] at hr
    obtain ⟨name',hname',initial',hinitial',movement',hmovement',_,key,shape',hshape',rfl⟩ := hr
    simp [obstacleShape,Json.valueOr,except_bind_ok] at hshape'
    obtain ⟨hagain,rfl⟩ := hshape'
    unfold normalizeParts at hparts hagain
    split at hparts
    · split at hparts
      · cases hparts
      rw [except_bind_ok] at hparts
      obtain ⟨before,hbefore,hparts⟩ := hparts
      cases hparts
      dsimp only at hagain
      split at hagain
      · cases hagain
      rw [except_bind_ok] at hagain
      obtain ⟨after,hafter,hagain⟩ := hagain
      cases hagain
      obtain ⟨native,hnative,hmoved⟩ := (except_bind_ok.mp hmoved)
      cases hmoved
      have hform := motion_form hmovement hnative
      obtain ⟨unit,hunit,rfl⟩ := pose_native hinitial'
      refine ⟨⟨oid,by simp,by simp⟩,⟨name,by simp,by simp [nameChecked_exact hname']⟩,
        ⟨_,unit,by simp,hunit,by simp [fromPose]⟩,⟨movement,movement',by simp,?_,by simp⟩,
        ⟨before,after,by simp,by simp,partList_turned laws hbefore hafter⟩,rfl⟩
      unfold placedMotion
      rw [hnative,placedMembers_exact hform hmovement']
      rfl
    · cases hparts

end Kept

section Elements

variable {X : Externals} {P : Placer}

/-- An element as the loop reads it. -/
structure Element where
  /-- Identity. -/
  id : String
  /-- Placement in the world. -/
  placement : Placement
  /-- Validated scene. -/
  scene : Json
  /-- Frame of the scene. -/
  frame : String
  /-- Obstacles of the scene. -/
  obstacles : List Json

/-- A request element and the source of its scene, read as an element. -/
structure Reads (X : Externals) (pair : Json × Json) (element : Element) : Prop where
  /-- The identity is stable and has no dots. -/
  id : ∃ raw, item pair.1 "id"=.ok raw ∧ identifier raw "Element ID"=.ok element.id ∧ '.'∉element.id.toList
  /-- The first offset is a number in range. -/
  x : ∃ raw, get pair.1 "x" (.integer 0)=.ok raw ∧ number raw "x" (-1e4) 1e4=.ok element.placement.x
  /-- The second offset is a number in range. -/
  y : ∃ raw, get pair.1 "y" (.integer 0)=.ok raw ∧ number raw "y" (-1e4) 1e4=.ok element.placement.y
  /-- The rotation is a number in range. -/
  yaw : ∃ raw, get pair.1 "yaw" (.integer 0)=.ok raw ∧ number raw "yaw" (-1e4) 1e4=.ok element.placement.yaw
  /-- The scene is the validated source. -/
  scene : ∃ parsed, SceneAssembly.yaml X pair.2=.ok parsed ∧
    SceneDocument.document X.spell X.math parsed=.ok element.scene
  /-- The frame is the frame of the scene. -/
  frame : element.scene.member "frame"=some (.string element.frame)
  /-- The obstacles are the obstacles of the scene. -/
  obstacles : element.scene.member "obstacles"=some (.array element.obstacles)

/-- Obstacles of elements in order, each with its element. -/
def origins (elements : List Element) : List (Element × Json) :=
  elements.flatMap (fun element => element.obstacles.map (fun original => (element,original)))

/-- An obstacle that the loop placed. -/
def PlacedFrom (P : Placer) (origin : Element × Json) (placed : Json) : Prop :=
  placedObstacle P origin.1.id origin.1.placement origin.2=.ok placed

/-- The loop over the obstacles of an element places each of them. -/
theorem placedObstacles_forall (element : Element) {originals placed : List Json}
    (h : placedObstacles P element.id element.placement originals=.ok placed) :
    List.Forall₂ (PlacedFrom P) (originals.map (fun original => (element,original))) placed := by
  induction originals generalizing placed with
  | nil =>
    cases h
    exact .nil
  | cons original rest ih =>
    unfold placedObstacles at h
    simp only [except_bind_ok] at h
    obtain ⟨head,hhead,tail,htail,h⟩ := h
    cases h
    exact .cons hhead (ih htail)

/-- The empty text is no frame. -/
theorem frame_nonempty {value : Json} {text : String} (h : frameChecked value=.ok text) : text≠"" := by
  rintro rfl
  have hagain := frameChecked_again h
  revert hagain
  decide +kernel

/-- One round of the loop reads one element and places its obstacles. -/
theorem gatherElement_spec {gathered next : Gathered} {element source : Json}
    (h : gatherElement X P gathered element source=.ok next) :
    ∃ read : Element, Reads X (element,source) read ∧ read.id∉gathered.ids ∧ read.frame≠"" ∧
      (gathered.frame≠"" → gathered.frame=read.frame) ∧ next.ids=read.id::gathered.ids ∧
      next.frame=read.frame ∧ ∃ placed, next.obstacles=gathered.obstacles ++ placed ∧
        List.Forall₂ (PlacedFrom P) (read.obstacles.map (fun original => (read,original))) placed := by
  unfold gatherElement at h
  simp only [except_bind_ok] at h
  obtain ⟨raw,hraw,eid,heid,h⟩ := h
  split at h
  · cases h
  rename_i hfresh
  simp only [except_bind_ok] at h
  obtain ⟨xRaw,hxRaw,x,hx,yRaw,hyRaw,y,hy,yawRaw,hyawRaw,yaw,hyaw,parsed,hparsed,scene,hscene,h⟩ := h
  split at h
  · cases h
  rename_i hframe
  simp only [except_bind_ok] at h
  obtain ⟨frame,hframeText,placed,hplaced,h⟩ := h
  cases h
  obtain ⟨p,rfl,hp⟩ := document_canonical hscene
  obtain ⟨_,_,hframeMember,hobstacles,_,_⟩ := p.members
  have hsame : frame=p.frame := by
    simp only [textAt,Json.atKey,hframeMember] at hframeText
    cases hframeText
    rfl
  subst hsame
  have hlist : (p.document.valueOr "obstacles" .null).items=p.obstacles := by
    simp [Json.valueOr,hobstacles,Json.items]
  rw [hlist] at hplaced
  rw [not_or] at hfresh
  refine ⟨⟨eid,⟨x,y,yaw⟩,p.document,p.frame,p.obstacles⟩,⟨⟨raw,hraw,heid,hfresh.1⟩,⟨xRaw,hxRaw,hx⟩,
    ⟨yRaw,hyRaw,hy⟩,⟨yawRaw,hyawRaw,hyaw⟩,⟨parsed,hparsed,hscene⟩,hframeMember,hobstacles⟩,hfresh.2,
    frame_nonempty hp.frame,?_,rfl,rfl,placed,rfl,placedObstacles_forall ⟨eid,⟨x,y,yaw⟩,_,_,_⟩ hplaced⟩
  intro hne
  have htext : isText (.string p.frame) gathered.frame=true := by
    by_contra hno
    exact hframe ⟨hne,by simpa [Json.valueOr,hframeMember] using hno⟩
  simp [isText,Json.equal] at htext
  exact htext.symm

/-- The loop reads all elements and places their obstacles in order. -/
theorem gather_spec {pairs : List (Json × Json)} {gathered result : Gathered}
    (h : gather X P pairs gathered=.ok result) :
    ∃ elements : List Element, List.Forall₂ (Reads X) pairs elements ∧
      result.ids=(elements.map Element.id).reverse ++ gathered.ids ∧
      (gathered.ids.Nodup → result.ids.Nodup) ∧ (gathered.frame≠"" → result.frame=gathered.frame) ∧
      (∀ element∈elements, element.frame=result.frame) ∧
      ∃ placed, result.obstacles=gathered.obstacles ++ placed ∧
        List.Forall₂ (PlacedFrom P) (origins elements) placed := by
  induction pairs generalizing gathered with
  | nil =>
    cases h
    exact ⟨[],.nil,rfl,id,fun _ => rfl,by simp,[],by simp,.nil⟩
  | cons pair rest ih =>
    obtain ⟨element,source⟩ := pair
    unfold gather at h
    rw [except_bind_ok] at h
    obtain ⟨next,hnext,h⟩ := h
    obtain ⟨read,hread,hfresh,hne,hframe,hids,hnextFrame,first,hobstacles,hfirst⟩ := gatherElement_spec hnext
    obtain ⟨elements,hreads,hall,hnodup,hkept,hframes,placed,hplaced,hforall⟩ := ih h
    have hresult : result.frame=read.frame := by
      rw [hkept (by rw [hnextFrame]; exact hne),hnextFrame]
    refine ⟨read::elements,.cons hread hreads,?_,?_,?_,?_,first ++ placed,?_,?_⟩
    · rw [hall,hids,List.map_cons,List.reverse_cons,List.append_assoc]
      rfl
    · intro hd
      apply hnodup
      rw [hids]
      exact List.nodup_cons.mpr ⟨hfresh,hd⟩
    · intro hg
      rw [hresult,hframe hg]
    · intro other hother
      rcases List.mem_cons.mp hother with rfl | hother
      · exact hresult.symm
      · exact hframes other hother
    · rw [hplaced,hobstacles,List.append_assoc]
    · exact List.rel_append hfirst hforall

end Elements

section World

variable {X : Externals} {P : Placer}

/-- Element that an obstacle identity of an assembled world names. -/
def elementOf (id : String) : String := String.ofList (id.toList.takeWhile (fun c => c ≠ '.'))

/-- A dotless element identity is read back from the identities composed with it. -/
theorem elementOf_composed {eid : String} (h : '.'∉eid.toList) (oid : String) :
    elementOf (eid ++ "." ++ oid)=eid := by
  have hall : ∀ c∈eid.toList, (decide (c ≠ '.'))=true := by
    intro c hc
    simp only [decide_eq_true_eq]
    rintro rfl
    exact h hc
  have hdot : (eid ++ "." ++ oid).toList=eid.toList ++ '.' :: oid.toList := by
    simp [String.toList_append]
  unfold elementOf
  rw [hdot,List.takeWhile_append_of_pos hall,List.takeWhile_cons_of_neg (by simp),List.append_nil,String.ofList_toList]

/-- An array that is read with a null default is a member. -/
theorem get_array {value : Json} {key : String} {items : List Json}
    (h : SceneAssembly.get value key .null=.ok (.array items)) : value.member key=some (.array items) := by
  unfold SceneAssembly.get at h
  split at h
  · next members =>
    unfold Json.member
    cases hfound : members.lookup key with
    | none => simp [hfound] at h
    | some found =>
      simp only [hfound,Option.getD_some,Except.ok.injEq] at h
      exact hfound.trans (congrArg some h)
  · cases h

/-- The parts of an accepted request. -/
theorem requestParts_spec {request documents : Json} {task : String} {pairs : List (Json × Json)}
    (h : requestParts request documents=.ok (task,pairs)) :
    request.member "elements"=some (.array (pairs.map Prod.fst)) ∧
      sourcesOf documents=.ok (pairs.map Prod.snd) := by
  unfold requestParts at h
  rw [except_bind_ok] at h
  obtain ⟨fidelity,_,h⟩ := h
  split at h
  · cases h
  simp only [except_bind_ok] at h
  obtain ⟨rawTask,_,text,_,task',_,h⟩ := h
  split at h
  · cases h
  rw [except_bind_ok] at h
  obtain ⟨elements,helements,h⟩ := h
  split at h
  · rename_i items
    split at h
    · cases h
    rw [except_bind_ok] at h
    obtain ⟨sources,hsources,h⟩ := h
    split at h
    · cases h
    rename_i hlength
    cases h
    rw [not_not] at hlength
    have hfst : (items.zip sources).map Prod.fst=items := List.map_fst_zip (by omega)
    have hsnd : (items.zip sources).map Prod.snd=sources := List.map_snd_zip (by omega)
    refine ⟨?_,hsnd.symm ▸ hsources⟩
    rw [hfst]
    exact get_array helements
  · cases h

/-- Obstacles of a list are validated one by one. -/
theorem obstacleList_forall {spell : Float → String} {math : Math} {items obstacles : List Json}
    (h : obstacleList spell math items=.ok obstacles) :
    List.Forall₂ (fun value result => obstacle spell math value=.ok result) items obstacles := by
  induction items generalizing obstacles with
  | nil =>
    cases h
    exact .nil
  | cons value rest ih =>
    unfold obstacleList at h
    simp only [except_bind_ok] at h
    obtain ⟨head,hhead,tail,htail,h⟩ := h
    cases h
    exact .cons hhead (ih htail)

/-- Without a model table every obstacle of a document has parts. -/
theorem modelKnown_without {result : Json} (h : modelKnown (.object []) result=true)
    {spell : Float → String} {math : Math} (hr : CanonicalObstacle spell math result) :
    result.member "model"=none := by
  obtain ⟨value,hvalue⟩ := hr
  obtain ⟨_,_,_,_,shape,rfl,_,_,hshape⟩ := obstacle_members hvalue
  unfold obstacleShape at hshape
  split at hshape
  · rw [except_bind_ok] at hshape
    obtain ⟨name,_,hshape⟩ := hshape
    cases hshape
    simp [modelKnown,Json.contains] at h
  · rw [except_bind_ok] at hshape
    obtain ⟨parts,_,hshape⟩ := hshape
    cases hshape
    simp

/-- Every obstacle of the world stands for the obstacle it was placed from. -/
theorem kept_forall (laws : GeometryLaws X.math) {sources : List (Element × Json)} {placed results : List Json}
    (hplaced : List.Forall₂ (PlacedFrom P) sources placed)
    (hresults : List.Forall₂ (fun value result => obstacle X.spell X.math value=.ok result) placed results)
    (hcanonical : ∀ origin∈sources, CanonicalObstacle X.spell X.math origin.2)
    (hmodels : ∀ result∈results, result.member "model"=none) :
    List.Forall₂ (fun origin result => Kept X P origin.1.id origin.1.placement origin.2 result) sources results := by
  induction hplaced generalizing results with
  | nil =>
    cases hresults
    exact .nil
  | @cons origin first sources placed hfirst _ ih =>
    cases hresults with
    | @cons _ result _ rest hresult hrest =>
      have hkept := placedObstacle_kept laws (hcanonical origin (List.mem_cons_self ..)) hfirst hresult
        (hmodels result (List.mem_cons_self ..))
      exact .cons hkept (ih hrest (fun o ho => hcanonical o (List.mem_cons_of_mem _ ho))
        (fun r hr => hmodels r (List.mem_cons_of_mem _ hr)))

/-- Every element was read from somewhere. -/
theorem reads_of_mem {pairs : List (Json × Json)} {elements : List Element}
    (h : List.Forall₂ (Reads X) pairs elements) {element : Element} (he : element∈elements) :
    ∃ pair, Reads X pair element := by
  induction h with
  | nil => cases he
  | cons hfirst _ ih =>
    rcases List.mem_cons.mp he with rfl | he
    · exact ⟨_,hfirst⟩
    · exact ih he

/-- Obstacles of read elements are canonical. -/
theorem origins_canonical {pairs : List (Json × Json)} {elements : List Element}
    (h : List.Forall₂ (Reads X) pairs elements) :
    ∀ origin∈origins elements, CanonicalObstacle X.spell X.math origin.2 := by
  intro origin horigin
  obtain ⟨element,helement,hmem⟩ := List.mem_flatMap.mp horigin
  obtain ⟨original,horiginal,rfl⟩ := List.mem_map.mp hmem
  obtain ⟨pair,hread⟩ := reads_of_mem h helement
  obtain ⟨parsed,_,hscene⟩ := hread.scene
  obtain ⟨p,hp,hcanonical⟩ := document_canonical hscene
  have hobstacles := hread.obstacles
  rw [hp,p.members.2.2.2.1] at hobstacles
  simp only [Option.some.injEq,Json.array.injEq] at hobstacles
  rw [←hobstacles] at horiginal
  exact hcanonical.obstacles original horiginal

/-- Identities of read elements have no dots. -/
theorem elements_dotless {pairs : List (Json × Json)} {elements : List Element}
    (h : List.Forall₂ (Reads X) pairs elements) : ∀ origin∈origins elements, '.'∉origin.1.id.toList := by
  intro origin horigin
  obtain ⟨element,helement,hmem⟩ := List.mem_flatMap.mp horigin
  obtain ⟨original,_,rfl⟩ := List.mem_map.mp hmem
  obtain ⟨_,hread⟩ := reads_of_mem h helement
  obtain ⟨_,_,_,hdots⟩ := hread.id
  exact hdots

/-- Kept obstacles name their elements. -/
theorem kept_named {sources : List (Element × Json)} {results : List Json}
    (h : List.Forall₂ (fun origin result => Kept X P origin.1.id origin.1.placement origin.2 result) sources results)
    (hdots : ∀ origin∈sources, '.'∉origin.1.id.toList) :
    List.Forall₂ (fun origin result => Kept X P origin.1.id origin.1.placement origin.2 result ∧
      ∃ id, result.member "id"=some (.string id) ∧ elementOf id=origin.1.id) sources results := by
  induction h with
  | nil => exact .nil
  | @cons origin result _ _ hfirst _ ih =>
    obtain ⟨oid,_,hid⟩ := hfirst.id
    exact .cons ⟨hfirst,_,hid,elementOf_composed (hdots origin (List.mem_cons_self ..)) oid⟩
      (ih (fun o ho => hdots o (List.mem_cons_of_mem _ ho)))

/-- A checked frame is the frame. -/
theorem frameChecked_exact {text result : String} (h : frameChecked (.string text)=.ok result) : result=text := by
  unfold frameChecked at h
  dsimp only at h
  split at h
  · cases h
  · cases h
    rfl

/-- Whole-document validation of a document that has neither models nor a ground. -/
theorem document_without_models {spell : Float → String} {math : Math} {id frame : String} {items : List Json}
    {world : Json} (h : SceneDocument.document spell math (.object [("schema",.string kSchema),("id",.string id),
      ("frame",.string frame),("obstacles",.array items)])=.ok world) :
    ∃ obstacles, obstacleList spell math items=.ok obstacles ∧ checkObstacleSet obstacles=.ok () ∧
      obstacles.all (modelKnown (.object []))=true ∧ world.member "obstacles"=some (.array obstacles) ∧
      world.member "frame"=some (.string frame) := by
  unfold SceneDocument.document at h
  rw [except_bind_ok] at h
  obtain ⟨_,_,h⟩ := h
  split at h
  · cases h
  simp only [except_bind_ok] at h
  obtain ⟨sceneId,_,sceneFrame,hframe,h⟩ := h
  simp only [Json.valueOr,ne_eq,String.reduceEq,not_false_eq_true,member_next,member_here,Option.getD_some]
    at h hframe
  split at h
  · cases h
  simp only [except_bind_ok] at h
  obtain ⟨obstacles,hobstacles,_,hchecked,modelPart,hmodels,h⟩ := h
  have hnone : modelPart=[] := by
    simpa [modelMember] using hmodels.symm
  subst hnone
  split at h
  · cases h
  rename_i hknown
  rw [except_bind_ok] at h
  obtain ⟨groundPart,_,h⟩ := h
  cases h
  rw [frameChecked_exact hframe]
  exact ⟨obstacles,hobstacles,hchecked,by simpa [definedModels] using hknown,by simp,by simp⟩

/-- Every obstacle of an accepted request is kept: the world holds the obstacles
of all element scenes in order, named after their elements, placed, and with
their own parts in the common frame. -/
theorem assemble_keeps_obstacles (laws : GeometryLaws X.math) {request documents extrinsic answer : Json}
    (h : assemble X P request documents extrinsic=.ok answer) :
    ∃ (pairs : List (Json × Json)) (elements : List Element) (world : Json) (task frame : String)
      (obstacles : List Json),
      request.member "elements"=some (.array (pairs.map Prod.fst)) ∧
      sourcesOf documents=.ok (pairs.map Prod.snd) ∧
      List.Forall₂ (Reads X) pairs elements ∧
      answer=.object [("sceneDocument",.string (dumpYaml X.spell world)),("task",.string task)] ∧
      world.member "obstacles"=some (.array obstacles) ∧
      List.Forall₂ (fun origin result => Kept X P origin.1.id origin.1.placement origin.2 result ∧
        ∃ id, result.member "id"=some (.string id) ∧ elementOf id=origin.1.id) (origins elements) obstacles ∧
      (elements.map Element.id).Nodup ∧ (∃ ids, obstacleIds obstacles=.ok ids ∧ ids.Nodup) ∧
      world.member "frame"=some (.string frame) ∧ ∀ element∈elements, element.frame=frame := by
  unfold assemble at h
  rw [except_bind_ok] at h
  obtain ⟨⟨world,task⟩,hworld,h⟩ := h
  dsimp only at h
  split at h
  · cases h
  cases h
  unfold assembledScene at hworld
  rw [except_bind_ok] at hworld
  obtain ⟨⟨task',pairs⟩,hparts,hworld⟩ := hworld
  simp only [except_bind_ok] at hworld
  obtain ⟨gathered,hgathered,_,_,rawName,_,name,_,result,hresult,hworld⟩ := hworld
  cases hworld
  obtain ⟨helements,hsources⟩ := requestParts_spec hparts
  obtain ⟨elements,hreads,hids,hnodup,_,hframes,placed,hplaced,hforall⟩ := gather_spec hgathered
  rw [List.nil_append] at hplaced
  subst hplaced
  obtain ⟨obstacles,hobstacles,hchecked,hknown,hworld⟩ := document_without_models hresult
  have hcanonical := obstacleList_canonical hobstacles
  have hmodels : ∀ result∈obstacles, result.member "model"=none := by
    intro result hresult
    exact modelKnown_without (List.all_eq_true.mp hknown result hresult) (hcanonical result hresult)
  have hkept := kept_forall laws hforall (obstacleList_forall hobstacles) (origins_canonical hreads) hmodels
  refine ⟨pairs,elements,world,task,gathered.frame,obstacles,helements,hsources,hreads,rfl,hworld.1,?_,?_,
    ((checkObstacleSet_iff obstacles).mp hchecked).2.1,hworld.2,hframes⟩
  · exact kept_named hkept (elements_dotless hreads)
  · have hall := hnodup List.nodup_nil
    rw [hids,List.append_nil,List.nodup_reverse] at hall
    exact hall

end World

section Sample

/-- YAML text of a scene with a ball that is turned by a quarter. -/
def turnedText : String :=
  "schema: xgc2.scene.v1\nid: hall\nframe: map\nobstacles:\n- id: ball\n  parts:\n  - id: body\n" ++
    "    geometry:\n      type: sphere\n      radius: 1\n    pose:\n      orientation: [0, 0, 1, 1]\n"

/-- The scene of that text. -/
def turnedScene : Json :=
  .object [("schema",.string kSchema),("id",.string "hall"),("frame",.string "map"),
    ("obstacles",.array [.object [("id",.string "ball"),("parts",.array [.object [("id",.string "body"),
      ("geometry",.object [("type",.string "sphere"),("radius",.integer 1)]),
      ("pose",.object [("orientation",.array [.integer 0,.integer 0,.integer 1,.integer 1])])]])]])]

/-- YAML text of a scene without obstacles. -/
def bareText : String := "schema: xgc2.scene.v1\nid: yard\nframe: map\nobstacles: []\n"

/-- The scene of that text. -/
def bareScene : Json :=
  .object [("schema",.string kSchema),("id",.string "yard"),("frame",.string "map"),("obstacles",.array [])]

/-- YAML text of camera extrinsics. -/
def cameraText : String := "parent_frame: map\n"

/-- The values of the sample texts, which differ in their lengths. -/
def sampleYaml (bytes : ByteArray) : Except Error Json :=
  if bytes.size=turnedText.utf8ByteSize then .ok turnedScene
  else if bytes.size=bareText.utf8ByteSize then .ok bareScene
  else if bytes.size=cameraText.utf8ByteSize then .ok (.object [("parent_frame",.string "map")])
  else .error (sceneError "Invalid scene YAML")

/-- Externals with Python's spelling and double arithmetic of the target machine. -/
def assemblyExternals : Externals := {sampleExternals sampleYaml with spell := PythonFloat.pythonFloat}

/-- Placement arithmetic at the origin of the world. -/
def originPlacer : Placer := ⟨fun _ pose => pose,fun _ native => native⟩

/-- A request for two elements at the origin. -/
def pairRequest : Json :=
  .object [("fidelity",.string "geometry-only"),("task",.string "demo"),("name",.string "Hall and yard"),
    ("elements",.array [.object [("id",.string "west")],.object [("id",.string "east")]])]

/-- Sources of its element scenes. -/
def pairSources : Json := .array [.string turnedText,.string bareText]

/-- Parts of the first obstacle of a document. -/
def firstParts (document : Except Error Json) : Option Json :=
  match document with
  | .ok value => ((value.valueOr "obstacles" .null).items.head?).bind (fun item => item.member "parts")
  | .error _ => none

/-- The library of the sample has no meshes and no registered geometry. -/
theorem sampleGeometry_laws : GeometryLaws assemblyExternals.math := by
  refine ⟨?_,?_⟩
  · intro vertices indices triangles hmesh
    cases hmesh
  · intro kind declared value result hdeclared
    cases hdeclared

/-- Whether the YAML text of a world is short enough, by the sizes of its characters. -/
def shortText (world : Json) : Bool :=
  decide (String.utf8Len (emitNode assemblyExternals.spell world 0 false 0).1≤kMaxDocumentBytes)

/-- The sample request is accepted. -/
theorem pair_accepted :
    (assemble assemblyExternals originPlacer pairRequest pairSources (.string cameraText)).isOk=true := by
  have hshort : (assembledScene assemblyExternals originPlacer pairRequest pairSources
      (.string cameraText)).toOption.any (fun made => shortText made.1)=true := by
    decide +kernel
  cases hrun : assembledScene assemblyExternals originPlacer pairRequest pairSources (.string cameraText) with
  | error error =>
    rw [hrun] at hshort
    cases hshort
  | ok made =>
    rw [hrun] at hshort
    have hsize : ¬kMaxDocumentBytes<(dumpYaml assemblyExternals.spell made.1).utf8ByteSize := by
      unfold dumpYaml
      rw [String.utf8ByteSize_ofList]
      exact not_lt.mpr (of_decide_eq_true hshort)
    unfold assemble
    rw [hrun]
    simp only [ok_bind,if_neg hsize]
    rfl

/-- The assembled world keeps the ball of the first element. -/
theorem assemble_keeps_obstacles_pair :
    ∃ answer, assemble assemblyExternals originPlacer pairRequest pairSources (.string cameraText)=.ok answer ∧
      ∃ (pairs : List (Json × Json)) (elements : List Element) (world : Json) (task frame : String)
        (obstacles : List Json),
        pairRequest.member "elements"=some (.array (pairs.map Prod.fst)) ∧
        sourcesOf pairSources=.ok (pairs.map Prod.snd) ∧
        List.Forall₂ (Reads assemblyExternals) pairs elements ∧
        answer=.object [("sceneDocument",.string (dumpYaml assemblyExternals.spell world)),("task",.string task)] ∧
        world.member "obstacles"=some (.array obstacles) ∧
        List.Forall₂ (fun origin result =>
          Kept assemblyExternals originPlacer origin.1.id origin.1.placement origin.2 result ∧
          ∃ id, result.member "id"=some (.string id) ∧ elementOf id=origin.1.id) (origins elements) obstacles ∧
        (elements.map Element.id).Nodup ∧ (∃ ids, obstacleIds obstacles=.ok ids ∧ ids.Nodup) ∧
        world.member "frame"=some (.string frame) ∧ ∀ element∈elements, element.frame=frame := by
  have hok := pair_accepted
  cases hrun : assemble assemblyExternals originPlacer pairRequest pairSources (.string cameraText) with
  | error error =>
    rw [hrun] at hok
    cases hok
  | ok answer => exact ⟨answer,rfl,assemble_keeps_obstacles sampleGeometry_laws hrun⟩

/-- The ball's orientation is normalized when its scene is validated and once more when the world is:
the second quotient differs from the first in the last bit. -/
theorem orientation_normalized_twice :
    (assemble assemblyExternals originPlacer pairRequest pairSources (.string cameraText)).isOk=true ∧
      firstParts (SceneDocument.document assemblyExternals.spell assemblyExternals.math turnedScene)≠none ∧
      firstParts ((assembledScene assemblyExternals originPlacer pairRequest pairSources
          (.string cameraText)).map Prod.fst)≠
        firstParts (SceneDocument.document assemblyExternals.spell assemblyExternals.math turnedScene) := by
  refine ⟨pair_accepted,?_,?_⟩ <;> decide +kernel

/-- A scene with a box. -/
def boxScene : Json :=
  .object [("schema",.string kSchema),("id",.string "hall"),("frame",.string "map"),
    ("obstacles",.array [.object [("id",.string "box"),("parts",.array [.object [("id",.string "body"),
      ("geometry",.object [("type",.string "box"),("size",.array [.integer 1,.integer 2,.float 0.5])])]])]])]

/-- A validated scene with a box is validated again. -/
theorem document_idempotent_box :
    ∃ result, SceneDocument.document PythonFloat.pythonFloat unitMath boxScene=.ok result ∧
      SceneDocument.document PythonFloat.pythonFloat unitMath result=.ok result := by
  have hok : (SceneDocument.document PythonFloat.pythonFloat unitMath boxScene).isOk=true := by decide +kernel
  cases hrun : SceneDocument.document PythonFloat.pythonFloat unitMath boxScene with
  | error error =>
    rw [hrun] at hok
    cases hok
  | ok result => exact ⟨result,rfl,document_idempotent (unitMath_laws True) hrun⟩

end Sample

end Ros1Adapter.SceneAssembly
