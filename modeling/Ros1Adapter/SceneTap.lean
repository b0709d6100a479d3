import Mathlib.Data.List.Forall2
import Ros1Adapter.SceneProjection

/-!
# The lidar tap on the scene outputs

The tap stands between the scene node and its publishers. It keeps the last
scene definition, pairs it with the last state of the moving obstacles and
installs their placed shapes in the lidar engine once the native application
of exactly that revision is confirmed. Everything that may contradict the
installed scene invalidates it first.
-/

namespace Ros1Adapter.SceneTap

open SceneFiles SceneCompile SceneProjection ActionRules

section Engine

/-- An orientation. -/
structure Quaternion where
  /-- First vector component. -/
  x : Float
  /-- Second vector component. -/
  y : Float
  /-- Third vector component. -/
  z : Float
  /-- Scalar component. -/
  w : Float

/-- A shape with its placement. -/
structure Obstacle (Shape : Type) where
  /-- Shape. -/
  shape : Shape
  /-- Position. -/
  position : Point
  /-- Orientation. -/
  orientation : Quaternion

/-- How a scene is sampled. -/
structure SamplingPolicy where
  /-- Distance of samples. -/
  spacing : Float
  /-- Buried samples are kept. -/
  keepBuried : Bool

/-- Equality of policies as the source compares them. -/
def SamplingPolicy.same (p q : SamplingPolicy) : Bool := p.spacing==q.spacing && p.keepBuried==q.keepBuried

/-- The functions of the external mathematics. -/
structure Optics (Shape Scene : Type) where
  /-- Shape of a wire geometry. -/
  obstacleFromGeometry : Payload → Except String (Obstacle Shape)
  /-- Unit quaternion of an orientation. -/
  normalizedQuaternion : Quaternion → Except String Quaternion
  /-- Rotation of a vector. -/
  rotate : Quaternion → Point → Point
  /-- Product of two quaternions. -/
  multiply : Quaternion → Quaternion → Quaternion
  /-- Compiled scene of some obstacles, built from the previous one if there is one. -/
  lidarScene : List (Obstacle Shape) → SamplingPolicy → Option Scene → Except String Scene

/-- Members of the engine and of its scene cache that decide about the scene. -/
structure Engine (Scene : Type) where
  /-- A saved point cloud replaces the obstacles. -/
  pointMap : Bool := false
  /-- Policy of the reference cloud. -/
  reference : Option SamplingPolicy := none
  /-- Sampling policies. -/
  policies : List SamplingPolicy := []
  /-- Compiled scenes by policy. -/
  scenes : List (Option Scene) := []
  /-- Revision of the last installation or invalidation. -/
  revision : ℕ := 0
  /-- There was an installation or invalidation. -/
  haveRevision : Bool := false
  /-- The compiled scenes are the truth. -/
  ready : Bool := false

variable {Shape Scene : Type}

/-- Policies of a new scene cache, each one once. -/
def distinctPolicies (policies : List SamplingPolicy) : List SamplingPolicy :=
  policies.foldl (fun kept policy => if kept.any (fun other => other.same policy) then kept else kept ++ [policy]) []

/-- A new engine without a saved point cloud. -/
def newEngine (reference : Option SamplingPolicy) (policies : List SamplingPolicy) : Engine Scene :=
  {reference := reference, policies := distinctPolicies policies, scenes := (distinctPolicies policies).map (fun _ => none)}

/-- Mark the scene as unready unless the revision is an old one. -/
def invalidateScene (revision : ℕ) (e : Engine Scene) : Bool × Engine Scene :=
  if e.haveRevision && decide (revision<e.revision) then (false,e)
  else (true,{e with revision := revision, haveRevision := true, ready := false})

/-- Compile a scene for every policy. -/
def prepareScenes (L : Optics Shape Scene) (obstacles : List (Obstacle Shape)) :
    List SamplingPolicy → List (Option Scene) → Except String (List Scene)
  | policy::policies,previous::scenes => do
    let scene ← L.lidarScene obstacles policy previous
    let rest ← prepareScenes L obstacles policies scenes
    return scene::rest
  | _,_ => .ok []

/-- Install compiled scenes in the cache; a refusal leaves it unready. -/
def cacheScene (L : Optics Shape Scene) (obstacles : List (Obstacle Shape)) (revision : ℕ) :
    EStateM String (Engine Scene) Bool := do
  let e ← get
  if e.haveRevision && (decide (revision<e.revision) || (decide (revision=e.revision) && e.ready)) then return false
  else do
    set (invalidateScene revision e).2
    let prepared ← ofResult (prepareScenes L obstacles e.policies e.scenes)
    modify (fun t => {t with scenes := prepared.map some, ready := true})
    return true

/-- The samples of the reference cloud need its policy. -/
def referenceSamples (e : Engine Scene) : Except String Unit :=
  match e.reference with
  | none => .ok ()
  | some policy => if e.policies.any (fun other => other.same policy) then .ok () else .error "unknown lidar sampling policy"

/-- Install a scene. -/
def setScene (L : Optics Shape Scene) (obstacles : List (Obstacle Shape)) (revision : ℕ) :
    EStateM String (Engine Scene) Bool := do
  let e ← get
  if e.ready && decide (revision=e.revision) then return false
  else
    match invalidateScene revision e with
    | (false,_) => return false
    | (true,t) => do
      set t
      let _ ← cacheScene L (if e.pointMap then [] else obstacles) revision
      ofResult (referenceSamples e)
      return true

end Engine

section Tap

/-- A part of a kept obstacle. -/
structure Part (Shape : Type) where
  /-- Entry of the geometry table. -/
  geometry : Obstacle Shape
  /-- Placement in its obstacle. -/
  pose : Pose3

/-- A kept obstacle. -/
structure Description (Shape : Type) where
  /-- Identity. -/
  id : String
  /-- Placement. -/
  pose : Pose3
  /-- Parts. -/
  parts : List (Part Shape)

/-- A moving obstacle. -/
structure Moving where
  /-- Index of its description. -/
  description : ℕ
  /-- Index of its place in a state message. -/
  state : ℕ

/-- An application call. -/
structure Application where
  /-- Epoch. -/
  epoch : String
  /-- Revision. -/
  revision : ℕ
  /-- The native application is confirmed. -/
  synchronized : Bool

/-- Members of the tap with its engine. -/
structure Tap (Shape Scene : Type) where
  /-- There is an engine. -/
  attached : Bool := true
  /-- Engine. -/
  engine : Engine Scene
  /-- Epoch of the definition. -/
  epoch : String := ""
  /-- Epoch of the last application. -/
  applicationEpoch : String := ""
  /-- Last error. -/
  error : String := ""
  /-- Revision of the definition. -/
  revision : ℕ := 0
  /-- Revision of the last application. -/
  applicationRevision : ℕ := 0
  /-- Number of invalidations. -/
  installation : ℕ := 0
  /-- There is a definition. -/
  haveSnapshot : Bool := false
  /-- There is a complete state. -/
  haveState : Bool := false
  /-- The last application is confirmed. -/
  applied : Bool := false
  /-- Kept obstacles. -/
  descriptions : List (Description Shape) := []
  /-- Placed shapes of the ground. -/
  groundShapes : List (Obstacle Shape) := []
  /-- Moving obstacles. -/
  dynamic : List Moving := []
  /-- Places of the identities in state messages. -/
  dynamicSlots : List (String × ℕ) := []
  /-- Positions of the identities in the last state message. -/
  statePositions : List ℕ := []
  /-- Message of the definition; it is no part of the source. -/
  stored : Option SceneSnapshot := none
  /-- Last application call; it is no part of the source. -/
  lastApplication : Option Application := none
  /-- Last accepted state message; it is no part of the source. -/
  accepted : Option SceneState := none

variable {Shape Scene : Type}

/-- Position of a placement. -/
def positionOf (pose : Pose3) : Point := ⟨pose.x,pose.y,pose.z⟩

/-- Orientation of a placement. -/
def orientationOf (pose : Pose3) : Quaternion := ⟨pose.qx,pose.qy,pose.qz,pose.qw⟩

/-- Sum of two vectors. -/
def addPoints (p q : Point) : Point := ⟨p.x+q.x,p.y+q.y,p.z+q.z⟩

/-- Shape of a part whose obstacle has a unit orientation. -/
def placePart (L : Optics Shape Scene) (position : Point) (parent : Quaternion) (part : Part Shape) : Obstacle Shape :=
  {part.geometry with
    position := addPoints position (L.rotate parent (positionOf part.pose)),
    orientation := L.multiply parent (orientationOf part.pose)}

/-- Shapes of some parts at a placement. -/
def placeParts (L : Optics Shape Scene) (pose : Pose3) (parts : List (Part Shape)) : Except String (List (Obstacle Shape)) := do
  let parent ← L.normalizedQuaternion (orientationOf pose)
  return parts.map (placePart L (positionOf pose) parent)

/-- Shapes of all obstacles at their placements. -/
def placeAll (L : Optics Shape Scene) : List (Description Shape) → Except String (List (Obstacle Shape))
  | [] => .ok []
  | description::rest => do
    let first ← placeParts L description.pose description.parts
    let others ← placeAll L rest
    return first ++ others

/-- Two placements differ as the source compares them. -/
def poseDiffers (p q : Pose3) : Bool :=
  p.x != q.x || p.y != q.y || p.z != q.z || p.qx != q.qx || p.qy != q.qy || p.qz != q.qz || p.qw != q.qw

/-- The last application confirms the definition. -/
def synchronized (s : Tap Shape Scene) : Bool :=
  s.applied && decide (s.applicationEpoch=s.epoch) && decide (s.applicationRevision=s.revision)

/-- A refused scene is unready. -/
def refuse (what : String) (e : Engine Scene) (s : Tap Shape Scene) : Tap Shape Scene :=
  {s with engine := (invalidateScene s.installation e).2, error := what}

/-- Install the kept definition with its state, if it is complete and confirmed. -/
def install (L : Optics Shape Scene) (s : Tap Shape Scene) : Tap Shape Scene :=
  if !s.haveSnapshot || !synchronized s || (!s.haveState && !s.dynamic.isEmpty) then s
  else match placeAll L s.descriptions with
    | .error what => refuse what s.engine s
    | .ok shapes => match setScene L (s.groundShapes ++ shapes) s.installation s.engine with
      | .error what e => refuse what e s
      | .ok _ e => {s with engine := e, error := ""}

/-- Tap whose scene is unready under the next installation number. -/
def invalidated (s : Tap Shape Scene) : Tap Shape Scene :=
  {s with installation := s.installation+1, engine := (invalidateScene (s.installation+1) s.engine).2}

/-- A call of the tap. -/
abbrev Act (Shape Scene : Type) := EStateM String (Tap Shape Scene)

/-- Mark the scene as unready and let the engine clear its reference; its sink may throw. -/
def invalidate (sinkThrows : Bool) : Act Shape Scene Unit := do
  modify invalidated
  if sinkThrows then throw "sink" else pure ()

/-- Mark the scene as unready where a condition holds. -/
def invalidateIf (condition sinkThrows : Bool) : Act Shape Scene Unit := if condition then invalidate sinkThrows else pure ()

/-- Note an application. -/
def application (L : Optics Shape Scene) (call : Application) (sinkThrows : Bool) : Act Shape Scene Unit := do
  let s ← get
  if !s.attached then return ()
  else do
    let changed := decide (call.epoch≠s.applicationEpoch) || decide (call.revision≠s.applicationRevision) ||
      decide (s.applied≠call.synchronized)
    set {s with
      applicationEpoch := call.epoch, applicationRevision := call.revision, applied := call.synchronized,
      lastApplication := some call}
    invalidateIf (changed || !call.synchronized) sinkThrows
    modify (fun t => if call.synchronized && !t.engine.ready then install L t else t)

/-- Shapes of a geometry table. -/
def geometryTable (L : Optics Shape Scene) : List Payload → Except String (List (Obstacle Shape))
  | [] => .ok []
  | geometry::rest => do
    let shape ← L.obstacleFromGeometry geometry
    let others ← geometryTable L rest
    return shape::others

/-- Part with its entry of the geometry table. -/
def convertParts (table : List (Obstacle Shape)) (refusal : String) : List ScenePart → Except String (List (Part Shape))
  | [] => .ok []
  | part::rest =>
    match table[part.geometryIndex]? with
    | none => .error refusal
    | some geometry => do
      let others ← convertParts table refusal rest
      return ⟨geometry,part.pose⟩::others

/-- Placed shapes of the ground. -/
def groundOf (L : Optics Shape Scene) (table : List (Obstacle Shape)) (ground : SceneGround) :
    Except String (List (Obstacle Shape)) :=
  if ground.mode≠"model" && !ground.parts.isEmpty then .error "non-model ground must not have parts"
  else if ground.mode="model" then
    if ground.parts.isEmpty then .error "ground model has no parts"
    else do
      let parent ← L.normalizedQuaternion (orientationOf ground.pose)
      let parts ← convertParts table "ground geometry index out of range" ground.parts
      return parts.map (placePart L (positionOf ground.pose) parent)
  else if ground.mode="default_plane" then
    if ground.z.isFinite then .ok [] else .error "ground z must be finite"
  else if ground.mode="none" then .ok []
  else .error ("unsupported ground mode: " ++ ground.mode)

/-- Members that a definition fills. -/
structure Conversion (Shape : Type) where
  /-- Kept obstacles. -/
  descriptions : List (Description Shape) := []
  /-- Moving obstacles. -/
  dynamic : List Moving := []
  /-- Places of the identities in state messages. -/
  slots : List (String × ℕ) := []
  /-- Positions of the identities. -/
  positions : List ℕ := []

/-- Keep one more obstacle; obstacles with the same identity share their place. -/
def Conversion.add (c : Conversion Shape) (obstacle : SceneObstacle) (parts : List (Part Shape)) : Conversion Shape :=
  let kept := {c with descriptions := c.descriptions ++ [⟨obstacle.id,obstacle.pose,parts⟩]}
  if obstacle.dynamic then
    match c.slots.lookup obstacle.id with
    | some slot => {kept with dynamic := c.dynamic ++ [⟨c.descriptions.length,slot⟩]}
    | none => {kept with
      slots := c.slots ++ [(obstacle.id,c.positions.length)], positions := c.positions ++ [0],
      dynamic := c.dynamic ++ [⟨c.descriptions.length,c.positions.length⟩]}
  else kept

/-- Keep the obstacles of a definition. -/
def convertObstacles (table : List (Obstacle Shape)) :
    List SceneObstacle → Conversion Shape → Except String (Conversion Shape)
  | [],c => .ok c
  | obstacle::rest,c => do
    let parts ← convertParts table "snapshot geometry index out of range" obstacle.parts
    convertObstacles table rest (c.add obstacle parts)

/-- Ground shapes and kept obstacles of a definition. -/
def convert (L : Optics Shape Scene) (message : SceneSnapshot) :
    Except String (List (Obstacle Shape) × Conversion Shape) := do
  let table ← geometryTable L message.geometries
  let ground ← groundOf L table message.ground
  let conversion ← convertObstacles table message.obstacles {}
  return (ground,conversion)

/-- Tap without a definition, for a new epoch and revision. -/
def cleared (epoch : String) (revision : ℕ) (s : Tap Shape Scene) : Tap Shape Scene :=
  {s with
    haveSnapshot := false, haveState := false, descriptions := [], groundShapes := [], dynamic := [], dynamicSlots := [],
    statePositions := [], epoch := epoch, revision := revision, stored := none}

/-- Replace the definition. -/
def snapshot (L : Optics Shape Scene) (message : SceneSnapshot) (outputsThrow sinkThrows : Bool) : Act Shape Scene Unit := do
  if outputsThrow then throw "outputs"
  else do
    let s ← get
    if !s.attached || (s.haveSnapshot && decide (message.epoch=s.epoch) && decide (message.revision ≤ s.revision)) then
      return ()
    else do
      invalidate sinkThrows
      modify (cleared message.epoch message.revision)
      if message.frame≠"world" then modify (fun t => {t with error := "snapshot frame must be world"})
      else match convert L message with
        | .error what => modify (fun t => {t with error := "snapshot geometry: " ++ what})
        | .ok (ground,c) => modify (fun t => install L {t with
            groundShapes := ground, descriptions := c.descriptions, dynamic := c.dynamic, dynamicSlots := c.slots,
            statePositions := c.positions, haveSnapshot := true, stored := some message})

/-- Note the first position of every known identity in a state message. -/
def notePositions (slots : List (String × ℕ)) (missing : ℕ) : List SceneObstacleState → ℕ → List ℕ → List ℕ
  | [],_,positions => positions
  | state::rest,index,positions =>
    match slots.lookup state.id with
    | none => notePositions slots missing rest (index+1) positions
    | some slot =>
      if positions[slot]?=some missing then notePositions slots missing rest (index+1) (positions.set slot index)
      else notePositions slots missing rest (index+1) positions

/-- Outcome of moving the obstacles. -/
structure Moves (Shape : Type) where
  /-- Kept obstacles. -/
  descriptions : List (Description Shape)
  /-- A placement changed. -/
  changed : Bool
  /-- Identity of the first obstacle that has no state. -/
  lacking : Option String := none

/-- Move the obstacles in place, in definition order; a position after the end is a missing state. -/
def moveObstacles (states : List SceneObstacleState) (positions : List ℕ) :
    List Moving → List (Description Shape) → Bool → Moves Shape
  | [],descriptions,changed => ⟨descriptions,changed,none⟩
  | moving::rest,descriptions,changed =>
    match descriptions[moving.description]? with
    | none => moveObstacles states positions rest descriptions changed
    | some description =>
      match positions[moving.state]?.bind (fun position => states[position]?) with
      | none => ⟨descriptions,changed,some description.id⟩
      | some state =>
        if poseDiffers state.pose description.pose then
          moveObstacles states positions rest
            (descriptions.set moving.description {description with pose := state.pose}) true
        else moveObstacles states positions rest descriptions changed

/-- Install after an accepted state unless the scene is ready. -/
def settleState (L : Optics Shape Scene) (s : Tap Shape Scene) : Tap Shape Scene :=
  if s.engine.ready then s else install L s

/-- Adopt a state message. -/
def state (L : Optics Shape Scene) (message : SceneState) (outputsThrow sinkThrows : Bool) : Act Shape Scene Unit := do
  if outputsThrow then throw "outputs"
  else do
    let s ← get
    if !s.attached || !s.haveSnapshot || decide (message.epoch≠s.epoch) || decide (message.revision≠s.revision) then
      return ()
    else if message.frame≠"world" then do
      modify (fun t => {t with haveState := false})
      invalidate sinkThrows
      modify (fun t => {t with error := "state frame must be world"})
    else if s.dynamic.isEmpty then
      modify (fun t => settleState L {t with haveState := true, accepted := some message})
    else do
      let positions := notePositions s.dynamicSlots message.obstacles.length message.obstacles 0
        (s.statePositions.map (fun _ => message.obstacles.length))
      let moves := moveObstacles message.obstacles positions s.dynamic s.descriptions false
      modify (fun t => {t with statePositions := positions, descriptions := moves.descriptions})
      match moves.lacking with
      | some id => do
        modify (fun t => {t with haveState := false})
        invalidate sinkThrows
        modify (fun t => {t with error := "state lacks dynamic obstacle '" ++ id ++ "'"})
      | none => do
        modify (fun t => {t with haveState := true, accepted := some message})
        invalidateIf moves.changed sinkThrows
        modify (settleState L)

/-- A call of the scene node. -/
inductive Call where
  /-- An application. -/
  | application (call : Application) (sinkThrows : Bool)
  /-- A definition. -/
  | snapshot (message : SceneSnapshot) (outputsThrow sinkThrows : Bool)
  /-- A state. -/
  | state (message : SceneState) (outputsThrow sinkThrows : Bool)

/-- The action of a call. -/
def perform (L : Optics Shape Scene) : Call → Act Shape Scene Unit
  | .application call sinkThrows => application L call sinkThrows
  | .snapshot message outputsThrow sinkThrows => snapshot L message outputsThrow sinkThrows
  | .state message outputsThrow sinkThrows => state L message outputsThrow sinkThrows

/-- Tap after a call, whether it returns or throws. -/
def step (L : Optics Shape Scene) (s : Tap Shape Scene) (call : Call) : Tap Shape Scene := stateOf (perform L call s)

end Tap

end Ros1Adapter.SceneTap
