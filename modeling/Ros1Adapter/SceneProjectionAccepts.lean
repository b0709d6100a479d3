import Ros1Adapter.SceneProjection

/-!
# Members of compiled scenes

What the projection reads of a compiled scene is what the compiler wrote:
members that are present are returned, and the geometries, models and obstacles
of a compiled scene are its tables.
-/

namespace Ros1Adapter.SceneProjectionAccepts

open SceneJson SceneDocument SceneDocumentNormal SceneFiles SceneFingerprint SceneCompile SceneProjection

section Reading

/-- A present member is returned. -/
theorem atKey_of_member {value item : Json} {key : String} (h : value.member key=some item) :
    value.atKey key=.ok item := by
  unfold Json.atKey
  rw [h]

/-- A present text is returned. -/
theorem stringAt_of_member {value : Json} {key text : String} (h : value.member key=some (.string text)) :
    stringAt value key=.ok text := by
  unfold stringAt
  rw [atKey_of_member h]
  rfl

end Reading

section Scenes

/-- A compiled obstacle by its members. -/
structure Obstacle where
  /-- Identity. -/
  id : String
  /-- Name. -/
  name : String
  /-- Name of its model. -/
  model : String
  /-- Initial placement. -/
  pose : Pose3
  /-- Canonical motion. -/
  motion : Json

/-- The compiled obstacle of its members. -/
def Obstacle.value (o : Obstacle) : Json :=
  .object [("id",.string o.id),("name",.string o.name),("model",.string o.model),("pose",fromPose o.pose),
    ("motion",o.motion)]

/-- Members of a compiled scene. -/
theorem scene_members (s : Scene) :
    s.value.member "schema"=some (.string kCompiledSchema) ∧ s.value.member "id"=some (.string s.id) ∧
      s.value.member "frame"=some (.string s.frame) ∧ s.value.member "ground"=some s.ground ∧
      s.value.member "geometries"=some (.array s.geometries) ∧
      s.value.member "models"=some (.object s.models) ∧
      s.value.member "obstacles"=some (.array s.obstacles) := by
  simp [Scene.value]

/-- A member that is present is its value. -/
theorem valueOr_of_member {value item fallback : Json} {key : String} (h : value.member key=some item) :
    value.valueOr key fallback=item := by
  unfold Json.valueOr
  rw [h]
  rfl

/-- Tables and obstacles of a compiled scene. -/
theorem scene_tables (s : Scene) :
    (s.value.valueOr "geometries" .null).items=s.geometries ∧
      (s.value.valueOr "models" .null).members=s.models ∧
      (s.value.valueOr "obstacles" .null).items=s.obstacles := by
  obtain ⟨_,_,_,_,hg,hm,ho⟩ := scene_members s
  rw [valueOr_of_member hg,valueOr_of_member hm,valueOr_of_member ho]
  exact ⟨rfl,rfl,rfl⟩

end Scenes

section Views

/-- Everything of a projection but its shared definitions. -/
def SameViews (p q : Projection) : Prop :=
  q={p with geometries := q.geometries, models := q.models, nextAddress := q.nextAddress}

/-- Wire form of a shape. -/
def Encodes (D : Drawing) (shape : Json) (payload : Payload) : Prop := D.geometryFromJson shape=.ok payload

end Views

end Ros1Adapter.SceneProjectionAccepts
