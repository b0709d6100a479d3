import Ros1Adapter.PartIdentities
import Ros1Adapter.PatternLanguage
import Ros1Adapter.SceneProjectionCaches

/-!
# Identities of markers

A marker is known by its namespace and its number. The namespace of a part is
the identity of its obstacle and of the part, so that the markers of one array
stay apart exactly when the parts of every model do and no obstacle stands in
for the ground.
-/

namespace Ros1Adapter.MarkerIdentities

open SceneJson SceneDocument SceneDocumentNormal SceneFiles SceneCompile SceneProjection SceneProjectionAccepts
  SceneProjectionCaches PartIdentities PatternResiduals PatternLanguage ActionRules

section Keys

variable {D : Drawing}

/-- Namespace and number of an added marker. -/
def markerKey : Marker → Option (String × ℕ)
  | .deleteAll => none
  | .add _ ns id _ _ _ _ _ => some (ns,id)

/-- Namespaces and numbers of the added markers of an array. -/
def addKeys (markers : List Marker) : List (String × ℕ) := markers.filterMap markerKey

/-- Numbers of the markers of a geometry; a capsule has a body and caps. -/
def markerNumbers (geometry : Geometry) : List ℕ :=
  match geometry.type with
  | .capsule => (if 0<geometry.height then [0] else []) ++ if geometry.height==0 then [1] else [1,2]
  | _ => [0]

/-- Numbers of one geometry are different. -/
theorem markerNumbers_nodup (geometry : Geometry) : (markerNumbers geometry).Nodup := by
  unfold markerNumbers
  split
  · split
    · split
      · decide
      · decide
    · split
      · decide
      · decide
  · decide

/-- Namespace of a part. -/
def partNamespace (oid : String) (part : ScenePart) : String := oid ++ "/" ++ part.id

/-- Markers of a part carry its namespace and the numbers of its geometry. -/
theorem partMarkers_keys {oid frame : String} {part : ScenePart} {geometry : Geometry} {markers : List Marker}
    (h : partMarkers D oid part geometry frame=.ok markers) :
    addKeys markers=(markerNumbers geometry).map (fun number => (partNamespace oid part,number)) := by
  unfold partMarkers at h
  unfold markerNumbers
  cases ht : geometry.type with
  | capsule =>
    rw [ht] at h
    dsimp only at h ⊢
    cases h
    unfold capsuleCaps
    split
    · split
      · rfl
      · rfl
    · split
      · rfl
      · rfl
  | halfspaces =>
    rw [ht] at h
    simp only [except_bind_ok] at h
    obtain ⟨points,_,h⟩ := h
    cases h
    rfl
  | convex =>
    rw [ht] at h
    dsimp only at h
    split at h
    · rw [except_bind_ok] at h
      obtain ⟨points,_,h⟩ := h
      cases h
      rfl
    · cases h
      rfl
  | other =>
    rw [ht] at h
    cases h
  | _ =>
    rw [ht] at h
    cases h
    rfl

/-- Numbers of the geometry of a part in a table. -/
def numbersAt (geometries : List Geometry) (part : ScenePart) : List ℕ :=
  (geometries[part.geometryIndex]?.map markerNumbers).getD []

/-- Namespaces and numbers of the parts of an obstacle or of the ground. -/
def partKeys (geometries : List Geometry) (oid : String) (parts : List ScenePart) : List (String × ℕ) :=
  parts.flatMap (fun part => (numbersAt geometries part).map (fun number => (partNamespace oid part,number)))

/-- Markers of parts carry their namespaces and numbers. -/
theorem markersOf_keys {oid frame : String} {geometries : List Geometry} {parts : List ScenePart}
    {markers : List Marker} (h : markersOf D oid geometries frame parts=.ok markers) :
    addKeys markers=partKeys geometries oid parts := by
  induction parts generalizing markers with
  | nil =>
    cases h
    rfl
  | cons part rest ih =>
    unfold markersOf at h
    simp only [except_bind_ok] at h
    obtain ⟨geometry,hgeometry,head,hhead,tail,htail,h⟩ := h
    cases h
    have hget : geometries[part.geometryIndex]?=some geometry := by
      unfold orThrow at hgeometry
      split at hgeometry
      · rename_i found hfound
        cases hgeometry
        exact hfound
      · cases hgeometry
    unfold addKeys partKeys numbersAt
    rw [List.filterMap_append,List.flatMap_cons,hget]
    exact congrArg₂ _ (partMarkers_keys hhead) (ih htail)

/-- The namespaces of an obstacle tell its parts apart. -/
theorem partNamespace_injective {oid : String} {first second : ScenePart}
    (h : partNamespace oid first=partNamespace oid second) : first.id=second.id := by
  have hlists := congrArg String.toList h
  unfold partNamespace at hlists
  simp only [String.toList_append] at hlists
  exact String.toList_inj.mp (List.append_cancel_left hlists)

/-- Parts with different identities have markers with different namespaces or numbers. -/
theorem partKeys_nodup (geometries : List Geometry) (oid : String) {parts : List ScenePart}
    (h : (parts.map ScenePart.id).Nodup) : (partKeys geometries oid parts).Nodup := by
  unfold partKeys
  rw [List.nodup_flatMap]
  constructor
  · intro part _
    have hnumbers : (numbersAt geometries part).Nodup := by
      unfold numbersAt
      cases geometries[part.geometryIndex]? with
      | none => exact List.nodup_nil
      | some geometry => exact markerNumbers_nodup geometry
    exact hnumbers.map (fun _ _ he => congrArg Prod.snd he)
  · rw [List.Nodup,List.pairwise_map] at h
    refine h.imp ?_
    intro first second hne key hf hs
    obtain ⟨_,_,rfl⟩ := List.mem_map.mp hf
    obtain ⟨_,_,hkey⟩ := List.mem_map.mp hs
    exact hne (partNamespace_injective (congrArg Prod.fst hkey).symm)

/-- Every key of some parts is in a namespace of theirs. -/
theorem mem_partKeys {geometries : List Geometry} {oid : String} {parts : List ScenePart} {key : String × ℕ} :
    key∈partKeys geometries oid parts ↔
      ∃ part∈parts, key.1=partNamespace oid part ∧ key.2∈numbersAt geometries part := by
  unfold partKeys
  rw [List.mem_flatMap]
  constructor
  · rintro ⟨part,hp,hkey⟩
    obtain ⟨number,hn,rfl⟩ := List.mem_map.mp hkey
    exact ⟨part,hp,rfl,hn⟩
  · rintro ⟨part,hp,hns,hn⟩
    refine ⟨part,hp,List.mem_map.mpr ⟨key.2,hn,?_⟩⟩
    rw [←hns]

end Keys

section Drawing

variable {D : Drawing} {document : Json} {heap : Heap} {p : Projection}

/-- Cached or new markers have the keys of their parts. -/
theorem sharedMarkers_keys {next : ℕ} {known : Option Markers} {oid frame : String}
    (hk : ∀ m, known=some m → m.frame=frame → Redrawn D heap next oid m) {value : Json} {model : Model}
    (hm : HoldsModel heap next model) {geometries : List Geometry} {parts : List ScenePart}
    (hp : PartsOf model.value parts)
    (hg : List.Forall₂ (Pictures D geometries) parts (model.geometries.map Shared.value)) {made : Markers}
    (h : sharedMarkers D known value model frame oid geometries parts=.ok made) :
    addKeys made.messages=partKeys geometries oid parts := by
  have hagrees := sharedMarkers_agrees frame hk value hm hp hg
  rw [h] at hagrees
  cases hdrawn : markersOf D oid geometries frame parts with
  | ok messages =>
    rw [hdrawn] at hagrees
    rw [hagrees.1]
    exact markersOf_keys hdrawn
  | error e =>
    rw [hdrawn] at hagrees
    exact hagrees.elim

/-- The model of a name in a prepared projection is held and is a model of its definition. -/
theorem modelAt_prepared (hp : Prepared D document heap p) {name : String} {value : Json}
    (hl : (membersOf document).lookup name=some value) {m : Model} (h : modelAt p.models name=.ok m) :
    HoldsModel heap p.nextAddress m ∧ ModelOf (shapesOf document) value m := by
  refine ⟨hp.tidy.models name m (modelAt_ok h),?_⟩
  have hself := modelAt_agree hp.models hp.models name
  rw [h] at hself
  obtain ⟨value',hl',hmodel,_⟩ := hself
  rw [hl] at hl'
  cases hl'
  exact hmodel

/-- Drawn obstacles have the keys of their parts. -/
theorem drawObstacles_keys (hp : Prepared D document heap p) {geometries : List Geometry}
    (hg : List.Forall₂ (Native D) (shapesOf document) geometries) {stamp : Stamp} {items : List Json}
    {bodies : List SceneObstacle} (hb : List.Forall₂ (BodyOf (membersOf document)) items bodies) {drawn : Drawn}
    (h : drawObstacles D p geometries stamp items bodies=.ok drawn) :
    addKeys drawn.messages=bodies.flatMap (fun body => partKeys geometries body.id body.parts) := by
  induction hb generalizing drawn with
  | nil =>
    cases h
    rfl
  | @cons item body rest others hhead _ ih =>
    obtain ⟨name,value,hname,hlookup,hmessage⟩ := hhead
    have hparts := (obstacleMessage_parts hmessage).2
    unfold drawObstacles at h
    simp only [except_bind_ok] at h
    obtain ⟨fixed,_,frame,_,name',hname',model,hmodel,markers,hmarkers,tail,htail,h⟩ := h
    rw [hname] at hname'
    cases hname'
    cases h
    obtain ⟨hheld,hof⟩ := modelAt_prepared hp hlookup hmodel
    have hfirst := sharedMarkers_keys (fun known hk _ => hp.tidy.markers body.id known hk) hheld
      (hof.value_eq ▸ hparts) (hof.pictures hg hparts) hmarkers
    have hrest := ih htail
    unfold addKeys at hfirst hrest ⊢
    rw [List.flatMap_cons,List.filterMap_append,hfirst,hrest]

/-- Keys of a ground in a frame. -/
def groundKeys (geometries : List Geometry) (frame : String) (ground : SceneGround) : List (String × ℕ) :=
  if ground.mode="model" then partKeys geometries frame ground.parts else []

/-- A drawn ground has the keys of its parts. -/
theorem drawGround_keys (hp : Prepared D document heap p) {geometries : List Geometry}
    (hg : List.Forall₂ (Native D) (shapesOf document) geometries) {epoch : String} {message : SceneSnapshot}
    (hm : MadeOf D document message) {drawn : List TransformStamped × Option Markers}
    (h : drawGround D p geometries document epoch message=.ok drawn) :
    addKeys ((drawn.2.map Markers.messages).getD [])=
      groundKeys geometries (p.namePrefix ++ "/" ++ epoch ++ "/ground") message.ground := by
  unfold drawGround at h
  unfold groundKeys
  split at h
  · rename_i hmode
    obtain ⟨owned,howned,hground⟩ := hm.ground
    obtain ⟨name,value,hname,hlookup,hparts⟩ := hground hmode
    simp only [except_bind_ok] at h
    obtain ⟨owned',howned',name',hname',model,hmodel,markers,hmarkers,h⟩ := h
    rw [howned] at howned'
    cases howned'
    rw [hname] at hname'
    cases hname'
    cases h
    obtain ⟨hheld,hof⟩ := modelAt_prepared hp hlookup hmodel
    rw [if_pos hmode]
    exact sharedMarkers_keys (fun known hk hf => hf ▸ hp.tidy.ground known hk) hheld (hof.value_eq ▸ hparts)
      (hof.pictures hg hparts) hmarkers
  · rename_i hmode
    cases h
    rw [if_neg hmode]
    rfl

/-- Keys of a definition: those of its obstacles and of its ground. -/
def DefinitionKeys (D : Drawing) (start epoch : String) (message : SceneSnapshot) (keys : List (String × ℕ)) : Prop :=
  ∃ geometries, decodedGeometries D message.geometries=.ok geometries ∧
    keys=message.obstacles.flatMap (fun body => partKeys geometries body.id body.parts) ++
      groundKeys geometries (start ++ "/" ++ epoch ++ "/ground") message.ground

/-- Every array of markers among some outputs has the keys of a definition. -/
def Published (D : Drawing) (start epoch : String) (message : SceneSnapshot) (outputs : List Output) : Prop :=
  ∀ markers, .markers markers∈outputs → DefinitionKeys D start epoch message (addKeys markers)

/-- A projection with faithful caches and given names of frames. -/
def Faithful (D : Drawing) (start : String) (p : Projection) : Prop := (∃ heap, Tidy D heap p) ∧ p.namePrefix=start

/-- An output is recorded. -/
theorem meets_emit (output : Output) (canvas : Canvas) (returns : Unit → Canvas → Prop)
    (throws : Error → Canvas → Prop) :
    Meets (emit output) canvas returns throws ↔ returns () {canvas with outputs := output::canvas.outputs} := Iff.rfl

/-- Preparing a document keeps the caches faithful. -/
theorem prepareModels_faithful {start : String} {canvas : Canvas} (h : Faithful D start canvas.projection) :
    Meets (prepareModels document) canvas
      (fun _ after => (∃ heap, Prepared D document heap after.projection) ∧ after.projection.namePrefix=start ∧
        after.outputs=canvas.outputs) (fun _ after => after=canvas) := by
  obtain ⟨⟨heap,htidy⟩,hname⟩ := h
  unfold prepareModels
  rw [meets_bind,meets_get,meets_bind,meets_ofResult]
  refine ⟨?_,fun _ _ => rfl⟩
  intro q hq
  obtain ⟨hviews,hprepared⟩ := withModels_prepared htidy hq
  exact ⟨hprepared,(SameViews.namePrefix hviews).trans hname,rfl⟩

/-- Everything that frames leave alone. -/
structure SameCaches (before after : Canvas) : Prop where
  /-- Faithful caches stay faithful. -/
  tidy : ∀ D heap, Tidy D heap before.projection → Tidy D heap after.projection
  /-- Models stay. -/
  models : after.projection.models=before.projection.models
  /-- Names of frames start alike. -/
  namePrefix : after.projection.namePrefix=before.projection.namePrefix
  /-- Outputs stay. -/
  outputs : after.outputs=before.outputs

/-- A projection leaves itself alone. -/
theorem SameCaches.refl (canvas : Canvas) : SameCaches canvas canvas := ⟨fun _ _ h => h,rfl,rfl,rfl⟩

/-- Steps that leave caches alone one after the other. -/
theorem SameCaches.trans {first second third : Canvas} (h : SameCaches first second)
    (h' : SameCaches second third) : SameCaches first third :=
  ⟨fun D heap ht => h'.tidy D heap (h.tidy D heap ht),h'.models.trans h.models,h'.namePrefix.trans h.namePrefix,
    h'.outputs.trans h.outputs⟩

/-- Other frames leave caches alone. -/
theorem sameCaches_stage (canvas : Canvas) (epoch parent : String) (revision : ℕ) (frames : String → Option String)
    (entries : List Json) :
    SameCaches canvas {canvas with projection := {canvas.projection with
      epoch := epoch, revision := revision, parent := parent, frames := frames, entries := entries}} :=
  ⟨fun _ _ h => ⟨h.geometries,h.models,h.bodies,h.markers,h.ground⟩,rfl,rfl,rfl⟩

/-- Scanning frames leaves caches alone. -/
theorem scanFrames_caches (items : List Json) (canvas : Canvas) :
    Meets (scanFrames items) canvas (fun _ after => SameCaches canvas after)
      (fun _ after => SameCaches canvas after) := by
  induction items generalizing canvas with
  | nil => exact .refl canvas
  | cons item rest ih =>
    unfold scanFrames
    rw [meets_bind,meets_ofResult]
    refine ⟨?_,fun _ _ => .refl canvas⟩
    intro id _
    rw [meets_bind,meets_ofResult]
    refine ⟨?_,fun _ _ => .refl canvas⟩
    intro motion _
    rw [meets_bind,meets_ofResult]
    refine ⟨?_,fun _ _ => .refl canvas⟩
    intro type _
    dsimp only
    rw [meets_bind]
    have hstep := sameCaches_stage canvas canvas.projection.epoch canvas.projection.parent
      canvas.projection.revision (fun key => if key=id then
        some (frameName canvas.projection (isText type "hold") id) else canvas.projection.frames key)
      (if isText type "hold" then canvas.projection.entries else canvas.projection.entries ++ [item])
    exact (ih _).mono (fun _ _ hs => hstep.trans hs) (fun _ _ hs => hstep.trans hs)

/-- Adopting a revision leaves caches alone. -/
theorem adoptRevision_caches (epoch : String) (revision : ℕ) (canvas : Canvas) :
    Meets (adoptRevision document epoch revision) canvas (fun _ after => SameCaches canvas after)
      (fun _ after => SameCaches canvas after) := by
  unfold adoptRevision
  rw [meets_bind,meets_get,meets_ite]
  refine ⟨fun _ => ?_,fun _ => .refl canvas⟩
  have hadopt := sameCaches_stage canvas epoch canvas.projection.parent revision canvas.projection.frames
    canvas.projection.entries
  rw [meets_bind]
  show Meets _ {canvas with projection := {canvas.projection with epoch := epoch, revision := revision}} _ _
  rw [meets_bind,meets_ofResult]
  refine ⟨?_,fun _ _ => hadopt⟩
  intro frame _
  rw [meets_bind]
  have hclear := sameCaches_stage canvas epoch frame revision (fun _ => none) []
  exact (scanFrames_caches _ _).mono (fun _ _ hs => hclear.trans hs) (fun _ _ hs => hclear.trans hs)

/-- A definition keeps the caches faithful and publishes the keys of its parts. -/
theorem definition_published {start epoch : String} {revision : ℕ} {message : SceneSnapshot} {canvas : Canvas}
    (h : Faithful D start canvas.projection) (ho : canvas.outputs=[]) (hm : MadeOf D document message) :
    Meets (SceneProjection.definition D document epoch revision message) canvas
      (fun _ after => Faithful D start after.projection ∧ Published D start epoch message after.outputs)
      (fun _ after => Faithful D start after.projection ∧ Published D start epoch message after.outputs) := by
  have hnone : Published D start epoch message [] := fun _ hm => by cases hm
  have hsnapshot : Published D start epoch message [.snapshot message] := by
    intro markers hm
    cases List.mem_singleton.mp hm
  unfold SceneProjection.definition
  rw [meets_bind]
  refine (prepareModels_faithful h).mono ?_ ?_
  swap
  · rintro _ after rfl
    rw [ho]
    exact ⟨h,hnone⟩
  rintro _ prepared ⟨⟨heap,hprepared⟩,hname,hout⟩
  rw [ho] at hout
  rw [meets_bind]
  refine (adoptRevision_caches epoch revision prepared).mono ?_ ?_
  swap
  · intro _ after hs
    rw [hs.outputs,hout]
    exact ⟨⟨⟨heap,hs.tidy D heap hprepared.tidy⟩,hs.namePrefix.trans hname⟩,hnone⟩
  intro _ adopted hs
  have hempty : adopted.outputs=[] := by rw [hs.outputs,hout]
  have hstart : adopted.projection.namePrefix=start := hs.namePrefix.trans hname
  have hready : Prepared D document heap adopted.projection :=
    ⟨hs.tidy D heap hprepared.tidy,by rw [hs.models]; exact hprepared.models⟩
  have hfaithful : Faithful D start adopted.projection := ⟨⟨heap,hready.tidy⟩,hstart⟩
  rw [meets_bind,meets_ofResult]
  refine ⟨?_,fun _ _ => ⟨hfaithful,by rw [hempty]; exact hnone⟩⟩
  intro geometries hgeometries
  have hnative := decodedGeometries_native hm.geometries hgeometries
  rw [meets_bind,meets_ofResult]
  refine ⟨?_,fun _ _ => ⟨hfaithful,by rw [hempty]; exact hnone⟩⟩
  intro _ _
  rw [meets_bind,meets_emit,hempty,meets_bind,meets_get,meets_bind,meets_ofResult]
  refine ⟨?_,fun _ _ => ⟨hfaithful,hsnapshot⟩⟩
  intro drawn hdrawn
  have hself := drawObstacles_agree hready hready ⟨rfl,rfl,rfl⟩ hnative message.stamp hm.obstacles
  have hdrawn' : drawObstacles D adopted.projection geometries message.stamp (itemsOf document) message.obstacles=
      .ok drawn := hdrawn
  rw [hdrawn'] at hself
  have hcached : Prepared D document heap {adopted.projection with markers := drawn.cache} :=
    ⟨⟨hready.tidy.geometries,hready.tidy.models,hready.tidy.bodies,hself.2.2.1,hready.tidy.ground⟩,hready.models⟩
  rw [meets_bind]
  show Meets _ (⟨{adopted.projection with markers := drawn.cache},[.snapshot message]⟩ : Canvas) _ _
  rw [meets_bind,meets_get,meets_bind,meets_ofResult]
  refine ⟨?_,fun _ _ => ⟨⟨⟨heap,hcached.tidy⟩,hstart⟩,hsnapshot⟩⟩
  intro ground hground
  have hgrounded := drawGround_agree hcached hcached ⟨rfl,rfl,rfl⟩ hnative epoch hm
  rw [hground] at hgrounded
  have hmarked : Faithful D start {adopted.projection with markers := drawn.cache, groundMarkers := ground.2} :=
    ⟨⟨heap,hcached.tidy.geometries,hcached.tidy.models,hcached.tidy.bodies,hcached.tidy.markers,hgrounded.2.2⟩,
      hstart⟩
  have hkeys : DefinitionKeys D start epoch message
      (addKeys (.deleteAll::(drawn.messages ++ (ground.2.map Markers.messages).getD []))) := by
    refine ⟨geometries,hgeometries,?_⟩
    have hobstacles := drawObstacles_keys hready hnative hm.obstacles hdrawn'
    have hlast := drawGround_keys hcached hnative hm hground
    dsimp only at hlast
    rw [hstart] at hlast
    rw [←hobstacles,←hlast]
    unfold addKeys
    rw [←List.filterMap_append]
    rfl
  rw [meets_bind]
  show Meets _ (⟨{adopted.projection with markers := drawn.cache, groundMarkers := ground.2},
    [.snapshot message]⟩ : Canvas) _ _
  rw [meets_ite]
  constructor
  · intro _
    rw [meets_bind,meets_emit,meets_emit]
    refine ⟨hmarked,?_⟩
    intro markers hm
    simp only [List.mem_cons,Output.markers.injEq,reduceCtorEq,List.not_mem_nil,or_false] at hm
    rw [hm]
    exact hkeys
  · intro _
    rw [meets_emit]
    refine ⟨hmarked,?_⟩
    intro markers hm
    simp only [List.mem_cons,Output.markers.injEq,reduceCtorEq,List.not_mem_nil,or_false] at hm
    rw [hm]
    exact hkeys

/-- A snapshot keeps the caches faithful. -/
theorem snapshot_faithful {start epoch : String} {revision : ℕ} {stamp : Float} {canvas : Canvas}
    (h : Faithful D start canvas.projection) :
    Meets (SceneProjection.snapshot D document epoch revision stamp) canvas
      (fun _ after => Faithful D start after.projection) (fun _ after => Faithful D start after.projection) := by
  unfold SceneProjection.snapshot
  rw [meets_bind]
  refine (prepareModels_faithful h).mono ?_ ?_
  swap
  · rintro _ after rfl
    exact h
  rintro _ prepared ⟨⟨heap,hprepared⟩,hname,_⟩
  rw [meets_bind,meets_get,meets_bind,meets_ofResult]
  refine ⟨?_,fun _ _ => ⟨⟨heap,hprepared.tidy⟩,hname⟩⟩
  intro made hmade
  have hself := snapshotMessage_agree hprepared hprepared epoch revision stamp
  rw [hmade] at hself
  exact ⟨⟨heap,hprepared.tidy.geometries,hprepared.tidy.models,hself.2.2,hprepared.tidy.markers,
    hprepared.tidy.ground⟩,hname⟩

end Drawing

section Runs

variable {D : Drawing} {X : Externals} {nameSpace : String}

/-- Every definition has a snapshot that a new projection makes of its document. -/
def Snapped (D : Drawing) (fresh : Projection) (calls : List Call) : Prop :=
  ∀ document epoch revision message, .definition document epoch revision message∈calls →
    ∃ epoch' revision' stamp, (outcome D fresh (.snapshot document epoch' revision' stamp)).1=.ok (some message)

/-- A call keeps the caches faithful. -/
theorem after_faithful {p : Projection} {start : String} (h : Faithful D start p) (call : Call)
    (hm : ∀ document epoch revision message, call=.definition document epoch revision message →
      MadeOf D document message) : Faithful D start (after D p call) := by
  have hc : Faithful D start (Canvas.mk p []).projection := h
  have hspec : Meets (call.action D) (Canvas.mk p []) (fun _ canvas => Faithful D start canvas.projection)
      (fun _ canvas => Faithful D start canvas.projection) := by
    unfold Call.action
    cases call with
    | snapshot document epoch revision stamp =>
      dsimp only
      rw [meets_bind]
      exact (snapshot_faithful hc).mono (fun _ _ hs => hs) (fun _ _ hs => hs)
    | definition document epoch revision message =>
      dsimp only
      rw [meets_bind]
      exact (definition_published hc rfl (hm document epoch revision message rfl)).mono
        (fun _ _ hs => hs.1) (fun _ _ hs => hs.1)
  exact hspec.state

/-- A run keeps the caches faithful. -/
theorem past_faithful {calls : List Call} (hs : Snapped D (newProjection X nameSpace) calls) {p : Projection}
    {start : String} (h : Faithful D start p) : Faithful D start (calls.foldl (after D) p) := by
  induction calls generalizing p with
  | nil => exact h
  | cons call rest ih =>
    have hstep : Faithful D start (after D p call) := by
      refine after_faithful h call ?_
      rintro document epoch revision message rfl
      obtain ⟨_,_,_,hmade⟩ := hs document epoch revision message (List.mem_cons_self ..)
      exact outcome_madeOf hmade
    rw [List.foldl_cons]
    exact ih (fun document epoch revision message hm => hs document epoch revision message
      (List.mem_cons_of_mem _ hm)) hstep

/-- Markers of a definition in a run have the keys of its parts. -/
theorem run_published {past : List Call} (hs : Snapped D (newProjection X nameSpace) past) {document : Json}
    {epoch : String} {revision : ℕ} {message : SceneSnapshot} (hm : MadeOf D document message) :
    Published D (newProjection X nameSpace).namePrefix epoch message
      (outcome D (past.foldl (after D) (newProjection X nameSpace))
        (.definition document epoch revision message)).2 := by
  have hfresh : Faithful D (newProjection X nameSpace).namePrefix (newProjection X nameSpace) :=
    ⟨⟨⟨fun _ => .null,fun address => ⟨address,.null,[]⟩⟩,newProjection_tidy D _ X nameSpace⟩,rfl⟩
  have hfaithful := past_faithful hs hfresh
  have hspec : Meets (SceneProjection.definition D document epoch revision message)
      (Canvas.mk (past.foldl (after D) (newProjection X nameSpace)) []) _ _ :=
    definition_published hfaithful rfl hm
  unfold outcome Call.action
  unfold Meets at hspec
  cases hrun : SceneProjection.definition D document epoch revision message
      ⟨past.foldl (after D) (newProjection X nameSpace),[]⟩ with
  | ok _ canvas =>
    rw [hrun] at hspec
    dsimp only
    rw [bind_of_ok hrun]
    exact hspec.2
  | error e canvas =>
    rw [hrun] at hspec
    dsimp only
    rw [bind_of_error hrun]
    exact hspec.2

end Runs

section Scenes

variable {D : Drawing} {X : Externals} {assets : Assets}

/-- An identifier has no slash. -/
theorem identifier_plain {value : Json} {label text : String} (h : identifier value label=.ok text) :
    '/'∉text.toList := by
  unfold identifier at h
  split at h
  · split at h
    · rename_i hmatch
      cases h
      have hwithin : Within (fun c => c ≠ '/') identifierPattern := by
        refine ⟨?_,?_⟩
        · rintro c hc rfl
          revert hc
          decide
        · rintro c hc rfl
          revert hc
          decide
      have hall := Matches.within hwithin ((matchesText_iff _ _).mp hmatch)
      exact fun hmem => hall '/' hmem rfl
    · cases h
  · cases h

/-- A text falls apart at its first slash in one way. -/
theorem slash_split {first second rest other : List Char} (hf : '/'∉first) (hs : '/'∉second)
    (h : first ++ '/' :: rest=second ++ '/' :: other) : first=second ∧ rest=other := by
  induction first generalizing second with
  | nil =>
    cases second with
    | nil => exact ⟨rfl,List.tail_eq_of_cons_eq h⟩
    | cons c second =>
      rw [List.nil_append,List.cons_append,List.cons.injEq] at h
      exact absurd (List.mem_cons.mpr (Or.inl h.1)) hs
  | cons c first ih =>
    cases second with
    | nil =>
      rw [List.nil_append,List.cons_append,List.cons.injEq] at h
      exact absurd (List.mem_cons.mpr (Or.inl h.1.symm)) hf
    | cons d second =>
      rw [List.cons_append,List.cons_append,List.cons.injEq] at h
      rw [List.mem_cons,not_or] at hf hs
      obtain ⟨hsame,hrest⟩ := ih hf.2 hs.2 h.2
      exact ⟨by rw [h.1,hsame],hrest⟩

/-- Characters of a namespace. -/
theorem partNamespace_toList (oid : String) (part : ScenePart) :
    (partNamespace oid part).toList=oid.toList ++ '/' :: part.id.toList := by
  unfold partNamespace
  rw [String.toList_append,String.toList_append,List.append_assoc]
  rfl

/-- Namespaces of identities without slashes tell the identities apart. -/
theorem partNamespace_identity {oid other : String} (ho : '/'∉oid.toList) (ht : '/'∉other.toList)
    {first second : ScenePart} (h : partNamespace oid first=partNamespace other second) : oid=other := by
  have hlists := congrArg String.toList h
  rw [partNamespace_toList,partNamespace_toList] at hlists
  exact String.toList_inj.mp (slash_split ho ht hlists).1

/-- A part of an obstacle is in the namespace of a ground part exactly when the obstacle is named like the
frames of the projection and the part like the ground part in its epoch. -/
theorem groundNamespace_iff {oid start : String} (ho : '/'∉oid.toList) (hs : '/'∉start.toList) (epoch : String)
    (part other : ScenePart) :
    partNamespace oid part=partNamespace (start ++ "/" ++ epoch ++ "/ground") other ↔
      oid=start ∧ part.id=epoch ++ "/ground/" ++ other.id := by
  have hground : (partNamespace (start ++ "/" ++ epoch ++ "/ground") other).toList=
      start.toList ++ '/' :: (epoch ++ "/ground/" ++ other.id).toList := by
    rw [partNamespace_toList]
    simp
  constructor
  · intro h
    have hlists := congrArg String.toList h
    rw [hground,partNamespace_toList] at hlists
    obtain ⟨hid,hpart⟩ := slash_split ho hs hlists
    exact ⟨String.toList_inj.mp hid,String.toList_inj.mp hpart⟩
  · rintro ⟨rfl,hpart⟩
    apply String.toList_inj.mp
    rw [hground,partNamespace_toList,hpart]

/-- Every obstacle has one identity. -/
theorem obstacleIds_forall {items : List Json} {ids : List String} (h : obstacleIds items=.ok ids) :
    List.Forall₂ (fun item id => obstacleId item=.ok id) items ids := by
  induction items generalizing ids with
  | nil =>
    cases h
    exact .nil
  | cons item rest ih =>
    unfold obstacleIds at h
    simp only [except_bind_ok] at h
    obtain ⟨id,hid,tail,htail,h⟩ := h
    cases h
    exact .cons hid (ih htail)

/-- An identity is a member of its obstacle. -/
theorem obstacleId_member {item : Json} {id : String} (h : obstacleId item=.ok id) :
    item.member "id"=some (.string id) := by
  unfold obstacleId Json.atKey at h
  cases hm : item.member "id" with
  | none =>
    rw [hm] at h
    cases h
  | some value =>
    rw [hm] at h
    cases value with
    | string text =>
      cases h
      rfl
    | _ => cases h

/-- The identity of a validated obstacle has no slash. -/
theorem obstacleId_plain {item : Json} (hi : CanonicalObstacle X.spell X.math item) {id : String}
    (h : obstacleId item=.ok id) : '/'∉id.toList := by
  obtain ⟨value,hv⟩ := hi
  have hmember := obstacleId_member h
  unfold obstacle at hv
  simp only [except_bind_ok] at hv
  obtain ⟨_,_,oid,hoid,hv⟩ := hv
  split at hv
  · cases hv
  simp only [except_bind_ok] at hv
  obtain ⟨name,_,hv⟩ := hv
  split at hv
  · cases hv
  simp only [except_bind_ok] at hv
  obtain ⟨initial,_,movement,_,_,_,shape,_,hv⟩ := hv
  cases hv
  rw [member_here] at hmember
  cases hmember
  exact identifier_plain hoid

/-- Obstacles of a validated document have different identities. -/
theorem obstacleIds_nodup {items : List Json} (h : checkObstacleSet items=.ok ()) :
    ∃ ids, obstacleIds items=.ok ids ∧ ids.Nodup := by
  unfold checkObstacleSet at h
  split at h
  · cases h
  rw [except_bind_ok] at h
  obtain ⟨ids,hids,h⟩ := h
  split at h
  · cases h
  rename_i hlength
  rw [ne_eq,not_not,(obstacleIds_forall hids).length_eq] at hlength
  have hdedup := (List.dedup_sublist ids).eq_of_length hlength
  exact ⟨ids,hids,List.dedup_eq_self.mp hdedup⟩

/-- A compiled obstacle is published under its identity. -/
theorem bodyOf_id {members : List (String × Json)} {models item compiled : Json} {id : String}
    (hid : obstacleId item=.ok id) (hc : CompiledFrom models item compiled) {body : SceneObstacle}
    (hb : BodyOf members compiled body) : body.id=id := by
  obtain ⟨model,rfl,_⟩ := hc
  obtain ⟨_,_,_,_,hmessage⟩ := hb
  have hbody := (obstacleMessage_parts hmessage).1
  have hmember : (compiledObstacle item model).member "id"=some (.string id) := by
    unfold compiledObstacle
    rw [member_here,valueOr_of_member (obstacleId_member hid)]
  rw [stringAt_of_member hmember] at hbody
  exact (Except.ok.inj hbody).symm

/-- Published obstacles carry the identities of the document in order. -/
theorem bodies_ids {members : List (String × Json)} {models : Json} {items compiled : List Json} {ids : List String}
    {bodies : List SceneObstacle} (hids : List.Forall₂ (fun item id => obstacleId item=.ok id) items ids)
    (hc : List.Forall₂ (CompiledFrom models) items compiled) (hb : List.Forall₂ (BodyOf members) compiled bodies) :
    bodies.map SceneObstacle.id=ids := by
  induction hids generalizing compiled bodies with
  | nil =>
    cases hc
    cases hb
    rfl
  | cons hhead _ ih =>
    cases hc with
    | cons hchead hctail =>
      cases hb with
      | cons hbhead hbtail => rw [List.map_cons,bodyOf_id hhead hchead hbhead,ih hctail hbtail]

/-- Messages of parts carry their identities. -/
theorem partMessages_ids {definitions : List Json} {parts : List ScenePart}
    (h : partMessages definitions=.ok parts) : parts.map ScenePart.id=definitions.map partId := by
  induction definitions generalizing parts with
  | nil =>
    cases h
    rfl
  | cons definition rest ih =>
    unfold partMessages at h
    simp only [except_bind_ok] at h
    obtain ⟨part,hpart,tail,htail,h⟩ := h
    cases h
    unfold partMessage stringAt at hpart
    simp only [except_bind_ok] at hpart
    obtain ⟨id,⟨field,hfield,htext⟩,_,_,_,_,_,_,_,_,_,_,_,_,_,_,_,_,_,_,hpart⟩ := hpart
    cases hpart
    have hid : partId definition=id := by
      unfold Json.atKey at hfield
      unfold getString orThrow at htext
      cases hm : definition.member "id" with
      | none =>
        rw [hm] at hfield
        cases hfield
      | some value =>
        rw [hm] at hfield
        cases hfield
        unfold partId
        rw [valueOr_of_member hm]
        split at htext
        · rename_i text hfound
          cases htext
          rw [hfound]
          rfl
        · cases htext
    rw [List.map_cons,List.map_cons,ih htail,hid]

/-- Parts of a compiled model are published under their identities. -/
theorem partsOf_ids {count : ℕ} {value : Json} (hf : ModelFits count value) {parts : List ScenePart}
    (h : PartsOf value parts) : parts.map ScenePart.id=partIds value := by
  obtain ⟨definitions,rest,rfl,_⟩ := hf
  obtain ⟨found,hfound,hparts⟩ := h
  rw [atKey_of_member (member_here ..)] at hfound
  cases hfound
  rw [partMessages_ids hparts]
  unfold partIds
  rw [valueOr_of_member (member_here ..)]
  rfl

/-- No obstacle that is named like the frames of the projection has a part that is named like a ground part in
the epoch and shares a marker number with it. -/
def GroundApart (D : Drawing) (start epoch : String) (message : SceneSnapshot) : Prop :=
  message.ground.mode="model" → ∀ geometries, decodedGeometries D message.geometries=.ok geometries →
    ∀ body∈message.obstacles, body.id=start → ∀ part∈body.parts, ∀ other∈message.ground.parts,
      part.id=epoch ++ "/ground/" ++ other.id → (numbersAt geometries part).Disjoint (numbersAt geometries other)

/-- Every second element of two related lists has a first one. -/
theorem exists_related {α β : Type} {related : α → β → Prop} {first : List α} {second : List β}
    (h : List.Forall₂ related first second) {b : β} (hb : b∈second) : ∃ a∈first, related a b := by
  induction h with
  | nil => cases hb
  | cons hhead _ ih =>
    rcases List.mem_cons.mp hb with rfl | hb
    · exact ⟨_,List.mem_cons_self ..,hhead⟩
    · obtain ⟨a,ha,hrelated⟩ := ih hb
      exact ⟨a,List.mem_cons_of_mem _ ha,hrelated⟩

/-- Published obstacles of a compiled document have different identities without slashes. -/
theorem madeOf_ids {q : Parts} (hq : q.Canonical X.spell X.math) {s : Scene} (hs : s.Fits X q.obstacles)
    {message : SceneSnapshot} (hm : MadeOf D s.value message) :
    (message.obstacles.map SceneObstacle.id).Nodup ∧ ∀ body∈message.obstacles, '/'∉body.id.toList := by
  obtain ⟨ids,hids,hnodup⟩ := obstacleIds_nodup hq.checked
  have hforall := obstacleIds_forall hids
  have hbodies := hm.obstacles
  have hitems : itemsOf s.value=s.obstacles := (scene_tables s).2.2
  rw [hitems] at hbodies
  have hsame := bodies_ids hforall hs.obstacles hbodies
  refine ⟨by rw [hsame]; exact hnodup,?_⟩
  intro body hb
  have hid : body.id∈ids := by
    rw [←hsame]
    exact List.mem_map_of_mem hb
  obtain ⟨item,hi,hitem⟩ := exists_related hforall hid
  exact obstacleId_plain (hq.obstacles item hi) hitem

/-- Every published model of a compiled document has its parts. -/
theorem parts_nodup {items : List Json} {s : Scene} (hs : s.Fits X items)
    (hd : ∀ m∈s.models, (partIds m.2).Nodup) {name : String} {value : Json} (hl : s.models.lookup name=some value)
    {parts : List ScenePart} (hp : PartsOf value parts) : (parts.map ScenePart.id).Nodup := by
  have hmem := SceneFingerprint.mem_of_lookup hl
  rw [partsOf_ids (hs.models (name,value) hmem) hp]
  exact hd (name,value) hmem

/-- Keys of a compiled document with different part identities are different exactly when the ground is apart. -/
theorem definitionKeys_nodup {q : Parts} (hq : q.Canonical X.spell X.math) {s : Scene} (hs : s.Fits X q.obstacles)
    (hd : ∀ m∈s.models, (partIds m.2).Nodup) {message : SceneSnapshot} (hm : MadeOf D s.value message)
    {start epoch : String} (hslash : '/'∉start.toList) {keys : List (String × ℕ)}
    (hk : DefinitionKeys D start epoch message keys) : keys.Nodup ↔ GroundApart D start epoch message := by
  obtain ⟨geometries,hgeometries,rfl⟩ := hk
  obtain ⟨hids,hplain⟩ := madeOf_ids hq hs hm
  have hmembers : membersOf s.value=s.models := (scene_tables s).2.1
  have hobstacles : (message.obstacles.flatMap (fun body => partKeys geometries body.id body.parts)).Nodup := by
    rw [List.nodup_flatMap]
    constructor
    · intro body hb
      have hforall := hm.obstacles
      rw [hmembers] at hforall
      obtain ⟨item,_,name,value,_,hlookup,hmessage⟩ := exists_related hforall hb
      exact partKeys_nodup geometries body.id (parts_nodup hs hd hlookup (obstacleMessage_parts hmessage).2)
    · rw [List.Nodup,List.pairwise_map] at hids
      refine hids.imp_of_mem ?_
      intro first second hf hsecond hne key hkey hkey'
      obtain ⟨part,_,hns,_⟩ := mem_partKeys.mp hkey
      obtain ⟨other,_,hns',_⟩ := mem_partKeys.mp hkey'
      exact hne (partNamespace_identity (hplain first hf) (hplain second hsecond) (hns.symm.trans hns'))
  have hground : (groundKeys geometries (start ++ "/" ++ epoch ++ "/ground") message.ground).Nodup := by
    unfold groundKeys
    split
    · rename_i hmode
      obtain ⟨owned,_,hmodel⟩ := hm.ground
      obtain ⟨name,value,_,hlookup,hparts⟩ := hmodel hmode
      rw [hmembers] at hlookup
      exact partKeys_nodup geometries _ (parts_nodup hs hd hlookup hparts)
    · exact List.nodup_nil
  rw [List.nodup_append]
  constructor
  · rintro ⟨_,_,hapart⟩ hmode geometries' hgeometries' body hb hid part hp other ho hname number hn hn'
    rw [hgeometries] at hgeometries'
    cases hgeometries'
    have hsame := (groundNamespace_iff (hplain body hb) hslash epoch part other).mpr ⟨hid,hname⟩
    have hfirst : (partNamespace body.id part,number)∈
        message.obstacles.flatMap (fun body => partKeys geometries body.id body.parts) :=
      List.mem_flatMap.mpr ⟨body,hb,mem_partKeys.mpr ⟨part,hp,rfl,hn⟩⟩
    have hsecond : (partNamespace body.id part,number)∈
        groundKeys geometries (start ++ "/" ++ epoch ++ "/ground") message.ground := by
      unfold groundKeys
      rw [if_pos hmode]
      exact mem_partKeys.mpr ⟨other,ho,hsame,hn'⟩
    exact hapart _ hfirst _ hsecond rfl
  · intro happart
    refine ⟨hobstacles,hground,?_⟩
    intro key hkey key' hkey' he
    subst he
    obtain ⟨body,hb,hkey⟩ := List.mem_flatMap.mp hkey
    obtain ⟨part,hp,hns,hn⟩ := mem_partKeys.mp hkey
    unfold groundKeys at hkey'
    split at hkey'
    · rename_i hmode
      obtain ⟨other,ho,hns',hn'⟩ := mem_partKeys.mp hkey'
      obtain ⟨hid,hname⟩ := (groundNamespace_iff (hplain body hb) hslash epoch part other).mp (hns.symm.trans hns')
      exact happart hmode geometries hgeometries body hb hid part hp other ho hname hn hn'
    · cases hkey'

/-- Part identities of every compiled model and the markers of every published definition are pairwise different
exactly when the pieces of every SDF resource have different words and the ground is apart. -/
theorem markers_apart_iff {directory : Option Path} {value source compiled : Json}
    (hs : SceneDocument.document X.spell X.math value=.ok source)
    (hc : compile X assets directory value=.ok compiled) {nameSpace : String}
    (hslash : '/'∉(X.digest nameSpace.toUTF8).toList) {past : List Call}
    (hpast : Snapped D (newProjection X nameSpace) past) {epoch : String} {revision : ℕ} {message : SceneSnapshot}
    (hm : ∃ epoch' revision' stamp,
      (outcome D (newProjection X nameSpace) (.snapshot compiled epoch' revision' stamp)).1=.ok (some message))
    {markers : List Marker}
    (hmarkers : .markers markers∈(outcome D (past.foldl (after D) (newProjection X nameSpace))
      (.definition compiled epoch revision message)).2) :
    ((∀ m∈(compiled.valueOr "models" .null).members, (partIds m.2).Nodup) ∧ (addKeys markers).Nodup) ↔
      (∀ m∈(source.valueOr "models" (.object [])).members, ModelApart assets (directory.getD []) m.2) ∧
        GroundApart D (newProjection X nameSpace).namePrefix epoch message := by
  have happart := compile_apart hs hc
  obtain ⟨q,_,hq,s,rfl,hfits⟩ := compile_spec hc
  obtain ⟨_,_,_,hmade⟩ := hm
  have hmadeOf := outcome_madeOf hmade
  have hkeys := run_published hpast hmadeOf markers hmarkers
  have htable : (s.value.valueOr "models" .null).members=s.models := (scene_tables s).2.1
  have hname : '/'∉(newProjection X nameSpace).namePrefix.toList := by
    show '/'∉("xgc_scene_" ++ String.ofList ((X.digest nameSpace.toUTF8).toList.take 12)).toList
    rw [String.toList_append,List.mem_append,not_or]
    refine ⟨by decide,fun hmem => hslash ?_⟩
    rw [String.toList_ofList] at hmem
    exact List.mem_of_mem_take hmem
  rw [happart.symm,htable]
  constructor
  · rintro ⟨hd,hnodup⟩
    exact ⟨hd,(definitionKeys_nodup hq hfits hd hmadeOf hname hkeys).mp hnodup⟩
  · rintro ⟨hd,hground⟩
    exact ⟨hd,(definitionKeys_nodup hq hfits hd hmadeOf hname hkeys).mpr hground⟩

end Scenes

section Sample

open SceneStore

/-- Assets with one SDF model of two boxes on two links. -/
def pairAssets (first second : String × String) : Assets where
  directory := fun path => path==["assets"]
  regular := fun path => path==["assets","pair.sdf"]
  meshes := fun _ => none
  sdf := fun _ => .root 0 [.mk "pair" [] (.ok {})
    [⟨first.1,[⟨first.2,some (.box [1,1,1]),.ok {}⟩]⟩,⟨second.1,[⟨second.2,some (.box [1,1,1]),.ok {}⟩]⟩] []]
  compose := fun pose _ => pose

/-- A document with one obstacle of the SDF model. -/
def pairDocument : Json :=
  .object [("schema",.string kSchema),("id",.string "hall"),("frame",.string "map"),
    ("obstacles",.array [.object [("id",.string "crate"),("model",.string "pair")]]),
    ("models",.object [("pair",.object [("resource",
      .object [("format",.string "sdformat-model"),("file",.string "pair.sdf")])])]),
    ("ground",.object [("mode",.string "none")])]

/-- A value of a result, or another one. -/
def okOr {α : Type} (fallback : α) (result : Except Error α) : α :=
  match result with
  | .ok a => a
  | .error _ => fallback

/-- A successful result has its value. -/
theorem okOr_eq {α : Type} (fallback : α) {result : Except Error α} (h : result.isOk=true) :
    result=.ok (okOr fallback result) := by
  cases result with
  | ok a => exact rfl
  | error e => cases h

/-- The document after validation. -/
def pairSource : Json := okOr .null (SceneDocument.document hallExternals.spell hallExternals.math pairDocument)

/-- The compiled document with the given names. -/
def pairCompiled (first second : String × String) : Json :=
  okOr .null (compile hallExternals (pairAssets first second) (some ["assets"]) pairDocument)

/-- Snapshot of the compiled document in a new projection. -/
def pairSnapshot (first second : String × String) : SceneSnapshot :=
  (okOr none (outcome boxDrawing crateProjection (.snapshot (pairCompiled first second) "e" 1 0)).1).getD
    ⟨{},"","","",0,[],{mode := "none"},[]⟩

/-- The first array of markers among some outputs. -/
def markersIn (outputs : List Output) : Option (List Marker) :=
  outputs.findSome? (fun output => match output with
    | .markers markers => some markers
    | _ => none)

/-- A found array of markers is one of the outputs. -/
theorem markersIn_mem {outputs : List Output} {markers : List Marker} (h : markersIn outputs=some markers) :
    .markers markers∈outputs := by
  obtain ⟨output,hmem,hfound⟩ := List.exists_of_findSome?_eq_some h
  split at hfound
  · cases hfound
    exact hmem
  · cases hfound

/-- Outputs of the definition of the compiled document in a new projection. -/
def pairOutputs (first second : String × String) : List Output :=
  (outcome boxDrawing crateProjection
    (.definition (pairCompiled first second) "e" 1 (pairSnapshot first second))).2

/-- Everything about the sample that evaluation decides. -/
def pairRuns (first second : String × String) : Bool :=
  (compile hallExternals (pairAssets first second) (some ["assets"]) pairDocument).isOk &&
    (outcome boxDrawing crateProjection (.snapshot (pairCompiled first second) "e" 1 0)).1.isOk &&
    (okOr none (outcome boxDrawing crateProjection (.snapshot (pairCompiled first second) "e" 1 0)).1).isSome &&
    (markersIn (pairOutputs first second)).isSome

/-- A sample that runs compiles, has a snapshot and publishes markers. -/
theorem pairRuns_spec {first second : String × String} (h : pairRuns first second=true) :
    compile hallExternals (pairAssets first second) (some ["assets"]) pairDocument=
        .ok (pairCompiled first second) ∧
      (outcome boxDrawing crateProjection (.snapshot (pairCompiled first second) "e" 1 0)).1=
        .ok (some (pairSnapshot first second)) ∧
      ∃ markers, markersIn (pairOutputs first second)=some markers := by
  unfold pairRuns at h
  rw [Bool.and_eq_true,Bool.and_eq_true,Bool.and_eq_true] at h
  obtain ⟨⟨⟨hcompile,hsnapshot⟩,hmade⟩,hmarkers⟩ := h
  refine ⟨okOr_eq _ hcompile,?_,Option.isSome_iff_exists.mp hmarkers⟩
  rw [okOr_eq none hsnapshot]
  unfold pairSnapshot
  obtain ⟨message,hmessage⟩ := Option.isSome_iff_exists.mp hmade
  rw [hmessage]
  rfl

/-- Links and collisions with different words: parts and markers are different and the ground is apart. -/
theorem markers_apart_pair : ∃ markers, .markers markers∈pairOutputs ("a","b") ("c","d") ∧
    (((∀ m∈((pairCompiled ("a","b") ("c","d")).valueOr "models" .null).members, (partIds m.2).Nodup) ∧
        (addKeys markers).Nodup) ↔
      (∀ m∈(pairSource.valueOr "models" (.object [])).members,
        ModelApart (pairAssets ("a","b") ("c","d")) ((some ["assets"]).getD []) m.2) ∧
      GroundApart boxDrawing crateProjection.namePrefix "e" (pairSnapshot ("a","b") ("c","d"))) := by
  obtain ⟨hcompile,hsnapshot,markers,hmarkers⟩ :=
    pairRuns_spec (by decide +kernel : pairRuns ("a","b") ("c","d")=true)
  have hsource : SceneDocument.document hallExternals.spell hallExternals.math pairDocument=.ok pairSource :=
    okOr_eq _ (by decide +kernel)
  have hpast : Snapped boxDrawing crateProjection [] := by
    intro _ _ _ _ hm
    cases hm
  exact ⟨markers,markersIn_mem hmarkers,markers_apart_iff hsource hcompile (by decide +kernel) hpast
    ⟨_,_,_,hsnapshot⟩ (markersIn_mem hmarkers)⟩

/-- Link `a` with collision `b_c` and link `a_b` with collision `c` have parts and markers of one identity. -/
theorem markers_clash :
    compile hallExternals (pairAssets ("a","b_c") ("a_b","c")) (some ["assets"]) pairDocument=
        .ok (pairCompiled ("a","b_c") ("a_b","c")) ∧
      (outcome boxDrawing crateProjection (.snapshot (pairCompiled ("a","b_c") ("a_b","c")) "e" 1 0)).1=
        .ok (some (pairSnapshot ("a","b_c") ("a_b","c"))) ∧
      (¬∀ m∈((pairCompiled ("a","b_c") ("a_b","c")).valueOr "models" .null).members, (partIds m.2).Nodup) ∧
      ∃ markers, .markers markers∈pairOutputs ("a","b_c") ("a_b","c") ∧ ¬(addKeys markers).Nodup := by
  obtain ⟨hcompile,hsnapshot,markers,hmarkers⟩ :=
    pairRuns_spec (by decide +kernel : pairRuns ("a","b_c") ("a_b","c")=true)
  refine ⟨hcompile,hsnapshot,by decide +kernel,markers,markersIn_mem hmarkers,?_⟩
  have hkeys : (markersIn (pairOutputs ("a","b_c") ("a_b","c"))).map addKeys=
      some [("crate/a_b_c",0),("crate/a_b_c",0)] := by decide +kernel
  rw [hmarkers] at hkeys
  rw [Option.some.inj hkeys]
  decide

end Sample

end Ros1Adapter.MarkerIdentities
