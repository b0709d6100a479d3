import Ros1Adapter.SceneDocumentNormal
import Ros1Adapter.SceneStoreReceipts

/-!
# Validity of held documents

Every document that a store keeps is one that whole-document validation would
build, as long as additions and updates name only models of the current
document. The edits themselves check an obstacle on its own and the obstacle
set, but not its model.
-/

namespace Ros1Adapter.SceneStoreValid

open SceneJson SceneDocument SceneDocumentNormal SceneFiles SceneStore SceneStoreSaving SceneStoreSteps
  SceneStoreReceipts ActionRules

section Sets

/-- Limits and identity uniqueness, written out. -/
theorem checkObstacleSet_iff (items : List Json) : checkObstacleSet items=.ok () ↔
    items.length≤512 ∧ (∃ ids, obstacleIds items=.ok ids ∧ ids.Nodup) ∧ partCount items≤4096 := by
  have hlength : ∀ {items ids}, obstacleIds items=.ok ids → ids.length=items.length := by
    intro items ids h
    induction items generalizing ids with
    | nil =>
      cases h
      rfl
    | cons item rest ih =>
      unfold obstacleIds at h
      simp only [except_bind_ok] at h
      obtain ⟨id,_,tail,htail,h⟩ := h
      cases h
      rw [List.length_cons,List.length_cons,ih htail]
  unfold checkObstacleSet
  constructor
  · intro h
    split at h
    · cases h
    rename_i hcount
    rw [except_bind_ok] at h
    obtain ⟨ids,hids,h⟩ := h
    split at h
    · cases h
    rename_i hunique
    split at h
    · cases h
    rename_i hparts
    have heq : ids.dedup.length=ids.length := (not_not.mp hunique).trans (hlength hids).symm
    have hself : ids.dedup=ids := (List.dedup_sublist ids).eq_of_length heq
    exact ⟨by omega,⟨ids,hids,List.dedup_eq_self.mp hself⟩,by omega⟩
  · rintro ⟨hcount,⟨ids,hids,hnodup⟩,hparts⟩
    have hunique : ¬ids.dedup.length≠items.length := by
      rw [List.dedup_eq_self.mpr hnodup,hlength hids]
      exact not_not.mpr rfl
    rw [if_neg (by omega),hids,ok_bind,if_neg hunique,if_neg (by omega)]

/-- Identities of fewer obstacles are fewer identities. -/
theorem obstacleIds_sublist {kept items : List Json} (h : kept.Sublist items) {ids : List String}
    (hids : obstacleIds items=.ok ids) : ∃ fewer, obstacleIds kept=.ok fewer ∧ fewer.Sublist ids := by
  induction h generalizing ids with
  | slnil => exact ⟨ids,hids,List.Sublist.refl _⟩
  | cons item _ ih =>
    unfold obstacleIds at hids
    simp only [except_bind_ok] at hids
    obtain ⟨id,_,tail,htail,hids⟩ := hids
    cases hids
    obtain ⟨fewer,hfewer,hsub⟩ := ih htail
    exact ⟨fewer,hfewer,hsub.cons id⟩
  | cons_cons item _ ih =>
    unfold obstacleIds at hids
    simp only [except_bind_ok] at hids
    obtain ⟨id,hid,tail,htail,hids⟩ := hids
    cases hids
    obtain ⟨fewer,hfewer,hsub⟩ := ih htail
    refine ⟨id::fewer,?_,hsub.cons_cons id⟩
    rw [obstacleIds,hid,ok_bind,hfewer]
    rfl

/-- Set checks pass on fewer obstacles. -/
theorem checkObstacleSet_sublist {kept items : List Json} (h : kept.Sublist items)
    (hc : checkObstacleSet items=.ok ()) : checkObstacleSet kept=.ok () := by
  rw [checkObstacleSet_iff] at hc ⊢
  obtain ⟨hcount,⟨ids,hids,hnodup⟩,hparts⟩ := hc
  obtain ⟨fewer,hfewer,hsub⟩ := obstacleIds_sublist h hids
  refine ⟨h.length_le.trans hcount,⟨fewer,hfewer,hnodup.sublist hsub⟩,le_trans ?_ hparts⟩
  exact (h.map _).sum_le_sum (fun _ _ => Nat.zero_le _)

/-- Elements of an updated list. -/
theorem mem_replaceFirst {test : Json → Bool} {replacement item : Json} {items : List Json}
    (h : item∈replaceFirst test replacement items) : item=replacement ∨ item∈items := by
  induction items with
  | nil => cases h
  | cons first rest ih =>
    unfold replaceFirst at h
    split at h
    · rcases List.mem_cons.mp h with he | hm
      · exact Or.inl he
      · exact Or.inr (List.mem_cons_of_mem _ hm)
    · rcases List.mem_cons.mp h with he | hm
      · exact Or.inr (he ▸ List.mem_cons_self ..)
      · exact (ih hm).imp_right (List.mem_cons_of_mem _)

end Sets

section Edits

variable {X : Externals}

/-- The obstacle of a request names no model or one that the document defines. -/
def modelDefined (document request : Json) : Bool :=
  match (request.valueOr "obstacle" .null).member "model" with
  | some (.string name) => (document.valueOr "models" (.object [])).contains name
  | _ => true

/-- The model of a canonical obstacle is the one of its source. -/
theorem obstacle_model {spell : Float → String} {math : Math} {value item model : Json}
    (h : obstacle spell math value=.ok item) (hm : item.member "model"=some model) :
    ∃ name, model=.string name ∧ value.member "model"=some (.string name) := by
  obtain ⟨oid,name,initial,movement,shape,rfl,_,_,hshape⟩ := obstacle_members h
  unfold obstacleShape at hshape
  split at hshape
  · rename_i found hfound
    rw [except_bind_ok] at hshape
    obtain ⟨text,htext,hshape⟩ := hshape
    cases hshape
    have htype : found=.string text := by
      unfold identifier at htext
      split at htext
      · split at htext
        · cases htext
          rfl
        · cases htext
      · cases htext
    simp only [ne_eq,String.reduceEq,not_false_eq_true,member_next,member_here,Option.some.injEq] at hm
    exact ⟨text,hm.symm,by rw [hfound,htype]⟩
  · rw [except_bind_ok] at hshape
    obtain ⟨parts,_,hshape⟩ := hshape
    cases hshape
    simp at hm

/-- A placed obstacle with a defined model gives a canonical document. -/
theorem placeObstacle_canonical {adds : Bool} {document request candidate : Json}
    (hd : Canonical X.spell X.math document) (hm : modelDefined document request=true)
    (h : placeObstacle X adds document request=.ok candidate) : Canonical X.spell X.math candidate := by
  obtain ⟨p,rfl,hp⟩ := hd
  obtain ⟨_,_,_,hobstacles,hmodels,_⟩ := p.members
  unfold placeObstacle at h
  have hitems : (p.document.valueOr "obstacles" .null).items=p.obstacles := by
    unfold Json.valueOr
    rw [hobstacles]
    rfl
  rw [hitems] at h
  simp only [except_bind_ok] at h
  obtain ⟨replacement,hreplacement,h⟩ := h
  split at h
  · cases h
  split at h
  · cases h
  rw [except_bind_ok] at h
  obtain ⟨_,hchecked,h⟩ := h
  cases h
  have hknown : modelKnown p.defined replacement=true := by
    unfold modelKnown
    split
    · rename_i name hname
      obtain ⟨found,hfound,hsource⟩ := obstacle_model hreplacement hname
      cases hfound
      unfold modelDefined at hm
      rw [hsource] at hm
      unfold Json.valueOr at hm
      rw [hmodels] at hm
      exact hm
    · rename_i model hne hmodel
      obtain ⟨found,hfound,_⟩ := obstacle_model hreplacement hmodel
      exact absurd hfound (hne found)
    · rfl
  have hplaced : ∀ item∈(if adds=true then p.obstacles ++ [replacement]
      else replaceFirst (sameId (replacement.valueOr "id" .null)) replacement p.obstacles),
      item=replacement ∨ item∈p.obstacles := by
    intro item hi
    split at hi
    · rcases List.mem_append.mp hi with hi | hi
      · exact Or.inr hi
      · exact Or.inl (List.mem_singleton.mp hi)
    · exact mem_replaceFirst hi
  refine canonical_set_obstacles hp ?_ hchecked ?_
  · intro item hi
    rcases hplaced item hi with rfl | hi
    · exact ⟨_,hreplacement⟩
    · exact hp.obstacles item hi
  · rw [List.all_eq_true]
    intro item hi
    rcases hplaced item hi with rfl | hi
    · exact hknown
    · exact List.all_eq_true.mp hp.known item hi

/-- A deletion gives a canonical document. -/
theorem removeObstacle_canonical {document request candidate : Json}
    (hd : Canonical X.spell X.math document) (h : removeObstacle document request=.ok candidate) :
    Canonical X.spell X.math candidate := by
  obtain ⟨p,rfl,hp⟩ := hd
  obtain ⟨_,_,_,hobstacles,_,_⟩ := p.members
  unfold removeObstacle at h
  have hitems : (p.document.valueOr "obstacles" .null).items=p.obstacles := by
    unfold Json.valueOr
    rw [hobstacles]
    rfl
  rw [hitems] at h
  simp only [except_bind_ok] at h
  obtain ⟨id,_,h⟩ := h
  split at h
  · cases h
  cases h
  have hsub := List.filter_sublist (p := fun item => !sameId (.string id) item) (l := p.obstacles)
  refine canonical_set_obstacles hp ?_ (checkObstacleSet_sublist hsub hp.checked) ?_
  · intro item hi
    exact hp.obstacles item (hsub.subset hi)
  · rw [List.all_eq_true]
    intro item hi
    exact List.all_eq_true.mp hp.known item (hsub.subset hi)

/-- Every edit of a canonical document gives a canonical document, if the model
of a placed obstacle is defined. -/
theorem editCandidate_canonical {operation : Operation} {document request candidate : Json}
    (hd : Canonical X.spell X.math document)
    (hm : operation=.add ∨ operation=.update → modelDefined document request=true)
    (h : editCandidate X operation document request=.ok candidate) :
    Canonical X.spell X.math candidate := by
  cases operation with
  | add => exact placeObstacle_canonical hd (hm (Or.inl rfl)) h
  | update => exact placeObstacle_canonical hd (hm (Or.inr rfl)) h
  | delete => exact removeObstacle_canonical hd h
  | clear =>
    obtain ⟨p,rfl,hp⟩ := hd
    cases h
    exact canonical_set_obstacles hp (by simp) rfl rfl
  | replace => exact document_canonical h
  | _ => cases h

end Edits

section Runs

variable {σ : Type} {X : Externals} {hooks : Hooks σ} {io : CommandIo} {request : Json}

/-- Every document that a store keeps satisfies a predicate. -/
structure Holds (valid : Json → Prop) (s : Store) : Prop where
  /-- The current document. -/
  document : valid s.document
  /-- The document of the last save or load. -/
  savedDocument : valid s.savedDocument
  /-- Documents to undo. -/
  undoStack : ∀ document∈s.undoStack, valid document
  /-- Documents to redo. -/
  redoStack : ∀ document∈s.redoStack, valid document
  /-- Documents of retained receipts. -/
  receipts : ∀ node∈s.requests, valid node.2.document

/-- Stronger predicates hold of the same documents. -/
theorem Holds.mono {valid weaker : Json → Prop} {s : Store} (h : Holds valid s)
    (hv : ∀ document, valid document → weaker document) : Holds weaker s :=
  ⟨hv _ h.document,hv _ h.savedDocument,fun d hd => hv d (h.undoStack d hd),
    fun d hd => hv d (h.redoStack d hd),fun node hn => hv _ (h.receipts node hn)⟩

/-- An addition or an update names only a model that the document defines. -/
def ModelsDefined (w : World σ) : Step → Prop
  | .command _ request => operationOf request=.add ∨ operationOf request=.update →
      modelDefined w.store.document request=true
  | .external _ _ => True

/-- Quiet effects keep the held documents. -/
theorem quiet_holds {valid : Json → Prop} (w t : World σ) (h : Holds valid w.store)
    (hs : Quiet X hooks io request w t) : Holds valid t.store := by
  cases hs with
  | completed => exact ⟨h.document,h.document,h.undoStack,h.redoStack,h.receipts⟩
  | _ => exact ⟨h.document,h.savedDocument,h.undoStack,h.redoStack,h.receipts⟩

/-- Entries of a pushed stack. -/
theorem mem_pushUndo {stack : List Json} {document entry : Json} (h : entry∈pushUndo stack document) :
    entry∈stack ∨ entry=document := by
  unfold pushUndo at h
  split at h
  · simpa using List.mem_of_mem_drop h
  · simpa using h

/-- An accepted proposal is canonical and so are the documents held afterwards. -/
theorem accepted_holds {w t : World σ} (h : Holds (Canonical X.spell X.math) w.store)
    (hm : operationOf request=.add ∨ operationOf request=.update →
      modelDefined w.store.document request=true)
    (ha : Accepted X hooks request w t) : Holds (Canonical X.spell X.math) t.store := by
  cases ha with
  | applied hp hh =>
    cases hp with
    | resync => exact ⟨h.document,h.savedDocument,h.undoStack,h.redoStack,h.receipts⟩
    | reload ho hs hc hl =>
      unfold loadBytes at hl
      simp only [except_bind_ok] at hl
      obtain ⟨value,_,document,hdocument,hl⟩ := hl
      cases hl
      have hcanonical := document_canonical hdocument
      exact ⟨hcanonical,hcanonical,by simp,by simp,h.receipts⟩
    | undo ho hs =>
      have hlast := List.mem_of_getLast? hs
      refine ⟨h.undoStack _ hlast,h.savedDocument,?_,?_,h.receipts⟩
      · intro document hd
        exact h.undoStack document (List.mem_of_mem_dropLast hd)
      · intro document hd
        rcases List.mem_append.mp hd with hd | hd
        · exact h.redoStack document hd
        · rw [List.mem_singleton.mp hd]
          exact h.document
    | redo ho hs =>
      have hlast := List.mem_of_getLast? hs
      refine ⟨h.redoStack _ hlast,h.savedDocument,?_,?_,h.receipts⟩
      · intro document hd
        rcases List.mem_append.mp hd with hd | hd
        · exact h.undoStack document hd
        · rw [List.mem_singleton.mp hd]
          exact h.document
      · intro document hd
        exact h.redoStack document (List.mem_of_mem_dropLast hd)
    | edit hc hn =>
      refine ⟨editCandidate_canonical h.document hm hc,h.savedDocument,?_,by simp,h.receipts⟩
      intro document hd
      rcases mem_pushUndo hd with hd | rfl
      · exact h.undoStack document hd
      · exact h.document
  | @moved client operation =>
    obtain ⟨playing,elapsed,startedAt,client',hmoved⟩ := movedWorld_shape hooks operation w client
    rw [hmoved]
    exact ⟨h.document,h.savedDocument,h.undoStack,h.redoStack,h.receipts⟩

/-- An operation on a document with defined models keeps canonical documents. -/
theorem progress_holds {w t : World σ} (h : Holds (Canonical X.spell X.math) w.store)
    (hm : operationOf request=.add ∨ operationOf request=.update →
      modelDefined w.store.document request=true)
    (hp : Progress X hooks io request w t) : Holds (Canonical X.spell X.math) t.store := by
  obtain ⟨q,m,hwq,hqm,hmt⟩ := hp
  have hq : Holds (Canonical X.spell X.math) q.store :=
    quiets_preserves (P := fun u => Holds (Canonical X.spell X.math) u.store) quiet_holds hwq h
  have hdefined : operationOf request=.add ∨ operationOf request=.update →
      modelDefined q.store.document request=true := by
    rw [quiets_document hwq]
    exact hm
  have hm' : Holds (Canonical X.spell X.math) m.store := by
    rcases hqm with rfl | hacc
    · exact hq
    · exact accepted_holds hq hdefined hacc
  exact quiets_preserves (P := fun u => Holds (Canonical X.spell X.math) u.store) quiet_holds hmt hm'

/-- A step on a document with defined models keeps canonical documents. -/
theorem step_holds (w : World σ) (step : Step) (h : Holds (Canonical X.spell X.math) w.store)
    (hm : ModelsDefined w step) : Holds (Canonical X.spell X.math) (stepWorld X hooks w step).store := by
  cases step with
  | external path content => exact h
  | command io request =>
    dsimp only [stepWorld]
    have ho := command_outcome X hooks io request w
    generalize command X hooks io request w=result at ho
    cases ho with
    | answered success error hfresh =>
      rw [resultLocked_store]
      exact h
    | @replayed node hreplay =>
      obtain ⟨id,_,hf⟩ := admission_replay hreplay
      refine ⟨h.document,h.savedDocument,h.undoStack,h.redoStack,?_⟩
      intro other hother
      unfold splice at hother
      rcases List.mem_append.mp hother with ho | ho
      · exact h.receipts other (List.mem_of_mem_filter ho)
      · rw [List.mem_singleton.mp ho]
        exact h.receipts node (findReceipt_mem hf)
    | performed hfresh =>
      have hp := progress_holds h hm (finished_progress X hooks io request w)
      refine ⟨hp.document,hp.savedDocument,hp.undoStack,hp.redoStack,?_⟩
      intro node hn
      rcases mem_retain hn with hold | rfl
      · exact hp.receipts node hold
      · exact hp.document

/-- A new store holds the document it validated. -/
theorem opened_holds {arguments : StoreArguments} {files : Files} {w : World σ}
    (h : Opened X arguments files w) : Holds (Canonical X.spell X.math) w.store := by
  obtain ⟨source,input,given,digests,startedAt,_,hdocument,_,hstore⟩ := h.input
  have hcanonical := document_canonical hdocument
  generalize w.store.document=document at hstore hcanonical
  rw [hstore]
  exact ⟨hcanonical,hcanonical,by simp [openStore],by simp [openStore],by simp [openStore]⟩

/-- The whole-document validator accepts a document. -/
def Accepts (X : Externals) (document : Json) : Prop :=
  ∃ result, SceneDocument.document X.spell X.math document=.ok result

/-- In every run of a constructed store in which additions and updates name only
defined models, whole-document validation accepts every document that the store
holds: the current and the saved one, those to undo and redo, and those of
retained receipts. -/
theorem run_documents_valid (laws : MathLaws X.math False) {arguments : StoreArguments} {files : Files}
    {client : σ} {w : World σ} (h : construct X hooks arguments files client=.ok w) {steps : List Step}
    (ha : Along (stepWorld X hooks) ModelsDefined w steps) :
    Holds (Accepts X) (run (stepWorld X hooks) w steps).store := by
  have hrun : Holds (Canonical X.spell X.math) (run (stepWorld X hooks) w steps).store :=
    run_invariant (fun u step hu hs => step_holds u step hu hs) (opened_holds (construct_opened h)) ha
  refine hrun.mono ?_
  intro document hd
  obtain ⟨again,hagain,_⟩ := canonical_again laws hd
  exact ⟨again,hagain⟩

end Runs

section Sample

/-- Arithmetic under which unit quaternions stay, without library geometry. -/
def unitMath : Math := {sampleMath with sqrt := fun _ => 1, div := fun x _ => x}

/-- Normalization with a unit norm changes nothing. -/
theorem unitMath_normalise (rotation : List Float) : normalise unitMath rotation=.ok rotation := by
  have hnorm : ¬(1 : Float)<1e-12 := by decide +kernel
  unfold normalise
  dsimp only [unitMath]
  rw [if_neg hnorm,List.map_id']

/-- The sample arithmetic keeps its laws, whether or not conversions are exact. -/
theorem unitMath_laws (unchanged : Prop) : MathLaws unitMath unchanged := by
  refine ⟨?_,?_,?_⟩
  · intro rotation unit hb hu
    rw [unitMath_normalise] at hu
    cases hu
    exact ⟨hb,rotation,unitMath_normalise rotation,fun _ => rfl⟩
  · intro vertices indices triangles hmesh
    cases hmesh
  · intro kind declared value result hdeclared
    cases hdeclared

/-- Externals of the sample with unit quaternions. -/
def unitExternals : Externals := {hallExternals with math := unitMath}

/-- A scene that defines one model. -/
def crateScene : Json :=
  .object [("schema",.string kSchema),("id",.string "hall"),("frame",.string "map"),
    ("obstacles",.array []),("models",.object [("crate",.object [("resource",
      .object [("format",.string "gltf"),("file",.string "crate.glb")])])])]

/-- A request to add a crate. -/
def addCrate (id : String) (revision : ℕ) : Json :=
  sampleRequest "add" id revision [("obstacle",.object [("id",.string "box"),("model",.string "crate")])]

/-- A sample store over a given scene. -/
def unitWorld (scene : Json) : World Unit :=
  openedSample unitExternals {hallArguments with initial := scene} (filesOf [] [["scenes"]])

/-- A crate is added to a scene that defines its model, and the addition is undone. -/
theorem run_documents_valid_crate :
    Along (stepWorld unitExternals acceptingHooks) ModelsDefined (unitWorld crateScene)
        [.command {} (addCrate "a" 1),.command {} (sampleRequest "undo" "b" 2 [])] ∧
      Holds (Accepts unitExternals) (run (stepWorld unitExternals acceptingHooks) (unitWorld crateScene)
        [.command {} (addCrate "a" 1),.command {} (sampleRequest "undo" "b" 2 [])]).store := by
  have hopen : construct unitExternals acceptingHooks {hallArguments with initial := crateScene}
      (filesOf [] [["scenes"]]) ()=.ok (unitWorld crateScene) := rfl
  have halong : Along (stepWorld unitExternals acceptingHooks) ModelsDefined (unitWorld crateScene)
      [.command {} (addCrate "a" 1),.command {} (sampleRequest "undo" "b" 2 [])] := by
    refine ⟨fun _ => ?_,fun h => ?_,trivial⟩
    · decide +kernel
    · revert h
      decide
  exact ⟨halong,run_documents_valid (unitMath_laws False) hopen halong⟩

/-- A crate is added to a scene that does not define its model: the command
succeeds, and the document it leaves is refused by whole-document validation. -/
theorem undefined_model_committed :
    (command hallExternals acceptingHooks {} (addCrate "a" 1) hallWorld).1.member "success"=
        some (.boolean true) ∧
      (match SceneDocument.document hallExternals.spell hallExternals.math
          (command hallExternals acceptingHooks {} (addCrate "a" 1) hallWorld).2.store.document with
        | .ok _ => none
        | .error error => some error.what)=some "Obstacle model is not defined" := by
  refine ⟨?_,?_⟩ <;> decide +kernel

end Sample

end Ros1Adapter.SceneStoreValid
