import Ros1Adapter.SceneNode
import Ros1Adapter.SceneStoreReceipts
import Ros1Adapter.SceneStoreValid
import Ros1Adapter.SceneValues

/-!
# Public receipts are stable

The node keeps the public members of a result beside the store's receipt. The
store's receipts equal themselves, so a request that is submitted again is
recognized and gets its first public value. Only a request whose identity has
no public members yet gets new ones, and a full table loses only members of
requests that the store dropped.
-/

namespace Ros1Adapter.SceneNodeReceipts

open SceneJson SceneJsonText SceneDocument SceneFiles SceneFingerprint SceneStore SceneStoreSteps SceneStoreReceipts
  SceneStoreValid SceneNode SceneProjection SceneValues DoubleSums ActionRules

section Values

/-- An assignment keeps keys apart. -/
theorem setMember_keys (key : String) (item : Json) (members : List (String × Json)) :
    (Json.setMember key item members).map Prod.fst=
      if key∈members.map Prod.fst then members.map Prod.fst else members.map Prod.fst ++ [key] := by
  induction members with
  | nil => rfl
  | cons m rest ih =>
    obtain ⟨k,v⟩ := m
    unfold Json.setMember
    by_cases here : k=key
    · have present : key∈((k,v)::rest).map Prod.fst := by
        simp [here]
      rw [if_pos here,if_pos present]
      rfl
    · rw [if_neg here,List.map_cons,ih]
      by_cases there : key∈rest.map Prod.fst
      · have present : key∈((k,v)::rest).map Prod.fst := List.mem_cons_of_mem _ there
        rw [if_pos there,if_pos present]
        rfl
      · have absent : key∉((k,v)::rest).map Prod.fst := by
          intro member
          rcases List.mem_cons.mp member with same | later
          · exact here same.symm
          · exact there later
        rw [if_neg there,if_neg absent]
        rfl

/-- An assignment of a sane value keeps an object sane. -/
theorem sane_setMember {members : List (String × Json)} (h : sane (.object members)=true) (key : String) {item : Json}
    (hi : sane item=true) : sane (.object (Json.setMember key item members))=true := by
  obtain ⟨apart,values⟩ := sane_object.mp h
  refine sane_object.mpr ⟨?_,fun m member => ?_⟩
  · rw [setMember_keys]
    split
    · exact apart
    · next absent => exact List.nodup_append.mpr ⟨apart,List.nodup_singleton _,fun a first b last => by
        rw [List.mem_singleton.mp last]
        exact fun same => absent (same ▸ first)⟩
  · rcases SceneCompile.mem_setMember member with old | new
    · exact values m old
    · rw [new]
      exact hi

/-- Objects stay sane under assignment. -/
theorem sane_set {value : Json} (h : sane value=true) (key : String) {item : Json} (hi : sane item=true) :
    sane (value.set key item)=true := by
  cases value with
  | object members => exact sane_setMember h key hi
  | null =>
    show sane (.object [(key,item)])=true
    rw [sane_object]
    exact ⟨by simp,by simpa using hi⟩
  | _ => exact h

/-- Members of a sane value are sane. -/
theorem sane_valueOr {value : Json} (h : sane value=true) (key : String) : sane (value.valueOr key .null)=true := by
  cases value with
  | object members =>
    show sane ((members.lookup key).getD .null)=true
    cases found : members.lookup key with
    | none => simp [sane]
    | some item =>
      obtain ⟨before,after,shape,-⟩ := List.lookup_eq_some_iff.mp found
      have member : (key,item)∈members := by
        rw [shape]
        exact List.mem_append.mpr (Or.inr (List.mem_cons_self ..))
      exact (sane_object.mp h).2 (key,item) member
  | _ => simp [Json.valueOr,Json.member,sane]

mutual
/-- A sane value has unique keys. -/
theorem sane_unique : ∀ value : Json, sane value=true → uniqueKeys value=true
  | .null,_ => by simp [uniqueKeys]
  | .boolean _,_ => by simp [uniqueKeys]
  | .integer _,_ => by simp [uniqueKeys]
  | .float _,_ => by simp [uniqueKeys]
  | .string _,_ => by simp [uniqueKeys]
  | .array items,h => by
    rw [sane] at h
    rw [uniqueKeys]
    exact saneItems_unique items h
  | .object members,h => by
    rw [sane,Bool.and_eq_true] at h
    rw [uniqueKeys,Bool.and_eq_true]
    exact ⟨h.1,saneMembers_unique members h.2⟩

/-- Sane elements have unique keys. -/
theorem saneItems_unique : ∀ items : List Json, saneItems items=true → uniqueItems items=true
  | [],_ => by rw [uniqueItems]
  | item::rest,h => by
    rw [saneItems,Bool.and_eq_true] at h
    rw [uniqueItems,Bool.and_eq_true]
    exact ⟨sane_unique item h.1,saneItems_unique rest h.2⟩

/-- Sane member values have unique keys. -/
theorem saneMembers_unique : ∀ members : List (String × Json), saneMembers members=true → uniqueMembers members=true
  | [],_ => by rw [uniqueMembers]
  | (_,value)::rest,h => by
    rw [saneMembers,Bool.and_eq_true] at h
    rw [uniqueMembers,Bool.and_eq_true]
    exact ⟨sane_unique value h.1,saneMembers_unique rest h.2⟩
end

end Values

section Stores

variable {X : Externals}

/-- What values from outside rely on: the mathematics library, and objects with
unique keys from YAML. -/
structure InputLaws (X : Externals) : Prop where
  /-- Mathematics library. -/
  math : ValueLaws X.math
  /-- Objects of a YAML text have unique keys. -/
  yaml : ∀ bytes value, X.parseYaml bytes=.ok value → uniqueKeys value=true

/-- Documents of files are sane. -/
theorem sane_loaded (laws : InputLaws X) {bytes : ByteArray} {loaded : Json × String} (h : loadBytes X bytes=.ok loaded) :
    sane loaded.1=true := by
  unfold loadBytes at h
  simp only [except_bind_ok] at h
  obtain ⟨value,parsed,document,built,h⟩ := h
  rw [← Except.ok.inj h]
  exact sane_document laws.math (laws.yaml bytes value parsed) built

/-- Edits of sane documents are sane. -/
theorem sane_edit (laws : InputLaws X) {operation : Operation} {document request candidate : Json}
    (hd : sane document=true) (hu : uniqueKeys request=true) (h : editCandidate X operation document request=.ok candidate) :
    sane candidate=true := by
  have obstacles : ∀ item∈(document.valueOr "obstacles" .null).items, sane item=true := by
    have whole := sane_valueOr hd "obstacles"
    intro item member
    cases value : document.valueOr "obstacles" .null with
    | array items =>
      rw [value] at whole member
      exact sane_array.mp whole item member
    | _ =>
      rw [value] at member
      cases member
  have place : ∀ adds, placeObstacle X adds document request=.ok candidate → sane candidate=true := by
    intro adds placed
    unfold placeObstacle at placed
    simp only [except_bind_ok] at placed
    obtain ⟨replacement,built,placed⟩ := placed
    split at placed
    · cases placed
    split at placed
    · cases placed
    simp only [except_bind_ok] at placed
    obtain ⟨_,_,placed⟩ := placed
    rw [← Except.ok.inj placed]
    have new := sane_obstacle laws.math built
    refine sane_set hd _ (sane_array.mpr (fun item member => ?_))
    split at member
    · rcases List.mem_append.mp member with old | last
      · exact obstacles item old
      · rw [List.mem_singleton.mp last]
        exact new
    · rcases mem_replaceFirst member with same | old
      · rw [same]
        exact new
      · exact obstacles item old
  cases operation with
  | add => exact place true h
  | update => exact place false h
  | delete =>
    change removeObstacle document request=.ok candidate at h
    unfold removeObstacle at h
    simp only [except_bind_ok] at h
    obtain ⟨id,_,h⟩ := h
    split at h
    · cases h
    rw [← Except.ok.inj h]
    exact sane_set hd _ (sane_array.mpr (fun item member => obstacles item (List.mem_of_mem_filter member)))
  | clear =>
    rw [← Except.ok.inj h]
    exact sane_set hd _ (sane_array.mpr nofun)
  | replace =>
    refine sane_document laws.math ?_ h
    cases request with
    | object members =>
      rw [uniqueKeys,Bool.and_eq_true] at hu
      show uniqueKeys ((members.lookup "document").getD .null)=true
      cases found : members.lookup "document" with
      | none => simp [uniqueKeys]
      | some item => exact uniqueMembers_lookup hu.2 found
    | _ => simp [Json.valueOr,Json.member,uniqueKeys]
  | _ => cases h

/-- Documents and time of a store are sane. -/
structure SaneMembers (s : Store) : Prop where
  /-- Current document. -/
  document : sane s.document=true
  /-- Documents to undo. -/
  undo : ∀ document∈s.undoStack, sane document=true
  /-- Documents to redo. -/
  redo : ∀ document∈s.redoStack, sane document=true
  /-- Scene time of the last motion command. -/
  elapsed : NonNegative s.elapsed

/-- Documents, time and receipts of a store are sane. -/
structure SaneStore (s : Store) : Prop where
  /-- Documents and time. -/
  members : SaneMembers s
  /-- Receipts. -/
  receipts : ∀ node∈s.requests, sane (receiptValue node.2)=true

variable {σ : Type} {hooks : Hooks σ} {io : CommandIo} {request : Json}

/-- The scene time does not go below zero. -/
theorem sceneTime_nonNegative {w : World σ} (h : NonNegative w.store.elapsed) :
    NonNegative (sceneTimeLocked hooks w).1 := by
  unfold sceneTimeLocked
  split
  · refine h.add ?_
    split
    · next ahead => exact nonNegative_of_pos ahead
    · exact nonNegative_zero
  · exact h.add nonNegative_zero

/-- Quiet effects keep documents and time. -/
theorem quiet_sane {w t : World σ} (h : SaneMembers w.store) (hq : Quiet X hooks io request w t) : SaneMembers t.store := by
  cases hq <;> exact ⟨h.document,h.undo,h.redo,h.elapsed⟩

/-- Accepted calls keep documents and time sane. -/
theorem accepted_sane (laws : InputLaws X) (hu : uniqueKeys request=true) {w t : World σ} (h : SaneMembers w.store)
    (ha : Accepted X hooks request w t) : SaneMembers t.store := by
  cases ha with
  | applied hp hh =>
    cases hp with
    | resync => exact ⟨h.document,h.undo,h.redo,h.elapsed⟩
    | reload ho hs hc hl => exact ⟨sane_loaded laws hl,nofun,nofun,h.elapsed⟩
    | undo ho hs =>
      refine ⟨h.undo _ (List.mem_of_getLast? hs),fun d member => h.undo d (List.mem_of_mem_dropLast member),?_,h.elapsed⟩
      intro d member
      rcases List.mem_append.mp member with old | last
      · exact h.redo d old
      · rw [List.mem_singleton.mp last]
        exact h.document
    | redo ho hs =>
      refine ⟨h.redo _ (List.mem_of_getLast? hs),?_,fun d member => h.redo d (List.mem_of_mem_dropLast member),h.elapsed⟩
      intro d member
      rcases List.mem_append.mp member with old | last
      · exact h.undo d old
      · rw [List.mem_singleton.mp last]
        exact h.document
    | edit hc hn =>
      refine ⟨sane_edit laws h.document hu hc,?_,nofun,h.elapsed⟩
      intro d member
      rcases mem_pushUndo member with old | last
      · exact h.undo d old
      · rw [last]
        exact h.document
  | @moved client operation =>
    obtain ⟨playing,elapsed,startedAt,client',shape⟩ := movedWorld_shape hooks operation w client
    have time : NonNegative (movedWorld hooks operation w client).store.elapsed := by
      unfold movedWorld
      simp only
      split
      · exact nonNegative_zero
      · exact sceneTime_nonNegative h.elapsed
    rw [shape] at time ⊢
    exact ⟨h.document,h.undo,h.redo,time⟩

/-- Results of sane stores are sane. -/
theorem sane_result (success : Bool) (error : String) {w : World σ} (h : SaneMembers w.store) :
    sane (resultLocked hooks success error w).1=true := by
  have status : sane (statusLocked w.store)=true := by
    unfold statusLocked
    simp [sane,saneMembers]
  have envelope : sane (envelopeLocked hooks w).1=true := by
    unfold envelopeLocked
    refine sane_set (sane_set status _ ?_) _ h.document
    rw [sane]
    exact (sceneTime_nonNegative h.elapsed).self
  unfold resultLocked
  simp only
  split
  · exact sane_set envelope _ (by simp [sane])
  · exact sane_set (sane_set envelope _ (by simp [sane])) _ (sane_string _)

/-- The result of an operation is sane when the store it leaves is. -/
theorem finished_sane {w : World σ} (h : SaneMembers (finished X hooks io request w).2.store) :
    sane (finished X hooks io request w).1=true := by
  unfold finished at h ⊢
  split
  · next t done =>
    rw [done] at h
    simp only [resultLocked_store] at h
    exact sane_result true "" h
  · next error t done =>
    rw [done] at h
    simp only [resultLocked_store] at h
    exact sane_result false error.what h

/-- Commands keep a store sane. -/
theorem command_sane (laws : InputLaws X) (hu : uniqueKeys request=true) {w : World σ} (h : SaneStore w.store) :
    SaneStore (command X hooks io request w).2.store := by
  have ho := command_outcome X hooks io request w
  generalize command X hooks io request w=result at ho
  cases ho with
  | answered success error _ =>
    rw [resultLocked_store]
    exact h
  | @replayed node replay =>
    obtain ⟨id,-,found⟩ := admission_replay replay
    refine ⟨⟨h.members.document,h.members.undo,h.members.redo,h.members.elapsed⟩,fun other member => ?_⟩
    unfold splice at member
    rcases List.mem_append.mp member with old | last
    · exact h.receipts other (List.mem_of_mem_filter old)
    · rw [List.mem_singleton.mp last]
      exact h.receipts node (findReceipt_mem found)
  | @performed id fingerprint fresh =>
    have members : SaneMembers (finished X hooks io request w).2.store :=
      progress_preserves (P := fun u => SaneMembers u.store) (fun _ _ hu hq => quiet_sane hu hq)
        (fun _ _ hv ha => accepted_sane laws hu hv ha) (finished_progress X hooks io request w) h.members
    have same := finished_receipts X hooks io request w
    refine ⟨⟨members.document,members.undo,members.redo,members.elapsed⟩,fun node member => ?_⟩
    rcases mem_retain member with old | new
    · rw [same.requests] at old
      exact h.receipts node old
    · rw [new]
      show sane (receiptValue _)=true
      rw [finished_result]
      exact finished_sane members

end Stores

section Frames

variable {X : Externals} {φ σ : Type}

/-- Commands keep a view of the client that the hooks and the clock keep. -/
theorem command_client {hooks : Hooks σ} (view : σ → φ)
    (apply : ∀ document epoch revision, Preserves view (hooks.apply document epoch revision))
    (motion : ∀ operation epoch revision, Preserves view (hooks.motion operation epoch revision))
    (clock : ∀ c, view (hooks.clock c).2=view c) (io : CommandIo) (request : Json) (w : World σ) :
    view (command X hooks io request w).2.client=view w.client := by
  refine command_preserves (P := fun u => view u.client=view w.client) ?_ ?_ ?_ ?_ rfl
  · intro u v hu hq
    cases hq with
    | ticked => exact (clock u.client).trans hu
    | refused hp hh =>
      have kept := congrArg (fun result => view (stateOf result)) hh
      rw [apply] at kept
      exact kept.symm.trans hu
    | held hh =>
      have kept := congrArg (fun result => view (stateOf result)) hh
      rw [motion] at kept
      exact kept.symm.trans hu
    | _ => exact hu
  · intro u v hu ha
    cases ha with
    | applied hp hh =>
      have kept := congrArg (fun result => view (stateOf result)) hh
      rw [apply] at kept
      exact kept.symm.trans hu
    | @moved client operation ho hr hh =>
      have kept := congrArg (fun result => view (stateOf result)) hh
      rw [motion] at kept
      have moved : view (movedWorld hooks operation u client).client=view client := by
        unfold movedWorld sceneTimeLocked
        dsimp only
        split
        · exact (clock _).trans (clock _)
        · exact clock _
      exact moved.trans (kept.symm.trans hu)
  · exact fun u node hu => hu
  · exact fun u id fingerprint result hu => hu

variable {τ : Type} {site : Site τ}

/-- Actions on members that leave the public receipts alone. -/
abbrev KeepsPublic {α : Type} (action : SceneNode.Act τ α) : Prop := Preserves NodeClient.publicReceipts action

/-- The clock. -/
theorem readClock_keeps : KeepsPublic (readClock site) := fun _ => rfl

/-- The projection. -/
theorem onCanvas_keeps {α : Type} (action : Project α) : KeepsPublic (τ := τ) (onCanvas action) := by
  intro c
  unfold onCanvas
  cases action c.canvas with
  | ok _ _ | error _ _ => rfl

/-- A withdrawn application. -/
theorem gazeboFailure_keeps (epoch : String) (revision : ℕ) (message : String) :
    KeepsPublic (gazeboFailure site epoch revision message) := by
  unfold gazeboFailure
  refine preserves_ite (preserves_pure _ _) (readClock_keeps.bind (fun stamp => ?_))
  exact preserves_modify_bind (fun _ => rfl) (fun _ => onCanvas_keeps _)

/-- Compilation. -/
theorem compiledFor_keeps (document : Json) (epoch : String) (revision : ℕ) :
    KeepsPublic (compiledFor X site document epoch revision) := by
  unfold compiledFor
  refine (preserves_get _).bind (fun c => ?_)
  split
  · exact preserves_pure _ _
  · refine (preserves_ofResult _ _).bind (fun value => ?_)
    exact preserves_modify_bind (fun _ => rfl) (fun _ => preserves_pure _ _)

/-- The apply hook. -/
theorem applyScene_keeps (document : Json) (epoch : String) (revision : ℕ) :
    KeepsPublic (applyScene X site document epoch revision) := by
  unfold applyScene
  refine (compiledFor_keeps _ _ _).bind (fun compiled => preserves_ite (preserves_pure _ _) ?_)
  refine (onCanvas_keeps _).bind (fun _ => readClock_keeps.bind (fun stamp => (onCanvas_keeps _).bind (fun message => ?_)))
  exact preserves_modify_bind (fun _ => rfl) (fun _ => gazeboFailure_keeps _ _ _)

/-- The motion hook. -/
theorem applyMotion_keeps (operation : String) : KeepsPublic (applyMotion site operation) := by
  unfold applyMotion
  exact preserves_ite (preserves_pure _ _) (preserves_modify (fun _ => rfl))

/-- The store's part of a command leaves the public receipts alone. -/
theorem command_public (io : CommandIo) (request : Json) (w : Node τ) :
    (command X (hooks X site) io request w).2.client.publicReceipts=w.client.publicReceipts :=
  command_client NodeClient.publicReceipts (fun _ _ _ => applyScene_keeps _ _ _)
    (fun operation _ _ => applyMotion_keeps operation) (fun _ => rfl) io request w

/-- The store and the public receipts of a node. -/
def books (w : Node τ) : Store × List (String × PublicReceipt) := (w.store,w.client.publicReceipts)

/-- Actions of a node that leave the store and the public receipts alone. -/
abbrev KeepsBooks {α : Type} (action : NodeAct τ α) : Prop := Preserves books action

/-- Actions on members. -/
theorem onClient_keeps {α : Type} {action : SceneNode.Act τ α} (h : KeepsPublic action) : KeepsBooks (onClient action) := by
  intro w
  have kept := h w.client
  unfold onClient
  cases result : action w.client with
  | ok _ _ | error _ _ =>
    rw [result] at kept
    exact Prod.ext rfl kept

/-- The scene time of the store. -/
theorem sceneTimeLocked_books (w : Node τ) : books (sceneTimeLocked (hooks X site) w).2=books w := by
  unfold sceneTimeLocked
  split
  · rfl
  · rfl

/-- Reading the scene time. -/
theorem storeSceneTime_keeps : KeepsBooks (storeSceneTime X site) := sceneTimeLocked_books

/-- Reading the envelope. -/
theorem storeEnvelope_keeps : KeepsBooks (storeEnvelope X site) := sceneTimeLocked_books

/-- Handing over the scene. -/
theorem queueSimulation_keeps : KeepsBooks (queueSimulation X site) := by
  unfold queueSimulation
  refine preserves_ite (preserves_pure _ _) (storeEnvelope_keeps.bind (fun _ => (preserves_get _).bind (fun w => ?_)))
  refine (onClient_keeps (gazeboFailure_keeps _ _ _)).bind (fun _ => storeSceneTime_keeps.bind (fun time => ?_))
  refine (preserves_get _).bind (fun w => (onClient_keeps (compiledFor_keeps _ _ _)).bind (fun compiled => ?_))
  exact preserves_modify (fun _ => rfl)

/-- Publishing the document. -/
theorem publishDocument_keeps : KeepsBooks (publishDocument X site) := by
  unfold publishDocument
  refine (preserves_get _).bind (fun w => preserves_ite (preserves_pure _ _) ?_)
  refine storeSceneTime_keeps.bind (fun time => storeEnvelope_keeps.bind (fun _ => ?_))
  refine (onClient_keeps (compiledFor_keeps _ _ _)).bind (fun compiled => (preserves_ofResult _ _).bind (fun text => ?_))
  refine (onClient_keeps (onCanvas_keeps _)).bind (fun _ => ?_)
  exact preserves_modify_bind (fun _ => rfl) (fun _ => preserves_pure _ _)

/-- Judging a report. -/
theorem judged_keeps (report : Report) (playing : Bool) : KeepsBooks (judged X site report playing) := by
  unfold judged
  refine preserves_ite (preserves_pure _ _) (preserves_ite (preserves_pure _ _) ?_)
  split
  · exact preserves_pure _ _
  · refine storeSceneTime_keeps.bind (fun stored => (preserves_ofResult _ _).bind (fun time => ?_))
    exact preserves_ite (preserves_pure _ _) (preserves_pure _ _)

/-- Taking a report. -/
theorem receiveSimulation_keeps : KeepsBooks (receiveSimulation X site) := by
  unfold receiveSimulation
  refine preserves_ite (preserves_pure _ _) ((preserves_get _).bind (fun w => ?_))
  refine preserves_modify_bind (fun _ => rfl) (fun _ => ?_)
  split
  · exact preserves_pure _ _
  · refine preserves_ite (preserves_pure _ _) ((judged_keeps _ _).bind (fun outcome => ?_))
    refine (onClient_keeps readClock_keeps).bind (fun stamp => preserves_modify_bind (fun _ => rfl) (fun _ => ?_))
    refine (onClient_keeps (onCanvas_keeps _)).bind (fun _ => publishDocument_keeps.bind (fun _ => preserves_pure _ _))

/-- A tick. -/
theorem tick_keeps : KeepsBooks (SceneNode.tick X site) := by
  unfold SceneNode.tick
  refine (preserves_get _).bind (fun w => preserves_ite (preserves_pure _ _) ?_)
  refine receiveSimulation_keeps.bind (fun _ => (onClient_keeps readClock_keeps).bind (fun stamp => ?_))
  exact storeSceneTime_keeps.bind (fun elapsed => (preserves_get _).bind (fun w => onClient_keeps (onCanvas_keeps _)))

/-- The snapshot of a revision. -/
theorem currentSnapshot_keeps (compiled : Json) (epoch : String) (revision : ℕ) :
    KeepsBooks (currentSnapshot site compiled epoch revision) := by
  unfold currentSnapshot
  refine (preserves_get _).bind (fun w => ?_)
  split
  · exact preserves_pure _ _
  · exact (onClient_keeps readClock_keeps).bind (fun stamp => onClient_keeps (onCanvas_keeps _))

/-- Publishing the definition. -/
theorem publishDefinition_keeps : KeepsBooks (publishDefinition X site) := by
  unfold publishDefinition
  refine storeEnvelope_keeps.bind (fun _ => (preserves_get _).bind (fun w => ?_))
  have application : KeepsBooks (publishApplication site w.store.epoch w.store.revision) :=
    (preserves_get _).bind (fun w => preserves_ite (onClient_keeps (onCanvas_keeps _)) (preserves_pure _ _))
  refine application.bind (fun _ => (onClient_keeps (compiledFor_keeps _ _ _)).bind (fun compiled => ?_))
  refine (currentSnapshot_keeps _ _ _).bind (fun message => (onClient_keeps (onCanvas_keeps _)).bind (fun _ => ?_))
  exact tick_keeps.bind (fun _ => publishDocument_keeps.bind (fun _ => preserves_pure _ _))

/-- Sending a change. -/
theorem synchronize_keeps (previous : ℕ) : KeepsBooks (synchronize X site previous) := by
  unfold synchronize
  refine (preserves_get _).bind (fun w => preserves_ite ?_ (preserves_pure _ _))
  exact queueSimulation_keeps.bind (fun _ => receiveSimulation_keeps)

/-- Publishing a change. -/
theorem publishCommand_keeps (previous : ℕ) (request : Json) : KeepsBooks (publishCommand X site previous request) := by
  unfold publishCommand
  refine (preserves_get _).bind (fun w => preserves_ite publishDefinition_keeps (preserves_ite ?_ (preserves_pure _ _)))
  exact tick_keeps.bind (fun _ => publishDocument_keeps.bind (fun _ => preserves_pure _ _))

/-- Adding the public members. -/
theorem addPublicView_keeps (result : Json) : KeepsBooks (addPublicView X site result) := by
  unfold addPublicView
  refine (preserves_ofResult _ _).bind (fun epoch => (preserves_ofResult _ _).bind (fun revision => ?_))
  refine (preserves_get _).bind (fun w => ?_)
  unfold withCompiled
  split
  · exact (onClient_keeps (compiledFor_keeps _ _ _)).bind (fun compiled => preserves_pure _ _)
  · exact preserves_pure _ _

/-- Going offline. -/
theorem shutdown_keeps : KeepsBooks (SceneNode.shutdown X site) := by
  unfold SceneNode.shutdown
  refine (preserves_get _).bind (fun w => preserves_ite (preserves_pure _ _) ?_)
  refine preserves_modify_bind (fun _ => rfl) (fun _ => publishDocument_keeps.bind (fun _ => ?_))
  exact preserves_ite (preserves_modify (fun _ => rfl)) (preserves_pure _ _)

/-- The start of a node. -/
theorem start_keeps : KeepsBooks (start X site) := by
  unfold start
  exact queueSimulation_keeps.bind (fun _ => receiveSimulation_keeps.bind (fun _ => publishDefinition_keeps))

end Frames

end Ros1Adapter.SceneNodeReceipts
