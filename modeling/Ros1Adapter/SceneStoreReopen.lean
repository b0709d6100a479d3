import Ros1Adapter.SceneStoreValid

/-!
# Saved scenes open again

A save writes the YAML text of a canonical document, however much of the text
came from the cache of the writer. Reading the file back gives that document
exactly when the text is within the size limit of the reader; the writer has no
limit.
-/

namespace Ros1Adapter.SceneStoreReopen

open SceneJson SceneDocument SceneDocumentNormal SceneYaml SceneFiles SceneStore SceneStoreSaving
  SceneStoreSteps SceneStoreReceipts SceneStoreValid ActionRules

section Texts

variable {spell : Float → String} {math : Math}

/-- A canonical document is what the incremental writer expects. -/
theorem canonical_members {document : Json} (h : Canonical spell math document) :
    (document.members.map Prod.fst).Nodup ∧ (∃ m∈document.members, m.1≠"obstacles") ∧
      ∃ items, document.valueOr "obstacles" .null=.array items := by
  obtain ⟨p,rfl,_⟩ := h
  obtain ⟨_,_,_,hobstacles,_,_⟩ := p.members
  refine ⟨?_,⟨("schema",.string kSchema),List.mem_cons_self ..,by decide⟩,p.obstacles,?_⟩
  · obtain ⟨id,frame,obstacles,models,ground⟩ := p
    cases models <;> cases ground <;>
      simp [Parts.document,Json.members,optionalMember]
  · unfold Json.valueOr
    rw [hobstacles]
    rfl

/-- The writer emits the text of a canonical document, whatever its cache holds. -/
theorem dump_canonical {yaml : DocumentYaml} (hv : CacheValid spell yaml) {document : Json}
    (h : Canonical spell math document) :
    (yaml.dump spell document).1=dumpYaml spell document ∧ CacheValid spell (yaml.dump spell document).2 := by
  obtain ⟨hkeys,hother,harray⟩ := canonical_members h
  exact dump_text spell hv hkeys hother harray

end Texts

section Writing

variable {σ : Type} {X : Externals} {hooks : Hooks σ} {io : CommandIo} {request : Json}

/-- Every completed save wrote the text of a canonical document. -/
structure Written (X : Externals) (w : World σ) : Prop where
  /-- Held documents are canonical. -/
  holds : Holds (Canonical X.spell X.math) w.store
  /-- The cache of the writer has the texts of its obstacles. -/
  cache : CacheValid X.spell w.store.yaml
  /-- Saved bytes are the text of the saved document. -/
  saved : ∀ target document bytes, Event.saved target document bytes∈w.trace →
    Canonical X.spell X.math document ∧ bytes=(dumpYaml X.spell document).toUTF8

/-- A world with the same cache and no new saves. -/
theorem Written.same {w t : World σ} (h : Written X w) (hh : Holds (Canonical X.spell X.math) t.store)
    (hy : t.store.yaml=w.store.yaml)
    (ht : ∀ target document bytes, Event.saved target document bytes∈t.trace →
      Event.saved target document bytes∈w.trace) : Written X t := by
  refine ⟨hh,?_,fun target document bytes hs => h.saved target document bytes (ht _ _ _ hs)⟩
  rw [hy]
  exact h.cache

/-- Quiet effects write only texts of canonical documents. -/
theorem quiet_written (w t : World σ) (h : Written X w) (hs : Quiet X hooks io request w t) :
    Written X t := by
  have hh := quiet_holds w t h.holds hs
  obtain ⟨htext,hcache⟩ := dump_canonical h.cache h.holds.document
  cases hs with
  | ticked | directories | counted => exact h.same hh rfl (fun _ _ _ hm => hm)
  | encoded => exact ⟨hh,hcache,h.saved⟩
  | published =>
    refine ⟨hh,hcache,?_⟩
    intro target document bytes hm
    exact h.saved target document bytes (by simpa using hm)
  | completed =>
    refine ⟨hh,hcache,?_⟩
    intro target document bytes hm
    simp only [List.mem_cons,Event.saved.injEq,reduceCtorEq,false_or] at hm
    rcases hm with ⟨_,rfl,rfl⟩ | hm
    · refine ⟨h.holds.document,?_⟩
      unfold encodedBytes
      rw [htext]
    · exact h.saved target document bytes hm
  | refused | held => exact h.same hh rfl (fun _ _ _ hm => by simpa using hm)

/-- An accepted call saves nothing. -/
theorem accepted_written {w t : World σ} (h : Written X w)
    (hm : operationOf request=.add ∨ operationOf request=.update →
      modelDefined w.store.document request=true)
    (ha : Accepted X hooks request w t) : Written X t := by
  have hh := accepted_holds h.holds hm ha
  cases ha with
  | applied hp hc => cases hp <;> exact h.same hh rfl (fun _ _ _ hs => by simpa using hs)
  | @moved client operation =>
    obtain ⟨playing,elapsed,startedAt,client',hmoved⟩ := movedWorld_shape hooks operation w client
    rw [hmoved] at hh ⊢
    exact h.same hh rfl (fun _ _ _ hs => by simpa using hs)

/-- An operation writes only texts of canonical documents. -/
theorem progress_written {w t : World σ} (h : Written X w)
    (hm : operationOf request=.add ∨ operationOf request=.update →
      modelDefined w.store.document request=true)
    (hp : Progress X hooks io request w t) : Written X t := by
  obtain ⟨q,m,hwq,hqm,hmt⟩ := hp
  have hq := quiets_preserves quiet_written hwq h
  rw [←quiets_document hwq] at hm
  rcases hqm with rfl | hacc
  · exact quiets_preserves quiet_written hmt hq
  · exact quiets_preserves quiet_written hmt (accepted_written hq hm hacc)

/-- A step writes only texts of canonical documents. -/
theorem step_written (w : World σ) (step : Step) (h : Written X w) (hm : ModelsDefined w step) :
    Written X (stepWorld X hooks w step) := by
  have hh : Holds (Canonical X.spell X.math) (stepWorld X hooks w step).store :=
    step_holds w step h.holds hm
  cases step with
  | external path content => exact ⟨hh,h.cache,h.saved⟩
  | command io request =>
    dsimp only [stepWorld] at hh ⊢
    have ho := command_outcome X hooks io request w
    generalize command X hooks io request w=result at ho hh
    cases ho with
    | answered success error hfresh =>
      exact quiets_preserves quiet_written (resultLocked_quiets X hooks io request success error w) h
    | replayed hreplay => exact ⟨hh,h.cache,h.saved⟩
    | performed hfresh =>
      have hp := progress_written h hm (finished_progress X hooks io request w)
      exact ⟨hh,hp.cache,hp.saved⟩

/-- A new store has written nothing. -/
theorem opened_written {arguments : StoreArguments} {files : Files} {w : World σ}
    (h : Opened X arguments files w) : Written X w := by
  refine ⟨opened_holds h,?_,?_⟩
  · obtain ⟨source,input,given,digests,startedAt,_,_,_,hstore⟩ := h.input
    rw [hstore]
    exact emptyYaml_valid X.spell
  · intro target document bytes hm
    rw [h.trace_eq] at hm
    simp at hm

end Writing

section Reading

variable {σ : Type} {X : Externals} {hooks : Hooks σ}

/-- Whatever else the files hold, a target with these bytes is read as this
document, has their digest and passes the source check of a store that
remembers the digest. -/
structure Reopens (σ : Type) (X : Externals) (target : Path) (document : Json) (bytes : ByteArray) :
    Prop where
  /-- The file is read as the document. -/
  reads : ∀ files : Files, files.contents target=some bytes →
    readDocument X files none target=.ok (document,X.digest bytes)
  /-- The digest of the file is found. -/
  digests : ∀ files : Files, files.contents target=some bytes →
    currentDigest X files none target=.ok (some (X.digest bytes))
  /-- The source check passes. -/
  sources : ∀ w : World σ, w.store.source=some target → w.files.contents target=some bytes →
    w.store.fileDigests target=some (X.digest bytes) → checkSource X none w=.ok () w

/-- A file within the limit is read as far as its bytes load. -/
theorem readDocument_of_small {files : Files} {path : Path} {bytes : ByteArray}
    (hc : files.contents path=some bytes) (hs : bytes.size≤kMaxDocumentBytes) :
    readDocument X files none path=loadBytes X bytes := by
  have hn : ¬kMaxDocumentBytes<bytes.size := by omega
  have hr : SceneFiles.read X files none path=.ok bytes := by
    unfold SceneFiles.read
    simp only [hc]
    rw [if_neg hn]
  unfold readDocument
  rw [hr]
  rfl

/-- Bytes that load within the limit open again. -/
theorem reopens_of_small {target : Path} {document : Json} {bytes : ByteArray}
    (hs : bytes.size≤kMaxDocumentBytes) (hl : loadBytes X bytes=.ok (document,X.digest bytes)) :
    Reopens σ X target document bytes := by
  have hdigest : ∀ files : Files, files.contents target=some bytes →
      currentDigest X files none target=.ok (some (X.digest bytes)) := by
    intro files hc
    have hsmall : ∀ found, files.contents target=some found → found.size≤kMaxDocumentBytes := by
      intro found hf
      rw [hc] at hf
      cases hf
      exact hs
    rw [currentDigest_of_small X hsmall (by rw [hc]; simp),hc]
    rfl
  refine ⟨fun files hc => (readDocument_of_small hc hs).trans hl,hdigest,?_⟩
  intro w hsource hc hf
  unfold checkSource
  rw [bind_of_ok (rfl : (get : Act σ (World σ)) w=.ok w w)]
  simp only [hsource]
  unfold checkDigest
  rw [bind_of_ok (rfl : (get : Act σ (World σ)) w=.ok w w),hdigest w.files hc,hf]
  have hresult : (ofResult (.ok (some (X.digest bytes))) : Act σ (Option String)) w=
      .ok (some (X.digest bytes)) w := rfl
  rw [bind_of_ok hresult,if_neg (not_not.mpr rfl)]
  rfl

/-- Bytes that open again are within the limit. -/
theorem Reopens.small {target : Path} {document : Json} {bytes : ByteArray}
    (h : Reopens σ X target document bytes) : bytes.size≤kMaxDocumentBytes := by
  have hc : (⟨fun _ => some bytes,fun _ => false⟩ : Files).contents target=some bytes := rfl
  exact (currentDigest_ok X (h.digests _ hc)).2 bytes hc

/-- In every run of a constructed store in which additions and updates name only
defined models, and for every completed save whose text the YAML parser reads
back as the document, the saved file opens again as that document exactly when
its text is within the size limit. -/
theorem run_saves_reopen (laws : MathLaws X.math True) {arguments : StoreArguments} {files : Files}
    {client : σ} {w : World σ} (h : construct X hooks arguments files client=.ok w) {steps : List Step}
    (ha : Along (stepWorld X hooks) ModelsDefined w steps) {target : Path} {document : Json}
    {bytes : ByteArray}
    (hs : Event.saved target document bytes∈(run (stepWorld X hooks) w steps).trace)
    (hparse : X.parseYaml (dumpYaml X.spell document).toUTF8=.ok document) :
    Reopens σ X target document bytes ↔ (dumpYaml X.spell document).utf8ByteSize≤kMaxDocumentBytes := by
  have hrun : Written X (run (stepWorld X hooks) w steps) :=
    run_invariant (fun u step hu hm => step_written u step hu hm) (opened_written (construct_opened h)) ha
  obtain ⟨hcanonical,rfl⟩ := hrun.saved target document bytes hs
  have hsize : (dumpYaml X.spell document).toUTF8.size=(dumpYaml X.spell document).utf8ByteSize := rfl
  constructor
  · intro hr
    exact hr.small
  · intro hlimit
    refine reopens_of_small hlimit ?_
    obtain ⟨again,hagain,hexact⟩ := canonical_again laws hcanonical
    rw [hexact trivial] at hagain
    unfold loadBytes
    rw [hparse,ok_bind,hagain]
    rfl

end Reading

section Sample

/-- A canonical crate. -/
def crate : Json :=
  .object [("id",.string "box"),("name",.string "box"),
    ("pose",.object [("position",floats [0,0,0]),("orientation",floats [0,0,0,1])]),
    ("model",.string "crate"),("motion",.object [("type",.string "hold")])]

/-- A crate in a scene that defines its model. -/
def crateDocument : Json := crateScene.set "obstacles" (.array [crate])

/-- Externals whose parser reads every file as the scene with a crate. -/
def crateExternals : Externals := {unitExternals with parseYaml := fun _ => .ok crateDocument}

/-- A sample store over the scene that defines a crate. -/
def crateWorld : World Unit :=
  openedSample crateExternals {hallArguments with initial := crateScene} (filesOf [] [["scenes"]])

/-- Whether an event is a completed save of a document to a file. -/
def isSave (target : Path) (document : Json) : Event → Bool
  | .saved found saved _ => decide (found=target) && decide (saved=document)
  | _ => false

/-- A save that is found in a trace is in it. -/
theorem exists_saved {target : Path} {document : Json} {trace : List Event}
    (h : trace.any (isSave target document)=true) :
    ∃ bytes, Event.saved target document bytes∈trace := by
  obtain ⟨event,hm,he⟩ := List.any_eq_true.mp h
  cases event with
  | saved found saved bytes =>
    simp only [isSave,Bool.and_eq_true,decide_eq_true_eq] at he
    obtain ⟨rfl,rfl⟩ := he
    exact ⟨bytes,hm⟩
  | _ => cases he

/-- The file that an addition saved opens again. -/
theorem run_saves_reopen_crate :
    ∃ bytes, Event.saved hallFile crateDocument bytes∈
        (run (stepWorld crateExternals acceptingHooks) crateWorld [.command {} (addCrate "a" 1)]).trace ∧
      Reopens Unit crateExternals hallFile crateDocument bytes := by
  have hopen : construct crateExternals acceptingHooks {hallArguments with initial := crateScene}
      (filesOf [] [["scenes"]]) ()=.ok crateWorld := rfl
  have halong : Along (stepWorld crateExternals acceptingHooks) ModelsDefined crateWorld
      [.command {} (addCrate "a" 1)] := by
    refine ⟨fun _ => ?_,trivial⟩
    decide +kernel
  have hlimit : (dumpYaml crateExternals.spell crateDocument).utf8ByteSize≤kMaxDocumentBytes := by
    decide +kernel
  have hany : (run (stepWorld crateExternals acceptingHooks) crateWorld
      [.command {} (addCrate "a" 1)]).trace.any (isSave hallFile crateDocument)=true := by decide +kernel
  obtain ⟨bytes,hsaved⟩ := exists_saved hany
  exact ⟨bytes,hsaved,(run_saves_reopen (unitMath_laws True) hopen halong hsaved rfl).mpr hlimit⟩

/-- A crate in a scene that does not define its model. -/
def strayDocument : Json := emptyScene.set "obstacles" (.array [crate])

/-- Externals whose parser reads every file as that scene. -/
def strayExternals : Externals := {hallExternals with parseYaml := fun _ => .ok strayDocument}

/-- A crate without its model is added and saved without an error, and the
parser reads the saved text as that scene, but reloading the file fails. -/
theorem saved_scene_refused :
    strayExternals.parseYaml (dumpYaml strayExternals.spell strayDocument).toUTF8=.ok strayDocument ∧
      let added := command strayExternals acceptingHooks {} (addCrate "a" 1) hallWorld
      added.1.member "success"=some (.boolean true) ∧ added.2.store.document=strayDocument ∧
        added.2.trace.any (isSave hallFile strayDocument)=true ∧
        (command strayExternals acceptingHooks {} (sampleRequest "reload" "b" 2 []) added.2).1.member "error"=
          some (.string "Obstacle model is not defined") :=
  ⟨rfl,by decide +kernel⟩

end Sample

end Ros1Adapter.SceneStoreReopen
