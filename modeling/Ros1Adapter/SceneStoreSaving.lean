import Ros1Adapter.SceneStore

/-!
# Contracts of saving

Each helper of a save has one contract. Together they say everything a save
can do: it fails before the rename and leaves every file content and all
remembered digests alone, it fails after the rename with only the file
replaced, or it completes. Later proofs use these three cases and never open
the save again.
-/

namespace Ros1Adapter.SceneStoreSaving

open SceneJson SceneDocument SceneYaml SceneFiles SceneStore ActionRules

variable {σ : Type} (X : Externals)

/-- A read that succeeds returns the content of the file. -/
theorem read_ok {files : Files} {fault : Fault} {path : Path} {bytes : ByteArray}
    (h : SceneFiles.read X files fault path=.ok bytes) :
    files.contents path=some bytes ∧ bytes.size≤kMaxDocumentBytes := by
  unfold SceneFiles.read at h
  cases fault with
  | some code => simp at h
  | none =>
    cases hc : files.contents path with
    | none => simp [hc] at h
    | some found =>
      simp only [hc] at h
      split at h
      · cases h
      · simp only [Except.ok.injEq] at h
        subst h
        exact ⟨rfl,by omega⟩

/-- A digest that could be read is the digest of the file content. -/
theorem currentDigest_ok {files : Files} {fault : Fault} {path : Path} {found : Option String}
    (h : currentDigest X files fault path=.ok found) :
    found=(files.contents path).map X.digest ∧
      ∀ bytes, files.contents path=some bytes → bytes.size≤kMaxDocumentBytes := by
  unfold currentDigest at h
  cases fault with
  | some code => simp at h
  | none =>
    cases hc : files.contents path with
    | none =>
      cases hd : files.directories path with
      | true => simp [Files.present,SceneFiles.read,hc,hd,bind,Except.bind] at h
      | false =>
        simp only [Files.present,hc,hd,Option.isSome_none,Bool.or_self,Bool.false_eq_true,if_false,
          Except.ok.injEq] at h
        exact ⟨h.symm,by simp⟩
    | some bytes =>
      have hp : files.present path=true := by simp [Files.present,hc]
      have hr : SceneFiles.read X files none path=if kMaxDocumentBytes<bytes.size then
          .error (sceneError "Scene file exceeds the supported size") else .ok bytes := by
        simp only [SceneFiles.read,hc]
      rw [hp,hr] at h
      by_cases hs : kMaxDocumentBytes<bytes.size
      · simp [hs,bind,Except.bind] at h
      · simp only [hs,if_true,if_false,bind,Except.bind,pure,Except.pure,Except.ok.injEq] at h
        refine ⟨h.symm,?_⟩
        intro other ho
        cases ho
        omega

/-- A readable file has a digest. -/
theorem currentDigest_of_small {files : Files} {path : Path}
    (hs : ∀ bytes, files.contents path=some bytes → bytes.size≤kMaxDocumentBytes)
    (hd : files.contents path=none → files.directories path=false) :
    currentDigest X files none path=.ok ((files.contents path).map X.digest) := by
  unfold currentDigest
  cases hc : files.contents path with
  | none => simp [Files.present,hc,hd hc]
  | some bytes =>
    have hb := hs bytes hc
    have hn : ¬kMaxDocumentBytes<bytes.size := by omega
    simp [Files.present,SceneFiles.read,hc,hn,bind,Except.bind,pure,Except.pure]

/-- A digest check reads one digest and changes nothing. -/
theorem checkDigest_spec (fault : Fault) (path : Path) (expected : Option String) (refusal : String)
    (w : World σ) :
    Meets (checkDigest X fault path expected refusal) w
      (fun _ t => t=w ∧ currentDigest X w.files fault path=.ok expected)
      (fun _ t => t=w ∧ currentDigest X w.files fault path≠.ok expected) := by
  unfold checkDigest
  rw [meets_bind,meets_get,meets_bind,meets_ofResult]
  constructor
  · intro current hc
    rw [meets_ite]
    constructor
    · intro hn
      rw [meets_throw]
      refine ⟨rfl,?_⟩
      rw [hc]
      intro he
      exact hn (Except.ok.inj he)
    · intro hn
      exact ⟨rfl,by rw [hc,not_not.mp hn]⟩
  · intro e he
    refine ⟨rfl,?_⟩
    rw [he]
    intro hne
    cases hne

/-- A source check changes nothing. -/
theorem checkSource_spec (fault : Fault) (w : World σ) :
    Meets (checkSource X fault) w
      (fun _ t => t=w ∧ ∀ source, w.store.source=some source →
        currentDigest X w.files fault source=.ok (w.store.fileDigests source)) (fun _ t => t=w) := by
  unfold checkSource
  rw [meets_bind,meets_get]
  cases hs : w.store.source with
  | none => exact ⟨rfl,by simp⟩
  | some source =>
    refine (checkDigest_spec X fault source _ _ w).mono ?_ (fun _ _ h => h.1)
    rintro _ t ⟨ht,hd⟩
    refine ⟨ht,?_⟩
    intro other ho
    cases ho
    exact hd

/-- The world with other directories. -/
def withDirs (w : World σ) (directories : Path → Bool) : World σ :=
  {w with files := ⟨w.files.contents,directories⟩}

/-- The files once the directory of a working file exists. -/
def preparedFiles (w : World σ) (directory : Path) : Files :=
  if w.store.workingFile.isSome then withDirectories w.files directory else w.files

/-- The directory of a save can be created and is a directory. -/
def DirectoryReady (io : SaveIo) (w : World σ) (directory : Path) : Prop :=
  (w.store.workingFile.isSome=true → io.createDirectories=none) ∧ io.isDirectory=none ∧
    (preparedFiles w directory).directories directory=true

/-- A required call succeeds exactly when it has no fault. -/
theorem require_ok (fault : Fault) (path : Path) (u : Unit) :
    require X fault path=.ok u ↔ fault=none := by
  cases fault <;> simp [require]

/-- A required call that fails has a fault. -/
theorem require_error {fault : Fault} {path : Path} {e : Error} (h : require X fault path=.error e) :
    fault≠none := by
  rintro rfl
  cases h

/-- Preparing the directory touches only the set of directories. -/
theorem prepareDirectory_spec (io : SaveIo) (directory : Path) (w : World σ) :
    Meets (prepareDirectory X io directory) w
      (fun _ t => t={w with files := preparedFiles w directory} ∧ DirectoryReady io w directory)
      (fun _ t => (∃ d, t=withDirs w d) ∧ ¬DirectoryReady io w directory) := by
  unfold prepareDirectory
  rw [meets_bind,meets_get]
  -- The common tail, from the world in which the directory may have been created.
  have hrest : ∀ u : World σ, u={w with files := preparedFiles w directory} →
      (∃ d, u=withDirs w d) → (w.store.workingFile.isSome=true → io.createDirectories=none) →
      Meets (do
          let w ← get
          ofResult (require X io.isDirectory directory)
          if !w.files.directories directory then throw (sceneError "Save directory does not exist") :
          Act σ Unit) u
        (fun _ t => t={w with files := preparedFiles w directory} ∧ DirectoryReady io w directory)
        (fun _ t => (∃ d, t=withDirs w d) ∧ ¬DirectoryReady io w directory) := by
    intro u hu hd hcreate
    rw [meets_bind,meets_get,meets_bind,meets_ofResult]
    constructor
    · intro a ha
      have hfault := (require_ok X io.isDirectory directory a).mp ha
      rw [meets_ite]
      constructor
      · intro hn
        refine ⟨hd,?_⟩
        rintro ⟨_,_,hready⟩
        rw [hu] at hn
        simp [hready] at hn
      · intro hn
        refine ⟨hu,hcreate,hfault,?_⟩
        rw [hu] at hn
        simpa using hn
    · intro e he
      exact ⟨hd,fun hready => require_error X he hready.2.1⟩
  rw [meets_ite]
  constructor
  · intro hw
    have hfiles : preparedFiles w directory=withDirectories w.files directory := by
      unfold preparedFiles
      rw [if_pos hw]
    rw [meets_bind,meets_ofResult]
    constructor
    · intro a ha
      have hfault := (require_ok X io.createDirectories directory a).mp ha
      rw [meets_bind,meets_modify]
      exact hrest _ (by rw [hfiles]) ⟨(withDirectories w.files directory).directories,rfl⟩
        (fun _ => hfault)
    · intro e he
      exact ⟨⟨w.files.directories,rfl⟩,fun hready => require_error X he (hready.1 hw)⟩
  · intro hw
    have hfiles : preparedFiles w directory=w.files := by
      unfold preparedFiles
      rw [if_neg hw]
    exact hrest w (by rw [hfiles]) ⟨w.files.directories,rfl⟩ (fun h => absurd h hw)

/-- Bytes of the current document. -/
def encodedBytes (s : Store) : ByteArray := (s.yaml.dump X.spell s.document).1.toUTF8

/-- The store after its document was encoded. -/
def encodedStore (s : Store) : Store := {s with yaml := (s.yaml.dump X.spell s.document).2}

/-- The store after a completed save. -/
def savedStore (s : Store) (target : Path) : Store :=
  {encodedStore X s with
    source := some target,
    fileDigests := fun path =>
      if path=target then some (X.digest (encodedBytes X s)) else s.fileDigests path,
    savedDocument := s.document, savedRevision := s.revision}

/-- The files after the rename. -/
def replacedFiles (s : Store) (files : Files) (target : Path) (directories : Path → Bool) : Files :=
  ⟨fun path => if path=target then some (encodedBytes X s) else files.contents path,directories⟩

/-- Every call of a save up to its rename succeeds, and the content of the
target is the remembered one at both digest reads. -/
structure RenameReached (io : SaveIo) (w : World σ) (target : Path) : Prop where
  /-- The save has this target. -/
  target_eq : saveTarget w.store=.ok target
  /-- Its directory is ready. -/
  ready : DirectoryReady io w target.parent
  /-- The first digest read matches. -/
  before : currentDigest X (preparedFiles w target.parent) io.digestBefore target=
    .ok (w.store.fileDigests target)
  /-- The temporary file was written. -/
  written : writeTemporary X io ((preparedFiles w target.parent).present target) target
    (encodedBytes X w.store).size=.ok ()
  /-- The second digest read matches. -/
  after : currentDigest X (preparedFiles w target.parent) io.digestAfter target=
    .ok (w.store.fileDigests target)
  /-- The rename succeeds. -/
  renamed : io.rename=none

/-- The digest that guards a save is the digest of the current content. -/
def Guarded (w : World σ) (target : Path) : Prop :=
  saveTarget w.store=.ok target ∧
    (w.files.contents target).map X.digest=w.store.fileDigests target ∧
    ∀ bytes, w.files.contents target=some bytes → bytes.size≤kMaxDocumentBytes

/-- Preparing a directory keeps all contents. -/
theorem preparedFiles_contents (w : World σ) (directory : Path) :
    (preparedFiles w directory).contents=w.files.contents := by
  unfold preparedFiles withDirectories
  split <;> rfl

/-- A save that reaches its rename was guarded. -/
theorem RenameReached.guarded {io : SaveIo} {w : World σ} {target : Path}
    (h : RenameReached X io w target) : Guarded X w target := by
  obtain ⟨hfound,hsmall⟩ := currentDigest_ok X h.before
  rw [preparedFiles_contents] at hfound hsmall
  exact ⟨h.target_eq,hfound.symm,hsmall⟩

/-- All directory calls after a rename succeed. -/
def DirectorySafe (io : SaveIo) : Prop :=
  io.directoryOpen=none ∧ io.directorySync=none ∧ io.directoryClose=none

/-- A save that stopped before its rename. -/
def Unpublished (io : SaveIo) (w t : World σ) : Prop :=
  (∀ target, ¬RenameReached X io w target) ∧
    ∃ directories store, (store=w.store ∨ store=encodedStore X w.store) ∧
      t=⟨store,⟨w.files.contents,directories⟩,w.client,w.trace⟩

/-- A save that stopped between its rename and its bookkeeping. -/
def Published (io : SaveIo) (w t : World σ) : Prop :=
  ∃ target directories, RenameReached X io w target ∧ ¬DirectorySafe io ∧
    t=⟨encodedStore X w.store,replacedFiles X w.store w.files target directories,w.client,
      .replaced target (encodedBytes X w.store)::w.trace⟩

/-- A completed save. -/
def Completed (io : SaveIo) (w t : World σ) : Prop :=
  ∃ target directories, RenameReached X io w target ∧ DirectorySafe io ∧
    t=⟨savedStore X w.store target,replacedFiles X w.store w.files target directories,w.client,
      .saved target w.store.document (encodedBytes X w.store)::
        .replaced target (encodedBytes X w.store)::w.trace⟩

/-- The directory calls succeed together exactly when each of them does. -/
theorem syncDirectory_ok (io : SaveIo) (directory : Path) :
    (∃ u, syncDirectory X io directory=.ok u) ↔ DirectorySafe io := by
  unfold syncDirectory DirectorySafe require
  cases io.directoryOpen <;> cases io.directorySync <;> cases io.directoryClose <;>
    simp [bind,Except.bind]

/-- What happens from the rename on, when everything before it succeeded. -/
theorem publish_spec (io : SaveIo) {w u : World σ} {target : Path} {directories : Path → Bool}
    (hreached : io.rename=none → RenameReached X io w target)
    (hstop : io.rename≠none → ∀ other, ¬RenameReached X io w other)
    (hu : u=⟨encodedStore X w.store,⟨w.files.contents,directories⟩,w.client,w.trace⟩) :
    Meets (do
        replaceStoreFile X io target (encodedBytes X w.store)
        ofResult (syncDirectory X io target.parent)
        markSaved X target (encodedBytes X w.store) : Act σ Unit) u
      (fun _ t => Completed X io w t) (fun _ t => Unpublished X io w t ∨ Published X io w t) := by
  rw [meets_bind]
  unfold replaceStoreFile
  cases hr : io.rename with
  | some code =>
    exact Or.inl ⟨hstop (by rw [hr]; simp),directories,encodedStore X w.store,Or.inr rfl,hu⟩
  | none =>
    have hreached' := hreached hr
    simp only [meets_bind,meets_modify,record,meets_ofResult]
    subst hu
    constructor
    · intro _ hs
      have hsafe := (syncDirectory_ok X io target.parent).mp ⟨_,hs⟩
      unfold markSaved
      simp only [meets_bind,modifyStore,meets_modify,meets_get,record]
      exact ⟨target,directories,hreached',hsafe,rfl⟩
    · intro e he
      refine Or.inr ⟨target,directories,hreached',?_,rfl⟩
      intro hsafe
      obtain ⟨_,hok⟩ := (syncDirectory_ok X io target.parent).mpr hsafe
      rw [hok] at he
      cases he

/-- Everything a save can do. -/
theorem save_spec (io : SaveIo) (w : World σ) :
    Meets (save X io) w (fun _ t => Completed X io w t)
      (fun _ t => Unpublished X io w t ∨ Published X io w t) := by
  unfold save
  rw [meets_bind,meets_get,meets_bind,meets_ofResult]
  constructor
  swap
  · intro e he
    refine Or.inl ⟨?_,w.files.directories,w.store,Or.inl rfl,rfl⟩
    intro target hreached
    rw [hreached.target_eq] at he
    cases he
  intro target htarget
  -- A step that fails before the rename excludes every target, as the target is unique.
  have hunique : ∀ other, RenameReached X io w other → other=target := by
    intro other hreached
    have ho := hreached.target_eq
    rw [htarget] at ho
    exact (Except.ok.inj ho).symm
  have hstay : ∀ d, (RenameReached X io w target → False) → Unpublished X io w (withDirs w d) := by
    intro d hno
    refine ⟨?_,d,w.store,Or.inl rfl,rfl⟩
    intro other hreached
    rw [hunique other hreached] at hreached
    exact hno hreached
  rw [meets_bind]
  refine (prepareDirectory_spec X io target.parent w).mono ?_ ?_
  swap
  · rintro _ t ⟨⟨d,rfl⟩,hnot⟩
    exact Or.inl (hstay d (fun hreached => hnot hreached.ready))
  rintro _ t ⟨rfl,hready⟩
  have hfiles : preparedFiles w target.parent=
      ⟨w.files.contents,(preparedFiles w target.parent).directories⟩ := by
    rw [←preparedFiles_contents w target.parent]
  rw [meets_bind]
  refine (checkDigest_spec X io.digestBefore target _ _ _).mono ?_ ?_
  swap
  · rintro _ t ⟨rfl,hnot⟩
    rw [hfiles]
    exact Or.inl (hstay _ (fun hreached => hnot hreached.before))
  rintro _ t ⟨rfl,hbefore⟩
  have hencoded : (RenameReached X io w target → False) → Unpublished X io w
      ⟨encodedStore X w.store,preparedFiles w target.parent,w.client,w.trace⟩ := by
    intro hno
    obtain ⟨hnone,_⟩ := hstay w.files.directories hno
    rw [hfiles]
    exact ⟨hnone,_,encodedStore X w.store,Or.inr rfl,rfl⟩
  unfold encodeDocument
  simp only [meets_bind,meets_get,modifyStore,meets_modify,meets_pure]
  rw [meets_ofResult]
  constructor
  swap
  · intro e he
    refine Or.inl (hencoded ?_)
    intro hreached
    have hok := he.symm.trans hreached.written
    cases hok
  intro u hwritten
  refine (checkDigest_spec X io.digestAfter target _ _ _).mono ?_ ?_
  swap
  · rintro _ t ⟨rfl,hnot⟩
    exact Or.inl (hencoded (fun hreached => hnot hreached.after))
  rintro _ t ⟨rfl,hafter⟩
  have hreached : io.rename=none → RenameReached X io w target :=
    fun hr => ⟨htarget,hready,hbefore,hwritten,hafter,hr⟩
  have hstop : io.rename≠none → ∀ other, ¬RenameReached X io w other :=
    fun hr other hother => hr hother.renamed
  have hp := publish_spec X io hreached hstop
    (rfl : (⟨encodedStore X w.store,⟨w.files.contents,(preparedFiles w target.parent).directories⟩,
      w.client,w.trace⟩ : World σ)=_)
  rw [←hfiles] at hp
  simp only [meets_bind] at hp
  exact hp

end Ros1Adapter.SceneStoreSaving
