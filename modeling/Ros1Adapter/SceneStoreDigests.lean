import Ros1Adapter.SceneStoreSteps

/-!
# Remembered digests after saves

A save publishes its bytes with the rename and remembers their digest only
after the directory calls that follow. A save that stops between the two leaves
the store behind its own file. Every other end of a save keeps the remembered
digest and the content of the target in agreement.
-/

namespace Ros1Adapter.SceneStoreDigests

open SceneJson SceneFiles SceneStore SceneStoreSaving SceneStoreSteps ActionRules

variable {σ : Type} {X : Externals} {hooks : Hooks σ}

/-- The remembered digest of a file is the digest of its content, or both are absent. -/
def Remembers (X : Externals) (w : World σ) (path : Path) : Prop :=
  w.store.fileDigests path=(w.files.contents path).map X.digest

/-- A save that renames other bytes over its target and then fails in a directory call. -/
def TornSave (X : Externals) (io : SaveIo) (w : World σ) (target : Path) : Prop :=
  RenameReached X io w target ∧ ¬DirectorySafe io ∧
    some (X.digest (encodedBytes X w.store))≠w.store.fileDigests target

/-- A save in which a torn end is possible fails after its rename. -/
theorem save_published {io : SaveIo} {w : World σ} {target : Path} (hr : RenameReached X io w target)
    (hd : ¬DirectorySafe io) : Published X io w (stateOf (save X io w)) := by
  have hs := save_spec X io w
  unfold Meets at hs
  cases hx : save X io w with
  | ok u t =>
    rw [hx] at hs
    obtain ⟨_,_,_,hsafe,_⟩ := hs
    exact absurd hsafe hd
  | error e t =>
    rw [hx] at hs
    rcases hs with hu | hp
    · exact absurd hr (hu.1 target)
    · exact hp

/-- A target is unique. -/
theorem target_unique {w : World σ} {first second : Path} (hf : saveTarget w.store=.ok first)
    (hs : saveTarget w.store=.ok second) : first=second := by
  rw [hf] at hs
  exact Except.ok.inj hs

/-- A published save agrees exactly when its bytes have the remembered digest. -/
theorem published_remembers_iff {io : SaveIo} {w t : World σ} {target : Path}
    (ht : saveTarget w.store=.ok target) (hp : Published X io w t) :
    Remembers X t target ↔ some (X.digest (encodedBytes X w.store))=w.store.fileDigests target := by
  obtain ⟨other,directories,hr,_,rfl⟩ := hp
  have he := target_unique hr.target_eq ht
  subst he
  unfold Remembers
  simp only [encodedStore,replacedFiles,if_true,Option.map_some]
  exact eq_comm

/-- A save that never renamed keeps every agreement. -/
theorem unpublished_remembers {io : SaveIo} {w t : World σ} {path : Path} (h : Remembers X w path)
    (hu : Unpublished X io w t) : Remembers X t path := by
  obtain ⟨_,directories,store,hs,rfl⟩ := hu
  rcases hs with rfl | rfl
  · exact h
  · exact h

/-- A completed save agrees at its target. -/
theorem completed_remembers {io : SaveIo} {w t : World σ} {target : Path}
    (ht : saveTarget w.store=.ok target) (hc : Completed X io w t) : Remembers X t target := by
  obtain ⟨other,directories,hr,_,rfl⟩ := hc
  have he := target_unique hr.target_eq ht
  subst he
  unfold Remembers savedStore replacedFiles
  simp

/-- A save that starts in agreement ends in agreement exactly when it is not torn. -/
theorem save_remembers_iff_not_torn (io : SaveIo) {w : World σ} {target : Path}
    (ht : saveTarget w.store=.ok target) (h : Remembers X w target) :
    Remembers X (stateOf (save X io w)) target ↔ ¬TornSave X io w target := by
  constructor
  · rintro hafter ⟨hr,hd,hne⟩
    have hp := save_published hr hd
    exact hne ((published_remembers_iff ht hp).mp hafter)
  · intro hnot
    have hs := save_spec X io w
    unfold Meets at hs
    cases hx : save X io w with
    | ok u t =>
      rw [hx] at hs
      exact completed_remembers ht hs
    | error e t =>
      rw [hx] at hs
      rcases hs with hu | hp
      · exact unpublished_remembers h hu
      · refine (published_remembers_iff ht hp).mpr ?_
        obtain ⟨other,directories,hr,hd,_⟩ := hp
        have he := target_unique hr.target_eq ht
        subst he
        by_contra hne
        exact hnot ⟨hr,hd,hne⟩

/-- The target of a save depends on the granted directory and the saved file only. -/
theorem saveTarget_congr {s t : Store} (hroot : t.saveRoot=s.saveRoot)
    (hfile : t.workingFile.or t.source=s.workingFile.or s.source) : saveTarget t=saveTarget s := by
  unfold saveTarget
  rw [hroot,hfile]

/-- A target of a save is the working file or the source. -/
theorem saveTarget_file {s : Store} {target : Path} (h : saveTarget s=.ok target) :
    s.workingFile.or s.source=some target := by
  unfold saveTarget at h
  cases hr : s.saveRoot with
  | none => simp [hr] at h
  | some root =>
    cases hf : s.workingFile.or s.source with
    | none => simp [hr,hf] at h
    | some file =>
      simp only [hr,hf] at h
      split_ifs at h
      rw [Except.ok.inj h]

/-- A completed save keeps the target. -/
theorem savedStore_target {s : Store} {target : Path} (h : saveTarget s=.ok target) :
    saveTarget (savedStore X s target)=.ok target := by
  rw [←h]
  refine saveTarget_congr rfl ?_
  have hf := saveTarget_file h
  show s.workingFile.or (some target)=s.workingFile.or s.source
  rw [hf]
  cases hw : s.workingFile with
  | none => rfl
  | some working =>
    rw [hw] at hf
    exact hf

/-- A store whose remembered digest agrees refuses only what it cannot read. -/
theorem remembers_not_refused {w t : World σ} {path : Path} (h : Remembers X w path) (fault : Fault)
    (refusal : String) {error : Error}
    (hx : checkDigest X fault path (w.store.fileDigests path) refusal w=.error error t) :
    currentDigest X w.files fault path=.error error := by
  cases hc : currentDigest X w.files fault path with
  | error e =>
    have he : checkDigest X fault path (w.store.fileDigests path) refusal w=.error e w := by
      unfold checkDigest
      rw [bind_of_ok (show (get : Act σ (World σ)) w=.ok w w from rfl),
        bind_of_error (show (ofResult (currentDigest X w.files fault path) : Act σ _) w=.error e w by
          rw [hc]; rfl)]
    rw [he] at hx
    cases hx
    rfl
  | ok found =>
    have hn := ((checkDigest_spec X fault path _ refusal w).thrown hx).2
    rw [hc] at hn
    refine absurd ?_ hn
    rw [h,(currentDigest_ok X hc).1]

/-- The target of a save is fixed and its remembered digest agrees. -/
def InStep (X : Externals) (target : Path) (w : World σ) : Prop :=
  saveTarget w.store=.ok target ∧ Remembers X w target

/-- Quiet effects with sound directory calls keep the store in step with its target. -/
theorem quiet_inStep {io : CommandIo} {request : Json} {target : Path} (hsafe : DirectoriesSafe io)
    (w t : World σ) (h : InStep X target w) (hs : Quiet X hooks io request w t) : InStep X target t := by
  cases hs with
  | ticked | directories | counted | encoded | refused | held => exact h
  | published directories hg hd => exact absurd hsafe hd
  | completed directories hg =>
    have he := target_unique hg.1 h.1
    subst he
    refine ⟨savedStore_target h.1,?_⟩
    unfold Remembers savedStore replacedFiles
    simp

/-- A loaded document comes with the digest of its bytes. -/
theorem loadBytes_digest {bytes : ByteArray} {document : Json} {digest : String}
    (h : loadBytes X bytes=.ok (document,digest)) : digest=X.digest bytes := by
  unfold loadBytes at h
  cases hp : X.parseYaml bytes with
  | error e => simp [hp,bind,Except.bind] at h
  | ok value =>
    simp only [hp,bind,Except.bind] at h
    cases hd : SceneDocument.document X.spell X.math value with
    | error e => simp [hd] at h
    | ok found =>
      simp only [hd,pure,Except.pure,Except.ok.injEq,Prod.mk.injEq] at h
      exact h.2.symm

/-- Accepted hook calls keep the store in step with its target. -/
theorem accepted_inStep {request : Json} {target : Path} (w t : World σ) (h : InStep X target w)
    (ha : Accepted X hooks request w t) : InStep X target t := by
  cases ha with
  | @applied candidate adopt events client hp hh =>
    cases hp with
    | resync _ | undo _ _ | redo _ _ | edit _ _ => exact h
    | @reload source bytes document digest ho hs hc hl =>
      refine ⟨h.1,?_⟩
      unfold Remembers
      dsimp only [appliedStore]
      by_cases hpath : target=source
      · rw [if_pos hpath,hpath,hc,loadBytes_digest hl]
        rfl
      · rw [if_neg hpath]
        exact h.2
  | @moved client operation =>
    obtain ⟨playing,elapsed,startedAt,client',hm⟩ := movedWorld_shape hooks operation w client
    rw [hm]
    exact h

/-- Commands whose directory calls succeed keep the store in step with its target. -/
theorem step_inStep {target : Path} (w : World σ) (step : Step) (h : InStep X target w)
    (hstep : ∃ io request, step=.command io request ∧ DirectoriesSafe io) :
    InStep X target (stepWorld X hooks w step) := by
  obtain ⟨io,request,rfl,hsafe⟩ := hstep
  exact command_preserves (quiet_inStep hsafe) accepted_inStep (fun _ _ hu => hu)
    (fun _ _ _ _ hu => hu) h

/-- A save from a state in agreement with its target, whatever call of it
fails, ends in agreement exactly when it is not torn: when it does not rename
new bytes over the target and then fail to open, synchronize or close the
directory. In a run of commands without such a directory failure the agreement
holds in every state, and digest checks refuse only a file they cannot read. -/
theorem save_keeps_agreement (X : Externals) (hooks : Hooks σ) {w : World σ} {target : Path}
    (ht : saveTarget w.store=.ok target) (h : Remembers X w target) :
    (∀ io, Remembers X (stateOf (save X io w)) target ↔ ¬TornSave X io w target) ∧
      ∀ steps, (∀ step∈steps, ∃ io request, step=.command io request ∧ DirectoriesSafe io) →
        Remembers X (run (stepWorld X hooks) w steps) target ∧
          ∀ fault refusal error t, checkDigest X fault target
              ((run (stepWorld X hooks) w steps).store.fileDigests target) refusal
              (run (stepWorld X hooks) w steps)=.error error t →
            currentDigest X (run (stepWorld X hooks) w steps).files fault target=.error error := by
  refine ⟨fun io => save_remembers_iff_not_torn io ht h,?_⟩
  intro steps hsteps
  have hrun : InStep X target (run (stepWorld X hooks) w steps) :=
    run_invariant (fun u step hu hs => step_inStep u step hu hs) ⟨ht,h⟩
      (along_of_forall _ w hsteps)
  refine ⟨hrun.2,?_⟩
  intro fault refusal error t hx
  exact remembers_not_refused hrun.2 fault refusal hx

/-- The agreement of a new store without a file, over every save and every sound run. -/
theorem save_keeps_agreement_hall :
    saveTarget hallWorld.store=.ok hallFile ∧ Remembers hallExternals hallWorld hallFile ∧
      ∀ io, Remembers hallExternals (stateOf (save hallExternals io hallWorld)) hallFile ↔
        ¬TornSave hallExternals io hallWorld hallFile := by
  have ht : saveTarget hallWorld.store=.ok hallFile := by decide +kernel
  have hr : Remembers hallExternals hallWorld hallFile := by
    unfold Remembers
    decide +kernel
  exact ⟨ht,hr,(save_keeps_agreement hallExternals acceptingHooks ht hr).1⟩

/-- The directory of a first save cannot be synchronized: the file is there, its
digest is not remembered, and the store refuses its next edit. -/
theorem save_torn_by_directory_sync :
    construct hallExternals acceptingHooks hallArguments (filesOf [] [["scenes"]]) ()=.ok hallWorld ∧
      saveTarget hallWorld.store=.ok hallFile ∧ Remembers hallExternals hallWorld hallFile ∧
      ¬Remembers hallExternals
        (stateOf (save hallExternals {directorySync := some 5} hallWorld)) hallFile ∧
      (command hallExternals acceptingHooks {} (sampleRequest "replace" "a" 1 [("document",emptyRoom)])
        (stateOf (save hallExternals {directorySync := some 5} hallWorld))).1.member "error"=
        some (.string kExternalEdit) := by
  refine ⟨rfl,?_⟩
  unfold Remembers
  decide +kernel

end Ros1Adapter.SceneStoreDigests
