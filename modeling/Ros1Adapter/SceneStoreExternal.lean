import Ros1Adapter.SceneStoreAtomic
import Ros1Adapter.SceneStoreDigests

/-!
# External edits

Another writer may change, create or delete files between commands. The
content that the store knows of a file is what it last loaded from it or wrote
to it; the remembered digests are the digests of the known contents as long as
no save is torn. A command overwrites only content that the store knows.
-/

namespace Ros1Adapter.SceneStoreExternal

open SceneJson SceneFiles SceneStore SceneStoreSaving SceneStoreSteps SceneStoreAtomic
open SceneStoreDigests ActionRules

variable {σ : Type} {X : Externals} {hooks : Hooks σ} {io : CommandIo} {request : Json}

/-- Content that the store last loaded from a file or wrote to it, starting
from what it knew when it was opened. -/
def knownContent (base : Path → Option ByteArray) : List Event → Path → Option ByteArray
  | [],path => base path
  | .replaced target bytes::rest,path => if path=target then some bytes else knownContent base rest path
  | .loaded source bytes::rest,path => if path=source then some bytes else knownContent base rest path
  | _::rest,path => knownContent base rest path

/-- Remembered digests are the digests of the known contents. -/
def Digested (X : Externals) (base : Path → Option ByteArray) (w : World σ) : Prop :=
  ∀ path, w.store.fileDigests path=(knownContent base w.trace path).map X.digest

/-- An effect passes a file by, or it overwrites known content and knows the result. -/
def FileEffect (base : Path → Option ByteArray) (w t : World σ) (path : Path) : Prop :=
  ∃ events, t.trace=events ++ w.trace ∧
    ((t.files.contents path=w.files.contents path ∧
        knownContent base t.trace path=knownContent base w.trace path ∧
        ∀ bytes, Event.replaced path bytes∉events) ∨
      (w.files.contents path=knownContent base w.trace path ∧
        t.files.contents path=knownContent base t.trace path))

variable {base : Path → Option ByteArray}

/-- Nothing happens to a file. -/
theorem fileEffect_refl (w : World σ) (path : Path) : FileEffect base w w path :=
  ⟨[],rfl,Or.inl ⟨rfl,rfl,by simp⟩⟩

/-- Effects on a file compose. -/
theorem fileEffect_trans {w v t : World σ} {path : Path} (h : FileEffect base w v path)
    (h' : FileEffect base v t path) : FileEffect base w t path := by
  obtain ⟨events,htrace,hfirst⟩ := h
  obtain ⟨events',htrace',hsecond⟩ := h'
  refine ⟨events' ++ events,by rw [htrace',htrace,List.append_assoc],?_⟩
  rcases hfirst with ⟨hc,hk,hn⟩ | ⟨hc,hk⟩
  · rcases hsecond with ⟨hc',hk',hn'⟩ | ⟨hc',hk'⟩
    · refine Or.inl ⟨hc'.trans hc,hk'.trans hk,?_⟩
      intro bytes hmem
      rcases List.mem_append.mp hmem with hm | hm
      · exact hn' bytes hm
      · exact hn bytes hm
    · exact Or.inr ⟨by rw [←hc,←hk,hc'],hk'⟩
  · rcases hsecond with ⟨hc',hk',_⟩ | ⟨_,hk'⟩
    · exact Or.inr ⟨hc,by rw [hc',hk',hk]⟩
    · exact Or.inr ⟨hc,hk'⟩

/-- Distinct contents have distinct digests. -/
def CollisionFree (X : Externals) : Prop := ∀ first second, X.digest first=X.digest second → first=second

/-- A guarded save overwrites known content. -/
theorem guarded_known (hx : CollisionFree X) {w : World σ} {target : Path} (hd : Digested X base w)
    (hg : Guarded X w target) : w.files.contents target=knownContent base w.trace target := by
  have hdigest := hg.2.1
  rw [hd target] at hdigest
  exact Option.map_injective hx hdigest

/-- Quiet effects with sound directory calls overwrite only known content. -/
theorem quiet_file (hx : CollisionFree X) (hsafe : DirectoriesSafe io) {w t : World σ}
    (hd : Digested X base w) (h : Quiet X hooks io request w t) :
    Digested X base t ∧ ∀ path, FileEffect base w t path := by
  have hstay : ∀ {u : World σ}, u.files.contents=w.files.contents → u.trace=w.trace →
      ∀ path, FileEffect base w u path := by
    intro u hc ht path
    exact ⟨[],ht,Or.inl ⟨by rw [hc],by rw [ht],by simp⟩⟩
  cases h with
  | ticked | directories | counted | encoded => exact ⟨hd,hstay rfl rfl⟩
  | published directories hg hnot => exact absurd hsafe hnot
  | @completed target directories hg =>
    constructor
    · intro path
      dsimp only [savedStore,knownContent]
      by_cases hp : path=target
      · rw [if_pos hp,if_pos hp]
        rfl
      · rw [if_neg hp,if_neg hp]
        exact hd path
    · intro path
      refine ⟨[_,_],rfl,?_⟩
      dsimp only [replacedFiles,knownContent]
      by_cases hp : path=target
      · rw [if_pos hp,if_pos hp]
        refine Or.inr ⟨?_,rfl⟩
        rw [hp]
        exact guarded_known hx hd hg
      · rw [if_neg hp,if_neg hp]
        refine Or.inl ⟨rfl,rfl,?_⟩
        intro bytes hm
        simp only [List.mem_cons,reduceCtorEq,false_or,List.not_mem_nil,or_false] at hm
        injection hm with he
        exact hp he
  | refused | held => exact ⟨hd,fun path => ⟨[_],rfl,Or.inl ⟨rfl,rfl,by simp⟩⟩⟩

/-- Any number of quiet effects overwrite only known content. -/
theorem quiets_file (hx : CollisionFree X) (hsafe : DirectoriesSafe io) {w t : World σ}
    (hd : Digested X base w) (h : Quiets X hooks io request w t) :
    Digested X base t ∧ ∀ path, FileEffect base w t path := by
  induction h with
  | refl => exact ⟨hd,fileEffect_refl w⟩
  | tail _ hstep ih =>
    obtain ⟨hdv,heffects⟩ := ih
    obtain ⟨hdt,heffect⟩ := quiet_file hx hsafe hdv hstep
    exact ⟨hdt,fun path => fileEffect_trans (heffects path) (heffect path)⟩

/-- A reload that was accepted knows the content of its file afterwards. -/
def Reloaded (base : Path → Option ByteArray) (w t : World σ) (path : Path) : Prop :=
  t.files.contents path=w.files.contents path ∧
    t.files.contents path=knownContent base t.trace path ∧
    ∃ events, t.trace=events ++ w.trace ∧ (∃ bytes, Event.loaded path bytes∈events) ∧
      ∀ bytes, Event.replaced path bytes∉events

/-- An accepted call passes every file by, or it is a reload. -/
theorem accepted_file {w t : World σ} (hd : Digested X base w) (h : Accepted X hooks request w t) :
    Digested X base t ∧ ∀ path, FileEffect base w t path ∨
      (operationOf request=.reload ∧ Reloaded base w t path) := by
  cases h with
  | @applied candidate adopt events client hp hh =>
    cases hp with
    | @reload source bytes document digest ho hs hc hl =>
      constructor
      · intro path
        show (if path=source then some digest else w.store.fileDigests path)=
          (if path=source then some bytes else knownContent base w.trace path).map X.digest
        by_cases hpath : path=source
        · rw [if_pos hpath,if_pos hpath,loadBytes_digest hl]
          rfl
        · rw [if_neg hpath,if_neg hpath]
          exact hd path
      · intro path
        by_cases hpath : path=source
        · subst hpath
          refine Or.inr ⟨ho,rfl,?_,[_,_],rfl,⟨bytes,by simp⟩,by simp⟩
          show w.files.contents path=if path=path then some bytes else knownContent base w.trace path
          rw [if_pos rfl,hc]
        · refine Or.inl ⟨[_,_],rfl,Or.inl ⟨rfl,?_,by simp⟩⟩
          show (if path=source then some bytes else knownContent base w.trace path)=_
          rw [if_neg hpath]
    | _ => exact ⟨hd,fun path => Or.inl ⟨[_],rfl,Or.inl ⟨rfl,rfl,by simp⟩⟩⟩
  | @moved client operation =>
    obtain ⟨playing,elapsed,startedAt,client',hm⟩ := movedWorld_shape hooks operation w client
    rw [hm]
    exact ⟨hd,fun path => Or.inl ⟨[_],rfl,Or.inl ⟨rfl,rfl,by simp⟩⟩⟩

/-- What a whole command does to a file. -/
def CommandEffect (base : Path → Option ByteArray) (w t : World σ) (path : Path) : Prop :=
  FileEffect base w t path ∨ ∃ q, FileEffect base w q path ∧ Reloaded base q t path

/-- An operation, its autosave included, overwrites only known content. -/
theorem execute_file (hx : CollisionFree X) (hsafe : DirectoriesSafe io) {w : World σ}
    (hd : Digested X base w) :
    Meets (execute X hooks io request) w
      (fun _ t => Digested X base t ∧ ∀ path, CommandEffect base w t path)
      (fun _ t => Digested X base t ∧ ∀ path, CommandEffect base w t path) := by
  have hquiets : ∀ t, Quiets X hooks io request w t →
      Digested X base t ∧ ∀ path, CommandEffect base w t path := by
    intro t ht
    obtain ⟨hdt,heffect⟩ := quiets_file hx hsafe hd ht
    exact ⟨hdt,fun path => Or.inl (heffect path)⟩
  unfold execute
  rw [meets_bind]
  refine Meets.mono ((commit_spec X hooks io request w).both (commit_answers X hooks io request w)) ?_ ?_
  swap
  · rintro _ t ⟨ht,_⟩
    exact hquiets t ht
  rintro saves m ⟨⟨q,hq,hm⟩,hanswer⟩
  obtain ⟨hdq,hwq⟩ := quiets_file hx hsafe hd hq
  rcases hm with ⟨rfl,rfl⟩ | hacc
  · exact ⟨hdq,fun path => Or.inl (hwq path)⟩
  obtain ⟨hdm,hqm⟩ := accepted_file hdq hacc
  cases saves with
  | false =>
    refine ⟨hdm,fun path => ?_⟩
    rcases hqm path with heffect | ⟨_,hreloaded⟩
    · exact Or.inl (fileEffect_trans (hwq path) heffect)
    · exact Or.inr ⟨q,hwq path,hreloaded⟩
  | true =>
    -- An autosave follows, so the operation is no reload.
    have heffects : ∀ path, FileEffect base w m path := by
      intro path
      rcases hqm path with heffect | ⟨hreload,_⟩
      · exact fileEffect_trans (hwq path) heffect
      · have hfalse := hanswer.2 hreload
        cases hfalse
    have hlast : ∀ t, Quiets X hooks io request m t →
        Digested X base t ∧ ∀ path, CommandEffect base w t path := by
      intro t ht
      obtain ⟨hdt,hmt⟩ := quiets_file hx hsafe hdm ht
      exact ⟨hdt,fun path => Or.inl (fileEffect_trans (heffects path) (hmt path))⟩
    exact (autosave_quiets X hooks io request m).mono (fun _ t ht => hlast t ht) (fun _ t ht => hlast t ht)

/-- The effect on a file depends on contents and events only. -/
theorem commandEffect_congr {w t u : World σ} {path : Path} (hf : u.files=t.files)
    (ht : u.trace=t.trace) (h : CommandEffect base w t path) : CommandEffect base w u path := by
  unfold CommandEffect FileEffect Reloaded at h ⊢
  rw [hf,ht]
  exact h

/-- A command overwrites only known content. -/
theorem command_file (hx : CollisionFree X) (hsafe : DirectoriesSafe io) {w : World σ}
    (hd : Digested X base w) :
    Digested X base (command X hooks io request w).2 ∧
      ∀ path, CommandEffect base w (command X hooks io request w).2 path := by
  have ho := command_outcome X hooks io request w
  generalize command X hooks io request w=result at ho
  have hresult : ∀ (success : Bool) (error : String) (t : World σ),
      Digested X base t ∧ (∀ path, CommandEffect base w t path) →
      ∀ store, store.fileDigests=t.store.fileDigests →
        Digested X base {(resultLocked hooks success error t).2 with store := store} ∧
          ∀ path, CommandEffect base w {(resultLocked hooks success error t).2 with store := store} path := by
    rintro success error t ⟨hdt,heffect⟩ store hstore
    refine ⟨?_,fun path => commandEffect_congr (resultLocked_files success error t)
      (resultLocked_trace success error t) (heffect path)⟩
    intro path
    show store.fileDigests path=(knownContent base (resultLocked hooks success error t).2.trace path).map X.digest
    rw [hstore,resultLocked_trace]
    exact hdt path
  have hself : Digested X base w ∧ ∀ path, CommandEffect base w w path :=
    ⟨hd,fun path => Or.inl (fileEffect_refl w path)⟩
  cases ho with
  | answered success error hfresh =>
    exact hresult success error w hself (resultLocked hooks success error w).2.store
      (by rw [resultLocked_store])
  | replayed hreplay => exact hself
  | performed hfresh =>
    have hexecute : Meets (execute X hooks io request) w
        (fun _ t => Digested X base t ∧ ∀ path, CommandEffect base w t path)
        (fun _ t => Digested X base t ∧ ∀ path, CommandEffect base w t path) :=
      execute_file hx hsafe hd
    unfold Meets at hexecute
    unfold finished
    cases hex : execute X hooks io request w with
    | ok u t =>
      rw [hex] at hexecute
      exact hresult true "" t hexecute _ (by dsimp only [retain]; rw [resultLocked_store])
    | error e t =>
      rw [hex] at hexecute
      exact hresult false e.what t hexecute _ (by dsimp only [retain]; rw [resultLocked_store])

/-- The source and the target of saves have their known content. -/
def Matched (base : Path → Option ByteArray) (w : World σ) : Prop :=
  ∀ path, w.store.source=some path ∨ saveTarget w.store=.ok path →
    w.files.contents path=knownContent base w.trace path

/-- A digest read that matches finds the known content. -/
theorem currentDigest_known (hx : CollisionFree X) {w : World σ} (hd : Digested X base w)
    {fault : Fault} {path : Path}
    (h : currentDigest X w.files fault path=.ok (w.store.fileDigests path)) :
    w.files.contents path=knownContent base w.trace path := by
  have hfound := (currentDigest_ok X h).1
  rw [hd path] at hfound
  exact (Option.map_injective hx hfound).symm

/-- The target of a store that saves to its source is the source. -/
theorem target_is_source {s : Store} {target : Path} (ht : saveTarget s=.ok target)
    (h : (s.workingFile.isSome && decide (s.source≠s.workingFile))=false) : s.source=some target := by
  have hfile := saveTarget_file ht
  cases hw : s.workingFile with
  | none =>
    rw [hw] at hfile
    exact hfile
  | some working =>
    rw [hw] at h hfile
    simp only [Option.isSome_some,Bool.true_and,decide_eq_false_iff_not,not_not] at h
    rw [h]
    exact hfile

/-- An edit is prepared only over known content. -/
theorem prepareEdit_matched (hx : CollisionFree X) (w : World σ) (hd : Digested X base w) :
    Meets (prepareEdit X io) w (fun _ _ => Matched base w) (fun _ _ => True) := by
  unfold prepareEdit
  rw [meets_bind]
  refine (checkSource_spec X io.check w).mono ?_ (fun _ _ _ => trivial)
  rintro _ t ⟨rfl,hsource⟩
  have hknown : ∀ path, t.store.source=some path →
      t.files.contents path=knownContent base t.trace path := by
    intro path hs
    exact currentDigest_known hx hd (hsource path hs)
  rw [meets_bind,meets_get,meets_ite]
  constructor
  · intro _
    refine (save_spec X io.prepare t).mono ?_ (fun _ _ _ => trivial)
    rintro _ u ⟨target,directories,hreached,_,_⟩ path hpath
    rcases hpath with hs | ht
    · exact hknown path hs
    · rw [target_unique ht hreached.target_eq]
      exact guarded_known hx hd hreached.guarded
  · intro hno path hpath
    rcases hpath with hs | ht
    · exact hknown path hs
    · have hfalse : (t.store.workingFile.isSome &&
          decide (t.store.source≠t.store.workingFile))=false := by simpa using hno
      exact hknown path (target_is_source ht hfalse)

/-- A request that writes the scene file when it succeeds. -/
def Writes (X : Externals) (s : Store) (request : Json) : Prop :=
  operationOf request=.save ∨ operationOf request=.undo ∨ operationOf request=.redo ∨
    ∃ candidate, editCandidate X (operationOf request) s.document request=.ok candidate ∧
      candidate.equal s.document=false

/-- An edit commits only over known content. -/
theorem edit_matched (hx : CollisionFree X) (w : World σ) (hd : Digested X base w) :
    Meets (edit X hooks io (operationOf request) request) w
      (fun _ _ => (∃ candidate, editCandidate X (operationOf request) w.store.document request=
        .ok candidate ∧ candidate.equal w.store.document=false) → Matched base w)
      (fun _ _ => True) := by
  unfold edit
  simp only [modifyStore,meets_bind,meets_modify,meets_get,meets_ofResult]
  refine ⟨?_,fun _ _ => trivial⟩
  intro candidate hc
  rw [meets_ite]
  constructor
  · rintro heq ⟨found,hfound,hne⟩
    rw [hc] at hfound
    cases hfound
    rw [heq] at hne
    cases hne
  · intro _
    rw [meets_bind]
    have hprepare : ∀ u : World σ, Digested X base u →
        Meets (prepareEdit X io) u (fun _ _ => Matched base u) (fun _ _ => True) :=
      fun u hu => prepareEdit_matched hx u hu
    refine Meets.mono (hprepare _ ?_) ?_ (fun _ _ _ => trivial)
    · exact hd
    intro _ t hmatched
    exact meets_always _ _ (fun _ _ _ => hmatched) (fun _ _ => trivial)

/-- An undo or a redo commits only over known content. -/
theorem prepared_matched (hx : CollisionFree X) (w : World σ) (hd : Digested X base w)
    (rest : Act σ Unit) :
    Meets (do prepareEdit X io; rest) w (fun _ _ => Matched base w) (fun _ _ => True) := by
  rw [meets_bind]
  refine (prepareEdit_matched hx w hd).mono ?_ (fun _ _ _ => trivial)
  intro _ t hmatched
  exact meets_always _ _ (fun _ _ => hmatched) (fun _ _ => trivial)

/-- A writing request commits only over known content. -/
theorem commit_matched (hx : CollisionFree X) (w : World σ) (hd : Digested X base w) :
    Meets (commit X hooks io request) w (fun _ _ => Writes X w.store request → Matched base w)
      (fun _ _ => True) := by
  unfold commit
  rw [meets_bind,meets_get]
  split
  · exact trivial
  -- Operations that write nothing have no candidate either.
  have hidle : ∀ {action : Act σ Bool}, ¬Writes X w.store request →
      Meets action w (fun _ _ => Writes X w.store request → Matched base w) (fun _ _ => True) :=
    fun hno => meets_always _ _ (fun _ _ hw => absurd hw hno) (fun _ _ => trivial)
  have hedit : ∀ {operation : Operation}, operationOf request=operation →
      operation≠.save → operation≠.undo → operation≠.redo →
      Meets (edit X hooks io operation request) w
        (fun _ _ => Writes X w.store request → Matched base w) (fun _ _ => True) := by
    intro operation ho hsave hundo hredo
    subst ho
    refine (edit_matched hx w hd).mono ?_ (fun _ _ _ => trivial)
    intro _ _ hmatched hw
    rcases hw with h | h | h | h
    · exact absurd h hsave
    · exact absurd h hundo
    · exact absurd h hredo
    · exact hmatched h
  cases ho : operationOf request with
  | save =>
    simp only
    rw [meets_bind]
    refine (checkSource_spec X io.check w).mono ?_ (fun _ _ _ => trivial)
    rintro _ t ⟨rfl,hsource⟩
    rw [meets_bind]
    refine (save_spec X io.save t).mono ?_ (fun _ _ _ => trivial)
    rintro _ u ⟨target,directories,hreached,_,_⟩ _ path hpath
    rcases hpath with hs | ht
    · exact currentDigest_known hx hd (hsource path hs)
    · rw [target_unique ht hreached.target_eq]
      exact guarded_known hx hd hreached.guarded
  | undo =>
    simp only
    unfold undo
    rw [meets_bind,meets_bind,meets_get]
    split
    · exact trivial
    · refine (prepared_matched hx w hd _).mono ?_ (fun _ _ _ => trivial)
      intro _ _ hmatched _
      exact hmatched
  | redo =>
    simp only
    unfold redo
    rw [meets_bind,meets_bind,meets_get]
    split
    · exact trivial
    · refine (prepared_matched hx w hd _).mono ?_ (fun _ _ _ => trivial)
      intro _ _ hmatched _
      exact hmatched
  | resync | reload | play | pause | reset => exact hidle (by simp [Writes,ho,editCandidate])
  | _ => exact hedit ho (by simp) (by simp) (by simp)

/-- Over content that the store does not know, an executed writing request fails. -/
theorem unmatched_write_fails (hx : CollisionFree X) {w : World σ} (hd : Digested X base w)
    (hno : ¬Matched base w) (hw : Writes X w.store request) {id fingerprint : String}
    (hfresh : admission X w.store request=.fresh id fingerprint) :
    (command X hooks io request w).1.member "success"=some (.boolean false) := by
  have ho := command_outcome X hooks io request w
  generalize command X hooks io request w=result at ho
  cases ho with
  | answered success error h => exact absurd hfresh (h id fingerprint)
  | replayed h =>
    rw [hfresh] at h
    cases h
  | performed h =>
    unfold finished
    cases hex : execute X hooks io request w with
    | error e t => exact resultLocked_success false e.what t
    | ok u t =>
      have hcommit : Meets (commit X hooks io request) w
          (fun _ _ => Writes X w.store request → Matched base w) (fun _ _ => True) :=
        commit_matched hx w hd
      rcases execute_cases X hooks io request w with ⟨e,t',_,hbad⟩ | ⟨m,hc,_⟩ | ⟨m,hc,_⟩
      · rw [hex] at hbad
        cases hbad
      · exact absurd (hcommit.returned hc hw) hno
      · exact absurd (hcommit.returned hc hw) hno

/-- Content that a new store knows: the working file as it was read, else the
bytes behind the digest that the caller passed, else the source as it is. -/
def openKnown (arguments : StoreArguments) (files : Files) (callerBytes : ByteArray) (path : Path) :
    Option ByteArray :=
  let working := match arguments.workingFile with
    | some file => files.present file
    | none => false
  let source := if working then arguments.workingFile else arguments.source
  if source=some path ∧ files.present path=true then
    if working=false ∧ arguments.sourceDigest≠none ∧ arguments.sourceDigest≠some "" then some callerBytes
    else files.contents path
  else none

/-- The digest passed to the constructor is the digest of the bytes that the caller loaded. -/
def CallerLoaded (X : Externals) (arguments : StoreArguments) (callerBytes : ByteArray) : Prop :=
  ∀ digest, arguments.sourceDigest=some digest → digest=X.digest callerBytes

/-- A digest read at construction is the digest of the current content. -/
theorem openDigest_current {arguments : StoreArguments} {files : Files} {source : Path}
    {given : Option String} {digests : Path → Option String} (hg : given=none ∨ given=some "")
    (h : openDigest X arguments files (some source) given=.ok digests) (path : Path) :
    digests path=if source=path ∧ files.present path=true then (files.contents path).map X.digest
      else none := by
  unfold openDigest at h
  have hread : ∀ result : Except Error (Path → Option String),
      result=(do
        let current ← currentDigest X files arguments.digest source
        return fun other => if other=source then current else none) → result=.ok digests →
      digests path=if source=path then (files.contents path).map X.digest else none := by
    intro result hresult hok
    rw [hresult] at hok
    cases hc : currentDigest X files arguments.digest source with
    | error e => simp [hc,bind,Except.bind] at hok
    | ok current =>
      simp only [hc,bind,Except.bind,pure,Except.pure,Except.ok.injEq] at hok
      rw [←hok,(currentDigest_ok X hc).1]
      dsimp only
      by_cases hp : path=source
      · rw [if_pos hp,if_pos hp.symm,hp]
      · rw [if_neg hp,if_neg (fun he => hp he.symm)]
  cases hp : files.present source with
  | false =>
    simp only [hp,Bool.false_eq_true,if_false,Except.ok.injEq] at h
    rw [←h,if_neg]
    rintro ⟨rfl,hpresent⟩
    rw [hp] at hpresent
    cases hpresent
  | true =>
    have hfound : digests path=if source=path then (files.contents path).map X.digest else none := by
      rcases hg with rfl | rfl
      · simp only [hp,if_true] at h
        exact hread _ rfl h
      · simp only [hp,if_true,ne_eq,not_true_eq_false,if_false] at h
        exact hread _ rfl h
    rw [hfound]
    by_cases hs : source=path
    · rw [if_pos hs,if_pos ⟨hs,by rw [←hs]; exact hp⟩]
    · rw [if_neg hs,if_neg (fun hboth => hs hboth.1)]

/-- A digest passed to the constructor is kept for a source that exists. -/
theorem openDigest_given {arguments : StoreArguments} {files : Files} {source : Path}
    {digest : String} {digests : Path → Option String} (hg : digest≠"")
    (h : openDigest X arguments files (some source) (some digest)=.ok digests) (path : Path) :
    digests path=if source=path ∧ files.present path=true then some digest else none := by
  unfold openDigest at h
  cases hp : files.present source with
  | false =>
    simp only [hp,Bool.false_eq_true,if_false,Except.ok.injEq] at h
    rw [←h,if_neg]
    rintro ⟨rfl,hpresent⟩
    rw [hp] at hpresent
    cases hpresent
  | true =>
    simp only [hp,if_true,ne_eq,hg,not_false_eq_true,Except.ok.injEq] at h
    rw [←h]
    dsimp only
    by_cases hs : source=path
    · rw [if_pos hs.symm,if_pos ⟨hs,by rw [←hs]; exact hp⟩]
    · rw [if_neg (fun he => hs he.symm),if_neg (fun hboth => hs hboth.1)]

/-- A file that was read at construction has the digest of its content. -/
theorem readDocument_digest {files : Files} {fault : Fault} {path : Path} {loaded : Json × String}
    (h : readDocument X files fault path=.ok loaded) :
    ∃ bytes, files.contents path=some bytes ∧ loaded.2=X.digest bytes := by
  unfold readDocument at h
  cases hr : SceneFiles.read X files fault path with
  | error e => simp [hr,bind,Except.bind] at h
  | ok bytes =>
    simp only [hr,bind,Except.bind] at h
    exact ⟨bytes,(read_ok X hr).1,loadBytes_digest h⟩

/-- A new store remembers the digests of what it knows. -/
theorem opened_digested {arguments : StoreArguments} {files : Files} {callerBytes : ByteArray}
    (hcaller : CallerLoaded X arguments callerBytes) {w : World σ} (h : Opened X arguments files w) :
    Digested X (openKnown arguments files callerBytes) w := by
  obtain ⟨source,input,given,digests,startedAt,hinput,_,hdigests,hstore⟩ := h.input
  intro path
  have hfile : w.store.fileDigests=digests := by
    rw [hstore]
    rfl
  rw [hfile,h.trace_eq]
  show digests path=(openKnown arguments files callerBytes path).map X.digest
  -- Without a source nothing is remembered.
  have hnosource : source=none → digests path=none := by
    rintro rfl
    simp only [openDigest,Except.ok.injEq] at hdigests
    rw [←hdigests]
  -- The source itself, with the digest of the caller or its current one.
  have hsource : source=arguments.source → given=arguments.sourceDigest →
      openKnown arguments files callerBytes path=(if arguments.source=some path ∧ files.present path=true then
        if arguments.sourceDigest≠none ∧ arguments.sourceDigest≠some "" then some callerBytes
        else files.contents path else none) →
      digests path=(openKnown arguments files callerBytes path).map X.digest := by
    intro hs hg hknown
    rw [hknown]
    cases hsome : arguments.source with
    | none =>
      rw [hnosource (hs.trans hsome),if_neg (by simp)]
      rfl
    | some file =>
      rw [hs,hsome,hg] at hdigests
      simp only [Option.some.injEq]
      by_cases hempty : arguments.sourceDigest=none ∨ arguments.sourceDigest=some ""
      · rw [openDigest_current hempty hdigests path]
        have hnot : ¬(arguments.sourceDigest≠none ∧ arguments.sourceDigest≠some "") := by
          rintro ⟨hn,he⟩
          exact hempty.elim hn he
        rw [if_neg hnot]
        split <;> rfl
      · have hboth : arguments.sourceDigest≠none ∧ arguments.sourceDigest≠some "" :=
          ⟨fun hn => hempty (Or.inl hn),fun he => hempty (Or.inr he)⟩
        obtain ⟨digest,hd⟩ := Option.ne_none_iff_exists'.mp hboth.1
        have hne : digest≠"" := by
          rintro rfl
          exact hboth.2 hd
        rw [hd] at hdigests
        rw [openDigest_given hne hdigests path,if_pos hboth,hcaller digest hd]
        split <;> rfl
  unfold openInput at hinput
  cases hw : arguments.workingFile with
  | none =>
    simp only [hw,pure,Except.pure,Except.ok.injEq,Prod.mk.injEq] at hinput
    exact hsource hinput.1.symm hinput.2.2.symm (by simp [openKnown,hw])
  | some working =>
    cases hp : files.present working with
    | false =>
      simp only [hw,hp,Bool.false_eq_true,if_false,pure,Except.pure,Except.ok.injEq,Prod.mk.injEq] at hinput
      exact hsource hinput.1.symm hinput.2.2.symm (by simp [openKnown,hw,hp])
    | true =>
      simp only [hw,hp,if_true] at hinput
      cases hr : readDocument X files arguments.load working with
      | error e => simp [hr,bind,Except.bind] at hinput
      | ok loaded =>
        simp only [hr,bind,Except.bind,pure,Except.pure,Except.ok.injEq,Prod.mk.injEq] at hinput
        obtain ⟨hs,_,hg⟩ := hinput
        obtain ⟨bytes,hcontent,hloaded⟩ := readDocument_digest hr
        have hknown : openKnown arguments files callerBytes path=
            if working=path ∧ files.present path=true then files.contents path else none := by
          simp [openKnown,hw,hp]
        rw [←hs,←hg] at hdigests
        rw [hknown]
        by_cases hempty : loaded.2=""
        · rw [hempty] at hdigests
          rw [openDigest_current (Or.inr rfl) hdigests path]
          split <;> rfl
        · rw [openDigest_given hempty hdigests path]
          by_cases hpath : working=path ∧ files.present path=true
          · rw [if_pos hpath,if_pos hpath,←hpath.1,hcontent,hloaded]
            rfl
          · rw [if_neg hpath,if_neg hpath]
            rfl

/-- A step of another writer, or a command whose directory calls succeed. -/
def SoundStep : Step → Prop
  | .command io _ => DirectoriesSafe io
  | .external _ _ => True

/-- Sound steps keep the remembered digests in agreement with the known contents. -/
theorem step_digested (hx : CollisionFree X) (w : World σ) (step : Step) (hd : Digested X base w)
    (hs : SoundStep step) : Digested X base (stepWorld X hooks w step) := by
  cases step with
  | command io request => exact (command_file hx hs hd).1
  | external path content => exact hd

/-- The new events of a command that reloaded a file after other effects. -/
theorem commandEffect_events {w t : World σ} {path : Path} (h : CommandEffect base w t path) :
    t.trace=newEvents w t ++ w.trace ∧
      ((t.files.contents path=w.files.contents path ∧
          (∀ bytes, Event.replaced path bytes∉newEvents w t) ∧
          (knownContent base t.trace path=knownContent base w.trace path ∨
            ∃ bytes, Event.loaded path bytes∈newEvents w t)) ∨
        w.files.contents path=knownContent base w.trace path) := by
  rcases h with ⟨events,htrace,heffect⟩ | ⟨q,⟨before,hbefore,heffect⟩,hcontent,_,during,hduring,hloaded,hnone⟩
  · rw [newEvents_of_append htrace]
    refine ⟨htrace,?_⟩
    rcases heffect with ⟨hc,hk,hn⟩ | ⟨hc,_⟩
    · exact Or.inl ⟨hc,hn,Or.inl hk⟩
    · exact Or.inr hc
  · have htrace : t.trace=(during ++ before) ++ w.trace := by
      rw [hduring,hbefore,List.append_assoc]
    rw [newEvents_of_append htrace]
    refine ⟨htrace,?_⟩
    rcases heffect with ⟨hc,_,hn⟩ | ⟨hc,_⟩
    · obtain ⟨bytes,hm⟩ := hloaded
      refine Or.inl ⟨hcontent.trans hc,?_,Or.inr ⟨bytes,List.mem_append_left _ hm⟩⟩
      intro bytes' hmem
      rcases List.mem_append.mp hmem with hm' | hm'
      · exact hnone bytes' hm'
      · exact hn bytes' hm'
    · exact Or.inr hc

/-- Whether a step is another writer's change of a file. -/
def changesFile (path : Path) : Step → Bool
  | .external other _ => decide (other=path)
  | .command _ _ => false

/-- Unknown content stays, and stays unknown, until its file is reloaded or changed again. -/
theorem run_unknown_stays (hx : CollisionFree X) {w : World σ} {path : Path} {steps : List Step}
    (hd : Digested X base w) (hs : ∀ step∈steps, SoundStep step)
    (hc : ∀ step∈steps, changesFile path step=false)
    (hne : w.files.contents path≠knownContent base w.trace path)
    (hl : ∀ bytes, Event.loaded path bytes∉newEvents w (run (stepWorld X hooks) w steps)) :
    (run (stepWorld X hooks) w steps).files.contents path=w.files.contents path ∧
      knownContent base (run (stepWorld X hooks) w steps).trace path=knownContent base w.trace path := by
  induction steps generalizing w with
  | nil => exact ⟨rfl,rfl⟩
  | cons step rest ih =>
    rw [run_cons] at hl ⊢
    have hstep := hs step (List.mem_cons_self ..)
    have hdstep : Digested X base (stepWorld X hooks w step) := step_digested hx w step hd hstep
    obtain ⟨first,hfirst⟩ := step_trace X hooks w step
    obtain ⟨later,hlater⟩ := run_trace X hooks (stepWorld X hooks w step) rest
    have hall : (run (stepWorld X hooks) (stepWorld X hooks w step) rest).trace=
        (later ++ first) ++ w.trace := by
      rw [hlater,hfirst,List.append_assoc]
    rw [newEvents_of_append hall] at hl
    -- The first step did not reload the file, so it passed it by.
    have hpassed : (stepWorld X hooks w step).files.contents path=w.files.contents path ∧
        knownContent base (stepWorld X hooks w step).trace path=knownContent base w.trace path := by
      cases step with
      | external other content =>
        have hother : other≠path := by simpa [changesFile] using hc _ (List.mem_cons_self ..)
        refine ⟨?_,rfl⟩
        show (if path=other then content else w.files.contents path)=w.files.contents path
        rw [if_neg (fun he => hother he.symm)]
      | command io request =>
        have heffect : CommandEffect base w (stepWorld X hooks w (.command io request)) path :=
          (command_file hx hstep hd).2 path
        obtain ⟨_,hparts⟩ := commandEffect_events heffect
        rcases hparts with ⟨hcontent,_,hk | ⟨bytes,hm⟩⟩ | hbad
        · exact ⟨hcontent,hk⟩
        · rw [newEvents_of_append hfirst] at hm
          exact absurd (List.mem_append_right _ hm) (hl bytes)
        · exact absurd hbad hne
    have hrest := ih hdstep (fun s hm => hs s (List.mem_cons_of_mem _ hm))
      (fun s hm => hc s (List.mem_cons_of_mem _ hm)) (by rw [hpassed.1,hpassed.2]; exact hne)
      (by
        rw [newEvents_of_append hlater]
        intro bytes hm
        exact hl bytes (List.mem_append_left _ hm))
    exact ⟨hrest.1.trans hpassed.1,hrest.2.trans hpassed.2⟩

/-- In every run of a constructed store and other writers, in which the
directory calls after each rename succeed: a command replaces a file only if its
content before the command is the content that the store last loaded from it or
wrote to it, both absent included. Content that the store does not know is left
unchanged, and it stays so until the file is reloaded; meanwhile every executed
request that would write the scene fails. -/
theorem external_edits_never_overwritten {arguments : StoreArguments} {files : Files} {client : σ}
    {w : World σ} {callerBytes : ByteArray} (hx : CollisionFree X)
    (hcaller : CallerLoaded X arguments callerBytes)
    (h : construct X hooks arguments files client=.ok w) (steps : List Step)
    (hs : ∀ step∈steps, SoundStep step) {u : World σ} (hu : run (stepWorld X hooks) w steps=u) :
    (∀ io request, DirectoriesSafe io → ∀ path,
      (∃ bytes, Event.replaced path bytes∈newEvents u (command X hooks io request u).2) ∨
          (command X hooks io request u).2.files.contents path≠u.files.contents path →
        u.files.contents path=knownContent (openKnown arguments files callerBytes) u.trace path) ∧
      ∀ path, u.files.contents path≠
          knownContent (openKnown arguments files callerBytes) u.trace path →
        (∀ io request, u.store.source=some path ∨ saveTarget u.store=.ok path →
          Writes X u.store request → ∀ id fingerprint,
            admission X u.store request=.fresh id fingerprint →
            (command X hooks io request u).1.member "success"=some (.boolean false)) ∧
        ∀ more, (∀ step∈more, SoundStep step) → (∀ step∈more, changesFile path step=false) →
          (∀ bytes, Event.loaded path bytes∉newEvents u (run (stepWorld X hooks) u more)) →
          (run (stepWorld X hooks) u more).files.contents path=u.files.contents path ∧
            knownContent (openKnown arguments files callerBytes)
                (run (stepWorld X hooks) u more).trace path=
              knownContent (openKnown arguments files callerBytes) u.trace path := by
  have hd : Digested X (openKnown arguments files callerBytes) u := by
    rw [←hu]
    exact run_invariant (fun v step hv hstep => step_digested hx v step hv hstep)
      (opened_digested hcaller (construct_opened h)) (along_of_forall _ w hs)
  constructor
  · intro io request hsafe path hchange
    obtain ⟨_,hparts⟩ := commandEffect_events
      ((command_file hx hsafe hd : Digested X _ (command X hooks io request u).2 ∧ _).2 path)
    rcases hparts with ⟨hcontent,hnone,_⟩ | hknown
    · rcases hchange with ⟨bytes,hm⟩ | hne
      · exact absurd hm (hnone bytes)
      · exact absurd hcontent hne
    · exact hknown
  · intro path hne
    constructor
    · intro io request hpath hw id fingerprint hfresh
      exact unmatched_write_fails hx hd (fun hmatched => hne (hmatched path hpath)) hw hfresh
    · intro more hsound hchanges hloaded
      exact run_unknown_stays hx hd hsound hchanges hne hloaded

/-- The digest of the sample externals spells every byte. -/
theorem hallExternals_collisionFree : CollisionFree hallExternals := by
  have hchar : Function.Injective (fun b : UInt8 => Char.ofNat b.toNat) := by
    intro a b hab
    have hvalid : ∀ c : UInt8, (Char.ofNat c.toNat).toNat=c.toNat := by
      intro c
      have hlt := c.toNat_lt
      have hv : c.toNat.isValidChar := Or.inl (by omega)
      rw [Char.ofNat,dif_pos hv]
      rfl
    have hnat := congrArg Char.toNat hab
    dsimp only at hnat
    rw [hvalid,hvalid] at hnat
    exact UInt8.toNat_inj.mp hnat
  intro first second hdigest
  have hlist := congrArg String.toList hdigest
  simp only [hallExternals,sampleExternals,String.toList_ofList] at hlist
  have hdata := hchar.list_map hlist
  cases first
  cases second
  simpa using hdata

/-- A file that another writer created under a store that never saw it. -/
theorem external_edits_never_overwritten_hall :
    CollisionFree hallExternals ∧ CallerLoaded hallExternals hallArguments ByteArray.empty ∧
      construct hallExternals acceptingHooks hallArguments (filesOf [] [["scenes"]]) ()=.ok hallWorld ∧
      (command hallExternals acceptingHooks {} (sampleRequest "save" "a" 1 [])
        (run (stepWorld hallExternals acceptingHooks) hallWorld
          [.external hallFile (some "schema".toUTF8)])).1.member "success"=some (.boolean false) := by
  have hcaller : CallerLoaded hallExternals hallArguments ByteArray.empty := by
    intro digest hd
    cases hd
  refine ⟨hallExternals_collisionFree,hcaller,rfl,?_⟩
  have hmain := external_edits_never_overwritten hallExternals_collisionFree hcaller
    (rfl : construct hallExternals acceptingHooks hallArguments (filesOf [] [["scenes"]]) ()=.ok hallWorld)
    [.external hallFile (some "schema".toUTF8)] (by simp [SoundStep]) rfl
  exact (hmain.2 hallFile (by decide +kernel)).1 {} (sampleRequest "save" "a" 1 [])
    (Or.inl (by decide +kernel)) (Or.inl (by decide +kernel)) "a" _ rfl

/-- An autosave is torn by its directory sync, another writer deletes the file
again, and the next save overwrites that edit: the store has seen the file. -/
theorem torn_save_overwrites_external_edit :
    construct hallExternals acceptingHooks hallArguments (filesOf [] [["scenes"]]) ()=.ok hallWorld ∧
      (run (stepWorld hallExternals acceptingHooks) hallWorld
          [.command {autosave := {directorySync := some 5}}
              (sampleRequest "replace" "a" 1 [("document",emptyRoom)]),
            .external hallFile none]).files.contents hallFile≠
        knownContent (openKnown hallArguments (filesOf [] [["scenes"]]) ByteArray.empty)
          (run (stepWorld hallExternals acceptingHooks) hallWorld
            [.command {autosave := {directorySync := some 5}}
                (sampleRequest "replace" "a" 1 [("document",emptyRoom)]),
              .external hallFile none]).trace hallFile ∧
      (command hallExternals acceptingHooks {} (sampleRequest "save" "b" 2 [])
          (run (stepWorld hallExternals acceptingHooks) hallWorld
            [.command {autosave := {directorySync := some 5}}
                (sampleRequest "replace" "a" 1 [("document",emptyRoom)]),
              .external hallFile none])).2.files.contents hallFile≠
        (run (stepWorld hallExternals acceptingHooks) hallWorld
          [.command {autosave := {directorySync := some 5}}
              (sampleRequest "replace" "a" 1 [("document",emptyRoom)]),
            .external hallFile none]).files.contents hallFile := by
  refine ⟨rfl,?_⟩
  decide +kernel

end Ros1Adapter.SceneStoreExternal
