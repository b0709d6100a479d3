import Ros1Adapter.BagSafety

/-!
# Interrupted finalization ends as an uninterrupted one

Every operation of the recorder keeps the directory safe, whether its calls
work, raise, or are the last ones of the process. So any number of killed
runs leaves a directory from which the next run goes on, and a manifest that
is final lists every closed segment of the first directory.
-/

namespace Ros1Adapter.BagRecovery

open ActionRules BagFinalization BagSafety

/-- What a recorder changes: the directory and its manifest in memory. -/
def view (m : Machine) : World × Document := (m.world,m.document)

/-- What changes nothing keeps the directory. -/
theorem kept_world {m t : Machine} (kept : view t=view m) : t.world=m.world := congrArg Prod.fst kept

/-- What changes nothing keeps the manifest in memory. -/
theorem kept_document {m t : Machine} (kept : view t=view m) : t.document=m.document := congrArg Prod.snd kept

section Calls

variable {site : Site}

/-- A call alone changes nothing. -/
theorem call_view : Preserves view call := by
  intro m
  obtain ⟨world,plan,document⟩ := m
  cases plan with
  | nil => rfl
  | cons outcome rest =>
    cases outcome with
    | none | some _ => rfl

/-- A status belongs to the file that the name stands for. -/
theorem lstat_spec (site : Site) (name : String) (m : Machine) :
    Meets (lstat site name) m
      (fun info t => view t=view m ∧ ∃ inode, m.world.entry name=some inode ∧ info=m.world.statOf inode)
      (fun _ t => view t=view m) := by
  unfold lstat
  rw [meets_bind]
  refine (call_view.meets m).mono (fun _ t kept => ?_) (fun _ t kept => kept)
  have world := kept_world kept
  rw [meets_bind,meets_get]
  split
  · next inode found =>
    rw [meets_pure]
    rw [world] at found ⊢
    exact ⟨kept,inode,found,rfl⟩
  · exact kept

/-- Asking for a status changes nothing. -/
theorem lstat_view (site : Site) (name : String) : Preserves view (lstat site name) := by
  intro m
  have spec := lstat_spec site name m
  unfold Meets at spec
  split at spec
  · next info t result =>
    rw [result]
    exact spec.1
  · next exit t result =>
    rw [result]
    exact spec

/-- Asking whether a name is there changes nothing. -/
theorem lexists_spec (name : String) (m : Machine) :
    Meets (lexists name) m (fun present t => view t=view m ∧ present=(m.world.entry name).isSome)
      (fun _ t => view t=view m) := by
  unfold lexists
  rw [meets_bind]
  refine (call_view.meets m).mono (fun _ t kept => ?_) (fun _ t kept => kept)
  have world := kept_world kept
  rw [meets_bind,meets_get,meets_pure,world]
  exact ⟨kept,rfl⟩

/-- A list of names is the one of the directory. -/
theorem recordedPaths_spec (site : Site) (m : Machine) :
    Meets (recordedPaths site) m (fun names t => view t=view m ∧ names=recordedNames site m.world)
      (fun _ t => view t=view m) := by
  unfold recordedPaths
  rw [meets_bind]
  refine (call_view.meets m).mono (fun _ t kept => ?_) (fun _ t kept => kept)
  have world := kept_world kept
  rw [meets_bind,meets_get,meets_pure,world]
  exact ⟨kept,rfl⟩

/-- A second name is made when it is free. -/
theorem link_spec (source destination : String) (m : Machine) :
    Meets (link site source destination) m
      (fun linked t => t.document=m.document ∧
        ((linked=false ∧ t.world=m.world ∧ (m.world.entry destination).isSome) ∨
          (linked=true ∧ m.world.entry destination=none ∧ ∃ inode, m.world.entry source=some inode ∧
            t.world=({m.world with entries := m.world.entries.insert destination inode} : World).touch inode)))
      (fun _ t => view t=view m) := by
  unfold link
  rw [meets_bind]
  refine (call_view.meets m).mono (fun _ t kept => ?_) (fun _ t kept => kept)
  have world := kept_world kept
  have document := kept_document kept
  rw [meets_bind,meets_get]
  split
  · exact kept
  · next inode found =>
    rw [meets_ite]
    rw [world] at found
    constructor
    · intro taken
      rw [meets_pure]
      exact ⟨document,Or.inl ⟨rfl,world,world ▸ taken⟩⟩
    · intro free
      unfold change
      rw [meets_bind,meets_modify,meets_pure]
      refine ⟨document,Or.inr ⟨rfl,?_,inode,found,?_⟩⟩
      · rw [← world]
        simpa using free
      · show ({t.world with entries := t.world.entries.insert destination inode} : World).touch inode=_
        rw [world]

/-- A name is removed when it is there. -/
theorem unlink_spec (name : String) (m : Machine) :
    Meets (unlink name) m
      (fun removed t => t.document=m.document ∧
        ((removed=false ∧ t.world=m.world ∧ m.world.entry name=none) ∨
          (removed=true ∧ ∃ inode, m.world.entry name=some inode ∧
            t.world=({m.world with entries := m.world.entries.erase name} : World).touch inode)))
      (fun _ t => view t=view m) := by
  unfold unlink
  rw [meets_bind]
  refine (call_view.meets m).mono (fun _ t kept => ?_) (fun _ t kept => kept)
  have world := kept_world kept
  have document := kept_document kept
  rw [meets_bind,meets_get]
  split
  · next absent =>
    rw [meets_pure]
    exact ⟨document,Or.inl ⟨rfl,world,world ▸ absent⟩⟩
  · next inode found =>
    unfold change
    rw [meets_bind,meets_modify,meets_pure]
    rw [world] at found
    refine ⟨document,Or.inr ⟨rfl,inode,found,?_⟩⟩
    show ({t.world with entries := t.world.entries.erase name} : World).touch inode=_
    rw [world]

/-- The last part runs after a return and after an exception, and not after a kill. -/
theorem meets_finallyDo {body last : Recorder Unit} {m : Machine} {returns : Unit → Machine → Prop}
    {throws : Exit → Machine → Prop} {after : String → Machine → Prop}
    (h : Meets body m (fun _ t => Meets last t returns throws)
      (fun exit t => match exit with
        | .killed => throws .killed t
        | .raised text => after text t))
    (hr : ∀ text t, after text t → Meets last t (fun _ u => throws (.raised text) u) throws) :
    Meets (finallyDo body last) m returns throws := by
  unfold Meets at h ⊢
  unfold finallyDo
  cases result : body m with
  | ok a t =>
    rw [result] at h
    exact h
  | error exit t =>
    rw [result] at h
    cases exit with
    | killed => exact h
    | raised text =>
      have then_ := hr text t h
      unfold Meets at then_
      dsimp only
      cases ended : last t with
      | ok _ _ | error _ _ =>
        rw [ended] at then_
        exact then_

/-- The handler runs after an exception, and not after a kill. -/
theorem meets_catchRaised {body : Recorder Unit} {handler : String → Recorder Unit} {m : Machine}
    (returns : Unit → Machine → Prop) {throws : Exit → Machine → Prop}
    (h : Meets body m returns (fun exit t => match exit with
      | .killed => throws .killed t
      | .raised text => Meets (handler text) t returns throws)) :
    Meets (catchRaised body handler) m returns throws := by
  unfold Meets at h ⊢
  unfold catchRaised
  cases result : body m with
  | ok a t =>
    rw [result] at h
    exact h
  | error exit t =>
    rw [result] at h
    cases exit with
    | killed | raised _ => exact h

end Calls

section Manifests

variable {site : Site} {pids : List ℕ} {w₀ w w' : World}

/-- The manifest in the directory. -/
def OnDisk (w : World) (d : Document) : Prop :=
  ∃ inode, w.entry manifestName=some inode ∧ (w.inodes inode).contents=.manifest d

/-- Steps aside keep the manifest. -/
theorem onDisk_aside (h : Safe site pids w₀ w) {d : Document} (disk : OnDisk w d) (step : Aside pids site w w') :
    OnDisk w' d := by
  obtain ⟨inode,found,contents⟩ := disk
  have name : w'.entry manifestName=w.entry manifestName :=
    step.names manifestName (fun pid _ same => temporary_ne_manifest pid same.symm)
  have same := step.inodes inode (h.fresh _ inode found) (fun pid member clash => h.apart pid member inode clash found)
  exact ⟨inode,by rw [name,found],by rw [same.contents,contents]⟩

/-- The directory is safe, and the manifest in memory is as it was and may be written. -/
structure Writing (site : Site) (pids : List ℕ) (w₀ : World) (d : Document) (m : Machine) : Prop where
  /-- The directory is safe. -/
  safe : Safe site pids w₀ m.world
  /-- The manifest in memory stays. -/
  same : m.document=d
  /-- It belongs to the segments. -/
  planned : Planned site pids w₀ m.world d

/-- Steps aside go on writing. -/
theorem Writing.aside {d : Document} {m : Machine} (h : Writing site pids w₀ d m) {t : Machine}
    (step : Aside pids site m.world t.world) (same : t.document=m.document) : Writing site pids w₀ d t :=
  ⟨h.safe.aside step,same.trans h.same,h.planned.aside (fun name hn => step.names name hn.2) step.recorded⟩

/-- Steps that change nothing go on writing. -/
theorem Writing.kept {d : Document} {m t : Machine} (h : Writing site pids w₀ d m) (kept : view t=view m) :
    Writing site pids w₀ d t := by
  have world := kept_world kept
  have document := kept_document kept
  exact ⟨world ▸ h.safe,document.trans h.same,world ▸ h.planned⟩

/-- The temporary file is there once it was opened. -/
theorem create_entry (site : Site) (w : World) (name : String) : ∃ inode, (w.create site name).entry name=some inode := by
  unfold World.create
  split
  · next inode found => exact ⟨inode,found⟩
  · exact ⟨w.next,AList.lookup_insert _⟩

/-- A written file holds the manifest. -/
theorem fill_contents (site : Site) {w : World} {name : String} {inode : ℕ} (found : w.entry name=some inode) (d : Document) :
    (w.fill site name d).entry name=some inode ∧ ((w.fill site name d).inodes inode).contents=.manifest d := by
  unfold World.fill
  rw [found]
  dsimp only
  rw [Function.update_self]
  exact ⟨found,rfl⟩

/-- A renamed file is the manifest. -/
theorem renamed_onDisk {pid inode : ℕ} (found : w.entry (temporaryName pid)=some inode) {d : Document}
    (contents : (w.inodes inode).contents=.manifest d) : OnDisk (w.rename (temporaryName pid) manifestName) d := by
  unfold World.rename
  rw [found]
  exact ⟨inode,AList.lookup_insert _,contents⟩

/-- Removing the temporary file goes on writing. -/
theorem unlink_writing {d : Document} {m : Machine} (h : Writing site pids w₀ d m) {pid : ℕ} (member : pid∈pids)
    {P : World → Prop} (disk : P m.world) (kept : ∀ w', Aside pids site m.world w' → P m.world → P w') :
    Meets (removeTemporary pid) m (fun _ t => Writing site pids w₀ d t ∧ P t.world)
      (fun _ t => Writing site pids w₀ d t) := by
  unfold removeTemporary
  rw [meets_bind]
  refine (unlink_spec (temporaryName pid) m).mono (fun removed t spec => ?_) (fun _ t same => h.kept same)
  rw [meets_pure]
  rcases spec.2 with ⟨_,world,_⟩ | ⟨_,inode,_,world⟩
  · exact ⟨h.kept (Prod.ext world spec.1),world ▸ disk⟩
  · have step := erase_aside h.safe member inode
    rw [← world] at step
    exact ⟨h.aside step spec.1,kept t.world step disk⟩

/-- Replacing the manifest is safe at every moment. -/
theorem replaceManifest_spec {d : Document} {m : Machine} (h : Writing site pids w₀ d m) {pid : ℕ} (member : pid∈pids) :
    Meets (replaceManifest site pid) m (fun _ t => Writing site pids w₀ d t ∧ OnDisk t.world d)
      (fun _ t => Writing site pids w₀ d t) := by
  unfold replaceManifest
  unfold change
  rw [meets_bind]
  refine (call_view.meets m).mono (fun _ t₁ kept₁ => ?_) (fun _ t kept => h.kept kept)
  have h₁ := h.kept kept₁
  rw [meets_bind,meets_modify]
  have h₂ : Writing site pids w₀ d {t₁ with world := t₁.world.create site (temporaryName pid)} :=
    h₁.aside (create_aside h₁.safe member) rfl
  obtain ⟨inode,created⟩ := create_entry site t₁.world (temporaryName pid)
  rw [meets_bind]
  refine (call_view.meets _).mono (fun _ t₂ kept₂ => ?_) (fun _ t kept => h₂.kept kept)
  have h₃ := h₂.kept kept₂
  have world₂ : t₂.world=t₁.world.create site (temporaryName pid) := kept_world kept₂
  rw [← world₂] at created
  rw [meets_bind,meets_modify]
  have filled := fill_contents site created t₂.document
  have h₄ : Writing site pids w₀ d {t₂ with world := t₂.world.fill site (temporaryName pid) t₂.document} :=
    h₃.aside (fill_aside h₃.safe member t₂.document) rfl
  rw [h₃.same] at filled h₄
  rw [meets_bind]
  rw [h₃.same]
  refine (call_view.meets _).mono (fun _ t₃ kept₃ => ?_) (fun _ t kept => h₄.kept kept)
  have h₅ := h₄.kept kept₃
  rw [meets_bind]
  refine (call_view.meets _).mono (fun _ t₄ kept₄ => ?_) (fun _ t kept => h₅.kept kept)
  have h₆ := h₅.kept kept₄
  have world₄ : t₄.world=t₂.world.fill site (temporaryName pid) d :=
    (kept_world kept₄).trans (kept_world kept₃)
  rw [← world₄] at filled
  rw [meets_modify]
  have safe := rename_safe h₆.safe member filled.1 filled.2 h₆.planned
  obtain ⟨place,found,contents⟩ := renamed_onDisk filled.1 filled.2
  refine ⟨⟨safe,h₆.same,?_⟩,place,found,contents⟩
  obtain ⟨place',d',found',contents',planned⟩ := safe.manifest
  rw [found] at found'
  cases found'
  rw [contents] at contents'
  cases contents'
  exact planned

/-- Writing the manifest is safe at every moment, and puts it into the directory. -/
theorem writeManifest_spec {d : Document} {m : Machine} (h : Writing site pids w₀ d m) {pid : ℕ} (member : pid∈pids) :
    Meets (writeManifest site pid) m (fun _ t => Writing site pids w₀ d t ∧ OnDisk t.world d)
      (fun _ t => Writing site pids w₀ d t) := by
  have written : Meets (finallyDo (replaceManifest site pid) (removeTemporary pid)) m
      (fun _ t => Writing site pids w₀ d t ∧ OnDisk t.world d) (fun _ t => Writing site pids w₀ d t) := by
    refine meets_finallyDo ((replaceManifest_spec h member).mono (fun _ t now => ?_) (fun exit t now => ?_))
      (fun text t (now : Writing site pids w₀ d t) => ?_)
    · exact unlink_writing (P := fun w => OnDisk w d) now.1 member now.2 (fun w' step disk => onDisk_aside now.1.safe disk step)
    · cases exit with
      | killed | raised _ => exact now
    · exact (unlink_writing (P := fun _ => True) now member trivial (fun _ _ _ => trivial)).mono
        (fun _ u then_ => then_.1) (fun _ u then_ => then_)
  unfold writeManifest
  rw [meets_bind]
  refine written.mono (fun _ t₁ now => ?_) (fun _ t kept => kept)
  rw [meets_bind]
  refine (call_view.meets t₁).mono (fun _ t₂ kept₂ => ?_) (fun _ t kept => now.1.kept kept)
  have h₂ := now.1.kept kept₂
  have disk₂ : OnDisk t₂.world d := kept_world kept₂ ▸ now.2
  refine (call_view.meets t₂).mono (fun _ t₃ kept₃ => ?_) (fun _ t kept => h₂.kept kept)
  exact ⟨h₂.kept kept₃,kept_world kept₃ ▸ disk₂⟩

end Manifests

section Moves

variable {site : Site} {pids : List ℕ} {w₀ : World}

/-- The plan is written, and the directory is safe. -/
structure Moving (site : Site) (pids : List ℕ) (w₀ : World) (d : Document) (m : Machine) : Prop where
  /-- The directory is safe. -/
  safe : Safe site pids w₀ m.world
  /-- The manifest in the directory holds the plan. -/
  pinned : Pinned site w₀ m.world
  /-- The manifest in memory stays. -/
  same : m.document=d

/-- Steps that change nothing go on moving. -/
theorem Moving.kept {d : Document} {m t : Machine} (h : Moving site pids w₀ d m) (kept : view t=view m) :
    Moving site pids w₀ d t :=
  ⟨kept_world kept ▸ h.safe,kept_world kept ▸ h.pinned,(kept_document kept).trans h.same⟩

/-- What a native name stands for. -/
theorem native_inode {d : Document} {m : Machine} (h : Moving site pids w₀ d m) {a : Segment}
    (member : a∈closedSegments site w₀) {inode : ℕ} (found : m.world.entry a.sourceName=some inode) : inode=a.inode := by
  rcases h.safe.held a member with native | ⟨gone,_⟩
  · rw [found] at native
    exact Option.some.inj native
  · rw [found] at gone
    cases gone

/-- Moving a closed segment is safe at every moment. -/
theorem moveClosed_spec {d : Document} {m : Machine} (h : Moving site pids w₀ d m) {a : Segment}
    (member : a∈closedSegments site w₀) :
    Meets (moveClosedWithoutReplacement site a.sourceName a.name) m (fun _ t => Moving site pids w₀ d t)
      (fun _ t => Moving site pids w₀ d t) := by
  have removal : ∀ t, Moving site pids w₀ d t → t.world.entry a.name=some a.inode →
      Meets (do
        call
        call
        let removed ← unlink a.sourceName
        if removed=false then raise (missingText site a.sourceName)
        call : Recorder Unit) t (fun _ t => Moving site pids w₀ d t) (fun _ t => Moving site pids w₀ d t) := by
    intro t h issued
    rw [meets_bind]
    refine (call_view.meets t).mono (fun _ t₁ kept₁ => ?_) (fun _ u kept => h.kept kept)
    have h₁ := h.kept kept₁
    rw [meets_bind]
    refine (call_view.meets t₁).mono (fun _ t₂ kept₂ => ?_) (fun _ u kept => h₁.kept kept)
    have h₂ := h₁.kept kept₂
    rw [← kept_world kept₁,← kept_world kept₂] at issued
    rw [meets_bind]
    refine (unlink_spec a.sourceName t₂).mono (fun removed t₃ spec => ?_) (fun _ u kept => h₂.kept kept)
    have h₃ : Moving site pids w₀ d t₃ := by
      rcases spec.2 with ⟨_,world,_⟩ | ⟨_,inode,found,world⟩
      · exact h₂.kept (Prod.ext world spec.1)
      · rw [native_inode h₂ member found] at world
        have safe := unlink_safe h₂.safe h₂.pinned member issued
        exact ⟨world ▸ safe.1,world ▸ safe.2,spec.1.trans h₂.same⟩
    split
    · exact h₃
    · refine (call_view.meets t₃).mono (fun _ u kept => h₃.kept kept) (fun _ u kept => h₃.kept kept)
  unfold moveClosedWithoutReplacement
  rw [meets_bind]
  refine (lstat_spec site a.sourceName m).mono (fun info t₁ spec₁ => ?_) (fun _ u kept => h.kept kept)
  have h₁ := h.kept spec₁.1
  obtain ⟨inode,found,described⟩ := spec₁.2
  have its := native_inode h member found
  rw [its] at found described
  split
  · exact h₁
  · rw [meets_bind]
    refine (lstat_spec site a.sourceName t₁).mono (fun opened t₂ spec₂ => ?_) (fun _ u kept => h₁.kept kept)
    have h₂ := h₁.kept spec₂.1
    rw [meets_bind]
    refine (call_view.meets t₂).mono (fun _ t₃ kept₃ => ?_) (fun _ u kept => h₂.kept kept)
    have h₃ := h₂.kept kept₃
    split
    · exact h₃
    · rw [meets_bind]
      refine (call_view.meets t₃).mono (fun _ t₄ kept₄ => ?_) (fun _ u kept => h₃.kept kept)
      have h₄ := h₃.kept kept₄
      have same₄ : t₄.world=m.world :=
        (kept_world kept₄).trans ((kept_world kept₃).trans ((kept_world spec₂.1).trans (kept_world spec₁.1)))
      rw [← same₄] at found
      rw [meets_bind]
      refine (link_spec a.sourceName a.name t₄).mono (fun linked t₅ spec₅ => ?_) (fun _ u kept => h₄.kept kept)
      rcases spec₅.2 with ⟨no,world,taken⟩ | ⟨yes,free,inode',found',world⟩
      · rw [if_pos no]
        have h₅ := h₄.kept (Prod.ext world spec₅.1)
        rw [meets_bind]
        refine (lstat_spec site a.name t₅).mono (fun other t₆ spec₆ => ?_) (fun _ u kept => h₅.kept kept)
        have h₆ := h₅.kept spec₆.1
        obtain ⟨inode',issued,described'⟩ := spec₆.2
        split
        · exact h₆
        · next accepted =>
          rw [described,described',not_or,not_not] at accepted
          have place : a.inode=inode' := congrArg Prod.snd accepted.2
          refine removal t₆ h₆ ?_
          rw [kept_world spec₆.1,issued,place]
      · have source := found.symm.trans found'
        cases source
        rw [if_neg (by rw [yes]; simp)]
        have linked := link_safe h₄.safe h₄.pinned member found free
        refine removal t₅ ⟨world ▸ linked.1,world ▸ linked.2,spec₅.1.trans h₄.same⟩ ?_
        rw [world]
        exact AList.lookup_insert _

/-- A segment is moved and checked, safely at every moment. -/
theorem finalizeSegment_spec {d : Document} {m : Machine} (h : Moving site pids w₀ d m) (byIndex : List (ℕ × BagFile))
    {a : Segment} (member : a∈closedSegments site w₀) :
    Meets (finalizeSegment site (closedSegments site w₀).length byIndex a) m
      (fun next t => Moving site pids w₀ d t ∧ (byIndex.lookup a.index).isSome=false ∧
        next=byIndex ++ [(a.index,bagFile site (closedSegments site w₀).length a)])
      (fun _ t => Moving site pids w₀ d t) := by
  have names := segment_names member
  have check : ∀ t, Moving site pids w₀ d t → (byIndex.lookup a.index).isSome=false →
      Meets (do
        let info ← lstat site (issuedBagName site a.index (closedSegments site w₀).length)
        if info.regular=false ∨ (info.device,info.inode,info.size)≠(a.device,a.inode,a.sizeBytes) then
          raise "finalized bag identity changed"
        pure (byIndex ++ [(a.index,⟨some ("bag." ++ site.recordingId ++ "." ++ toString a.index),
          issuedBagName site a.index (closedSegments site w₀).length,.finalized,info.size⟩)]) :
          Recorder (List (ℕ × BagFile))) t
        (fun next t => Moving site pids w₀ d t ∧ (byIndex.lookup a.index).isSome=false ∧
          next=byIndex ++ [(a.index,bagFile site (closedSegments site w₀).length a)])
        (fun _ t => Moving site pids w₀ d t) := by
    intro t h fresh
    rw [meets_bind]
    refine (lstat_spec site _ t).mono (fun info u spec => ?_) (fun _ u kept => h.kept kept)
    have h₁ := h.kept spec.1
    split
    · exact h₁
    · next accepted =>
      rw [not_or,not_not] at accepted
      have size : info.size=a.sizeBytes := congrArg (fun x => x.2.2) accepted.2
      refine ⟨h₁,fresh,?_⟩
      rw [size]
      rfl
  unfold finalizeSegment
  dsimp only
  split
  · exact h
  · next accepted =>
    have fresh : (byIndex.lookup a.index).isSome=false := by
      simp only [not_or] at accepted
      exact Bool.eq_false_iff.mpr accepted.2.2
    rw [meets_bind]
    refine (lexists_spec _ m).mono (fun present t₁ spec₁ => ?_) (fun _ u kept => h.kept kept)
    have h₁ := h.kept spec₁.1
    split
    · rw [meets_bind]
      refine (lstat_spec site _ t₁).mono (fun info t₂ spec₂ => ?_) (fun _ u kept => h₁.kept kept)
      have h₂ := h₁.kept spec₂.1
      split
      · exact h₂
      · rw [meets_bind,← names.1,← names.2]
        refine (moveClosed_spec h₂ member).mono (fun _ t₃ h₃ => ?_) (fun _ u now => now)
        rw [names.2]
        exact check t₃ h₃ fresh
    · exact check t₁ h₁ fresh

/-- The entry of a segment by its number. -/
def entryOf (site : Site) (w₀ : World) (a : Segment) : ℕ × BagFile :=
  (a.index,bagFile site (closedSegments site w₀).length a)

/-- All segments are moved, safely at every moment, and each number is listed once. -/
theorem finalizeSegments_spec {d : Document} {m : Machine} (h : Moving site pids w₀ d m) (byIndex : List (ℕ × BagFile))
    (todo : List Segment) (members : ∀ a∈todo, a∈closedSegments site w₀) (single : (byIndex.map Prod.fst).Nodup) :
    Meets (finalizeSegments site (closedSegments site w₀).length byIndex todo) m
      (fun all t => Moving site pids w₀ d t ∧ all=byIndex ++ todo.map (entryOf site w₀) ∧ (all.map Prod.fst).Nodup)
      (fun _ t => Moving site pids w₀ d t) := by
  induction todo generalizing byIndex m with
  | nil =>
    refine ⟨h,?_,single⟩
    rw [List.map_nil,List.append_nil]
  | cons a rest ih =>
    unfold finalizeSegments
    rw [meets_bind]
    refine (finalizeSegment_spec h byIndex (members a (List.mem_cons_self ..))).mono (fun next t spec => ?_)
      (fun _ u now => now)
    obtain ⟨now,fresh,shape⟩ := spec
    have absent : a.index∉byIndex.map Prod.fst := by
      intro inside
      obtain ⟨⟨index,file⟩,member,same⟩ := List.mem_map.mp inside
      have none_ := List.lookup_eq_none_iff.mp (Option.isNone_iff_eq_none.mp (by simpa using fresh)) _ member
      have same : index=a.index := same
      rw [same] at none_
      simp at none_
    have single' : (next.map Prod.fst).Nodup := by
      rw [shape,List.map_append,List.nodup_append]
      refine ⟨single,by simp,?_⟩
      intro x hx y hy same
      rw [List.map_cons,List.map_nil,List.mem_singleton] at hy
      rw [same,hy] at hx
      exact absent hx
    refine (ih now next (fun b hb => members b (List.mem_cons_of_mem _ hb)) single').mono (fun all u result => ?_)
      (fun _ u kept => kept)
    refine ⟨result.1,?_,result.2.2⟩
    rw [result.2.1,shape,List.map_cons,List.append_assoc]
    rfl

/-- Entries in the order of their numbers are segments in that order. -/
theorem inIndexOrder_listed (single : ((closedSegments site w₀).map Segment.index).Nodup) :
    ∃ ordered : List Segment, ordered.Perm (closedSegments site w₀) ∧
      ordered.Pairwise (fun a b => a.index < b.index) ∧
      inIndexOrder ((closedSegments site w₀).map (entryOf site w₀))=
        ordered.map (bagFile site (closedSegments site w₀).length) := by
  have sorted : ((closedSegments site w₀).mergeSort (fun a b => decide (a.index ≤ b.index))).Pairwise
      (fun a b => a.index ≤ b.index) := by
    have raw : ((closedSegments site w₀).mergeSort (fun a b => decide (a.index ≤ b.index))).Pairwise
        (fun a b => decide (a.index ≤ b.index)=true) := List.pairwise_mergeSort
      (fun a b c hab hbc => by simp only [decide_eq_true_eq] at hab hbc ⊢; omega)
      (fun a b => by simp only [Bool.or_eq_true,decide_eq_true_eq]; omega) (closedSegments site w₀)
    exact raw.imp (fun hab => of_decide_eq_true hab)
  have perm := List.mergeSort_perm (closedSegments site w₀) (fun a b => decide (a.index ≤ b.index))
  refine ⟨_,perm,?_,?_⟩
  · have different : ((closedSegments site w₀).mergeSort (fun a b => decide (a.index ≤ b.index))).Pairwise
        (fun a b => a.index≠b.index) := by
      have nodup := ((perm.map Segment.index).nodup_iff).mpr single
      exact List.pairwise_map.mp nodup
    exact (sorted.and different).imp (fun both => Nat.lt_of_le_of_ne both.1 both.2)
  · unfold inIndexOrder
    rw [← List.map_mergeSort (r := fun a b : Segment => decide (a.index ≤ b.index)) (fun a _ b _ => rfl),List.map_map]
    rfl

end Moves

section Documents

variable {site : Site} {pids : List ℕ} {w₀ : World} {Q : Document → Prop} {α β : Type}

/-- The plan is written, the directory is safe, and the manifest in memory has a property. -/
structure Ready (site : Site) (pids : List ℕ) (w₀ : World) (Q : Document → Prop) (m : Machine) : Prop where
  /-- The directory is safe. -/
  safe : Safe site pids w₀ m.world
  /-- The manifest in the directory holds the plan. -/
  pinned : Pinned site w₀ m.world
  /-- The property of the manifest in memory. -/
  document : Q m.document

/-- An operation that keeps this on every exit. -/
def Keeps (site : Site) (pids : List ℕ) (w₀ : World) (Q : Document → Prop) (action : Recorder α) : Prop :=
  ∀ m, Ready site pids w₀ Q m → Meets action m (fun _ t => Ready site pids w₀ Q t) (fun _ t => Ready site pids w₀ Q t)

/-- Steps that change nothing keep a property. -/
theorem Ready.kept {m t : Machine} (h : Ready site pids w₀ Q m) (kept : view t=view m) : Ready site pids w₀ Q t :=
  ⟨kept_world kept ▸ h.safe,kept_world kept ▸ h.pinned,kept_document kept ▸ h.document⟩

/-- Operations that change nothing. -/
theorem keeps_of_view {action : Recorder α} (h : Preserves view action) : Keeps site pids w₀ Q action :=
  fun m ready => (h.meets m).mono (fun _ _ kept => ready.kept kept) (fun _ _ kept => ready.kept kept)

/-- One operation after another one. -/
theorem Keeps.bind {first : Recorder α} {second : α → Recorder β} (h : Keeps site pids w₀ Q first)
    (h' : ∀ a, Keeps site pids w₀ Q (second a)) : Keeps site pids w₀ Q (first >>= second) := by
  intro m ready
  rw [meets_bind]
  exact (h m ready).mono (fun a t now => h' a t now) (fun _ _ now => now)

/-- A change of the manifest in memory. -/
theorem keeps_edit {f : Document → Document} (h : ∀ d, Q d → Q (f d)) : Keeps site pids w₀ Q (edit f) := by
  intro m ready
  unfold edit
  rw [meets_modify]
  exact ⟨ready.safe,ready.pinned,h _ ready.document⟩

/-- An operation that returns at once. -/
theorem keeps_pure (a : α) : Keeps site pids w₀ Q (pure a : Recorder α) := fun _ ready => ready

/-- An operation that raises before another one. -/
theorem keeps_raise_bind (text : String) (second : α → Recorder β) :
    Keeps site pids w₀ Q ((raise text : Recorder α) >>= second) := fun _ ready => ready

/-- A property that more bags that were not closed do not change. -/
def Extendable (Q : Document → Prop) : Prop :=
  ∀ d name size, Q d → Q {d with bagFiles := d.bagFiles ++ [⟨none,name,.partialBag,size⟩]}

/-- Listing the bags that were not closed. -/
theorem listPartials_keeps (stable : Extendable Q) (expected names : List String) :
    Keeps site pids w₀ Q (listPartials site expected names) := by
  induction names with
  | nil => exact keeps_pure ()
  | cons name rest ih =>
    unfold listPartials
    refine (keeps_of_view (lstat_view site name)).bind fun info => ?_
    dsimp only
    split
    · exact keeps_raise_bind _ _
    · split
      · exact (keeps_edit (fun d hd => stable d name info.size hd)).bind fun _ => ih
      · split
        · exact keeps_raise_bind _ _
        · exact ih

/-- A status that may be missing changes nothing. -/
theorem tryStat_view (name : String) : Preserves view (tryStat site name) := by
  intro m
  have kept := lstat_view site name m
  unfold tryStat
  cases result : lstat site name m with
  | ok info t =>
    rw [result] at kept
    exact kept
  | error exit t =>
    rw [result] at kept
    cases exit <;> exact kept

/-- Listing what was not closed in a failed recording. -/
theorem listRetained_keeps (stable : Extendable Q) (known names : List String) :
    Keeps site pids w₀ Q (listRetained site known names) := by
  induction names with
  | nil => exact keeps_pure ()
  | cons name rest ih =>
    unfold listRetained
    dsimp only
    split
    · refine (keeps_of_view (tryStat_view name)).bind fun found => ?_
      cases found with
      | none => exact ih
      | some info =>
        dsimp only
        split
        · exact (keeps_edit (fun d hd => stable d name info.size hd)).bind fun _ => ih
        · exact ih
    · exact ih

/-- The report of a failed recording. -/
theorem inventoryPartialFiles_keeps (stable : Extendable Q) : Keeps site pids w₀ Q (inventoryPartialFiles site) := by
  intro m ready
  have listed := recordedPaths_spec site m
  unfold inventoryPartialFiles
  unfold Meets at listed ⊢
  dsimp only
  cases result : recordedPaths site m with
  | ok names t =>
    rw [result] at listed
    exact listRetained_keeps stable _ names t (ready.kept listed.1)
  | error exit t =>
    rw [result] at listed
    cases exit <;> exact ready.kept listed

/-- A property that published bags do not change. -/
structure Publishable (Q : Document → Prop) : Prop where
  /-- Digests do not change it. -/
  receipts : ∀ d receipts, Q d → Q {d with partContentReceipts := receipts}
  /-- Parts do not change it. -/
  parts : ∀ d parts, Q d → Q {d with parts := parts}

/-- Publishing one bag. -/
theorem publishPart_keeps (stable : Publishable Q) (entry : BagFile) : Keeps site pids w₀ Q (publishPart site entry) := by
  unfold publishPart
  dsimp only
  split
  · exact keeps_raise_bind _ _
  · refine (keeps_of_view (lstat_view site entry.name)).bind fun info => ?_
    split
    · exact keeps_raise_bind _ _
    · refine (keeps_of_view (preserves_get _)).bind fun m => ?_
      split
      · split
        · exact keeps_raise_bind _ _
        · exact (keeps_pure _).bind fun _ => keeps_pure _
      · refine (keeps_of_view (lstat_view site entry.name)).bind fun opened => ?_
        split
        · exact keeps_raise_bind _ _
        · refine (keeps_of_view call_view).bind fun _ => (keeps_of_view (lstat_view site entry.name)).bind fun after => ?_
          split
          · exact keeps_raise_bind _ _
          · exact (keeps_edit (fun d hd => stable.receipts d _ hd)).bind fun _ => (keeps_pure _).bind fun _ => keeps_pure _

/-- Publishing several bags. -/
theorem publishEach_keeps (stable : Publishable Q) (entries : List BagFile) :
    Keeps site pids w₀ Q (publishEach site entries) := by
  induction entries with
  | nil => exact keeps_pure []
  | cons entry rest ih =>
    unfold publishEach
    split
    · exact ih
    · exact (publishPart_keeps stable entry).bind fun part => ih.bind fun others => keeps_pure _

/-- Publishing the bags of a recording. -/
theorem publishParts_keeps (stable : Publishable Q) : Keeps site pids w₀ Q (publishParts site) := by
  unfold publishParts
  refine (keeps_of_view (preserves_get _)).bind fun m => ?_
  dsimp only
  split
  · exact keeps_raise_bind _ _
  · split
    · exact keeps_edit (fun d hd => stable.parts d _ hd)
    · exact (publishEach_keeps stable _).bind fun parts => keeps_edit (fun d hd => stable.parts d parts hd)

end Documents

section Finalization

variable {site : Site} {pids : List ℕ} {w₀ : World}

/-- A manifest in memory that holds the plan and lists no closed bag yet. -/
def Listing (site : Site) (w₀ : World) (d : Document) : Prop :=
  d.archiveSegments=some (closedSegments site w₀) ∧ d.archiveFinalizationState≠some .finalized ∧
    d.bagFiles.filter (fun file => file.state=.finalized)=[]

/-- A manifest in memory that holds the plan and is final only with all bags listed. -/
def Issued (site : Site) (w₀ : World) (d : Document) : Prop :=
  d.archiveSegments=some (closedSegments site w₀) ∧
    (d.archiveFinalizationState=some .finalized → Listed site w₀ d)

/-- A manifest in memory that holds the plan and is not final. -/
def Unfinished (site : Site) (w₀ : World) (d : Document) : Prop :=
  d.archiveSegments=some (closedSegments site w₀) ∧ d.archiveFinalizationState≠some .finalized

/-- The numbers of segments differ. -/
theorem segment_indices (site : Site) (w₀ : World) (single : ((closedSegments site w₀).map (entryOf site w₀) |>.map Prod.fst).Nodup) :
    ((closedSegments site w₀).map Segment.index).Nodup := by
  rwa [List.map_map] at single

/-- Issuing the segments is safe at every moment, and lists all of them. -/
theorem issueSegments_spec {m : Machine} (h : Ready site pids w₀ (Listing site w₀) m) :
    Meets (issueSegments site (closedSegments site w₀)) m (fun _ t => Ready site pids w₀ (Issued site w₀) t)
      (fun _ t => Ready site pids w₀ (Unfinished site w₀) t) := by
  have unfinished : ∀ t, Ready site pids w₀ (Listing site w₀) t → Ready site pids w₀ (Unfinished site w₀) t :=
    fun t ready => ⟨ready.safe,ready.pinned,ready.document.1,ready.document.2.1⟩
  unfold issueSegments
  rw [meets_bind]
  have moving : Moving site pids w₀ m.document m := ⟨h.safe,h.pinned,rfl⟩
  refine (finalizeSegments_spec moving [] (closedSegments site w₀) (fun a ha => ha) List.nodup_nil).mono
    (fun byIndex t spec => ?_) (fun _ t now => ⟨now.safe,now.pinned,?_⟩)
  · obtain ⟨now,shape,single⟩ := spec
    rw [List.nil_append] at shape
    have ready : Ready site pids w₀ (Listing site w₀) t := ⟨now.safe,now.pinned,now.same ▸ h.document⟩
    have stable : Extendable (Listing site w₀) := by
      intro d name size hd
      refine ⟨hd.1,hd.2.1,?_⟩
      rw [List.filter_append,hd.2.2]
      rfl
    dsimp only
    split
    · exact unfinished t ready
    · rw [meets_bind]
      refine (recordedPaths_spec site t).mono (fun names t₁ spec₁ => ?_) (fun _ u kept => unfinished u (ready.kept kept))
      rw [meets_bind]
      refine (listPartials_keeps stable _ names t₁ (ready.kept spec₁.1)).mono (fun _ t₂ ready₂ => ?_)
        (fun _ u ready₂ => unfinished u ready₂)
      unfold edit
      rw [meets_modify]
      refine ⟨ready₂.safe,ready₂.pinned,ready₂.document.1,fun _ => ?_⟩
      rw [shape] at single
      obtain ⟨ordered,perm,increasing,entries⟩ := inIndexOrder_listed (segment_indices site w₀ single)
      refine ⟨ordered,perm,increasing,?_⟩
      show (t₂.document.bagFiles ++ inIndexOrder byIndex).filter (fun file => file.state=.finalized)=_
      rw [List.filter_append,ready₂.document.2.2,List.nil_append,shape,entries]
      refine List.filter_eq_self.mpr (fun file member => ?_)
      obtain ⟨a,_,made⟩ := List.mem_map.mp member
      rw [← made]
      rfl
  · rw [now.same]
    exact ⟨h.document.1,h.document.2.1⟩

/-- A scan finds the closed segments among the names. -/
theorem scanSegments_spec (site : Site) (names : List String) (m : Machine) :
    Meets (scanSegments site names) m
      (fun found t => view t=view m ∧ found=names.filterMap (segmentAt site m.world)) (fun _ t => view t=view m) := by
  induction names generalizing m with
  | nil => exact ⟨rfl,rfl⟩
  | cons name rest ih =>
    unfold scanSegments
    split
    · next active =>
      have none_ : segmentAt site m.world name=none := by
        unfold segmentAt
        rw [if_pos active]
      rw [List.filterMap_cons_none none_]
      exact ih m
    · next closed =>
      split
      · next foreign =>
        have none_ : segmentAt site m.world name=none := by
          unfold segmentAt
          rw [if_neg closed,foreign]
        rw [List.filterMap_cons_none none_]
        exact ih m
      · next index native =>
        rw [meets_bind]
        refine (lstat_spec site name m).mono (fun info t₁ spec => ?_) (fun _ u kept => kept)
        obtain ⟨kept,inode,found,described⟩ := spec
        have some_ : segmentAt site m.world name=some ⟨name,"",index,info.device,info.inode,info.size⟩ := by
          unfold segmentAt
          rw [if_neg closed,native,found,described]
          rfl
        dsimp only
        split
        · exact kept
        · rw [meets_bind]
          refine (ih t₁).mono (fun others t₂ result => ?_) (fun _ u kept' => kept'.trans kept)
          rw [meets_pure,List.filterMap_cons_some some_]
          refine ⟨result.1.trans kept,?_⟩
          rw [result.2,kept_world kept]

/-- In a directory where nothing has been moved, a scan finds the first directory's segments. -/
theorem scan_untouched (fresh : ∀ name inode, w₀.entry name=some inode → inode < w₀.next) {w : World}
    (safe : Safe site pids w₀ w) (untouched : Untouched site pids w₀ w) :
    nameSegments site ((recordedNames site w).filterMap (segmentAt site w))=closedSegments site w₀ := by
  have names : recordedNames site w=recordedNames site w₀ := by
    unfold recordedNames
    rw [untouched.recorded]
  unfold closedSegments
  rw [names]
  congr 1
  refine List.filterMap_congr (fun name member => ?_)
  unfold recordedNames at member
  rw [List.mem_mergeSort,List.mem_filter] at member
  have other := recorded_ne (recorded_last member.2)
  have entry := untouched.names name ⟨other.1,fun pid _ => other.2 pid⟩
  unfold segmentAt
  split
  · rfl
  · rw [entry]
    cases found : w₀.entry name with
    | none => cases nativeIndex site name <;> rfl
    | some inode =>
      have same := safe.files inode (fresh name inode found)
      cases nativeIndex site name with
      | none => rfl
      | some index =>
        dsimp only
        rw [same.device,same.size]

/-- The plan is the one of the first directory. -/
theorem planSegments_spec (fresh : ∀ name inode, w₀.entry name=some inode → inode < w₀.next) {d : Document}
    {m : Machine} (h : Writing site pids w₀ d m) :
    Meets (planSegments site) m
      (fun segments t => segments=closedSegments site w₀ ∧ Safe site pids w₀ t.world ∧
        t.document.archiveSegments=some (closedSegments site w₀))
      (fun _ t => Safe site pids w₀ t.world) := by
  unfold planSegments
  rw [meets_bind,meets_get]
  split
  · next segments planned =>
    rw [h.same] at planned
    rcases h.planned.segments with same | ⟨unplanned,_⟩
    · rw [planned] at same
      cases same
      refine ⟨rfl,h.safe,?_⟩
      rw [h.same,planned]
    · rw [planned] at unplanned
      cases unplanned
  · next absent =>
    rw [h.same] at absent
    rcases h.planned.segments with same | ⟨_,untouched⟩
    · rw [absent] at same
      cases same
    · rw [meets_bind]
      refine (recordedPaths_spec site m).mono (fun names t₁ spec₁ => ?_) (fun _ u kept => (h.kept kept).safe)
      rw [meets_bind]
      refine (scanSegments_spec site names t₁).mono (fun found t₂ spec₂ => ?_)
        (fun _ u kept => (h.kept (kept.trans spec₁.1)).safe)
      have found_ : nameSegments site found=closedSegments site w₀ := by
        rw [spec₂.2,spec₁.2,kept_world spec₁.1]
        exact scan_untouched fresh h.safe untouched
      dsimp only
      unfold edit
      rw [meets_bind,meets_modify,meets_pure,found_]
      exact ⟨rfl,(h.kept (spec₂.1.trans spec₁.1)).safe,rfl⟩

/-- A manifest that may be written, once the plan is in the directory. -/
theorem Ready.writing {Q : Document → Prop} {m : Machine} (h : Ready site pids w₀ Q m)
    (planned : ∀ d, Q d → d.archiveSegments=some (closedSegments site w₀) ∧
      (d.archiveFinalizationState=some .finalized → Listed site w₀ d)) :
    Writing site pids w₀ m.document m := by
  have both := planned m.document h.document
  exact ⟨h.safe,rfl,Or.inl both.1,fun final => ⟨both.1,both.2 final⟩⟩

/-- Finalization is safe at every moment. -/
theorem finalizeArchiveFiles_spec (fresh : ∀ name inode, w₀.entry name=some inode → inode < w₀.next) {m : Machine}
    (safe : Safe site pids w₀ m.world)
    (planned : m.document.archiveSegments=some (closedSegments site w₀) ∨
      (m.document.archiveSegments=none ∧ Untouched site pids w₀ m.world)) {pid : ℕ} (member : pid∈pids) :
    Meets (finalizeArchiveFiles site pid) m (fun _ t => Safe site pids w₀ t.world) (fun _ t => Safe site pids w₀ t.world) := by
  have unfinished : ∀ d, Unfinished site w₀ d → d.archiveSegments=some (closedSegments site w₀) ∧
      (d.archiveFinalizationState=some .finalized → Listed site w₀ d) := fun d hd => ⟨hd.1,fun final => absurd final hd.2⟩
  unfold finalizeArchiveFiles
  unfold edit
  rw [meets_bind,meets_modify]
  have first : Writing site pids w₀ (begin m.document) {m with document := begin m.document} :=
    ⟨safe,rfl,planned,fun final => by cases final⟩
  rw [meets_bind]
  refine (writeManifest_spec first member).mono (fun _ t₁ written => ?_) (fun _ t now => now.safe)
  rw [meets_bind]
  refine (planSegments_spec fresh written.1).mono (fun segments t₂ plan => ?_) (fun _ t now => now)
  obtain ⟨shape,safe₂,document₂⟩ := plan
  rw [shape,meets_bind,meets_modify]
  have second : Writing site pids w₀ (begin t₂.document) {t₂ with document := begin t₂.document} :=
    ⟨safe₂,rfl,Or.inl document₂,fun final => by cases final⟩
  rw [meets_bind]
  refine (writeManifest_spec second member).mono (fun _ t₃ written₃ => ?_) (fun _ t now => now.safe)
  have pinned : Pinned site w₀ t₃.world := by
    obtain ⟨inode,found,contents⟩ := written₃.2
    exact ⟨inode,_,found,contents,document₂⟩
  have ready : Ready site pids w₀ (Listing site w₀) t₃ := by
    refine ⟨written₃.1.safe,pinned,?_⟩
    rw [written₃.1.same]
    exact ⟨document₂,by simp [begin],rfl⟩
  rw [meets_bind]
  refine (meets_catchRaised (fun _ t => Ready site pids w₀ (Issued site w₀) t)
    ((issueSegments_spec ready).mono (fun _ t now => now) (fun exit t now => ?_))).mono (fun _ t₄ issued => ?_)
    (fun _ t now => now)
  · cases exit with
    | killed => exact now.safe
    | raised text =>
      dsimp only
      rw [meets_bind,meets_modify]
      have failed : Ready site pids w₀ (Unfinished site w₀) {t with document := {t.document with
          status := "failed"
          archiveFinalizationState := some .failed
          archiveFinalizationError := some text}} := ⟨now.safe,now.pinned,now.document.1,by simp⟩
      rw [meets_bind]
      have stable : Extendable (Unfinished site w₀) := fun d name size hd => hd
      refine (inventoryPartialFiles_keeps stable _ failed).mono (fun _ u listed => ?_) (fun _ u listed => listed.safe)
      rw [meets_bind]
      refine (writeManifest_spec (listed.writing unfinished) member).mono (fun _ v now => now.1.safe) (fun _ v now => now.safe)
  · rw [meets_bind]
    have stable : Publishable (Issued site w₀) := ⟨fun d receipts hd => hd,fun d parts hd => hd⟩
    refine (publishParts_keeps stable t₄ issued).mono (fun _ t₅ published => ?_) (fun _ t now => now.safe)
    exact (writeManifest_spec (published.writing (fun d hd => hd)) member).mono (fun _ t now => now.1.safe)
      (fun _ t now => now.safe)

/-- A run that goes on is safe at every moment. -/
theorem resume_spec (fresh : ∀ name inode, w₀.entry name=some inode → inode < w₀.next) {m : Machine}
    (safe : Safe site pids w₀ m.world) {pid : ℕ} (member : pid∈pids) :
    Meets (resume site pid) m (fun _ t => Safe site pids w₀ t.world) (fun _ t => Safe site pids w₀ t.world) := by
  unfold resume
  rw [meets_bind]
  refine (lstat_spec site manifestName m).mono (fun info t₁ spec => ?_) (fun _ t kept => kept_world kept ▸ safe)
  obtain ⟨kept₁,inode,found,described⟩ := spec
  have safe₁ : Safe site pids w₀ t₁.world := kept_world kept₁ ▸ safe
  split
  · exact safe₁
  · rw [meets_bind]
    refine (call_view.meets t₁).mono (fun _ t₂ kept₂ => ?_) (fun _ t kept => kept_world kept ▸ safe₁)
    have safe₂ : Safe site pids w₀ t₂.world := kept_world kept₂ ▸ safe₁
    rw [meets_bind,meets_get]
    split
    · exact safe₂
    · next existing contents =>
      obtain ⟨inode',d,found',contents',planned⟩ := safe₂.manifest
      rw [kept_world kept₂,kept_world kept₁,found] at found'
      cases found'
      rw [described] at contents
      have same : existing=d := by
        have contents : (t₂.world.inodes inode).contents=.manifest existing := contents
        rw [contents'] at contents
        cases contents
        rfl
      dsimp only
      split
      · exact safe₂
      · split
        · exact safe₂
        · unfold edit
          rw [meets_bind,meets_modify,same]
          exact finalizeArchiveFiles_spec fresh (m := {t₂ with document := d}) safe₂ planned.segments member

end Finalization

section Runs

variable (site : Site) (w₀ : World)

/-- A recorder about to finalize: its manifest is in the directory, and no plan has been made. -/
structure Start (d₀ : Document) : Prop where
  /-- Names stand for files that exist. -/
  fresh : ∀ name inode, w₀.entry name=some inode → inode < w₀.next
  /-- The manifest in the directory has no plan and is not final. -/
  manifest : ∃ inode disk, w₀.entry manifestName=some inode ∧ (w₀.inodes inode).contents=.manifest disk ∧
    disk.archiveSegments=none ∧ disk.archiveFinalizationState≠some .finalized
  /-- The manifest in memory has no plan. -/
  document : d₀.archiveSegments=none

/-- A file that is neither the manifest nor a closed segment keeps its name and its bytes. -/
def ForeignKept (w : World) : Prop :=
  ∀ name inode, w₀.entry name=some inode → name≠manifestName → (∀ index, name≠sourceName site index) →
    w.entry name=some inode ∧ SameFile (w.inodes inode) (w₀.inodes inode)

/-- A directory reached from a first one, in the words of what finalization promises. -/
structure CrashSafe (w : World) : Prop where
  /-- No file that the recorder did not create is replaced or removed. -/
  foreign : ForeignKept site w₀ w
  /-- Every closed segment has its native name or its readable one, and its bytes. -/
  reachable : ∀ index inode, w₀.entry (sourceName site index)=some inode →
    (w.entry (sourceName site index)=some inode ∨
      w.entry (issuedBagName site index (closedSegments site w₀).length)=some inode) ∧
    SameFile (w.inodes inode) (w₀.inodes inode)
  /-- The readable names differ. -/
  distinct : ∀ i j, issuedBagName site i (closedSegments site w₀).length=
    issuedBagName site j (closedSegments site w₀).length → i=j
  /-- A final manifest lists every closed segment once, in the order of the numbers. -/
  finalized : ∀ inode d, w.entry manifestName=some inode → (w.inodes inode).contents=.manifest d →
    d.archiveFinalizationState=some .finalized → Listed site w₀ d

/-- What is called for holds of every safe directory. -/
theorem safe_crashSafe {pids : List ℕ} {w : World} (fresh : ∀ name inode, w₀.entry name=some inode → inode < w₀.next)
    (unclaimed : ∀ pid∈pids, w₀.entry (temporaryName pid)=none) (h : Safe site pids w₀ w) : CrashSafe site w₀ w := by
  refine ⟨fun name inode found other apart => ⟨?_,h.files inode (fresh name inode found)⟩,
    fun index inode found => ⟨?_,h.files inode (fresh _ inode found)⟩,fun i j same => issued_inj same,
    fun inode d found contents final => ?_⟩
  · refine h.kept name inode ⟨other,fun pid member same => ?_⟩ (fun segment member same => ?_) found
    · rw [same,unclaimed pid member] at found
      cases found
    · rw [(segment_names member).1] at same
      exact apart segment.index same
  · have member : (⟨sourceName site index,issuedBagName site index (closedSegments site w₀).length,index,
        (w₀.inodes inode).device,inode,(w₀.inodes inode).size⟩ : Segment)∈closedSegments site w₀ :=
      mem_closedSegments.mpr ⟨inode,found,rfl⟩
    rcases h.held _ member with native | ⟨_,issued⟩
    · exact Or.inl native
    · exact Or.inr issued
  · obtain ⟨inode',d',found',contents',planned⟩ := h.manifest
    rw [found] at found'
    cases found'
    rw [contents] at contents'
    cases contents'
    exact (planned.listed final).2

/-- The first directory is safe. -/
theorem start_safe {d₀ : Document} (start : Start w₀ d₀) {pids : List ℕ}
    (unclaimed : ∀ pid∈pids, w₀.entry (temporaryName pid)=none) : Safe site pids w₀ w₀ := by
  obtain ⟨inode,disk,found,contents,unplanned,unfinished⟩ := start.manifest
  have absent : ∀ pid∈pids, ∀ place, w₀.entry (temporaryName pid)≠some place := by
    intro pid member place there
    rw [unclaimed pid member] at there
    cases there
  refine ⟨fun _ _ => sameFile_refl _,Nat.le_refl _,start.fresh,fun pid member place there => ?_,
    fun pid member place there => ?_,fun pid member _ _ place there _ => ?_,fun name place _ _ there => there,
    fun segment member => ?_,inode,disk,found,contents,Or.inr ⟨unplanned,fun _ _ => rfl,rfl⟩,fun final => absurd final unfinished⟩
  · exact absurd there (absent pid member place)
  · exact absurd there (absent pid member place)
  · exact absurd there (absent pid member place)
  · obtain ⟨place,there,shape⟩ := mem_closedSegments.mp member
    rw [shape]
    exact Or.inl there

/-- Whatever calls fail and whenever the recorder is killed and started again, finalization is safe and ends as an
uninterrupted run would, when nothing stands under the temporary names of its manifests. -/
theorem finalization_crashSafe {d₀ : Document} (start : Start w₀ d₀) (first : Attempt) (later : List Attempt)
    (unclaimed : ∀ attempt∈first::later, w₀.entry (temporaryName attempt.pid)=none) :
    CrashSafe site w₀ (worldAfter site w₀ d₀ first later) := by
  have unclaimed_ : ∀ pid∈(first::later).map Attempt.pid, w₀.entry (temporaryName pid)=none := by
    intro pid member
    obtain ⟨attempt,inside,same⟩ := List.mem_map.mp member
    rw [← same]
    exact unclaimed attempt inside
  have safe := start_safe site w₀ start unclaimed_
  have after : ∀ {α : Type} {action : Recorder α} {m : Machine},
      Meets action m (fun _ t => Safe site ((first::later).map Attempt.pid) w₀ t.world)
        (fun _ t => Safe site ((first::later).map Attempt.pid) w₀ t.world) →
      Safe site ((first::later).map Attempt.pid) w₀ (stateOf (action m)).world := by
    intro α action m spec
    unfold Meets at spec
    cases result : action m with
    | ok a t =>
      rw [result] at spec
      exact spec
    | error exit t =>
      rw [result] at spec
      exact spec
  refine safe_crashSafe site w₀ start.fresh unclaimed_ ?_
  unfold worldAfter
  refine run_invariant (fun (w : World) attempt (h : Safe site ((first::later).map Attempt.pid) w₀ w)
    (member : attempt.pid∈(first::later).map Attempt.pid) => ?_) ?_ (along_of_forall _ _ (fun attempt inside => ?_))
  · exact after (resume_spec start.fresh h member)
  · refine after (finalizeArchiveFiles_spec start.fresh safe (Or.inr ⟨start.document,fun _ _ => rfl,rfl⟩) ?_)
    exact List.mem_cons_self ..
  · exact List.mem_map.mpr ⟨attempt,List.mem_cons_of_mem _ inside,rfl⟩

end Runs

section Hall

/-- A recording of a hall. -/
def hallSite : Site where
  outputDirectory := "/data/Experiments/hall"
  stem := "hall"
  recordingId := "hall-1"
  device := 1
  sha256 := fun _ => "334359b90efed75da5f0ada1d5e6b256f4a6bd0aee7eb39c0f90182a021ffc8b"
  documentBytes := fun _ => 512

/-- Its manifest when recording ended. -/
def hallDocument : Document where
  recordingId := "hall-1"
  recordNamingVersion := 1
  recordingEndedAt := some "2024-05-01T10:00:00Z"
  status := "stopped"
  recorderExitCode := some 0
  archiveFinalizationState := none
  archiveFinalizationError := none
  archiveSegments := none
  bagFiles := []
  slotId := ""
  targetId := "hall"
  partContentReceipts := []
  parts := []

/-- Its directory, with two closed segments and perhaps a file of someone else. -/
def hallWorld (others : List (Sigma fun _ : String => ℕ)) : World where
  entries := List.toAList (⟨manifestName,0⟩::⟨"hall_0.bag",1⟩::⟨"hall_1.bag",2⟩::others)
  inodes := fun inode =>
    if inode=0 then ⟨1,true,512,1,1,.manifest {hallDocument with recordingEndedAt := none,status := "recording"}⟩
    else ⟨1,true,1,1,1,.bytes [35]⟩
  next := 4
  now := 1

/-- Recording has just ended. -/
theorem hallWorld_start {others : List (Sigma fun _ : String => ℕ)} (low : ∀ entry∈others, entry.2 < 4) :
    Start (hallWorld others) hallDocument := by
  refine ⟨fun name inode found => ?_,
    ⟨0,{hallDocument with recordingEndedAt := none,status := "recording"},rfl,rfl,rfl,nofun⟩,rfl⟩
  · have found : (hallWorld others).entries.lookup name=some inode := found
    unfold hallWorld at found
    rw [AList.lookup_to_alist] at found
    have member := List.of_mem_dlookup found
    simp only [List.mem_cons,Sigma.mk.injEq,heq_eq_eq] at member
    show inode < 4
    rcases member with own | own | own | other
    · omega
    · omega
    · omega
    · exact low _ other

/-- Two more runs; the first of them is killed while it moves the segments. -/
def hallAttempts : List Attempt := [⟨4243,List.replicate 33 none⟩,⟨4244,List.replicate 200 none⟩]

/-- A hall's recording whose finalization is killed twice. -/
theorem finalization_crashSafe_hall :
    CrashSafe hallSite (hallWorld []) (worldAfter hallSite (hallWorld []) hallDocument ⟨4242,List.replicate 17 none⟩ hallAttempts) :=
  finalization_crashSafe hallSite (hallWorld []) (hallWorld_start nofun) ⟨4242,List.replicate 17 none⟩ hallAttempts
    (by decide +kernel)

/-- A file of someone else under the temporary name of the next manifest is emptied and removed. -/
theorem foreign_temporary_replaced :
    ¬∀ (site : Site) (w₀ : World) (d₀ : Document), Start w₀ d₀ → ∀ (first : Attempt) (later : List Attempt),
      ForeignKept site w₀ (worldAfter site w₀ d₀ first later) := by
  intro claimed
  have start : Start (hallWorld [⟨temporaryName 4242,3⟩]) hallDocument := hallWorld_start (by simp)
  have kept := claimed hallSite _ hallDocument start ⟨4242,List.replicate 4 none⟩ [] (temporaryName 4242) 3 (by decide +kernel)
    (temporary_ne_manifest 4242) (fun index same => ?_)
  · have gone : (worldAfter hallSite (hallWorld [⟨temporaryName 4242,3⟩]) hallDocument
        ⟨4242,List.replicate 4 none⟩ []).entry (temporaryName 4242)=none := by decide +kernel
    rw [gone] at kept
    cases kept.1
  · exact (recorded_ne (Or.inl (sourceName_last index))).2 4242 same.symm

end Hall

end Ros1Adapter.BagRecovery
