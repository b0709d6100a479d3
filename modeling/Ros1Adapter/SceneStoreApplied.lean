import Ros1Adapter.SceneStoreSteps

/-!
# Agreement of the applied and the desired scene

Every application uses a fresh revision. Between commands the applied revision
is the revision of the document, and the store knows whether its last
application was accepted.
-/

namespace Ros1Adapter.SceneStoreApplied

open SceneJson SceneFiles SceneStore SceneStoreSaving SceneStoreSteps ActionRules

variable {σ : Type} {X : Externals} {hooks : Hooks σ}

/-- Revision of an application. -/
def Event.appliedRevision? : Event → Option ℕ
  | .applied _ _ revision _ => some revision
  | _ => none

/-- Revisions that the apply hook was called with, newest first. -/
def appliedRevisions (trace : List Event) : List ℕ := trace.filterMap Event.appliedRevision?

/-- Document, epoch, revision and acceptance of the most recent application. -/
def lastApplied : List Event → Option (Json × String × ℕ × Bool)
  | [] => none
  | .applied document epoch revision accepted::_ => some (document,epoch,revision,accepted)
  | _::rest => lastApplied rest

/-- Agreement between the hook calls so far and the members of the store. -/
structure Agrees (w : World σ) : Prop where
  /-- Later applications have larger revisions. -/
  ordered : (appliedRevisions w.trace).Pairwise (fun later earlier => earlier<later)
  /-- The next revision is larger than all of them. -/
  fresh : ∀ revision∈appliedRevisions w.trace, revision<w.store.nextRevision
  /-- The applied revision is the desired one. -/
  applied : w.store.appliedRevision=w.store.revision
  /-- The desired revision has been used. -/
  used : w.store.revision<w.store.nextRevision
  /-- The store knows the outcome of the last application and its arguments. -/
  last : ∃ document epoch revision, lastApplied w.trace=
      some (document,epoch,revision,w.store.applicationKnown) ∧
    (w.store.applicationKnown=true →
      document=w.store.document ∧ epoch=w.store.epoch ∧ revision=w.store.revision)

/-- An application with the next revision keeps the order of revisions. -/
theorem ordered_next {trace : List Event} {next : ℕ} (document : Json) (epoch : String) (accepted : Bool)
    (ho : (appliedRevisions trace).Pairwise (fun later earlier => earlier<later))
    (hf : ∀ revision∈appliedRevisions trace, revision<next) :
    (appliedRevisions (.applied document epoch next accepted::trace)).Pairwise
        (fun later earlier => earlier<later) ∧
      ∀ revision∈appliedRevisions (.applied document epoch next accepted::trace), revision<next+1 := by
  have hr : appliedRevisions (.applied document epoch next accepted::trace)=
      next::appliedRevisions trace := rfl
  rw [hr]
  refine ⟨List.pairwise_cons.mpr ⟨hf,ho⟩,?_⟩
  intro revision hm
  rcases List.mem_cons.mp hm with rfl | hm
  · omega
  · have hlt := hf revision hm
    omega

/-- Quiet effects keep the agreement. -/
theorem quiet_agrees {io : CommandIo} {request : Json} (w t : World σ) (h : Agrees w)
    (hs : Quiet X hooks io request w t) : Agrees t := by
  cases hs with
  | ticked | directories | counted | encoded | published | completed | held => exact ⟨h.ordered,h.fresh,h.applied,h.used,h.last⟩
  | @refused candidate =>
    obtain ⟨ho,hf⟩ := ordered_next candidate w.store.epoch false h.ordered h.fresh
    refine ⟨ho,hf,h.applied,?_,candidate,w.store.epoch,w.store.nextRevision,rfl,?_⟩
    · exact Nat.lt_succ_of_lt h.used
    · intro hk
      cases hk

/-- What adopting a proposal does to the members that applications are about. -/
theorem proposal_adopts {request : Json} {w : World σ} {candidate : Json}
    {adopt : Store → ℕ → Store} {events : List Event}
    (hp : Proposal X request w candidate adopt events) (revision : ℕ) :
    (adopt (appliedStore w.store) revision).document=candidate ∧
      (adopt (appliedStore w.store) revision).epoch=w.store.epoch ∧
      (adopt (appliedStore w.store) revision).revision=revision ∧
      (adopt (appliedStore w.store) revision).appliedRevision=w.store.nextRevision ∧
      (adopt (appliedStore w.store) revision).applicationKnown=true ∧
      (adopt (appliedStore w.store) revision).nextRevision=w.store.nextRevision+1 := by
  cases hp <;> exact ⟨rfl,rfl,rfl,rfl,rfl,rfl⟩

/-- The events of a proposal apply nothing. -/
theorem proposal_events {request : Json} {w : World σ} {candidate : Json}
    {adopt : Store → ℕ → Store} {events : List Event}
    (hp : Proposal X request w candidate adopt events) (trace : List Event) :
    appliedRevisions (events ++ trace)=appliedRevisions trace ∧
      lastApplied (events ++ trace)=lastApplied trace := by
  cases hp <;> exact ⟨rfl,rfl⟩

/-- Accepted hook calls keep the agreement. -/
theorem accepted_agrees {request : Json} (w t : World σ) (h : Agrees w)
    (ha : Accepted X hooks request w t) : Agrees t := by
  cases ha with
  | @applied candidate adopt events client hp hh =>
    obtain ⟨hd,he,hr,happ,hk,hn⟩ := proposal_adopts hp w.store.nextRevision
    obtain ⟨hrev,hlast⟩ := proposal_events hp
      (.applied candidate w.store.epoch w.store.nextRevision true::w.trace)
    obtain ⟨ho,hf⟩ := ordered_next candidate w.store.epoch true h.ordered h.fresh
    refine ⟨?_,?_,?_,?_,candidate,w.store.epoch,w.store.nextRevision,?_,?_⟩
    · rw [hrev]
      exact ho
    · rw [hrev,hn]
      exact hf
    · rw [happ,hr]
    · rw [hr,hn]
      exact Nat.lt_succ_self _
    · rw [hlast,hk]
      rfl
    · intro _
      exact ⟨hd.symm,he.symm,hr.symm⟩
  | @moved client operation =>
    obtain ⟨playing,elapsed,startedAt,client',hm⟩ := movedWorld_shape hooks operation w client
    rw [hm]
    exact ⟨h.ordered,h.fresh,h.applied,h.used,h.last⟩

/-- One step keeps the agreement. -/
theorem step_agrees (w : World σ) (step : Step) (h : Agrees w) :
    Agrees (stepWorld X hooks w step) := by
  cases step with
  | command io request =>
    refine command_preserves quiet_agrees accepted_agrees ?_ ?_ h
    · intro u node hu
      exact ⟨hu.ordered,hu.fresh,hu.applied,hu.used,hu.last⟩
    · intro u id fingerprint result hu
      exact ⟨hu.ordered,hu.fresh,hu.applied,hu.used,hu.last⟩
  | external path content => exact ⟨h.ordered,h.fresh,h.applied,h.used,h.last⟩

/-- A new store agrees with its only application. -/
theorem opened_agrees {arguments : StoreArguments} {files : Files} {w : World σ}
    (h : Opened X arguments files w) : Agrees w := by
  obtain ⟨source,input,given,digests,startedAt,_,_,_,hstore⟩ := h.input
  have hrevision : w.store.revision=1 := by rw [hstore]; rfl
  have happlied : w.store.appliedRevision=1 := by rw [hstore]
  have hnext : w.store.nextRevision=2 := by rw [hstore]; rfl
  have hknown : w.store.applicationKnown=true := by rw [hstore]
  refine ⟨?_,?_,?_,?_,w.store.document,w.store.epoch,1,?_,?_⟩
  · rw [h.trace_eq]
    exact List.pairwise_singleton _ _
  · rw [h.trace_eq,hnext]
    intro revision hm
    rw [List.mem_singleton.mp hm]
    decide
  · rw [happlied,hrevision]
  · rw [hrevision,hnext]
    decide
  · rw [h.trace_eq,hknown]
    rfl
  · intro _
    exact ⟨rfl,rfl,hrevision.symm⟩

/-- In every run of a constructed store, whatever its hooks and its system
calls do, applications use strictly increasing revisions, the applied and the
desired revision agree below the next one, and the store knows exactly whether
its last application was accepted and then holds what it applied. -/
theorem run_applications_agree {arguments : StoreArguments} {files : Files} {client : σ} {w : World σ}
    (h : construct X hooks arguments files client=.ok w) (steps : List Step) :
    Agrees (run (stepWorld X hooks) w steps) :=
  run_invariant (fun u step hu _ => step_agrees u step hu) (opened_agrees (construct_opened h))
    (along_true _ w steps)

/-- The agreement in a run that resynchronizes an empty scene twice. -/
theorem run_applications_agree_empty :
    construct hallExternals acceptingHooks hallArguments (filesOf [] [["scenes"]]) ()=.ok hallWorld ∧
      Agrees (run (stepWorld hallExternals acceptingHooks) hallWorld
        [.command {} (sampleRequest "resync" "a" 1 []),.command {} (sampleRequest "resync" "b" 2 [])]) :=
  ⟨rfl,run_applications_agree (rfl : construct hallExternals acceptingHooks hallArguments
    (filesOf [] [["scenes"]]) ()=.ok hallWorld) _⟩

end Ros1Adapter.SceneStoreApplied
