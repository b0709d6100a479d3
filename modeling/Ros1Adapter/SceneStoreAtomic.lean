import Ros1Adapter.SceneStoreSteps

/-!
# Atomicity of failed commands

The events of a command say whether a hook accepted it. A failed command that
no hook accepted leaves the live scene alone. A failed command that a hook
accepted failed in its autosave, and its scene is the one that the same command
leaves when the save succeeds.
-/

namespace Ros1Adapter.SceneStoreAtomic

open SceneJson SceneFiles SceneStore SceneStoreSaving SceneStoreSteps ActionRules

variable {σ : Type} {X : Externals} {hooks : Hooks σ} {io : CommandIo} {request : Json}

/-- Whether a hook accepted a call. -/
def accepts : Event → Bool
  | .applied _ _ _ accepted => accepted
  | .moved _ _ _ accepted => accepted
  | _ => false

/-- The live scene and its motion are the same. -/
structure Untouched (s t : Store) : Prop where
  /-- Same document. -/
  document : t.document=s.document
  /-- Same revision. -/
  revision : t.revision=s.revision
  /-- Same documents to undo. -/
  undoStack : t.undoStack=s.undoStack
  /-- Same documents to redo. -/
  redoStack : t.redoStack=s.redoStack
  /-- Motion runs or stands as before. -/
  playing : t.playing=s.playing
  /-- Same scene time at the last motion command. -/
  elapsed : t.elapsed=s.elapsed
  /-- Same clock reading at the last motion command. -/
  startedAt : t.startedAt=s.startedAt

/-- Document, revision and stacks are the same. -/
structure SameScene (s t : Store) : Prop where
  /-- Same document. -/
  document : t.document=s.document
  /-- Same revision. -/
  revision : t.revision=s.revision
  /-- Same documents to undo. -/
  undoStack : t.undoStack=s.undoStack
  /-- Same documents to redo. -/
  redoStack : t.redoStack=s.redoStack

/-- Kept members include the live scene and its motion. -/
theorem untouched_of_kept {s t : Store} (h : keptMembers t=keptMembers s) : Untouched s t := by
  have hd := congrArg Store.document h
  have hr := congrArg Store.revision h
  have hu := congrArg Store.undoStack h
  have hre := congrArg Store.redoStack h
  have hp := congrArg Store.playing h
  have he := congrArg Store.elapsed h
  have hs := congrArg Store.startedAt h
  exact ⟨hd,hr,hu,hre,hp,he,hs⟩

/-- Quiet effects record no acceptance. -/
theorem quiets_trace {w t : World σ} (h : Quiets X hooks io request w t) :
    ∃ events, t.trace=events ++ w.trace ∧ ∀ event∈events, accepts event=false := by
  induction h with
  | refl => exact ⟨[],rfl,by simp⟩
  | tail _ hs ih =>
    obtain ⟨events,hm,hq⟩ := ih
    have hstep : ∀ {u v : World σ}, Quiet X hooks io request u v →
        ∃ new, v.trace=new ++ u.trace ∧ ∀ event∈new, accepts event=false := by
      intro u v hs
      cases hs with
      | ticked | directories | counted | encoded => exact ⟨[],rfl,by simp⟩
      | published | refused | held => exact ⟨[_],rfl,by simp [accepts]⟩
      | completed => exact ⟨[_,_],rfl,by simp [accepts]⟩
    obtain ⟨new,hn,hnew⟩ := hstep hs
    refine ⟨new ++ events,?_,?_⟩
    · rw [hn,hm,List.append_assoc]
    · intro event he
      rcases List.mem_append.mp he with he | he
      · exact hnew event he
      · exact hq event he

/-- An accepted call records its acceptance. -/
theorem accepted_trace {w t : World σ} (h : Accepted X hooks request w t) :
    ∃ events, t.trace=events ++ w.trace ∧ ∃ event∈events, accepts event=true := by
  cases h with
  | @applied candidate adopt events client hp hh =>
    refine ⟨events ++ [.applied candidate w.store.epoch w.store.nextRevision true],?_,?_⟩
    · simp
    · exact ⟨_,List.mem_append_right _ (List.mem_singleton_self _),rfl⟩
  | @moved client operation =>
    obtain ⟨playing,elapsed,startedAt,client',hm⟩ := movedWorld_shape hooks operation w client
    rw [hm]
    exact ⟨[_],rfl,_,List.mem_singleton_self _,rfl⟩

/-- An operation only adds events. -/
theorem progress_trace {w t : World σ} (h : Progress X hooks io request w t) :
    ∃ events, t.trace=events ++ w.trace := by
  obtain ⟨q,m,hq,hm,ht⟩ := h
  obtain ⟨before,hbefore,_⟩ := quiets_trace hq
  obtain ⟨after,hafter,_⟩ := quiets_trace ht
  rcases hm with rfl | hacc
  · exact ⟨after ++ before,by rw [hafter,hbefore,List.append_assoc]⟩
  · obtain ⟨during,hduring,_⟩ := accepted_trace hacc
    exact ⟨after ++ (during ++ before),by rw [hafter,hduring,hbefore]; simp only [List.append_assoc]⟩

/-- A step only adds events. -/
theorem step_trace (X : Externals) (hooks : Hooks σ) (w : World σ) (step : Step) :
    ∃ events, (stepWorld X hooks w step).trace=events ++ w.trace := by
  cases step with
  | external path content => exact ⟨[],rfl⟩
  | command io request =>
    dsimp only [stepWorld]
    have ho := command_outcome X hooks io request w
    generalize command X hooks io request w=result at ho
    cases ho with
    | answered success error hfresh =>
      exact progress_trace ⟨w,w,.refl,Or.inl rfl,resultLocked_quiets X hooks io request success error w⟩
    | replayed hreplay => exact ⟨[],rfl⟩
    | performed hfresh =>
      obtain ⟨events,htrace⟩ := progress_trace (finished_progress X hooks io request w)
      exact ⟨events,htrace⟩

/-- A run only adds events. -/
theorem run_trace (X : Externals) (hooks : Hooks σ) (w : World σ) (steps : List Step) :
    ∃ events, (run (stepWorld X hooks) w steps).trace=events ++ w.trace := by
  induction steps generalizing w with
  | nil => exact ⟨[],rfl⟩
  | cons step rest ih =>
    obtain ⟨first,hfirst⟩ := step_trace X hooks w step
    obtain ⟨later,hlater⟩ := ih (stepWorld X hooks w step)
    exact ⟨later ++ first,by rw [run_cons,hlater,hfirst,List.append_assoc]⟩

/-- A result states its own success. -/
theorem resultLocked_success (success : Bool) (error : String) (w : World σ) :
    (resultLocked hooks success error w).1.member "success"=some (.boolean success) := by
  have henvelope : ∃ members, (envelopeLocked hooks w).1=.object members := by
    unfold envelopeLocked statusLocked
    exact ⟨_,rfl⟩
  obtain ⟨members,he⟩ := henvelope
  have hs := Json.member_set he "success" (.boolean success)
  unfold resultLocked
  dsimp only
  split
  · exact hs
  · have hobject : (envelopeLocked hooks w).1.set "success" (.boolean success)=
        .object (Json.setMember "success" (.boolean success) members) := by
      rw [he]
      rfl
    rw [Json.member_set_other hobject (by decide)]
    exact hs

/-- A failed save changes at most the cache of its writer. -/
theorem save_thrown {part : SaveIo} {w t : World σ} {error : Error} (h : save X part w=.error error t) :
    t.store=w.store ∨ t.store=encodedStore X w.store := by
  rcases (save_spec X part w).thrown h with
    ⟨_,directories,store,hs,rfl⟩ | ⟨target,directories,_,_,rfl⟩
  · exact hs
  · exact Or.inr rfl

/-- A failed autosave changes at most the cache of its writer. -/
theorem autosave_thrown {part : SaveIo} {w t : World σ} {error : Error}
    (h : autosave X part w=.error error t) : t.store=w.store ∨ t.store=encodedStore X w.store := by
  unfold autosave at h
  cases hsource : w.store.source with
  | none => simp [hsource] at h
  | some source =>
    cases hx : save X part w with
    | ok u t' => simp [hsource,hx] at h
    | error e t' =>
      have ht : t'=t := by
        cases hk : e.kind <;> simp [hsource,hx,hk] at h <;> exact h.2
      rw [←ht]
      exact save_thrown hx

/-- The end of an operation: its body threw, its body returned without an
autosave, or its autosave ended it. -/
theorem execute_cases (X : Externals) (hooks : Hooks σ) (io : CommandIo) (request : Json) (w : World σ) :
    (∃ error t, commit X hooks io request w=.error error t ∧
        execute X hooks io request w=.error error t) ∨
      (∃ m, commit X hooks io request w=.ok false m ∧ execute X hooks io request w=.ok () m) ∨
      (∃ m, commit X hooks io request w=.ok true m ∧
        execute X hooks io request w=autosave X io.autosave m) := by
  unfold execute
  cases hc : commit X hooks io request w with
  | error e t => exact Or.inl ⟨e,t,rfl,bind_of_error hc⟩
  | ok saves m =>
    cases saves with
    | false => exact Or.inr (Or.inl ⟨m,rfl,bind_of_ok hc⟩)
    | true => exact Or.inr (Or.inr ⟨m,rfl,bind_of_ok hc⟩)

/-- The result of an operation tells which way it ended. -/
theorem finished_cases (w : World σ) {success : Bool}
    (h : (finished X hooks io request w).1.member "success"=some (.boolean success)) :
    (success=true ∧ ∃ t, execute X hooks io request w=.ok () t ∧
        finished X hooks io request w=resultLocked hooks true "" t) ∨
      (success=false ∧ ∃ error t, execute X hooks io request w=.error error t ∧
        finished X hooks io request w=resultLocked hooks false error.what t) := by
  unfold finished at h ⊢
  cases hx : execute X hooks io request w with
  | ok u t =>
    rw [hx] at h
    simp only [resultLocked_success,Option.some.injEq,Json.boolean.injEq] at h
    exact Or.inl ⟨h.symm,t,rfl,rfl⟩
  | error e t =>
    rw [hx] at h
    simp only [resultLocked_success,Option.some.injEq,Json.boolean.injEq] at h
    exact Or.inr ⟨h.symm,e,t,rfl,rfl⟩

/-- Computing a result keeps the trace. -/
theorem resultLocked_trace (success : Bool) (error : String) (w : World σ) :
    (resultLocked hooks success error w).2.trace=w.trace := by
  unfold resultLocked envelopeLocked sceneTimeLocked
  dsimp only
  split <;> rfl

/-- Computing a result keeps all files. -/
theorem resultLocked_files (success : Bool) (error : String) (w : World σ) :
    (resultLocked hooks success error w).2.files=w.files := by
  unfold resultLocked envelopeLocked sceneTimeLocked
  dsimp only
  split <;> rfl

/-- What a failed command leaves behind. -/
structure FailedCleanly (X : Externals) (hooks : Hooks σ) (io : CommandIo) (request : Json)
    (w t : World σ) (events : List Event) : Prop where
  /-- The events of the command come after all earlier ones. -/
  trace : t.trace=events ++ w.trace
  /-- Without an accepted hook call the live scene and its motion are untouched. -/
  refused : (∀ event∈events, accepts event=false) → Untouched w.store t.store
  /-- After an accepted hook call the autosave raised the failure; the saved
  state is the one before it and the scene is the one of a successful save. -/
  unsaved : (∃ event∈events, accepts event=true) →
    ∃ committed error failed, commit X hooks io request w=.ok true committed ∧
      autosave X io.autosave committed=.error error failed ∧
      SameScene committed.store t.store ∧
      t.store.savedDocument=committed.store.savedDocument ∧
      t.store.savedRevision=committed.store.savedRevision ∧
      ∀ other : SaveIo,
        (command X hooks {io with autosave := other} request w).1.member "success"=
            some (.boolean true) →
          SameScene (command X hooks {io with autosave := other} request w).2.store t.store

/-- A world reached quietly and retained fails cleanly. -/
theorem quiets_failedCleanly {w t : World σ} (hq : Quiets X hooks io request w t) (requests :
    List (ℕ × Receipt)) (requestIds : String → Option ℕ) (nextNode : ℕ) :
    ∃ events, FailedCleanly X hooks io request w {t with store := {t.store with
      requests := requests, requestIds := requestIds, nextNode := nextNode}} events := by
  obtain ⟨events,htrace,hnone⟩ := quiets_trace hq
  have hu := untouched_of_kept (quiets_kept hq)
  refine ⟨events,htrace,?_,?_⟩
  · intro _
    exact ⟨hu.document,hu.revision,hu.undoStack,hu.redoStack,hu.playing,hu.elapsed,hu.startedAt⟩
  · rintro ⟨event,he,ha⟩
    rw [hnone event he] at ha
    cases ha

/-- The same command with another autosave leaves the committed scene when it succeeds. -/
theorem command_other_autosave {w m : World σ} {id fingerprint : String}
    (hfresh : admission X w.store request=.fresh id fingerprint)
    (hc : commit X hooks io request w=.ok true m) {other : SaveIo}
    (hs : (command X hooks {io with autosave := other} request w).1.member "success"=
      some (.boolean true)) :
    SameScene m.store (command X hooks {io with autosave := other} request w).2.store := by
  have hcommit : commit X hooks {io with autosave := other} request w=.ok true m := hc
  have ho := command_outcome X hooks {io with autosave := other} request w
  generalize command X hooks {io with autosave := other} request w=result at ho hs
  cases ho with
  | answered success error h => exact absurd hfresh (h id fingerprint)
  | replayed h =>
    rw [hfresh] at h
    cases h
  | performed h =>
    rcases finished_cases w hs with ⟨_,t,hx,hf⟩ | ⟨hb,_⟩
    swap
    · cases hb
    rcases execute_cases X hooks {io with autosave := other} request w with
      ⟨e,t',hbad,_⟩ | ⟨m',hbad,_⟩ | ⟨m',hm',hauto⟩
    · rw [hcommit] at hbad
      cases hbad
    · rw [hcommit] at hbad
      cases hbad
    · rw [hcommit] at hm'
      cases hm'
      have hq := (autosave_quiets X hooks {io with autosave := other} request m).returned
        (hauto.symm.trans hx)
      have hu := untouched_of_kept (quiets_kept hq)
      rw [hf]
      have hstore := resultLocked_store hooks true "" t
      exact ⟨by rw [←hu.document,←hstore]; rfl,by rw [←hu.revision,←hstore]; rfl,
        by rw [←hu.undoStack,←hstore]; rfl,by rw [←hu.redoStack,←hstore]; rfl⟩

/-- A failed command whose autosave raised the failure keeps the committed scene. -/
theorem autosave_failedCleanly {w m t : World σ} {id fingerprint : String} {error : Error}
    (hfresh : admission X w.store request=.fresh id fingerprint)
    (hc : commit X hooks io request w=.ok true m) (hauto : autosave X io.autosave m=.error error t)
    {u : World σ} (htrace : u.trace=t.trace) (hstore : ∃ requests requestIds nextNode,
      u.store={t.store with requests := requests, requestIds := requestIds, nextNode := nextNode}) :
    ∃ events, FailedCleanly X hooks io request w u events := by
  obtain ⟨requests,requestIds,nextNode,hstore⟩ := hstore
  obtain ⟨q,hq,hm⟩ := (commit_spec X hooks io request w).returned hc
  have hacc : Accepted X hooks request q m := by
    rcases hm with ⟨hfalse,_⟩ | hacc
    · cases hfalse
    · exact hacc
  have hquiet := (autosave_quiets X hooks io request m).thrown hauto
  obtain ⟨before,hbefore,_⟩ := quiets_trace hq
  obtain ⟨during,hduring,event,hevent,haccepts⟩ := accepted_trace hacc
  obtain ⟨after,hafter,_⟩ := quiets_trace hquiet
  have hlist : u.trace=(after ++ during ++ before) ++ w.trace := by
    rw [htrace,hafter,hduring,hbefore]
    simp only [List.append_assoc]
  have hmem : event∈after ++ during ++ before :=
    List.mem_append_left _ (List.mem_append_right _ hevent)
  have hu := untouched_of_kept (quiets_kept hquiet)
  have hsaved : t.store.savedDocument=m.store.savedDocument ∧
      t.store.savedRevision=m.store.savedRevision := by
    rcases autosave_thrown hauto with hs | hs <;> rw [hs] <;> exact ⟨rfl,rfl⟩
  have hscene : SameScene m.store u.store := by
    rw [hstore]
    exact ⟨hu.document,hu.revision,hu.undoStack,hu.redoStack⟩
  refine ⟨after ++ during ++ before,hlist,?_,?_⟩
  · intro hnone
    rw [hnone event hmem] at haccepts
    cases haccepts
  · intro _
    refine ⟨m,error,t,hc,hauto,hscene,?_,?_,?_⟩
    · rw [hstore]
      exact hsaved.1
    · rw [hstore]
      exact hsaved.2
    · intro other hother
      have ho := command_other_autosave hfresh hc hother
      exact ⟨hscene.document.trans ho.document.symm,hscene.revision.trans ho.revision.symm,
        hscene.undoStack.trans ho.undoStack.symm,hscene.redoStack.trans ho.redoStack.symm⟩

/-- Every failed command, from any state and with any hooks and system calls,
either was accepted by no hook and left the live scene and its motion alone, or
was accepted and failed in its autosave: then its scene is what the same command
leaves when saving succeeds and its saved state is the one before the autosave. -/
theorem failed_command_atomic (X : Externals) (hooks : Hooks σ) (io : CommandIo) (request : Json)
    (w : World σ)
    (h : (command X hooks io request w).1.member "success"=some (.boolean false)) :
    ∃ events, FailedCleanly X hooks io request w (command X hooks io request w).2 events := by
  have ho := command_outcome X hooks io request w
  generalize hresult : command X hooks io request w=result at ho h
  cases ho with
  | answered success error hfresh =>
    exact quiets_failedCleanly (resultLocked_quiets X hooks io request success error w) _ _ _
  | @replayed node hfresh =>
    exact quiets_failedCleanly (.refl : Quiets X hooks io request w w)
      (splice w.store node).requests _ _
  | @performed id fingerprint hfresh =>
    rcases finished_cases w h with ⟨hb,_⟩ | ⟨_,error,t,hx,hf⟩
    · cases hb
    rcases execute_cases X hooks io request w with ⟨e,t',hc,he⟩ | ⟨m,hc,he⟩ | ⟨m,hc,he⟩
    · have ht : t'=t := by
        rw [hx] at he
        cases he
        rfl
      have hq := (commit_spec X hooks io request w).thrown hc
      rw [ht] at hq
      have hall := hq.trans (resultLocked_quiets X hooks io request false error.what t)
      rw [hf]
      exact quiets_failedCleanly hall _ _ _
    · rw [hx] at he
      cases he
    · have hauto : autosave X io.autosave m=.error error t := he.symm.trans hx
      refine autosave_failedCleanly hfresh hc hauto ?_ ?_
      · rw [hf]
        exact resultLocked_trace false error.what t
      · rw [hf]
        have hstore := resultLocked_store hooks false error.what t
        dsimp only [retain]
        rw [hstore]
        exact ⟨_,_,_,rfl⟩

/-- A replaced scene whose autosave fails at the rename. -/
theorem failed_command_atomic_rename :
    (command hallExternals acceptingHooks {autosave := {rename := some 5}}
        (sampleRequest "replace" "a" 1 [("document",emptyRoom)]) hallWorld).1.member "success"=
        some (.boolean false) ∧
      ∃ events, FailedCleanly hallExternals acceptingHooks {autosave := {rename := some 5}}
        (sampleRequest "replace" "a" 1 [("document",emptyRoom)]) hallWorld
        (command hallExternals acceptingHooks {autosave := {rename := some 5}}
          (sampleRequest "replace" "a" 1 [("document",emptyRoom)]) hallWorld).2 events := by
  refine ⟨?_,failed_command_atomic _ _ _ _ _ ?_⟩ <;> decide +kernel

end Ros1Adapter.SceneStoreAtomic
