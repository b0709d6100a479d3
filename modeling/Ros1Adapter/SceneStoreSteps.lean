import Mathlib.Logic.Relation
import Ros1Adapter.SceneStoreSaving

/-!
# Effects of a command

A command changes the world by quiet effects, by at most one accepted hook
call and by the bookkeeping of its receipt. A quiet effect reads the clock,
saves, counts or records a hook that refused. Every operation is shown once to
be made of these effects; an invariant is then a fact about each effect.
-/

namespace Ros1Adapter.SceneStoreSteps

open SceneJson SceneDocument SceneYaml SceneFiles SceneStore SceneStoreSaving ActionRules

variable {σ : Type} (X : Externals) (hooks : Hooks σ)

/-- All directory calls of a command succeed. -/
def DirectoriesSafe (io : CommandIo) : Prop :=
  DirectorySafe io.save ∧ DirectorySafe io.prepare ∧ DirectorySafe io.autosave

/-- A document that a request proposes to the apply hook, with the update of
the store and the events that follow its acceptance. -/
inductive Proposal (request : Json) (w : World σ) : Json → (Store → ℕ → Store) → List Event → Prop
  /-- The current document again. -/
  | resync (h : operationOf request=.resync) :
    Proposal request w w.store.document (fun s revision => {s with revision := revision}) []
  /-- The content of the source file. -/
  | reload {source : Path} {bytes : ByteArray} {document : Json} {digest : String}
    (h : operationOf request=.reload) (hs : w.store.source=some source)
    (hc : w.files.contents source=some bytes) (hl : loadBytes X bytes=.ok (document,digest)) :
    Proposal request w document (fun s revision => {s with
      document := document, revision := revision, savedDocument := document,
      savedRevision := revision,
      fileDigests := fun path => if path=source then some digest else s.fileDigests path,
      undoStack := [], redoStack := []}) [.loaded source bytes]
  /-- The last document of the undo stack. -/
  | undo {document : Json} (h : operationOf request=.undo)
    (hs : w.store.undoStack.getLast?=some document) :
    Proposal request w document (fun s revision => {s with
      redoStack := s.redoStack ++ [s.document], undoStack := s.undoStack.dropLast,
      document := document, revision := revision}) []
  /-- The last document of the redo stack. -/
  | redo {document : Json} (h : operationOf request=.redo)
    (hs : w.store.redoStack.getLast?=some document) :
    Proposal request w document (fun s revision => {s with
      undoStack := s.undoStack ++ [s.document], redoStack := s.redoStack.dropLast,
      document := document, revision := revision}) []
  /-- The candidate of an edit. -/
  | edit {candidate : Json}
    (hc : editCandidate X (operationOf request) w.store.document request=.ok candidate)
    (hn : candidate.equal w.store.document=false) :
    Proposal request w candidate (fun s revision => {s with
      undoStack := pushUndo s.undoStack s.document, redoStack := [],
      document := candidate, revision := revision}) []

/-- The store after the apply hook accepted a revision. -/
def appliedStore (s : Store) : Store :=
  {s with nextRevision := s.nextRevision+1, appliedRevision := s.nextRevision, applicationKnown := true}

/-- The store after the apply hook refused a revision. -/
def refusedStore (s : Store) : Store :=
  {s with nextRevision := s.nextRevision+1, applicationKnown := false}

/-- Effects that leave the document, the stacks and the motion alone. -/
inductive Quiet (io : CommandIo) (request : Json) : World σ → World σ → Prop
  /-- A clock reading. -/
  | ticked (w : World σ) : Quiet io request w (nowLocked hooks w).2
  /-- Directories were created. -/
  | directories (w : World σ) (directories : Path → Bool) : Quiet io request w (withDirs w directories)
  /-- Obstacles were validated. -/
  | counted (w : World σ) (count : ℕ) :
    Quiet io request w {w with store := {w.store with obstacleValidations := count}}
  /-- The document was encoded. -/
  | encoded (w : World σ) : Quiet io request w {w with store := encodedStore X w.store}
  /-- A save replaced its target and failed afterwards. -/
  | published {w : World σ} {target : Path} (directories : Path → Bool)
    (hg : Guarded X w target) (hd : ¬DirectoriesSafe io) :
    Quiet io request w
      ⟨encodedStore X w.store,replacedFiles X w.store w.files target directories,w.client,
        .replaced target (encodedBytes X w.store)::w.trace⟩
  /-- A save completed. -/
  | completed {w : World σ} {target : Path} (directories : Path → Bool) (hg : Guarded X w target) :
    Quiet io request w
      ⟨savedStore X w.store target,replacedFiles X w.store w.files target directories,w.client,
        .saved target w.store.document (encodedBytes X w.store)::
          .replaced target (encodedBytes X w.store)::w.trace⟩
  /-- The apply hook refused. -/
  | refused {w : World σ} {candidate : Json} {adopt : Store → ℕ → Store} {events : List Event}
    {error : Error} {client : σ} (hp : Proposal X request w candidate adopt events)
    (hh : hooks.apply candidate w.store.epoch w.store.nextRevision w.client=.error error client) :
    Quiet io request w
      ⟨refusedStore w.store,w.files,client,
        .applied candidate w.store.epoch w.store.nextRevision false::w.trace⟩
  /-- The motion hook refused. -/
  | held {w : World σ} {operation : String} {error : Error} {client : σ}
    (hh : hooks.motion operation w.store.epoch w.store.revision w.client=.error error client) :
    Quiet io request w
      ⟨w.store,w.files,client,.moved operation w.store.epoch w.store.revision false::w.trace⟩

/-- Any number of quiet effects. -/
abbrev Quiets (io : CommandIo) (request : Json) : World σ → World σ → Prop :=
  Relation.ReflTransGen (Quiet X hooks io request)

/-- The world after an accepted motion command. -/
def movedWorld (operation : Operation) (w : World σ) (client : σ) : World σ :=
  let called : World σ := ⟨w.store,w.files,client,
    .moved (motionText operation) w.store.epoch w.store.revision true::w.trace⟩
  let elapsed := sceneTimeLocked hooks called
  let started := nowLocked hooks elapsed.2
  {started.2 with store := {started.2.store with
    playing := decide (operation=Operation.play),
    elapsed := if operation=Operation.reset then 0 else elapsed.1,
    startedAt := started.1}}

/-- An accepted motion command changes only the motion members and the client. -/
theorem movedWorld_shape (operation : Operation) (w : World σ) (client : σ) :
    ∃ playing elapsed startedAt client', movedWorld hooks operation w client=
      ⟨{w.store with playing := playing, elapsed := elapsed, startedAt := startedAt},w.files,client',
        .moved (motionText operation) w.store.epoch w.store.revision true::w.trace⟩ := by
  unfold movedWorld sceneTimeLocked
  dsimp only
  split <;> exact ⟨_,_,_,_,rfl⟩

/-- The one accepted hook call of a command with the updates that follow it. -/
inductive Accepted (request : Json) : World σ → World σ → Prop
  /-- The apply hook accepted a proposal. -/
  | applied {w : World σ} {candidate : Json} {adopt : Store → ℕ → Store} {events : List Event}
    {client : σ} (hp : Proposal X request w candidate adopt events)
    (hh : hooks.apply candidate w.store.epoch w.store.nextRevision w.client=.ok () client) :
    Accepted request w
      ⟨adopt (appliedStore w.store) w.store.nextRevision,w.files,client,
        events ++ .applied candidate w.store.epoch w.store.nextRevision true::w.trace⟩
  /-- The motion hook accepted an operation. -/
  | moved {w : World σ} {client : σ} (operation : Operation)
    (ho : operation=.play ∨ operation=.pause ∨ operation=.reset)
    (hr : operationOf request=operation)
    (hh : hooks.motion (motionText operation) w.store.epoch w.store.revision w.client=.ok () client) :
    Accepted request w (movedWorld hooks operation w client)

/-- What a command does before its receipt: quiet effects around at most one
accepted hook call. -/
def Progress (io : CommandIo) (request : Json) (w t : World σ) : Prop :=
  ∃ q m, Quiets X hooks io request w q ∧ (m=q ∨ Accepted X hooks request q m) ∧
    Quiets X hooks io request m t

/-- Events that a step added to the trace. -/
def newEvents (w t : World σ) : List Event := t.trace.take (t.trace.length-w.trace.length)

/-- Events added in front of a trace are the new ones. -/
theorem newEvents_of_append {w t : World σ} {events : List Event} (h : t.trace=events ++ w.trace) :
    newEvents w t=events := by
  unfold newEvents
  rw [h,List.length_append,Nat.add_sub_cancel]
  exact List.take_left

/-- The members of a store that quiet effects keep; the others are blanked. -/
def keptMembers (s : Store) : Store :=
  {s with
    nextRevision := 0, applicationKnown := false, savedRevision := 0, savedDocument := .null,
    source := none, fileDigests := fun _ => none, yaml := emptyYaml, obstacleValidations := 0}

variable {X hooks} {io : CommandIo} {request : Json}

/-- A quiet effect keeps everything but the saved state and the counters. -/
theorem quiet_kept {w t : World σ} (h : Quiet X hooks io request w t) :
    keptMembers t.store=keptMembers w.store := by
  cases h <;> rfl

/-- Quiet effects keep everything but the saved state and the counters. -/
theorem quiets_kept {w t : World σ} (h : Quiets X hooks io request w t) :
    keptMembers t.store=keptMembers w.store := by
  induction h with
  | refl => rfl
  | tail _ hs ih => exact (quiet_kept hs).trans ih

/-- Quiet effects keep the document. -/
theorem quiets_document {w t : World σ} (h : Quiets X hooks io request w t) :
    t.store.document=w.store.document := by
  have hk := congrArg Store.document (quiets_kept h)
  exact hk

/-- A save that stopped before its rename is quiet. -/
theorem unpublished_quiets {part : SaveIo} {w t : World σ} (h : Unpublished X part w t) :
    Quiets X hooks io request w t := by
  obtain ⟨_,directories,store,hs,rfl⟩ := h
  rcases hs with rfl | rfl
  · exact .single (.directories w directories)
  · exact (Relation.ReflTransGen.single (.encoded w)).tail (.directories _ directories)

variable (X hooks io request)

/-- A save of the command is quiet on both exits. -/
theorem save_quiets {part : SaveIo} (hpart : DirectoriesSafe io → DirectorySafe part) (w : World σ) :
    Meets (save X part) w (fun _ t => Quiets X hooks io request w t)
      (fun _ t => Quiets X hooks io request w t) := by
  refine (save_spec X part w).mono ?_ ?_
  · rintro _ t ⟨target,directories,hr,_,rfl⟩
    exact .single (.completed directories hr.guarded)
  · rintro _ t (hu | ⟨target,directories,hr,hd,rfl⟩)
    · exact unpublished_quiets hu
    · exact .single (.published directories hr.guarded (fun h => hd (hpart h)))

/-- The preparation of an edit is quiet on both exits. -/
theorem prepareEdit_quiets (w : World σ) :
    Meets (prepareEdit X io) w (fun _ t => Quiets X hooks io request w t)
      (fun _ t => Quiets X hooks io request w t) := by
  unfold prepareEdit
  rw [meets_bind]
  refine (checkSource_spec X io.check w).mono ?_ ?_
  swap
  · rintro _ t rfl
    exact .refl
  rintro _ t ⟨rfl,_⟩
  rw [meets_bind,meets_get,meets_ite]
  refine ⟨fun _ => save_quiets X hooks io request (fun h => h.2.1) t,fun _ => ?_⟩
  exact .refl

/-- An autosave is quiet on both exits. -/
theorem autosave_quiets (w : World σ) :
    Meets (autosave X io.autosave) w (fun _ t => Quiets X hooks io request w t)
      (fun _ t => Quiets X hooks io request w t) := by
  have hs := save_quiets X hooks io request (fun h => h.2.2) w
  unfold Meets at hs ⊢
  unfold autosave
  cases w.store.source with
  | none => exact .refl
  | some source =>
    cases hx : save X io.autosave w with
    | ok a t =>
      rw [hx] at hs
      exact hs
    | error e t =>
      rw [hx] at hs
      cases hk : e.kind <;> simp only [hk] <;> exact hs

/-- One application uses one fresh revision, whatever the hook does. -/
theorem apply_spec (candidate : Json) (w : World σ) :
    Meets (apply hooks candidate) w
      (fun revision t => revision=w.store.nextRevision ∧ ∃ client,
        hooks.apply candidate w.store.epoch w.store.nextRevision w.client=.ok () client ∧
        t=⟨appliedStore w.store,w.files,client,
          .applied candidate w.store.epoch w.store.nextRevision true::w.trace⟩)
      (fun error t => ∃ client,
        hooks.apply candidate w.store.epoch w.store.nextRevision w.client=.error error client ∧
        t=⟨refusedStore w.store,w.files,client,
          .applied candidate w.store.epoch w.store.nextRevision false::w.trace⟩) := by
  unfold apply
  simp only [meets_bind,meets_get,modifyStore,meets_modify,meets_pure]
  unfold Meets callHook
  cases hh : hooks.apply candidate w.store.epoch w.store.nextRevision w.client with
  | ok u client => exact ⟨trivial,client,rfl,rfl⟩
  | error e client => exact ⟨client,rfl,rfl⟩

/-- Applying a proposal and adopting it is the accepted effect; a refusal is quiet. -/
theorem propose_spec {w : World σ} {candidate : Json} {adopt : Store → ℕ → Store} {events : List Event}
    (hp : Proposal X request w candidate adopt events)
    {rest : ℕ → Act σ Unit}
    (hrest : ∀ revision u, rest revision u=
      .ok () ⟨adopt u.store revision,u.files,u.client,events ++ u.trace⟩) :
    Meets (apply hooks candidate >>= rest) w (fun _ t => Accepted X hooks request w t)
      (fun _ t => Quiets X hooks io request w t) := by
  rw [meets_bind]
  refine (apply_spec hooks candidate w).mono ?_ ?_
  · rintro revision t ⟨rfl,client,hh,rfl⟩
    unfold Meets
    rw [hrest]
    exact .applied hp hh
  · rintro error t ⟨client,hh,rfl⟩
    exact .single (.refused hp hh)

/-- What an operation may leave before its autosave. -/
def Committed (X : Externals) (hooks : Hooks σ) (io : CommandIo) (request : Json) (w : World σ)
    (saves : Bool) (t : World σ) : Prop :=
  ∃ q, Quiets X hooks io request w q ∧ ((saves=false ∧ t=q) ∨ Accepted X hooks request q t)

/-- Resynchronization is one application. -/
theorem resync_spec (ho : operationOf request=.resync) (w : World σ) :
    Meets (resync hooks) w (fun _ t => Accepted X hooks request w t)
      (fun _ t => Quiets X hooks io request w t) := by
  unfold resync
  rw [meets_bind,meets_get]
  exact propose_spec X hooks io request (.resync ho) (fun _ _ => rfl)

/-- A reload fails before the hook, or it proposes the content of the source. -/
theorem reload_spec (ho : operationOf request=.reload) (w : World σ) :
    Meets (reload X hooks io) w (fun _ t => Accepted X hooks request w t)
      (fun _ t => Quiets X hooks io request w t) := by
  unfold reload
  rw [meets_bind,meets_get]
  cases hs : w.store.source with
  | none => exact .refl
  | some source =>
    simp only
    rw [meets_bind,meets_ofResult]
    refine ⟨?_,fun _ _ => .refl⟩
    intro bytes hb
    rw [meets_bind,meets_ofResult]
    refine ⟨?_,fun _ _ => .refl⟩
    rintro ⟨document,digest⟩ hl
    exact propose_spec X hooks io request (.reload ho hs (read_ok X hb).1 hl) (fun _ _ => rfl)

/-- A motion command is one call of the motion hook. -/
theorem move_spec {operation : Operation}
    (hop : operation=.play ∨ operation=.pause ∨ operation=.reset)
    (ho : operationOf request=operation) (w : World σ) :
    Meets (move hooks operation) w (fun _ t => Accepted X hooks request w t)
      (fun _ t => Quiets X hooks io request w t) := by
  unfold move
  rw [meets_bind,meets_get,meets_bind]
  unfold Meets callHook
  cases hh : hooks.motion (motionText operation) w.store.epoch w.store.revision w.client with
  | ok u client => exact .moved operation hop ho hh
  | error e client => exact .single (.held hh)

/-- An undo fails quietly, or it proposes the last document of its stack. -/
theorem undo_spec (ho : operationOf request=.undo) (w : World σ) :
    Meets (undo X hooks io) w
      (fun _ t => ∃ q, Quiets X hooks io request w q ∧ Accepted X hooks request q t)
      (fun _ t => Quiets X hooks io request w t) := by
  unfold undo
  rw [meets_bind,meets_get]
  cases hs : w.store.undoStack.getLast? with
  | none => exact .refl
  | some replacement =>
    simp only
    rw [meets_bind]
    refine (prepareEdit_quiets X hooks io request w).mono ?_ (fun _ _ h => h)
    intro _ q hq
    have hstack : q.store.undoStack=w.store.undoStack := by
      have hk := congrArg Store.undoStack (quiets_kept hq)
      exact hk
    have hp : Proposal X request q replacement _ _ := .undo ho (by rw [hstack]; exact hs)
    refine (propose_spec X hooks io request hp (fun _ _ => rfl)).mono ?_ ?_
    · intro _ t ht
      exact ⟨q,hq,ht⟩
    · intro _ t ht
      exact hq.trans ht

/-- A redo fails quietly, or it proposes the last document of its stack. -/
theorem redo_spec (ho : operationOf request=.redo) (w : World σ) :
    Meets (redo X hooks io) w
      (fun _ t => ∃ q, Quiets X hooks io request w q ∧ Accepted X hooks request q t)
      (fun _ t => Quiets X hooks io request w t) := by
  unfold redo
  rw [meets_bind,meets_get]
  cases hs : w.store.redoStack.getLast? with
  | none => exact .refl
  | some replacement =>
    simp only
    rw [meets_bind]
    refine (prepareEdit_quiets X hooks io request w).mono ?_ (fun _ _ h => h)
    intro _ q hq
    have hstack : q.store.redoStack=w.store.redoStack := by
      have hk := congrArg Store.redoStack (quiets_kept hq)
      exact hk
    have hp : Proposal X request q replacement _ _ := .redo ho (by rw [hstack]; exact hs)
    refine (propose_spec X hooks io request hp (fun _ _ => rfl)).mono ?_ ?_
    · intro _ t ht
      exact ⟨q,hq,ht⟩
    · intro _ t ht
      exact hq.trans ht

/-- An edit fails quietly, changes nothing, or proposes its candidate. -/
theorem edit_spec (w : World σ) :
    Meets (edit X hooks io (operationOf request) request) w (Committed X hooks io request w)
      (fun _ t => Quiets X hooks io request w t) := by
  unfold edit
  simp only [modifyStore,meets_bind,meets_modify,meets_get,meets_ofResult]
  set u : World σ := {w with store := {w.store with
    obstacleValidations := w.store.obstacleValidations+validationsBefore (operationOf request)}} with hu
  have hwu : Quiets X hooks io request w u := .single (.counted w _)
  refine ⟨?_,fun _ _ => hwu⟩
  intro candidate hc
  set v : World σ := {u with store := {u.store with
    obstacleValidations := u.store.obstacleValidations+validationsAfter (operationOf request) candidate}}
    with hv
  have hwv : Quiets X hooks io request w v := hwu.tail (.counted u _)
  rw [meets_ite]
  constructor
  · intro _
    exact ⟨v,hwv,Or.inl ⟨rfl,rfl⟩⟩
  · intro hn
    rw [meets_bind]
    refine (prepareEdit_quiets X hooks io request v).mono ?_ ?_
    swap
    · intro _ t ht
      exact hwv.trans ht
    intro _ q hq
    have hwq := hwv.trans hq
    have hdoc : q.store.document=w.store.document := quiets_document hwq
    have hp : Proposal X request q candidate _ _ :=
      .edit (by rw [hdoc]; exact hc) (by rw [hdoc]; simpa using hn)
    have happly : Meets (apply hooks candidate >>= fun revision => modifyStore fun s => {s with
        undoStack := pushUndo s.undoStack s.document, redoStack := [],
        document := candidate, revision := revision}) q (fun _ t => Accepted X hooks request q t)
        (fun _ t => Quiets X hooks io request q t) :=
      propose_spec X hooks io request hp (fun _ _ => rfl)
    rw [meets_bind] at happly
    rw [meets_bind]
    refine happly.mono ?_ ?_
    · intro revision t ht
      rw [meets_bind]
      refine ht.mono ?_ ?_
      · intro _ t' ha
        exact ⟨q,hwq,Or.inr ha⟩
      · intro _ t' ha
        exact hwq.trans ha
    · intro _ t ht
      exact hwq.trans ht

/-- An operation whose result is fixed keeps the contract of its body. -/
theorem meets_answer {action : Act σ Unit} {w : World σ} {saves : Bool}
    {returns : Bool → World σ → Prop} {throws : Error → World σ → Prop}
    (h : Meets action w (fun _ t => returns saves t) throws) :
    Meets (do action; return saves) w returns throws := by
  rw [meets_bind]
  exact h

/-- Everything that an operation does before its autosave. -/
theorem commit_spec (w : World σ) :
    Meets (commit X hooks io request) w (Committed X hooks io request w)
      (fun _ t => Quiets X hooks io request w t) := by
  have hlone : ∀ {saves : Bool} {action : Act σ Unit},
      Meets action w (fun _ t => Accepted X hooks request w t)
        (fun _ t => Quiets X hooks io request w t) →
      Meets action w (fun _ t => Committed X hooks io request w saves t)
        (fun _ t => Quiets X hooks io request w t) := by
    intro saves action h
    exact h.mono (fun _ _ ha => ⟨w,.refl,Or.inr ha⟩) (fun _ _ hq => hq)
  have hpair : ∀ {saves : Bool} {action : Act σ Unit},
      Meets action w (fun _ t => ∃ q, Quiets X hooks io request w q ∧ Accepted X hooks request q t)
        (fun _ t => Quiets X hooks io request w t) →
      Meets action w (fun _ t => Committed X hooks io request w saves t)
        (fun _ t => Quiets X hooks io request w t) := by
    intro saves action h
    refine h.mono ?_ (fun _ _ hq => hq)
    rintro _ t ⟨q,hq,ha⟩
    exact ⟨q,hq,Or.inr ha⟩
  unfold commit
  rw [meets_bind,meets_get]
  cases hf : (if w.store.frozen then frozenRefusal (request.valueOr "operation" .null) else none) with
  | some error => exact .refl
  | none =>
    simp only
    cases ho : operationOf request with
    | resync => exact meets_answer (hlone (resync_spec X hooks io request ho w))
    | save =>
      rw [meets_bind]
      refine (checkSource_spec X io.check w).mono ?_ ?_
      swap
      · rintro _ t rfl
        exact .refl
      rintro _ t ⟨rfl,_⟩
      refine meets_answer ?_
      refine (save_quiets X hooks io request (fun h => h.1) t).mono ?_ (fun _ _ h => h)
      intro _ q hq
      exact ⟨q,hq,Or.inl ⟨rfl,rfl⟩⟩
    | reload => exact meets_answer (hlone (reload_spec X hooks io request ho w))
    | play => exact meets_answer (hlone (move_spec X hooks io request (Or.inl rfl) ho w))
    | pause => exact meets_answer (hlone (move_spec X hooks io request (Or.inr (Or.inl rfl)) ho w))
    | reset => exact meets_answer (hlone (move_spec X hooks io request (Or.inr (Or.inr rfl)) ho w))
    | undo => exact meets_answer (hpair (undo_spec X hooks io request ho w))
    | redo => exact meets_answer (hpair (redo_spec X hooks io request ho w))
    | _ =>
      have he := edit_spec X hooks io request w
      rw [ho] at he
      exact he

/-- Everything that an operation does, its autosave included. -/
theorem execute_spec (w : World σ) :
    Meets (execute X hooks io request) w (fun _ t => Progress X hooks io request w t)
      (fun _ t => Progress X hooks io request w t) := by
  unfold execute
  rw [meets_bind]
  refine (commit_spec X hooks io request w).mono ?_ ?_
  · rintro saves m ⟨q,hq,hm⟩
    have hm' : m=q ∨ Accepted X hooks request q m := hm.imp And.right id
    rw [meets_ite]
    constructor
    · intro _
      refine (autosave_quiets X hooks io request m).mono ?_ ?_
      · intro _ t ht
        exact ⟨q,m,hq,hm',ht⟩
      · intro _ t ht
        exact ⟨q,m,hq,hm',ht⟩
    · intro _
      exact ⟨q,m,hq,hm',.refl⟩
  · intro _ t ht
    exact ⟨t,t,ht,Or.inl rfl,.refl⟩

/-- Computing a result reads the clock at most once. -/
theorem resultLocked_quiets (success : Bool) (error : String) (w : World σ) :
    Quiets X hooks io request w (resultLocked hooks success error w).2 := by
  unfold resultLocked envelopeLocked sceneTimeLocked
  dsimp only
  split
  · exact .single (.ticked w)
  · exact .refl

/-- Computing a result keeps the store. -/
theorem resultLocked_store (success : Bool) (error : String) (w : World σ) :
    (resultLocked hooks success error w).2.store=w.store := by
  unfold resultLocked envelopeLocked sceneTimeLocked
  dsimp only
  split <;> rfl

/-- The result of an operation, before it is retained. -/
def finished (X : Externals) (hooks : Hooks σ) (io : CommandIo) (request : Json) (w : World σ) :
    Json × World σ :=
  match execute X hooks io request w with
  | .ok () w' => resultLocked hooks true "" w'
  | .error error w' => resultLocked hooks false error.what w'

/-- Everything that an operation does before it is retained. -/
theorem finished_progress (w : World σ) :
    Progress X hooks io request w (finished X hooks io request w).2 := by
  have he := execute_spec X hooks io request w
  unfold Meets at he
  unfold finished
  cases hx : execute X hooks io request w with
  | ok _ t | error _ t =>
    rw [hx] at he
    obtain ⟨q,m,hq,hm,ht⟩ := he
    exact ⟨q,m,hq,hm,ht.trans (resultLocked_quiets X hooks io request _ _ t)⟩

/-- The three ways a command ends. -/
inductive Outcome (X : Externals) (hooks : Hooks σ) (io : CommandIo) (request : Json) (w : World σ) :
    Json × World σ → Prop
  /-- Refused before any operation, or a read. -/
  | answered (success : Bool) (error : String) (h : ∀ id fingerprint,
      admission X w.store request≠.fresh id fingerprint) :
    Outcome X hooks io request w (resultLocked hooks success error w)
  /-- Answered from a receipt. -/
  | replayed {node : ℕ × Receipt} (h : admission X w.store request=.replay node) :
    Outcome X hooks io request w (receiptValue node.2,{w with store := splice w.store node})
  /-- Executed and retained. -/
  | performed {id fingerprint : String} (h : admission X w.store request=.fresh id fingerprint) :
    Outcome X hooks io request w ((finished X hooks io request w).1,
      {(finished X hooks io request w).2 with
        store := retain id fingerprint (finished X hooks io request w).1
          (finished X hooks io request w).2.store})

/-- Every command ends in one of the three ways. -/
theorem command_outcome (w : World σ) :
    Outcome X hooks io request w (command X hooks io request w) := by
  unfold command
  cases ha : admission X w.store request with
  | refused error => exact .answered false error.what (by simp [ha])
  | read => exact .answered true "" (by simp [ha])
  | replay node => exact .replayed ha
  | fresh id fingerprint => exact .performed ha

variable {X hooks io request}

/-- An invariant of quiet effects holds after any number of them. -/
theorem quiets_preserves {P : World σ → Prop} {w t : World σ}
    (hq : ∀ w t, P w → Quiet X hooks io request w t → P t) (h : Quiets X hooks io request w t)
    (hw : P w) : P t := by
  induction h with
  | refl => exact hw
  | tail _ hstep ih => exact hq _ _ ih hstep

/-- An invariant of quiet effects and accepted calls is an invariant of operations. -/
theorem progress_preserves {P : World σ → Prop} {w t : World σ}
    (hq : ∀ w t, P w → Quiet X hooks io request w t → P t)
    (ha : ∀ w t, P w → Accepted X hooks request w t → P t)
    (h : Progress X hooks io request w t) (hw : P w) : P t := by
  obtain ⟨q,m,hwq,hqm,hmt⟩ := h
  have hpq := quiets_preserves hq hwq hw
  rcases hqm with rfl | hacc
  · exact quiets_preserves hq hmt hpq
  · exact quiets_preserves hq hmt (ha q m hpq hacc)

/-- An invariant of effects and of receipts is an invariant of commands. -/
theorem command_preserves {P : World σ → Prop} {w : World σ}
    (hq : ∀ w t, P w → Quiet X hooks io request w t → P t)
    (ha : ∀ w t, P w → Accepted X hooks request w t → P t)
    (hs : ∀ w node, P w → P {w with store := splice w.store node})
    (hr : ∀ w id fingerprint result, P w →
      P {w with store := retain id fingerprint result w.store})
    (hw : P w) : P (command X hooks io request w).2 := by
  have ho := command_outcome X hooks io request w
  generalize command X hooks io request w=result at ho
  cases ho with
  | answered success error h =>
    exact progress_preserves hq ha ⟨w,w,.refl,Or.inl rfl,resultLocked_quiets X hooks io request success error w⟩ hw
  | replayed h => exact hs w _ hw
  | performed h => exact hr _ _ _ _ (progress_preserves hq ha (finished_progress X hooks io request w) hw)

variable (X hooks io request) in
/-- An undo or a redo that returns asks for an autosave, and a reload does not. -/
theorem commit_answers (w : World σ) :
    Meets (commit X hooks io request) w
      (fun saves _ => (operationOf request=.undo ∨ operationOf request=.redo → saves=true) ∧
        (operationOf request=.reload → saves=false)) (fun _ _ => True) := by
  have hanswer : ∀ (action : Act σ Unit) (answer : Bool), Meets (do action; return answer) w
      (fun found _ => found=answer) (fun _ _ => True) := by
    intro action answer
    rw [meets_bind]
    exact meets_always _ _ (fun _ _ => rfl) (fun _ _ => trivial)
  unfold commit
  rw [meets_bind,meets_get]
  split
  · exact trivial
  · cases ho : operationOf request with
    | undo | redo => exact (hanswer _ _).mono (fun _ _ ha => ⟨fun _ => ha,by simp⟩) (fun _ _ _ => trivial)
    | reload => exact (hanswer _ _).mono (fun _ _ ha => ⟨by simp,fun _ => ha⟩) (fun _ _ _ => trivial)
    | _ => exact meets_always _ _ (fun _ _ => ⟨by simp,by simp⟩) (fun _ _ => trivial)

/-- A constructed store: the validated input was accepted as revision one. -/
structure Opened (X : Externals) (arguments : StoreArguments) (files : Files) (w : World σ) : Prop where
  /-- Input, document and digests come from the constructor's own steps. -/
  input : ∃ source input given digests startedAt, openInput X arguments files=.ok (source,input,given) ∧
    SceneDocument.document X.spell X.math input=.ok w.store.document ∧
    openDigest X arguments files source given=.ok digests ∧
    w.store={openStore arguments source w.store.document digests with
      startedAt := startedAt, appliedRevision := 1, applicationKnown := true}
  /-- No file has changed. -/
  files_eq : w.files=files
  /-- The only event is the accepted application. -/
  trace_eq : w.trace=[.applied w.store.document w.store.epoch 1 true]

/-- Every successful construction opens a store. -/
theorem construct_opened {arguments : StoreArguments} {files : Files} {client : σ} {w : World σ}
    (h : construct X hooks arguments files client=.ok w) : Opened X arguments files w := by
  unfold construct at h
  cases hi : openInput X arguments files with
  | error e => simp [hi,bind,Except.bind] at h
  | ok input =>
    obtain ⟨source,input,given⟩ := input
    simp only [hi,bind,Except.bind] at h
    cases hd : SceneDocument.document X.spell X.math input with
    | error e => simp [hd] at h
    | ok document =>
      simp only [hd] at h
      cases hg : openDigest X arguments files source given with
      | error e => simp [hg] at h
      | ok digests =>
        simp only [hg,callHook,nowLocked] at h
        split at h
        · rename_i w' hcall
          split at hcall
          · rename_i client' _
            simp only [EStateM.Result.ok.injEq,true_and] at hcall
            simp only [Except.ok.injEq] at h
            subst hcall
            subst h
            exact ⟨⟨source,input,given,digests,_,hi,hd,hg,rfl⟩,rfl,rfl⟩
          · cases hcall
        · cases h

end Ros1Adapter.SceneStoreSteps
