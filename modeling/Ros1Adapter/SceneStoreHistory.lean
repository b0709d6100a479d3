import Ros1Adapter.BoundedZipper
import Ros1Adapter.SceneStoreAtomic

/-!
# The history of a scene store

The undo stack, the document and the redo stack are a bounded zipper. A step
moves it by what the apply hook accepted during the step: undo and redo move
the cursor, an edit pushes, a reload restarts, and everything else stays.
-/

namespace Ros1Adapter.SceneStoreHistory

open SceneJson SceneFiles SceneStore SceneStoreSaving SceneStoreSteps SceneStoreAtomic ActionRules
open BoundedZipper

variable {σ : Type} {X : Externals} {hooks : Hooks σ}

/-- The history of a store, its document at the cursor. -/
def historyOf (s : Store) : Zipper Json := ⟨s.undoStack,s.document,s.redoStack⟩

/-- Document of the newest accepted application. -/
def acceptedDocument : List Event → Option Json
  | [] => none
  | .applied document _ _ true::_ => some document
  | _::rest => acceptedDocument rest

/-- Operation and document that the apply hook accepted during a step. -/
def acceptedBy (X : Externals) (hooks : Hooks σ) (w : World σ) (step : Step) : Option (Operation × Json) :=
  match step with
  | .command _ request =>
    (acceptedDocument (newEvents w (stepWorld X hooks w step))).map
      (fun document => (operationOf request,document))
  | .external _ _ => none

/-- Move of the history for an accepted application. -/
def historyMove : Option (Operation × Json) → Move Json
  | none => .stay
  | some (.undo,_) => .back
  | some (.redo,_) => .forth
  | some (.reload,document) => .restart document
  | some (.resync,_) => .stay
  | some (_,document) => .push document

/-- Events without an acceptance are skipped. -/
theorem acceptedDocument_append {events : List Event} (h : ∀ event∈events, accepts event=false)
    (rest : List Event) : acceptedDocument (events ++ rest)=acceptedDocument rest := by
  induction events with
  | nil => rfl
  | cons event others ih =>
    have hfirst := h event (List.mem_cons_self ..)
    have hrest := ih (fun e he => h e (List.mem_cons_of_mem _ he))
    rw [←hrest]
    cases event with
    | applied document epoch revision accepted =>
      cases accepted with
      | false => rfl
      | true => cases hfirst
    | moved | replaced | saved | loaded => rfl

/-- Events without an acceptance accept nothing. -/
theorem acceptedDocument_none {events : List Event} (h : ∀ event∈events, accepts event=false) :
    acceptedDocument events=none := by
  have hnil := acceptedDocument_append h []
  rw [List.append_nil] at hnil
  exact hnil

/-- Later events decide before earlier ones that accept nothing. -/
theorem acceptedDocument_before (events : List Event) {earlier : List Event}
    (h : ∀ event∈earlier, accepts event=false) :
    acceptedDocument (events ++ earlier)=acceptedDocument events := by
  induction events with
  | nil => exact acceptedDocument_none h
  | cons event rest ih =>
    cases event with
    | applied document epoch revision accepted =>
      cases accepted with
      | false => exact ih
      | true => rfl
    | moved | replaced | saved | loaded => exact ih

/-- The newest acceptance hides earlier events. -/
theorem acceptedDocument_some {events : List Event} {document : Json}
    (h : acceptedDocument events=some document) (earlier : List Event) :
    acceptedDocument (events ++ earlier)=some document := by
  induction events with
  | nil => cases h
  | cons event rest ih =>
    cases event with
    | applied found epoch revision accepted =>
      cases accepted with
      | false => exact ih h
      | true => exact h
    | moved | replaced | saved | loaded => exact ih h

/-- A push within the limit is the push of the zipper. -/
theorem pushUndo_newest {stack : List Json} (h : stack.length≤undoLimit) (document : Json) :
    pushUndo stack document=Zipper.newest undoLimit (stack ++ [document]) := by
  unfold pushUndo Zipper.newest
  have hlen : (stack ++ [document]).length=stack.length+1 := by simp
  rw [hlen]
  split
  · have hone : stack.length+1-undoLimit=1 := by omega
    rw [hone]
  · have hzero : stack.length+1-undoLimit=0 := by omega
    rw [hzero]
    rfl

/-- An accepted call moves the history by its document. -/
theorem accepted_history {request : Json} {w t : World σ} (hb : (historyOf w.store).others≤undoLimit)
    (h : Accepted X hooks request w t) :
    ∃ events, t.trace=events ++ w.trace ∧
      historyOf t.store=(historyOf w.store).move undoLimit
        (historyMove ((acceptedDocument events).map (fun document => (operationOf request,document)))) ∧
      (operationOf request=.undo → w.store.undoStack≠[]) ∧
      (operationOf request=.redo → w.store.redoStack≠[]) := by
  cases h with
  | @applied candidate adopt extra client hp hh =>
    cases hp with
    | resync ho => exact ⟨[_],rfl,by rw [ho]; rfl,by simp [ho],by simp [ho]⟩
    | reload ho hs hc hl =>
      refine ⟨[_,_],rfl,?_,by simp [ho],by simp [ho]⟩
      rw [ho]
      rfl
    | undo ho hs =>
      refine ⟨[_],rfl,?_,?_,by simp [ho]⟩
      · rw [ho]
        have hpast : (historyOf w.store).past.getLast?=some candidate := hs
        exact (Zipper.move_back undoLimit hpast).symm
      · intro _ hnil
        rw [hnil] at hs
        cases hs
    | redo ho hs =>
      refine ⟨[_],rfl,?_,by simp [ho],?_⟩
      · rw [ho]
        have hfuture : (historyOf w.store).future.getLast?=some candidate := hs
        exact (Zipper.move_forth undoLimit hfuture).symm
      · intro _ hnil
        rw [hnil] at hs
        cases hs
    | edit hc hn =>
      have hlen : w.store.undoStack.length≤undoLimit := le_trans (Nat.le_add_right _ _) hb
      have hpush := pushUndo_newest hlen w.store.document
      have hzipper : historyOf {appliedStore w.store with
          undoStack := pushUndo w.store.undoStack w.store.document, redoStack := [],
          document := candidate, revision := w.store.nextRevision}=
            (historyOf w.store).move undoLimit (.push candidate) := by
        unfold historyOf Zipper.move
        rw [hpush]
      refine ⟨[_],rfl,?_,?_,?_⟩
      · cases ho : operationOf request with
        | undo | redo | reload | resync => rw [ho] at hc; cases hc
        | _ => exact hzipper
      · intro ho
        rw [ho] at hc
        cases hc
      · intro ho
        rw [ho] at hc
        cases hc
  | @moved client operation hop ho hh =>
    obtain ⟨playing,elapsed,startedAt,client',hm⟩ := movedWorld_shape hooks operation w client
    rw [hm]
    refine ⟨[_],rfl,rfl,?_,?_⟩
    · intro hu
      rw [ho] at hu
      rcases hop with rfl | rfl | rfl <;> cases hu
    · intro hu
      rw [ho] at hu
      rcases hop with rfl | rfl | rfl <;> cases hu

/-- Quiet effects keep the history. -/
theorem quiets_history {io : CommandIo} {request : Json} {w t : World σ}
    (h : Quiets X hooks io request w t) : historyOf t.store=historyOf w.store := by
  have hu := untouched_of_kept (quiets_kept h)
  unfold historyOf
  rw [hu.undoStack,hu.document,hu.redoStack]

/-- An accepted operation finds something to undo or to redo. -/
def Movable (w : World σ) : Option (Operation × Json) → Prop
  | some (.undo,_) => w.store.undoStack≠[]
  | some (.redo,_) => w.store.redoStack≠[]
  | _ => True

/-- An operation moves the history by what was accepted during it. -/
theorem progress_history {io : CommandIo} {request : Json} {w t : World σ}
    (hb : (historyOf w.store).others≤undoLimit) (h : Progress X hooks io request w t) :
    historyOf t.store=(historyOf w.store).move undoLimit (historyMove
        ((acceptedDocument (newEvents w t)).map (fun document => (operationOf request,document)))) ∧
      Movable w ((acceptedDocument (newEvents w t)).map
        (fun document => (operationOf request,document))) := by
  obtain ⟨q,m,hq,hm,ht⟩ := h
  obtain ⟨before,hbefore,hbquiet⟩ := quiets_trace hq
  obtain ⟨after,hafter,haquiet⟩ := quiets_trace ht
  have hwq := quiets_history hq
  have hmt := quiets_history ht
  rcases hm with rfl | hacc
  · have htrace : t.trace=(after ++ before) ++ w.trace := by
      rw [hafter,hbefore,List.append_assoc]
    have hnone : acceptedDocument (after ++ before)=none := by
      rw [acceptedDocument_append haquiet,acceptedDocument_none hbquiet]
    rw [newEvents_of_append htrace,hnone,hmt,hwq]
    exact ⟨rfl,trivial⟩
  · have hbq : (historyOf q.store).others≤undoLimit := by
      rw [hwq]
      exact hb
    obtain ⟨during,hduring,hmove,hundo,hredo⟩ := accepted_history hbq hacc
    have htrace : t.trace=(after ++ (during ++ before)) ++ w.trace := by
      rw [hafter,hduring,hbefore]
      simp only [List.append_assoc]
    have hfound : acceptedDocument (after ++ (during ++ before))=acceptedDocument during := by
      rw [acceptedDocument_append haquiet]
      exact acceptedDocument_before during hbquiet
    rw [newEvents_of_append htrace,hfound,hmt,hmove,hwq]
    refine ⟨rfl,?_⟩
    have hkept := untouched_of_kept (quiets_kept hq)
    cases hd : acceptedDocument during with
    | none => exact trivial
    | some document =>
      cases ho : operationOf request with
      | undo =>
        have hne := hundo ho
        rw [hkept.undoStack] at hne
        exact hne
      | redo =>
        have hne := hredo ho
        rw [hkept.redoStack] at hne
        exact hne
      | _ => exact trivial

/-- A step moves the history by what was accepted during it. -/
theorem step_history (X : Externals) (hooks : Hooks σ) (w : World σ) (step : Step)
    (hb : (historyOf w.store).others≤undoLimit) :
    historyOf (stepWorld X hooks w step).store=
        (historyOf w.store).move undoLimit (historyMove (acceptedBy X hooks w step)) ∧
      Movable w (acceptedBy X hooks w step) := by
  cases step with
  | external path content => exact ⟨rfl,trivial⟩
  | command io request =>
    unfold acceptedBy
    dsimp only [stepWorld]
    have ho := command_outcome X hooks io request w
    generalize command X hooks io request w=result at ho
    cases ho with
    | answered success error hfresh =>
      have hprogress : Progress X hooks io request w (resultLocked hooks success error w).2 :=
        ⟨w,w,.refl,Or.inl rfl,resultLocked_quiets X hooks io request success error w⟩
      exact progress_history hb hprogress
    | @replayed node hreplay =>
      have hprogress : Progress X hooks io request w w := ⟨w,w,.refl,Or.inl rfl,.refl⟩
      have hstay := progress_history hb hprogress
      exact hstay
    | performed hfresh =>
      have hmove := progress_history hb (finished_progress X hooks io request w)
      exact hmove

/-- Both stacks together stay within the limit. -/
def Bounded (w : World σ) : Prop := (historyOf w.store).others≤undoLimit

/-- The limit holds after every step. -/
theorem step_bounded (w : World σ) (step : Step) (hb : Bounded w) :
    Bounded (stepWorld X hooks w step) := by
  unfold Bounded
  rw [(step_history X hooks w step hb).1]
  exact Zipper.others_move hb _

/-- What a step may do to the history, by what was accepted during it. -/
def HistoryStep (accepted : Option (Operation × Json)) (z t : Zipper Json) : Prop :=
  match accepted with
  | none => t=z
  | some (.undo,_) => t.entries=z.entries ∧ t.past.length+1=z.past.length ∧
      t.future.length=z.future.length+1
  | some (.redo,_) => t.entries=z.entries ∧ t.past.length=z.past.length+1 ∧
      t.future.length+1=z.future.length
  | some (.reload,document) => t=⟨[],document,[]⟩
  | some (.resync,_) => t=z
  | some (_,document) => t=⟨Zipper.newest undoLimit (z.past ++ [z.focus]),document,[]⟩

/-- The move of an accepted application is the described change. -/
theorem historyStep_of_move {accepted : Option (Operation × Json)} {w : World σ} {t : Zipper Json}
    (hm : Movable w accepted) (ht : t=(historyOf w.store).move undoLimit (historyMove accepted)) :
    HistoryStep accepted (historyOf w.store) t := by
  subst ht
  cases accepted with
  | none => rfl
  | some accepted =>
    obtain ⟨operation,document⟩ := accepted
    cases operation with
    | undo =>
      have hentries := Zipper.entries_back undoLimit (historyOf w.store)
      have hpast := Zipper.past_back undoLimit (z := historyOf w.store) hm
      have hlen := congrArg List.length hentries
      rw [Zipper.entries_length,Zipper.entries_length] at hlen
      unfold Zipper.others at hlen
      refine ⟨hentries,hpast,?_⟩
      dsimp only [historyMove]
      omega
    | redo =>
      have hentries := Zipper.entries_forth undoLimit (historyOf w.store)
      have hfuture := Zipper.future_forth undoLimit (z := historyOf w.store) hm
      have hlen := congrArg List.length hentries
      rw [Zipper.entries_length,Zipper.entries_length] at hlen
      unfold Zipper.others at hlen
      refine ⟨hentries,?_,hfuture⟩
      dsimp only [historyMove]
      omega
    | _ => rfl

/-- A run of accepted undos moves the cursor back once for each of them. -/
theorem run_undos {w : World σ} {steps : List Step} (hb : (historyOf w.store).others≤undoLimit)
    (h : Along (stepWorld X hooks)
      (fun u step => ∃ document, acceptedBy X hooks u step=some (.undo,document)) w steps) :
    historyOf (run (stepWorld X hooks) w steps).store=
        (historyOf w.store).moves undoLimit (List.replicate steps.length .back) ∧
      steps.length≤(historyOf w.store).past.length := by
  induction steps generalizing w with
  | nil => exact ⟨rfl,Nat.zero_le _⟩
  | cons step rest ih =>
    obtain ⟨⟨document,haccepted⟩,hrest⟩ := h
    obtain ⟨hmove,hmovable⟩ := step_history X hooks w step hb
    rw [haccepted] at hmove hmovable
    obtain ⟨hrun,hlen⟩ := ih (step_bounded w step hb) hrest
    have hpast := Zipper.past_back undoLimit (z := historyOf w.store) hmovable
    have hmove' : historyOf (stepWorld X hooks w step).store=
        (historyOf w.store).move undoLimit .back := hmove
    rw [hmove'] at hrun hlen
    refine ⟨?_,?_⟩
    · rw [run_cons,hrun]
      rfl
    · rw [List.length_cons]
      omega

/-- A run of accepted redos moves the cursor forth once for each of them. -/
theorem run_redos {w : World σ} {steps : List Step} (hb : (historyOf w.store).others≤undoLimit)
    (h : Along (stepWorld X hooks)
      (fun u step => ∃ document, acceptedBy X hooks u step=some (.redo,document)) w steps) :
    historyOf (run (stepWorld X hooks) w steps).store=
      (historyOf w.store).moves undoLimit (List.replicate steps.length .forth) := by
  induction steps generalizing w with
  | nil => rfl
  | cons step rest ih =>
    obtain ⟨⟨document,haccepted⟩,hrest⟩ := h
    obtain ⟨hmove,_⟩ := step_history X hooks w step hb
    rw [haccepted] at hmove
    have hmove' : historyOf (stepWorld X hooks w step).store=
        (historyOf w.store).move undoLimit .forth := hmove
    rw [run_cons,ih (step_bounded w step hb) hrest,hmove']
    rfl

/-- As many accepted redos as undos restore the history. -/
theorem run_undos_redos {w : World σ} {undos redos : List Step}
    (hb : (historyOf w.store).others≤undoLimit) (hlen : undos.length=redos.length)
    (hu : Along (stepWorld X hooks)
      (fun u step => ∃ document, acceptedBy X hooks u step=some (.undo,document)) w undos)
    (hr : Along (stepWorld X hooks)
      (fun u step => ∃ document, acceptedBy X hooks u step=some (.redo,document))
      (run (stepWorld X hooks) w undos) redos) :
    historyOf (run (stepWorld X hooks) w (undos ++ redos)).store=historyOf w.store := by
  obtain ⟨hundos,hpast⟩ := run_undos hb hu
  have hb' : Bounded (run (stepWorld X hooks) w undos) :=
    run_invariant (fun v step hv _ => step_bounded v step hv) hb (along_true _ w undos)
  have hredos := run_redos hb' hr
  rw [run_append,hredos,hundos,←hlen]
  have hrestore := Zipper.moves_back_forth undoLimit hpast
  unfold Zipper.moves at hrestore ⊢
  rw [List.foldl_append] at hrestore
  exact hrestore

/-- The accepted call of an undo or a redo is an application. -/
theorem accepted_found {request : Json} {w t : World σ}
    (ho : operationOf request=.undo ∨ operationOf request=.redo) (h : Accepted X hooks request w t) :
    ∃ events document, t.trace=events ++ w.trace ∧ acceptedDocument events=some document := by
  cases h with
  | @applied candidate adopt extra client hp hh =>
    cases hp with
    | reload hop => rcases ho with ho | ho <;> rw [ho] at hop <;> cases hop
    | _ => exact ⟨[_],_,rfl,rfl⟩
  | @moved client operation hop hr hh =>
    rw [hr] at ho
    rcases hop with rfl | rfl | rfl <;> rcases ho with ho | ho <;> cases ho

/-- An executed undo or redo that succeeds was accepted. -/
theorem successful_accepted {io : CommandIo} {request : Json} {w : World σ} {id fingerprint : String}
    (hfresh : admission X w.store request=.fresh id fingerprint)
    (ho : operationOf request=.undo ∨ operationOf request=.redo)
    (hs : (command X hooks io request w).1.member "success"=some (.boolean true)) :
    ∃ document, acceptedBy X hooks w (.command io request)=some (operationOf request,document) := by
  unfold acceptedBy
  dsimp only [stepWorld]
  have hout := command_outcome X hooks io request w
  generalize command X hooks io request w=result at hout hs
  cases hout with
  | answered success error h => exact absurd hfresh (h id fingerprint)
  | replayed h =>
    rw [hfresh] at h
    cases h
  | performed h =>
    rcases finished_cases w hs with ⟨_,t,hx,hf⟩ | ⟨hb,_⟩
    swap
    · cases hb
    rcases execute_cases X hooks io request w with ⟨e,t',_,hbad⟩ | ⟨m,hc,_⟩ | ⟨m,hc,hauto⟩
    · rw [hx] at hbad
      cases hbad
    · have hfalse := ((commit_answers X hooks io request w).returned hc).1 ho
      cases hfalse
    · obtain ⟨q,hq,hm⟩ := (commit_spec X hooks io request w).returned hc
      have hacc : Accepted X hooks request q m := by
        rcases hm with ⟨hfalse,_⟩ | hacc
        · cases hfalse
        · exact hacc
      have hquiet := (autosave_quiets X hooks io request m).returned (hauto.symm.trans hx)
      obtain ⟨before,hbefore,_⟩ := quiets_trace hq
      obtain ⟨during,document,hduring,hfound⟩ := accepted_found ho hacc
      obtain ⟨after,hafter,haquiet⟩ := quiets_trace hquiet
      have htrace : (finished X hooks io request w).2.trace=(after ++ (during ++ before)) ++ w.trace := by
        rw [hf,resultLocked_trace,hafter,hduring,hbefore]
        simp only [List.append_assoc]
      have hnew : (acceptedDocument (newEvents w (finished X hooks io request w).2)).map
          (fun found => (operationOf request,found))=some (operationOf request,document) := by
        rw [newEvents_of_append htrace,acceptedDocument_append haquiet,acceptedDocument_some hfound]
        rfl
      exact ⟨document,hnew⟩

/-- A new store has an empty history. -/
theorem opened_bounded {arguments : StoreArguments} {files : Files} {w : World σ}
    (h : Opened X arguments files w) : Bounded w := by
  obtain ⟨source,input,given,digests,startedAt,_,_,_,hstore⟩ := h.input
  unfold Bounded
  rw [hstore]
  exact Nat.zero_le _

/-- In every run of a constructed store the history is a bounded zipper. Every
step changes it only by the application that the hook accepted during the step,
an undo or a redo that is executed and succeeds being one of them; both stacks
together hold at most 128 documents; and as many accepted redos as accepted
undos before them restore the document and both stacks. -/
theorem run_history_zipper {arguments : StoreArguments} {files : Files} {client : σ} {w : World σ}
    (h : construct X hooks arguments files client=.ok w) (steps : List Step) :
    Bounded (run (stepWorld X hooks) w steps) ∧
      (∀ step, HistoryStep (acceptedBy X hooks (run (stepWorld X hooks) w steps) step)
        (historyOf (run (stepWorld X hooks) w steps).store)
        (historyOf (stepWorld X hooks (run (stepWorld X hooks) w steps) step).store)) ∧
      (∀ io request id fingerprint,
        admission X (run (stepWorld X hooks) w steps).store request=.fresh id fingerprint →
        operationOf request=.undo ∨ operationOf request=.redo →
        (command X hooks io request (run (stepWorld X hooks) w steps)).1.member "success"=
          some (.boolean true) →
        ∃ document, acceptedBy X hooks (run (stepWorld X hooks) w steps) (.command io request)=
          some (operationOf request,document)) ∧
      ∀ undos redos : List Step, undos.length=redos.length →
        Along (stepWorld X hooks)
          (fun u step => ∃ document, acceptedBy X hooks u step=some (.undo,document))
          (run (stepWorld X hooks) w steps) undos →
        Along (stepWorld X hooks)
          (fun u step => ∃ document, acceptedBy X hooks u step=some (.redo,document))
          (run (stepWorld X hooks) (run (stepWorld X hooks) w steps) undos) redos →
        historyOf (run (stepWorld X hooks) (run (stepWorld X hooks) w steps) (undos ++ redos)).store=
          historyOf (run (stepWorld X hooks) w steps).store := by
  have hb : Bounded (run (stepWorld X hooks) w steps) :=
    run_invariant (fun v step hv _ => step_bounded v step hv) (opened_bounded (construct_opened h))
      (along_true _ w steps)
  refine ⟨hb,?_,?_,?_⟩
  · intro step
    obtain ⟨hmove,hmovable⟩ := step_history X hooks _ step hb
    exact historyStep_of_move hmovable hmove
  · intro io request id fingerprint hfresh ho hs
    exact successful_accepted hfresh ho hs
  · intro undos redos hlen hu hr
    exact run_undos_redos hb hlen hu hr

/-- The history of the sample store over its first replacement. -/
theorem run_history_zipper_hall :
    construct hallExternals acceptingHooks hallArguments (filesOf [] [["scenes"]]) ()=.ok hallWorld ∧
      Bounded (run (stepWorld hallExternals acceptingHooks) hallWorld
        [.command {} (sampleRequest "replace" "a" 1 [("document",emptyRoom)]),
          .command {} (sampleRequest "undo" "b" 2 [])]) :=
  ⟨rfl,(run_history_zipper (rfl : construct hallExternals acceptingHooks hallArguments
    (filesOf [] [["scenes"]]) ()=.ok hallWorld) _).1⟩

/-- A replacement whose autosave fails is a failed command, and the list grows. -/
theorem failed_replacement_extends_history :
    construct hallExternals acceptingHooks hallArguments (filesOf [] [["scenes"]]) ()=.ok hallWorld ∧
      (command hallExternals acceptingHooks {autosave := {rename := some 5}}
        (sampleRequest "replace" "a" 1 [("document",emptyRoom)]) hallWorld).1.member "success"=
        some (.boolean false) ∧
      (historyOf hallWorld.store).entries=[emptyScene] ∧
      (historyOf (command hallExternals acceptingHooks {autosave := {rename := some 5}}
        (sampleRequest "replace" "a" 1 [("document",emptyRoom)]) hallWorld).2.store).entries=
        [emptyScene,emptyRoom] := by
  refine ⟨rfl,?_⟩
  decide +kernel

end Ros1Adapter.SceneStoreHistory
