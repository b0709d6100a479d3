import Ros1Adapter.RobotBookkeeping

/-!
# Owned status slots

Each controller owns at most one required and one optional status stream. An
open may be late, lost or repeated and a retirement may fence an open that
never arrived; the generations and predecessors of a slot order the streams
under every arrival order. The slots change in a few ways only, so what a
slot keeps is proved for each of these and follows for every run.
-/

namespace Ros1Adapter.RobotSlots

open RobotControl RobotBooks RobotBookkeeping ActionRules

section Inversion

/-- Only counters, the controlled members and the time of renewal of a controller change. -/
def Kept (c c' : Controller) : Prop :=
  c'={c with work := c'.work, members := c'.members, lastRenewal := c'.lastRenewal}

theorem kept_refl (c : Controller) : Kept c c := rfl

/-- What one step does to the controller. -/
inductive ControllerStep (site : Site) (c : Controller) : Controller → Prop where
  /-- Nothing but counters changes. -/
  | kept {c' : Controller} (h : Kept c c') : ControllerStep site c c'
  /-- A stream arrives. -/
  | accepted (stream : ℕ) (control : Bool) (owner : StatusOwner) :
    ControllerStep site c (acceptStatus stream control owner c)
  /-- A stream becomes ready. -/
  | ready (stream : ℕ) : ControllerStep site c (readyStatus stream c)
  /-- The transport reports the end of a stream. -/
  | done (stream : ℕ) : ControllerStep site c (doneStatus stream c)
  /-- A stream ends. -/
  | ended (stream : ℕ) : ControllerStep site c (releaseStatus stream c)
  /-- The required stream goes down. -/
  | down : ControllerStep site c (markControlDown c)
  /-- A status owner is retired. -/
  | statusRetired (request : RetireStatusRequest) : ControllerStep site c (retireStatus request c).2
  /-- A retirement of a status owner is answered. -/
  | statusAnswered (request : RetireStatusRequest) : ControllerStep site c (retireStatusAnswer request c).2
  /-- A controller is installed. -/
  | installed (unixPeer : Bool) (request : InstallControllerRequest) :
    ControllerStep site c (installController site unixPeer request c).2
  /-- The controller begins to retire. -/
  | retiring (h : c.generation≠0) : ControllerStep site c (markControlDown {c with retiring := true})
  /-- The retirement begins to release members. -/
  | finishing (h : c.retiring=true) (empty : c.calls=[]) : ControllerStep site c {c with finishing := true}
  /-- The retirement gives up. -/
  | abandoned : ControllerStep site c {c with finishing := false}
  /-- The controller is retired. -/
  | retired {list : List ℕ} (h : c.finishing=true) :
    ControllerStep site c (retiredController {c with members := list})

variable {s : State} {site : Site} {m r : ℕ}

theorem renewals_controller (now : ℕ) (renewals : List (Option ℕ × ℕ)) :
    ∀ s : State, (renewals.foldl (renewOne now) s).controller=s.controller := by
  induction renewals with
  | nil => exact fun _ => rfl
  | cons renewal rest ih =>
    intro s
    rw [List.foldl_cons,ih]
    unfold renewOne
    split
    · rfl
    · split <;> rfl

theorem takeControl_kept (request : ControlRequest) (now : ℕ) :
    Kept s.controller (takeControl r m request now s).controller := by
  unfold takeControl
  simp only []
  split
  · split <;> exact kept_refl _
  · split
    · exact kept_refl _
    · split
      · exact kept_refl _
      · rfl

theorem acquireCommit_kept (request : ControlRequest) (cancelled : Bool) (now : ℕ) :
    Kept s.controller (acquireCommit r m request cancelled now s).controller := by
  unfold acquireCommit
  simp only []
  split
  · exact kept_refl _
  · split
    · exact kept_refl _
    · split
      · exact kept_refl _
      · split
        · exact kept_refl _
        · exact takeControl_kept (s := s.setMember m (adopted s.controller.generation)) request now

theorem releaseEnter_kept (request : ControlRequest) (cancelled : Bool) (now : ℕ) :
    Kept s.controller (releaseEnter r m request cancelled now s).controller := by
  unfold releaseEnter
  simp only []
  split
  · exact kept_refl _
  · split
    · exact kept_refl _
    · split
      · exact kept_refl _
      · split
        · exact kept_refl _
        · split
          · exact kept_refl _
          · rfl

theorem releaseWake_kept (request : ControlRequest) :
    Kept s.controller (releaseWake r m request s).controller := by
  unfold releaseWake
  simp only []
  split
  · exact kept_refl _
  · split
    · split <;> rfl
    · exact kept_refl _

theorem releaseReturn_kept (request : ControlRequest) (success : Bool) :
    Kept s.controller (releaseReturn r m request success s).controller := by
  unfold releaseReturn
  simp only []
  split <;> rfl

theorem retireEnter_controller (unixPeer : Bool) (request : RetireControllerRequest) :
    ControllerStep site s.controller (retireEnter site unixPeer request s).controller := by
  unfold retireEnter
  simp only []
  split
  · next waits =>
    have entered := retireController_waits waits
    have same : ∀ rpc, (State.addRpc {s with controller := (retireController site unixPeer request s.controller).2}
      rpc).controller=(retireController site unixPeer request s.controller).2 := fun _ => rfl
    rw [same,entered.1]
    exact .retiring entered.2
  · exact .kept (kept_refl _)
  · exact .kept (kept_refl _)

theorem retireWake_controller (request : RetireControllerRequest) :
    ControllerStep site s.controller (retireWake r request s).controller := by
  unfold retireWake
  simp only []
  split
  · exact .kept (kept_refl _)
  · next wakes =>
    split
    · split <;> exact .kept (kept_refl _)
    · next installed =>
      split
      · next same =>
        have empty : s.controller.calls=[] := by
          unfold retireControllerWakes at wakes
          simp [installed] at wakes
          exact wakes.1.1
        exact .finishing same.2.2 empty
      · exact .kept (kept_refl _)

theorem retireFinish_controller {request : RetireControllerRequest} {controls : List ℕ} (now : ℕ) (h : Books s)
    (hr : s.rpcs r=.retireMembers request [] controls) :
    ControllerStep site s.controller (retireFinish r request controls now s).controller := by
  have old : Retires s request [] controls := h.retires r _ _ _ (by rw [hr]; rfl)
  unfold retireFinish
  split
  · exact .kept (kept_refl _)
  · obtain ⟨members,list,fold,_⟩ := retireOne_fold request.generation now controls s
    rw [fold]
    exact .retired old.finishing

theorem proceed_controller (cancelled : Bool) (now : ℕ) (h : Books s) :
    ControllerStep site s.controller (proceed r cancelled now s).controller := by
  unfold proceed
  split
  · unfold acquireFind
    split <;> exact .kept (kept_refl _)
  · exact .kept (acquireCommit_kept _ cancelled now)
  · unfold renewFind
    split <;> exact .kept (kept_refl _)
  · unfold renewCommit
    split
    · exact .kept (kept_refl _)
    · split
      · exact .kept (kept_refl _)
      · next request members _ _ _ =>
        have same : (((members.zip (request.members.map Prod.snd)).foldl (renewOne now) s).answer r .ok).controller=
          s.controller := renewals_controller now _ s
        rw [same]
        exact .kept (kept_refl _)
  · unfold releaseFind
    split <;> exact .kept (kept_refl _)
  · exact .kept (releaseEnter_kept _ cancelled now)
  · exact .kept (releaseWake_kept _)
  · exact retireWake_controller _
  · unfold retireMember
    simp only []
    split
    · exact .kept (kept_refl _)
    · split <;> exact .kept (kept_refl _)
  · next hr => exact retireFinish_controller now h hr
  · unfold retireStatusWake
    split
    · exact .kept (kept_refl _)
    · exact .statusAnswered _
  · exact .kept (kept_refl _)
  · exact .kept (kept_refl _)
  · exact .kept (kept_refl _)

theorem returned_controller (success : Bool) :
    ControllerStep site s.controller (returned r success s).controller := by
  unfold returned
  split
  · exact .kept (releaseReturn_kept _ _)
  · unfold retireReturn
    simp only []
    split
    · exact .abandoned
    · exact .kept (kept_refl _)
  · exact .kept (kept_refl _)

theorem timeout_controller : ControllerStep site s.controller (timeout r s).controller := by
  unfold timeout
  split
  · unfold releaseTimeout
    split
    · exact .kept (kept_refl _)
    · exact .kept rfl
  · unfold retireTimeout
    split <;> exact .kept (kept_refl _)
  · unfold retireMemberTimeout
    split
    · split
      · exact .kept (kept_refl _)
      · exact .abandoned
    · split
      · exact .kept (kept_refl _)
      · exact .abandoned
  · unfold retireStatusTimeout
    split <;> exact .kept (kept_refl _)
  · exact .kept (kept_refl _)

/-- Every step changes the controller in one of these ways. -/
theorem step_controller (s : State) (input : Step) (h : Books s) :
    ControllerStep site s.controller (step site s input).controller := by
  cases input with
  | install unixPeer request =>
    have same : (installEnter site unixPeer request s).controller=
        (installController site unixPeer request s.controller).2 := by
      unfold installEnter
      simp only []
      split <;> rfl
    rw [step,same]
    exact .installed unixPeer request
  | accept stream control owner => exact .accepted stream control owner
  | ready stream => exact .ready stream
  | done stream => exact .done stream
  | ended stream => exact .ended stream
  | down => exact .down
  | retireStatus request =>
    have same : (retireStatusEnter request s).controller=(retireStatus request s.controller).2 := by
      unfold retireStatusEnter
      simp only []
      split <;> rfl
    rw [step,same]
    exact .statusRetired request
  | acquire request cancelled =>
    simp only [step,acquireCheck]
    split
    · exact .kept (kept_refl _)
    · split
      · exact .kept (kept_refl _)
      · split <;> exact .kept (kept_refl _)
  | renew request cancelled now =>
    simp only [step,renewCheck]
    split
    · exact .kept (kept_refl _)
    · split
      · exact .kept (kept_refl _)
      · split
        · exact .kept (kept_refl _)
        · split
          · exact .kept (kept_refl _)
          · exact .kept rfl
  | release request =>
    simp only [step,releaseCheck]
    split
    · exact .kept (kept_refl _)
    · split <;> exact .kept (kept_refl _)
  | retire unixPeer request => exact retireEnter_controller unixPeer request
  | proceed r cancelled now => exact proceed_controller cancelled now h
  | returned r success => exact returned_controller success
  | timeout r => exact timeout_controller
  | dispatch m request now =>
    simp only [step,dispatch]
    split
    · exact .kept (kept_refl _)
    · split
      · next work _ => cases work <;> exact .kept rfl
      · exact .kept (kept_refl _)
  | execute m =>
    simp only [step,execute]
    split
    · split <;> exact .kept (kept_refl _)
    · exact .kept (kept_refl _)
  | complete m succeeded =>
    simp only [step,complete]
    split
    · next flight _ =>
      split
      · exact .kept (kept_refl _)
      · cases hw : flight.controlWork <;> exact .kept (by simp [Kept,State.setController,State.setMember,discountWork])
    · exact .kept (kept_refl _)
  | watch m now =>
    simp only [step,watch]
    split <;> exact .kept (kept_refl _)
  | coreSilent released =>
    simp only [step,coreSilent]
    split
    · exact .kept (kept_refl _)
    · split <;> exact .kept (kept_refl _)
  | throw =>
    simp only [step,schedulerThrow]
    split <;> exact .kept (kept_refl _)
  | exit => exact .kept (kept_refl _)
  | register identity native =>
    simp only [step,register]
    split <;> exact .kept (kept_refl _)
  | remove m =>
    simp only [step,remove]
    split <;> exact .kept (kept_refl _)
  | stop m =>
    simp only [step,stopMember]
    split
    · exact .kept (kept_refl _)
    · exact .kept rfl

end Inversion

section Logs

/-- Generation of an admitted stream. -/
def admittedGeneration : SlotEvent → Option ℕ
  | .admitted owner => some owner.generation
  | _ => none

/-- The owner that an event retires or fences. -/
def lastRetired (log : List SlotEvent) : ℕ × Bytes :=
  log.foldl (fun last event =>
    match event with
    | .ended generation openId => (generation,openId)
    | .fenced generation openId => (generation,openId)
    | _ => last) (0,[])

/-- The order of the streams of a slot. -/
structure OrderlyLog (log : List SlotEvent) : Prop where
  /-- The generations of admitted streams increase. -/
  increasing : (log.filterMap admittedGeneration).Pairwise (· < ·)
  /-- The predecessor of an admitted stream is the last one that was retired or fenced. -/
  predecessor : ∀ before owner after, log=before ++ .admitted owner::after →
    (owner.predecessorGeneration,owner.predecessorOpenId)=lastRetired before
  /-- After a joined retirement no stream with its generation is admitted. -/
  fenced : ∀ before generation openId after, log=before ++ .joined generation openId::after →
    ∀ owner, .admitted owner∈after → owner.generation≠generation

/-- An event that admits nothing keeps the order. -/
theorem orderlyLog_other {log : List SlotEvent} {event : SlotEvent} (h : OrderlyLog log)
    (he : admittedGeneration event=none) : OrderlyLog (log ++ [event]) := by
  have not_admitted : ∀ owner, event≠.admitted owner := by
    intro owner same
    rw [same] at he
    cases he
  refine ⟨?_,?_,?_⟩
  · have same : (log ++ [event]).filterMap admittedGeneration=log.filterMap admittedGeneration := by
      simp [List.filterMap_append,he]
    rw [same]
    exact h.increasing
  · intro before owner after split_
    rcases append_split split_ with ⟨_,_,same⟩ | ⟨rest,_,old⟩
    · exact absurd same.symm (not_admitted owner)
    · exact h.predecessor before owner rest old
  · intro before generation openId after split_ owner mem
    rcases append_split split_ with ⟨none,_,_⟩ | ⟨rest,some,old⟩
    · rw [none] at mem
      cases mem
    · rw [some] at mem
      rcases List.mem_append.mp mem with early | last
      · exact h.fenced before generation openId rest old owner early
      · exact absurd (List.mem_singleton.mp last).symm (not_admitted owner)

/-- An admission after the last retired owner, ahead of all earlier ones, keeps the order. -/
theorem orderlyLog_admitted {log : List SlotEvent} {owner : StatusOwner} (h : OrderlyLog log)
    (hp : (owner.predecessorGeneration,owner.predecessorOpenId)=lastRetired log)
    (hb : ∀ earlier, .admitted earlier∈log → earlier.generation<owner.generation)
    (hj : ∀ generation openId, .joined generation openId∈log → generation<owner.generation) :
    OrderlyLog (log ++ [.admitted owner]) := by
  refine ⟨?_,?_,?_⟩
  · rw [List.filterMap_append]
    refine List.pairwise_append.mpr ⟨h.increasing,List.pairwise_singleton _ _,?_⟩
    intro generation mem last same
    obtain ⟨event,he,hg⟩ := List.mem_filterMap.mp mem
    have new : last=owner.generation := by simpa [admittedGeneration] using same
    rw [new]
    cases event with
    | admitted earlier =>
      cases hg
      exact hb earlier he
    | ended _ _ | fenced _ _ | joined _ _ => cases hg
  · intro before other after split_
    rcases append_split split_ with ⟨_,same,first⟩ | ⟨rest,_,old⟩
    · cases first
      rw [same]
      exact hp
    · exact h.predecessor before other rest old
  · intro before generation openId after split_ other mem
    rcases append_split split_ with ⟨none,_,_⟩ | ⟨rest,some,old⟩
    · rw [none] at mem
      cases mem
    · rw [some] at mem
      rcases List.mem_append.mp mem with early | last
      · exact h.fenced before generation openId rest old other early
      · have joined : .joined generation openId∈log := by
          rw [old]
          exact List.mem_append_right _ (List.mem_cons_self ..)
        have newer := hj generation openId joined
        cases List.mem_singleton.mp last
        omega

end Logs

section Invariant

/-- Generation of the newest stream of a slot. -/
def newest (slot : OwnedStatusSlot) : ℕ := if slot.active=none then slot.retiredGeneration else slot.generation

/-- What a slot keeps, with the streams of its kind and its history. -/
structure SlotBooks (control : Bool) (calls : List (ℕ × Bool)) (slot : OwnedStatusSlot) (log : List SlotEvent) :
    Prop extends OrderlyLog log where
  /-- The owned stream is the one in the slot. -/
  active : ∀ stream, (stream,control)∈calls ↔ slot.active=some stream
  /-- The slot knows the last retired or fenced owner. -/
  last : (slot.retiredGeneration,slot.retiredOpenId)=lastRetired log
  /-- The stream in the slot is newer than the last retired one. -/
  above : slot.active≠none → slot.retiredGeneration<slot.generation
  /-- The stream in the slot was admitted. -/
  holds : slot.active≠none → ∃ owner, .admitted owner∈log ∧ owner.generation=slot.generation ∧
    owner.openId=slot.openId
  /-- No admitted stream is newer. -/
  bounded : ∀ owner, .admitted owner∈log → owner.generation ≤ newest slot
  /-- A joined owner is not newer than the last retired one. -/
  joined : ∀ generation openId, .joined generation openId∈log → generation ≤ slot.retiredGeneration

variable {control : Bool} {calls calls' : List (ℕ × Bool)} {slot slot' : OwnedStatusSlot} {log : List SlotEvent}

/-- The flags of a slot and the streams of the other kind play no part. -/
theorem slotBooks_flags (h : SlotBooks control calls slot log)
    (hc : ∀ stream, (stream,control)∈calls' ↔ (stream,control)∈calls) (retiring ready : Bool) :
    SlotBooks control calls' {slot with retiring := retiring, ready := ready} log :=
  ⟨h.toOrderlyLog,fun stream => (hc stream).trans (h.active stream),h.last,h.above,h.holds,h.bounded,h.joined⟩

/-- A new slot of a new controller. -/
theorem slotBooks_new (hc : ∀ stream, (stream,control)∉calls) : SlotBooks control calls {} [] where
  increasing := List.Pairwise.nil
  predecessor := fun before owner after h => by simp at h
  fenced := fun before generation openId after h => by simp at h
  active := fun stream => ⟨fun mem => absurd mem (hc stream),fun never => by cases never⟩
  last := rfl
  above := fun never => absurd rfl never
  holds := fun never => absurd rfl never
  bounded := fun _ never => by cases never
  joined := fun _ _ never => by cases never

/-- An admission fills a free slot. -/
theorem slotBooks_admitted {stream : ℕ} {owner : StatusOwner} (h : SlotBooks control calls slot log)
    (hfree : slot.active=none) (hp : matchesPredecessor owner slot=true)
    (hg : slot.retiredGeneration<owner.generation) :
    SlotBooks control ((stream,control)::calls) (occupied slot stream owner) (log ++ [.admitted owner]) := by
  have bound : newest slot=slot.retiredGeneration := if_pos hfree
  have new : newest (occupied slot stream owner)=owner.generation := if_neg (fun never => by cases never)
  have old : ∀ earlier, .admitted earlier∈log → earlier.generation<owner.generation := by
    intro earlier mem
    have := h.bounded earlier mem
    omega
  have order : OrderlyLog (log ++ [.admitted owner]) := by
    refine orderlyLog_admitted h.toOrderlyLog ?_ old ?_
    · rw [← h.last]
      unfold matchesPredecessor at hp
      simp only [Bool.and_eq_true,decide_eq_true_eq] at hp
      rw [hp.1,hp.2]
    · intro generation openId mem
      have := h.joined generation openId mem
      omega
  refine ⟨order,?_,?_,?_,?_,?_,?_⟩
  · intro other
    have before := h.active other
    rw [hfree] at before
    constructor
    · intro mem
      rcases List.mem_cons.mp mem with same | earlier
      · cases same
        rfl
      · cases before.mp earlier
    · intro same
      cases same
      exact List.mem_cons_self ..
  · simp only [lastRetired,List.foldl_append]
    exact h.last
  · exact fun _ => hg
  · exact fun _ => ⟨owner,List.mem_append_right _ (List.mem_singleton_self _),rfl,rfl⟩
  · intro earlier mem
    rw [new]
    rcases List.mem_append.mp mem with early | last
    · exact (old earlier early).le
    · cases List.mem_singleton.mp last
      exact le_refl _
  · intro generation openId mem
    rcases List.mem_append.mp mem with early | last
    · exact h.joined generation openId early
    · cases List.mem_singleton.mp last

/-- A stream that ends leaves its slot. -/
theorem slotBooks_ended {stream : ℕ} (h : SlotBooks control calls slot log) (hs : slot.active=some stream)
    (hc : ∀ other, (other,control)∉calls') :
    SlotBooks control calls' (vacated slot) (log ++ [.ended slot.generation slot.openId]) := by
  have busy : slot.active≠none := by
    rw [hs]
    exact fun never => by cases never
  have above := h.above busy
  refine ⟨orderlyLog_other h.toOrderlyLog rfl,?_,?_,?_,?_,?_,?_⟩
  · exact fun other => ⟨fun mem => absurd mem (hc other),fun never => by cases never⟩
  · simp only [lastRetired,List.foldl_append]
    rfl
  · exact fun never => absurd rfl never
  · exact fun never => absurd rfl never
  · intro owner mem
    have before : newest slot=slot.generation := if_neg busy
    have after : newest (vacated slot)=slot.generation := rfl
    rw [after]
    rcases List.mem_append.mp mem with early | last
    · have := h.bounded owner early
      omega
    · cases List.mem_singleton.mp last
  · intro generation openId mem
    have retired : (vacated slot).retiredGeneration=slot.generation := rfl
    rcases List.mem_append.mp mem with early | last
    · have := h.joined generation openId early
      omega
    · cases List.mem_singleton.mp last

/-- An open that did not arrive is fenced. -/
theorem slotBooks_fenced {owner : StatusOwner} (h : SlotBooks control calls slot log) (hfree : slot.active=none)
    (hg : slot.retiredGeneration<owner.generation) :
    SlotBooks control calls {slot with retiredGeneration := owner.generation, retiredOpenId := owner.openId}
      (log ++ [.fenced owner.generation owner.openId]) := by
  refine ⟨orderlyLog_other h.toOrderlyLog rfl,h.active,?_,?_,?_,?_,?_⟩
  · simp only [lastRetired,List.foldl_append]
    rfl
  · exact fun busy => absurd hfree busy
  · exact fun busy => absurd hfree busy
  · intro earlier mem
    have before : newest slot=slot.retiredGeneration := if_pos hfree
    have after : newest {slot with retiredGeneration := owner.generation, retiredOpenId := owner.openId}=
      owner.generation := if_pos hfree
    rw [after]
    rcases List.mem_append.mp mem with early | last
    · have := h.bounded earlier early
      omega
    · cases List.mem_singleton.mp last
  · intro generation openId mem
    rcases List.mem_append.mp mem with early | last
    · have := h.joined generation openId early
      simp only
      omega
    · cases List.mem_singleton.mp last

/-- A retirement of the last retired owner is answered as joined. -/
theorem slotBooks_joined {generation : ℕ} {openId : Bytes} (h : SlotBooks control calls slot log)
    (hg : slot.retiredGeneration=generation) : SlotBooks control calls slot (log ++ [.joined generation openId]) := by
  refine ⟨orderlyLog_other h.toOrderlyLog rfl,h.active,?_,h.above,?_,?_,?_⟩
  · simp only [lastRetired,List.foldl_append]
    exact h.last
  · intro busy
    obtain ⟨owner,mem,same⟩ := h.holds busy
    exact ⟨owner,List.mem_append_left _ mem,same⟩
  · intro owner mem
    rcases List.mem_append.mp mem with early | last
    · exact h.bounded owner early
    · cases List.mem_singleton.mp last
  · intro other open_ mem
    rcases List.mem_append.mp mem with early | last
    · exact h.joined other open_ early
    · cases List.mem_singleton.mp last
      exact hg.ge

end Invariant

section Controllers

variable {c : Controller} {site : Site}

theorem slot_setSlot_same (c : Controller) (control : Bool) (slot : OwnedStatusSlot) :
    (c.setSlot control slot).slot control=slot := by
  cases control <;> rfl

theorem slot_setSlot_other (c : Controller) {control other : Bool} (h : other≠control) (slot : OwnedStatusSlot) :
    (c.setSlot control slot).slot other=c.slot other := by
  cases control <;> cases other <;> first | rfl | exact absurd rfl h

theorem slotLog_record_same (c : Controller) (control : Bool) (event : SlotEvent) :
    (c.record control event).slotLog control=c.slotLog control ++ [event] := by
  cases control <;> rfl

theorem slotLog_record_other (c : Controller) {control other : Bool} (h : other≠control) (event : SlotEvent) :
    (c.record control event).slotLog other=c.slotLog other := by
  cases control <;> cases other <;> first | rfl | exact absurd rfl h

@[simp] theorem slot_record (c : Controller) (control other : Bool) (event : SlotEvent) :
    (c.record control event).slot other=c.slot other := by
  cases control <;> rfl

@[simp] theorem slotLog_setSlot (c : Controller) (control other : Bool) (slot : OwnedStatusSlot) :
    (c.setSlot control slot).slotLog other=c.slotLog other := by
  cases control <;> rfl

@[simp] theorem calls_setSlot (c : Controller) (control : Bool) (slot : OwnedStatusSlot) :
    (c.setSlot control slot).calls=c.calls := by
  cases control <;> rfl

@[simp] theorem calls_record (c : Controller) (control : Bool) (event : SlotEvent) :
    (c.record control event).calls=c.calls := by
  cases control <;> rfl

/-- What the streams and slots of a controller keep. -/
structure Slots (c : Controller) : Prop where
  /-- Each slot is in order. -/
  each : ∀ control, SlotBooks control c.calls (c.slot control) (c.slotLog control)
  /-- The owned streams differ. -/
  distinct : (c.calls.map Prod.fst).Nodup
  /-- A retirement that releases members has no stream left. -/
  finished : c.finishing=true → c.retiring=true ∧ c.calls=[]

/-- A change outside the streams and slots. -/
theorem slots_frame {c' : Controller} (h : Slots c) (hcalls : c'.calls=c.calls)
    (hslot : ∀ control, c'.slot control=c.slot control) (hlog : ∀ control, c'.slotLog control=c.slotLog control)
    (hfinished : c'.finishing=true → c'.retiring=true ∧ c'.calls=[]) : Slots c' := by
  refine ⟨?_,?_,hfinished⟩
  · intro control
    rw [hcalls,hslot,hlog]
    exact h.each control
  · rw [hcalls]
    exact h.distinct

/-- The changes of a controller that touch streams and slots only leave its flags. -/
theorem finished_slotsOnly {c' : Controller} (h : Slots c) (hs : SlotsOnly c c') (hc : c.calls=[] → c'.calls=[]) :
    c'.finishing=true → c'.retiring=true ∧ c'.calls=[] := by
  intro finishing
  have flags : c'.finishing=c.finishing ∧ c'.retiring=c.retiring := by
    rw [hs]
    exact ⟨rfl,rfl⟩
  rw [flags.1] at finishing
  obtain ⟨retiring,empty⟩ := h.finished finishing
  exact ⟨flags.2.trans retiring,hc empty⟩

/-- A change of one slot and its history keeps the other slot. -/
theorem slots_one {c' : Controller} (control : Bool) (h : Slots c) (hs : SlotsOnly c c')
    (hcalls : c'.calls=c.calls) (hother : ∀ other, other≠control →
      c'.slot other=c.slot other ∧ c'.slotLog other=c.slotLog other)
    (hone : SlotBooks control c.calls (c'.slot control) (c'.slotLog control)) : Slots c' := by
  refine ⟨?_,?_,finished_slotsOnly h hs (fun empty => hcalls.trans empty)⟩
  · intro kind
    rw [hcalls]
    by_cases hk : kind=control
    · rw [hk]
      exact hone
    · rw [(hother kind hk).1,(hother kind hk).2]
      exact h.each kind
  · rw [hcalls]
    exact h.distinct

/-- The flags of a slot play no part. -/
theorem slots_flags (control retiring ready : Bool) (h : Slots c) :
    Slots (c.setSlot control {c.slot control with retiring := retiring, ready := ready}) := by
  refine slots_one control h (slotsOnly_setSlot c control _) (calls_setSlot ..)
    (fun other hk => ⟨slot_setSlot_other c hk _,slotLog_setSlot ..⟩) ?_
  rw [slot_setSlot_same,slotLog_setSlot]
  exact slotBooks_flags (h.each control) (fun _ => Iff.rfl) retiring ready

theorem markControlDown_slots (h : Slots c) : Slots (markControlDown c) :=
  slots_flags true c.control.retiring false h

theorem acceptStatus_slots (stream : ℕ) (control : Bool) (owner : StatusOwner) (h : Slots c) :
    Slots (acceptStatus stream control owner c) := by
  have only := slotsOnly_acceptStatus stream control owner c
  unfold acceptStatus admitOwnedStatus at *
  split
  · exact h
  · next fresh =>
    split
    · exact h
    · split
      · exact h
      · next granted =>
        split
        · exact h
        · next free =>
          split
          · exact h
          · next follows =>
            have retiring := (controllerGrant_facts (by simpa using granted)).1
            have vacant : (c.slot control).active=none := by simpa using free
            simp only [Bool.or_eq_true,Bool.not_eq_true',decide_eq_true_eq,not_or,Bool.not_eq_false,not_le] at follows
            have new : stream∉c.calls.map Prod.fst := by
              have missing : c.calls.lookup stream=none := Option.not_isSome_iff_eq_none.mp fresh
              intro mem
              obtain ⟨call,hc,same⟩ := List.mem_map.mp mem
              have := List.lookup_eq_none_iff.mp missing call hc
              simp [same] at this
            refine ⟨?_,?_,?_⟩
            · intro kind
              simp only [calls_record,calls_setSlot,slot_record]
              by_cases hk : kind=control
              · rw [hk,slotLog_record_same]
                have slot : Controller.slot {c.setSlot control (occupied (c.slot control) stream owner) with
                    calls := (stream,control)::c.calls} control=occupied (c.slot control) stream owner :=
                  slot_setSlot_same c control _
                have log : Controller.slotLog {c.setSlot control (occupied (c.slot control) stream owner) with
                    calls := (stream,control)::c.calls} control=c.slotLog control := slotLog_setSlot c control control _
                rw [slot,log]
                exact slotBooks_admitted (h.each control) vacant follows.1 follows.2
              · rw [slotLog_record_other _ hk]
                have slot : Controller.slot {c.setSlot control (occupied (c.slot control) stream owner) with
                    calls := (stream,control)::c.calls} kind=c.slot kind := slot_setSlot_other c hk _
                have log : Controller.slotLog {c.setSlot control (occupied (c.slot control) stream owner) with
                    calls := (stream,control)::c.calls} kind=c.slotLog kind := slotLog_setSlot c control kind _
                rw [slot,log]
                exact slotBooks_flags (h.each kind) (fun other => by simp [hk]) _ _
            · simp only [calls_record,calls_setSlot,List.map_cons]
              exact List.nodup_cons.mpr ⟨new,h.distinct⟩
            · intro finishing
              cases control <;> exact absurd ((h.finished finishing).1) (by rw [retiring]; exact Bool.false_ne_true)

/-- The kind of an owned stream. -/
theorem lookup_mem {stream : ℕ} {control : Bool} (hl : c.calls.lookup stream=some control) :
    (stream,control)∈c.calls := by
  obtain ⟨before,after,hc,_⟩ := List.lookup_eq_some_iff.mp hl
  rw [hc]
  exact List.mem_append_right _ (List.mem_cons_self ..)

theorem releaseStatus_slots (stream : ℕ) (h : Slots c) : Slots (releaseStatus stream c) := by
  have only := slotsOnly_releaseStatus stream c
  unfold releaseStatus at *
  split
  · exact h
  · next control hl =>
    have mem := lookup_mem hl
    have busy : (c.slot control).active=some stream := ((h.each control).active stream).mp mem
    have left : leaveSlot stream control c=(c.setSlot control (vacated (c.slot control))).record control
        (.ended (c.slot control).generation (c.slot control).openId) := if_pos busy
    simp only [left,calls_record,calls_setSlot]
    refine ⟨?_,?_,?_⟩
    · intro kind
      by_cases hk : kind=control
      · have slot : Controller.slot {(c.setSlot control (vacated (c.slot control))).record control
            (.ended (c.slot control).generation (c.slot control).openId) with
              calls := c.calls.filter (fun other => other.1≠stream)} kind=vacated (c.slot control) := by
          rw [hk]
          exact (slot_record _ control control _).trans (slot_setSlot_same c control _)
        have log : Controller.slotLog {(c.setSlot control (vacated (c.slot control))).record control
            (.ended (c.slot control).generation (c.slot control).openId) with
              calls := c.calls.filter (fun other => other.1≠stream)} kind=
            c.slotLog control ++ [.ended (c.slot control).generation (c.slot control).openId] := by
          rw [hk]
          refine (slotLog_record_same _ control _).trans ?_
          rw [slotLog_setSlot]
        rw [slot,log,hk]
        refine slotBooks_ended (h.each control) busy ?_
        intro other mem'
        obtain ⟨owned_,differs⟩ := List.mem_filter.mp mem'
        have same := ((h.each control).active other).mp owned_
        rw [busy] at same
        cases same
        simp at differs
      · have slot : Controller.slot {(c.setSlot control (vacated (c.slot control))).record control
            (.ended (c.slot control).generation (c.slot control).openId) with
              calls := c.calls.filter (fun other => other.1≠stream)} kind=c.slot kind :=
          (slot_record _ control kind _).trans (slot_setSlot_other c hk _)
        have log : Controller.slotLog {(c.setSlot control (vacated (c.slot control))).record control
            (.ended (c.slot control).generation (c.slot control).openId) with
              calls := c.calls.filter (fun other => other.1≠stream)} kind=c.slotLog kind :=
          (slotLog_record_other _ hk _).trans (slotLog_setSlot c control kind _)
        rw [slot,log]
        refine slotBooks_flags (h.each kind) (fun other => ?_) _ _
        constructor
        · exact fun mem' => (List.mem_filter.mp mem').1
        · intro owned_
          refine List.mem_filter.mpr ⟨owned_,?_⟩
          have differs : other≠stream := by
            intro same
            rw [same] at owned_
            have equal := List.inj_on_of_nodup_map h.distinct owned_ mem rfl
            exact hk (Prod.mk.inj equal).2
          simpa using differs
    · exact (h.distinct.sublist (List.filter_sublist.map Prod.fst))
    · rw [hl] at only
      simp only [left,calls_record,calls_setSlot] at only
      exact finished_slotsOnly h only (fun empty => by simp [empty])

theorem readyStatus_slots (stream : ℕ) (h : Slots c) : Slots (readyStatus stream c) := by
  unfold readyStatus
  split
  · exact h
  · next control _ =>
    split
    · exact h
    · exact slots_flags control (c.slot control).retiring true h

theorem doneStatus_slots (stream : ℕ) (h : Slots c) : Slots (doneStatus stream c) := by
  unfold doneStatus
  split
  · exact markControlDown_slots h
  · exact h

theorem retireStatusAnswer_slots (request : RetireStatusRequest) (h : Slots c) :
    Slots (retireStatusAnswer request c).2 := by
  unfold retireStatusAnswer
  simp only []
  split
  · exact h
  · next same =>
    push Not at same
    refine slots_one request.control h (slotsOnly_record c request.control _) (calls_record ..)
      (fun other hk => ⟨slot_record ..,slotLog_record_other c hk _⟩) ?_
    rw [slot_record,slotLog_record_same]
    exact slotBooks_joined (h.each request.control) same.1

theorem retireStatus_slots (request : RetireStatusRequest) (h : Slots c) :
    Slots (retireStatus request c).2 := by
  unfold retireStatus
  simp only []
  split
  · exact h
  · split
    · exact h
    · split
      · exact slots_flags request.control true false h
      · split
        · next fence =>
          simp only [Bool.and_eq_true,decide_eq_true_eq] at fence
          have vacant : (c.slot request.control).active=none := by simpa using fence.1.1
          refine retireStatusAnswer_slots request ?_
          refine slots_one request.control h (slotsOnly_trans (slotsOnly_setSlot c _ _) (slotsOnly_record _ _ _)) (by simp)
            (fun other hk => ⟨?_,?_⟩) ?_
          · rw [slot_record]
            exact slot_setSlot_other c hk _
          · rw [slotLog_record_other _ hk,slotLog_setSlot]
          · rw [slot_record,slotLog_record_same,slotLog_setSlot,slot_setSlot_same]
            exact slotBooks_fenced (h.each request.control) vacant fence.1.2
        · exact retireStatusAnswer_slots request h

/-- Every change of the controller keeps its slots in order. -/
theorem controllerStep_slots {c' : Controller} (h : Slots c) (hs : ControllerStep site c c') : Slots c' := by
  cases hs with
  | kept same =>
    rw [same]
    exact slots_frame h rfl (fun _ => rfl) (fun _ => rfl) h.finished
  | accepted stream control owner => exact acceptStatus_slots stream control owner h
  | ready stream => exact readyStatus_slots stream h
  | done stream => exact doneStatus_slots stream h
  | ended stream => exact releaseStatus_slots stream h
  | down => exact markControlDown_slots h
  | statusRetired request => exact retireStatus_slots request h
  | statusAnswered request => exact retireStatusAnswer_slots request h
  | installed unixPeer request =>
    unfold installController
    split
    · exact h
    · split
      · exact h
      · split
        · split <;> exact h
        · split
          · exact h
          · exact slots_frame h rfl (fun _ => rfl) (fun _ => rfl) h.finished
  | retiring _ =>
    have entered : Slots {c with retiring := true} :=
      slots_frame h rfl (fun _ => rfl) (fun _ => rfl) (fun finishing => ⟨rfl,(h.finished finishing).2⟩)
    exact markControlDown_slots entered
  | finishing retiring empty => exact slots_frame h rfl (fun _ => rfl) (fun _ => rfl) (fun _ => ⟨retiring,empty⟩)
  | abandoned => exact slots_frame h rfl (fun _ => rfl) (fun _ => rfl) (fun never => by cases never)
  | retired finishing =>
    have empty := (h.finished finishing).2
    have none_ : ∀ stream control, (stream,control)∉c.calls := by
      rw [empty]
      exact fun _ _ never => by cases never
    refine ⟨?_,h.distinct,fun never => by cases never⟩
    intro control
    cases control
    · exact slotBooks_new (fun stream => none_ stream false)
    · exact slotBooks_new (fun stream => none_ stream true)

/-- In every reachable state the slots are in order. -/
theorem run_slots (site : Site) (steps : List Step) : Slots (run (step site) {} steps).controller := by
  have start : Slots ({} : State).controller := by
    refine ⟨?_,List.nodup_nil,fun never => by cases never⟩
    intro control
    cases control <;> exact slotBooks_new (fun _ never => by cases never)
  have both : ∀ s input, (Books s ∧ Slots s.controller) → True →
      (Books (step site s input) ∧ Slots (step site s input).controller) :=
    fun s input h _ => ⟨step_books site s input h.1,controllerStep_slots h.2 (step_controller s input h.1)⟩
  exact (run_invariant both ⟨initial_books,start⟩ (along_true _ _ steps)).2

/-- What the owned streams of one kind promise under one controller. -/
structure OrderlySlot (c : Controller) (control : Bool) : Prop where
  /-- At most one owned stream is there. -/
  single : (c.calls.filter (fun call => call.2=control)).length ≤ 1
  /-- The owned stream is the one in the slot. -/
  active : ∀ stream, (stream,control)∈c.calls ↔ (c.slot control).active=some stream
  /-- The stream in the slot has the generation and the open of an admitted owner. -/
  holds : (c.slot control).active≠none → ∃ owner, .admitted owner∈c.slotLog control ∧
    owner.generation=(c.slot control).generation ∧ owner.openId=(c.slot control).openId
  /-- Generations increase, predecessors match and joined generations do not return. -/
  order : OrderlyLog (c.slotLog control)
  /-- A joined owner is not in the slot. -/
  gone : ∀ generation openId, .joined generation openId∈c.slotLog control → (c.slot control).active≠none →
    ¬((c.slot control).generation=generation ∧ (c.slot control).openId=openId)

/-- In every reachable state both slots of the controller are orderly. -/
theorem run_slots_orderly (site : Site) (steps : List Step) (control : Bool) :
    OrderlySlot (run (step site) {} steps).controller control := by
  have books := run_slots site steps
  have slot := books.each control
  refine ⟨?_,slot.active,slot.holds,slot.toOrderlyLog,?_⟩
  · have same : ∀ call∈(run (step site) {} steps).controller.calls.filter (fun call => call.2=control),
        ∀ other∈(run (step site) {} steps).controller.calls.filter (fun call => call.2=control), call=other := by
      intro call mem other mem'
      obtain ⟨hc,kind⟩ := List.mem_filter.mp mem
      obtain ⟨ho,kind'⟩ := List.mem_filter.mp mem'
      have first := (slot.active call.1).mp (by simpa [← of_decide_eq_true kind] using hc)
      have second := (slot.active other.1).mp (by simpa [← of_decide_eq_true kind'] using ho)
      rw [first] at second
      exact Prod.ext (Option.some.inj second) ((of_decide_eq_true kind).trans (of_decide_eq_true kind').symm)
    have distinct := (List.Nodup.of_map Prod.fst books.distinct).filter (fun call => decide (call.2=control))
    rw [← List.toFinset_card_of_nodup distinct]
    refine Finset.card_le_one.mpr ?_
    intro a ha b hb
    exact same a (List.mem_toFinset.mp ha) b (List.mem_toFinset.mp hb)
  · intro generation openId mem busy equal
    have above := slot.above busy
    have below := slot.joined generation openId mem
    omega

end Controllers

end Ros1Adapter.RobotSlots
