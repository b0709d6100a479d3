import Ros1Adapter.RobotBooks

/-!
# Bookkeeping of robot control

Every section of acquisition, renewal, release and retirement, of the
scheduler and of the registration keeps the books, so they hold in every
reachable state.
-/

namespace Ros1Adapter.RobotBookkeeping

open RobotControl RobotBooks ActionRules

section Control

variable {s : State} {m r : ℕ}

/-- A registered member exists. -/
theorem selectedMember_exists {identity : MemberIdentity} (h : Books s)
    (hm : selectedMember s identity=some m) : m<s.memberCount := by
  unfold selectedMember at hm
  obtain ⟨before,after,htable,_⟩ := List.lookup_eq_some_iff.mp (Option.filter_eq_some_iff.mp hm).1
  have mem : (identity.robotId,m)∈s.table := by
    rw [htable]
    exact List.mem_append_right _ (List.mem_cons_self ..)
  exact h.tabled _ mem

theorem acquireCheck_books (request : ControlRequest) (cancelled : Bool) (h : Books s) :
    Books (acquireCheck request cancelled s) := by
  unfold acquireCheck
  split
  · exact books_refused h _
  · split
    · exact books_refused h _
    · split
      · exact books_refused h _
      · exact books_addRpc h (fun _ hi => by cases hi) rfl rfl

theorem releaseCheck_books (request : ControlRequest) (h : Books s) : Books (releaseCheck request s) := by
  unfold releaseCheck
  split
  · exact books_refused h _
  · split
    · exact books_refused h _
    · exact books_addRpc h (fun _ hi => by cases hi) rfl rfl

theorem renewCheck_books (request : RenewControlRequest) (cancelled : Bool) (now : ℕ) (h : Books s) :
    Books (renewCheck request cancelled now s) := by
  unfold renewCheck
  split
  · exact books_refused h _
  · split
    · exact books_refused h _
    · split
      · exact books_refused h _
      · split
        · exact books_refused h _
        · have edge : Books (s.setController fun c => {c with lastRenewal := now}) :=
            books_setController h ⟨rfl,rfl,rfl⟩ rfl rfl
          exact books_addRpc edge (fun _ hi => by cases hi) rfl rfl

theorem acquireFind_books {request : ControlRequest} (h : Books s) (hr : s.rpcs r=.acquireChecked request) :
    Books (acquireFind r request s) := by
  have exists_ : r<s.rpcCount := born h (by rw [hr]; exact fun same => by cases same)
  have still : waiting (s.rpcs r)=0 := by rw [hr]; rfl
  unfold acquireFind
  split
  · exact books_answer h exists_ still _
  · next m hm =>
    refine books_setRpc h exists_ ?_ rfl still.symm
    intro i hi
    rw [List.mem_singleton.mp hi]
    exact selectedMember_exists h hm

theorem releaseFind_books {request : ControlRequest} (h : Books s) (hr : s.rpcs r=.releaseChecked request) :
    Books (releaseFind r request s) := by
  have exists_ : r<s.rpcCount := born h (by rw [hr]; exact fun same => by cases same)
  have still : waiting (s.rpcs r)=0 := by rw [hr]; rfl
  unfold releaseFind
  split
  · exact books_answer h exists_ still _
  · next m hm =>
    refine books_setRpc h exists_ ?_ rfl still.symm
    intro i hi
    rw [List.mem_singleton.mp hi]
    exact selectedMember_exists h hm

theorem renewFind_books {request : RenewControlRequest} (h : Books s) (hr : s.rpcs r=.renewChecked request) :
    Books (renewFind r request s) := by
  have exists_ : r<s.rpcCount := born h (by rw [hr]; exact fun same => by cases same)
  have still : waiting (s.rpcs r)=0 := by rw [hr]; rfl
  unfold renewFind
  split
  · exact books_answer h exists_ still _
  · refine books_setRpc h exists_ ?_ rfl still.symm
    intro i hi
    obtain ⟨found,hf,same⟩ := List.mem_filterMap.mp hi
    obtain ⟨renewal,_,hs⟩ := List.mem_map.mp hf
    exact selectedMember_exists h (hs.trans same)

theorem controllerCredential_facts {c : Controller} {grant : Bytes} (h : controllerCredential c grant=true) :
    c.generation≠0 ∧ grant=c.grant := by
  unfold controllerCredential at h
  simp only [Bool.and_eq_true,decide_eq_true_eq] at h
  exact ⟨h.1.1,h.2⟩

theorem controllerGrant_facts {c : Controller} {grant : Bytes} (h : controllerGrant c grant=true) :
    c.retiring=false ∧ controllerCredential c grant=true := by
  unfold controllerGrant at h
  simpa using h

/-- A free member may change its owner while the controller stays. -/
theorem adopted_books (h : Books s) (hm : m<s.memberCount) (hr : s.controller.retiring=false)
    (hfree : (s.members m).controlOwner≠s.controller.generation →
      (s.members m).controlHeld=false ∧ (s.members m).potentialMotion=false) :
    Books (s.setMember m (adopted s.controller.generation)) := by
  by_cases owner : (s.members m).controlOwner=s.controller.generation
  · have keep : adopted s.controller.generation (s.members m)=s.members m := if_neg (not_not.mpr owner)
    refine books_setMember h hm ?_ ?_ ?_ <;> rw [keep]
    · exact ⟨rfl,rfl,rfl,rfl,rfl⟩
    · exact id
    · exact fun flight flies controls => ⟨flight,flies,controls⟩
  · obtain ⟨free,still⟩ := hfree owner
    refine books_change h hm (calls_same h rfl rfl) rfl (fun _ => id)
      (fun i hi => setMember_other s hi _) (sameController_refl _) (fun _ _ => Iff.rfl) ?_ ?_ ?_ ?_ ?_ ?_ ?_ ?_
    · rw [setMember_same]
      simp [adopted,owner,State.setMember,waiters]
    · simp [adopted,owner]
    · rw [setMember_same]
      simp [adopted,owner]
      exact h.listed m
    · simp [adopted,owner,still]
    · simp [adopted,owner]
    · rw [setMember_same,adopted,if_pos owner]
      exact h.counted m
    · rw [hr]
      exact fun never => by cases never
    · rw [setMember_same,adopted,if_pos owner]
      exact Or.inl

theorem takeControl_books {request : ControlRequest} (now : ℕ) (h : Books s) (hm : m<s.memberCount)
    (hborn : r<s.rpcCount) (hw : waiting (s.rpcs r)=0) (hr : s.controller.retiring=false)
    (howner : (s.members m).controlOwner=s.controller.generation) (hi : s.controller.generation≠0) :
    Books (takeControl r m request now s) := by
  unfold takeControl
  simp only []
  split
  · split
    · exact books_answer h hborn hw _
    · exact books_answer h hborn hw _
  · next free =>
    split
    · exact books_answer h hborn hw _
    · next fresh =>
      split
      · exact books_answer h hborn hw _
      · have taken : Books ((s.setMember m (heldBy request.generation now)).setHeld m) := by
          refine books_change h hm (calls_same h rfl rfl) rfl (fun _ => id)
            (fun i hi => setMember_other s hi _) ⟨rfl,rfl,rfl⟩ ?_ ?_ ?_ ?_ ?_ ?_ ?_ ?_ (fun _ => Or.inr hi)
          · intro i hi
            simp [State.setHeld,State.setController,State.setMember,hi]
          · simp [State.setHeld,State.setController,State.setMember,heldBy,waiters]
          · intro _
            simpa [State.setHeld,State.setController,State.setMember,heldBy] using howner
          · simp [State.setHeld,State.setController,State.setMember,heldBy]
          · simp [State.setHeld,State.setController,State.setMember,heldBy]
          · simp [State.setHeld,State.setController,State.setMember,heldBy]
            omega
          · simp only [State.setHeld,State.setController,State.setMember,heldBy,Function.update_self]
            exact h.counted m
          · rw [hr]
            exact fun never => by cases never
        exact books_answer taken hborn hw _

theorem acquireCommit_books {request : ControlRequest} (cancelled : Bool) (now : ℕ) (h : Books s)
    (hr : s.rpcs r=.acquireFound request m) : Books (acquireCommit r m request cancelled now s) := by
  have exists_ : r<s.rpcCount := born h (by rw [hr]; exact fun same => by cases same)
  have still : waiting (s.rpcs r)=0 := by rw [hr]; rfl
  have hm : m<s.memberCount := h.targeted r m (by rw [hr]; exact List.mem_singleton_self m)
  unfold acquireCommit
  simp only []
  split
  · exact books_answer h exists_ still _
  · next granted =>
    obtain ⟨current,credential⟩ := controllerGrant_facts (by simpa using granted)
    split
    · exact books_answer h exists_ still _
    · split
      · exact books_answer h exists_ still _
      · split
        · exact books_answer h exists_ still _
        · next free =>
          have adopt : Books (s.setMember m (adopted s.controller.generation)) := by
            refine adopted_books h hm current (fun other => ?_)
            push Not at free
            have facts := free other
            simpa using facts.2
          refine takeControl_books now adopt hm exists_ still current ?_ (controllerCredential_facts credential).1
          rw [setMember_same]
          unfold adopted
          split
          · rfl
          · next same => exact not_not.mp same

/-- A heartbeat keeps the books and the calls. -/
theorem renewOne_books (now : ℕ) (renewal : Option ℕ × ℕ) (h : Books s)
    (hm : ∀ m, renewal.1=some m → m<s.memberCount) :
    Books (renewOne now s renewal) ∧ (renewOne now s renewal).memberCount=s.memberCount ∧
      (renewOne now s renewal).rpcs=s.rpcs ∧ (renewOne now s renewal).rpcCount=s.rpcCount := by
  unfold renewOne
  split
  · exact ⟨h,rfl,rfl,rfl⟩
  · next m found =>
    split
    · refine ⟨books_setMember h (hm m found) ⟨rfl,rfl,rfl,rfl,rfl⟩ id ?_,rfl,rfl,rfl⟩
      exact fun flight flies controls => ⟨flight,flies,controls⟩
    · exact ⟨h,rfl,rfl,rfl⟩

theorem renewals_books (now : ℕ) (renewals : List (Option ℕ × ℕ)) (h : Books s)
    (hm : ∀ renewal∈renewals, ∀ m, renewal.1=some m → m<s.memberCount) :
    Books (renewals.foldl (renewOne now) s) ∧ (renewals.foldl (renewOne now) s).rpcs=s.rpcs ∧
      (renewals.foldl (renewOne now) s).rpcCount=s.rpcCount := by
  induction renewals generalizing s with
  | nil => exact ⟨h,rfl,rfl⟩
  | cons renewal rest ih =>
    obtain ⟨books,count,rpcs,rpcCount⟩ := renewOne_books now renewal h (hm renewal (List.mem_cons_self ..))
    have later : ∀ other∈rest, ∀ m, other.1=some m → m<(renewOne now s renewal).memberCount := by
      rw [count]
      exact fun other ho => hm other (List.mem_cons_of_mem _ ho)
    obtain ⟨all,rpcs',rpcCount'⟩ := ih books later
    exact ⟨all,rpcs'.trans rpcs,rpcCount'.trans rpcCount⟩

theorem renewCommit_books {request : RenewControlRequest} {members : List (Option ℕ)} (cancelled : Bool)
    (now : ℕ) (h : Books s) (hr : s.rpcs r=.renewFound request members) :
    Books (renewCommit r request members cancelled now s) := by
  have exists_ : r<s.rpcCount := born h (by rw [hr]; exact fun same => by cases same)
  have still : waiting (s.rpcs r)=0 := by rw [hr]; rfl
  unfold renewCommit
  split
  · exact books_answer h exists_ still _
  · split
    · exact books_answer h exists_ still _
    · have known : ∀ renewal∈members.zip (request.members.map Prod.snd), ∀ m, renewal.1=some m → m<s.memberCount := by
        intro renewal hin m found
        refine h.targeted r m ?_
        rw [hr]
        exact List.mem_filterMap.mpr ⟨renewal.1,(List.of_mem_zip hin).1,found⟩
      obtain ⟨books,rpcs,count⟩ := renewals_books now _ h known
      refine books_answer books ?_ ?_ _
      · rw [count]
        exact exists_
      · rw [rpcs]
        exact still

theorem releaseJoined_books {request : ControlRequest} (h : Books s) (hborn : r<s.rpcCount)
    (hw : waiting (s.rpcs r)=0) : Books (releaseJoined r m request s) :=
  books_answer (books_logged h _) hborn hw _

/-- A call that waits is counted. -/
theorem waiter_counted (h : Books s) (hborn : r<s.rpcCount) (hw : waiting (s.rpcs r)=1) :
    0<s.controller.work := by
  have single : waiting (s.rpcs r) ≤ waiters s :=
    Finset.single_le_sum (f := fun i => waiting (s.rpcs i)) (fun _ _ => Nat.zero_le _)
      (Finset.mem_range.mpr hborn)
  have total := h.work
  omega

/-- A step of a call that changes one member and the counter keeps the books. -/
theorem books_turn {change : Member → Member} {g : Controller → Controller} {rpc : Rpc} (h : Books s)
    (hm : m<s.memberCount) (hborn : r<s.rpcCount) (hc : SameController s.controller (g s.controller))
    (hl : (g s.controller).members=s.controller.members) (ht : ∀ i∈targets rpc, i<s.memberCount)
    (hwork : (g s.controller).work+(s.members m).controlWork+waiting (s.rpcs r)=
      s.controller.work+(change (s.members m)).controlWork+waiting rpc)
    (hn : retirement rpc=none)
    (hkept : ((change (s.members m)).controlHeld=true →
        (change (s.members m)).controlOwner=s.controller.generation) ∧
      (m∈s.controller.members ↔ (change (s.members m)).controlHeld=true) ∧
      ((change (s.members m)).potentialMotion=true → (change (s.members m)).controlHeld=true) ∧
      (change (s.members m)).retiredControlGeneration ≤ (change (s.members m)).controlGeneration)
    (hmoved : (∀ flight, (change (s.members m)).flight=some flight → flight.controlWork=true →
        0<(change (s.members m)).controlWork) ∧
      (s.controller.retiring=true → (change (s.members m)).controlOwner=(s.members m).controlOwner ∧
        ((change (s.members m)).potentialMotion=true → (s.members m).potentialMotion=true))) :
    Books (((s.setMember m change).setController g).setRpc r rpc) := by
  have member : (((s.setMember m change).setController g).setRpc r rpc).members m=change (s.members m) :=
    setMember_same s m change
  have moved : waiters (((s.setMember m change).setController g).setRpc r rpc)+waiting (s.rpcs r)=
      waiters s+waiting rpc := waiters_moved rfl rfl hborn
  have controller : (((s.setMember m change).setController g).setRpc r rpc).controller=g s.controller := rfl
  refine books_change h hm (calls_moved h rfl rfl hborn ht hn) rfl (fun _ => id)
    (fun i hi => setMember_other s hi change) hc (fun i _ => by rw [controller,hl]) ?_ ?_ ?_ ?_ ?_ ?_ ?_ ?_
  · rw [controller,member]
    omega
  · rw [member]
    exact hkept.1
  · rw [member,controller,hl]
    exact hkept.2.1
  · rw [member]
    exact hkept.2.2.1
  · rw [member]
    exact hkept.2.2.2
  · rw [member]
    exact hmoved.1
  · rw [member,controller,hl]
    exact fun retiring => ⟨(hmoved.2 retiring).1,(hmoved.2 retiring).2,id⟩
  · rw [member]
    exact fun held => Or.inl ((h.listed m).mp (hkept.2.1.mpr held))

theorem releaseEnter_books {request : ControlRequest} (cancelled : Bool) (now : ℕ) (h : Books s)
    (hr : s.rpcs r=.releaseFound request m) : Books (releaseEnter r m request cancelled now s) := by
  have exists_ : r<s.rpcCount := born h (by rw [hr]; exact fun same => by cases same)
  have still : waiting (s.rpcs r)=0 := by rw [hr]; rfl
  have hm : m<s.memberCount := h.targeted r m (by rw [hr]; exact List.mem_singleton_self m)
  unfold releaseEnter
  simp only []
  split
  · exact books_answer h exists_ still _
  · split
    · exact releaseJoined_books h exists_ still
    · split
      · exact books_answer h exists_ still _
      · split
        · exact books_answer h exists_ still _
        · split
          · exact books_answer h exists_ still _
          · refine books_turn h hm exists_ ⟨rfl,rfl,rfl⟩ rfl ?_ ?_ rfl ?_ ?_
            · intro i hi
              rw [List.mem_singleton.mp hi]
              exact hm
            · rw [still]
              simp only [waiting]
              omega
            · exact ⟨h.owner m,h.listed m,h.motion m,h.retired m⟩
            · exact ⟨h.counted m,fun _ => ⟨rfl,id⟩⟩

theorem leaveRelease_answer_books {request : ControlRequest} (h : Books s)
    (hr : s.rpcs r=.releaseWaiting request m) (reply : Reply) : Books ((leaveRelease m s).answer r reply) := by
  have exists_ : r<s.rpcCount := born h (by rw [hr]; exact fun same => by cases same)
  have hm : m<s.memberCount := h.targeted r m (by rw [hr]; exact List.mem_singleton_self m)
  have one : waiting (s.rpcs r)=1 := by rw [hr]; rfl
  refine books_turn h hm exists_ ⟨rfl,rfl,rfl⟩ rfl (fun _ hi => by cases hi) ?_ rfl ?_ ?_
  · have positive := waiter_counted h exists_ one
    rw [one]
    simp only [waiting]
    omega
  · exact ⟨h.owner m,h.listed m,h.motion m,h.retired m⟩
  · exact ⟨h.counted m,fun _ => ⟨rfl,id⟩⟩

theorem releaseWake_books {request : ControlRequest} (h : Books s) (hr : s.rpcs r=.releaseWaiting request m) :
    Books (releaseWake r m request s) := by
  have exists_ : r<s.rpcCount := born h (by rw [hr]; exact fun same => by cases same)
  have hm : m<s.memberCount := h.targeted r m (by rw [hr]; exact List.mem_singleton_self m)
  have one : waiting (s.rpcs r)=1 := by rw [hr]; rfl
  unfold releaseWake
  simp only []
  split
  · exact h
  · split
    · split
      · exact leaveRelease_answer_books h hr _
      · exact books_logged (leaveRelease_answer_books h hr .ok) _
    · have turned : Books (((s.setMember m (fun member => {member with controlFinishing := true})).setController id).setRpc r
          (.releaseNative request m (s.members m).potentialMotion)) := by
        refine books_turn h hm exists_ ⟨rfl,rfl,rfl⟩ rfl ?_ ?_ rfl ?_ ?_
        · intro i hi
          rw [List.mem_singleton.mp hi]
          exact hm
        · rw [one]
          rfl
        · exact ⟨h.owner m,h.listed m,h.motion m,h.retired m⟩
        · exact ⟨h.counted m,fun _ => ⟨rfl,id⟩⟩
      exact turned

theorem releaseTimeout_books {request : ControlRequest} (h : Books s)
    (hr : s.rpcs r=.releaseWaiting request m) : Books (releaseTimeout r m s) := by
  unfold releaseTimeout
  split
  · exact h
  · exact leaveRelease_answer_books h hr _

theorem releaseReturn_books {request : ControlRequest} {native : Bool} (success : Bool) (h : Books s)
    (hr : s.rpcs r=.releaseNative request m native) : Books (releaseReturn r m request success s) := by
  have exists_ : r<s.rpcCount := born h (by rw [hr]; exact fun same => by cases same)
  have hm : m<s.memberCount := h.targeted r m (by rw [hr]; exact List.mem_singleton_self m)
  have one : waiting (s.rpcs r)=1 := by rw [hr]; rfl
  have positive := waiter_counted h exists_ one
  unfold releaseReturn
  simp only []
  split
  · have back : Books (s.setMember m (fun member => {member with controlFinishing := false})) :=
      books_setMember h hm ⟨rfl,rfl,rfl,rfl,rfl⟩ id (fun flight flies controls => ⟨flight,flies,controls⟩)
    refine books_turn back hm exists_ ⟨rfl,rfl,rfl⟩ rfl (fun _ hi => by cases hi) ?_ rfl ?_ ?_
    · have same : waiting ((s.setMember m (fun member => {member with controlFinishing := false})).rpcs r)=1 := one
      have work : (s.setMember m (fun member => {member with controlFinishing := false})).controller.work=
        s.controller.work := rfl
      rw [same,work]
      simp only [waiting]
      omega
    · exact ⟨back.owner m,back.listed m,back.motion m,back.retired m⟩
    · exact ⟨back.counted m,fun _ => ⟨rfl,id⟩⟩
  · have moved : ∀ final : State, final.rpcs=Function.update s.rpcs r (.answered .ok) → final.rpcCount=s.rpcCount →
        waiters final+waiting (s.rpcs r)=waiters s+waiting (.answered .ok) :=
      fun final hrpcs hcount => waiters_moved hrpcs hcount exists_
    have freed : ∀ final : State, final.rpcs=Function.update s.rpcs r (.answered .ok) → final.rpcCount=s.rpcCount →
        final.memberCount=s.memberCount → final.table=s.table →
        (∀ i, i≠m → final.members i=s.members i) →
        final.members m={withoutControl (s.members m) with
          controlFinishing := false, controlRetiring := false, controlReleaseWaiting := false} →
        final.controller={s.controller with
          members := s.controller.members.filter (fun other => other≠m), work := s.controller.work-1} →
        Books final := by
      intro final hrpcs hrpcCount hcount htable hother hmember hcontroller
      refine books_change h hm (calls_moved h hrpcs hrpcCount exists_ (fun _ hi => by cases hi) rfl) hcount
        (fun entry he => htable ▸ he) hother ?_ ?_ ?_ ?_ ?_ ?_ ?_ ?_ ?_ ?_
      · rw [hcontroller]
        exact ⟨rfl,rfl,rfl⟩
      · intro i hi
        rw [hcontroller]
        simp [hi]
      · have count := moved final hrpcs hrpcCount
        rw [hcontroller,hmember]
        have none : waiting (.answered .ok)=0 := rfl
        rw [one,none] at count
        simp only [withoutControl]
        omega
      · rw [hmember]
        exact fun never => by cases never
      · rw [hcontroller,hmember]
        simp [withoutControl]
      · rw [hmember]
        exact fun never => by cases never
      · rw [hmember]
        simp [withoutControl]
      · rw [hmember]
        exact h.counted m
      · intro _
        rw [hmember,hcontroller]
        simp [withoutControl]
      · rw [hmember]
        exact fun never => by cases never
    refine freed _ rfl rfl rfl rfl ?_ ?_ rfl
    · intro i hi
      simp [releaseJoined,leaveRelease,State.answer,State.setRpc,State.logged,State.setController,State.eraseHeld,
        State.setMember,hi]
    · simp [releaseJoined,leaveRelease,State.answer,State.setRpc,State.logged,State.setController,State.eraseHeld,
        State.setMember,withoutControl]

end Control

section Commands

variable {s : State} {m r : ℕ}

/-- A change of one member and the counter outside the calls keeps the books. -/
theorem books_work {change : Member → Member} {g : Controller → Controller} (h : Books s)
    (hm : m<s.memberCount) (hc : SameController s.controller (g s.controller))
    (hl : (g s.controller).members=s.controller.members)
    (hwork : (g s.controller).work+(s.members m).controlWork=
      s.controller.work+(change (s.members m)).controlWork)
    (hkept : (change (s.members m)).controlOwner=(s.members m).controlOwner ∧
      (change (s.members m)).controlHeld=(s.members m).controlHeld ∧
      (change (s.members m)).controlGeneration=(s.members m).controlGeneration ∧
      (change (s.members m)).retiredControlGeneration=(s.members m).retiredControlGeneration)
    (hmotion : (change (s.members m)).potentialMotion=true → (s.members m).potentialMotion=true ∨
      (s.controller.retiring=false ∧ (s.members m).controlHeld=true))
    (hcounted : ∀ flight, (change (s.members m)).flight=some flight → flight.controlWork=true →
      0<(change (s.members m)).controlWork) :
    Books ((s.setMember m change).setController g) := by
  have member : ((s.setMember m change).setController g).members m=change (s.members m) :=
    setMember_same s m change
  have controller : ((s.setMember m change).setController g).controller=g s.controller := rfl
  have same : waiters ((s.setMember m change).setController g)=waiters s := rfl
  obtain ⟨owner,held,generation,retired⟩ := hkept
  refine books_change h hm (calls_same h rfl rfl) rfl (fun _ => id)
    (fun i hi => setMember_other s hi change) hc (fun i _ => by rw [controller,hl]) ?_ ?_ ?_ ?_ ?_ ?_ ?_ ?_
  · rw [controller,member,same]
    omega
  · rw [member,owner,held]
    exact h.owner m
  · rw [member,controller,hl,held]
    exact h.listed m
  · rw [member,held]
    intro moving
    rcases hmotion moving with before | ⟨_,holds⟩
    · exact h.motion m before
    · exact holds
  · rw [member,retired,generation]
    exact h.retired m
  · rw [member]
    exact hcounted
  · intro retiring
    rw [member,controller,hl]
    refine ⟨owner,fun moving => ?_,id⟩
    rcases hmotion moving with before | ⟨never,_⟩
    · exact before
    · rw [retiring] at never
      cases never
  · rw [member,held]
    exact Or.inl

/-- An admitted motion command is controlled by a controller that stays. -/
theorem admission_motion {c : Controller} {member : Member} {request : ExecuteRequest} {now : ℕ} {work : Bool}
    (h : admission c member request now=.admitted work)
    (hm : member.native.requiresControl request.operation=true) :
    work=true ∧ motionAllowed c member request now=true := by
  unfold admission at h
  simp only [hm,Bool.true_and,Bool.true_or] at h
  split at h
  · cases h
  · next allowed =>
    split at h
    · cases h
    · cases h
      exact ⟨rfl,by simpa using allowed⟩

theorem motionAllowed_facts {c : Controller} {member : Member} {request : ExecuteRequest} {now : ℕ}
    (h : motionAllowed c member request now=true) :
    c.retiring=false ∧ c.generation≠0 ∧ request.controllerGrant=c.grant ∧ member.controlHeld=true ∧
      member.controlRetiring=false ∧ member.closing=false ∧ member.controlOwner=c.generation ∧
      member.controlGeneration=request.controlGeneration := by
  unfold motionAllowed controllerGrant controllerCredential at h
  simp only [Bool.and_eq_true,Bool.not_eq_true',decide_eq_true_eq,ne_eq] at h
  tauto

theorem dispatch_books (m : ℕ) (request : ExecuteRequest) (now : ℕ) (h : Books s) :
    Books (dispatch m request now s) := by
  unfold dispatch
  split
  · exact h
  · next guard =>
    push Not at guard
    have hm : m<s.memberCount := by omega
    split
    · next work admitted =>
      refine books_work h hm ?_ ?_ ?_ ⟨rfl,rfl,rfl,rfl⟩ ?_ ?_
      · unfold countWork
        split <;> exact ⟨rfl,rfl,rfl⟩
      · unfold countWork
        split <;> rfl
      · cases work
        · rfl
        · simp only [flying,countWork,if_true]
          omega
      · intro moving
        simp only [flying,Bool.or_eq_true] at moving
        rcases moving with before | motion
        · exact Or.inl before
        · have facts := motionAllowed_facts (admission_motion admitted motion).2
          exact Or.inr ⟨facts.1,facts.2.2.2.1⟩
      · intro flight flies controls
        simp only [flying,Option.some.injEq] at flies
        rw [← flies] at controls
        simp only at controls
        simp only [flying,controls,if_true]
        omega
    · exact h

theorem execute_books (m : ℕ) (h : Books s) : Books (execute m s) := by
  unfold execute
  split
  · next flight flies =>
    split
    · exact h
    · have hm : m<s.memberCount := by
        by_contra missing
        rw [h.blank m (by omega)] at flies
        cases flies
      refine books_logged (books_setMember h hm ⟨rfl,rfl,rfl,rfl,rfl⟩ id ?_) _
      intro other same controls
      cases same
      exact ⟨flight,flies,controls⟩
  · exact h

theorem complete_books (m : ℕ) (succeeded : Bool) (h : Books s) : Books (complete m succeeded s) := by
  unfold complete
  split
  · next flight flies =>
    split
    · exact h
    · have hm : m<s.memberCount := by
        by_contra missing
        rw [h.blank m (by omega)] at flies
        cases flies
      refine books_work h hm ?_ ?_ ?_ ⟨rfl,rfl,rfl,rfl⟩ ?_ ?_
      · unfold discountWork
        split <;> exact ⟨rfl,rfl,rfl⟩
      · unfold discountWork
        split <;> rfl
      · cases hw : flight.controlWork with
        | false => simp [landed,discountWork,hw]
        | true =>
          have own := h.counted m flight flies hw
          have single : (s.members m).controlWork ≤ memberWork s :=
            Finset.single_le_sum (f := fun i => (s.members i).controlWork) (fun _ _ => Nat.zero_le _)
              (Finset.mem_range.mpr hm)
          have total := h.work
          simp only [landed,discountWork,hw,if_true]
          omega
      · intro moving
        simp only [landed,Bool.and_eq_true] at moving
        exact Or.inl moving.1
      · intro other same
        cases same
  · exact h

theorem watch_books (m now : ℕ) (h : Books s) : Books (watch m now s) := by
  unfold watch
  split
  · exact h
  · exact books_frame h (calls_same h rfl rfl) rfl rfl rfl (sameController_refl _) rfl rfl

theorem schedulerThrow_books (h : Books s) : Books (schedulerThrow s) := by
  unfold schedulerThrow
  split
  · exact books_frame h (calls_same h rfl rfl) rfl rfl rfl (sameController_refl _) rfl rfl
  · exact h

theorem coreSilent_books (released : Bool) (h : Books s) : Books (coreSilent released s) := by
  unfold coreSilent
  split
  · exact h
  · next m _ =>
    have back : Books {s with watching := none} :=
      books_frame h (calls_same h rfl rfl) rfl rfl rfl (sameController_refl _) rfl rfl
    simp only []
    split
    · by_cases hm : m<s.memberCount
      · exact books_setMember back hm ⟨rfl,rfl,rfl,rfl,rfl⟩ (fun never => by cases never)
          (fun flight flies controls => ⟨flight,flies,controls⟩)
      · have same : State.setMember {s with watching := none} m (fun member => {member with potentialMotion := false})=
            {s with watching := none} := by
          have blank := h.blank m (by omega)
          simp only [State.setMember,blank]
          rw [← blank,Function.update_eq_self]
        rw [same]
        exact back
    · exact back

/-- A smaller table keeps the books. -/
theorem books_table {table : List (String × ℕ)} (h : Books s) (ht : ∀ entry∈table, entry∈s.table) :
    Books {s with table := table} where
  work := h.work
  owner := h.owner
  listed := h.listed
  motion := h.motion
  retiring := h.retiring
  retired := h.retired
  blank := h.blank
  targeted := h.targeted
  tabled := fun entry he => h.tabled entry (ht entry he)
  unborn := h.unborn
  counted := h.counted
  retires := fun r request left controls hr =>
    let old := h.retires r request left controls hr
    ⟨old.retiring,old.finishing,old.current,old.complete,old.released⟩
  alone := h.alone
  installed := h.installed

theorem remove_books (m : ℕ) (h : Books s) : Books (remove m s) := by
  unfold remove
  split
  · exact h
  · next found =>
    have hm : m<s.memberCount := by
      obtain ⟨before,after,htable,_⟩ := List.lookup_eq_some_iff.mp (not_not.mp found)
      refine h.tabled ((s.members m).identity.robotId,m) ?_
      rw [htable]
      exact List.mem_append_right _ (List.mem_cons_self ..)
    have closed : Books (s.setMember m (fun member => {member with closing := true})) :=
      books_setMember h hm ⟨rfl,rfl,rfl,rfl,rfl⟩ id (fun flight flies controls => ⟨flight,flies,controls⟩)
    exact books_table closed (fun entry he => (List.mem_filter.mp he).1)

theorem stopMember_books (m : ℕ) (h : Books s) : Books (stopMember m s) := by
  unfold stopMember
  split
  · exact h
  · next guard =>
    have hm : m<s.memberCount := by
      simp only [Bool.or_eq_true,Bool.not_eq_true',decide_eq_true_eq,not_or,not_le] at guard
      exact guard.1.2
    have member : ((s.setMember m stoppedMember).eraseHeld m).members m=stoppedMember (s.members m) :=
      setMember_same s m stoppedMember
    have listed : ((s.setMember m stoppedMember).eraseHeld m).controller.members=
      s.controller.members.filter (fun other => other≠m) := rfl
    refine books_change h hm (calls_same h rfl rfl) rfl (fun _ => id)
      (fun i hi => setMember_other s hi stoppedMember) ⟨rfl,rfl,rfl⟩ ?_ ?_ ?_ ?_ ?_ ?_ ?_ ?_ ?_
    · intro i hi
      rw [listed]
      simp [hi]
    · rw [member]
      rfl
    · rw [member]
      exact fun never => by cases never
    · rw [member,listed]
      simp [stoppedMember,withoutControl]
    · rw [member]
      exact fun never => by cases never
    · rw [member]
      exact le_refl _
    · rw [member]
      exact h.counted m
    · intro _
      rw [member,listed]
      simp [stoppedMember,withoutControl]
    · rw [member]
      exact fun never => by cases never

theorem register_books (identity : MemberIdentity) (native : NativeRobot) (h : Books s) :
    Books (register identity native s) := by
  unfold register
  split
  · exact h
  · have new : ∀ i, i≠s.memberCount → Function.update s.members s.memberCount
        {identity := identity, native := native, closing := false} i=s.members i :=
      fun i hi => Function.update_of_ne hi ..
    have free : s.memberCount∉s.controller.members := by
      rw [h.listed,h.blank _ (le_refl _)]
      exact fun never => by cases never
    -- every field of the new member is as in a new object, so each part splits at it
    refine ⟨⟨?_,?_,?_,?_,h.retiring,?_⟩,?_,?_,?_,h.unborn,?_,?_,h.alone,?_⟩
    · have total : memberWork s=∑ i∈Finset.range s.memberCount,
          (Function.update s.members s.memberCount
            {identity := identity, native := native, closing := false} i).controlWork := by
        refine Finset.sum_congr rfl (fun i hi => ?_)
        have := Finset.mem_range.mp hi
        rw [new i (by omega)]
      have before := h.work
      have same : ∀ table members count, waiters {s with members := members, memberCount := count, table := table}=
        waiters s := fun _ _ _ => rfl
      simp only [memberWork,Finset.sum_range_succ,Function.update_self,same]
      omega
    · intro i
      by_cases hi : i=s.memberCount
      · rw [hi]
        simp
      · simp only [new i hi]
        exact h.owner i
    · intro i
      by_cases hi : i=s.memberCount
      · rw [hi]
        simp [free]
      · simp only [new i hi]
        exact h.listed i
    · intro i
      by_cases hi : i=s.memberCount
      · rw [hi]
        simp
      · simp only [new i hi]
        exact h.motion i
    · intro i
      by_cases hi : i=s.memberCount
      · rw [hi]
        simp
      · simp only [new i hi]
        exact h.retired i
    · intro i hi
      simp only at hi
      simp only [new i (by omega)]
      exact h.blank i (by omega)
    · intro r i hi
      have := h.targeted r i hi
      simp only
      omega
    · intro entry he
      rcases List.mem_cons.mp he with same | old
      · rw [same]
        exact Nat.lt_succ_self _
      · have := h.tabled entry old
        simp only
        omega
    · intro i flight
      by_cases hi : i=s.memberCount
      · rw [hi]
        simp
      · simp only [new i hi]
        exact h.counted i flight
    · intro r request left controls hr
      have old := h.retires r request left controls hr
      refine ⟨old.retiring,old.finishing,old.current,old.complete,?_⟩
      intro i hi hleft
      have := h.targeted r i (by
        cases hk : s.rpcs r <;> simp only [hk,retirement] at hr <;> cases hr <;> simp [targets,hi])
      simp only [new i (by omega)]
      exact old.released i hi hleft
    · intro i
      by_cases hi : i=s.memberCount
      · rw [hi]
        simp
      · simp only [new i hi]
        exact h.installed i

theorem schedulerExit_books (h : Books s) : Books (schedulerExit s) where
  work := h.work
  owner := h.owner
  listed := h.listed
  motion := h.motion
  retiring := h.retiring
  retired := h.retired
  blank := by
    intro m hm
    have same := h.blank m hm
    simp only [schedulerExit,same]
  targeted := h.targeted
  tabled := h.tabled
  unborn := h.unborn
  counted := fun _ _ never => by cases never
  retires := fun r request left controls hr =>
    let old := h.retires r request left controls hr
    ⟨old.retiring,old.finishing,old.current,old.complete,old.released⟩
  alone := h.alone
  installed := h.installed

end Commands

section Retirement

variable {s : State} {m r : ℕ}

/-- Without a controller no retirement releases members. -/
theorem no_retirement (h : Books s) (hf : s.controller.finishing=false) (i : ℕ) : retirement (s.rpcs i)=none := by
  cases hk : retirement (s.rpcs i) with
  | none => rfl
  | some found =>
    have old := h.retires i found.1 found.2.1 found.2.2 hk
    rw [old.finishing] at hf
    cases hf

/-- Without a controller nothing is being retired. -/
theorem idle_without (h : Books s) (hg : s.controller.generation=0) :
    s.controller.retiring=false ∧ s.controller.finishing=false := by
  constructor
  · by_contra busy
    exact h.retiring (Or.inl (by simpa using busy)) hg
  · by_contra busy
    exact h.retiring (Or.inr (by simpa using busy)) hg

/-- A change of the controller's generation and flags while nothing is held
and no retirement releases members keeps the books. -/
theorem books_replaced {c : Controller} (h : Books s) (hheld : ∀ i, (s.members i).controlHeld=false)
    (hnone : ∀ i, retirement (s.rpcs i)=none) (hw : c.work=s.controller.work)
    (hl : c.members=s.controller.members)
    (hr : c.retiring=true ∨ c.finishing=true → c.generation≠0) : Books {s with controller := c} where
  work := hw.trans h.work
  owner := fun i held => by
    rw [hheld i] at held
    cases held
  listed := fun i => by
    rw [← h.listed i]
    exact iff_of_eq (congrArg (i∈·) hl)
  motion := h.motion
  retiring := hr
  retired := h.retired
  blank := h.blank
  targeted := h.targeted
  tabled := h.tabled
  unborn := h.unborn
  counted := h.counted
  retires := fun i request left controls found => by
    rw [hnone i] at found
    cases found
  alone := h.alone
  installed := fun i held => by
    rw [hheld i] at held
    cases held

theorem installEnter_books (site : Site) (unixPeer : Bool) (request : InstallControllerRequest) (h : Books s) :
    Books (installEnter site unixPeer request s) := by
  have after : Books {s with controller := (installController site unixPeer request s.controller).2} := by
    unfold installController
    split
    · exact h
    · split
      · exact h
      · split
        · split
          · exact h
          · exact h
        · next free =>
          split
          · exact h
          · have vacant : s.controller.generation=0 := not_not.mp free
            have idle := idle_without h vacant
            refine books_replaced h ?_ (no_retirement h idle.2) rfl rfl ?_
            · intro i
              by_contra held
              exact h.installed i (by simpa using held) vacant
            · rw [idle.1,idle.2]
              exact fun never => by rcases never with never | never <;> cases never
  unfold installEnter
  simp only []
  split
  · exact books_refused (books_logged after _) _
  · exact books_refused after _

/-- A step of a retirement that changes the flags of the controller keeps the books. -/
theorem books_retiring {rpc : Rpc} {g : Controller → Controller} (h : Books s) (hborn : r<s.rpcCount)
    (hw : waiting rpc=waiting (s.rpcs r)) (ht : ∀ i∈targets rpc, i<s.memberCount)
    (hg : (g s.controller).generation=s.controller.generation)
    (hl : (g s.controller).members=s.controller.members) (hwork : (g s.controller).work=s.controller.work)
    (hflags : (g s.controller).retiring=true ∨ (g s.controller).finishing=true → s.controller.generation≠0)
    (hother : ∀ i, i≠r → retirement (s.rpcs i)=none)
    (hretires : ∀ request left controls, retirement rpc=some (request,left,controls) →
      Retires ((s.setController g).setRpc r rpc) request left controls) :
    Books ((s.setController g).setRpc r rpc) := by
  have moved : waiters ((s.setController g).setRpc r rpc)+waiting (s.rpcs r)=waiters s+waiting rpc :=
    waiters_moved rfl rfl hborn
  have controller : ((s.setController g).setRpc r rpc).controller=g s.controller := rfl
  have called : ((s.setController g).setRpc r rpc).rpcs r=rpc := setRpc_same _ r rpc
  have others : ∀ i, i≠r → ((s.setController g).setRpc r rpc).rpcs i=s.rpcs i :=
    fun i hi => setRpc_other _ hi rpc
  refine ⟨⟨?_,?_,?_,h.motion,?_,h.retired⟩,h.blank,?_,h.tabled,?_,h.counted,?_,?_,?_⟩
  · have before := h.work
    have members : memberWork ((s.setController g).setRpc r rpc)=memberWork s := rfl
    rw [controller,members,hwork]
    omega
  · rw [controller,hg]
    exact h.owner
  · rw [controller,hl]
    exact h.listed
  · rw [controller,hg]
    exact hflags
  · intro i j hj
    by_cases hi : i=r
    · rw [hi,called] at hj
      exact ht j hj
    · rw [others i hi] at hj
      exact h.targeted i j hj
  · intro i hi
    have later : s.rpcCount ≤ i := hi
    rw [others i (by omega)]
    exact h.unborn i later
  · intro i request left controls found
    by_cases hi : i=r
    · rw [hi,called] at found
      exact hretires request left controls found
    · rw [others i hi,hother i hi] at found
      cases found
  · intro i j hi hj
    have only : ∀ k, retirement (((s.setController g).setRpc r rpc).rpcs k)≠none → k=r := by
      intro k hk
      by_contra hne
      rw [others k hne] at hk
      exact hk (hother k hne)
    rw [only i hi,only j hj]
  · rw [controller,hg]
    exact h.installed

/-- The other calls during a retirement that releases members release none. -/
theorem retirement_alone (h : Books s) (hr : retirement (s.rpcs r)≠none) (i : ℕ) (hi : i≠r) :
    retirement (s.rpcs i)=none := by
  by_contra other
  exact hi (h.alone i r other hr)

theorem retireJoined_books {request : RetireControllerRequest} (h : Books s) (hborn : r<s.rpcCount)
    (hw : waiting (s.rpcs r)=0) : Books (retireJoined r request s) :=
  books_answer (books_logged h _) hborn hw _

/-- A retirement that has to wait is about the installed controller. -/
theorem retireController_waits {site : Site} {unixPeer : Bool} {request : RetireControllerRequest} {c : Controller}
    (h : (retireController site unixPeer request c).1=none) :
    (retireController site unixPeer request c).2=markControlDown {c with retiring := true} ∧ c.generation≠0 := by
  unfold retireController at h ⊢
  split at h
  · cases h
  · split at h
    · cases h
    · split at h
      · cases h
      · split at h
        · cases h
        · next valid _ same =>
          push Not at valid same
          simp_all

theorem retireEnter_books (site : Site) (unixPeer : Bool) (request : RetireControllerRequest) (h : Books s) :
    Books (retireEnter site unixPeer request s) := by
  unfold retireEnter
  simp only []
  split
  · next waits =>
    have entered := retireController_waits waits
    have retiring : Books (s.setController fun c => markControlDown {c with retiring := true}) :=
      ⟨⟨h.work,h.owner,h.listed,h.motion,fun _ => entered.2,h.retired⟩,h.blank,h.targeted,h.tabled,h.unborn,
        h.counted,fun i found left controls hr =>
          let old := h.retires i found left controls hr
          ⟨rfl,old.finishing,old.current,old.complete,old.released⟩,h.alone,h.installed⟩
    rw [entered.1]
    exact books_addRpc retiring (fun _ hi => by cases hi) rfl rfl
  · exact books_refused (books_logged h _) _
  · exact books_refused h _

theorem retireWake_books {request : RetireControllerRequest} (h : Books s)
    (hr : s.rpcs r=.retireWaiting request) : Books (retireWake r request s) := by
  have exists_ : r<s.rpcCount := born h (by rw [hr]; exact fun same => by cases same)
  have still : waiting (s.rpcs r)=0 := by rw [hr]; rfl
  unfold retireWake
  simp only []
  split
  · exact h
  · next wakes =>
    split
    · split
      · exact retireJoined_books h exists_ still
      · exact books_answer h exists_ still _
    · next installed =>
      split
      · next same =>
        have unfinished : s.controller.finishing=false := by
          unfold retireControllerWakes at wakes
          simp [installed] at wakes
          exact wakes.2
        refine books_retiring h exists_ ?_ ?_ rfl rfl rfl (fun _ => installed)
          (fun i _ => no_retirement h unfinished i) ?_
        · rw [still]
          rfl
        · intro i hi
          have held : i∈s.controller.members := by simpa [targets] using hi
          by_contra missing
          rw [h.listed,h.blank i (by omega)] at held
          cases held
        · intro found left controls same'
          cases same'
          exact ⟨same.2.2,rfl,same.1.symm,fun _ => id,fun i hi hleft => absurd hi hleft⟩
      · exact books_answer h exists_ still _

theorem retireTimeout_books {request : RetireControllerRequest} (h : Books s)
    (hr : s.rpcs r=.retireWaiting request) : Books (retireTimeout r s) := by
  have exists_ : r<s.rpcCount := born h (by rw [hr]; exact fun same => by cases same)
  have still : waiting (s.rpcs r)=0 := by rw [hr]; rfl
  unfold retireTimeout
  split
  · exact h
  · exact books_answer h exists_ still _

theorem retireMember_books {request : RetireControllerRequest} {left controls : List ℕ} (h : Books s)
    (hr : s.rpcs r=.retireMembers request (m::left) controls) :
    Books (retireMember r m request left controls s) := by
  have exists_ : r<s.rpcCount := born h (by rw [hr]; exact fun same => by cases same)
  have still : waiting (s.rpcs r)=0 := by rw [hr]; rfl
  have old : Retires s request (m::left) controls := h.retires r _ _ _ (by rw [hr]; rfl)
  have others := retirement_alone h (r := r) (by rw [hr]; exact fun never => by cases never)
  have known : ∀ i∈m::left ++ controls, i<s.memberCount := fun i hi => h.targeted r i (by rw [hr]; exact hi)
  unfold retireMember
  simp only []
  split
  · exact h
  · split
    · next passed =>
      have next_ : Books ((s.setController id).setRpc r (.retireMembers request left controls)) := by
        refine books_retiring h exists_ (by rw [still]; rfl)
          (fun i hi => known i (by simpa using Or.inr (List.mem_append.mp hi))) rfl rfl rfl h.retiring others ?_
        intro found rest all same
        cases same
        refine ⟨old.retiring,old.finishing,old.current,old.complete,?_⟩
        intro i hi hleft howner
        by_cases him : i=m
        · rcases passed with other | stands
          · rw [him] at howner
            exact absurd howner other
          · rw [him]
            exact stands
        · exact old.released i hi (by simp [him,hleft]) howner
      exact next_
    · have entered : Books (s.setMember m (fun member => {member with controlFinishing := true})) :=
        books_setMember h (known m (by simp)) ⟨rfl,rfl,rfl,rfl,rfl⟩ id
          (fun flight flies controls => ⟨flight,flies,controls⟩)
      have next_ : Books (((s.setMember m (fun member => {member with controlFinishing := true})).setController id).setRpc r
          (.retireNative request m left controls)) := by
        refine books_retiring entered exists_ ?_ known rfl rfl rfl h.retiring others ?_
        · exact still.symm
        · intro found rest all same
          cases same
          have again := entered.retires r request (m::left) controls (by
            have : (s.setMember m (fun member => {member with controlFinishing := true})).rpcs r=s.rpcs r := rfl
            rw [this,hr]
            rfl)
          exact ⟨again.retiring,again.finishing,again.current,again.complete,again.released⟩
      exact next_

theorem retireAbandoned_books (h : Books s) (hr : retirement (s.rpcs r)≠none) (reply : Reply) :
    Books (retireAbandoned r reply s) := by
  have exists_ : r<s.rpcCount := born h (fun same => hr (by rw [same]; rfl))
  have still : waiting (s.rpcs r)=0 := by
    cases hk : s.rpcs r <;> simp only [hk,retirement] at hr <;> first | rfl | exact absurd rfl hr
  refine books_retiring h exists_ still.symm (fun _ hi => by cases hi) rfl rfl rfl ?_ (retirement_alone h hr)
    (fun _ _ _ never => by cases never)
  intro flags
  rcases flags with retiring | never
  · exact h.retiring (Or.inl retiring)
  · cases never

theorem retireMemberTimeout_books {request : RetireControllerRequest} {left controls : List ℕ} (h : Books s)
    (hr : s.rpcs r=.retireMembers request left controls) : Books (retireMemberTimeout r request left s) := by
  have releases : retirement (s.rpcs r)≠none := by
    rw [hr]
    exact fun never => by cases never
  unfold retireMemberTimeout
  split
  · split
    · exact h
    · exact retireAbandoned_books h releases _
  · split
    · exact h
    · exact retireAbandoned_books h releases _

theorem retireReturn_books {request : RetireControllerRequest} {left controls : List ℕ} (success : Bool)
    (h : Books s) (hr : s.rpcs r=.retireNative request m left controls) :
    Books (retireReturn r m request left controls success s) := by
  have exists_ : r<s.rpcCount := born h (by rw [hr]; exact fun same => by cases same)
  have releases : retirement (s.rpcs r)≠none := by
    rw [hr]
    exact fun never => by cases never
  have hm : m<s.memberCount := h.targeted r m (by rw [hr]; exact List.mem_append_left _ (List.mem_cons_self ..))
  have back : Books (s.setMember m (fun member => {member with controlFinishing := false})) :=
    books_setMember h hm ⟨rfl,rfl,rfl,rfl,rfl⟩ id (fun flight flies controls => ⟨flight,flies,controls⟩)
  unfold retireReturn
  simp only []
  split
  · exact retireAbandoned_books back releases _
  · have stopped : Books ((s.setMember m (fun member => {member with controlFinishing := false})).setMember m
        (fun member => {member with potentialMotion := false})) :=
      books_setMember back hm ⟨rfl,rfl,rfl,rfl,rfl⟩ (fun never => by cases never)
        (fun flight flies controls => ⟨flight,flies,controls⟩)
    have old := stopped.retires r request (m::left) controls (congrArg retirement hr)
    have next_ : Books ((((s.setMember m (fun member => {member with controlFinishing := false})).setMember m
        (fun member => {member with potentialMotion := false})).setController id).setRpc r
          (.retireMembers request left controls)) := by
      refine books_retiring stopped exists_ ?_ ?_ rfl rfl rfl h.retiring (retirement_alone stopped releases) ?_
      · exact (congrArg waiting hr).symm
      · intro i hi
        refine h.targeted r i ?_
        rw [hr]
        simpa [targets] using Or.inr (List.mem_append.mp hi)
      · intro found rest all same
        cases same
        refine ⟨old.retiring,old.finishing,old.current,old.complete,?_⟩
        intro i hi hleft howner
        by_cases him : i=m
        · rw [him]
          simp [State.setRpc,State.setController,State.setMember]
        · exact old.released i hi (by simp [him,hleft]) howner
    exact next_

/-- Member after the retirement of its controller. -/
def retiredMember (now : ℕ) (member : Member) : Member :=
  {member with
    controlHeld := false, controlRetiring := false,
    retiredControlGeneration := member.controlGeneration, silentSince := now}

/-- The members after the last section of a retirement. -/
theorem retireOne_fold (generation now : ℕ) (controls : List ℕ) :
    ∀ s : State, ∃ members : ℕ → Member, ∃ list : List ℕ,
      controls.foldl (retireOne generation now) s=
        {s with members := members, controller := {s.controller with members := list}} ∧
      (∀ i, members i=s.members i ∨
        ((s.members i).controlOwner=generation ∧ members i=retiredMember now (s.members i))) ∧
      (∀ i∈controls, (s.members i).controlOwner=generation → (members i).controlHeld=false) ∧
      (∀ i, i∈list ↔ i∈s.controller.members ∧ ¬(i∈controls ∧ (s.members i).controlOwner=generation)) := by
  induction controls with
  | nil =>
    intro s
    refine ⟨s.members,s.controller.members,rfl,fun _ => Or.inl rfl,?_,?_⟩
    · intro i hi
      cases hi
    · intro i
      simp
  | cons m rest ih =>
    intro s
    by_cases owner : (s.members m).controlOwner=generation
    · obtain ⟨members,list,fold,each,held,listed⟩ := ih (retireOne generation now s m)
      have one : retireOne generation now s m=(s.setMember m (retiredMember now)).eraseHeld m :=
        if_neg (not_not.mpr owner)
      have same : (retireOne generation now s m).members m=retiredMember now (s.members m) := by
        rw [one]
        exact setMember_same s m _
      have other : ∀ i, i≠m → (retireOne generation now s m).members i=s.members i := by
        intro i hi
        rw [one]
        exact setMember_other s hi _
      have owners : ∀ i, ((retireOne generation now s m).members i).controlOwner=(s.members i).controlOwner := by
        intro i
        by_cases hi : i=m
        · rw [hi,same]
          rfl
        · rw [other i hi]
      refine ⟨members,list,?_,?_,?_,?_⟩
      · rw [List.foldl_cons,fold,one]
        rfl
      · intro i
        by_cases hi : i=m
        · refine Or.inr ⟨hi ▸ owner,?_⟩
          rcases each i with keep | ⟨_,again⟩
          · rw [keep,hi,same]
          · rw [again,hi,same]
            rfl
        · rw [← other i hi]
          exact each i
      · intro i hi howner
        rw [← owners i] at howner
        by_cases him : i=m
        · rcases each i with keep | ⟨_,again⟩
          · rw [keep,him,same]
            rfl
          · rw [again]
            rfl
        · exact held i (by simpa [him] using hi) howner
      · intro i
        rw [listed,owners i,one]
        by_cases him : i=m
        · rw [him]
          simp [State.eraseHeld,State.setController,owner]
        · simp [State.eraseHeld,State.setController,State.setMember,him]
    · obtain ⟨members,list,fold,each,held,listed⟩ := ih s
      have one : retireOne generation now s m=s := if_pos owner
      refine ⟨members,list,?_,each,?_,?_⟩
      · rw [List.foldl_cons,one,fold]
      · intro i hi howner
        by_cases him : i=m
        · rw [him] at howner
          exact absurd howner owner
        · exact held i (by simpa [him] using hi) howner
      · intro i
        rw [listed]
        by_cases him : i=m
        · rw [him]
          simp [owner]
        · simp [him]

theorem retireFinish_books {request : RetireControllerRequest} {controls : List ℕ} (now : ℕ) (h : Books s)
    (hr : s.rpcs r=.retireMembers request [] controls) : Books (retireFinish r request controls now s) := by
  have exists_ : r<s.rpcCount := born h (by rw [hr]; exact fun same => by cases same)
  have still : waiting (s.rpcs r)=0 := by rw [hr]; rfl
  have old : Retires s request [] controls := h.retires r _ _ _ (by rw [hr]; rfl)
  have others := retirement_alone h (r := r) (by rw [hr]; exact fun never => by cases never)
  unfold retireFinish
  split
  · exact h
  · obtain ⟨members,list,fold,each,held,listed⟩ := retireOne_fold request.generation now controls s
    -- every held member is one of the retirement's, so nothing is held any more
    have free : ∀ i, (members i).controlHeld=false := by
      intro i
      by_cases before : (s.members i).controlHeld=true
      · have owner := (h.owner i before).trans old.current
        exact held i (old.complete i ((h.listed i).mpr before)) owner
      · rcases each i with keep | ⟨_,gone⟩
        · rw [keep]
          simpa using before
        · rw [gone]
          rfl
    have still_ : ∀ i, (members i).potentialMotion=false := by
      intro i
      have same : (members i).potentialMotion=(s.members i).potentialMotion := by
        rcases each i with keep | ⟨_,gone⟩
        · rw [keep]
        · rw [gone]
          rfl
      rw [same]
      by_contra moving
      have before := h.motion i (by simpa using moving)
      have owner := (h.owner i before).trans old.current
      exact moving (old.released i (old.complete i ((h.listed i).mpr before)) (List.not_mem_nil) owner)
    have empty : ∀ i, i∉list := by
      intro i hi
      obtain ⟨mem,not⟩ := (listed i).mp hi
      exact not ⟨old.complete i mem,(h.owner i ((h.listed i).mp mem)).trans old.current⟩
    have work : ∀ i, (members i).controlWork=(s.members i).controlWork := by
      intro i
      rcases each i with keep | ⟨_,gone⟩
      · rw [keep]
      · rw [gone]
        rfl
    rw [fold]
    -- the call is answered first, so that no retirement is left to speak about
    have finished : ∀ final : State, final.members=members → final.memberCount=s.memberCount →
        final.table=s.table → final.controller=retiredController {s.controller with members := list} →
        final.rpcs=Function.update s.rpcs r (.answered .ok) → final.rpcCount=s.rpcCount → Books final := by
      intro final hmembers hcount htable hcontroller hrpcs hrpcCount
      have calls : Calls s final := calls_moved h hrpcs hrpcCount exists_ (fun _ hi => by cases hi) rfl
      have none_ : ∀ i, retirement (final.rpcs i)=none := by
        intro i
        rw [hrpcs]
        by_cases hi : i=r
        · rw [hi,Function.update_self]
          rfl
        · rw [Function.update_of_ne hi]
          exact others i hi
      refine ⟨⟨?_,?_,?_,?_,?_,?_⟩,?_,?_,?_,calls.unborn,?_,?_,?_,?_⟩
      · have moved : waiters final+waiting (s.rpcs r)=waiters s+waiting (.answered .ok) :=
          waiters_moved hrpcs hrpcCount exists_
        have zero : waiting (.answered .ok)=0 := rfl
        have before := h.work
        have total : memberWork final=memberWork s := by
          unfold memberWork
          rw [hcount,hmembers]
          exact Finset.sum_congr rfl (fun i _ => work i)
        rw [hcontroller]
        simp only [retiredController]
        omega
      · intro i now_
        rw [hmembers,free i] at now_
        cases now_
      · intro i
        rw [hmembers,free i,hcontroller]
        exact ⟨fun mem => absurd mem (empty i),fun never => by cases never⟩
      · intro i moving
        rw [hmembers,still_ i] at moving
        cases moving
      · rw [hcontroller]
        exact fun never => by rcases never with never | never <;> cases never
      · intro i
        rw [hmembers]
        rcases each i with keep | ⟨_,gone⟩
        · rw [keep]
          exact h.retired i
        · rw [gone]
          exact le_refl _
      · intro i hi
        rw [hcount] at hi
        rw [hmembers]
        rcases each i with keep | ⟨owner,_⟩
        · rw [keep]
          exact h.blank i hi
        · rw [h.blank i hi,← old.current] at owner
          exact absurd owner.symm (h.retiring (Or.inl old.retiring))
      · rw [hcount]
        exact calls.targeted
      · rw [htable,hcount]
        exact h.tabled
      · intro i flight flies controls_
        rw [hmembers] at flies ⊢
        rw [work i]
        refine h.counted i flight ?_ controls_
        rcases each i with keep | ⟨_,gone⟩
        · rwa [keep] at flies
        · rwa [gone] at flies
      · intro i found left all same
        rw [none_ i] at same
        cases same
      · intro i j hi
        exact absurd (none_ i) hi
      · intro i now_
        rw [hmembers,free i] at now_
        cases now_
    exact finished _ rfl rfl rfl rfl rfl rfl

theorem proceed_books (r : ℕ) (cancelled : Bool) (now : ℕ) (h : Books s) : Books (proceed r cancelled now s) := by
  unfold proceed
  split
  · next hr => exact acquireFind_books h hr
  · next hr => exact acquireCommit_books cancelled now h hr
  · next hr => exact renewFind_books h hr
  · next hr => exact renewCommit_books cancelled now h hr
  · next hr => exact releaseFind_books h hr
  · next hr => exact releaseEnter_books cancelled now h hr
  · next hr => exact releaseWake_books h hr
  · next hr => exact retireWake_books h hr
  · next hr => exact retireMember_books h hr
  · next hr => exact retireFinish_books now h hr
  · next hr => exact retireStatusWake_books h hr
  · exact h
  · exact h
  · exact h

theorem returned_books (r : ℕ) (success : Bool) (h : Books s) : Books (returned r success s) := by
  unfold returned
  split
  · next hr => exact releaseReturn_books _ h hr
  · next hr => exact retireReturn_books success h hr
  · exact h

theorem timeout_books (r : ℕ) (h : Books s) : Books (timeout r s) := by
  unfold timeout
  split
  · next hr => exact releaseTimeout_books h hr
  · next hr => exact retireTimeout_books h hr
  · next hr => exact retireMemberTimeout_books h hr
  · next hr => exact retireStatusTimeout_books h hr
  · exact h

end Retirement

section Runs

/-- A new server keeps the books. -/
theorem initial_books : Books {} where
  work := by simp [memberWork,waiters]
  owner := fun _ never => by cases never
  listed := fun _ => by simp
  motion := fun _ never => by cases never
  retiring := fun never => by rcases never with never | never <;> cases never
  retired := fun _ => le_refl _
  blank := fun _ _ => rfl
  targeted := fun _ _ never => by cases never
  tabled := fun _ never => by cases never
  unborn := fun _ _ => rfl
  counted := fun _ _ never => by cases never
  retires := fun _ _ _ _ never => by cases never
  alone := fun _ _ never => absurd rfl never
  installed := fun _ never => by cases never

/-- Every step keeps the books. -/
theorem step_books (site : Site) (s : State) (input : Step) (h : Books s) : Books (step site s input) := by
  cases input with
  | install unixPeer request => exact installEnter_books site unixPeer request h
  | accept stream control owner => exact books_slots h (slotsOnly_acceptStatus stream control owner _)
  | ready stream => exact books_slots h (slotsOnly_readyStatus stream _)
  | done stream => exact books_slots h (slotsOnly_doneStatus stream _)
  | ended stream => exact books_slots h (slotsOnly_releaseStatus stream _)
  | down => exact books_slots h (slotsOnly_markControlDown _)
  | retireStatus request => exact retireStatusEnter_books request h
  | acquire request cancelled => exact acquireCheck_books request cancelled h
  | renew request cancelled now => exact renewCheck_books request cancelled now h
  | release request => exact releaseCheck_books request h
  | retire unixPeer request => exact retireEnter_books site unixPeer request h
  | proceed r cancelled now => exact proceed_books r cancelled now h
  | returned r success => exact returned_books r success h
  | timeout r => exact timeout_books r h
  | dispatch m request now => exact dispatch_books m request now h
  | execute m => exact execute_books m h
  | complete m succeeded => exact complete_books m succeeded h
  | watch m now => exact watch_books m now h
  | coreSilent released => exact coreSilent_books released h
  | throw => exact schedulerThrow_books h
  | exit => exact schedulerExit_books h
  | register identity native => exact register_books identity native h
  | remove m => exact remove_books m h
  | stop m => exact stopMember_books m h

/-- Every reachable state keeps the books. -/
theorem run_books (site : Site) (steps : List Step) : Books (run (step site) {} steps) :=
  run_invariant (fun s input inv _ => step_books site s input inv) initial_books (along_true _ _ _)

/-- In every reachable state the bookkeeping of control is right. -/
theorem run_bookkeeping (site : Site) (steps : List Step) : Bookkeeping (run (step site) {} steps) :=
  (run_books site steps).toBookkeeping

end Runs

end Ros1Adapter.RobotBookkeeping
