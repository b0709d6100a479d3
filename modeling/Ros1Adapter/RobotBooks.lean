import Mathlib.Algebra.Order.BigOperators.Group.Finset
import Ros1Adapter.RobotControl

/-!
# Books of robot control

The counters and flags of control are kept by hand in several functions, some
of which drop the mutex half way. The books say what holds between the
sections: the work counter of the controller is the work of all members and of
the waiting releases, the controlled members are those whose control is held
by the current controller, and only a held member may be moving. A change of
one member or of one call keeps them under conditions on that member alone.
-/

namespace Ros1Adapter.RobotBooks

open RobotControl ActionRules

section Counting

/-- Two sums over a range differ where their terms differ. -/
theorem sum_range_change {n i : ℕ} {f g : ℕ → ℕ} (hi : i<n) (h : ∀ j, j≠i → f j=g j) :
    ∑ j∈Finset.range n, f j+g i=∑ j∈Finset.range n, g j+f i := by
  have mem : i∈Finset.range n := Finset.mem_range.mpr hi
  have rest : ∑ j∈(Finset.range n).erase i, f j=∑ j∈(Finset.range n).erase i, g j :=
    Finset.sum_congr rfl (fun j hj => h j (Finset.ne_of_mem_erase hj))
  have left := Finset.add_sum_erase (Finset.range n) f mem
  have right := Finset.add_sum_erase (Finset.range n) g mem
  omega

/-- Whether a control call is a release that waits, as a number. -/
def waiting : Rpc → ℕ
  | .releaseWaiting _ _ => 1
  | .releaseNative _ _ _ => 1
  | _ => 0

/-- Releases that wait. -/
def waiters (s : State) : ℕ := ∑ r∈Finset.range s.rpcCount, waiting (s.rpcs r)

/-- Control work of all members. -/
def memberWork (s : State) : ℕ := ∑ m∈Finset.range s.memberCount, (s.members m).controlWork

/-- The bookkeeping of control. -/
structure Bookkeeping (s : State) : Prop where
  /-- The work counter is the work of the members and the waiting releases. -/
  work : s.controller.work=memberWork s+waiters s
  /-- A held control belongs to the current controller. -/
  owner : ∀ m, (s.members m).controlHeld=true → (s.members m).controlOwner=s.controller.generation
  /-- The controlled members are those with a held control. -/
  listed : ∀ m, m∈s.controller.members ↔ (s.members m).controlHeld=true
  /-- Only a held member may be moving. -/
  motion : ∀ m, (s.members m).potentialMotion=true → (s.members m).controlHeld=true
  /-- Only an installed controller is being retired. -/
  retiring : s.controller.retiring=true ∨ s.controller.finishing=true → s.controller.generation≠0
  /-- A retired generation is not ahead of the current one. -/
  retired : ∀ m, (s.members m).retiredControlGeneration ≤ (s.members m).controlGeneration

end Counting

section Calls

/-- Members that a control call refers to. -/
def targets : Rpc → List ℕ
  | .acquireFound _ m => [m]
  | .renewFound _ members => members.filterMap id
  | .releaseFound _ m => [m]
  | .releaseWaiting _ m => [m]
  | .releaseNative _ m _ => [m]
  | .retireMembers _ left controls => left ++ controls
  | .retireNative _ m left controls => m::left ++ controls
  | _ => []

/-- What a retirement that releases members is about: its request, the members
that are not released yet and all members. -/
def retirement : Rpc → Option (RetireControllerRequest × List ℕ × List ℕ)
  | .retireMembers request left controls => some (request,left,controls)
  | .retireNative request m left controls => some (request,m::left,controls)
  | _ => none

/-- A retirement that releases members owns the controller, and the members it
is done with do not move. -/
structure Retires (s : State) (request : RetireControllerRequest) (left controls : List ℕ) : Prop where
  /-- The controller is being retired. -/
  retiring : s.controller.retiring=true
  /-- The retirement releases the members. -/
  finishing : s.controller.finishing=true
  /-- It is about the current controller. -/
  current : s.controller.generation=request.generation
  /-- It knows every controlled member. -/
  complete : ∀ m∈s.controller.members, m∈controls
  /-- A member it is done with does not move. -/
  released : ∀ m∈controls, m∉left → (s.members m).controlOwner=request.generation →
    (s.members m).potentialMotion=false

/-- What every reachable state keeps besides the bookkeeping. -/
structure Books (s : State) : Prop extends Bookkeeping s where
  /-- A member object that does not exist yet is new. -/
  blank : ∀ m, s.memberCount ≤ m → s.members m={}
  /-- Calls refer to existing members. -/
  targeted : ∀ r m, m∈targets (s.rpcs r) → m<s.memberCount
  /-- The table refers to existing members. -/
  tabled : ∀ entry∈s.table, entry.2<s.memberCount
  /-- A call that does not exist yet has not begun. -/
  unborn : ∀ r, s.rpcCount ≤ r → s.rpcs r=.answered .ok
  /-- Control work in flight is counted. -/
  counted : ∀ m flight, (s.members m).flight=some flight → flight.controlWork=true →
    0<(s.members m).controlWork
  /-- A retirement that releases members owns the controller. -/
  retires : ∀ r request left controls, retirement (s.rpcs r)=some (request,left,controls) →
    Retires s request left controls
  /-- There is one such retirement. -/
  alone : ∀ r r', retirement (s.rpcs r)≠none → retirement (s.rpcs r')≠none → r=r'
  /-- Only an installed controller holds control. -/
  installed : ∀ m, (s.members m).controlHeld=true → s.controller.generation≠0

end Calls

section Changes

variable {s s' : State} {m r : ℕ}

@[simp] theorem setMember_same (s : State) (m : ℕ) (change : Member → Member) :
    (s.setMember m change).members m=change (s.members m) := Function.update_self ..

theorem setMember_other (s : State) {m i : ℕ} (h : i≠m) (change : Member → Member) :
    (s.setMember m change).members i=s.members i := Function.update_of_ne h ..

@[simp] theorem setRpc_same (s : State) (r : ℕ) (rpc : Rpc) : (s.setRpc r rpc).rpcs r=rpc := Function.update_self ..

theorem setRpc_other (s : State) {r i : ℕ} (h : i≠r) (rpc : Rpc) : (s.setRpc r rpc).rpcs i=s.rpcs i :=
  Function.update_of_ne h ..

/-- What a step may do to the control calls: retirements that release members
only end, and calls refer to existing members. -/
structure Calls (s s' : State) : Prop where
  /-- Calls refer to existing members. -/
  targeted : ∀ r m, m∈targets (s'.rpcs r) → m<s.memberCount
  /-- A call that does not exist yet has not begun. -/
  unborn : ∀ r, s'.rpcCount ≤ r → s'.rpcs r=.answered .ok
  /-- Retirements that release members stay or end. -/
  ending : ∀ r, retirement (s'.rpcs r)=retirement (s.rpcs r) ∨ retirement (s'.rpcs r)=none

/-- Calls that stay. -/
theorem calls_same (h : Books s) (hr : s'.rpcs=s.rpcs) (hc : s'.rpcCount=s.rpcCount) : Calls s s' where
  targeted := by rw [hr]; exact h.targeted
  unborn := by rw [hr,hc]; exact h.unborn
  ending := fun r => Or.inl (by rw [hr])

/-- A call that moves on and is no retirement that releases members afterwards. -/
theorem calls_moved {rpc : Rpc} (h : Books s) (hr : s'.rpcs=Function.update s.rpcs r rpc)
    (hc : s'.rpcCount=s.rpcCount) (hborn : r<s.rpcCount) (ht : ∀ i∈targets rpc, i<s.memberCount)
    (hn : retirement rpc=none) : Calls s s' := by
  refine ⟨?_,?_,?_⟩
  · intro i m hm
    rw [hr] at hm
    by_cases hi : i=r
    · rw [hi,Function.update_self] at hm
      exact ht m hm
    · rw [Function.update_of_ne hi] at hm
      exact h.targeted i m hm
  · intro i hi
    rw [hc] at hi
    have hne : i≠r := by omega
    rw [hr,Function.update_of_ne hne]
    exact h.unborn i hi
  · intro i
    rw [hr]
    by_cases hi : i=r
    · rw [hi,Function.update_self]
      exact Or.inr hn
    · rw [Function.update_of_ne hi]
      exact Or.inl rfl

/-- A new call. -/
theorem calls_added {rpc : Rpc} (h : Books s) (hr : s'.rpcs=Function.update s.rpcs s.rpcCount rpc)
    (hc : s'.rpcCount=s.rpcCount+1) (ht : ∀ i∈targets rpc, i<s.memberCount)
    (hn : retirement rpc=none) : Calls s s' := by
  refine ⟨?_,?_,?_⟩
  · intro i m hm
    rw [hr] at hm
    by_cases hi : i=s.rpcCount
    · rw [hi,Function.update_self] at hm
      exact ht m hm
    · rw [Function.update_of_ne hi] at hm
      exact h.targeted i m hm
  · intro i hi
    rw [hc] at hi
    have hne : i≠s.rpcCount := by omega
    rw [hr,Function.update_of_ne hne]
    exact h.unborn i (by omega)
  · intro i
    rw [hr]
    by_cases hi : i=s.rpcCount
    · rw [hi,Function.update_self]
      exact Or.inr hn
    · rw [Function.update_of_ne hi]
      exact Or.inl rfl

/-- Waiting releases after a call moved on. -/
theorem waiters_moved {rpc : Rpc} (hr : s'.rpcs=Function.update s.rpcs r rpc) (hc : s'.rpcCount=s.rpcCount)
    (hborn : r<s.rpcCount) : waiters s'+waiting (s.rpcs r)=waiters s+waiting rpc := by
  unfold waiters
  rw [hc,hr]
  have moved := sum_range_change (f := fun i => waiting (Function.update s.rpcs r rpc i))
    (g := fun i => waiting (s.rpcs i)) hborn (fun j hj => by simp only [Function.update_of_ne hj])
  simpa only [Function.update_self] using moved

/-- Waiting releases after a call began. -/
theorem waiters_added {rpc : Rpc} (hr : s'.rpcs=Function.update s.rpcs s.rpcCount rpc)
    (hc : s'.rpcCount=s.rpcCount+1) : waiters s'=waiters s+waiting rpc := by
  unfold waiters
  rw [hc,hr,Finset.sum_range_succ,Function.update_self]
  congr 1
  refine Finset.sum_congr rfl (fun j hj => ?_)
  have hne : j≠s.rpcCount := by
    have := Finset.mem_range.mp hj
    omega
  rw [Function.update_of_ne hne]

/-- The parts of the controller that the bookkeeping reads besides its counters. -/
def SameController (c c' : Controller) : Prop :=
  c'.generation=c.generation ∧ c'.retiring=c.retiring ∧ c'.finishing=c.finishing

/-- A retirement keeps its hold while the members change a little. -/
theorem retires_kept {request : RetireControllerRequest} {left controls : List ℕ}
    (h : Retires s request left controls) (hc : SameController s.controller s'.controller)
    (hl : ∀ i∈s'.controller.members, i∈s.controller.members)
    (hm : ∀ i, (s'.members i).controlOwner=(s.members i).controlOwner ∧
      ((s'.members i).potentialMotion=true → (s.members i).potentialMotion=true)) :
    Retires s' request left controls where
  retiring := hc.2.1.trans h.retiring
  finishing := hc.2.2.trans h.finishing
  current := hc.1.trans h.current
  complete := fun i hi => h.complete i (hl i hi)
  released := by
    intro i hi hleft howner
    have still := h.released i hi hleft ((hm i).1 ▸ howner)
    by_contra moving
    have := (hm i).2 (by simpa using moving)
    rw [still] at this
    cases this

/-- A step that changes one member and the counters keeps the books, when the
member is in order afterwards and no controlled member starts during a retirement. -/
theorem books_change (h : Books s) (hm : m<s.memberCount) (hcalls : Calls s s')
    (hcount : s'.memberCount=s.memberCount) (htable : ∀ entry∈s'.table, entry∈s.table)
    (hother : ∀ i, i≠m → s'.members i=s.members i) (hc : SameController s.controller s'.controller)
    (hlist : ∀ i, i≠m → (i∈s'.controller.members ↔ i∈s.controller.members))
    (hwork : s'.controller.work+(s.members m).controlWork+waiters s=
      s.controller.work+(s'.members m).controlWork+waiters s')
    (howner : (s'.members m).controlHeld=true → (s'.members m).controlOwner=s.controller.generation)
    (hlisted : m∈s'.controller.members ↔ (s'.members m).controlHeld=true)
    (hmotion : (s'.members m).potentialMotion=true → (s'.members m).controlHeld=true)
    (hretired : (s'.members m).retiredControlGeneration ≤ (s'.members m).controlGeneration)
    (hcounted : ∀ flight, (s'.members m).flight=some flight → flight.controlWork=true →
      0<(s'.members m).controlWork)
    (hfrozen : s.controller.retiring=true → (s'.members m).controlOwner=(s.members m).controlOwner ∧
      ((s'.members m).potentialMotion=true → (s.members m).potentialMotion=true) ∧
      (m∈s'.controller.members → m∈s.controller.members))
    (hinstalled : (s'.members m).controlHeld=true → (s.members m).controlHeld=true ∨ s.controller.generation≠0) :
    Books s' := by
  have total : memberWork s'+(s.members m).controlWork=memberWork s+(s'.members m).controlWork := by
    unfold memberWork
    rw [hcount]
    exact sum_range_change (f := fun i => (s'.members i).controlWork) (g := fun i => (s.members i).controlWork) hm
      (fun j hj => by simp only [hother j hj])
  refine ⟨⟨?_,?_,?_,?_,?_,?_⟩,?_,?_,?_,hcalls.unborn,?_,?_,?_,?_⟩
  · have before := h.work
    omega
  · intro i
    rw [hc.1]
    by_cases hi : i=m
    · rw [hi]
      exact howner
    · rw [hother i hi]
      exact h.owner i
  · intro i
    by_cases hi : i=m
    · rw [hi]
      exact hlisted
    · rw [hother i hi,hlist i hi]
      exact h.listed i
  · intro i
    by_cases hi : i=m
    · rw [hi]
      exact hmotion
    · rw [hother i hi]
      exact h.motion i
  · rw [hc.1,hc.2.1,hc.2.2]
    exact h.retiring
  · intro i
    by_cases hi : i=m
    · rw [hi]
      exact hretired
    · rw [hother i hi]
      exact h.retired i
  · intro i hi
    rw [hcount] at hi
    rw [hother i (by omega)]
    exact h.blank i hi
  · rw [hcount]
    exact hcalls.targeted
  · intro entry he
    rw [hcount]
    exact h.tabled entry (htable entry he)
  · intro i
    by_cases hi : i=m
    · rw [hi]
      exact hcounted
    · rw [hother i hi]
      exact h.counted i
  · intro i request left controls hr
    rcases hcalls.ending i with same | none
    · rw [same] at hr
      have before := h.retires i request left controls hr
      have frozen := hfrozen before.retiring
      refine retires_kept before hc ?_ ?_
      · intro j hj
        by_cases hjm : j=m
        · rw [hjm] at hj ⊢
          exact frozen.2.2 hj
        · exact (hlist j hjm).mp hj
      · intro j
        by_cases hjm : j=m
        · rw [hjm]
          exact ⟨frozen.1,frozen.2.1⟩
        · rw [hother j hjm]
          exact ⟨rfl,id⟩
    · rw [none] at hr
      cases hr
  · intro i j hi hj
    refine h.alone i j ?_ ?_
    · rcases hcalls.ending i with same | none
      · rwa [same] at hi
      · exact absurd none hi
    · rcases hcalls.ending j with same | none
      · rwa [same] at hj
      · exact absurd none hj
  · intro i
    rw [hc.1]
    by_cases hi : i=m
    · rw [hi]
      intro held
      rcases hinstalled held with before | current
      · exact h.installed m before
      · exact current
    · rw [hother i hi]
      exact h.installed i

/-- A step that changes calls and other parts of the controller keeps the books. -/
theorem books_frame (h : Books s) (hcalls : Calls s s') (hcount : s'.memberCount=s.memberCount)
    (htable : s'.table=s.table) (hmembers : s'.members=s.members)
    (hc : SameController s.controller s'.controller)
    (hlist : s'.controller.members=s.controller.members)
    (hwork : s'.controller.work+waiters s=s.controller.work+waiters s') : Books s' := by
  refine ⟨⟨?_,?_,?_,?_,?_,?_⟩,?_,?_,?_,hcalls.unborn,?_,?_,?_,?_⟩
  · have before := h.work
    have total : memberWork s'=memberWork s := by
      unfold memberWork
      rw [hcount,hmembers]
    omega
  · rw [hmembers,hc.1]
    exact h.owner
  · rw [hmembers,hlist]
    exact h.listed
  · rw [hmembers]
    exact h.motion
  · rw [hc.1,hc.2.1,hc.2.2]
    exact h.retiring
  · rw [hmembers]
    exact h.retired
  · rw [hmembers,hcount]
    exact h.blank
  · rw [hcount]
    exact hcalls.targeted
  · rw [htable,hcount]
    exact h.tabled
  · rw [hmembers]
    exact h.counted
  · intro i request left controls hr
    rcases hcalls.ending i with same | none
    · rw [same] at hr
      refine retires_kept (h.retires i request left controls hr) hc ?_ ?_
      · rw [hlist]
        exact fun _ => id
      · rw [hmembers]
        exact fun _ => ⟨rfl,id⟩
    · rw [none] at hr
      cases hr
  · intro i j hi hj
    refine h.alone i j ?_ ?_
    · rcases hcalls.ending i with same | none
      · rwa [same] at hi
      · exact absurd none hi
    · rcases hcalls.ending j with same | none
      · rwa [same] at hj
      · exact absurd none hj
  · rw [hmembers,hc.1]
    exact h.installed

/-- A call that does something exists. -/
theorem born (h : Books s) (hr : s.rpcs r≠.answered .ok) : r<s.rpcCount := by
  by_contra missing
  exact hr (h.unborn r (by omega))

theorem sameController_refl (c : Controller) : SameController c c := ⟨rfl,rfl,rfl⟩

/-- A call that moves on without waiting keeps the books. -/
theorem books_setRpc {rpc : Rpc} (h : Books s) (hborn : r<s.rpcCount) (ht : ∀ i∈targets rpc, i<s.memberCount)
    (hn : retirement rpc=none) (hw : waiting rpc=waiting (s.rpcs r)) : Books (s.setRpc r rpc) := by
  have moved : waiters (s.setRpc r rpc)+waiting (s.rpcs r)=waiters s+waiting rpc :=
    waiters_moved rfl rfl hborn
  refine books_frame h (calls_moved h rfl rfl hborn ht hn) rfl rfl rfl (sameController_refl _) rfl ?_
  have same : (s.setRpc r rpc).controller=s.controller := rfl
  rw [same]
  omega

/-- An answer to a call that does not wait keeps the books. -/
theorem books_answer (h : Books s) (hborn : r<s.rpcCount) (hw : waiting (s.rpcs r)=0) (reply : Reply) :
    Books (s.answer r reply) :=
  books_setRpc h hborn (fun _ hi => by cases hi) rfl hw.symm

/-- A new call that does not wait keeps the books. -/
theorem books_addRpc {rpc : Rpc} (h : Books s) (ht : ∀ i∈targets rpc, i<s.memberCount)
    (hn : retirement rpc=none) (hw : waiting rpc=0) : Books (s.addRpc rpc) := by
  have added : waiters (s.addRpc rpc)=waiters s+waiting rpc := waiters_added rfl rfl
  refine books_frame h (calls_added h rfl rfl ht hn) rfl rfl rfl (sameController_refl _) rfl ?_
  have same : (s.addRpc rpc).controller=s.controller := rfl
  rw [same]
  omega

/-- A new call that is answered at once keeps the books. -/
theorem books_refused (h : Books s) (reply : Reply) : Books (s.addRpc (.answered reply)) :=
  books_addRpc h (fun _ hi => by cases hi) rfl rfl

/-- A change of other parts of the controller keeps the books. -/
theorem books_setController {change : Controller → Controller} (h : Books s)
    (hc : SameController s.controller (change s.controller))
    (hl : (change s.controller).members=s.controller.members)
    (hw : (change s.controller).work=s.controller.work) : Books (s.setController change) := by
  refine books_frame h (calls_same h rfl rfl) rfl rfl rfl hc hl ?_
  have same : waiters (s.setController change)=waiters s := rfl
  have work : (s.setController change).controller.work=s.controller.work := hw
  omega

/-- The history plays no part in the books. -/
theorem books_logged (h : Books s) (event : Event) : Books (s.logged event) :=
  books_frame h (calls_same h rfl rfl) rfl rfl rfl (sameController_refl _) rfl rfl

/-- A change of a member that its bookkeeping does not read keeps the books. -/
theorem books_setMember {change : Member → Member} (h : Books s) (hm : m<s.memberCount)
    (hsame : (change (s.members m)).controlOwner=(s.members m).controlOwner ∧
      (change (s.members m)).controlHeld=(s.members m).controlHeld ∧
      (change (s.members m)).controlGeneration=(s.members m).controlGeneration ∧
      (change (s.members m)).retiredControlGeneration=(s.members m).retiredControlGeneration ∧
      (change (s.members m)).controlWork=(s.members m).controlWork)
    (hmotion : (change (s.members m)).potentialMotion=true → (s.members m).potentialMotion=true)
    (hcounted : ∀ flight, (change (s.members m)).flight=some flight → flight.controlWork=true →
      ∃ before, (s.members m).flight=some before ∧ before.controlWork=true) :
    Books (s.setMember m change) := by
  obtain ⟨owner,held,generation,retired,work⟩ := hsame
  refine books_change h hm (calls_same h rfl rfl) rfl (fun _ => id) (fun i hi => setMember_other s hi change)
    (sameController_refl _) (fun _ _ => Iff.rfl) ?_ ?_ ?_ ?_ ?_ ?_ ?_ ?_
  · have same : waiters (s.setMember m change)=waiters s := rfl
    have controller : (s.setMember m change).controller=s.controller := rfl
    rw [setMember_same,work,controller,same]
  · rw [setMember_same,owner,held]
    exact h.owner m
  · rw [setMember_same,held]
    exact h.listed m
  · rw [setMember_same,held]
    exact fun moving => h.motion m (hmotion moving)
  · rw [setMember_same,retired,generation]
    exact h.retired m
  · rw [setMember_same,work]
    intro flight flies controls
    obtain ⟨before,hb,hw⟩ := hcounted flight flies controls
    exact h.counted m before hb hw
  · intro _
    rw [setMember_same]
    exact ⟨owner,hmotion,id⟩
  · rw [setMember_same,held]
    exact Or.inl

end Changes

section Slots

/-- Only the streams and slots of a controller change. -/
def SlotsOnly (c c' : Controller) : Prop :=
  c'={c with
    calls := c'.calls, optional := c'.optional, control := c'.control, optionalLog := c'.optionalLog,
    controlLog := c'.controlLog}

theorem slotsOnly_refl (c : Controller) : SlotsOnly c c := rfl

theorem slotsOnly_trans {a b c : Controller} (h : SlotsOnly a b) (g : SlotsOnly b c) : SlotsOnly a c := by
  unfold SlotsOnly at *
  rw [g,h]

theorem slotsOnly_setSlot (c : Controller) (control : Bool) (slot : OwnedStatusSlot) :
    SlotsOnly c (c.setSlot control slot) := by
  cases control <;> rfl

theorem slotsOnly_record (c : Controller) (control : Bool) (event : SlotEvent) :
    SlotsOnly c (c.record control event) := by
  cases control <;> rfl

theorem slotsOnly_calls (c : Controller) (calls : List (ℕ × Bool)) : SlotsOnly c {c with calls := calls} := rfl

theorem slotsOnly_markControlDown (c : Controller) : SlotsOnly c (markControlDown c) := rfl

theorem slotsOnly_acceptStatus (stream : ℕ) (control : Bool) (owner : StatusOwner) (c : Controller) :
    SlotsOnly c (acceptStatus stream control owner c) := by
  unfold acceptStatus admitOwnedStatus
  split
  · exact slotsOnly_refl c
  · split
    · exact slotsOnly_refl c
    · split
      · exact slotsOnly_refl c
      · split
        · exact slotsOnly_refl c
        · split
          · exact slotsOnly_refl c
          · exact slotsOnly_trans (slotsOnly_setSlot c control _)
              (slotsOnly_trans (slotsOnly_calls _ _) (slotsOnly_record _ _ _))

theorem slotsOnly_releaseStatus (stream : ℕ) (c : Controller) : SlotsOnly c (releaseStatus stream c) := by
  unfold releaseStatus
  split
  · exact slotsOnly_refl c
  · next control _ =>
    have left : SlotsOnly c (leaveSlot stream control c) := by
      unfold leaveSlot
      split
      · exact slotsOnly_trans (slotsOnly_setSlot c control _) (slotsOnly_record _ _ _)
      · exact slotsOnly_refl c
    exact slotsOnly_trans left (slotsOnly_calls _ _)

theorem slotsOnly_readyStatus (stream : ℕ) (c : Controller) : SlotsOnly c (readyStatus stream c) := by
  unfold readyStatus
  split
  · exact slotsOnly_refl c
  · split
    · exact slotsOnly_refl c
    · exact slotsOnly_setSlot c _ _

theorem slotsOnly_doneStatus (stream : ℕ) (c : Controller) : SlotsOnly c (doneStatus stream c) := by
  unfold doneStatus
  split
  · exact slotsOnly_markControlDown c
  · exact slotsOnly_refl c

theorem slotsOnly_retireStatusAnswer (request : RetireStatusRequest) (c : Controller) :
    SlotsOnly c (retireStatusAnswer request c).2 := by
  unfold retireStatusAnswer
  simp only []
  split
  · exact slotsOnly_refl c
  · exact slotsOnly_record c _ _

theorem slotsOnly_retireStatus (request : RetireStatusRequest) (c : Controller) :
    SlotsOnly c (retireStatus request c).2 := by
  unfold retireStatus
  simp only []
  split
  · exact slotsOnly_refl c
  · split
    · exact slotsOnly_refl c
    · split
      · exact slotsOnly_setSlot c _ _
      · split
        · exact slotsOnly_trans (slotsOnly_setSlot c _ _)
            (slotsOnly_trans (slotsOnly_record _ _ _) (slotsOnly_retireStatusAnswer request _))
        · exact slotsOnly_retireStatusAnswer request c

variable {s : State} {m r : ℕ}

/-- A change of streams and slots keeps the books. -/
theorem books_slots {change : Controller → Controller} (h : Books s)
    (hc : SlotsOnly s.controller (change s.controller)) : Books (s.setController change) := by
  refine books_setController h ⟨?_,?_,?_⟩ ?_ ?_ <;> rw [hc]

theorem retireStatusEnter_books (request : RetireStatusRequest) (h : Books s) :
    Books (retireStatusEnter request s) := by
  have slots : Books (s.setController fun c => (retireStatus request c).2) :=
    books_slots h (slotsOnly_retireStatus request s.controller)
  unfold retireStatusEnter
  simp only []
  split
  · exact books_addRpc slots (fun _ hi => by cases hi) rfl rfl
  · exact books_refused slots _

theorem retireStatusWake_books {request : RetireStatusRequest} (h : Books s)
    (hr : s.rpcs r=.retireStatusWaiting request) : Books (retireStatusWake r request s) := by
  have slots : Books (s.setController fun c => (retireStatusAnswer request c).2) :=
    books_slots h (slotsOnly_retireStatusAnswer request s.controller)
  have exists_ : r<s.rpcCount := born h (by rw [hr]; exact fun same => by cases same)
  have still : waiting (s.rpcs r)=0 := by rw [hr]; rfl
  unfold retireStatusWake
  split
  · exact h
  · exact books_answer slots exists_ still _

theorem retireStatusTimeout_books {request : RetireStatusRequest} (h : Books s)
    (hr : s.rpcs r=.retireStatusWaiting request) : Books (retireStatusTimeout r request s) := by
  have exists_ : r<s.rpcCount := born h (by rw [hr]; exact fun same => by cases same)
  have still : waiting (s.rpcs r)=0 := by rw [hr]; rfl
  unfold retireStatusTimeout
  split
  · exact h
  · exact books_answer h exists_ still _

end Slots

end Ros1Adapter.RobotBooks
