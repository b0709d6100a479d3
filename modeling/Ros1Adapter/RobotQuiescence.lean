import Ros1Adapter.RobotSlots

/-!
# Quiescence of robot control

An owner that was told that its control is released, or that its controller
is retired, must not see the robot move under it any more. Releases and
retirements drop the mutex around the native call while the scheduler goes
on admitting commands, so this rests on what every command in flight and
every waiting release keep between the sections.
-/

namespace Ros1Adapter.RobotQuiescence

open RobotControl RobotBooks RobotBookkeeping RobotSlots ActionRules

section Invariant

/-- A release that waits or calls the native robot: its request, its member
and whether the commands are gone. -/
def releasing : Rpc → Option (ControlRequest × ℕ × Bool)
  | .releaseWaiting request m => some (request,m,false)
  | .releaseNative request m _ => some (request,m,true)
  | _ => none

/-- A motion command in flight is controlled as it says. -/
structure Moves (s : State) (m : ℕ) (flight : Flight) : Prop where
  /-- The control is held. -/
  held : (s.members m).controlHeld=true
  /-- It was admitted under the current controller. -/
  admitted : flight.controller=s.controller.generation
  /-- It carries the generation of the control. -/
  generation : flight.request.controlGeneration=(s.members m).controlGeneration
  /-- It carries the grant of the controller. -/
  grant : flight.request.controllerGrant=s.controller.grant

/-- The member was stopped after the loop of the scheduler had failed. -/
def Loose (s : State) (m : ℕ) : Prop := s.scheduler≠.running ∧ (s.members m).nativeStopped=true

/-- What a motion command in flight keeps. -/
structure Carried (s : State) (m : ℕ) (flight : Flight) : Prop where
  /-- It is control work. -/
  work : flight.controlWork=true
  /-- It is controlled, unless its member was stopped under a failed scheduler. -/
  moves : Moves s m flight ∨ Loose s m

/-- No motion command is in flight. -/
def Still (m : Member) : Prop := ∀ flight, m.flight=some flight → flight.motion=false

/-- What a waiting release keeps. -/
structure Releasing (s : State) (request : ControlRequest) (m : ℕ) (native : Bool) : Prop where
  /-- The member knows that a release waits. -/
  waiting : (s.members m).controlReleaseWaiting=true
  /-- The control is being released. -/
  retiring : (s.members m).controlRetiring=true
  /-- The control cannot be taken again. -/
  fixed : (s.members m).controlHeld=true ∨ (s.members m).closing=true
  /-- The control belongs to the current controller. -/
  owner : (s.members m).controlOwner=s.controller.generation
  /-- A controller is installed. -/
  installed : s.controller.generation≠0
  /-- The release is about the generation of the control. -/
  generation : (s.members m).controlGeneration=request.generation
  /-- During the native call no motion command is in flight. -/
  quiet : native=true → Still (s.members m)

/-- A generation of a controller cannot be used on a member again. -/
def Fenced (g c : ℕ) (m : Member) : Prop :=
  m.controlOwner=c → g ≤ m.retiredControlGeneration ∧ (m.controlHeld=true → g < m.controlGeneration)

/-- What holds after a release was answered, with the history since. -/
structure Released (s : State) (m g c : ℕ) (after : List Event) : Prop where
  /-- There was a controller. -/
  nonzero : c≠0
  /-- It is installed or retired. -/
  past : s.controller.generation=c ∨ c ≤ s.controller.retiredGeneration
  /-- While it is installed it owns the control. -/
  owner : s.controller.generation=c → (s.members m).controlOwner=c
  /-- The generation is fenced. -/
  fenced : Fenced g c (s.members m)
  /-- A later controller was installed since. -/
  installed : s.controller.generation≠0 → s.controller.generation=c ∨
    .installed s.controller.generation s.controller.grant∈after

/-- What holds after a retirement was answered, with the history since. -/
structure Retired (s : State) (c : ℕ) (after : List Event) : Prop where
  /-- The controller is retired. -/
  past : c ≤ s.controller.retiredGeneration
  /-- A controller was installed since. -/
  installed : s.controller.generation≠0 → .installed s.controller.generation s.controller.grant∈after

/-- What a history of releases, retirements and executed commands keeps. -/
structure OrderlyHistory (log : List Event) : Prop where
  /-- After a release no motion command under its controller and generation is
  executed, and one with the same grant and generation only after the grant
  was installed again for a later controller. -/
  released : ∀ before m g c grant mid flight rest,
    log=before ++ .released m g c grant::(mid ++ .executed m flight::rest) → flight.motion=true →
      ¬(flight.controller=c ∧ flight.request.controlGeneration=g) ∧
      (flight.request.controllerGrant=grant → flight.request.controlGeneration=g →
        ∃ later, c<later ∧ .installed later grant∈mid)
  /-- After a retirement a motion command is executed only under a later
  controller that was installed since, with its grant. -/
  retired : ∀ before c mid m flight rest,
    log=before ++ .retired c::(mid ++ .executed m flight::rest) → flight.motion=true →
      c<flight.controller ∧ .installed flight.controller flight.request.controllerGrant∈mid

/-- What every reachable state keeps. -/
structure Quiet (s : State) : Prop where
  /-- Motion commands in flight are controlled. -/
  flights : ∀ m flight, (s.members m).flight=some flight → flight.motion=true → Carried s m flight
  /-- A stopped member is closed. -/
  closed : ∀ m, (s.members m).nativeStopped=true → (s.members m).closing=true
  /-- Waiting releases keep their hold. -/
  releases : ∀ r request m native, releasing (s.rpcs r)=some (request,m,native) → Releasing s request m native
  /-- One release of a member waits. -/
  alone : ∀ r r' request request' m native native', releasing (s.rpcs r)=some (request,m,native) →
    releasing (s.rpcs r')=some (request',m,native') → r=r'
  /-- A controller is newer than the retired ones. -/
  ahead : s.controller.generation≠0 → s.controller.retiredGeneration<s.controller.generation
  /-- Answered releases are fenced. -/
  released : ∀ before m g c grant after, s.log=before ++ .released m g c grant::after → Released s m g c after
  /-- Answered retirements are final. -/
  retired : ∀ before c after, s.log=before ++ .retired c::after → Retired s c after
  /-- The history is in order. -/
  order : OrderlyHistory s.log

end Invariant

section Frames

variable {s s' : State} {m r : ℕ}

/-- A motion command keeps its control while the control stays. -/
theorem carried_kept {flight : Flight} (h : Carried s m flight)
    (hm : (s'.members m).controlHeld=(s.members m).controlHeld ∧
      (s'.members m).controlGeneration=(s.members m).controlGeneration ∧
      ((s.members m).nativeStopped=true → (s'.members m).nativeStopped=true))
    (hc : s'.controller.generation=s.controller.generation ∧ s'.controller.grant=s.controller.grant)
    (hs : s.scheduler≠.running → s'.scheduler≠.running) : Carried s' m flight := by
  refine ⟨h.work,?_⟩
  rcases h.moves with moves | loose
  · refine Or.inl ⟨hm.1.trans moves.held,?_,?_,?_⟩
    · rw [hc.1]
      exact moves.admitted
    · rw [hm.2.1]
      exact moves.generation
    · rw [hc.2]
      exact moves.grant
  · exact Or.inr ⟨hs loose.1,hm.2.2 loose.2⟩

/-- A change of a member that leaves its control and starts no command. -/
structure CalmMember (a b : Member) : Prop where
  /-- The owner stays. -/
  owner : b.controlOwner=a.controlOwner
  /-- The generation stays. -/
  generation : b.controlGeneration=a.controlGeneration
  /-- The retired generation stays. -/
  retired : b.retiredControlGeneration=a.retiredControlGeneration
  /-- The hold stays. -/
  held : b.controlHeld=a.controlHeld
  /-- The release stays. -/
  retiring : b.controlRetiring=a.controlRetiring
  /-- The waiting release stays. -/
  waiting : b.controlReleaseWaiting=a.controlReleaseWaiting
  /-- A closed member stays closed. -/
  closing : a.closing=true → b.closing=true
  /-- The native robot is not stopped. -/
  stopped : b.nativeStopped=a.nativeStopped
  /-- A command starts or ends, no new one is admitted. -/
  flight : b.flight=none ∨ ∃ flight started, a.flight=some flight ∧ b.flight=some {flight with started := started}

theorem calmMember_refl (a : Member) : CalmMember a a := by
  refine ⟨rfl,rfl,rfl,rfl,rfl,rfl,id,rfl,?_⟩
  cases h : a.flight with
  | none => exact Or.inl rfl
  | some flight => exact Or.inr ⟨flight,flight.started,rfl,rfl⟩

/-- A change of a member with the same command in flight. -/
theorem calmMember_same {a b : Member} (h : b.controlOwner=a.controlOwner ∧
    b.controlGeneration=a.controlGeneration ∧ b.retiredControlGeneration=a.retiredControlGeneration ∧
    b.controlHeld=a.controlHeld ∧ b.controlRetiring=a.controlRetiring ∧
    b.controlReleaseWaiting=a.controlReleaseWaiting) (hc : a.closing=true → b.closing=true)
    (hf : b.nativeStopped=a.nativeStopped ∧ b.flight=a.flight) : CalmMember a b := by
  obtain ⟨owner,generation,retired,held,retiring,waiting⟩ := h
  refine ⟨owner,generation,retired,held,retiring,waiting,hc,hf.1,?_⟩
  replace hf := hf.2
  rw [hf]
  exact (calmMember_refl a).flight

theorem calm_still {a b : Member} (h : CalmMember a b) (hs : Still a) : Still b := by
  intro flight flies
  rcases h.flight with none | ⟨before,started,hb,some⟩
  · rw [none] at flies
    cases flies
  · rw [some] at flies
    cases flies
    exact hs before hb

theorem calm_fenced {a b : Member} {g c : ℕ} (h : CalmMember a b) (hf : Fenced g c a) : Fenced g c b := by
  unfold Fenced
  rw [h.owner,h.retired,h.held,h.generation]
  exact hf

/-- A step that leaves control, the controller, waiting releases and the history. -/
structure Calm (s s' : State) : Prop where
  /-- Every member keeps its control. -/
  members : ∀ m, CalmMember (s.members m) (s'.members m)
  /-- The controller stays. -/
  generation : s'.controller.generation=s.controller.generation
  /-- The last retired controller stays. -/
  retired : s'.controller.retiredGeneration=s.controller.retiredGeneration
  /-- The grant stays. -/
  grant : s'.controller.grant=s.controller.grant
  /-- A failed scheduler does not run again. -/
  scheduler : s.scheduler≠.running → s'.scheduler≠.running
  /-- Waiting releases stay. -/
  calls : ∀ r, releasing (s'.rpcs r)=releasing (s.rpcs r)
  /-- Nothing is answered as joined and nothing is executed. -/
  log : s'.log=s.log

theorem calm_released {g c : ℕ} {after : List Event} (h : Calm s s') (hr : Released s m g c after) :
    Released s' m g c after := by
  refine ⟨hr.nonzero,?_,?_,calm_fenced (h.members m) hr.fenced,?_⟩
  · rw [h.generation,h.retired]
    exact hr.past
  · rw [h.generation,(h.members m).owner]
    exact hr.owner
  · rw [h.generation,h.grant]
    exact hr.installed

theorem quiet_calm (h : Quiet s) (hc : Calm s s') : Quiet s' := by
  refine ⟨?_,?_,?_,?_,?_,?_,?_,?_⟩
  · intro m flight flies motion
    rcases (hc.members m).flight with none | ⟨before,started,hb,some⟩
    · rw [none] at flies
      cases flies
    · rw [some] at flies
      cases flies
      have old := carried_kept (h.flights m before hb motion)
        ⟨(hc.members m).held,(hc.members m).generation,fun stopped => (hc.members m).stopped.trans stopped⟩
        ⟨hc.generation,hc.grant⟩ hc.scheduler
      exact ⟨old.work,old.moves.imp (fun moves => ⟨moves.held,moves.admitted,moves.generation,moves.grant⟩) id⟩
  · intro m stopped
    rw [(hc.members m).stopped] at stopped
    exact (hc.members m).closing (h.closed m stopped)
  · intro r request m native waits
    rw [hc.calls r] at waits
    have old := h.releases r request m native waits
    have calm := hc.members m
    refine ⟨calm.waiting.trans old.waiting,calm.retiring.trans old.retiring,?_,?_,?_,
      calm.generation.trans old.generation,fun called => calm_still calm (old.quiet called)⟩
    · rcases old.fixed with held | closing
      · exact Or.inl (calm.held.trans held)
      · exact Or.inr (calm.closing closing)
    · rw [calm.owner,hc.generation]
      exact old.owner
    · rw [hc.generation]
      exact old.installed
  · intro r r' request request' m native native'
    rw [hc.calls r,hc.calls r']
    exact h.alone r r' request request' m native native'
  · rw [hc.generation,hc.retired]
    exact h.ahead
  · intro before m g c grant after split_
    rw [hc.log] at split_
    exact calm_released hc (h.released before m g c grant after split_)
  · intro before c after split_
    rw [hc.log] at split_
    have old := h.retired before c after split_
    refine ⟨?_,?_⟩
    · rw [hc.retired]
      exact old.past
    · rw [hc.generation,hc.grant]
      exact old.installed
  · rw [hc.log]
    exact h.order

theorem calm_refl (s : State) : Calm s s := ⟨fun _ => calmMember_refl _,rfl,rfl,rfl,id,fun _ => rfl,rfl⟩

/-- A call that moves on outside a waiting release. -/
theorem calm_setRpc {rpc : Rpc} (h : releasing rpc=releasing (s.rpcs r)) : Calm s (s.setRpc r rpc) := by
  refine ⟨fun _ => calmMember_refl _,rfl,rfl,rfl,id,?_,rfl⟩
  intro i
  by_cases hi : i=r
  · rw [hi,setRpc_same]
    exact h
  · rw [setRpc_other s hi]

/-- A new call. -/
theorem calm_addRpc {rpc : Rpc} (hb : Books s) (h : releasing rpc=none) : Calm s (s.addRpc rpc) := by
  refine ⟨fun _ => calmMember_refl _,rfl,rfl,rfl,id,?_,rfl⟩
  intro i
  by_cases hi : i=s.rpcCount
  · have new : (s.addRpc rpc).rpcs i=rpc := by
      rw [hi]
      exact Function.update_self ..
    rw [new,h,hi,hb.unborn _ (le_refl _)]
    rfl
  · have old : (s.addRpc rpc).rpcs i=s.rpcs i := Function.update_of_ne hi ..
    rw [old]

theorem calm_setController {change : Controller → Controller}
    (h : (change s.controller).generation=s.controller.generation ∧
      (change s.controller).retiredGeneration=s.controller.retiredGeneration ∧
      (change s.controller).grant=s.controller.grant) : Calm s (s.setController change) :=
  ⟨fun _ => calmMember_refl _,h.1,h.2.1,h.2.2,id,fun _ => rfl,rfl⟩

theorem calm_setMember {change : Member → Member} (h : CalmMember (s.members m) (change (s.members m))) :
    Calm s (s.setMember m change) := by
  refine ⟨?_,rfl,rfl,rfl,id,fun _ => rfl,rfl⟩
  intro i
  by_cases hi : i=m
  · rw [hi,setMember_same]
    exact h
  · rw [setMember_other s hi]
    exact calmMember_refl _

theorem calm_trans {s'' : State} (h : Calm s s') (g : Calm s' s'') : Calm s s'' := by
  refine ⟨?_,g.generation.trans h.generation,g.retired.trans h.retired,g.grant.trans h.grant,
    fun failed => g.scheduler (h.scheduler failed),fun r => (g.calls r).trans (h.calls r),g.log.trans h.log⟩
  intro m
  have first := h.members m
  have second := g.members m
  refine ⟨second.owner.trans first.owner,second.generation.trans first.generation,
    second.retired.trans first.retired,second.held.trans first.held,second.retiring.trans first.retiring,
    second.waiting.trans first.waiting,fun closed => second.closing (first.closing closed),
    second.stopped.trans first.stopped,?_⟩
  rcases second.flight with none | ⟨mid,started,hm,some⟩
  · exact Or.inl none
  · rcases first.flight with none | ⟨old,started',ho,some'⟩
    · rw [none] at hm
      cases hm
    · rw [some'] at hm
      cases hm
      exact Or.inr ⟨old,started,ho,some⟩

end Frames

section Changes

variable {s s' : State} {m r : ℕ}

/-- A step that changes one member and waiting releases of it. -/
theorem quiet_change (h : Quiet s) (hother : ∀ i, i≠m → s'.members i=s.members i)
    (hg : s'.controller.generation=s.controller.generation ∧
      s'.controller.retiredGeneration=s.controller.retiredGeneration ∧ s'.controller.grant=s.controller.grant)
    (hlog : s'.log=s.log) (hs : s'.scheduler=s.scheduler)
    (hclosed : (s'.members m).nativeStopped=true → (s'.members m).closing=true)
    (hflight : ∀ flight, (s'.members m).flight=some flight → flight.motion=true → Carried s' m flight)
    (hcalls : ∀ r request i native, releasing (s'.rpcs r)=some (request,i,native) →
      (i≠m ∧ releasing (s.rpcs r)=some (request,i,native)) ∨ (i=m ∧ Releasing s' request m native))
    (halone : ∀ r r' request request' native native', releasing (s'.rpcs r)=some (request,m,native) →
      releasing (s'.rpcs r')=some (request',m,native') → r=r')
    (howner : (s'.members m).controlOwner=(s.members m).controlOwner ∨
      (s'.members m).controlOwner=s.controller.generation)
    (hfenced : ∀ g c, (s.controller.generation=c → (s.members m).controlOwner=c) → Fenced g c (s.members m) →
      Fenced g c (s'.members m)) : Quiet s' := by
  obtain ⟨generation,retired,grant⟩ := hg
  have failed : s.scheduler≠.running → s'.scheduler≠.running := by
    rw [hs]
    exact id
  refine ⟨?_,?_,?_,?_,?_,?_,?_,?_⟩
  · intro i flight flies motion
    by_cases hi : i=m
    · rw [hi] at flies ⊢
      exact hflight flight flies motion
    · rw [hother i hi] at flies
      refine carried_kept (h.flights i flight flies motion) ?_ ⟨generation,grant⟩ failed
      rw [hother i hi]
      exact ⟨rfl,rfl,id⟩
  · intro i
    by_cases hi : i=m
    · rw [hi]
      exact hclosed
    · rw [hother i hi]
      exact h.closed i
  · intro r request i native waits
    rcases hcalls r request i native waits with ⟨hi,before⟩ | ⟨same,now⟩
    · have old := h.releases r request i native before
      have member := hother i hi
      refine ⟨?_,?_,?_,?_,?_,?_,?_⟩ <;> (try rw [member]) <;> (try rw [generation])
      · exact old.waiting
      · exact old.retiring
      · exact old.fixed
      · exact old.owner
      · exact old.installed
      · exact old.generation
      · exact old.quiet
    · rw [same]
      exact now
  · intro r r' request request' i native native' first second
    by_cases hi : i=m
    · rw [hi] at first second
      exact halone r r' request request' native native' first second
    · rcases hcalls r request i native first with ⟨_,before⟩ | ⟨same,_⟩
      · rcases hcalls r' request' i native' second with ⟨_,before'⟩ | ⟨same,_⟩
        · exact h.alone r r' request request' i native native' before before'
        · exact absurd same hi
      · exact absurd same hi
  · rw [generation,retired]
    exact h.ahead
  · intro before i g c grant' after split_
    rw [hlog] at split_
    have old := h.released before i g c grant' after split_
    refine ⟨old.nonzero,?_,?_,?_,?_⟩
    · rw [generation,retired]
      exact old.past
    · intro current
      rw [generation] at current
      by_cases hi : i=m
      · rw [hi]
        rcases howner with same | adopted_
        · rw [same,← hi]
          exact old.owner current
        · exact adopted_.trans current
      · rw [hother i hi]
        exact old.owner current
    · by_cases hi : i=m
      · have owner := old.owner
        have fenced := old.fenced
        rw [hi] at owner fenced ⊢
        exact hfenced g c owner fenced
      · rw [hother i hi]
        exact old.fenced
    · rw [generation,grant]
      exact old.installed
  · intro before c after split_
    rw [hlog] at split_
    have old := h.retired before c after split_
    refine ⟨?_,?_⟩
    · rw [retired]
      exact old.past
    · rw [generation,grant]
      exact old.installed
  · rw [hlog]
    exact h.order

theorem released_longer {g c : ℕ} {after : List Event} (h : Released s m g c after) (event : Event) :
    Released (s.logged event) m g c (after ++ [event]) :=
  ⟨h.nonzero,h.past,h.owner,h.fenced,fun current =>
    (h.installed current).imp id (fun mem => List.mem_append_left _ mem)⟩

/-- A motion command that is executed after a release is a later one. -/
theorem executed_after_release {g c : ℕ} {mid : List Event} {flight : Flight} {grant : Bytes} (hb : Books s)
    (h : Quiet s) (hr : Released s m g c mid) (hm : Moves s m flight) :
    ¬(flight.controller=c ∧ flight.request.controlGeneration=g) ∧
      (flight.request.controllerGrant=grant → flight.request.controlGeneration=g →
        ∃ later, c<later ∧ .installed later grant∈mid) := by
  have later : ¬(flight.controller=c ∧ flight.request.controlGeneration=g) := by
    rintro ⟨controller,generation⟩
    have current : s.controller.generation=c := hm.admitted.symm.trans controller
    have newer := (hr.fenced (hr.owner current)).2 hm.held
    have same := hm.generation
    omega
  refine ⟨later,fun grant_ generation => ?_⟩
  have other : s.controller.generation≠c := by
    intro same
    exact later ⟨hm.admitted.trans same,generation⟩
  have installed := hb.installed m hm.held
  have ahead := h.ahead installed
  have past : c ≤ s.controller.retiredGeneration := hr.past.resolve_left other
  have mem := (hr.installed installed).resolve_left other
  rw [← hm.grant,grant_] at mem
  exact ⟨s.controller.generation,by omega,mem⟩

/-- A motion command that is executed after a retirement belongs to a later controller. -/
theorem executed_after_retirement {c : ℕ} {mid : List Event} {flight : Flight} (hb : Books s) (h : Quiet s)
    (hr : Retired s c mid) (hm : Moves s m flight) :
    c<flight.controller ∧ .installed flight.controller flight.request.controllerGrant∈mid := by
  have installed := hb.installed m hm.held
  have ahead := h.ahead installed
  have past := hr.past
  have mem := hr.installed installed
  rw [← hm.admitted,← hm.grant] at mem
  have same := hm.admitted
  exact ⟨by omega,mem⟩

/-- A new entry of the history that fits keeps everything. -/
theorem quiet_logged {event : Event} (hb : Books s) (h : Quiet s)
    (hreleased : ∀ m g c grant, event=.released m g c grant → Released s m g c [])
    (hretired : ∀ c, event=.retired c → Retired s c [])
    (hexecuted : ∀ m flight, event=.executed m flight → flight.motion=true → Moves s m flight) :
    Quiet (s.logged event) := by
  refine ⟨fun m flight flies motion => ?_,h.closed,fun r request m native waits => ?_,h.alone,h.ahead,?_,?_,?_,?_⟩
  · exact carried_kept (h.flights m flight flies motion) ⟨rfl,rfl,id⟩ ⟨rfl,rfl⟩ id
  · have old := h.releases r request m native waits
    exact ⟨old.waiting,old.retiring,old.fixed,old.owner,old.installed,old.generation,old.quiet⟩
  · intro before m g c grant after split_
    rcases append_split split_ with ⟨none,_,same⟩ | ⟨rest,some,old⟩
    · have new := hreleased m g c grant same.symm
      rw [none]
      exact ⟨new.nonzero,new.past,new.owner,new.fenced,new.installed⟩
    · rw [some]
      exact released_longer (h.released before m g c grant rest old) event
  · intro before c after split_
    rcases append_split split_ with ⟨none,_,same⟩ | ⟨rest,some,old⟩
    · have new := hretired c same.symm
      rw [none]
      exact ⟨new.past,new.installed⟩
    · have earlier := h.retired before c rest old
      rw [some]
      exact ⟨earlier.past,fun current => List.mem_append_left _ (earlier.installed current)⟩
  · intro before m g c grant mid flight rest split_ motion
    rcases append_split split_ with ⟨none,_,_⟩ | ⟨tail,some,old⟩
    · simp at none
    · rcases append_split some.symm with ⟨_,same,executed⟩ | ⟨tail',_,inner⟩
      · rw [same]
        exact executed_after_release hb h (h.released before m g c grant tail old)
          (hexecuted m flight executed.symm motion)
      · rw [inner] at old
        exact h.order.released before m g c grant mid flight tail' old motion
  · intro before c mid m flight rest split_ motion
    rcases append_split split_ with ⟨none,_,_⟩ | ⟨tail,some,old⟩
    · simp at none
    · rcases append_split some.symm with ⟨_,same,executed⟩ | ⟨tail',_,inner⟩
      · rw [same]
        exact executed_after_retirement hb h (h.retired before c tail old)
          (hexecuted m flight executed.symm motion)
      · rw [inner] at old
        exact h.order.retired before c mid m flight tail' old motion

/-- A member does not move: a motion command is in flight only when the loop
of the scheduler failed and the native robot was stopped. -/
structure Rests (s : State) (m : ℕ) : Prop where
  /-- It is not moving. -/
  motion : (s.members m).potentialMotion=false
  /-- No motion command is in flight. -/
  flights : ∀ flight, (s.members m).flight=some flight → flight.motion=true → Loose s m

/-- What an answer promises at once. -/
def Settled (s : State) : Event → Prop
  | .released m _ _ _ => Rests s m
  | .retired _ => ∀ m, Rests s m
  | _ => True

/-- A step adds at most one entry to the history, and what it promises holds. -/
def Announced (s s' : State) : Prop := s'.log=s.log ∨ ∃ event, s'.log=s.log ++ [event] ∧ Settled s' event

/-- A step keeps everything and its answers are true. -/
def Good (s s' : State) : Prop := Quiet s' ∧ Announced s s'

theorem good_calm (h : Quiet s) (hc : Calm s s') : Good s s' := ⟨quiet_calm h hc,Or.inl hc.log⟩

/-- A member whose control is free does not move. -/
theorem free_settled (hb : Books s) (h : Quiet s) (hf : (s.members m).controlHeld=false) : Rests s m := by
  refine ⟨?_,?_⟩
  · by_contra moving
    have held := hb.motion m (by simpa using moving)
    rw [hf] at held
    cases held
  · intro flight flies motion
    refine (h.flights m flight flies motion).moves.resolve_left (fun moves => ?_)
    have held := moves.held
    rw [hf] at held
    cases held

/-- Without a controller no member moves. -/
theorem vacant_settled (hb : Books s) (h : Quiet s) (hg : s.controller.generation=0) (m : ℕ) : Rests s m := by
  refine free_settled hb h ?_
  by_contra held
  exact hb.installed m (by simpa using held) hg

/-- A member without control work has no motion command in flight. -/
theorem idle_still (hb : Books s) (h : Quiet s) (hw : (s.members m).controlWork=0) : Still (s.members m) := by
  intro flight flies
  by_contra motion
  have moves := h.flights m flight flies (by simpa using motion)
  have counted := hb.counted m flight flies moves.work
  omega

/-- The retired generation of a member only grows when its control ends. -/
theorem fenced_without {a b : Member} {g c : ℕ} (hr : a.retiredControlGeneration ≤ a.controlGeneration)
    (ho : b.controlOwner=a.controlOwner) (hh : b.controlHeld=false)
    (hg : b.retiredControlGeneration=a.controlGeneration) (hf : Fenced g c a) : Fenced g c b := by
  intro owner
  rw [ho] at owner
  have before := (hf owner).1
  refine ⟨by omega,fun held => ?_⟩
  rw [hh] at held
  cases held

end Changes

section Controllers

variable {s : State} {m r : ℕ}

/-- The controller after its installation. -/
def installedController (request : InstallControllerRequest) (c : Controller) : Controller :=
  {c with
    generation := request.generation, openId := request.openId, grant := request.controllerGrant,
    binding := request.binding}

/-- An installation is refused, repeats the current one or fills the place of a retired controller. -/
theorem installController_cases (site : Site) (unixPeer : Bool) (request : InstallControllerRequest) (c : Controller) :
    (∃ code message, installController site unixPeer request c=(.error code message,c)) ∨
      installController site unixPeer request c=(.ok,c) ∨
      (c.generation=0 ∧ c.retiredGeneration<request.generation ∧
        installController site unixPeer request c=(.ok,installedController request c)) := by
  unfold installController
  split
  · exact Or.inl ⟨_,_,rfl⟩
  · split
    · exact Or.inl ⟨_,_,rfl⟩
    · split
      · split
        · exact Or.inl ⟨_,_,rfl⟩
        · exact Or.inr (Or.inl rfl)
      · next free =>
        split
        · exact Or.inl ⟨_,_,rfl⟩
        · next fresh => exact Or.inr (Or.inr ⟨not_not.mp free,by omega,rfl⟩)

/-- A new controller takes a free place; its installation is in every later history. -/
theorem quiet_installed {request : InstallControllerRequest} (hb : Books s) (h : Quiet s)
    (vacant : s.controller.generation=0) (fresh : s.controller.retiredGeneration<request.generation) :
    Quiet (State.logged {s with controller := installedController request s.controller}
      (.installed request.generation request.controllerGrant)) := by
  have unheld : ∀ m, (s.members m).controlHeld=false := by
    intro m
    by_contra held
    exact hb.installed m (by simpa using held) vacant
  refine ⟨?_,h.closed,?_,h.alone,fun _ => fresh,?_,?_,?_,?_⟩
  · intro i flight flies motion
    have old := h.flights i flight flies motion
    refine ⟨old.work,Or.inr (old.moves.resolve_left (fun moves => ?_))⟩
    have held := moves.held
    rw [unheld i] at held
    cases held
  · intro i called j native waits
    exact absurd vacant (h.releases i called j native waits).installed
  · intro before i g c grant after split_
    rcases append_split split_ with ⟨_,_,never⟩ | ⟨rest,some,old⟩
    · cases never
    · have earlier := h.released before i g c grant rest old
      have past : c ≤ s.controller.retiredGeneration :=
        earlier.past.resolve_left (fun same => earlier.nonzero (same.symm.trans vacant))
      refine ⟨earlier.nonzero,Or.inr past,?_,earlier.fenced,?_⟩
      · intro same
        simp only [State.logged,installedController] at same
        omega
      · intro _
        rw [some]
        exact Or.inr (List.mem_append_right _ (List.mem_singleton_self _))
  · intro before c after split_
    rcases append_split split_ with ⟨_,_,never⟩ | ⟨rest,some,old⟩
    · cases never
    · rw [some]
      exact ⟨(h.retired before c rest old).past,fun _ => List.mem_append_right _ (List.mem_singleton_self _)⟩
  · intro before i g c grant mid flight rest split_ motion
    rcases append_split split_ with ⟨none,_,_⟩ | ⟨tail,some,old⟩
    · simp at none
    · rcases append_split some.symm with ⟨_,_,never⟩ | ⟨tail',_,inner⟩
      · cases never
      · rw [inner] at old
        exact h.order.released before i g c grant mid flight tail' old motion
  · intro before c mid i flight rest split_ motion
    rcases append_split split_ with ⟨none,_,_⟩ | ⟨tail,some,old⟩
    · simp at none
    · rcases append_split some.symm with ⟨_,_,never⟩ | ⟨tail',_,inner⟩
      · cases never
      · rw [inner] at old
        exact h.order.retired before c mid i flight tail' old motion

theorem installEnter_good (site : Site) (unixPeer : Bool) (request : InstallControllerRequest) (hb : Books s)
    (h : Quiet s) : Good s (installEnter site unixPeer request s) := by
  unfold installEnter
  rcases installController_cases site unixPeer request s.controller with ⟨code,message,same⟩ | same | ⟨vacant,fresh,same⟩
  · rw [same]
    exact good_calm h (calm_addRpc hb rfl)
  · rw [same]
    have logged : Quiet (s.logged (.installed request.generation request.controllerGrant)) :=
      quiet_logged hb h (fun _ _ _ _ never => by cases never) (fun _ never => by cases never)
        (fun _ _ never => by cases never)
    exact ⟨quiet_calm logged (calm_addRpc (books_logged hb _) rfl),Or.inr ⟨_,rfl,trivial⟩⟩
  · rw [same]
    refine ⟨quiet_calm (quiet_installed hb h vacant fresh) ?_,Or.inr ⟨_,rfl,trivial⟩⟩
    have called : ∀ i, releasing ((s.addRpc (.answered .ok)).rpcs i)=releasing (s.rpcs i) := by
      have added : Calm s (s.addRpc (.answered .ok)) := calm_addRpc hb rfl
      exact added.calls
    exact ⟨fun _ => calmMember_refl _,rfl,rfl,rfl,id,called,rfl⟩

end Controllers

section Control

variable {s : State} {m r : ℕ}

/-- A free and open member has no motion command and no waiting release. -/
theorem free_alone (h : Quiet s) (hheld : (s.members m).controlHeld=false) (hclosing : (s.members m).closing=false) :
    Still (s.members m) ∧ ∀ r request native, releasing (s.rpcs r)≠some (request,m,native) := by
  refine ⟨?_,?_⟩
  · intro flight flies
    by_contra motion
    rcases (h.flights m flight flies (by simpa using motion)).moves with moves | loose
    · have held := moves.held
      rw [hheld] at held
      cases held
    · have closed := h.closed m loose.2
      rw [hclosing] at closed
      cases closed
  · intro r request native waits
    rcases (h.releases r request m native waits).fixed with held | closing
    · rw [hheld] at held
      cases held
    · rw [hclosing] at closing
      cases closing

/-- A change of a free and open member that admits no motion command. -/
theorem quiet_free {change : Member → Member} {g : Controller → Controller} (h : Quiet s)
    (hheld : (s.members m).controlHeld=false) (hclosing : (s.members m).closing=false)
    (hg : (g s.controller).generation=s.controller.generation ∧
      (g s.controller).retiredGeneration=s.controller.retiredGeneration ∧ (g s.controller).grant=s.controller.grant)
    (hf : (change (s.members m)).flight=(s.members m).flight ∧
      (change (s.members m)).nativeStopped=(s.members m).nativeStopped)
    (howner : (change (s.members m)).controlOwner=(s.members m).controlOwner ∨
      (change (s.members m)).controlOwner=s.controller.generation)
    (hfenced : ∀ g c, (s.controller.generation=c → (s.members m).controlOwner=c) → Fenced g c (s.members m) →
      Fenced g c (change (s.members m))) : Quiet ((s.setMember m change).setController g) := by
  obtain ⟨still,none_⟩ := free_alone h hheld hclosing
  have member : ((s.setMember m change).setController g).members m=change (s.members m) := setMember_same s m change
  refine quiet_change h (fun i hi => setMember_other s hi change) hg rfl rfl ?_ ?_ ?_ ?_ ?_ ?_
  · rw [member,hf.2]
    intro stopped
    have closed := h.closed m stopped
    rw [hclosing] at closed
    cases closed
  · intro flight flies motion
    rw [member,hf.1] at flies
    rw [still flight flies] at motion
    cases motion
  · intro i request j native waits
    refine Or.inl ⟨?_,waits⟩
    intro same
    rw [same] at waits
    exact none_ i request native waits
  · intro i i' request request' native native' waits
    exact absurd waits (none_ i request native)
  · rw [member]
    exact howner
  · intro g' c owner fenced
    rw [member]
    exact hfenced g' c owner fenced

theorem takeControl_good {request : ControlRequest} (now : ℕ) (h : Quiet s)
    (hr : releasing (s.rpcs r)=none) (hclosing : (s.members m).closing=false) :
    Good s (takeControl r m request now s) := by
  unfold takeControl
  simp only []
  split
  · split <;> exact good_calm h (calm_setRpc hr.symm)
  · next free =>
    have unheld : (s.members m).controlHeld=false := by simpa using free
    split
    · exact good_calm h (calm_setRpc hr.symm)
    · next fresh =>
      split
      · exact good_calm h (calm_setRpc hr.symm)
      · have taken : Quiet ((s.setMember m (heldBy request.generation now)).setHeld m) := by
          refine quiet_free h unheld hclosing ⟨rfl,rfl,rfl⟩ ⟨rfl,rfl⟩ (Or.inl rfl) ?_
          intro g c _ fenced owner
          have before := (fenced owner).1
          refine ⟨before,fun _ => ?_⟩
          simp only [heldBy]
          omega
        have calls : releasing (((s.setMember m (heldBy request.generation now)).setHeld m).rpcs r)=none := hr
        exact ⟨quiet_calm taken (calm_setRpc calls.symm),Or.inl rfl⟩

theorem acquireCommit_good {request : ControlRequest} (cancelled : Bool) (now : ℕ) (h : Quiet s)
    (hr : releasing (s.rpcs r)=none) : Good s (acquireCommit r m request cancelled now s) := by
  unfold acquireCommit
  simp only []
  split
  · exact good_calm h (calm_setRpc hr.symm)
  · split
    · exact good_calm h (calm_setRpc hr.symm)
    · next available =>
      have open_ : (s.members m).closing=false := by
        by_contra closed
        simp [closed] at available
      split
      · exact good_calm h (calm_setRpc hr.symm)
      · split
        · exact good_calm h (calm_setRpc hr.symm)
        · next free =>
          have adopt : Quiet ((s.setMember m (adopted s.controller.generation)).setController id) := by
            by_cases owner : (s.members m).controlOwner=s.controller.generation
            · have keep : adopted s.controller.generation (s.members m)=s.members m := if_neg (not_not.mpr owner)
              refine quiet_calm h (calm_setMember ?_)
              rw [keep]
              exact calmMember_refl _
            · push Not at free
              have unheld : (s.members m).controlHeld=false := by simpa using (free owner).2.1
              refine quiet_free h unheld open_ ⟨rfl,rfl,rfl⟩ ?_ ?_ ?_
              · simp [adopted,owner]
              · simp [adopted,owner]
              · intro g c same fenced owner'
                have new : s.controller.generation=c := by simpa [adopted,owner] using owner'
                exact absurd ((same new).trans new.symm) owner
          have still_open : ((s.setMember m (adopted s.controller.generation)).members m).closing=false := by
            rw [setMember_same]
            unfold adopted
            split <;> exact open_
          have taken : Good (s.setMember m (adopted s.controller.generation))
              (takeControl r m request now (s.setMember m (adopted s.controller.generation))) :=
            takeControl_good now adopt hr still_open
          exact ⟨taken.1,taken.2⟩

theorem renewals_calm (now : ℕ) (renewals : List (Option ℕ × ℕ)) :
    ∀ s : State, Calm s (renewals.foldl (renewOne now) s) := by
  induction renewals with
  | nil => exact calm_refl
  | cons renewal rest ih =>
    intro s
    refine calm_trans ?_ (ih (renewOne now s renewal))
    unfold renewOne
    split
    · exact calm_refl s
    · split
      · exact calm_setMember (calmMember_same ⟨rfl,rfl,rfl,rfl,rfl,rfl⟩ id ⟨rfl,rfl⟩)
      · exact calm_refl s

theorem renewCommit_good {request : RenewControlRequest} {members : List (Option ℕ)} (cancelled : Bool) (now : ℕ)
    (h : Quiet s) (hr : releasing (s.rpcs r)=none) : Good s (renewCommit r request members cancelled now s) := by
  unfold renewCommit
  split
  · exact good_calm h (calm_setRpc hr.symm)
  · split
    · exact good_calm h (calm_setRpc hr.symm)
    · have renewed := renewals_calm now (members.zip (request.members.map Prod.snd)) s
      exact good_calm h (calm_trans renewed (calm_setRpc ((renewed.calls r).trans hr).symm))

/-- An answer that a release is joined. -/
theorem good_released (s' : State) {g c : ℕ} {grant : Bytes} (hb : Books s') (h : Quiet s') (hlog : s'.log=s.log)
    (hfree : (s'.members m).controlHeld=false) (hr : Released s' m g c []) :
    Good s (s'.logged (.released m g c grant)) := by
  refine ⟨quiet_logged hb h ?_ (fun _ never => by cases never) (fun _ _ never => by cases never),
    Or.inr ⟨.released m g c grant,?_,?_⟩⟩
  · intro m' g' c' grant' same
    cases same
    exact hr
  · exact congrArg (· ++ [_]) hlog
  · have settled := free_settled hb h hfree
    exact ⟨settled.motion,settled.flights⟩

theorem releaseEnter_good {request : ControlRequest} (cancelled : Bool) (now : ℕ) (hb : Books s) (h : Quiet s)
    (hr : s.rpcs r=.releaseFound request m) : Good s (releaseEnter r m request cancelled now s) := by
  have idle : releasing (s.rpcs r)=none := by rw [hr]; rfl
  have exists_ : r<s.rpcCount := born hb (by rw [hr]; exact fun same => by cases same)
  have answered : ∀ reply, Good s (s.answer r reply) := fun reply => good_calm h (calm_setRpc idle.symm)
  unfold releaseEnter
  simp only []
  split
  · exact answered _
  · next current =>
    simp only [Bool.or_eq_true,Bool.not_eq_true',decide_eq_true_eq,not_or,Bool.not_eq_false,not_not] at current
    have installed := (controllerCredential_facts current.1).1
    split
    · next repeated =>
      simp only [Bool.and_eq_true,Bool.not_eq_true',decide_eq_true_eq] at repeated
      have still : waiting (s.rpcs r)=0 := by rw [hr]; rfl
      refine good_released (s.answer r .ok) (books_answer hb exists_ still .ok) (answered .ok).1 rfl repeated.1 ?_
      refine ⟨installed,Or.inl rfl,fun _ => current.2,?_,fun _ => Or.inl rfl⟩
      intro _
      have same : (s.answer r .ok).members m=s.members m := rfl
      rw [same]
      refine ⟨repeated.2.le,fun held => ?_⟩
      rw [repeated.1] at held
      cases held
    · split
      · exact answered _
      · next matches_ =>
        simp only [Bool.or_eq_true,Bool.not_eq_true',decide_eq_true_eq,not_or,Bool.not_eq_false,not_not] at matches_
        split
        · exact answered _
        · split
          · exact answered _
          · next unoccupied =>
            simp only [Bool.or_eq_true,not_or,Bool.not_eq_true] at unoccupied
            refine ⟨?_,Or.inl rfl⟩
            have none_ : ∀ i request' native, releasing (s.rpcs i)≠some (request',m,native) := by
              intro i request' native waits
              have waiting := (h.releases i request' m native waits).waiting
              rw [unoccupied.1] at waiting
              cases waiting
            refine quiet_change (m := m) h (fun i hi => Function.update_of_ne hi ..) ⟨rfl,rfl,rfl⟩ rfl rfl ?_ ?_ ?_ ?_ ?_ ?_
            · simpa [State.setRpc,State.setController,State.setMember] using h.closed m
            · intro flight flies motion
              have before : (s.members m).flight=some flight := by
                simpa [State.setRpc,State.setController,State.setMember] using flies
              refine carried_kept (h.flights m flight before motion) ?_ ⟨rfl,rfl⟩ id
              simp [State.setRpc,State.setController,State.setMember]
            · intro i request' j native waits
              by_cases hi : i=r
              · rw [hi,setRpc_same] at waits
                cases waits
                refine Or.inr ⟨rfl,?_⟩
                refine ⟨?_,?_,Or.inl ?_,?_,installed,?_,fun never => by cases never⟩ <;>
                  simp [State.setRpc,State.setController,State.setMember,current.2,matches_]
              · rw [setRpc_other _ hi] at waits
                refine Or.inl ⟨fun same => ?_,waits⟩
                rw [same] at waits
                exact none_ i request' native waits
            · intro i i' request' request'' native native' waits waits'
              have only : ∀ k request' native, releasing ((((s.setMember m (fun member =>
                  {member with controlRetiring := true, controlReleaseWaiting := true, silentSince := now})).setController
                    fun c => {c with work := c.work+1}).setRpc r (.releaseWaiting request m)).rpcs k)=
                      some (request',m,native) → k=r := by
                intro k called native waits
                by_contra hk
                rw [setRpc_other _ hk] at waits
                exact none_ k called native waits
              rw [only i _ _ waits,only i' _ _ waits']
            · exact Or.inl (by simp [State.setRpc,State.setController,State.setMember])
            · intro g c _ fenced
              simpa [Fenced,State.setRpc,State.setController,State.setMember] using fenced

/-- A waiting release that ends keeps everything, when its member may change so. -/
theorem quiet_leave {s' : State} {request : ControlRequest} {native : Bool} (h : Quiet s)
    (hr : releasing (s.rpcs r)=some (request,m,native)) (hother : ∀ i, i≠m → s'.members i=s.members i)
    (hg : s'.controller.generation=s.controller.generation ∧
      s'.controller.retiredGeneration=s.controller.retiredGeneration ∧ s'.controller.grant=s.controller.grant)
    (hlog : s'.log=s.log) (hs : s'.scheduler=s.scheduler) (hrpc : ∀ i, i≠r → s'.rpcs i=s.rpcs i)
    (hdone : releasing (s'.rpcs r)=none)
    (hclosed : (s'.members m).nativeStopped=true → (s'.members m).closing=true)
    (hflight : ∀ flight, (s'.members m).flight=some flight → flight.motion=true → Carried s' m flight)
    (howner : (s'.members m).controlOwner=(s.members m).controlOwner)
    (hfenced : ∀ g c, Fenced g c (s.members m) → Fenced g c (s'.members m)) : Quiet s' := by
  have none_ : ∀ i request' native', releasing (s'.rpcs i)≠some (request',m,native') := by
    intro i request' native' waits
    by_cases hi : i=r
    · rw [hi,hdone] at waits
      cases waits
    · rw [hrpc i hi] at waits
      exact hi (h.alone i r request' request m native' native waits hr)
  refine quiet_change h hother hg hlog hs hclosed hflight ?_ ?_ (Or.inl howner) (fun g c _ => hfenced g c)
  · intro i request' j native' waits
    refine Or.inl ⟨fun same => ?_,?_⟩
    · rw [same] at waits
      exact none_ i request' native' waits
    · by_cases hi : i=r
      · rw [hi,hdone] at waits
        cases waits
      · rwa [hrpc i hi] at waits
  · intro i i' request' request'' native' native'' waits
    exact absurd waits (none_ i request' native')

theorem leaveRelease_answer_quiet {request : ControlRequest} {native : Bool} (h : Quiet s)
    (hr : releasing (s.rpcs r)=some (request,m,native)) (reply : Reply) : Quiet ((leaveRelease m s).answer r reply) := by
  have member : ((leaveRelease m s).answer r reply).members m={s.members m with controlReleaseWaiting := false} :=
    Function.update_self ..
  refine quiet_leave h hr (fun i hi => Function.update_of_ne hi ..) ⟨rfl,rfl,rfl⟩ rfl rfl
    (fun i hi => setRpc_other _ hi _) ?_ ?_ ?_ ?_ ?_
  · exact congrArg releasing (setRpc_same _ r _)
  · rw [member]
    exact h.closed m
  · intro flight flies motion
    rw [member] at flies
    refine carried_kept (h.flights m flight flies motion) ?_ ⟨rfl,rfl⟩ id
    rw [member]
    exact ⟨rfl,rfl,id⟩
  · rw [member]
  · intro g c fenced
    rw [member]
    exact fenced

theorem releaseWake_good {request : ControlRequest} (hb : Books s) (h : Quiet s)
    (hr : s.rpcs r=.releaseWaiting request m) : Good s (releaseWake r m request s) := by
  have waits : releasing (s.rpcs r)=some (request,m,false) := by rw [hr]; rfl
  have old := h.releases r request m false waits
  unfold releaseWake
  simp only []
  split
  · exact good_calm h (calm_refl s)
  · next wakes =>
    have left : ∀ reply, Quiet ((leaveRelease m s).answer r reply) := leaveRelease_answer_quiet h waits
    have member : ∀ reply, ((leaveRelease m s).answer r reply).members m=
      {s.members m with controlReleaseWaiting := false} := fun _ => Function.update_self ..
    split
    · next gone =>
      have free : (s.members m).controlHeld=false := by simpa using gone
      split
      · exact ⟨left _,Or.inl rfl⟩
      · next same =>
        have books := leaveRelease_answer_books hb hr .ok
        refine good_released ((leaveRelease m s).answer r .ok) books (left .ok) rfl ?_ ?_
        · rw [member]
          exact free
        · refine ⟨old.installed,Or.inl rfl,?_,?_,fun _ => Or.inl rfl⟩
          · intro _
            rw [member]
            exact old.owner
          · intro _
            rw [member]
            refine ⟨(not_not.mp same).le,fun held => ?_⟩
            rw [free] at held
            cases held
    · next held =>
      have idle : (s.members m).controlWork=0 := by
        unfold releaseWakes at wakes
        simp at held
        simp [held] at wakes
        exact wakes.1
      refine ⟨?_,Or.inl rfl⟩
      have same : (((s.setMember m (fun member => {member with controlFinishing := true})).setRpc r
          (.releaseNative request m (s.members m).potentialMotion)).members m)=
          {s.members m with controlFinishing := true} := Function.update_self ..
      refine quiet_change (m := m) h (fun i hi => Function.update_of_ne hi ..) ⟨rfl,rfl,rfl⟩ rfl rfl ?_ ?_ ?_ ?_ ?_ ?_
      · rw [same]
        exact h.closed m
      · intro flight flies motion
        rw [same] at flies
        rw [idle_still hb h idle flight flies] at motion
        cases motion
      · intro i request' j native waits'
        by_cases hi : i=r
        · rw [hi,setRpc_same] at waits'
          cases waits'
          refine Or.inr ⟨rfl,?_,?_,?_,?_,old.installed,?_,fun _ => ?_⟩ <;> rw [same]
          · exact old.waiting
          · exact old.retiring
          · exact old.fixed
          · exact old.owner
          · exact old.generation
          · exact idle_still hb h idle
        · rw [setRpc_other _ hi] at waits'
          refine Or.inl ⟨fun equal => ?_,waits'⟩
          rw [equal] at waits'
          exact hi (h.alone i r request' request m native false waits' waits)
      · have only : ∀ k request' native, releasing (((s.setMember m (fun member =>
            {member with controlFinishing := true})).setRpc r
              (.releaseNative request m (s.members m).potentialMotion)).rpcs k)=some (request',m,native) → k=r := by
          intro k called native waits'
          by_contra hk
          rw [setRpc_other _ hk] at waits'
          exact hk (h.alone k r called request m native false waits' waits)
        intro i i' request' request'' native native' first second
        rw [only i _ _ first,only i' _ _ second]
      · exact Or.inl (by rw [same])
      · intro g c _ fenced
        rw [same]
        exact fenced

theorem releaseTimeout_good {request : ControlRequest} (h : Quiet s) (hr : s.rpcs r=.releaseWaiting request m) :
    Good s (releaseTimeout r m s) := by
  have waits : releasing (s.rpcs r)=some (request,m,false) := by rw [hr]; rfl
  unfold releaseTimeout
  split
  · exact good_calm h (calm_refl s)
  · exact ⟨leaveRelease_answer_quiet h waits _,Or.inl rfl⟩

theorem releaseReturn_good {request : ControlRequest} {native : Bool} (success : Bool) (hb : Books s) (h : Quiet s)
    (hr : s.rpcs r=.releaseNative request m native) : Good s (releaseReturn r m request success s) := by
  have waits : releasing (s.rpcs r)=some (request,m,true) := by rw [hr]; rfl
  have old := h.releases r request m true waits
  have books := releaseReturn_books success hb hr
  unfold releaseReturn at books ⊢
  simp only [] at books ⊢
  split
  · have back : Quiet (s.setMember m (fun member => {member with controlFinishing := false})) :=
      quiet_calm h (calm_setMember (calmMember_same ⟨rfl,rfl,rfl,rfl,rfl,rfl⟩ id ⟨rfl,rfl⟩))
    exact ⟨leaveRelease_answer_quiet back waits _,Or.inl rfl⟩
  · next done =>
    rw [if_neg done] at books
    -- the freed member is stated once; the answer is the last entry of the history
    have freed : ∀ final : State, (∀ i, i≠m → final.members i=s.members i) →
        final.members m={withoutControl (s.members m) with
          controlFinishing := false, controlRetiring := false, controlReleaseWaiting := false} →
        final.controller={s.controller with
          members := s.controller.members.filter (fun other => other≠m), work := s.controller.work-1} →
        final.log=s.log → final.scheduler=s.scheduler → final.rpcs=Function.update s.rpcs r (.answered .ok) →
        Books final →
        Good s (final.logged (.released m request.generation s.controller.generation request.controllerGrant)) := by
      intro final hother hmember hcontroller hlog hscheduler hrpcs hbooks
      have free : (final.members m).controlHeld=false := by rw [hmember]; rfl
      have quiet : Quiet final := by
        refine quiet_leave h waits hother ?_ hlog hscheduler ?_ ?_ ?_ ?_ ?_ ?_
        · rw [hcontroller]
          exact ⟨rfl,rfl,rfl⟩
        · intro i hi
          rw [hrpcs,Function.update_of_ne hi]
        · rw [hrpcs,Function.update_self]
          rfl
        · rw [hmember]
          exact h.closed m
        · intro flight flies motion
          rw [hmember] at flies
          rw [old.quiet rfl flight flies] at motion
          cases motion
        · rw [hmember]
          rfl
        · intro g c fenced
          refine fenced_without (hb.retired m) ?_ free ?_ fenced
          · rw [hmember]
            rfl
          · rw [hmember]
            rfl
      have current : final.controller.generation=s.controller.generation := by rw [hcontroller]
      refine good_released final hbooks quiet hlog free ⟨old.installed,Or.inl current,?_,?_,fun _ => Or.inl current⟩
      · intro _
        rw [hmember]
        exact old.owner
      · intro _
        rw [hmember]
        exact ⟨old.generation.ge,fun never => by cases never⟩
    refine freed ((leaveRelease m (((s.setMember m (fun member => {member with controlFinishing := false})).setMember m
      (fun member => {withoutControl member with controlRetiring := false})).eraseHeld m)).answer r .ok)
      ?_ ?_ rfl rfl rfl rfl ?_
    · intro i hi
      simp [leaveRelease,State.answer,State.setRpc,State.setController,State.eraseHeld,State.setMember,hi]
    · simp [leaveRelease,State.answer,State.setRpc,State.setController,State.eraseHeld,State.setMember,withoutControl]
    · exact books_frame books (calls_same books rfl rfl) rfl rfl rfl (sameController_refl _) rfl rfl

end Control

section Retirement

variable {s : State} {m r : ℕ}

/-- An answer that a controller is retired. -/
theorem good_retired (s' : State) {c : ℕ} (hb : Books s') (h : Quiet s') (hlog : s'.log=s.log)
    (hvacant : s'.controller.generation=0) (hc : c ≤ s'.controller.retiredGeneration) :
    Good s (s'.logged (.retired c)) := by
  refine ⟨quiet_logged hb h (fun _ _ _ _ never => by cases never) ?_ (fun _ _ never => by cases never),
    Or.inr ⟨.retired c,?_,?_⟩⟩
  · intro c' same
    cases same
    exact ⟨hc,fun installed => absurd hvacant installed⟩
  · exact congrArg (· ++ [_]) hlog
  · have settled := vacant_settled hb h hvacant
    exact fun m => ⟨(settled m).motion,(settled m).flights⟩

/-- A retirement that is answered at once was answered before. -/
theorem retireController_repeats {site : Site} {unixPeer : Bool} {request : RetireControllerRequest} {c : Controller}
    (h : (retireController site unixPeer request c).1=some .ok) :
    c.generation=0 ∧ request.generation=c.retiredGeneration := by
  unfold retireController at h
  split at h
  · cases h
  · split at h
    · cases h
    · split at h
      · next same => exact ⟨same.1,same.2.1⟩
      · split at h <;> cases h

theorem retireEnter_good (site : Site) (unixPeer : Bool) (request : RetireControllerRequest) (hb : Books s)
    (h : Quiet s) : Good s (retireEnter site unixPeer request s) := by
  unfold retireEnter
  simp only []
  split
  · next waits =>
    have entered := retireController_waits waits
    have calm : Calm s (s.setController fun c => markControlDown {c with retiring := true}) :=
      calm_setController ⟨rfl,rfl,rfl⟩
    have same : {s with controller := (retireController site unixPeer request s.controller).2}=
        s.setController fun c => markControlDown {c with retiring := true} := by
      rw [entered.1]
      rfl
    rw [same]
    refine good_calm h (calm_trans calm ⟨fun _ => calmMember_refl _,rfl,rfl,rfl,id,?_,rfl⟩)
    have added : Calm s (s.addRpc (.retireWaiting request)) := calm_addRpc hb rfl
    exact added.calls
  · next again =>
    have repeated := retireController_repeats again
    have added : Quiet (s.addRpc (.answered .ok)) := quiet_calm h (calm_addRpc hb rfl)
    exact good_retired (s.addRpc (.answered .ok)) (books_refused hb .ok) added rfl repeated.1 repeated.2.le
  · exact good_calm h (calm_addRpc hb rfl)

theorem retireWake_good {request : RetireControllerRequest} (hb : Books s) (h : Quiet s)
    (hr : s.rpcs r=.retireWaiting request) : Good s (retireWake r request s) := by
  have idle : releasing (s.rpcs r)=none := by rw [hr]; rfl
  have exists_ : r<s.rpcCount := born hb (by rw [hr]; exact fun same => by cases same)
  have still : waiting (s.rpcs r)=0 := by rw [hr]; rfl
  unfold retireWake
  simp only []
  split
  · exact good_calm h (calm_refl s)
  · split
    · next vacant =>
      split
      · next same =>
        exact good_retired (s.answer r .ok) (books_answer hb exists_ still .ok) (quiet_calm h (calm_setRpc idle.symm)) rfl
          vacant same.1.le
      · exact good_calm h (calm_setRpc idle.symm)
    · split
      · have flagged : Calm s (s.setController fun c => {c with finishing := true}) := calm_setController ⟨rfl,rfl,rfl⟩
        exact good_calm h (calm_trans flagged (calm_setRpc idle.symm))
      · exact good_calm h (calm_setRpc idle.symm)

theorem retireMember_good {request : RetireControllerRequest} {left controls : List ℕ} (h : Quiet s)
    (hr : releasing (s.rpcs r)=none) : Good s (retireMember r m request left controls s) := by
  unfold retireMember
  simp only []
  split
  · exact good_calm h (calm_refl s)
  · split
    · exact good_calm h (calm_setRpc hr.symm)
    · have entered : Calm s (s.setMember m (fun member => {member with controlFinishing := true})) :=
        calm_setMember (calmMember_same ⟨rfl,rfl,rfl,rfl,rfl,rfl⟩ id ⟨rfl,rfl⟩)
      exact good_calm h (calm_trans entered (calm_setRpc hr.symm))

theorem retireAbandoned_calm (hr : releasing (s.rpcs r)=none) (reply : Reply) :
    Calm s (retireAbandoned r reply s) := by
  have flagged : Calm s (s.setController fun c => {c with finishing := false}) := calm_setController ⟨rfl,rfl,rfl⟩
  exact calm_trans flagged (calm_setRpc hr.symm)

theorem retireReturn_good {request : RetireControllerRequest} {left controls : List ℕ} (success : Bool) (h : Quiet s)
    (hr : releasing (s.rpcs r)=none) : Good s (retireReturn r m request left controls success s) := by
  have back : Calm s (s.setMember m (fun member => {member with controlFinishing := false})) :=
    calm_setMember (calmMember_same ⟨rfl,rfl,rfl,rfl,rfl,rfl⟩ id ⟨rfl,rfl⟩)
  unfold retireReturn
  simp only []
  split
  · have same : releasing ((s.setMember m (fun member => {member with controlFinishing := false})).rpcs r)=none := hr
    exact good_calm h (calm_trans back (retireAbandoned_calm same _))
  · have stopped : Calm (s.setMember m (fun member => {member with controlFinishing := false}))
        ((s.setMember m (fun member => {member with controlFinishing := false})).setMember m
          (fun member => {member with potentialMotion := false})) :=
      calm_setMember (calmMember_same ⟨rfl,rfl,rfl,rfl,rfl,rfl⟩ id ⟨rfl,rfl⟩)
    exact good_calm h (calm_trans (calm_trans back stopped) (calm_setRpc hr.symm))

/-- Without control work no release waits. -/
theorem no_release (hb : Books s) (hw : s.controller.work=0) (i : ℕ) : releasing (s.rpcs i)=none := by
  cases found : s.rpcs i with
  | releaseWaiting _ _ | releaseNative _ _ _ =>
    have positive := waiter_counted (r := i) hb (born hb (by rw [found]; exact fun same => by cases same))
      (by rw [found]; rfl)
    omega
  | _ => rfl

/-- Without control work no member has any. -/
theorem no_work (hb : Books s) (hw : s.controller.work=0) (m : ℕ) : (s.members m).controlWork=0 := by
  by_cases hm : m<s.memberCount
  · have single : (s.members m).controlWork ≤ memberWork s :=
      Finset.single_le_sum (f := fun i => (s.members i).controlWork) (fun _ _ => Nat.zero_le _)
        (Finset.mem_range.mpr hm)
    have total := hb.work
    omega
  · rw [hb.blank m (by omega)]

theorem retireFinish_good {request : RetireControllerRequest} {controls : List ℕ} (now : ℕ) (hb : Books s) (h : Quiet s)
    (hr : s.rpcs r=.retireMembers request [] controls) : Good s (retireFinish r request controls now s) := by
  have books := retireFinish_books now hb hr
  have old : Retires s request [] controls := hb.retires r _ _ _ (by rw [hr]; rfl)
  unfold retireFinish at books ⊢
  split
  · exact good_calm h (calm_refl s)
  · next work =>
    have idle : s.controller.work=0 := not_not.mp work
    have ahead := h.ahead (hb.retiring (Or.inl old.retiring))
    rw [if_neg work] at books
    obtain ⟨members,list,fold,each,_⟩ := retireOne_fold request.generation now controls s
    rw [fold] at books ⊢
    have final : ∀ final : State, final.members=members →
        final.controller=retiredController {s.controller with members := list} → final.log=s.log →
        final.rpcs=Function.update s.rpcs r (.answered .ok) → Books final →
        Good s (final.logged (.retired request.generation)) := by
      intro final hmembers hcontroller hlog hrpcs hbooks
      have generation : final.controller.generation=0 := by rw [hcontroller]; rfl
      have retired : final.controller.retiredGeneration=s.controller.generation := by rw [hcontroller]; rfl
      have none_ : ∀ i, releasing (final.rpcs i)=none := by
        intro i
        rw [hrpcs]
        by_cases hi : i=r
        · rw [hi,Function.update_self]
          rfl
        · rw [Function.update_of_ne hi]
          exact no_release hb idle i
      have quiet : Quiet final := by
        refine ⟨?_,?_,?_,?_,fun installed => absurd generation installed,?_,?_,?_⟩
        · intro i flight flies motion
          have before : (s.members i).flight=some flight := by
            rw [hmembers] at flies
            rcases each i with keep | ⟨_,gone⟩
            · rwa [keep] at flies
            · rwa [gone] at flies
          rw [idle_still hb h (no_work hb idle i) flight before] at motion
          cases motion
        · intro i
          rw [hmembers]
          rcases each i with keep | ⟨_,gone⟩
          · rw [keep]
            exact h.closed i
          · rw [gone]
            exact h.closed i
        · intro i called j native waits
          rw [none_ i] at waits
          cases waits
        · intro i i' called called' j native native' waits
          rw [none_ i] at waits
          cases waits
        · intro before i g c grant after split_
          rw [hlog] at split_
          have earlier := h.released before i g c grant after split_
          refine ⟨earlier.nonzero,Or.inr ?_,?_,?_,fun installed => absurd generation installed⟩
          · rw [retired]
            rcases earlier.past with same | past
            · exact same.ge
            · omega
          · intro same
            exact absurd (same.symm.trans generation) earlier.nonzero
          · rw [hmembers]
            rcases each i with keep | ⟨_,gone⟩
            · rw [keep]
              exact earlier.fenced
            · rw [gone]
              exact fenced_without (hb.retired i) rfl rfl rfl earlier.fenced
        · intro before c after split_
          rw [hlog] at split_
          have earlier := (h.retired before c after split_).past
          refine ⟨?_,fun installed => absurd generation installed⟩
          rw [retired]
          omega
        · rw [hlog]
          exact h.order
      refine good_retired final hbooks quiet hlog generation ?_
      rw [retired]
      exact old.current.ge
    refine final (((({s with members := members, controller := {s.controller with members := list}} : State)).setController
      retiredController).answer r .ok) rfl rfl rfl rfl ?_
    exact books_frame books (calls_same books rfl rfl) rfl rfl rfl (sameController_refl _) rfl rfl

end Retirement

section Commands

variable {s : State} {m r : ℕ}

theorem dispatch_good (m : ℕ) (request : ExecuteRequest) (now : ℕ) (h : Quiet s) :
    Good s (dispatch m request now s) := by
  unfold dispatch
  split
  · exact good_calm h (calm_refl s)
  · split
    · next work admitted =>
      refine ⟨?_,Or.inl rfl⟩
      have member : ((s.setMember m (flying s.controller request work)).setController (countWork work)).members m=
        flying s.controller request work (s.members m) := Function.update_self ..
      have controller : (countWork work s.controller).generation=s.controller.generation ∧
          (countWork work s.controller).retiredGeneration=s.controller.retiredGeneration ∧
          (countWork work s.controller).grant=s.controller.grant := by
        cases work <;> exact ⟨rfl,rfl,rfl⟩
      refine quiet_change h (fun i hi => Function.update_of_ne hi ..) controller rfl rfl ?_ ?_ ?_ ?_ ?_ ?_
      · rw [member]
        exact h.closed m
      · intro flight flies motion
        rw [member] at flies
        simp only [flying,Option.some.injEq] at flies
        have moves : (s.members m).native.requiresControl request.operation=true := by
          rw [← flies] at motion
          exact motion
        obtain ⟨control,allowed⟩ := admission_motion admitted moves
        have facts := motionAllowed_facts allowed
        refine ⟨?_,Or.inl ⟨?_,?_,?_,?_⟩⟩
        · rw [← flies]
          exact control
        · rw [member]
          exact facts.2.2.2.1
        · rw [← flies]
          exact controller.1.symm
        · rw [member,← flies]
          exact facts.2.2.2.2.2.2.2.symm
        · rw [← flies]
          exact facts.2.2.1.trans controller.2.2.symm
      · intro i called j native waits
        by_cases hj : j=m
        · rw [hj] at waits
          have old := h.releases i called m native waits
          refine Or.inr ⟨hj,?_,?_,?_,?_,?_,?_,?_⟩ <;> (try rw [member])
          · exact old.waiting
          · exact old.retiring
          · exact old.fixed
          · exact old.owner.trans controller.1.symm
          · intro zero
            exact old.installed (controller.1.symm.trans zero)
          · exact old.generation
          · intro _ flight flies
            simp only [flying,Option.some.injEq] at flies
            -- a release is under way, so no motion command is admitted
            by_contra motion
            have moves : (s.members m).native.requiresControl request.operation=true := by
              rw [← flies] at motion
              simpa using motion
            have facts := motionAllowed_facts (admission_motion admitted moves).2
            have retiring := old.retiring
            rw [facts.2.2.2.2.1] at retiring
            cases retiring
        · exact Or.inl ⟨hj,waits⟩
      · intro i i' called called' native native' waits waits'
        exact h.alone i i' called called' m native native' waits waits'
      · exact Or.inl (by rw [member]; rfl)
      · intro g c _ fenced
        rw [member]
        exact fenced
    · exact good_calm h (calm_refl s)

theorem execute_good (m : ℕ) (hb : Books s) (h : Quiet s) : Good s (execute m s) := by
  unfold execute
  split
  · next flight flies =>
    split
    · exact good_calm h (calm_refl s)
    next ready =>
      have started : Calm s (s.setMember m (fun member => {member with flight := some {flight with started := true}})) :=
        calm_setMember ⟨rfl,rfl,rfl,rfl,rfl,rfl,id,rfl,Or.inr ⟨flight,true,flies,rfl⟩⟩
      have books : Books (s.setMember m (fun member => {member with flight := some {flight with started := true}})) := by
        have hm : m<s.memberCount := by
          by_contra missing
          rw [hb.blank m (by omega)] at flies
          cases flies
        refine books_setMember hb hm ⟨rfl,rfl,rfl,rfl,rfl⟩ id ?_
        intro other same controls
        cases same
        exact ⟨flight,flies,controls⟩
      refine ⟨quiet_logged books (quiet_calm h started) (fun _ _ _ _ never => by cases never)
        (fun _ never => by cases never) ?_,Or.inr ⟨.executed m flight,rfl,trivial⟩⟩
      intro i other same motion
      cases same
      have old := (h.flights m flight flies motion).moves.resolve_right
        (fun loose => ready (Or.inl loose.1))
      refine ⟨?_,old.admitted,?_,old.grant⟩
      · rw [setMember_same]
        exact old.held
      · rw [setMember_same]
        exact old.generation
  · exact good_calm h (calm_refl s)

theorem complete_good (m : ℕ) (succeeded : Bool) (h : Quiet s) : Good s (complete m succeeded s) := by
  unfold complete
  split
  · next flight flies =>
    split
    · exact good_calm h (calm_refl s)
    · have landed_ : Calm s (s.setMember m (landed flight succeeded)) :=
        calm_setMember ⟨rfl,rfl,rfl,rfl,rfl,rfl,id,rfl,Or.inl rfl⟩
      refine good_calm h (calm_trans landed_ (calm_setController ?_))
      unfold discountWork
      split <;> exact ⟨rfl,rfl,rfl⟩
  · exact good_calm h (calm_refl s)

theorem coreSilent_good (released : Bool) (h : Quiet s) : Good s (coreSilent released s) := by
  have back : Calm s {s with watching := none} := ⟨fun _ => calmMember_refl _,rfl,rfl,rfl,id,fun _ => rfl,rfl⟩
  unfold coreSilent
  split
  · exact good_calm h (calm_refl s)
  · next m _ =>
    simp only []
    split
    · have stopped : Calm {s with watching := none} (State.setMember {s with watching := none} m
          (fun member => {member with potentialMotion := false})) :=
        calm_setMember (calmMember_same ⟨rfl,rfl,rfl,rfl,rfl,rfl⟩ id ⟨rfl,rfl⟩)
      exact good_calm h (calm_trans back stopped)
    · exact good_calm h back

theorem register_good (identity : MemberIdentity) (native : NativeRobot) (hb : Books s) (h : Quiet s) :
    Good s (register identity native s) := by
  unfold register
  split
  · exact good_calm h (calm_refl s)
  · refine ⟨?_,Or.inl rfl⟩
    have blank := hb.blank s.memberCount (le_refl _)
    have none_ : ∀ i called native', releasing (s.rpcs i)≠some (called,s.memberCount,native') := by
      intro i called native' waits
      have targeted := hb.targeted i s.memberCount
      cases found : s.rpcs i <;> rw [found] at waits targeted <;> cases waits
      · exact absurd (targeted (List.mem_singleton_self _)) (Nat.lt_irrefl _)
      · exact absurd (targeted (List.mem_singleton_self _)) (Nat.lt_irrefl _)
    refine quiet_change (m := s.memberCount) h (fun i hi => Function.update_of_ne hi ..) ⟨rfl,rfl,rfl⟩ rfl rfl ?_ ?_ ?_ ?_ ?_ ?_
    · intro stopped
      simp at stopped
    · intro flight flies
      simp at flies
    · intro i called j native' waits
      refine Or.inl ⟨fun same => ?_,waits⟩
      rw [same] at waits
      exact none_ i called native' waits
    · intro i i' called called' native' native'' waits
      exact absurd waits (none_ i called native')
    · exact Or.inl (by simp [blank])
    · intro g c _ fenced
      rw [blank] at fenced
      simpa [Fenced] using fenced

theorem stopMember_good (m : ℕ) (hb : Books s) (h : Quiet s) : Good s (stopMember m s) := by
  unfold stopMember
  split
  · exact good_calm h (calm_refl s)
  · next guard =>
    simp only [Bool.or_eq_true,Bool.not_eq_true',decide_eq_true_eq,not_or,Bool.not_eq_false,Bool.and_eq_true,
      not_and] at guard
    have closing := guard.1.1
    refine ⟨?_,Or.inl rfl⟩
    have member : ((s.setMember m stoppedMember).eraseHeld m).members m=stoppedMember (s.members m) :=
      Function.update_self ..
    refine quiet_change h (fun i hi => Function.update_of_ne hi ..) ⟨rfl,rfl,rfl⟩ rfl rfl ?_ ?_ ?_ ?_ ?_ ?_
    · rw [member]
      exact fun _ => closing
    · intro flight flies motion
      have before : (s.members m).flight=some flight := by
        rw [member] at flies
        exact flies
      -- a command is left only when the loop of the scheduler has failed
      have failed : s.scheduler≠.running := by
        intro running
        have none_ := guard.2 running
        rw [before] at none_
        exact none_ rfl
      refine ⟨(h.flights m flight before motion).work,Or.inr ⟨failed,?_⟩⟩
      rw [member]
      rfl
    · intro i called j native waits
      by_cases hj : j=m
      · rw [hj] at waits
        have old := h.releases i called m native waits
        refine Or.inr ⟨hj,?_,?_,Or.inr ?_,?_,old.installed,?_,?_⟩ <;> rw [member]
        · exact old.waiting
        · exact old.retiring
        · exact closing
        · exact old.owner
        · exact old.generation
        · exact old.quiet
      · exact Or.inl ⟨hj,waits⟩
    · intro i i' called called' native native' waits waits'
      exact h.alone i i' called called' m native native' waits waits'
    · exact Or.inl (by rw [member]; rfl)
    · intro g c _ fenced
      rw [member]
      exact fenced_without (hb.retired m) rfl rfl rfl fenced

end Commands

section Runs

variable {s : State} {m r : ℕ}

theorem proceed_good (r : ℕ) (cancelled : Bool) (now : ℕ) (hb : Books s) (h : Quiet s) :
    Good s (proceed r cancelled now s) := by
  unfold proceed
  split
  · next hr =>
    have idle : releasing (s.rpcs r)=none := by rw [hr]; rfl
    unfold acquireFind
    split <;> exact good_calm h (calm_setRpc idle.symm)
  · next hr => exact acquireCommit_good cancelled now h (by rw [hr]; rfl)
  · next hr =>
    have idle : releasing (s.rpcs r)=none := by rw [hr]; rfl
    unfold renewFind
    split <;> exact good_calm h (calm_setRpc idle.symm)
  · next hr => exact renewCommit_good cancelled now h (by rw [hr]; rfl)
  · next hr =>
    have idle : releasing (s.rpcs r)=none := by rw [hr]; rfl
    unfold releaseFind
    split <;> exact good_calm h (calm_setRpc idle.symm)
  · next hr => exact releaseEnter_good cancelled now hb h hr
  · next hr => exact releaseWake_good hb h hr
  · next hr => exact retireWake_good hb h hr
  · next hr => exact retireMember_good h (by rw [hr]; rfl)
  · next hr => exact retireFinish_good now hb h hr
  · next request hr =>
    have idle : releasing (s.rpcs r)=none := by rw [hr]; rfl
    unfold retireStatusWake
    split
    · exact good_calm h (calm_refl s)
    · have slots := slotsOnly_retireStatusAnswer request s.controller
      have answered : Calm s (s.setController fun c => (retireStatusAnswer request c).2) :=
        calm_setController (by rw [slots]; exact ⟨rfl,rfl,rfl⟩)
      exact good_calm h (calm_trans answered (calm_setRpc idle.symm))
  · exact good_calm h (calm_refl s)
  · exact good_calm h (calm_refl s)
  · exact good_calm h (calm_refl s)

theorem returned_good (r : ℕ) (success : Bool) (hb : Books s) (h : Quiet s) : Good s (returned r success s) := by
  unfold returned
  split
  · next hr => exact releaseReturn_good _ hb h hr
  · next hr => exact retireReturn_good success h (by rw [hr]; rfl)
  · exact good_calm h (calm_refl s)

theorem timeout_good (r : ℕ) (h : Quiet s) : Good s (timeout r s) := by
  unfold timeout
  split
  · next hr => exact releaseTimeout_good h hr
  · next hr =>
    have idle : releasing (s.rpcs r)=none := by rw [hr]; rfl
    unfold retireTimeout
    split
    · exact good_calm h (calm_refl s)
    · exact good_calm h (calm_setRpc idle.symm)
  · next hr =>
    have idle : releasing (s.rpcs r)=none := by rw [hr]; rfl
    unfold retireMemberTimeout
    split
    · split
      · exact good_calm h (calm_refl s)
      · exact good_calm h (retireAbandoned_calm idle _)
    · split
      · exact good_calm h (calm_refl s)
      · exact good_calm h (retireAbandoned_calm idle _)
  · next hr =>
    have idle : releasing (s.rpcs r)=none := by rw [hr]; rfl
    unfold retireStatusTimeout
    split
    · exact good_calm h (calm_refl s)
    · exact good_calm h (calm_setRpc idle.symm)
  · exact good_calm h (calm_refl s)

theorem good_slots {change : Controller → Controller} (h : Quiet s)
    (hc : SlotsOnly s.controller (change s.controller)) : Good s (s.setController change) :=
  good_calm h (calm_setController (by rw [hc]; exact ⟨rfl,rfl,rfl⟩))

/-- Every step keeps everything and its answers are true. -/
theorem step_good (site : Site) (s : State) (input : Step) (hb : Books s) (h : Quiet s) :
    Good s (step site s input) := by
  have refused : ∀ reply, Good s (s.addRpc (.answered reply)) := fun _ => good_calm h (calm_addRpc hb rfl)
  cases input with
  | install unixPeer request => exact installEnter_good site unixPeer request hb h
  | accept stream control owner => exact good_slots h (slotsOnly_acceptStatus stream control owner _)
  | ready stream => exact good_slots h (slotsOnly_readyStatus stream _)
  | done stream => exact good_slots h (slotsOnly_doneStatus stream _)
  | ended stream => exact good_slots h (slotsOnly_releaseStatus stream _)
  | down => exact good_slots h (slotsOnly_markControlDown _)
  | retireStatus request =>
    have slots := slotsOnly_retireStatus request s.controller
    have entered : Calm s (s.setController fun c => (retireStatus request c).2) :=
      calm_setController (by rw [slots]; exact ⟨rfl,rfl,rfl⟩)
    have books : Books (s.setController fun c => (retireStatus request c).2) := books_slots hb slots
    simp only [step,retireStatusEnter]
    split
    · exact good_calm h (calm_trans entered (calm_addRpc books rfl))
    · exact good_calm h (calm_trans entered (calm_addRpc books rfl))
  | acquire request cancelled =>
    simp only [step,acquireCheck]
    split
    · exact refused _
    · split
      · exact refused _
      · split
        · exact refused _
        · exact good_calm h (calm_addRpc hb rfl)
  | renew request cancelled now =>
    simp only [step,renewCheck]
    split
    · exact refused _
    · split
      · exact refused _
      · split
        · exact refused _
        · split
          · exact refused _
          · have edge : Calm s (s.setController fun c => {c with lastRenewal := now}) :=
              calm_setController ⟨rfl,rfl,rfl⟩
            have books : Books (s.setController fun c => {c with lastRenewal := now}) :=
              books_setController hb ⟨rfl,rfl,rfl⟩ rfl rfl
            exact good_calm h (calm_trans edge (calm_addRpc books rfl))
  | release request =>
    simp only [step,releaseCheck]
    split
    · exact refused _
    · split
      · exact refused _
      · exact good_calm h (calm_addRpc hb rfl)
  | retire unixPeer request => exact retireEnter_good site unixPeer request hb h
  | proceed r cancelled now => exact proceed_good r cancelled now hb h
  | returned r success => exact returned_good r success hb h
  | timeout r => exact timeout_good r h
  | dispatch m request now => exact dispatch_good m request now h
  | execute m => exact execute_good m hb h
  | complete m succeeded => exact complete_good m succeeded h
  | watch m now =>
    simp only [step,watch]
    split
    · exact good_calm h (calm_refl s)
    · exact good_calm h ⟨fun _ => calmMember_refl _,rfl,rfl,rfl,id,fun _ => rfl,rfl⟩
  | coreSilent released => exact coreSilent_good released h
  | throw =>
    simp only [step,schedulerThrow]
    split
    · exact good_calm h ⟨fun _ => calmMember_refl _,rfl,rfl,rfl,(fun _ never => by cases never),fun _ => rfl,rfl⟩
    · exact good_calm h (calm_refl s)
  | exit =>
    exact good_calm h ⟨fun _ => ⟨rfl,rfl,rfl,rfl,rfl,rfl,id,rfl,Or.inl rfl⟩,rfl,rfl,rfl,(fun _ never => by cases never),
      fun _ => rfl,rfl⟩
  | register identity native => exact register_good identity native hb h
  | remove m =>
    simp only [step,remove]
    split
    · exact good_calm h (calm_refl s)
    · have closed : Calm s (s.setMember m (fun member => {member with closing := true})) :=
        calm_setMember (calmMember_same ⟨rfl,rfl,rfl,rfl,rfl,rfl⟩ (fun _ => rfl) ⟨rfl,rfl⟩)
      exact good_calm h ⟨closed.members,rfl,rfl,rfl,id,fun _ => rfl,rfl⟩
  | stop m => exact stopMember_good m hb h

/-- A new server is quiet. -/
theorem initial_quiet : Quiet {} where
  flights := fun _ _ never => by cases never
  closed := fun _ never => by cases never
  releases := fun _ _ _ _ never => by cases never
  alone := fun _ _ _ _ _ _ _ never => by cases never
  ahead := fun never => absurd rfl never
  released := fun _ _ _ _ _ _ never => by simp at never
  retired := fun _ _ _ never => by simp at never
  order := ⟨fun _ _ _ _ _ _ _ _ never => by simp at never,fun _ _ _ _ _ _ never => by simp at never⟩

theorem run_quiet (site : Site) (steps : List Step) : Quiet (run (step site) {} steps) := by
  have both : ∀ s input, (Books s ∧ Quiet s) → True → (Books (step site s input) ∧ Quiet (step site s input)) :=
    fun s input h _ => ⟨step_books site s input h.1,(step_good site s input h.1 h.2).1⟩
  exact (run_invariant both ⟨initial_books,initial_quiet⟩ (along_true _ _ steps)).2

/-- In every run a joined answer finds every affected member at rest, and
afterwards no motion command of the released control or the retired controller
is executed; one with the same grant and generation only after the grant was
installed again for a later controller. -/
theorem run_quiescent (site : Site) (steps : List Step) (input : Step) :
    Announced (run (step site) {} steps) (step site (run (step site) {} steps) input) ∧
      OrderlyHistory (run (step site) {} steps).log :=
  ⟨(step_good site _ input (run_books site steps) (run_quiet site steps)).2,(run_quiet site steps).order⟩

/-- A server for a sample run. -/
def sampleSite : Site := ⟨List.replicate 32 1,"target","instance"⟩

/-- Grant that is installed twice. -/
def sampleGrant : Bytes := List.replicate 32 2

/-- Member of the sample run. -/
def sampleIdentity : MemberIdentity := ⟨"target","run","robot",1⟩

/-- A robot whose every operation is motion. -/
def sampleRobot : NativeRobot := ⟨fun _ => true,fun _ => false,fun _ => false,0⟩

/-- Installation of the sample grant. -/
def sampleInstallation (generation : ℕ) : InstallControllerRequest :=
  ⟨List.replicate 32 1,⟨"instance","","","core","boot"⟩,generation,List.replicate 16 3,sampleGrant⟩

/-- Owner of the required stream. -/
def sampleOwner : StatusOwner := ⟨sampleGrant,1,List.replicate 16 4,0,[]⟩

/-- Control request of the sample run. -/
def sampleRequest : ControlRequest := ⟨sampleIdentity,1,sampleGrant⟩

/-- Motion command of the sample run. -/
def sampleCommand : ExecuteRequest := ⟨sampleIdentity,⟨"move",1⟩,sampleGrant,1⟩

/-- A control is released, its controller retired, the same grant installed
for the next controller and the same generation acquired and used again. -/
def reinstallation : List Step :=
  [.register sampleIdentity sampleRobot,.install true (sampleInstallation 1),.accept 7 true sampleOwner,.ready 7,
    .acquire sampleRequest false,.proceed 1 false 0,.proceed 1 false 0,
    .release sampleRequest,.proceed 2 false 0,.proceed 2 false 0,.proceed 2 false 0,.returned 2 true,
    .ended 7,.retire true ⟨List.replicate 32 1,1,List.replicate 16 3⟩,.proceed 3 false 0,.proceed 3 false 0,
    .install true (sampleInstallation 2),.accept 8 true sampleOwner,.ready 8,
    .acquire sampleRequest false,.proceed 5 false 0,.proceed 5 false 0,.dispatch 0 sampleCommand 0,.execute 0]

/-- A release waits for a motion command; the server drains, the barrier of the
member fails with the loop of the scheduler and the native robot is stopped. -/
def failedBarrier : List Step :=
  [.register sampleIdentity sampleRobot,.install true (sampleInstallation 1),.accept 7 true sampleOwner,.ready 7,
    .acquire sampleRequest false,.proceed 1 false 0,.proceed 1 false 0,.dispatch 0 sampleCommand 0,.execute 0,
    .release sampleRequest,.proceed 2 false 0,.proceed 2 false 0,.remove 0,.throw,.stop 0]

/-- A motion command with the released grant and generation is executed after
the release, because a later controller was installed with the same grant; and
a release is answered as joined with the motion command in flight, because the
loop of the scheduler failed and the native robot was stopped. -/
theorem released_control_moves :
    (¬∀ (site : Site) (steps : List Step) (before : List Event) (m g c : ℕ) (grant : Bytes) (mid : List Event)
      (flight : Flight) (rest : List Event),
      (run (step site) {} steps).log=before ++ .released m g c grant::(mid ++ .executed m flight::rest) →
      flight.motion=true →
      ¬(flight.request.controllerGrant=grant ∧ flight.request.controlGeneration=g)) ∧
    ¬∀ (site : Site) (steps : List Step) (input : Step) (m g c : ℕ) (grant : Bytes),
      (step site (run (step site) {} steps) input).log=(run (step site) {} steps).log ++ [.released m g c grant] →
      Still ((step site (run (step site) {} steps) input).members m) := by
  refine ⟨?_,?_⟩
  · intro never
    have log : (run (step sampleSite) {} reinstallation).log=
        [.installed 1 sampleGrant] ++ .released 0 1 1 sampleGrant::([.retired 1,.installed 2 sampleGrant] ++
          .executed 0 ⟨sampleCommand,true,false,true,false,2⟩::[]) := by
      decide +kernel
    exact never sampleSite reinstallation _ 0 1 1 sampleGrant _ _ [] log rfl ⟨rfl,rfl⟩
  · intro never
    have log : (step sampleSite (run (step sampleSite) {} failedBarrier) (.proceed 2 false 0)).log=
        (run (step sampleSite) {} failedBarrier).log ++ [.released 0 1 1 sampleGrant] := by
      decide +kernel
    have flies : ((step sampleSite (run (step sampleSite) {} failedBarrier) (.proceed 2 false 0)).members 0).flight=
        some ⟨sampleCommand,true,false,true,true,1⟩ := by
      decide +kernel
    have still := never sampleSite failedBarrier (.proceed 2 false 0) 0 1 1 sampleGrant log _ flies
    cases still

end Runs

end Ros1Adapter.RobotQuiescence
