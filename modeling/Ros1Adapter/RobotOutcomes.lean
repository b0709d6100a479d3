import Mathlib.Data.List.Nodup
import Mathlib.Data.List.Perm.Subperm
import Ros1Adapter.RobotCommands

/-!
# Outcomes of robot commands

A command can be answered from many places on several threads. An admitted
call is in one place at a time; the answers that say that it was not executed
are given where it leaves the server without the native robot, and from there
it never comes to the native robot.
-/

namespace Ros1Adapter.RobotOutcomes

open RobotCommands ActionRules
open RobotControl (MemberIdentity NativeRobot ExecuteRequest)

section Invariant

/-- Commands that the scheduler has taken from the posted ones. -/
def inHand : Loop → List ℕ
  | .jobs left _ => left
  | .lookup c _ left _ => c::left
  | .failing left => left
  | _ => []

/-- Command on its way to the native robot. -/
def handedCall : Loop → Option ℕ
  | .admission _ c _ _ => some c
  | .starting _ c _ _ => some c
  | _ => none

/-- Calls that were queued at a member. -/
def admittedCalls (log : List Event) : List ℕ :=
  log.filterMap (fun | .admitted _ c => some c | _ => none)

theorem admittedCalls_append (log extra : List Event) :
    admittedCalls (log ++ extra)=admittedCalls log ++ admittedCalls extra := List.filterMap_append ..

/-- Posted commands. -/
def postedCalls (s : Server) : List ℕ := s.jobs ++ inHand s.loop

/-- The answers that say that a command was not executed. -/
def refusals : List OperationEvent :=
  [serverStopped,schedulerExited,enqueueDraining,dispatchDraining,memberUnavailable,robotQueueFull,
    previousResultUnknown,operationCancelled,deadlineExceeded,controlUnavailable,controlRetiring,memberRemoved]

/-- The answers that say that the result is not known. -/
def unknowns : List OperationEvent := [admissionInterrupted,nativeOwnerExited,nativeSchedulerExited]

/-- An outcome is honest: an answer of the server is unknown or says that the
command was not executed, and an answer of the native robot is its completion. -/
def Honest (log : List Event) (c : ℕ) (call : Call) : Prop :=
  match call.outcome with
  | none => True
  | some (.server event) => event∈unknowns ∨ (event∈refusals ∧ call.place=.dropped)
  | some (.native event) => ∃ m, .completed m c event∈log

/-- Every call is where its place says. -/
structure Placed (s : Server) : Prop where
  /-- Posted commands. -/
  posted : ∀ c∈postedCalls s, (s.calls c).place=.posted ∧ c<s.callCount
  /-- A command is posted and queued once. -/
  arrivedOnce : (admittedCalls s.log ++ postedCalls s).Nodup
  /-- Commands that were queued. -/
  arrived : ∀ c∈admittedCalls s.log, c<s.callCount
  /-- Queued commands. -/
  queued : ∀ m, ∀ c∈(s.slots m).commands, (s.calls c).place=.queued m ∧ c<s.callCount
  /-- A command is queued once. -/
  queuedOnce : ∀ m, (s.slots m).commands.Nodup
  /-- The command on its way. -/
  handed : ∀ c, handedCall s.loop=some c → (s.calls c).place=.dispatching ∧ c<s.callCount
  /-- A command in flight. -/
  active : ∀ m c, (s.slots m).activeCall=some c → c<s.callCount
  /-- Executed commands. -/
  executed : ∀ m c safe, .executed m c safe∈s.log → (s.calls c).place=.invoked
  /-- Outcomes are honest. -/
  honest : ∀ c, Honest s.log c (s.calls c)
  /-- Calls that do not exist yet. -/
  fresh : ∀ c, s.callCount ≤ c → (s.calls c).outcome=none ∧ (s.calls c).place=.dropped

variable {s s' : Server}

theorem honest_longer {log log' : List Event} {c : ℕ} {call : Call} (h : Honest log c call)
    (hlog : ∀ event∈log, event∈log') : Honest log' c call := by
  unfold Honest at *
  split
  · trivial
  · simpa only [*] using h
  · simp only [*] at h
    obtain ⟨m,mem⟩ := h
    exact ⟨m,hlog _ mem⟩

/-- A step that moves no call. -/
structure Idle (s s' : Server) : Prop where
  /-- The calls stay where they are, with their outcomes. -/
  calls : ∀ c, (s'.calls c).place=(s.calls c).place ∧ (s'.calls c).outcome=(s.calls c).outcome
  /-- No new call. -/
  count : s'.callCount=s.callCount
  /-- The posted commands stay. -/
  posted : postedCalls s'=postedCalls s
  /-- The queues stay. -/
  commands : ∀ m, (s'.slots m).commands=(s.slots m).commands
  /-- The command on its way stays. -/
  handed : ∀ c, handedCall s'.loop=some c → handedCall s.loop=some c
  /-- The commands in flight stay. -/
  active : ∀ m c, (s'.slots m).activeCall=some c → (s.slots m).activeCall=some c
  /-- The history grows. -/
  log : ∀ event∈s.log, event∈s'.log
  /-- Nothing is executed. -/
  executed : ∀ m c safe, .executed m c safe∈s'.log → .executed m c safe∈s.log
  /-- Nothing is queued. -/
  admitted : admittedCalls s'.log=admittedCalls s.log

/-- A step that keeps the calls, the members, the scheduler and the history. -/
theorem idle_frame (hc : s'.calls=s.calls) (hn : s'.callCount=s.callCount) (hj : s'.jobs=s.jobs)
    (hs : s'.slots=s.slots) (hl : s'.loop=s.loop) (hg : s'.log=s.log) : Idle s s' := by
  refine ⟨?_,hn,?_,?_,?_,?_,?_,?_,?_⟩
  · rw [hc]
    exact fun _ => ⟨rfl,rfl⟩
  · unfold postedCalls
    rw [hj,hl]
  · rw [hs]
    exact fun _ => rfl
  · rw [hl]
    exact fun _ => id
  · rw [hs]
    exact fun _ _ => id
  · rw [hg]
    exact fun _ => id
  · rw [hg]
    exact fun _ _ _ => id
  · rw [hg]

theorem subperm_nodup {first second : List ℕ} (h : first.Subperm second) (hn : second.Nodup) : first.Nodup := by
  obtain ⟨middle,perm,sub⟩ := h
  exact perm.nodup_iff.mp (hn.sublist sub)

theorem honest_same {log : List Event} {c : ℕ} {call call' : Call} (h : Honest log c call)
    (hc : call'.place=call.place ∧ call'.outcome=call.outcome) : Honest log c call' := by
  unfold Honest at *
  rw [hc.1,hc.2]
  exact h

theorem placed_idle (h : Placed s) (hi : Idle s s') : Placed s' := by
  refine ⟨?_,?_,?_,?_,?_,?_,?_,?_,?_,?_⟩
  · intro c mem
    rw [hi.posted] at mem
    rw [(hi.calls c).1,hi.count]
    exact h.posted c mem
  · rw [hi.posted,hi.admitted]
    exact h.arrivedOnce
  · rw [hi.admitted,hi.count]
    exact h.arrived
  · intro m c mem
    rw [hi.commands m] at mem
    rw [(hi.calls c).1,hi.count]
    exact h.queued m c mem
  · intro m
    rw [hi.commands m]
    exact h.queuedOnce m
  · intro c found
    rw [(hi.calls c).1,hi.count]
    exact h.handed c (hi.handed c found)
  · intro m c found
    rw [hi.count]
    exact h.active m c (hi.active m c found)
  · intro m c safe mem
    rw [(hi.calls c).1]
    exact h.executed m c safe (hi.executed m c safe mem)
  · intro c
    exact honest_same (honest_longer (h.honest c) hi.log) (hi.calls c)
  · intro c hc
    rw [hi.count] at hc
    rw [(hi.calls c).1,(hi.calls c).2]
    exact h.fresh c hc

/-- A step that moves one call. -/
theorem placed_move {c : ℕ} (h : Placed s) (hc : c<s.callCount) (hcalls : ∀ d, d≠c → s'.calls d=s.calls d)
    (hcount : s'.callCount=s.callCount)
    (hposted : (postedCalls s').Sublist (postedCalls s) ∧ (c∈postedCalls s' → (s'.calls c).place=.posted))
    (hadmitted : (admittedCalls s'.log ++ postedCalls s').Subperm (admittedCalls s.log ++ postedCalls s))
    (hqueued : ∀ m, (s'.slots m).commands.Nodup ∧ ∀ d∈(s'.slots m).commands,
      (d≠c ∧ d∈(s.slots m).commands) ∨ (d=c ∧ (s'.calls c).place=.queued m))
    (hhanded : ∀ d, handedCall s'.loop=some d →
      (d≠c ∧ handedCall s.loop=some d) ∨ (d=c ∧ (s'.calls c).place=.dispatching))
    (hactive : ∀ m d, (s'.slots m).activeCall=some d → d=c ∨ (s.slots m).activeCall=some d)
    (hlog : ∀ event∈s.log, event∈s'.log)
    (hexecuted : ∀ m d safe, .executed m d safe∈s'.log →
      (d≠c ∧ .executed m d safe∈s.log) ∨ (d=c ∧ (s'.calls c).place=.invoked))
    (hhonest : Honest s'.log c (s'.calls c)) : Placed s' := by
  refine ⟨?_,?_,?_,?_,?_,?_,?_,?_,?_,?_⟩
  · intro d mem
    rw [hcount]
    by_cases hd : d=c
    · rw [hd] at mem ⊢
      exact ⟨hposted.2 mem,hc⟩
    · rw [hcalls d hd]
      exact h.posted d (hposted.1.subset mem)
  · exact subperm_nodup hadmitted h.arrivedOnce
  · intro d mem
    rw [hcount]
    rcases List.mem_append.mp (hadmitted.subset (List.mem_append_left _ mem)) with old | old
    · exact h.arrived d old
    · exact (h.posted d old).2
  · intro m d mem
    rw [hcount]
    rcases (hqueued m).2 d mem with ⟨hd,old⟩ | ⟨hd,now⟩
    · rw [hcalls d hd]
      exact h.queued m d old
    · rw [hd]
      exact ⟨now,hc⟩
  · exact fun m => (hqueued m).1
  · intro d found
    rw [hcount]
    rcases hhanded d found with ⟨hd,old⟩ | ⟨hd,now⟩
    · rw [hcalls d hd]
      exact h.handed d old
    · rw [hd]
      exact ⟨now,hc⟩
  · intro m d found
    rw [hcount]
    rcases hactive m d found with same | old
    · rw [same]
      exact hc
    · exact h.active m d old
  · intro m d safe mem
    rcases hexecuted m d safe mem with ⟨hd,old⟩ | ⟨hd,now⟩
    · rw [hcalls d hd]
      exact h.executed m d safe old
    · rw [hd]
      exact now
  · intro d
    by_cases hd : d=c
    · rw [hd]
      exact hhonest
    · rw [hcalls d hd]
      exact honest_longer (h.honest d) hlog
  · intro d hd
    rw [hcount] at hd
    rw [hcalls d (by omega)]
    exact h.fresh d hd

/-- A command is posted once. -/
theorem placed_once (h : Placed s) : (postedCalls s).Nodup := (List.nodup_append.mp h.arrivedOnce).2.1

/-- A refused call is honest when it was not executed. -/
theorem honest_refused {log : List Event} {c : ℕ} {call : Call} {event : OperationEvent} (h : Honest log c call)
    (hc : event∈refusals ∨ event∈unknowns) :
    Honest log c {call.finish (.server event) with place := .dropped} := by
  unfold Call.finish Honest at *
  cases found : call.outcome with
  | none =>
    simp only [Option.isSome_none,Bool.false_eq_true,if_false]
    rcases hc with refusal | uncertain
    · exact Or.inr ⟨refusal,trivial⟩
    · exact Or.inl uncertain
  | some outcome =>
    simp only [found,Option.isSome_some,if_true] at h ⊢
    cases outcome with
    | server other => exact h.imp id (fun old => ⟨old.1,trivial⟩)
    | native other => exact h

/-- A call that is still in the server stays honest wherever it goes. -/
theorem honest_moved {log : List Event} {c : ℕ} {call : Call} {place : Place} (h : Honest log c call)
    (hp : call.place≠.dropped) : Honest log c {call with place := place} := by
  unfold Honest at *
  cases found : call.outcome with
  | none => trivial
  | some outcome =>
    simp only [found] at h ⊢
    cases outcome with
    | server event => exact h.imp id (fun refusal => absurd refusal.2 hp)
    | native event => exact h

/-- An unknown result is honest. -/
theorem honest_uncertain {log : List Event} {c : ℕ} {call : Call} {event : OperationEvent} (h : Honest log c call)
    (hc : event∈unknowns) : Honest log c (call.finish (.server event)) := by
  unfold Call.finish Honest at *
  cases found : call.outcome with
  | none =>
    simp only [Option.isSome_none,Bool.false_eq_true,if_false]
    exact Or.inl hc
  | some outcome =>
    simp only [found,Option.isSome_some,if_true] at h ⊢
    exact h

/-- The completion of the native robot is honest. -/
theorem honest_completed {log : List Event} {m c : ℕ} {call : Call} {event : OperationEvent} (h : Honest log c call)
    (hlog : .completed m c event∈log) : Honest log c (call.finish (.native event)) := by
  unfold Call.finish Honest at *
  cases found : call.outcome with
  | none =>
    simp only [Option.isSome_none,Bool.false_eq_true,if_false]
    exact ⟨m,hlog⟩
  | some outcome =>
    simp only [found,Option.isSome_some,if_true] at h ⊢
    exact h

/-- An answered call stays where it is. -/
theorem finish_place (call : Call) (outcome : Outcome) : (call.finish outcome).place=call.place := by
  unfold Call.finish
  split
  · rfl
  · rfl

end Invariant

section Frames

variable {s s' : Server} {m c : ℕ}

theorem idle_refl (s : Server) : Idle s s :=
  (idle_frame rfl rfl rfl rfl rfl rfl)

theorem idle_trans {s'' : Server} (h : Idle s s') (g : Idle s' s'') : Idle s s'' :=
  ⟨fun c => ⟨(g.calls c).1.trans (h.calls c).1,(g.calls c).2.trans (h.calls c).2⟩,g.count.trans h.count,g.posted.trans h.posted,
    fun m => (g.commands m).trans (h.commands m),fun c found => h.handed c (g.handed c found),
    fun m c found => h.active m c (g.active m c found),fun event mem => g.log event (h.log event mem),
    fun m c safe mem => h.executed m c safe (g.executed m c safe mem),g.admitted.trans h.admitted⟩

theorem idle_goto {loop : Loop} (hin : inHand loop=inHand s.loop)
    (hh : ∀ c, handedCall loop=some c → handedCall s.loop=some c) : Idle s (s.goto loop) := by
  refine ⟨fun _ => ⟨rfl,rfl⟩,rfl,?_,fun _ => rfl,hh,fun _ _ => id,fun _ => id,fun _ _ _ => id,rfl⟩
  unfold postedCalls
  exact congrArg (s.jobs ++ ·) hin

theorem idle_setControl (change : RobotControl.State → RobotControl.State) : Idle s (s.setControl change) :=
  (idle_frame rfl rfl rfl rfl rfl rfl)

theorem idle_turn (registrar : Registrar) : Idle s (s.turn registrar) :=
  (idle_frame rfl rfl rfl rfl rfl rfl)

theorem update_commands {slots : ℕ → Slot} {slot : Slot} (h : slot.commands=(slots m).commands) (i : ℕ) :
    (Function.update slots m slot i).commands=(slots i).commands := by
  by_cases hi : i=m
  · rw [hi,Function.update_self]
    exact h
  · rw [Function.update_of_ne hi]

theorem update_active {slots : ℕ → Slot} {slot : Slot} (h : ∀ c, slot.activeCall=some c → (slots m).activeCall=some c)
    (i d : ℕ) (hd : (Function.update slots m slot i).activeCall=some d) : (slots i).activeCall=some d := by
  by_cases hi : i=m
  · rw [hi,Function.update_self] at hd
    rw [hi]
    exact h d hd
  · rwa [Function.update_of_ne hi] at hd

theorem idle_setSlot {change : Slot → Slot} (h : (change (s.slots m)).commands=(s.slots m).commands)
    (ha : ∀ c, (change (s.slots m)).activeCall=some c → (s.slots m).activeCall=some c) :
    Idle s (s.setSlot m change) :=
  ⟨fun _ => ⟨rfl,rfl⟩,rfl,rfl,update_commands h,fun _ => id,update_active ha,fun _ => id,fun _ _ _ => id,rfl⟩

theorem idle_acquire (thread : Thread) : Idle s (s.acquire m thread) := idle_setSlot rfl (fun _ => id)

theorem idle_unlock : Idle s (s.unlock m) := idle_setSlot rfl (fun _ => id)

theorem idle_logged {event : Event} (h : ∀ m c safe, event≠.executed m c safe) (ha : admittedCalls [event]=[]) :
    Idle s (s.logged event) := by
  refine ⟨fun _ => ⟨rfl,rfl⟩,rfl,rfl,fun _ => rfl,fun _ => id,fun _ _ => id,fun _ mem => List.mem_append_left _ mem,?_,?_⟩
  · intro m c safe mem
    rcases List.mem_append.mp mem with old | new
    · exact old
    · exact absurd (List.mem_singleton.mp new).symm (h m c safe)
  · have longer := admittedCalls_append s.log [event]
    rw [ha,List.append_nil] at longer
    exact longer

/-- The loop ends outside the commands. -/
theorem idle_leaveLoop {left : List ℕ} (fence : Bool) (h : inHand s.loop=left) : Idle s (leaveLoop left fence s) := by
  refine ⟨fun _ => ⟨rfl,rfl⟩,rfl,?_,fun _ => rfl,(fun _ never => by cases never),fun _ _ => id,fun _ => id,
    fun _ _ _ => id,rfl⟩
  unfold postedCalls
  exact congrArg (s.jobs ++ ·) h.symm

/-- A refused call leaves the server without the native robot. -/
theorem placed_refused {event : OperationEvent} (h : Placed s) (hc : c<s.callCount)
    (hplace : (s.calls c).place≠.invoked) (he : event∈refusals ∨ event∈unknowns)
    (hcalls : s'.calls=(refuse c event s).calls) (hcount : s'.callCount=s.callCount)
    (hposted : (postedCalls s').Sublist (postedCalls s) ∧ c∉postedCalls s')
    (hqueued : ∀ m, (s'.slots m).commands.Sublist (s.slots m).commands ∧ c∉(s'.slots m).commands)
    (hhanded : ∀ d, handedCall s'.loop=some d → d≠c ∧ handedCall s.loop=some d)
    (hactive : ∀ m d, (s'.slots m).activeCall=some d → (s.slots m).activeCall=some d)
    (hlog : s'.log=s.log) : Placed s' := by
  have same : s'.calls c={(s.calls c).finish (.server event) with place := .dropped} := by
    rw [hcalls]
    exact Function.update_self ..
  refine placed_move h hc ?_ hcount ⟨hposted.1,fun mem => absurd mem hposted.2⟩ ?_ ?_ ?_
    (fun m d found => Or.inr (hactive m d found)) ?_ ?_ ?_
  · intro d hd
    rw [hcalls]
    exact Function.update_of_ne hd ..
  · rw [hlog]
    exact (List.Sublist.append_left hposted.1 _).subperm
  · intro m
    refine ⟨(h.queuedOnce m).sublist (hqueued m).1,fun d mem => Or.inl ⟨?_,(hqueued m).1.subset mem⟩⟩
    intro equal
    rw [equal] at mem
    exact (hqueued m).2 mem
  · exact fun d found => Or.inl (hhanded d found)
  · rw [hlog]
    exact fun _ => id
  · intro m d safe mem
    rw [hlog] at mem
    refine Or.inl ⟨?_,mem⟩
    intro equal
    rw [equal] at mem
    exact hplace (h.executed m c safe mem)
  · rw [hlog,same]
    exact honest_refused (h.honest c) he

/-- A posted command is nowhere else. -/
theorem posted_elsewhere (h : Placed s) (hp : (s.calls c).place=.posted) :
    (∀ m, c∉(s.slots m).commands) ∧ ∀ d, handedCall s.loop=some d → d≠c := by
  refine ⟨fun m mem => ?_,fun d found equal => ?_⟩
  · have other := (h.queued m c mem).1
    rw [hp] at other
    cases other
  · rw [equal] at found
    have other := (h.handed c found).1
    rw [hp] at other
    cases other

/-- A command on its way is nowhere else. -/
theorem handed_elsewhere (h : Placed s) (hp : (s.calls c).place=.dispatching) :
    c∉postedCalls s ∧ ∀ m, c∉(s.slots m).commands := by
  refine ⟨fun mem => ?_,fun m mem => ?_⟩
  · have other := (h.posted c mem).1
    rw [hp] at other
    cases other
  · have other := (h.queued m c mem).1
    rw [hp] at other
    cases other

/-- A queued command is nowhere else. -/
theorem queued_elsewhere (h : Placed s) (hp : (s.calls c).place=.queued m) :
    c∉postedCalls s ∧ (∀ i, i≠m → c∉(s.slots i).commands) ∧ ∀ d, handedCall s.loop=some d → d≠c := by
  refine ⟨fun mem => ?_,fun i hi mem => ?_,fun d found equal => ?_⟩
  · have other := (h.posted c mem).1
    rw [hp] at other
    cases other
  · have other := (h.queued i c mem).1
    rw [hp] at other
    cases other
    exact hi rfl
  · rw [equal] at found
    have other := (h.handed c found).1
    rw [hp] at other
    cases other

end Frames

section Scheduler

variable {s : Server} {m c : ℕ}

/-- The first command in hand is refused. -/
theorem refuse_first_placed {event : OperationEvent} {left : List ℕ} {loop : Loop} (h : Placed s)
    (hin : inHand s.loop=c::left) (hout : inHand loop=left) (hh : handedCall loop=none)
    (he : event∈refusals ∨ event∈unknowns) : Placed ((refuse c event s).goto loop) := by
  have mem : c∈postedCalls s := by
    unfold postedCalls
    rw [hin]
    exact List.mem_append_right _ (List.mem_cons_self ..)
  obtain ⟨place,hc⟩ := h.posted c mem
  have elsewhere := posted_elsewhere h place
  have after : postedCalls ((refuse c event s).goto loop)=s.jobs ++ left := congrArg (s.jobs ++ ·) hout
  have once : (s.jobs ++ c::left).Nodup := by
    have := placed_once h
    unfold postedCalls at this
    rwa [hin] at this
  refine placed_refused h hc (by rw [place]; exact fun never => by cases never) he rfl rfl ?_ ?_ ?_ (fun _ _ => id) rfl
  · rw [after]
    refine ⟨?_,?_⟩
    · unfold postedCalls
      rw [hin]
      exact List.Sublist.append_left (List.sublist_cons_self c left) s.jobs
    · have split_ := List.nodup_append.mp once
      intro mem'
      rcases List.mem_append.mp mem' with first | second
      · exact split_.2.2 c first c (List.mem_cons_self ..) rfl
      · exact (List.nodup_cons.mp split_.2.1).1 second
  · exact fun m => ⟨List.Sublist.refl _,elsewhere.1 m⟩
  · intro d found
    have none_ : handedCall ((refuse c event s).goto loop).loop=none := hh
    rw [none_] at found
    cases found

theorem enqueue_placed {found : Option ℕ} {left : List ℕ} {fence : Option (List ℕ)} (h : Placed s)
    (hl : s.loop=.lookup c found left fence) : Placed ((enqueue c found s).goto (.jobs left fence)) := by
  have hin : inHand s.loop=c::left := by rw [hl]; rfl
  have refused : ∀ event, event∈refusals → Placed ((refuse c event s).goto (.jobs left fence)) :=
    fun event he => refuse_first_placed h hin rfl rfl (Or.inl he)
  have unavailable : Placed ((refuse c (if s.commandsClosed then enqueueDraining else memberUnavailable) s).goto
      (.jobs left fence)) := by
    refine refused _ ?_
    split <;> decide
  unfold enqueue
  split
  · exact unavailable
  · next m =>
    split
    · exact unavailable
    · split
      · exact refused _ (by decide)
      · have mem : c∈postedCalls s := by
          unfold postedCalls
          rw [hin]
          exact List.mem_append_right _ (List.mem_cons_self ..)
        obtain ⟨place,hc⟩ := h.posted c mem
        have elsewhere := posted_elsewhere h place
        have once : (s.jobs ++ c::left).Nodup := by
          have := placed_once h
          unfold postedCalls at this
          rwa [hin] at this
        have split_ := List.nodup_append.mp once
        let s' := ((((s.setSlot m (fun slot => {slot with commands := slot.commands ++ [c]})).setCall c
          (fun call => {call with place := .queued m})).logged (.admitted m c)).goto (.jobs left fence))
        have call : s'.calls c={s.calls c with place := .queued m} := Function.update_self ..
        have slot : s'.slots m={s.slots m with commands := (s.slots m).commands ++ [c]} := Function.update_self ..
        have others : ∀ i, i≠m → s'.slots i=s.slots i := fun i hi => Function.update_of_ne hi ..
        have queued : Placed s' := by
          refine placed_move h hc (fun d hd => Function.update_of_ne hd ..) rfl ⟨?_,?_⟩ ?_ ?_ ?_ ?_ ?_ ?_ ?_
          · unfold postedCalls
            rw [hin]
            exact List.Sublist.append_left (List.sublist_cons_self c left) s.jobs
          · intro mem'
            rcases List.mem_append.mp mem' with first | second
            · exact absurd rfl (split_.2.2 c first c (List.mem_cons_self ..))
            · exact absurd second (List.nodup_cons.mp split_.2.1).1
          · -- The command passes from the posted ones to the queued ones.
            have longer : admittedCalls s'.log=admittedCalls s.log ++ [c] := admittedCalls_append s.log [.admitted m c]
            have after : postedCalls s'=s.jobs ++ left := rfl
            rw [longer,after,List.append_assoc]
            unfold postedCalls
            rw [hin]
            have middle : (c::(s.jobs ++ left)).Perm (s.jobs ++ c::left) := List.perm_middle.symm
            exact (List.Perm.append_left _ middle).subperm
          · intro i
            by_cases hi : i=m
            · rw [hi,slot]
              refine ⟨?_,fun d mem' => ?_⟩
              · refine List.nodup_append.mpr ⟨h.queuedOnce m,List.nodup_singleton c,?_⟩
                intro a ha b hb equal
                rw [List.mem_singleton.mp hb] at equal
                rw [equal] at ha
                exact elsewhere.1 m ha
              · rcases List.mem_append.mp mem' with old | new
                · refine Or.inl ⟨fun equal => ?_,old⟩
                  rw [equal] at old
                  exact elsewhere.1 m old
                · refine Or.inr ⟨List.mem_singleton.mp new,?_⟩
                  rw [call]
            · rw [others i hi]
              refine ⟨h.queuedOnce i,fun d mem' => Or.inl ⟨fun equal => ?_,mem'⟩⟩
              rw [equal] at mem'
              exact elsewhere.1 i mem'
          · intro d found
            cases found
          · intro i d found
            by_cases hi : i=m
            · rw [hi,slot] at found
              rw [hi]
              exact Or.inr found
            · rw [others i hi] at found
              exact Or.inr found
          · exact fun event mem' => List.mem_append_left _ mem'
          · intro i d safe mem'
            rcases List.mem_append.mp mem' with old | new
            · refine Or.inl ⟨fun equal => ?_,old⟩
              rw [equal] at old
              have invoked := h.executed i c safe old
              rw [place] at invoked
              cases invoked
            · cases List.mem_singleton.mp new
          · rw [call]
            refine honest_moved (honest_longer (h.honest c) (fun event mem' => List.mem_append_left _ mem')) ?_
            rw [place]
            exact fun never => by cases never
        exact queued

/-- A call that only takes an outcome or is cancelled stays where it is. -/
theorem placed_answered {s' : Server} (h : Placed s) (hc : c<s.callCount)
    (hcalls : ∀ d, d≠c → s'.calls d=s.calls d) (hplace : (s'.calls c).place=(s.calls c).place)
    (hcount : s'.callCount=s.callCount) (hposted : postedCalls s'=postedCalls s)
    (hqueued : ∀ m, (s'.slots m).commands=(s.slots m).commands)
    (hhanded : ∀ d, handedCall s'.loop=some d → handedCall s.loop=some d)
    (hactive : ∀ m d, (s'.slots m).activeCall=some d → (s.slots m).activeCall=some d)
    (hlog : ∀ event∈s.log, event∈s'.log)
    (hexecuted : ∀ m d safe, .executed m d safe∈s'.log → .executed m d safe∈s.log)
    (hadmitted : admittedCalls s'.log=admittedCalls s.log)
    (hhonest : Honest s'.log c (s'.calls c)) : Placed s' := by
  refine placed_move h hc hcalls hcount ⟨?_,?_⟩ ?_ ?_ ?_ (fun m d found => Or.inr (hactive m d found)) hlog ?_ hhonest
  · rw [hposted]
  · rw [hposted,hplace]
    exact fun mem => (h.posted c mem).1
  · rw [hposted,hadmitted]
  · intro m
    rw [hqueued m,hplace]
    refine ⟨h.queuedOnce m,fun d mem => ?_⟩
    by_cases hd : d=c
    · rw [hd] at mem
      exact Or.inr ⟨hd,(h.queued m c mem).1⟩
    · exact Or.inl ⟨hd,mem⟩
  · intro d found
    rw [hplace]
    have before := hhanded d found
    by_cases hd : d=c
    · rw [hd] at before
      exact Or.inr ⟨hd,(h.handed c before).1⟩
    · exact Or.inl ⟨hd,before⟩
  · intro m d safe mem
    rw [hplace]
    have before := hexecuted m d safe mem
    by_cases hd : d=c
    · rw [hd] at before
      exact Or.inr ⟨hd,h.executed m c safe before⟩
    · exact Or.inl ⟨hd,before⟩

/-- Popping the first command of a queue. -/
theorem pop_commands {rest : List ℕ} (hq : (s.slots m).commands=c::rest) (i : ℕ) :
    (((s.setSlot m (fun slot => {slot with commands := rest})).slots i).commands).Sublist (s.slots i).commands := by
  by_cases hi : i=m
  · have same : (s.setSlot m (fun slot => {slot with commands := rest})).slots m={s.slots m with commands := rest} :=
      Function.update_self ..
    rw [hi,same,hq]
    exact List.sublist_cons_self c rest
  · have same : (s.setSlot m (fun slot => {slot with commands := rest})).slots i=s.slots i := Function.update_of_ne hi ..
    rw [same]

theorem popped_gone {rest : List ℕ} (h : Placed s) (hq : (s.slots m).commands=c::rest) (i : ℕ) :
    c∉((s.setSlot m (fun slot => {slot with commands := rest})).slots i).commands := by
  have first : c∈(s.slots m).commands := by
    rw [hq]
    exact List.mem_cons_self ..
  have elsewhere := queued_elsewhere h (h.queued m c first).1
  by_cases hi : i=m
  · have same : (s.setSlot m (fun slot => {slot with commands := rest})).slots m={s.slots m with commands := rest} :=
      Function.update_self ..
    rw [hi,same]
    have once := h.queuedOnce m
    rw [hq] at once
    exact (List.nodup_cons.mp once).1
  · have same : (s.setSlot m (fun slot => {slot with commands := rest})).slots i=s.slots i := Function.update_of_ne hi ..
    rw [same]
    exact elsewhere.2.1 i hi

/-- A call in the server leaves it or goes on without an answer. -/
theorem placed_without {s' : Server} {place : Place} (h : Placed s) (hc : c<s.callCount)
    (hp : (s.calls c).place≠.dropped ∧ (s.calls c).place≠.invoked)
    (hcalls : s'.calls=(s.setCall c (fun call => {call with place := place})).calls)
    (hcount : s'.callCount=s.callCount) (hposted : (postedCalls s').Sublist (postedCalls s) ∧ c∉postedCalls s')
    (hqueued : ∀ m, (s'.slots m).commands.Sublist (s.slots m).commands ∧ c∉(s'.slots m).commands)
    (hhanded : ∀ d, handedCall s'.loop=some d → (d≠c ∧ handedCall s.loop=some d) ∨ (d=c ∧ place=.dispatching))
    (hactive : ∀ m d, (s'.slots m).activeCall=some d → (s.slots m).activeCall=some d)
    (hlog : s'.log=s.log) : Placed s' := by
  have same : s'.calls c={s.calls c with place := place} := by
    rw [hcalls]
    exact Function.update_self ..
  refine placed_move h hc ?_ hcount ⟨hposted.1,fun mem => absurd mem hposted.2⟩ ?_ ?_ ?_
    (fun m d found => Or.inr (hactive m d found)) ?_ ?_ ?_
  · intro d hd
    rw [hcalls]
    exact Function.update_of_ne hd ..
  · rw [hlog]
    exact (List.Sublist.append_left hposted.1 _).subperm
  · intro m
    refine ⟨(h.queuedOnce m).sublist (hqueued m).1,fun d mem => Or.inl ⟨?_,(hqueued m).1.subset mem⟩⟩
    intro equal
    rw [equal] at mem
    exact (hqueued m).2 mem
  · intro d found
    rw [same]
    exact hhanded d found
  · rw [hlog]
    exact fun _ => id
  · intro m d safe mem
    rw [hlog] at mem
    refine Or.inl ⟨?_,mem⟩
    intro equal
    rw [equal] at mem
    exact hp.2 (h.executed m c safe mem)
  · rw [hlog,same]
    exact honest_moved (h.honest c) hp.1

theorem takeCommand_placed {left : List ℕ} {due : Bool} (choice : Choice) (h : Placed s)
    (hl : s.loop=.ready m left due) : Placed (takeCommand m left due choice s) := by
  have hin : inHand s.loop=[] := by rw [hl]; rfl
  have none_ : handedCall s.loop=none := by rw [hl]; rfl
  have skipped : Placed (s.goto (.serve left due)) :=
    placed_idle h (idle_goto hin.symm (fun _ never => by cases never))
  unfold takeCommand
  simp only []
  split
  · exact skipped
  · split
    · exact skipped
    · next c rest hq =>
      have first : c∈(s.slots m).commands := by
        rw [hq]
        exact List.mem_cons_self ..
      obtain ⟨place,hc⟩ := h.queued m c first
      have elsewhere := queued_elsewhere h place
      have posted_ : ∀ loop : Loop, inHand loop=[] → ∀ s' : Server, s'.jobs=s.jobs → s'.loop=loop →
          (postedCalls s').Sublist (postedCalls s) ∧ c∉postedCalls s' := by
        intro loop hloop s' hjobs hs'
        have same : postedCalls s'=postedCalls s := by
          unfold postedCalls
          rw [hjobs,hs',hloop,hin]
        rw [same]
        exact ⟨List.Sublist.refl _,elsewhere.1⟩
      have queue_ : ∀ i, (((s.setSlot m (fun slot => {slot with commands := rest})).slots i).commands).Sublist
          (s.slots i).commands ∧ c∉((s.setSlot m (fun slot => {slot with commands := rest})).slots i).commands :=
        fun i => ⟨pop_commands hq i,popped_gone h hq i⟩
      have active_ : ∀ i d, ((s.setSlot m (fun slot => {slot with commands := rest})).slots i).activeCall=some d →
          (s.slots i).activeCall=some d := update_active (fun _ => id)
      have here : (s.calls c).place≠.dropped ∧ (s.calls c).place≠.invoked := by
        rw [place]
        exact ⟨(fun never => by cases never),(fun never => by cases never)⟩
      split
      · exact placed_without h hc here rfl rfl (posted_ _ rfl _ rfl rfl) queue_ (fun _ never => by cases never) active_ rfl
      · unfold pop
        simp only []
        split
        · next event refused =>
          have refusal : event∈refusals := by
            unfold popRefusal at refused
            split at refused
            · cases refused
              decide
            · split at refused
              · cases refused
                decide
              · split at refused
                · cases refused
                  decide
                · split at refused
                  · cases refused
                    decide
                  · cases refused
          exact placed_refused h hc here.2 (Or.inl refusal) rfl rfl (posted_ _ rfl _ rfl rfl) queue_
            (fun _ never => by cases never) active_ rfl
        · refine placed_without h hc here rfl rfl (posted_ _ rfl _ rfl rfl) ?_ ?_ ?_ rfl
          · intro i
            have lock : ∀ t : Server, ((t.acquire m .scheduler).slots i).commands=(t.slots i).commands :=
              fun t => (idle_acquire .scheduler : Idle t _).commands i
            have same := lock ((s.setSlot m (fun slot => {slot with commands := rest})).setCall c
              (fun call => {call with place := .dispatching}))
            have queue := queue_ i
            rw [← show (((s.setSlot m (fun slot => {slot with commands := rest})).setCall c
              (fun call => {call with place := .dispatching})).slots i).commands=
                ((s.setSlot m (fun slot => {slot with commands := rest})).slots i).commands from rfl,← same] at queue
            exact queue
          · intro d found
            cases found
            exact Or.inr ⟨rfl,rfl⟩
          · intro i d found
            have unlocked : ∀ t : Server, ((t.acquire m .scheduler).slots i).activeCall=some d →
                (t.slots i).activeCall=some d := fun t => (idle_acquire .scheduler : Idle t _).active i d
            exact active_ i d (unlocked _ found)

/-- A call on its way leaves without an answer. -/
theorem lose_placed {t : Server} (h : Placed s) (hh : handedCall s.loop=some c) (hin : inHand s.loop=[])
    (hi : Idle s t) (hcalls : t.calls=s.calls) (hlog : t.log=s.log) (hjobs : t.jobs=s.jobs) : Placed (lose c t) := by
  obtain ⟨place,hc⟩ := h.handed c hh
  have elsewhere := handed_elsewhere h place
  have here : (s.calls c).place≠.dropped ∧ (s.calls c).place≠.invoked := by
    rw [place]
    exact ⟨(fun never => by cases never),(fun never => by cases never)⟩
  have posted : postedCalls (lose c t)=postedCalls s := by
    unfold postedCalls
    rw [hin]
    exact congrArg (· ++ []) hjobs
  have calls : (lose c t).calls=(s.setCall c (fun call => {call with place := .dropped})).calls := by
    show Function.update t.calls c {t.calls c with place := .dropped}=_
    rw [hcalls]
    rfl
  refine placed_without h hc here calls hi.count ?_ ?_ (fun _ never => by cases never) (fun i d => hi.active i d) hlog
  · rw [posted]
    exact ⟨List.Sublist.refl _,elsewhere.1⟩
  · intro i
    have same : ((lose c t).slots i).commands=(s.slots i).commands := hi.commands i
    rw [same]
    exact ⟨List.Sublist.refl _,elsewhere.2 i⟩

theorem decideControl_placed {left : List ℕ} {due : Bool} (choice : Choice) (h : Placed s)
    (hl : s.loop=.admission m c left due) : Placed (decideControl m c left due choice s) := by
  have hin : inHand s.loop=[] := by rw [hl]; rfl
  have hh : handedCall s.loop=some c := by rw [hl]; rfl
  obtain ⟨place,hc⟩ := h.handed c hh
  have elsewhere := handed_elsewhere h place
  have notInvoked : (s.calls c).place≠.invoked := by
    rw [place]
    exact fun never => by cases never
  have refused : ∀ event, event∈refusals → Placed (((refuse c event s).unlock m).goto (.serve left due)) := by
    intro event he
    have posted : postedCalls (((refuse c event s).unlock m).goto (.serve left due))=postedCalls s := by
      unfold postedCalls
      rw [hin]
      rfl
    have unlocked : Idle s (s.unlock m) := idle_unlock
    refine placed_refused h hc notInvoked (Or.inl he) rfl rfl ?_ ?_ (fun _ never => by cases never)
      (fun i d => unlocked.active i d) rfl
    · rw [posted]
      exact ⟨List.Sublist.refl _,elsewhere.1⟩
    · intro i
      have same : ((((refuse c event s).unlock m).goto (.serve left due)).slots i).commands=(s.slots i).commands :=
        unlocked.commands i
      rw [same]
      exact ⟨List.Sublist.refl _,elsewhere.2 i⟩
  unfold decideControl
  simp only []
  split
  · exact lose_placed h hh hin idle_unlock rfl rfl rfl
  · split
    · exact refused _ (by decide)
    · exact refused _ (by decide)
    · next control _ =>
      let s' := ((s.setControl (RobotControl.dispatch m (s.calls c).request choice.now)).setSlot m
        (fun slot => {slot with inFlight := true, activeCall := some c})).goto (.starting m c left due)
      have slot : s'.slots m={s.slots m with inFlight := true, activeCall := some c} := Function.update_self ..
      have others : ∀ i, i≠m → s'.slots i=s.slots i := fun i hi => Function.update_of_ne hi ..
      have commands : ∀ i, (s'.slots i).commands=(s.slots i).commands := by
        intro i
        by_cases hi : i=m
        · rw [hi,slot]
        · rw [others i hi]
      have started : Placed s' := by
        refine placed_move h hc (fun _ _ => rfl) rfl ⟨?_,fun mem => (h.posted c ?_).1⟩ ?_ ?_ ?_ ?_ (fun _ => id) ?_
          (h.honest c)
        · unfold postedCalls
          rw [hin]
          exact List.Sublist.refl _
        · unfold postedCalls
          rw [hin]
          exact mem
        · unfold postedCalls
          rw [hin]
          exact List.Subperm.refl _
        · intro i
          rw [commands i]
          refine ⟨h.queuedOnce i,fun d mem => Or.inl ⟨fun equal => ?_,mem⟩⟩
          rw [equal] at mem
          exact elsewhere.2 i mem
        · intro d found
          cases found
          exact Or.inr ⟨rfl,place⟩
        · intro i d found
          by_cases hi : i=m
          · rw [hi,slot] at found
            exact Or.inl (Option.some.inj found).symm
          · rw [others i hi] at found
            exact Or.inr found
        · intro i d safe mem
          refine Or.inl ⟨fun equal => ?_,mem⟩
          rw [equal] at mem
          exact notInvoked (h.executed i c safe mem)
      exact started

theorem callNative_placed {left : List ℕ} {due : Bool} (h : Placed s) (hl : s.loop=.starting m c left due) :
    Placed (callNative m c left due s) := by
  have hin : inHand s.loop=[] := by rw [hl]; rfl
  have hh : handedCall s.loop=some c := by rw [hl]; rfl
  obtain ⟨place,hc⟩ := h.handed c hh
  have elsewhere := handed_elsewhere h place
  have outstanding : Idle s (s.setSlot m (fun slot => {slot with outstanding := true})) := idle_setSlot rfl (fun _ => id)
  have call : (callNative m c left due s).calls c={s.calls c with place := .invoked} := Function.update_self ..
  have posted : postedCalls (callNative m c left due s)=postedCalls s := by
    unfold postedCalls
    rw [hin]
    rfl
  have admitted : admittedCalls (callNative m c left due s).log=admittedCalls s.log :=
    (admittedCalls_append s.log [_]).trans (List.append_nil _)
  refine placed_move h hc (fun d hd => Function.update_of_ne hd ..) rfl ⟨?_,?_⟩ ?_ ?_ (fun _ never => by cases never)
    (fun i d found => Or.inr (outstanding.active i d found)) (fun _ mem => List.mem_append_left _ mem) ?_ ?_
  · rw [posted]
  · rw [posted]
    exact fun mem => absurd mem elsewhere.1
  · rw [posted,admitted]
  · intro i
    have same : ((callNative m c left due s).slots i).commands=(s.slots i).commands := outstanding.commands i
    rw [same]
    refine ⟨h.queuedOnce i,fun d mem => Or.inl ⟨fun equal => ?_,mem⟩⟩
    rw [equal] at mem
    exact elsewhere.2 i mem
  · intro i d safe mem
    have invoked : ((callNative m c left due s).calls c).place=.invoked := by rw [call]
    by_cases hd : d=c
    · exact Or.inr ⟨hd,invoked⟩
    · rcases List.mem_append.mp mem with old | new
      · exact Or.inl ⟨hd,old⟩
      · cases List.mem_singleton.mp new
        exact absurd rfl hd
  · rw [call]
    refine honest_moved (honest_longer (h.honest c) (fun _ mem => List.mem_append_left _ mem)) ?_
    rw [place]
    exact fun never => by cases never

/-- Refusing calls does not touch the members. -/
theorem refuse_fold_setSlot {event : OperationEvent} {change : Slot → Slot} (cs : List ℕ) (s : Server) :
    cs.foldl (fun s c => refuse c event s) (s.setSlot m change)=
      (cs.foldl (fun s c => refuse c event s) s).setSlot m change := by
  induction cs generalizing s with
  | nil => rfl
  | cons c rest ih =>
    simp only [List.foldl_cons]
    exact ih (refuse c event s)

/-- A queue is cleared from its first command on. -/
theorem clearCommands_first {event : OperationEvent} {rest : List ℕ} (hq : (s.slots m).commands=c::rest) :
    clearCommands m event s=
      clearCommands m event ((refuse c event s).setSlot m (fun slot => {slot with commands := rest})) := by
  have slot : ((refuse c event s).setSlot m (fun slot => {slot with commands := rest})).slots m=
      {s.slots m with commands := rest} := Function.update_self ..
  have twice : ∀ t : Server, (t.setSlot m (fun slot => {slot with commands := rest})).setSlot m
      (fun slot => {slot with commands := []})=t.setSlot m (fun slot => {slot with commands := []}) := by
    intro t
    unfold Server.setSlot
    simp only [Function.update_self,Function.update_idem]
  unfold clearCommands
  rw [slot,hq]
  simp only [List.foldl_cons]
  rw [refuse_fold_setSlot,twice]

/-- Cleared commands leave the server without the native robot. -/
theorem clearCommands_placed {event : OperationEvent} (m : ℕ) (he : event∈refusals) (h : Placed s) :
    Placed (clearCommands m event s) := by
  -- The induction is on the queue; each refusal pops its first command.
  generalize hq : (s.slots m).commands=queue
  induction queue generalizing s with
  | nil =>
    have cleared : clearCommands m event s=s.setSlot m (fun slot => {slot with commands := []}) := by
      unfold clearCommands
      rw [hq]
      rfl
    rw [cleared]
    exact placed_idle h (idle_setSlot hq.symm (fun _ => id))
  | cons c rest ih =>
    rw [clearCommands_first hq]
    have first : c∈(s.slots m).commands := by
      rw [hq]
      exact List.mem_cons_self ..
    obtain ⟨place,hc⟩ := h.queued m c first
    have elsewhere := queued_elsewhere h place
    have notInvoked : (s.calls c).place≠.invoked := by
      rw [place]
      exact fun never => by cases never
    have popped : Placed ((refuse c event s).setSlot m (fun slot => {slot with commands := rest})) :=
      placed_refused h hc notInvoked (Or.inl he) rfl rfl ⟨List.Sublist.refl _,elsewhere.1⟩
        (fun i => ⟨pop_commands hq i,popped_gone h hq i⟩) (fun d found => ⟨elsewhere.2.2 d found,found⟩)
        (update_active (fun _ => id)) rfl
    refine ih popped ?_
    have slot : ((refuse c event s).setSlot m (fun slot => {slot with commands := rest})).slots m=
        {s.slots m with commands := rest} := Function.update_self ..
    rw [slot]

/-- A call without a result gets an unknown one. -/
theorem settle_placed {event : OperationEvent} (m : ℕ) (he : event∈unknowns) (h : Placed s) :
    Placed (settle m event s) := by
  unfold settle
  simp only []
  have ended : ∀ t : Server, Idle t (t.setSlot m (fun slot => {slot with activeCall := none, inFlight := false})) :=
    fun t => idle_setSlot rfl (fun _ never => by cases never)
  split
  · next c found =>
    have call : (finishExecute c event s).calls c=(s.calls c).finish (.server event) := Function.update_self ..
    have answered : Placed (finishExecute c event s) := by
      refine placed_answered h (h.active m c found) (fun d hd => Function.update_of_ne hd ..) ?_ rfl rfl (fun _ => rfl)
        (fun _ => id) (fun _ _ => id) (fun _ => id) (fun _ _ _ => id) rfl ?_
      · rw [call]
        exact finish_place _ _
      · rw [call]
        exact honest_uncertain (h.honest c) he
    exact placed_idle answered (ended _)
  · exact placed_idle h (ended s)

theorem completeNative_placed (m : ℕ) (event : OperationEvent) (h : Placed s) : Placed (completeNative m event s) := by
  unfold completeNative
  split
  · next c found =>
    split
    · exact h
    · let s' := (((s.setControl (RobotControl.complete m (decide (event.phase=.succeeded) && event.error.isNone))).setSlot m
        (fun slot => {slot with
          activeCall := none, outstanding := false,
          uncertain := slot.uncertain || decide (event.phase=.uncertain)})).setCall c
            (fun call => call.finish (.native event))).logged (.completed m c event)
      have call : s'.calls c=(s.calls c).finish (.native event) := Function.update_self ..
      have longer : ∀ event∈s.log, event∈s'.log := fun _ mem => List.mem_append_left _ mem
      have logged : .completed m c event∈s'.log := List.mem_append_right _ (List.mem_singleton_self _)
      have done : Placed s' := by
        refine placed_answered h (h.active m c found) (fun d hd => Function.update_of_ne hd ..) ?_ rfl rfl
          (update_commands rfl) (fun _ => id) (update_active (fun _ never => by cases never)) longer ?_ ?_ ?_
        · rw [call]
          exact finish_place _ _
        · intro i d safe mem
          rcases List.mem_append.mp mem with old | new
          · exact old
          · cases List.mem_singleton.mp new
        · have same := admittedCalls_append s.log [.completed m c event]
          exact same.trans (List.append_nil _)
        · rw [call]
          exact honest_completed (honest_longer (h.honest c) longer) logged
      exact done
  · exact h

theorem schedule_placed (choice : Choice) (h : Placed s) : Placed (schedule choice s) := by
  have moved : ∀ loop, inHand loop=inHand s.loop → handedCall loop=none → Placed (s.goto loop) := by
    intro loop hin hh
    refine placed_idle h (idle_goto hin ?_)
    intro c found
    rw [hh] at found
    cases found
  have left_ : ∀ fence, inHand s.loop=[] → Placed (leaveLoop [] fence s) :=
    fun fence hin => placed_idle h (idle_leaveLoop fence hin)
  have unlocked : ∀ m, inHand s.loop=[] → Placed (leaveLoop [] false (s.unlock m)) :=
    fun m hin => placed_idle (placed_idle h idle_unlock) (idle_leaveLoop false hin)
  have cleared : ∀ m event loop, event∈refusals → inHand loop=inHand s.loop → handedCall loop=none →
      Placed ((clearCommands m event s).goto loop) := by
    intro m event loop he hin hh
    obtain ⟨calls,same⟩ := clearCommands_frame m event s
    have kept : (clearCommands m event s).loop=s.loop := by rw [same]; rfl
    refine placed_idle (clearCommands_placed m he h) (idle_goto (by rw [kept]; exact hin) ?_)
    intro c found
    rw [hh] at found
    cases found
  unfold schedule
  split
  · next hl =>
    split
    · exact left_ _ (by rw [hl]; rfl)
    · have hin : inHand s.loop=[] := by rw [hl]; rfl
      refine ⟨?_,?_,h.arrived,h.queued,h.queuedOnce,(fun _ never => by cases never),h.active,h.executed,h.honest,h.fresh⟩
      · intro c mem
        refine h.posted c ?_
        unfold postedCalls
        rw [hin,List.append_nil]
        exact mem
      · have once := h.arrivedOnce
        unfold postedCalls at once
        rwa [hin,List.append_nil] at once
  · next c left fence hl =>
    split
    · exact refuse_first_placed h (by rw [hl]; rfl) rfl rfl (Or.inl (by decide))
    · exact moved _ (by rw [hl]; rfl) rfl
  · next hl => exact moved _ (by rw [hl]; rfl) rfl
  · next hl => exact moved _ (by rw [hl]; rfl) rfl
  · next c found left fence hl =>
    split
    · have refused : Placed ((refuse c admissionInterrupted s).goto (.failing left)) :=
        refuse_first_placed h (by rw [hl]; rfl) rfl rfl (Or.inr (by decide))
      exact placed_idle refused
        (idle_frame rfl rfl rfl rfl rfl rfl)
    · exact enqueue_placed h hl
  · next m left hl =>
    split
    · exact left_ _ (by rw [hl]; rfl)
    · exact cleared m memberRemoved _ (by decide) (by rw [hl]; rfl) rfl
  · next hl =>
    split
    · exact left_ _ (by rw [hl]; rfl)
    · have ended := moved .refresh (by rw [hl]; rfl) rfl
      exact placed_idle ended
        (idle_frame rfl rfl rfl rfl rfl rfl)
  · next hl =>
    unfold refresh
    have ended := moved (.serve ((refreshed s).filter (fun m => !((s.slots m).closing && !(s.slots m).inFlight)))
      choice.due) (by rw [hl]; rfl) rfl
    exact placed_idle ended
      (idle_frame rfl rfl rfl rfl rfl rfl)
  · next hl =>
    split
    · exact left_ _ (by rw [hl]; rfl)
    · split
      · exact moved _ (by rw [hl]; rfl) rfl
      · exact moved _ (by rw [hl]; rfl) rfl
  · next hl =>
    split
    · exact left_ _ (by rw [hl]; rfl)
    · exact moved _ (by rw [hl]; rfl) rfl
  · next m left due hl =>
    split
    · exact placed_idle (moved (.silence m left due) (by rw [hl]; rfl) rfl) (idle_acquire .scheduler)
    · exact moved _ (by rw [hl]; rfl) rfl
  · next m left due hl =>
    split
    · exact unlocked m (by rw [hl]; rfl)
    · split
      · exact moved _ (by rw [hl]; rfl) rfl
      · have silent := moved (.silent m left due) (by rw [hl]; rfl) rfl
        have logged : ∀ t : Server, Idle t (t.logged (.coreSilent m)) :=
          fun t => idle_logged (fun _ _ _ never => by cases never) rfl
        exact placed_idle (placed_idle silent (idle_setControl (RobotControl.watch m choice.now))) (logged _)
  · next m left due hl =>
    split
    · exact unlocked m (by rw [hl]; rfl)
    · exact placed_idle (moved (.periodic m left due) (by rw [hl]; rfl) rfl)
        (idle_setControl (RobotControl.coreSilent choice.released))
  · next m left due hl =>
    have logged : ∀ t : Server, Idle t (t.logged (.periodic m)) :=
      fun t => idle_logged (fun _ _ _ never => by cases never) rfl
    exact placed_idle (moved (.inPeriodic m left due) (by rw [hl]; rfl) rfl) (logged _)
  · next m left due hl =>
    split
    · exact unlocked m (by rw [hl]; rfl)
    · exact placed_idle (moved (.ready m left due) (by rw [hl]; rfl) rfl) idle_unlock
  · next hl => exact takeCommand_placed choice h hl
  · next hl => exact decideControl_placed choice h hl
  · next hl => exact callNative_placed h hl
  · next m left due hl =>
    split
    · exact unlocked m (by rw [hl]; rfl)
    · exact placed_idle (moved (.serve left due) (by rw [hl]; rfl) rfl) idle_unlock
  · next hl => exact refuse_first_placed h (by rw [hl]; rfl) rfl rfl (Or.inl (by decide))
  · next hl => exact moved _ (by rw [hl]; rfl) rfl
  · next m left all hl =>
    split
    · exact placed_idle (moved .done (by rw [hl]; rfl) rfl)
        (idle_setControl RobotControl.schedulerExit)
    · exact cleared m serverStopped _ (by decide) (by rw [hl]; rfl) rfl
  · next hl => exact moved _ (by rw [hl]; rfl) rfl
  · next all hl =>
    exact placed_idle (moved (.settling all) (by rw [hl]; rfl) rfl) (idle_setControl RobotControl.schedulerExit)
  · next m left hl =>
    have settled := settle_placed m (show nativeOwnerExited∈unknowns by decide) h
    obtain ⟨calls,same⟩ := settle_frame m nativeOwnerExited s
    have loop : (settle m nativeOwnerExited s).loop=s.loop := by rw [same]; rfl
    exact placed_idle settled (idle_goto (by rw [loop,hl]; rfl) (fun _ never => by cases never))
  · next hl => exact moved _ (by rw [hl]; rfl) rfl
  · exact h

end Scheduler

section Threads

variable {s : Server} {m c : ℕ}

theorem land_placed (m : ℕ) (h : Placed s) : Placed (land m s) := by
  unfold land
  split
  · exact h
  · exact placed_idle h (idle_setSlot rfl (fun _ => id))

theorem publish_placed (identity : MemberIdentity) (native : NativeRobot) (h : Placed s) :
    Placed (publish identity native s) := by
  let slot : Slot := {identity := identity, native := native, closing := false}
  have here : (publish identity native s).slots s.memberCount=slot := Function.update_self ..
  have others : ∀ i, i≠s.memberCount → (publish identity native s).slots i=s.slots i :=
    fun i hi => Function.update_of_ne hi ..
  refine ⟨h.posted,h.arrivedOnce,h.arrived,?_,?_,h.handed,?_,h.executed,h.honest,h.fresh⟩
  · intro i c mem
    by_cases hi : i=s.memberCount
    · rw [hi,here] at mem
      cases mem
    · rw [others i hi] at mem
      exact h.queued i c mem
  · intro i
    by_cases hi : i=s.memberCount
    · rw [hi,here]
      exact List.nodup_nil
    · rw [others i hi]
      exact h.queuedOnce i
  · intro i c found
    by_cases hi : i=s.memberCount
    · rw [hi,here] at found
      cases found
    · rw [others i hi] at found
      exact h.active i c found

theorem idle_takeOut (m : ℕ) : Idle s (takeOut s m) := by
  have closed : Idle s (s.setSlot m (fun slot => {slot with closing := true})) := idle_setSlot rfl (fun _ => id)
  exact ⟨closed.calls,closed.count,closed.posted,closed.commands,closed.handed,closed.active,closed.log,closed.executed,
    closed.admitted⟩

theorem idle_takeOut_all (members : List ℕ) (s : Server) : Idle s (members.foldl takeOut s) := by
  induction members generalizing s with
  | nil => exact idle_refl s
  | cons m rest ih => exact idle_trans (idle_takeOut m) (ih (takeOut s m))

theorem settleDead_placed (members : List ℕ) (h : Placed s) : Placed (members.foldl settleDead s) := by
  induction members generalizing s with
  | nil => exact h
  | cons m rest ih => exact ih (clearCommands_placed m (by decide) (settle_placed m (by decide) h))

theorem fenceFailed_placed (members : List ℕ) (drain : Bool) (h : Placed s) : Placed (fenceFailed members drain s) := by
  unfold fenceFailed
  split
  · exact placed_idle h (idle_turn _)
  · exact placed_idle h (idle_turn _)

theorem register_placed (throws : Bool) (h : Placed s) : Placed (register throws s) := by
  have turned : ∀ registrar, Placed (s.turn registrar) := fun registrar => placed_idle h (idle_turn registrar)
  unfold register
  split
  · exact h
  · exact publish_placed _ _ h
  · exact turned _
  · split
    · exact turned _
    · exact placed_idle (settleDead_placed _ h) (idle_turn _)
  · next members drain _ =>
    split
    · exact placed_idle (turned (.awaiting members drain))
        (idle_frame rfl rfl rfl rfl rfl rfl)
    · exact fenceFailed_placed _ _ h
  · next members drain _ =>
    split
    · exact turned _
    · exact fenceFailed_placed _ _ h
    · split
      · exact h
      · exact placed_idle (turned (.fencing members drain))
          (idle_frame rfl rfl rfl rfl rfl rfl)
  · split
    · exact turned _
    · exact h
  · exact turned _
  · next m left drain _ =>
    split
    · exact h
    · split
      · exact turned _
      · have logged : ∀ t : Server, Idle t (t.logged (.stopCalled m)) :=
          fun t => idle_logged (fun _ _ _ never => by cases never) rfl
        exact placed_idle (placed_idle (placed_idle h (idle_acquire .registration)) (logged _)) (idle_turn _)
  · next m left drain _ =>
    split
    · exact placed_idle (placed_idle h idle_unlock) (idle_turn _)
    · have stopped : Idle s (s.setSlot m (fun slot => {slot with nativeStopped := true})) := idle_setSlot rfl (fun _ => id)
      have logged : ∀ t : Server, Idle t (t.logged (.stopReturned m)) :=
        fun t => idle_logged (fun _ _ _ never => by cases never) rfl
      exact placed_idle (placed_idle (placed_idle (placed_idle h stopped) idle_unlock) (logged _)) (idle_turn _)
  · next m left drain _ => exact placed_idle (placed_idle h (idle_setControl (RobotControl.stopMember m))) (idle_turn _)
  · exact h

theorem postCommand_placed (request : ExecuteRequest) (h : Placed s) : Placed (postCommand request s) := by
  unfold postCommand
  split
  · exact h
  · let s' : Server := {s with
      calls := Function.update s.calls s.callCount {request := request, place := .posted},
      callCount := s.callCount+1, jobs := s.jobs ++ [s.callCount]}
    have call : s'.calls s.callCount={request := request, place := .posted} := Function.update_self ..
    have others : ∀ c, c≠s.callCount → s'.calls c=s.calls c := fun c hc => Function.update_of_ne hc ..
    have older : ∀ c, c<s.callCount → s'.calls c=s.calls c := fun c hc => others c (by omega)
    have posted : (postedCalls s').Perm (s.callCount::postedCalls s) := by
      have moved : (s.jobs ++ [s.callCount] ++ inHand s.loop).Perm (s.callCount::(s.jobs ++ inHand s.loop)) := by
        rw [List.append_assoc]
        exact List.perm_middle
      exact moved
    have done : Placed s' := by
      refine ⟨?_,?_,fun c mem => Nat.lt_succ_of_lt (h.arrived c mem),?_,h.queuedOnce,?_,?_,?_,?_,?_⟩
      · intro c mem
        rcases List.mem_cons.mp (posted.mem_iff.mp mem) with new | old
        · rw [new,call]
          exact ⟨rfl,Nat.lt_succ_self _⟩
        · obtain ⟨place,hc⟩ := h.posted c old
          rw [older c hc]
          exact ⟨place,Nat.lt_succ_of_lt hc⟩
      · have all : (admittedCalls s.log ++ postedCalls s').Perm (s.callCount::(admittedCalls s.log ++ postedCalls s)) :=
          (List.Perm.append_left _ posted).trans List.perm_middle
        refine all.nodup_iff.mpr (List.nodup_cons.mpr ⟨fun mem => ?_,h.arrivedOnce⟩)
        rcases List.mem_append.mp mem with old | old
        · exact absurd (h.arrived _ old) (Nat.lt_irrefl _)
        · exact absurd (h.posted _ old).2 (Nat.lt_irrefl _)
      · intro m c mem
        obtain ⟨place,hc⟩ := h.queued m c mem
        rw [older c hc]
        exact ⟨place,Nat.lt_succ_of_lt hc⟩
      · intro c found
        obtain ⟨place,hc⟩ := h.handed c found
        rw [older c hc]
        exact ⟨place,Nat.lt_succ_of_lt hc⟩
      · exact fun m c found => Nat.lt_succ_of_lt (h.active m c found)
      · intro m c safe mem
        have invoked := h.executed m c safe mem
        have old : c≠s.callCount := by
          intro equal
          rw [equal,(h.fresh s.callCount (Nat.le_refl _)).2] at invoked
          cases invoked
        rw [others c old]
        exact invoked
      · intro c
        by_cases hc : c=s.callCount
        · rw [hc,call]
          trivial
        · rw [others c hc]
          exact h.honest c
      · intro c hc
        have later : s.callCount+1 ≤ c := hc
        rw [others c (by omega)]
        exact h.fresh c (by omega)
    exact done

theorem lifecycle_idle (site : Lifecycle) (s : Server) : Idle s (lifecycle site s) := by
  cases site with
  | stop =>
    unfold lifecycle
    simp only []
    split
    · exact idle_refl s
    · split
      · exact idle_frame rfl rfl rfl rfl rfl rfl
      · exact idle_frame rfl rfl rfl rfl rfl rfl
      · exact idle_refl s
  | shutdown => exact idle_frame rfl rfl rfl rfl rfl rfl
  | _ =>
    unfold lifecycle
    simp only []
    split
    · exact idle_frame rfl rfl rfl rfl rfl rfl
    · exact idle_refl s

theorem retireCall_idle (r : ℕ) (s : Server) : Idle s (retireCall r s) := by
  unfold retireCall
  split
  · exact idle_refl s
  · next m _ =>
    split
    · exact idle_refl s
    · split
      · exact idle_setControl _
      · have logged : ∀ t : Server, Idle t (t.logged (.retireControl m)) :=
          fun t => idle_logged (fun _ _ _ never => by cases never) rfl
        exact idle_trans (idle_acquire (.rpc r)) (logged _)

theorem retireReturn_idle (r : ℕ) (success : Bool) (s : Server) : Idle s (retireReturn r success s) := by
  unfold retireReturn
  split
  · exact idle_refl s
  · split
    · exact idle_trans (idle_setControl (RobotControl.returned r success)) idle_unlock
    · exact idle_refl s

theorem step_placed (site : RobotControl.Site) (s : Server) (action : Action) (h : Placed s) :
    Placed (step site s action) := by
  cases action with
  | post request => exact postCommand_placed request h
  | cancel c =>
    have kept : ∀ d, ((step site s (.cancel c)).calls d).place=(s.calls d).place ∧
        ((step site s (.cancel c)).calls d).outcome=(s.calls d).outcome := by
      intro d
      by_cases hd : d=c
      · have same : (step site s (.cancel c)).calls c={s.calls c with cancelled := true} := Function.update_self ..
        rw [hd,same]
        exact ⟨rfl,rfl⟩
      · have same : (step site s (.cancel c)).calls d=s.calls d := Function.update_of_ne hd ..
        rw [same]
        exact ⟨rfl,rfl⟩
    exact placed_idle h ⟨kept,rfl,rfl,fun _ => rfl,fun _ => id,fun _ _ => id,fun _ => id,fun _ _ _ => id,rfl⟩
  | control input =>
    unfold step
    simp only []
    split
    · exact placed_idle h (idle_setControl _)
    · exact h
  | retireCall r => exact placed_idle h (retireCall_idle r s)
  | retireReturn r success => exact placed_idle h (retireReturn_idle r success s)
  | lifecycle site => exact placed_idle h (lifecycle_idle site s)
  | schedule choice => exact schedule_placed choice h
  | complete m event => exact completeNative_placed m event h
  | land m => exact land_placed m h
  | apply identity native =>
    show Placed (applyMember identity native s)
    unfold applyMember
    split
    · split
      · exact h
      · exact placed_idle h (idle_turn _)
    · exact h
  | remove m =>
    show Placed (removeMember m s)
    unfold removeMember
    split
    · split
      · exact h
      · exact placed_idle (placed_idle h (idle_takeOut m)) (idle_turn _)
    · exact h
  | closeAll =>
    show Placed (closeAllMembers s)
    unfold closeAllMembers
    split
    · split
      · exact h
      · have out := placed_idle h (idle_takeOut_all (s.table.map Prod.snd) s)
        exact placed_idle out
          (idle_frame rfl rfl rfl rfl rfl rfl)
    · exact h
  | register throws => exact register_placed throws h

end Threads

section Outcomes

variable {s s' : Server} {m c : ℕ}

/-- A new server has no calls. -/
theorem initial_placed : Placed {} where
  posted := fun _ never => by cases never
  arrivedOnce := List.nodup_nil
  arrived := fun _ never => by cases never
  queued := fun _ _ never => by cases never
  queuedOnce := fun _ => List.nodup_nil
  handed := fun _ never => by cases never
  active := fun _ _ never => by cases never
  executed := fun _ _ _ never => by cases never
  honest := fun _ => trivial
  fresh := fun _ _ => ⟨rfl,rfl⟩

/-- A server for a sample run. -/
def sampleSite : RobotControl.Site := ⟨List.replicate 32 1,"target","instance"⟩

/-- A robot that neither needs nor releases control. -/
def sampleRobot : NativeRobot := ⟨fun _ => false,fun _ => false,fun _ => false,0⟩

end Outcomes

end Ros1Adapter.RobotOutcomes
