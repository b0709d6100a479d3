import Mathlib.Tactic.Common
import Mathlib.Algebra.Order.Group.Multiset
import Mathlib.Data.Multiset.Range
import Mathlib.Data.Multiset.AddSub

/-!
# The scan pool

A caller and its workers share one batch of jobs at a time. Indices are claimed
from an atomic counter without the lock; the batch, the number of busy workers
and the first error are changed under it. Every thread moves by one atomic step
at a time, in any order. A tally of what each thread holds accounts for every
index of the batch, so that the batch is complete when the last worker leaves.
-/

namespace Ros1Adapter.ScanPool

section Model

variable {Job Context Owner Error : Type}

/-- Number of values of a `size_t`. -/
def sizeValues : ℕ := 2^64

/-- Arguments of one run. -/
structure Call (Job Context Owner : Type) where
  count : ℕ
  context : Context
  job : Option Job
  /-- Job of the calling thread alone. -/
  owner : Option Owner

/-- One execution: of the owner job, or of an index by the job and context at hand. -/
inductive Task (Job Context Owner : Type) where
  | owner (owner : Owner) (context : Context)
  | index (job : Option Job) (context : Option Context) (index : ℕ)

/-- What an observer sees. -/
inductive Event (Job Context Owner Error : Type) where
  | called (call : Call Job Context Owner)
  | started (task : Task Job Context Owner)
  /-- The task returns, or throws. -/
  | finished (task : Task Job Context Owner) (error : Option Error)
  /-- The run returns, or throws. -/
  | returned (error : Option Error)
  /-- The run throws because its job is null. -/
  | refused

/-- Members that the threads share. -/
structure Shared (Job Context Error : Type) where
  job : Option Job := none
  context : Option Context := none
  count : ℕ := 0
  /-- Next index to claim. -/
  next : ℕ := 0
  /-- First exception of the batch. -/
  error : Option Error := none
  /-- Workers that have not left the batch. -/
  busy : ℕ := 0
  batch : ℕ := 0
  stop : Bool := false

/-- Positions inside `drain`. -/
inductive Drain (Job Context Owner Error : Type) where
  | claiming
  | claimed (index : ℕ)
  | running (task : Task Job Context Owner)
  | failed (error : Error)

/-- Positions of a worker, each with the batch it has seen. -/
inductive Worker (Job Context Owner Error : Type) where
  | waiting (seen : ℕ)
  | draining (seen : ℕ) (drain : Drain Job Context Owner Error)
  | leaving (seen : ℕ)
  | exited

/-- Positions of the caller while it runs a batch alone. -/
inductive Alone (Owner : Type) where
  | owner
  | ownerRunning (owner : Owner)
  | next (index : ℕ)
  | running (index : ℕ)

/-- Positions of the caller while it shares a batch. -/
inductive Sharing (Job Context Owner Error : Type) where
  | owner
  | ownerRunning (owner : Owner)
  | ownerFailed (error : Error)
  | draining (drain : Drain Job Context Owner Error)
  | joining

/-- Positions of the caller. -/
inductive Caller (Job Context Owner Error : Type) where
  | idle
  | alone (call : Call Job Context Owner) (error : Option Error) (place : Alone Owner)
  | publishing (call : Call Job Context Owner)
  | sharing (call : Call Job Context Owner) (place : Sharing Job Context Owner Error)
  | closed

/-- One step inside `drain`: the position after it, or none when the thread leaves. -/
def Drain.step (shared : Shared Job Context Error) (drain : Drain Job Context Owner Error)
    (thrown : Option Error) :
    Shared Job Context Error × Option (Drain Job Context Owner Error) ×
      List (Event Job Context Owner Error) :=
  match drain with
  | .claiming => ({shared with next := (shared.next+1)%sizeValues},some (.claimed shared.next),[])
  | .claimed index =>
    if shared.count ≤ index then (shared,none,[])
    else (shared,some (.running (.index shared.job shared.context index)),
      [.started (.index shared.job shared.context index)])
  | .running task =>
    match thrown with
    | none => (shared,some .claiming,[.finished task none])
    | some error => (shared,some (.failed error),[.finished task (some error)])
  | .failed error => ({shared with error := shared.error.or (some error)},some .claiming,[])

/-- One step of a worker; a wait that finds nothing stays. -/
def Worker.step (shared : Shared Job Context Error) (worker : Worker Job Context Owner Error)
    (thrown : Option Error) :
    Shared Job Context Error × Worker Job Context Owner Error × List (Event Job Context Owner Error) :=
  match worker with
  | .waiting seen =>
    if shared.stop then (shared,.exited,[])
    else if shared.batch≠seen then (shared,.draining shared.batch .claiming,[])
    else (shared,.waiting seen,[])
  | .draining seen drain =>
    let (after,place,events) := drain.step shared thrown
    (after,(match place with
      | some inside => .draining seen inside
      | none => .leaving seen),events)
  | .leaving seen => ({shared with busy := shared.busy-1},.waiting seen,[])
  | .exited => (shared,.exited,[])

/-- One step of the caller while it runs a batch alone. -/
def Alone.step (call : Call Job Context Owner) (error : Option Error) (place : Alone Owner)
    (thrown : Option Error) :
    Caller Job Context Owner Error × List (Event Job Context Owner Error) :=
  match place with
  | .owner =>
    match call.owner with
    | none => (.alone call error (.next 0),[])
    | some job => (.alone call error (.ownerRunning job),[.started (.owner job call.context)])
  | .ownerRunning job => (.alone call thrown (.next 0),[.finished (.owner job call.context) thrown])
  | .next index =>
    if index<call.count then
      (.alone call error (.running index),[.started (.index call.job (some call.context) index)])
    else (.idle,[.returned error])
  | .running index =>
    (.alone call (error.or thrown) (.next (index+1)),
      [.finished (.index call.job (some call.context) index) thrown])

/-- One step of the caller while it shares a batch. -/
def Sharing.step (shared : Shared Job Context Error) (call : Call Job Context Owner)
    (place : Sharing Job Context Owner Error) (thrown : Option Error) :
    Shared Job Context Error × Caller Job Context Owner Error × List (Event Job Context Owner Error) :=
  match place with
  | .owner =>
    match call.owner with
    | none => (shared,.sharing call (.draining .claiming),[])
    | some job => (shared,.sharing call (.ownerRunning job),[.started (.owner job call.context)])
  | .ownerRunning job =>
    (shared,.sharing call (match thrown with
      | none => .draining .claiming
      | some error => .ownerFailed error),[.finished (.owner job call.context) thrown])
  | .ownerFailed error =>
    ({shared with error := shared.error.or (some error)},.sharing call (.draining .claiming),[])
  | .draining drain =>
    let (after,inside,events) := drain.step shared thrown
    (after,.sharing call (match inside with
      | some inside => .draining inside
      | none => .joining),events)
  | .joining =>
    if shared.busy=0 then
      ({shared with job := none, context := none, error := none},.idle,[.returned shared.error])
    else (shared,.sharing call .joining,[])

/-- All threads. -/
structure Pool (Job Context Owner Error : Type) where
  shared : Shared Job Context Error
  workers : List (Worker Job Context Owner Error)
  caller : Caller Job Context Owner Error

/-- A pool before its first run. -/
def Pool.start (workers : ℕ) : Pool Job Context Owner Error :=
  ⟨{},List.replicate workers (.waiting 0),.idle⟩

/-- Which thread moves. The outcome is that of the task it is running, if any. -/
inductive Action (Job Context Owner Error : Type) where
  | run (call : Call Job Context Owner)
  | close
  | caller (thrown : Option Error)
  | worker (index : ℕ) (thrown : Option Error)

/-- How a run begins. -/
def Pool.begin (pool : Pool Job Context Owner Error) (call : Call Job Context Owner) :
    Caller Job Context Owner Error × List (Event Job Context Owner Error) :=
  -- without indices the owner job is called directly, which is the loop over no index
  if call.count=0 then (.alone call none .owner,[.called call])
  else if call.job.isNone then (.idle,[.called call,.refused])
  else if pool.workers.isEmpty ∨ call.count=1 then (.alone call none .owner,[.called call])
  else (.publishing call,[.called call])

/-- The members of a new batch. -/
def Shared.publish (shared : Shared Job Context Error) (call : Call Job Context Owner) (workers : ℕ) :
    Shared Job Context Error :=
  { job := call.job
    context := some call.context
    count := call.count
    next := 0
    error := none
    busy := workers
    batch := (shared.batch+1)%sizeValues
    stop := shared.stop }

/-- One atomic step of one thread; a thread that cannot move stays. -/
def Pool.step (pool : Pool Job Context Owner Error) (action : Action Job Context Owner Error) :
    Pool Job Context Owner Error × List (Event Job Context Owner Error) :=
  match action with
  | .run call =>
    match pool.caller with
    | .idle => ({pool with caller := (pool.begin call).1},(pool.begin call).2)
    | _ => (pool,[])
  | .close =>
    match pool.caller with
    | .idle => ({pool with caller := .closed, shared := {pool.shared with stop := true}},[])
    | _ => (pool,[])
  | .caller thrown =>
    match pool.caller with
    | .idle => (pool,[])
    | .closed => (pool,[])
    | .alone call error place =>
      ({pool with caller := (place.step call error thrown).1},(place.step call error thrown).2)
    | .publishing call =>
      ({pool with
        caller := .sharing call .owner
        shared := pool.shared.publish call pool.workers.length },[])
    | .sharing call place =>
      let (shared,caller,events) := place.step pool.shared call thrown
      ({pool with shared := shared, caller := caller},events)
  | .worker index thrown =>
    match pool.workers[index]? with
    | none => (pool,[])
    | some worker =>
      let (shared,moved,events) := worker.step pool.shared thrown
      ({pool with shared := shared, workers := pool.workers.set index moved},events)

/-- Threads after steps, and everything seen. -/
def Pool.run (pool : Pool Job Context Owner Error) :
    List (Action Job Context Owner Error) →
    Pool Job Context Owner Error × List (Event Job Context Owner Error)
  | [] => (pool,[])
  | action::rest =>
    let moved := pool.step action
    let later := moved.1.run rest
    (later.1,moved.2++later.2)

end Model

section Batches

variable {Job Context Owner Error : Type}

/-- Tasks of a call: the owner job, if any, and every index with the call's job and context. -/
def Call.tasks (call : Call Job Context Owner) : List (Task Job Context Owner) :=
  (call.owner.toList.map fun job => .owner job call.context)++
    (List.range call.count).map (.index call.job (some call.context))

/-- Task that an event starts. -/
def Event.start : Event Job Context Owner Error → Option (Task Job Context Owner)
  | .started task => some task
  | _ => none

/-- Task that an event finishes. -/
def Event.finish : Event Job Context Owner Error → Option (Task Job Context Owner)
  | .finished task _ => some task
  | _ => none

/-- The event belongs to a task. -/
def Event.work : Event Job Context Owner Error → Bool
  | .started _ => true
  | .finished _ _ => true
  | _ => false

/-- Tasks started in order. -/
def started (events : List (Event Job Context Owner Error)) : List (Task Job Context Owner) :=
  events.filterMap Event.start

/-- Tasks finished in order. -/
def finished (events : List (Event Job Context Owner Error)) : List (Task Job Context Owner) :=
  events.filterMap Event.finish

/-- A task has thrown. -/
def Threw (events : List (Event Job Context Owner Error)) : Prop :=
  ∃ task error, .finished task (some error)∈events

/-- The events of a call up to now: nothing but its own tasks, none of them twice,
and none finished that was not started. -/
structure Partial (call : Call Job Context Owner) (body : List (Event Job Context Owner Error)) :
    Prop where
  work : ∀ event∈body, event.work=true
  once : (started body).Subperm call.tasks
  begun : (finished body).Subperm (started body)

/-- The events of a call that is over: every task has been started and finished
exactly once, and the call throws exactly when one of them has thrown. -/
structure Complete (call : Call Job Context Owner) (body : List (Event Job Context Owner Error))
    (result : Option Error) : Prop where
  work : ∀ event∈body, event.work=true
  started : (started body).Perm call.tasks
  finished : (finished body).Perm call.tasks
  throws : result.isSome=true ↔ Threw body

/-- Calls one after the other, each complete or refused for its null job. -/
inductive Batches : List (Event Job Context Owner Error) → Prop where
  | nothing : Batches []
  | batch {before : List (Event Job Context Owner Error)} {call : Call Job Context Owner}
      {body : List (Event Job Context Owner Error)} {result : Option Error} :
      Batches before → (0<call.count → call.job≠none) → Complete call body result →
      Batches (before++.called call::(body++[.returned result]))
  | refused {before : List (Event Job Context Owner Error)} {call : Call Job Context Owner} :
      Batches before → 0<call.count → call.job=none → Batches (before++[.called call,.refused])

/-- Complete calls, and perhaps one that is not over. -/
def Batched (trace : List (Event Job Context Owner Error)) : Prop :=
  Batches trace ∨ ∃ before call body, Batches before ∧ (0<call.count → call.job≠none) ∧
    Partial call body ∧ trace=before++.called call::body

/-- No two tasks of a call are the same. -/
theorem tasks_nodup (call : Call Job Context Owner) : call.tasks.Nodup := by
  unfold Call.tasks
  rw [List.nodup_append]
  refine ⟨?_,?_,?_⟩
  · cases call.owner with
    | none => exact List.nodup_nil
    | some job => exact List.nodup_singleton _
  · exact List.nodup_range.map fun first second h => (Task.index.inj h).2.2
  · intro first hfirst second hsecond
    obtain ⟨job,-,hjob⟩ := List.mem_map.mp hfirst
    obtain ⟨index,-,hindex⟩ := List.mem_map.mp hsecond
    rw [←hjob,←hindex]
    intro h
    cases h

/-- Starts of a trace are those of its parts. -/
theorem started_append (first second : List (Event Job Context Owner Error)) :
    started (first++second)=started first++started second :=
  List.filterMap_append

/-- Finishes of a trace are those of its parts. -/
theorem finished_append (first second : List (Event Job Context Owner Error)) :
    finished (first++second)=finished first++finished second :=
  List.filterMap_append

/-- Throws of a trace are those of its parts. -/
theorem threw_append (first second : List (Event Job Context Owner Error)) :
    Threw (first++second) ↔ Threw first ∨ Threw second := by
  unfold Threw
  simp only [List.mem_append]
  constructor
  · intro ⟨task,error,h⟩
    rcases h with hfirst | hsecond
    · exact Or.inl ⟨task,error,hfirst⟩
    · exact Or.inr ⟨task,error,hsecond⟩
  · intro h
    rcases h with ⟨task,error,hfirst⟩ | ⟨task,error,hsecond⟩
    · exact ⟨task,error,Or.inl hfirst⟩
    · exact ⟨task,error,Or.inr hsecond⟩

/-- A finish throws when it has an error. -/
theorem threw_finished (task : Task Job Context Owner) (error : Option Error) :
    Threw [.finished task error] ↔ error.isSome=true := by
  unfold Threw
  cases error with
  | none =>
    constructor
    · intro ⟨task',error',h⟩
      cases List.mem_singleton.mp h
    · intro h
      exact absurd h Bool.false_ne_true
  | some error =>
    constructor
    · intro _
      rfl
    · intro _
      exact ⟨task,error,List.mem_singleton_self _⟩

/-- A start does not throw. -/
theorem not_threw_started (task : Task Job Context Owner) :
    ¬Threw ([.started task] : List (Event Job Context Owner Error)) := by
  intro ⟨task',error,h⟩
  cases List.mem_singleton.mp h

/-- The start of one start. -/
theorem started_start (task : Task Job Context Owner) :
    started ([.started task] : List (Event Job Context Owner Error))=[task] :=
  rfl

/-- A finish starts nothing. -/
theorem started_finish (task : Task Job Context Owner) (error : Option Error) :
    started [.finished task error]=[] :=
  rfl

/-- A start finishes nothing. -/
theorem finished_start (task : Task Job Context Owner) :
    finished ([.started task] : List (Event Job Context Owner Error))=[] :=
  rfl

/-- The finish of one finish. -/
theorem finished_finish (task : Task Job Context Owner) (error : Option Error) :
    finished [.finished task error]=[task] :=
  rfl

/-- Events of tasks followed by one of a task. -/
theorem work_append {events : List (Event Job Context Owner Error)} {last : Event Job Context Owner Error}
    (h : ∀ event∈events, event.work=true) (hlast : last.work=true) :
    ∀ event∈events++[last], event.work=true := by
  intro event hevent
  rw [List.mem_append,List.mem_singleton] at hevent
  rcases hevent with hbefore | hsame
  · exact h event hbefore
  · rw [hsame]
    exact hlast

/-- Nothing has thrown before the first event. -/
theorem not_threw_nil : ¬Threw ([] : List (Event Job Context Owner Error)) := by
  intro ⟨task,error,h⟩
  cases h

end Batches

section Tallies

variable {Job Context Owner Error : Type}

/-- What a thread holds of a batch. -/
structure Tally (Job Context Owner : Type) where
  /-- Indices that are claimed and not started. -/
  held : Multiset ℕ
  /-- Tasks that are started and not finished. -/
  running : Multiset (Task Job Context Owner)
  /-- The thread has claimed past the last index. -/
  passed : ℕ
  /-- It has an exception to record. -/
  failing : ℕ
  /-- It has not left the batch. -/
  pending : ℕ

instance : Zero (Tally Job Context Owner) := ⟨⟨0,0,0,0,0⟩⟩

instance : Add (Tally Job Context Owner) :=
  ⟨fun first second => ⟨first.held+second.held,first.running+second.running,
    first.passed+second.passed,first.failing+second.failing,first.pending+second.pending⟩⟩

@[simp] theorem Tally.held_add (first second : Tally Job Context Owner) :
    (first+second).held=first.held+second.held := rfl

@[simp] theorem Tally.running_add (first second : Tally Job Context Owner) :
    (first+second).running=first.running+second.running := rfl

@[simp] theorem Tally.passed_add (first second : Tally Job Context Owner) :
    (first+second).passed=first.passed+second.passed := rfl

@[simp] theorem Tally.failing_add (first second : Tally Job Context Owner) :
    (first+second).failing=first.failing+second.failing := rfl

@[simp] theorem Tally.pending_add (first second : Tally Job Context Owner) :
    (first+second).pending=first.pending+second.pending := rfl

/-- Tallies with the same fields are the same. -/
theorem Tally.same {first second : Tally Job Context Owner} (held : first.held=second.held)
    (running : first.running=second.running) (passed : first.passed=second.passed)
    (failing : first.failing=second.failing) (pending : first.pending=second.pending) :
    first=second := by
  cases first
  cases second
  dsimp only at held running passed failing pending
  rw [held,running,passed,failing,pending]

/-- Two tallies change places in a sum. -/
theorem Tally.swap (first second third : Tally Job Context Owner) :
    first+(second+third)=second+(first+third) :=
  Tally.same (add_left_comm first.held second.held third.held)
    (add_left_comm first.running second.running third.running)
    (add_left_comm first.passed second.passed third.passed)
    (add_left_comm first.failing second.failing third.failing)
    (add_left_comm first.pending second.pending third.pending)

/-- Tallies add up in any grouping. -/
theorem Tally.group (first second third : Tally Job Context Owner) :
    first+second+third=first+(second+third) :=
  Tally.same (add_assoc first.held second.held third.held)
    (add_assoc first.running second.running third.running)
    (add_assoc first.passed second.passed third.passed)
    (add_assoc first.failing second.failing third.failing)
    (add_assoc first.pending second.pending third.pending)

/-- Holding nothing adds nothing. -/
theorem Tally.nothing_add (rest : Tally Job Context Owner) : ⟨0,0,0,0,0⟩+rest=rest :=
  Tally.same (zero_add _) (zero_add _) (Nat.zero_add _) (Nat.zero_add _) (Nat.zero_add _)

/-- What a thread inside `drain` holds. -/
def Drain.tally (count : ℕ) : Drain Job Context Owner Error → Tally Job Context Owner
  | .claiming => ⟨0,0,0,0,0⟩
  | .claimed index => if count ≤ index then ⟨0,0,1,0,0⟩ else ⟨{index},0,0,0,0⟩
  | .running task => ⟨0,{task},0,0,0⟩
  | .failed _ => ⟨0,0,0,1,0⟩

/-- A claim past the last index. -/
theorem claimed_past {count index : ℕ} (h : count ≤ index) :
    (Drain.claimed index : Drain Job Context Owner Error).tally count=⟨0,0,1,0,0⟩ :=
  if_pos h

/-- A claim of an index. -/
theorem claimed_held {count index : ℕ} (h : ¬count ≤ index) :
    (Drain.claimed index : Drain Job Context Owner Error).tally count=⟨{index},0,0,0,0⟩ :=
  if_neg h

/-- What a thread that may have left `drain` holds. -/
def leftTally (count : ℕ) : Option (Drain Job Context Owner Error) → Tally Job Context Owner
  | some drain => drain.tally count
  | none => ⟨0,0,1,0,0⟩

/-- A worker has not left the batch. -/
def pendingTally : Tally Job Context Owner := ⟨0,0,0,0,1⟩

/-- What a worker holds. -/
def Worker.tally (count batch : ℕ) : Worker Job Context Owner Error → Tally Job Context Owner
  | .waiting seen => if seen=batch then ⟨0,0,1,0,0⟩ else ⟨0,0,0,0,1⟩
  | .draining _ drain => pendingTally+drain.tally count
  | .leaving _ => ⟨0,0,1,0,1⟩
  | .exited => ⟨0,0,0,0,0⟩

/-- What the workers hold together. -/
def total (count batch : ℕ) : List (Worker Job Context Owner Error) → Tally Job Context Owner
  | [] => ⟨0,0,0,0,0⟩
  | worker::rest => worker.tally count batch+total count batch rest

/-- What the caller holds. -/
def Sharing.tally (call : Call Job Context Owner) :
    Sharing Job Context Owner Error → Tally Job Context Owner
  | .owner => ⟨0,0,0,0,0⟩
  | .ownerRunning job => ⟨0,{.owner job call.context},0,0,0⟩
  | .ownerFailed _ => ⟨0,0,0,1,0⟩
  | .draining drain => drain.tally call.count
  | .joining => ⟨0,0,1,0,0⟩

/-- Owner jobs that the caller has started. -/
def Sharing.own (call : Call Job Context Owner) :
    Sharing Job Context Owner Error → List (Task Job Context Owner)
  | .owner => []
  | _ => call.owner.toList.map fun job => .owner job call.context

/-- The members carry the call. -/
structure Shares (call : Call Job Context Owner) (shared : Shared Job Context Error) : Prop where
  job : shared.job=call.job
  context : shared.context=some call.context
  count : shared.count=call.count
  stop : shared.stop=false

/-- The books of a batch: with `k` indices claimed, those held and those started
are the numbers below `k`; what was started has finished or runs; the counter is
past the last index only when every index is claimed. -/
structure Account (call : Call Job Context Owner) (own : List (Task Job Context Owner))
    (shared : Shared Job Context Error) (tally : Tally Job Context Owner)
    (body : List (Event Job Context Owner Error)) (k : ℕ) (indices : Multiset ℕ) : Prop where
  next : shared.next=(k+tally.passed)%sizeValues
  bound : k≤call.count
  all : 0<tally.passed → k=call.count
  claimed : tally.held+indices=Multiset.range k
  started : (started body : Multiset (Task Job Context Owner))=
    (own : Multiset (Task Job Context Owner))+indices.map (Task.index call.job (some call.context))
  running : (ScanPool.started body : Multiset (Task Job Context Owner))=
    (finished body : Multiset (Task Job Context Owner))+tally.running
  threw : Threw body ↔ shared.error.isSome=true ∨ 0<tally.failing
  work : ∀ event∈body, event.work=true

section Books

variable {call : Call Job Context Owner} {own : List (Task Job Context Owner)}
  {shared : Shared Job Context Error} {tally rest : Tally Job Context Owner}
  {body : List (Event Job Context Owner Error)} {k : ℕ} {indices : Multiset ℕ}

/-- A step that touches no member of the books keeps them. -/
theorem Account.keep (h : Account call own shared tally body k indices)
    {after : Shared Job Context Error} (hnext : after.next=shared.next) (herror : after.error=shared.error)
    {moved : Tally Job Context Owner} (held : moved.held=tally.held) (running : moved.running=tally.running)
    (passed : moved.passed=tally.passed) (failing : moved.failing=tally.failing) :
    Account call own after moved body k indices where
  next := by rw [hnext,passed,h.next]
  bound := h.bound
  all := by
    rw [passed]
    exact h.all
  claimed := by
    rw [held]
    exact h.claimed
  started := h.started
  running := by
    rw [running]
    exact h.running
  threw := by
    rw [herror,failing]
    exact h.threw
  work := h.work

/-- Claiming an index, or passing the last one. -/
theorem Account.claim (hcount : shared.count=call.count)
    (h : Account call own shared rest body k indices) (hfit : call.count+rest.passed<sizeValues) :
    ∃ after, Account call own {shared with next := (shared.next+1)%sizeValues}
      ((Drain.claimed shared.next : Drain Job Context Owner Error).tally call.count+rest) body after
      indices := by
  have hbound := h.bound
  have hnext : shared.next=k+rest.passed := by
    rw [h.next]
    exact Nat.mod_eq_of_lt (by omega)
  by_cases hpast : call.count ≤ shared.next
  · have hk : k=call.count := by
      by_cases hpassed : 0<rest.passed
      · exact h.all hpassed
      · omega
    rw [claimed_past hpast]
    refine ⟨k,?_,hbound,fun _ => hk,?_,h.started,?_,?_,h.work⟩
    · simp only [Tally.passed_add]
      rw [hnext,Nat.add_assoc,Nat.add_comm rest.passed 1]
    · simpa only [Tally.held_add,zero_add] using h.claimed
    · simpa only [Tally.running_add,zero_add] using h.running
    · simpa only [Tally.failing_add,zero_add] using h.threw
  · have hpassed : rest.passed=0 := by
      by_contra hcon
      have hk := h.all (by omega)
      omega
    have hk : shared.next=k := by omega
    rw [claimed_held hpast]
    refine ⟨k+1,?_,by omega,?_,?_,h.started,?_,?_,h.work⟩
    · simp only [Tally.passed_add]
      rw [hk,hpassed]
    · simp only [Tally.passed_add]
      omega
    · simp only [Tally.held_add]
      rw [add_assoc,h.claimed,hk,Multiset.range_succ,Multiset.singleton_add]
    · simpa only [Tally.running_add,zero_add] using h.running
    · simpa only [Tally.failing_add,zero_add] using h.threw

/-- Starting a claimed index. -/
theorem Account.start {index : ℕ} (hshares : Shares call shared) (hindex : ¬call.count ≤ index)
    (h : Account call own shared
      ((Drain.claimed index : Drain Job Context Owner Error).tally call.count+rest) body k indices) :
    Account call own shared
      ((Drain.running (.index shared.job shared.context index) :
        Drain Job Context Owner Error).tally call.count+rest)
      (body++[.started (.index shared.job shared.context index)]) k (index ::ₘ indices) := by
  rw [claimed_held hindex] at h
  have hnext := h.next
  have hall := h.all
  have hclaimed := h.claimed
  have hrunning := h.running
  have hthrew := h.threw
  simp only [Tally.passed_add,Tally.held_add,Tally.running_add,Tally.failing_add,zero_add]
    at hnext hall hclaimed hrunning hthrew
  rw [hshares.job,hshares.context]
  refine ⟨?_,h.bound,?_,?_,?_,?_,?_,?_⟩
  · simpa only [Drain.tally,Tally.passed_add,zero_add] using hnext
  · simpa only [Drain.tally,Tally.passed_add,zero_add] using hall
  · simp only [Drain.tally,Tally.held_add,zero_add]
    rw [←hclaimed,←Multiset.singleton_add,add_left_comm,add_assoc]
  · rw [started_append,←Multiset.coe_add,h.started,Multiset.map_cons,←Multiset.singleton_add,
      add_assoc,add_comm (indices.map _)]
    rfl
  · simp only [Drain.tally,Tally.running_add]
    rw [started_append,finished_append,finished_start,List.append_nil,←Multiset.coe_add,hrunning,
      started_start,Multiset.coe_singleton,add_assoc,add_comm rest.running]
  · simp only [Drain.tally,Tally.failing_add,zero_add]
    rw [threw_append,hthrew,or_iff_left (not_threw_started _)]
  · exact work_append h.work rfl

/-- Finishing a task. -/
theorem Account.finish {task : Task Job Context Owner} {thrown : Option Error}
    (h : Account call own shared (⟨0,{task},0,0,0⟩+rest) body k indices) :
    Account call own shared (⟨0,0,0,if thrown.isSome then 1 else 0,0⟩+rest)
      (body++[.finished task thrown]) k indices := by
  have hnext := h.next
  have hall := h.all
  have hclaimed := h.claimed
  have hrunning := h.running
  have hthrew := h.threw
  simp only [Tally.passed_add,Tally.held_add,Tally.running_add,Tally.failing_add,zero_add]
    at hnext hall hclaimed hrunning hthrew
  refine ⟨?_,h.bound,?_,?_,?_,?_,?_,work_append h.work rfl⟩
  · simpa only [Tally.passed_add,zero_add] using hnext
  · simpa only [Tally.passed_add,zero_add] using hall
  · simpa only [Tally.held_add,zero_add] using hclaimed
  · rw [started_append,started_finish,List.append_nil]
    exact h.started
  · simp only [Tally.running_add,zero_add]
    rw [started_append,started_finish,List.append_nil,finished_append,finished_finish,hrunning,
      ←Multiset.coe_add,Multiset.coe_singleton,add_assoc]
  · simp only [Tally.failing_add]
    rw [threw_append,hthrew,threw_finished]
    cases thrown with
    | none =>
      simp only [Option.isSome_none,Bool.false_eq_true,if_false,or_false,zero_add]
    | some error =>
      simp only [Option.isSome_some,if_true,or_true,true_iff]
      omega

/-- Recording an exception. -/
theorem Account.record {error : Error} (h : Account call own shared (⟨0,0,0,1,0⟩+rest) body k indices) :
    Account call own {shared with error := shared.error.or (some error)} rest body k indices := by
  have hnext := h.next
  have hall := h.all
  have hclaimed := h.claimed
  have hrunning := h.running
  have hthrew := h.threw
  simp only [Tally.passed_add,Tally.held_add,Tally.running_add,Tally.failing_add,zero_add]
    at hnext hall hclaimed hrunning hthrew
  refine ⟨hnext,h.bound,hall,hclaimed,h.started,hrunning,?_,h.work⟩
  have hsome : (shared.error.or (some error)).isSome=true := by
    cases shared.error with
    | none | some _ => rfl
  rw [hthrew]
  simp only [hsome,true_or,iff_true]
  omega

/-- A step inside `drain` keeps the books. -/
theorem drain_step {drain : Drain Job Context Owner Error} (thrown : Option Error)
    (hshares : Shares call shared) (hfit : call.count+rest.passed<sizeValues)
    (h : Account call own shared (drain.tally call.count+rest) body k indices) :
    Shares call (drain.step shared thrown).1 ∧
    (drain.step shared thrown).1.busy=shared.busy ∧ (drain.step shared thrown).1.batch=shared.batch ∧
    ∃ after claims, Account call own (drain.step shared thrown).1
      (leftTally call.count (drain.step shared thrown).2.1+rest)
      (body++(drain.step shared thrown).2.2) after claims := by
  cases drain with
  | claiming =>
    have hrest : Account call own shared rest body k indices := by
      rwa [Drain.tally,Tally.nothing_add] at h
    obtain ⟨after,hafter⟩ := hrest.claim hshares.count hfit
    refine ⟨⟨hshares.job,hshares.context,hshares.count,hshares.stop⟩,rfl,rfl,after,indices,?_⟩
    rw [Drain.step,List.append_nil]
    exact hafter
  | claimed index =>
    unfold Drain.step
    dsimp only
    rw [hshares.count]
    by_cases hpast : call.count ≤ index
    · rw [if_pos hpast]
      rw [claimed_past hpast] at h
      refine ⟨hshares,rfl,rfl,k,indices,?_⟩
      rw [List.append_nil]
      exact h
    · rw [if_neg hpast]
      exact ⟨hshares,rfl,rfl,k,_,h.start hshares hpast⟩
  | running task =>
    cases thrown with
    | none => exact ⟨hshares,rfl,rfl,k,indices,@Account.finish _ _ _ _ _ _ _ _ _ _ _ task none h⟩
    | some error =>
      exact ⟨hshares,rfl,rfl,k,indices,@Account.finish _ _ _ _ _ _ _ _ _ _ _ task (some error) h⟩
  | failed error =>
    refine ⟨⟨hshares.job,hshares.context,hshares.count,hshares.stop⟩,rfl,rfl,k,indices,?_⟩
    rw [Drain.step,List.append_nil,leftTally,Drain.tally,Tally.nothing_add]
    exact Account.record h

end Books

/-- Where a worker is while a batch runs. -/
def Worker.inBatch (batch : ℕ) : Worker Job Context Owner Error → Prop
  | .waiting _ => True
  | .draining seen _ => seen=batch
  | .leaving seen => seen=batch
  | .exited => False

/-- A thread inside `drain` passes at most once. -/
theorem drain_passed (count : ℕ) (drain : Drain Job Context Owner Error) :
    (drain.tally count).passed≤1 := by
  cases drain with
  | claimed index =>
    rw [Drain.tally]
    split
    · exact Nat.le_refl 1
    · exact Nat.zero_le 1
  | _ => exact Nat.zero_le 1

/-- A worker passes at most once. -/
theorem worker_passed (count batch : ℕ) (worker : Worker Job Context Owner Error) :
    (worker.tally count batch).passed≤1 := by
  cases worker with
  | waiting seen =>
    rw [Worker.tally]
    split
    · exact Nat.le_refl 1
    · exact Nat.zero_le 1
  | draining seen drain =>
    have hdrain := drain_passed count drain
    rw [Worker.tally,Tally.passed_add,pendingTally,Nat.zero_add]
    exact hdrain
  | leaving seen => exact Nat.le_refl 1
  | exited => exact Nat.zero_le 1

/-- Workers pass at most once each. -/
theorem total_passed (count batch : ℕ) (workers : List (Worker Job Context Owner Error)) :
    (total count batch workers).passed≤workers.length := by
  induction workers with
  | nil => exact Nat.le_refl 0
  | cons worker rest ih =>
    have hworker := worker_passed count batch worker
    rw [total,Tally.passed_add,List.length_cons]
    omega

/-- One worker of the sum. -/
theorem total_split {count batch : ℕ} {worker : Worker Job Context Owner Error}
    {workers : List (Worker Job Context Owner Error)} :
    ∀ {index : ℕ}, workers[index]?=some worker →
      ∃ rest, total count batch workers=worker.tally count batch+rest ∧
        rest.passed+1≤workers.length ∧
        ∀ moved, total count batch (workers.set index moved)=moved.tally count batch+rest := by
  induction workers with
  | nil =>
    intro index h
    exact absurd h (by simp only [List.getElem?_nil,reduceCtorEq,not_false_eq_true])
  | cons head tail ih =>
    intro index h
    cases index with
    | zero =>
      have hhead : head=worker := Option.some_inj.mp h
      have hpassed := total_passed count batch tail
      refine ⟨total count batch tail,by rw [total,hhead],?_,fun moved => rfl⟩
      rw [List.length_cons]
      omega
    | succ index =>
      obtain ⟨rest,hsum,hpassed,hset⟩ := ih h
      have hhead := worker_passed count batch head
      refine ⟨head.tally count batch+rest,?_,?_,fun moved => ?_⟩
      · rw [total,hsum,Tally.swap]
      · rw [Tally.passed_add,List.length_cons]
        omega
      · rw [List.set_cons_succ,total,hset,Tally.swap]

/-- A thread inside `drain` counts as busy through its worker alone. -/
theorem left_pending (count : ℕ) (left : Option (Drain Job Context Owner Error)) :
    (leftTally count left).pending=0 := by
  cases left with
  | none => rfl
  | some drain =>
    cases drain with
    | claimed index =>
      rw [leftTally,Drain.tally]
      split
      · rfl
      · rfl
    | _ => rfl

/-- A worker without work waits for the next batch. -/
theorem rested_of_pending {count batch : ℕ} {workers : List (Worker Job Context Owner Error)}
    (hin : ∀ worker∈workers, worker.inBatch batch) (hnone : (total count batch workers).pending=0) :
    ∀ worker∈workers, worker=.waiting batch := by
  induction workers with
  | nil =>
    intro worker hworker
    exact absurd hworker List.not_mem_nil
  | cons head rest ih =>
    rw [total,Tally.pending_add] at hnone
    have hhead : head=.waiting batch := by
      have hbatch := hin head List.mem_cons_self
      have hpending : (head.tally count batch).pending=0 := by omega
      cases head with
      | waiting seen =>
        by_cases hseen : seen=batch
        · rw [hseen]
        · rw [Worker.tally,if_neg hseen] at hpending
          exact absurd hpending Nat.one_ne_zero
      | draining seen drain =>
        rw [Worker.tally,Tally.pending_add,pendingTally] at hpending
        dsimp only at hpending
        omega
      | leaving seen => exact absurd hpending Nat.one_ne_zero
      | exited => exact absurd hbatch id
    intro worker hworker
    rcases List.mem_cons.mp hworker with hsame | hrest
    · rw [hsame,hhead]
    · exact ih (fun other hother => hin other (List.mem_cons_of_mem _ hother)) (by omega) worker hrest

/-- Workers that have left the batch hold nothing else. -/
theorem rested_total {count batch : ℕ} {workers : List (Worker Job Context Owner Error)}
    (h : ∀ worker∈workers, worker=.waiting batch) :
    total count batch workers=⟨0,0,workers.length,0,0⟩ := by
  induction workers with
  | nil => rfl
  | cons head rest ih =>
    have hhead := h head List.mem_cons_self
    have hrest := ih fun worker hworker => h worker (List.mem_cons_of_mem _ hworker)
    rw [total,hrest,hhead,Worker.tally,if_pos rfl,List.length_cons]
    exact Tally.same (zero_add 0) (zero_add 0) (Nat.add_comm 1 _) rfl rfl

/-- Workers that have not woken for the batch are all busy and hold nothing. -/
theorem asleep_total {count batch seen : ℕ} (hseen : seen≠batch)
    {workers : List (Worker Job Context Owner Error)} (h : ∀ worker∈workers, worker=.waiting seen) :
    total count batch workers=⟨0,0,0,0,workers.length⟩ := by
  induction workers with
  | nil => rfl
  | cons head rest ih =>
    have hhead := h head List.mem_cons_self
    have hrest := ih fun worker hworker => h worker (List.mem_cons_of_mem _ hworker)
    rw [total,hrest,hhead,Worker.tally,if_neg hseen,List.length_cons]
    exact Tally.same (zero_add 0) (zero_add 0) rfl rfl (Nat.add_comm 1 _)

end Tallies

section Invariant

variable {Job Context Owner Error : Type}

/-- The caller shares a batch whose events up to now are `body`. -/
structure SharingInv (pool : Pool Job Context Owner Error) (call : Call Job Context Owner)
    (place : Sharing Job Context Owner Error) (body : List (Event Job Context Owner Error)) : Prop where
  shares : Shares call pool.shared
  fits : call.count+pool.workers.length<sizeValues
  owner : ∀ job, place=.ownerRunning job → call.owner=some job
  books : ∃ k indices, Account call (place.own call) pool.shared
    (place.tally call+total call.count pool.shared.batch pool.workers) body k indices
  busy : pool.shared.busy=(total call.count pool.shared.batch pool.workers).pending
  inBatch : ∀ worker∈pool.workers, worker.inBatch pool.shared.batch

/-- Putting back what is there changes nothing. -/
theorem set_same {α : Type} {items : List α} {index : ℕ} {item : α} (h : items[index]?=some item) :
    items.set index item=items := by
  obtain ⟨hlt,hitem⟩ := List.getElem?_eq_some_iff.mp h
  rw [←hitem]
  exact List.set_getElem_self hlt

/-- The caller passes at most once. -/
theorem place_passed (call : Call Job Context Owner) (place : Sharing Job Context Owner Error) :
    (place.tally call).passed≤1 := by
  cases place with
  | draining drain => exact drain_passed call.count drain
  | joining => exact Nat.le_refl 1
  | _ => exact Nat.zero_le 1

/-- Members of a list with one item replaced. -/
theorem set_forall {α : Type} {property : α → Prop} {items : List α} (h : ∀ item∈items, property item)
    {item : α} (hitem : property item) (index : ℕ) :
    ∀ other∈items.set index item, property other := by
  intro other hother
  rcases List.mem_or_eq_of_mem_set hother with hold | hnew
  · exact h other hold
  · rw [hnew]
    exact hitem

/-- One worker in another position, with the books as its step leaves them. -/
theorem SharingInv.moved {pool : Pool Job Context Owner Error} {call : Call Job Context Owner}
    {place : Sharing Job Context Owner Error} {body events : List (Event Job Context Owner Error)}
    (h : SharingInv pool call place body) {index : ℕ} {after : Shared Job Context Error}
    {worker : Worker Job Context Owner Error} {rest : Tally Job Context Owner}
    (hset : total call.count pool.shared.batch (pool.workers.set index worker)=
      worker.tally call.count pool.shared.batch+rest)
    (hshares : Shares call after) (hbatch : after.batch=pool.shared.batch)
    (hbooks : ∃ k indices, Account call (place.own call) after
      (place.tally call+(worker.tally call.count pool.shared.batch+rest)) (body++events) k indices)
    (hbusy : after.busy=(worker.tally call.count pool.shared.batch+rest).pending)
    (hin : worker.inBatch pool.shared.batch) :
    SharingInv {pool with shared := after, workers := pool.workers.set index worker} call place
      (body++events) := by
  refine ⟨hshares,?_,h.owner,?_,?_,?_⟩
  · rw [List.length_set]
    exact h.fits
  · dsimp only
    rw [hbatch,hset]
    exact hbooks
  · dsimp only
    rw [hbatch,hset]
    exact hbusy
  · dsimp only
    rw [hbatch]
    exact set_forall h.inBatch hin index

/-- A worker inside `drain` among the others. -/
theorem draining_total (place rest inside : Tally Job Context Owner) :
    place+(pendingTally+inside+rest)=inside+(place+(pendingTally+rest)) := by
  rw [Tally.group,Tally.swap pendingTally,Tally.swap place]

/-- A step of a worker keeps the books of the batch. -/
theorem worker_step {pool : Pool Job Context Owner Error} {call : Call Job Context Owner}
    {place : Sharing Job Context Owner Error} {body : List (Event Job Context Owner Error)}
    (h : SharingInv pool call place body) {index : ℕ} {worker : Worker Job Context Owner Error}
    (hworker : pool.workers[index]?=some worker) (thrown : Option Error) :
    SharingInv {pool with
        shared := (worker.step pool.shared thrown).1
        workers := pool.workers.set index (worker.step pool.shared thrown).2.1 }
      call place (body++(worker.step pool.shared thrown).2.2) := by
  obtain ⟨k,indices,hbooks⟩ := h.books
  obtain ⟨rest,hsum,hpassed,hset⟩ := @total_split _ _ _ _ call.count pool.shared.batch _ _ _ hworker
  have hin := h.inBatch worker (List.mem_of_getElem? hworker)
  have hbusy := h.busy
  have hrunning : ¬pool.shared.stop=true := by
    rw [h.shares.stop]
    exact Bool.false_ne_true
  rw [hsum] at hbooks hbusy
  cases worker with
  | waiting seen =>
    by_cases hseen : seen=pool.shared.batch
    · have hstay : (Worker.waiting seen : Worker Job Context Owner Error).step pool.shared thrown=
          (pool.shared,.waiting seen,[]) := by
        rw [Worker.step,if_neg hrunning,if_neg (not_not.mpr hseen.symm)]
      rw [hstay,set_same hworker,List.append_nil]
      exact h
    · have hwake : (Worker.waiting seen : Worker Job Context Owner Error).step pool.shared thrown=
          (pool.shared,.draining pool.shared.batch .claiming,[]) := by
        rw [Worker.step,if_neg hrunning,if_pos (Ne.symm hseen)]
      have htally : (Worker.waiting seen : Worker Job Context Owner Error).tally call.count pool.shared.batch=
          (Worker.draining pool.shared.batch .claiming : Worker Job Context Owner Error).tally call.count
            pool.shared.batch := by
        rw [Worker.tally,if_neg hseen,Worker.tally,Drain.tally]
        exact Tally.same (zero_add 0).symm (zero_add 0).symm rfl rfl rfl
      rw [htally] at hbooks hbusy
      rw [hwake]
      refine h.moved (hset _) h.shares rfl ⟨k,indices,?_⟩ hbusy rfl
      rw [List.append_nil]
      exact hbooks
  | draining seen drain =>
    have hplace := place_passed call place
    have hfits := h.fits
    rw [Worker.tally,draining_total] at hbooks
    have hroom : call.count+(place.tally call+(pendingTally+rest)).passed<sizeValues := by
      have hnone : (pendingTally : Tally Job Context Owner).passed=0 := rfl
      rw [Tally.passed_add,Tally.passed_add,hnone]
      omega
    obtain ⟨hshares,hkept,hbatch,after,claims,hafter⟩ := drain_step thrown h.shares hroom hbooks
    have hidle := @left_pending Job Context Owner Error call.count (some drain)
    rw [leftTally] at hidle
    rw [Worker.tally,Tally.pending_add,Tally.pending_add,hidle] at hbusy
    have hpending := left_pending call.count (drain.step pool.shared thrown).2.1
    rw [Worker.step]
    dsimp only
    cases hleft : (drain.step pool.shared thrown).2.1 with
    | none =>
      rw [hleft,leftTally,←draining_total] at hafter
      have htally : (pendingTally+⟨0,0,1,0,0⟩ : Tally Job Context Owner)=
          (Worker.leaving seen : Worker Job Context Owner Error).tally call.count pool.shared.batch :=
        Tally.same (zero_add 0) (zero_add 0) rfl rfl rfl
      rw [htally] at hafter
      refine h.moved (hset _) hshares hbatch ⟨after,claims,hafter⟩ ?_ hin
      rw [hkept,hbusy,Worker.tally,Tally.pending_add]
      rfl
    | some inside =>
      rw [hleft] at hpending
      rw [hleft,leftTally,←draining_total] at hafter
      refine h.moved (hset _) hshares hbatch ⟨after,claims,hafter⟩ ?_ hin
      rw [leftTally] at hpending
      rw [hkept,hbusy,Worker.tally,Tally.pending_add,Tally.pending_add,hpending]
  | leaving seen =>
    have hseen : seen=pool.shared.batch := hin
    have htally : (Worker.waiting seen : Worker Job Context Owner Error).tally call.count pool.shared.batch=
        ⟨0,0,1,0,0⟩ := if_pos hseen
    rw [Worker.tally] at hbooks hbusy
    rw [Worker.step]
    refine h.moved (hset _) ⟨h.shares.job,h.shares.context,h.shares.count,h.shares.stop⟩ rfl
      ⟨k,indices,?_⟩ ?_ trivial
    · rw [htally,List.append_nil]
      refine hbooks.keep ?_ ?_ ?_ ?_ ?_ ?_
      all_goals rfl
    · rw [htally,Tally.pending_add]
      rw [Tally.pending_add] at hbusy
      dsimp only at hbusy ⊢
      omega
  | exited => exact absurd hin id

/-- The events of a shared batch that is not over. -/
theorem SharingInv.part {pool : Pool Job Context Owner Error} {call : Call Job Context Owner}
    {place : Sharing Job Context Owner Error} {body : List (Event Job Context Owner Error)}
    (h : SharingInv pool call place body) : Partial call body := by
  obtain ⟨k,indices,hbooks⟩ := h.books
  refine ⟨hbooks.work,?_,?_⟩
  · rw [←Multiset.coe_le,hbooks.started]
    unfold Call.tasks
    rw [←Multiset.coe_add]
    refine add_le_add ?_ ?_
    · cases place with
      | owner => exact Multiset.zero_le _
      | _ => exact le_refl _
    · have hle : indices≤Multiset.range call.count := by
        have hclaimed : indices≤Multiset.range k := by
          rw [←hbooks.claimed]
          exact Multiset.le_add_left _ _
        exact hclaimed.trans (Multiset.range_le.mpr hbooks.bound)
      exact Multiset.map_le_map hle
  · rw [←Multiset.coe_le,hbooks.running]
    exact Multiset.le_add_right _ _

/-- When the last worker has left, the batch is complete. -/
theorem SharingInv.complete {pool : Pool Job Context Owner Error} {call : Call Job Context Owner}
    {body : List (Event Job Context Owner Error)} (h : SharingInv pool call .joining body)
    (hbusy : pool.shared.busy=0) :
    Complete call body pool.shared.error ∧ ∀ worker∈pool.workers, worker=.waiting pool.shared.batch := by
  obtain ⟨k,indices,hbooks⟩ := h.books
  have hpending : (total call.count pool.shared.batch pool.workers).pending=0 := h.busy.symm.trans hbusy
  have hrested := rested_of_pending h.inBatch hpending
  have htally : (Sharing.joining : Sharing Job Context Owner Error).tally call+
      total call.count pool.shared.batch pool.workers=⟨0,0,1+pool.workers.length,0,0⟩ := by
    rw [rested_total hrested,Sharing.tally]
    exact Tally.same (zero_add 0) (zero_add 0) rfl rfl rfl
  rw [htally] at hbooks
  have hk : k=call.count := hbooks.all (by dsimp only; omega)
  have hindices : indices=Multiset.range call.count := by
    have hclaimed := hbooks.claimed
    dsimp only at hclaimed
    rwa [zero_add,hk] at hclaimed
  have hstarted : (started body : Multiset (Task Job Context Owner))=call.tasks := by
    rw [hbooks.started,hindices]
    unfold Call.tasks
    rw [←Multiset.coe_add]
    rfl
  have hfinished : (started body : Multiset (Task Job Context Owner))=finished body := by
    have hrunning := hbooks.running
    dsimp only at hrunning
    rwa [add_zero] at hrunning
  refine ⟨⟨hbooks.work,Multiset.coe_eq_coe.mp hstarted,
    Multiset.coe_eq_coe.mp (hfinished.symm.trans hstarted),?_⟩,hrested⟩
  have hthrew := hbooks.threw
  dsimp only at hthrew
  rw [hthrew]
  simp only [Nat.lt_irrefl,or_false]

/-- The caller in another position, with the books as its step leaves them. -/
theorem SharingInv.placed {pool : Pool Job Context Owner Error} {call : Call Job Context Owner}
    {place moved : Sharing Job Context Owner Error} {body events : List (Event Job Context Owner Error)}
    (h : SharingInv pool call place body) {after : Shared Job Context Error}
    (hshares : Shares call after) (hbatch : after.batch=pool.shared.batch)
    (hbusy : after.busy=pool.shared.busy) (howner : ∀ job, moved=.ownerRunning job → call.owner=some job)
    (hbooks : ∃ k indices, Account call (moved.own call) after
      (moved.tally call+total call.count pool.shared.batch pool.workers) (body++events) k indices)
    (caller : Caller Job Context Owner Error) :
    SharingInv {pool with shared := after, caller := caller} call moved (body++events) := by
  refine ⟨hshares,h.fits,howner,?_,?_,?_⟩
  · dsimp only
    rw [hbatch]
    exact hbooks
  · dsimp only
    rw [hbatch,hbusy]
    exact h.busy
  · dsimp only
    rw [hbatch]
    exact h.inBatch

/-- The owner job joins the books when it starts. -/
theorem Account.begin {call : Call Job Context Owner} {shared : Shared Job Context Error}
    {rest : Tally Job Context Owner} {body : List (Event Job Context Owner Error)} {k : ℕ}
    {indices : Multiset ℕ} {task : Task Job Context Owner}
    (h : Account call [] shared rest body k indices) :
    Account call [task] shared (⟨0,{task},0,0,0⟩+rest) (body++[.started task]) k indices := by
  refine ⟨?_,h.bound,?_,?_,?_,?_,?_,work_append h.work rfl⟩
  · simpa only [Tally.passed_add,zero_add] using h.next
  · simpa only [Tally.passed_add,zero_add] using h.all
  · simpa only [Tally.held_add,zero_add] using h.claimed
  · rw [started_append,started_start,←Multiset.coe_add,h.started,Multiset.coe_nil,zero_add,add_comm]
  · simp only [Tally.running_add]
    rw [started_append,started_start,finished_append,finished_start,List.append_nil,←Multiset.coe_add,
      h.running,Multiset.coe_singleton,add_assoc,add_comm rest.running]
  · simp only [Tally.failing_add,zero_add]
    rw [threw_append,h.threw,or_iff_left (not_threw_started _)]

/-- A step of the caller keeps the books, or ends a complete batch. -/
theorem sharing_step {pool : Pool Job Context Owner Error} {call : Call Job Context Owner}
    {place : Sharing Job Context Owner Error} {body : List (Event Job Context Owner Error)}
    (h : SharingInv pool call place body) (thrown : Option Error) :
    (∃ moved, (place.step pool.shared call thrown).2.1=.sharing call moved ∧
      SharingInv {pool with
          shared := (place.step pool.shared call thrown).1
          caller := .sharing call moved }
        call moved (body++(place.step pool.shared call thrown).2.2)) ∨
    (∃ result, (place.step pool.shared call thrown).2.1=.idle ∧
      (place.step pool.shared call thrown).2.2=[.returned result] ∧ Complete call body result ∧
      (place.step pool.shared call thrown).1.stop=false ∧
      ∀ worker∈pool.workers, worker=.waiting (place.step pool.shared call thrown).1.batch) := by
  obtain ⟨k,indices,hbooks⟩ := h.books
  cases place with
  | owner =>
    left
    rw [Sharing.step]
    cases howner : call.owner with
    | none =>
      refine ⟨.draining .claiming,rfl,h.placed h.shares rfl rfl (fun job hjob => by cases hjob) ⟨k,indices,?_⟩ _⟩
      rw [List.append_nil,Sharing.own,howner]
      exact hbooks
      all_goals exact fun hcon => by cases hcon
    | some job =>
      refine ⟨.ownerRunning job,rfl,h.placed h.shares rfl rfl (fun other hother => ?_) ⟨k,indices,?_⟩ _⟩
      · rw [howner,Sharing.ownerRunning.inj hother]
      · rw [Sharing.own,howner]
        · rw [Sharing.tally,Tally.nothing_add] at hbooks
          exact Account.begin hbooks
        all_goals exact fun hcon => by cases hcon
  | ownerRunning job =>
    left
    have hfinish := @Account.finish _ _ _ _ _ _ _ _ _ _ _ (.owner job call.context) thrown hbooks
    cases thrown with
    | none =>
      exact ⟨.draining .claiming,rfl,h.placed h.shares rfl rfl (fun other hother => by cases hother)
        ⟨k,indices,hfinish⟩ _⟩
    | some error =>
      exact ⟨.ownerFailed error,rfl,h.placed h.shares rfl rfl (fun other hother => by cases hother)
        ⟨k,indices,hfinish⟩ _⟩
  | ownerFailed error =>
    left
    rw [Sharing.step]
    have hshares : Shares call {pool.shared with error := pool.shared.error.or (some error)} :=
      ⟨h.shares.job,h.shares.context,h.shares.count,h.shares.stop⟩
    refine ⟨.draining .claiming,rfl,h.placed hshares rfl rfl (fun other hother => by cases hother)
      ⟨k,indices,?_⟩ _⟩
    rw [List.append_nil,Sharing.tally,Drain.tally,Tally.nothing_add]
    exact hbooks.record
  | draining drain =>
    left
    have hpassed := total_passed call.count pool.shared.batch pool.workers
    have hfits := h.fits
    obtain ⟨hshares,hbusy,hbatch,after,claims,hafter⟩ :=
      drain_step thrown h.shares (by omega) hbooks
    rw [Sharing.step]
    dsimp only
    cases hleft : (drain.step pool.shared thrown).2.1 with
    | none =>
      rw [hleft] at hafter
      exact ⟨.joining,rfl,h.placed hshares hbatch hbusy (fun other hother => by cases hother)
        ⟨after,claims,hafter⟩ _⟩
    | some inside =>
      rw [hleft] at hafter
      exact ⟨.draining inside,rfl,h.placed hshares hbatch hbusy (fun other hother => by cases hother)
        ⟨after,claims,hafter⟩ _⟩
  | joining =>
    by_cases hbusy : pool.shared.busy=0
    · right
      obtain ⟨hcomplete,hrested⟩ := h.complete hbusy
      rw [Sharing.step,if_pos hbusy]
      exact ⟨pool.shared.error,rfl,rfl,hcomplete,h.shares.stop,hrested⟩
    · left
      rw [Sharing.step,if_neg hbusy]
      refine ⟨.joining,rfl,h.placed h.shares rfl rfl (fun other hother => by cases hother) ⟨k,indices,?_⟩ _⟩
      rw [List.append_nil]
      exact hbooks

/-- Tasks of a call up to an index. -/
def Call.upTo (call : Call Job Context Owner) (index : ℕ) : List (Task Job Context Owner) :=
  (call.owner.toList.map fun job => .owner job call.context)++
    (List.range index).map (.index call.job (some call.context))

/-- The tasks up to an index have been run in order, and the error is that of one of them. -/
structure Done (call : Call Job Context Owner) (error : Option Error)
    (body : List (Event Job Context Owner Error)) (index : ℕ) : Prop where
  work : ∀ event∈body, event.work=true
  started : started body=call.upTo index
  finished : finished body=call.upTo index
  threw : error.isSome=true ↔ Threw body

/-- The caller runs a batch alone whose events up to now are `body`. -/
def AloneInv (call : Call Job Context Owner) (error : Option Error)
    (body : List (Event Job Context Owner Error)) : Alone Owner → Prop
  | .owner => body=[] ∧ error=none
  | .ownerRunning job => call.owner=some job ∧ body=[.started (.owner job call.context)]
  | .next index => index≤call.count ∧ Done call error body index
  | .running index => index<call.count ∧ ∃ before,
    body=before++[.started (.index call.job (some call.context) index)] ∧ Done call error before index

/-- Tasks up to the next index. -/
theorem upTo_succ (call : Call Job Context Owner) (index : ℕ) :
    call.upTo (index+1)=call.upTo index++[.index call.job (some call.context) index] := by
  unfold Call.upTo
  rw [List.range_succ,List.map_append,List.append_assoc]
  rfl

/-- Tasks up to an index are among those of the call. -/
theorem upTo_sublist {call : Call Job Context Owner} {index : ℕ} (h : index≤call.count) :
    (call.upTo index).Sublist call.tasks :=
  (List.Sublist.refl _).append ((List.range_sublist.mpr h).map _)

/-- The events of a batch that the caller has not finished alone. -/
theorem AloneInv.part {call : Call Job Context Owner} {error : Option Error}
    {body : List (Event Job Context Owner Error)} {place : Alone Owner}
    (h : AloneInv call error body place) : Partial call body := by
  cases place with
  | owner =>
    rw [h.1]
    exact ⟨fun event hevent => absurd hevent List.not_mem_nil,List.nil_subperm,List.nil_subperm⟩
  | ownerRunning job =>
    rw [h.2]
    refine ⟨work_append (fun event hevent => absurd hevent List.not_mem_nil) rfl,?_,List.nil_subperm⟩
    unfold Call.tasks
    rw [h.1]
    exact (List.sublist_append_left _ _).subperm
  | next index =>
    refine ⟨h.2.work,?_,?_⟩
    · rw [h.2.started]
      exact (upTo_sublist h.1).subperm
    · rw [h.2.started,h.2.finished]
  | running index =>
    obtain ⟨hlt,before,hbody,hdone⟩ := h
    have hstarted : started body=call.upTo (index+1) := by
      rw [hbody,started_append,started_start,hdone.started,upTo_succ]
    refine ⟨?_,?_,?_⟩
    · rw [hbody]
      exact work_append hdone.work rfl
    · rw [hstarted]
      exact (upTo_sublist hlt).subperm
    · rw [hstarted,hbody,finished_append,finished_start,List.append_nil,hdone.finished,upTo_succ]
      exact (List.sublist_append_left _ _).subperm

/-- A step of the caller alone runs the next task, or ends a complete batch. -/
theorem alone_step {call : Call Job Context Owner} {error : Option Error}
    {body : List (Event Job Context Owner Error)} {place : Alone Owner}
    (h : AloneInv call error body place) (thrown : Option Error) :
    (∃ later moved, (place.step call error thrown).1=.alone call later moved ∧
      AloneInv call later (body++(place.step call error thrown).2) moved) ∨
    (∃ result, (place.step call error thrown).1=.idle ∧
      (place.step call error thrown).2=[.returned result] ∧ Complete call body result) := by
  cases place with
  | owner =>
    left
    rw [Alone.step,h.1]
    cases howner : call.owner with
    | none =>
      refine ⟨error,.next 0,rfl,Nat.zero_le _,?_⟩
      have hnothing : call.upTo 0=[] := by
        unfold Call.upTo
        rw [howner]
        rfl
      refine ⟨fun event hevent => absurd hevent List.not_mem_nil,hnothing.symm,hnothing.symm,?_⟩
      rw [h.2]
      exact ⟨fun hsome => absurd hsome Bool.false_ne_true,fun hthrew => absurd hthrew not_threw_nil⟩
    | some job => exact ⟨error,.ownerRunning job,rfl,howner,rfl⟩
  | ownerRunning job =>
    left
    have hfirst : call.upTo 0=[.owner job call.context] := by
      unfold Call.upTo
      rw [h.1]
      rfl
    rw [Alone.step,h.2]
    refine ⟨thrown,.next 0,rfl,Nat.zero_le _,?_,hfirst.symm,hfirst.symm,?_⟩
    · exact work_append (work_append (fun event hevent => absurd hevent List.not_mem_nil) rfl) rfl
    · rw [threw_append,threw_finished]
      exact ⟨Or.inr,fun hthrew => hthrew.resolve_left (not_threw_started _)⟩
  | next index =>
    by_cases hlt : index<call.count
    · left
      rw [Alone.step,if_pos hlt]
      exact ⟨error,.running index,rfl,hlt,body,rfl,h.2⟩
    · right
      rw [Alone.step,if_neg hlt]
      have hall : call.upTo index=call.tasks := by
        have heq : index=call.count := by
          have hle := h.1
          omega
        rw [heq]
        rfl
      refine ⟨error,rfl,rfl,h.2.work,?_,?_,h.2.threw⟩
      · rw [h.2.started,hall]
      · rw [h.2.finished,hall]
  | running index =>
    left
    obtain ⟨hlt,before,hbody,hdone⟩ := h
    rw [Alone.step]
    refine ⟨error.or thrown,.next (index+1),rfl,hlt,?_,?_,?_,?_⟩
    · rw [hbody]
      exact work_append (work_append hdone.work rfl) rfl
    · rw [hbody,started_append,started_append,started_start,started_finish,List.append_nil,hdone.started,
        upTo_succ]
    · rw [hbody,finished_append,finished_append,finished_start,finished_finish,List.append_nil,
        hdone.finished,upTo_succ]
    · rw [hbody,threw_append,threw_append,threw_finished,or_iff_left (not_threw_started _),←hdone.threw]
      cases error with
      | none => simp only [Option.none_or,Option.isSome_none,Bool.false_eq_true,false_or]
      | some first => simp only [Option.some_or,Option.isSome_some,true_or]

/-- Every worker waits for the next batch. -/
def Resting (pool : Pool Job Context Owner Error) : Prop :=
  pool.shared.stop=false ∧ ∀ worker∈pool.workers, worker=.waiting pool.shared.batch

/-- What the threads do, and what has been seen. -/
def Inv (pool : Pool Job Context Owner Error) (trace : List (Event Job Context Owner Error)) : Prop :=
  match pool.caller with
  | .idle => Resting pool ∧ Batches trace
  | .closed => Batches trace ∧ pool.shared.stop=true ∧
    ∀ worker∈pool.workers, worker=.waiting pool.shared.batch ∨ worker=.exited
  | .publishing call => Resting pool ∧ call.job≠none ∧ call.count+pool.workers.length<sizeValues ∧
    ∃ before, Batches before ∧ trace=before++[.called call]
  | .alone call error place => Resting pool ∧ (0<call.count → call.job≠none) ∧
    ∃ before body, Batches before ∧ trace=before++.called call::body ∧ AloneInv call error body place
  | .sharing call place => (0<call.count → call.job≠none) ∧
    ∃ before body, Batches before ∧ trace=before++.called call::body ∧ SharingInv pool call place body

/-- A trace that is accounted for is batched. -/
theorem Inv.batched {pool : Pool Job Context Owner Error} {trace : List (Event Job Context Owner Error)}
    (h : Inv pool trace) : Batched trace := by
  unfold Inv at h
  cases hcaller : pool.caller with
  | idle =>
    rw [hcaller] at h
    exact Or.inl h.2
  | closed =>
    rw [hcaller] at h
    exact Or.inl h.1
  | publishing call =>
    rw [hcaller] at h
    obtain ⟨-,hjob,-,before,hbefore,htrace⟩ := h
    refine Or.inr ⟨before,call,[],hbefore,fun _ => hjob,?_,htrace⟩
    exact ⟨fun event hevent => absurd hevent List.not_mem_nil,List.nil_subperm,List.nil_subperm⟩
  | alone call error place =>
    rw [hcaller] at h
    obtain ⟨-,hjob,before,body,hbefore,htrace,halone⟩ := h
    exact Or.inr ⟨before,call,body,hbefore,hjob,halone.part,htrace⟩
  | sharing call place =>
    rw [hcaller] at h
    obtain ⟨hjob,before,body,hbefore,htrace,hsharing⟩ := h
    exact Or.inr ⟨before,call,body,hbefore,hjob,hsharing.part,htrace⟩

/-- A worker at rest stays, unless the pool closes. -/
theorem rested_step {shared : Shared Job Context Error} (hstop : shared.stop=false)
    (thrown : Option Error) :
    (Worker.waiting shared.batch : Worker Job Context Owner Error).step shared thrown=
      (shared,.waiting shared.batch,[]) := by
  have hrunning : ¬shared.stop=true := by
    rw [hstop]
    exact Bool.false_ne_true
  rw [Worker.step,if_neg hrunning,if_neg (not_not.mpr rfl)]

/-- Between batches a step of a worker changes nothing. -/
theorem resting_worker {pool : Pool Job Context Owner Error} (h : Resting pool) (index : ℕ)
    (thrown : Option Error) : pool.step (.worker index thrown)=(pool,[]) := by
  unfold Pool.step
  dsimp only
  cases hworker : pool.workers[index]? with
  | none => rfl
  | some worker =>
    have hwaiting := h.2 worker (List.mem_of_getElem? hworker)
    dsimp only
    rw [hwaiting,rested_step h.1]
    dsimp only
    rw [hwaiting] at hworker
    rw [set_same hworker]

/-- A batch that ends leaves the pool at rest. -/
theorem complete_batches {before body : List (Event Job Context Owner Error)}
    {call : Call Job Context Owner} {result : Option Error} (hbefore : Batches before)
    (hjob : 0<call.count → call.job≠none) (hcomplete : Complete call body result) :
    Batches (before++.called call::body++[.returned result]) := by
  rw [List.append_assoc,List.cons_append]
  exact .batch hbefore hjob hcomplete

/-- A step of a worker keeps the invariant. -/
theorem inv_worker {pool : Pool Job Context Owner Error} {trace : List (Event Job Context Owner Error)}
    (h : Inv pool trace) (index : ℕ) (thrown : Option Error) :
    Inv (pool.step (.worker index thrown)).1 (trace++(pool.step (.worker index thrown)).2) := by
  have hrest : Resting pool →
      Inv (pool.step (.worker index thrown)).1 (trace++(pool.step (.worker index thrown)).2) := by
    intro hresting
    rw [resting_worker hresting,List.append_nil]
    exact h
  have hinv := h
  unfold Inv at hinv
  cases hcaller : pool.caller with
  | idle | publishing _ | alone _ _ _ =>
    rw [hcaller] at hinv
    exact hrest hinv.1
  | closed =>
    rw [hcaller] at hinv
    obtain ⟨hbatches,hstop,hworkers⟩ := hinv
    unfold Pool.step
    dsimp only
    cases hworker : pool.workers[index]? with
    | none =>
      dsimp only
      rw [List.append_nil]
      exact h
    | some worker =>
      have hexits : worker.step pool.shared thrown=(pool.shared,.exited,[]) := by
        rcases hworkers worker (List.mem_of_getElem? hworker) with hwaiting | hexited
        · rw [hwaiting,Worker.step,if_pos hstop]
        · rw [hexited,Worker.step]
      dsimp only
      rw [hexits]
      dsimp only
      rw [List.append_nil]
      unfold Inv
      dsimp only
      rw [hcaller]
      exact ⟨hbatches,hstop,set_forall hworkers (Or.inr rfl) index⟩
  | sharing call place =>
    rw [hcaller] at hinv
    obtain ⟨hjob,before,body,hbefore,htrace,hsharing⟩ := hinv
    unfold Pool.step
    dsimp only
    cases hworker : pool.workers[index]? with
    | none =>
      dsimp only
      rw [List.append_nil]
      exact h
    | some worker =>
      have hstep := worker_step hsharing hworker thrown
      unfold Inv
      dsimp only
      rw [hcaller]
      refine ⟨hjob,before,body++(worker.step pool.shared thrown).2.2,hbefore,?_,?_⟩
      · rw [htrace,List.append_assoc,List.cons_append]
      · rw [hcaller] at hstep
        exact hstep

/-- The beginning of a run keeps the invariant. -/
theorem inv_begin {pool : Pool Job Context Owner Error} {trace : List (Event Job Context Owner Error)}
    (h : Inv pool trace) {call : Call Job Context Owner}
    (hfit : call.count+pool.workers.length<sizeValues) :
    Inv (pool.step (.run call)).1 (trace++(pool.step (.run call)).2) := by
  have hinv := h
  unfold Inv at hinv
  unfold Pool.step
  cases hcaller : pool.caller with
  | idle =>
    rw [hcaller] at hinv
    obtain ⟨hresting,hbatches⟩ := hinv
    dsimp only
    unfold Pool.begin
    by_cases hzero : call.count=0
    · rw [if_pos hzero]
      refine ⟨hresting,fun hpos => ?_,trace,[],hbatches,rfl,rfl,rfl⟩
      omega
    · rw [if_neg hzero]
      by_cases hnull : call.job.isNone=true
      · rw [if_pos hnull]
        exact ⟨hresting,.refused hbatches (by omega) (Option.isNone_iff_eq_none.mp hnull)⟩
      · rw [if_neg hnull]
        have hjob : call.job≠none := fun hnone => hnull (Option.isNone_iff_eq_none.mpr hnone)
        by_cases hlone : pool.workers.isEmpty=true ∨ call.count=1
        · rw [if_pos hlone]
          exact ⟨hresting,fun _ => hjob,trace,[],hbatches,rfl,rfl,rfl⟩
        · rw [if_neg hlone]
          exact ⟨hresting,hjob,hfit,trace,hbatches,rfl⟩
  | _ =>
    dsimp only
    rw [List.append_nil]
    exact h

/-- Closing the pool keeps the invariant. -/
theorem inv_close {pool : Pool Job Context Owner Error} {trace : List (Event Job Context Owner Error)}
    (h : Inv pool trace) : Inv (pool.step .close).1 (trace++(pool.step .close).2) := by
  have hinv := h
  unfold Inv at hinv
  unfold Pool.step
  cases hcaller : pool.caller with
  | idle =>
    rw [hcaller] at hinv
    obtain ⟨hresting,hbatches⟩ := hinv
    dsimp only
    rw [List.append_nil]
    exact ⟨hbatches,rfl,fun worker hworker => Or.inl (hresting.2 worker hworker)⟩
  | _ =>
    dsimp only
    rw [List.append_nil]
    exact h

/-- A new batch number is another one. -/
theorem batch_ne (batch : ℕ) : batch≠(batch+1)%sizeValues := by
  unfold sizeValues
  omega

/-- Publishing a call opens its books with nothing claimed. -/
theorem publish_sharing {pool : Pool Job Context Owner Error} (hresting : Resting pool)
    {call : Call Job Context Owner} (hfit : call.count+pool.workers.length<sizeValues)
    (caller : Caller Job Context Owner Error) :
    SharingInv {pool with
        caller := caller
        shared := pool.shared.publish call pool.workers.length } call .owner [] := by
  have htotal := @asleep_total _ _ _ _ call.count _ _ (batch_ne pool.shared.batch) pool.workers hresting.2
  refine ⟨⟨rfl,rfl,rfl,hresting.1⟩,hfit,(fun job hjob => by cases hjob),⟨0,0,?_⟩,?_,?_⟩
  · dsimp only [Shared.publish]
    rw [htotal,Sharing.tally,Tally.nothing_add]
    refine ⟨rfl,Nat.zero_le _,?_,rfl,rfl,rfl,?_,fun event hevent => absurd hevent List.not_mem_nil⟩
    · intro hpos
      exact absurd hpos (Nat.lt_irrefl 0)
    · constructor
      · intro hthrew
        exact absurd hthrew not_threw_nil
      · intro hcon
        rcases hcon with hsome | hfailing
        · exact absurd hsome Bool.false_ne_true
        · exact absurd hfailing (Nat.lt_irrefl 0)
  · dsimp only [Shared.publish]
    rw [htotal]
  · intro worker hworker
    rw [hresting.2 worker hworker]
    exact trivial

/-- A step of the caller keeps the invariant. -/
theorem inv_caller {pool : Pool Job Context Owner Error} {trace : List (Event Job Context Owner Error)}
    (h : Inv pool trace) (thrown : Option Error) :
    Inv (pool.step (.caller thrown)).1 (trace++(pool.step (.caller thrown)).2) := by
  have hinv := h
  unfold Inv at hinv
  unfold Pool.step
  cases hcaller : pool.caller with
  | idle | closed =>
    dsimp only
    rw [List.append_nil]
    exact h
  | publishing call =>
    rw [hcaller] at hinv
    obtain ⟨hresting,hjob,hfit,before,hbefore,htrace⟩ := hinv
    dsimp only
    rw [List.append_nil]
    exact ⟨fun _ => hjob,before,[],hbefore,htrace,publish_sharing hresting hfit _⟩
  | alone call error place =>
    rw [hcaller] at hinv
    obtain ⟨hresting,hjob,before,body,hbefore,htrace,halone⟩ := hinv
    dsimp only
    rcases alone_step halone thrown with ⟨later,moved,hmoved,hnext⟩ | ⟨result,hidle,hevents,hcomplete⟩
    · rw [hmoved]
      refine ⟨hresting,hjob,before,body++(place.step call error thrown).2,hbefore,?_,hnext⟩
      rw [htrace,List.append_assoc,List.cons_append]
    · rw [hidle,hevents]
      refine ⟨hresting,?_⟩
      rw [htrace]
      exact complete_batches hbefore hjob hcomplete
  | sharing call place =>
    rw [hcaller] at hinv
    obtain ⟨hjob,before,body,hbefore,htrace,hsharing⟩ := hinv
    dsimp only
    rcases sharing_step hsharing thrown with
      ⟨moved,hmoved,hnext⟩ | ⟨result,hidle,hevents,hcomplete,hstop,hrested⟩
    · rw [hmoved]
      refine ⟨hjob,before,body++(place.step pool.shared call thrown).2.2,hbefore,?_,hnext⟩
      rw [htrace,List.append_assoc,List.cons_append]
    · rw [hidle,hevents]
      refine ⟨⟨hstop,hrested⟩,?_⟩
      rw [htrace]
      exact complete_batches hbefore hjob hcomplete

/-- No step adds or removes a worker. -/
theorem step_workers (pool : Pool Job Context Owner Error) (action : Action Job Context Owner Error) :
    (pool.step action).1.workers.length=pool.workers.length := by
  unfold Pool.step
  cases action with
  | worker index thrown =>
    dsimp only
    cases pool.workers[index]? with
    | none => rfl
    | some worker => exact List.length_set
  | _ =>
    dsimp only
    cases pool.caller with
    | _ => rfl

/-- Every run keeps the invariant. -/
theorem inv_run {actions : List (Action Job Context Owner Error)} :
    ∀ {pool : Pool Job Context Owner Error} {trace : List (Event Job Context Owner Error)},
      Inv pool trace →
      (∀ call, .run call∈actions → call.count+pool.workers.length<sizeValues) →
      Inv (pool.run actions).1 (trace++(pool.run actions).2) := by
  induction actions with
  | nil =>
    intro pool trace h _
    rw [Pool.run,List.append_nil]
    exact h
  | cons action rest ih =>
    intro pool trace h hfits
    have hstep : Inv (pool.step action).1 (trace++(pool.step action).2) := by
      cases action with
      | run call => exact inv_begin h (hfits call List.mem_cons_self)
      | close => exact inv_close h
      | caller thrown => exact inv_caller h thrown
      | worker index thrown => exact inv_worker h index thrown
    have hlater := ih hstep fun call hcall => by
      rw [step_workers]
      exact hfits call (List.mem_cons_of_mem _ hcall)
    rw [Pool.run]
    dsimp only
    rw [←List.append_assoc]
    exact hlater

/-- Every job of a batch runs exactly once. In every run of a pool, in any order
of the threads' steps and whichever tasks throw, the calls follow one another;
each one that is over has started and finished each of its tasks exactly once,
with its own job and context, and throws exactly when one of them has thrown; one
that is not over has run no task twice; and no task runs outside a call. The jobs
of a call and the workers together have to be fewer than the counter's values. -/
theorem run_batched (workers : ℕ) (actions : List (Action Job Context Owner Error))
    (hfits : ∀ call, .run call∈actions → call.count+workers<sizeValues) :
    Batched ((Pool.start workers).run actions).2 := by
  have hstart : Inv (Pool.start workers : Pool Job Context Owner Error) [] :=
    ⟨⟨rfl,fun worker hworker => List.eq_of_mem_replicate hworker⟩,.nothing⟩
  have hinv := inv_run hstart fun call hcall => by
    rw [Pool.start,List.length_replicate]
    exact hfits call hcall
  exact hinv.batched

/-- A run with three jobs, an owner job and two workers. -/
theorem run_batched_three :
    Batched ((Pool.start 2 : Pool Unit Unit Unit Unit).run
      [.run ⟨3,(),some (),some ()⟩,.caller none,.worker 0 none,.caller none,.worker 0 none,
        .worker 0 none]).2 :=
  run_batched 2 _ fun call hcall => by
    simp only [List.mem_cons,Action.run.injEq,reduceCtorEq,List.not_mem_nil,or_false] at hcall
    rw [hcall]
    decide

end Invariant

section Wrapping

variable {Job Context Owner Error : Type}

/-- The event begins a call. -/
def Event.begins : Event Job Context Owner Error → Bool
  | .called _ => true
  | _ => false

/-- Calls of a trace around one of them. -/
theorem begins_call (before rest : List (Event Job Context Owner Error)) (call : Call Job Context Owner) :
    (before++.called call::rest).countP Event.begins=
      before.countP Event.begins+(rest.countP Event.begins+1) := by
  rw [List.countP_append,List.countP_cons]
  rfl

/-- Batches without a call are empty. -/
theorem batches_empty {trace : List (Event Job Context Owner Error)} (h : Batches trace)
    (hnone : trace.countP Event.begins=0) : trace=[] := by
  cases h with
  | nothing => rfl
  | batch _ _ _ | refused _ _ _ =>
    rw [begins_call] at hnone
    omega

/-- Within one call no task is started twice. -/
theorem batched_once {trace : List (Event Job Context Owner Error)} (h : Batched trace)
    (hone : trace.countP Event.begins≤1) : (started trace).Nodup := by
  rcases h with hbatches | ⟨before,call,body,hbefore,-,hpart,htrace⟩
  · cases hbatches with
    | nothing => exact List.nodup_nil
    | @batch before call body result hbefore hjob hcomplete =>
      rw [begins_call] at hone
      have hempty := batches_empty hbefore (by omega)
      rw [hempty,List.nil_append]
      have hstarted : started (.called call::(body++[.returned result]))=started body := by
        have hshape : (.called call::(body++[.returned result]) : List (Event Job Context Owner Error))=
            [.called call]++(body++[.returned result]) := rfl
        rw [hshape,started_append,started_append]
        exact List.append_nil _
      rw [hstarted]
      exact hcomplete.started.symm.nodup (tasks_nodup call)
    | @refused before call hbefore hpos hjob =>
      rw [begins_call] at hone
      have hempty := batches_empty hbefore (by omega)
      rw [hempty]
      exact List.nodup_nil
  · rw [htrace,begins_call] at hone
    have hempty := batches_empty hbefore (by omega)
    rw [htrace,hempty]
    have hstarted : started (.called call::body)=started body := rfl
    rw [List.nil_append,hstarted]
    obtain ⟨tasks,hperm,hsub⟩ := hpart.once
    exact hperm.nodup (hsub.nodup (tasks_nodup call))

/-- Runs compose. -/
theorem run_append (first second : List (Action Job Context Owner Error)) :
    ∀ pool : Pool Job Context Owner Error, pool.run (first++second)=
      (((pool.run first).1.run second).1,(pool.run first).2++((pool.run first).1.run second).2) := by
  induction first with
  | nil =>
    intro pool
    rfl
  | cons action rest ih =>
    intro pool
    rw [List.cons_append,Pool.run,Pool.run]
    dsimp only
    rw [ih]
    dsimp only
    rw [List.append_assoc]

/-- The caller claims, starts and finishes the next index. -/
theorem caller_job {pool : Pool Job Context Owner Error} {call : Call Job Context Owner}
    (hcaller : pool.caller=.sharing call (.draining .claiming)) (hlt : pool.shared.next<pool.shared.count)
    (hcount : pool.shared.count<sizeValues) :
    pool.run [.caller none,.caller none,.caller none]=
      ({pool with shared := {pool.shared with next := pool.shared.next+1}},
        [.started (.index pool.shared.job pool.shared.context pool.shared.next),
          .finished (.index pool.shared.job pool.shared.context pool.shared.next) none]) := by
  have hnext : (pool.shared.next+1)%sizeValues=pool.shared.next+1 := Nat.mod_eq_of_lt (by omega)
  have hinside : ¬pool.shared.count≤pool.shared.next := by omega
  cases pool with
  | mk shared workers caller =>
    dsimp only at hcaller hnext hinside
    rw [hcaller]
    simp only [Pool.run,Pool.step,Sharing.step,Drain.step,hnext,hinside,if_false,List.nil_append,
      List.append_nil,List.cons_append]

/-- The caller runs indices one after the other. -/
theorem caller_jobs (count : ℕ) :
    ∀ {pool : Pool Job Context Owner Error} {call : Call Job Context Owner},
      pool.caller=.sharing call (.draining .claiming) →
      pool.shared.next+count≤pool.shared.count → pool.shared.count<sizeValues →
      ∃ actions events, pool.run actions=
        ({pool with shared := {pool.shared with next := pool.shared.next+count}},events) ∧
        (∀ call, .run call∉actions) ∧ events.countP Event.begins=0 ∧
        (0<count → .index pool.shared.job pool.shared.context pool.shared.next∈started events) := by
  induction count with
  | zero =>
    intro pool call _ _ _
    exact ⟨[],[],rfl,fun _ => List.not_mem_nil,rfl,fun hpos => absurd hpos (Nat.lt_irrefl 0)⟩
  | succ count ih =>
    intro pool call hcaller hfits hcount
    have hjob := caller_job hcaller (by omega) hcount
    obtain ⟨actions,events,hrun,hquiet,hbegins,-⟩ :=
      @ih {pool with shared := {pool.shared with next := pool.shared.next+1}} call hcaller
        (by dsimp only; omega) hcount
    refine ⟨[.caller none,.caller none,.caller none]++actions,
      [.started (.index pool.shared.job pool.shared.context pool.shared.next),
        .finished (.index pool.shared.job pool.shared.context pool.shared.next) none]++events,?_,?_,?_,?_⟩
    · rw [run_append,hjob]
      dsimp only
      rw [hrun]
      have hsum : pool.shared.next+1+count=pool.shared.next+(count+1) := by omega
      dsimp only
      rw [hsum]
    · intro other hother
      rw [List.mem_append] at hother
      rcases hother with hfirst | hlater
      · simp only [List.mem_cons,reduceCtorEq,List.not_mem_nil,or_self] at hfirst
      · exact hquiet other hlater
    · rw [List.countP_append,hbegins]
      rfl
    · intro _
      rw [started_append]
      exact List.mem_append_left _ (List.mem_singleton_self _)

/-- A call with as many indices as a `size_t` can count, and no owner job. -/
def wideCall : Call Unit Unit Unit := ⟨sizeValues-1,(),some (),none⟩

/-- One worker has not woken yet when the caller has published the call. -/
def wideStart : Pool Unit Unit Unit Unit :=
  ⟨⟨some (),some (),sizeValues-1,0,none,1,1,false⟩,[.waiting 0],.sharing wideCall (.draining .claiming)⟩

/-- The caller has run every index. -/
def wideEnd : Pool Unit Unit Unit Unit :=
  ⟨⟨some (),some (),sizeValues-1,sizeValues-1,none,1,1,false⟩,[.waiting 0],
    .sharing wideCall (.draining .claiming)⟩

/-- The caller passes the last index, which takes the counter back to zero; then
the worker wakes, claims index zero and starts it. -/
theorem wide_again :
    (wideEnd.run [.caller none,.caller none,.worker 0 none,.worker 0 none,.worker 0 none]).2=
      [.started (.index (some ()) (some ()) 0)] := by
  rfl

/-- With as many jobs as a `size_t` can count the counter wraps, and one job runs twice. -/
theorem run_batched_wraps :
    ¬∀ (workers : ℕ) (actions : List (Action Unit Unit Unit Unit)),
      Batched ((Pool.start workers : Pool Unit Unit Unit Unit).run actions).2 := by
  intro hall
  have hopen : (Pool.start 1 : Pool Unit Unit Unit Unit).run [.run wideCall,.caller none,.caller none]=
      (wideStart,[.called wideCall]) := by
    rfl
  obtain ⟨actions,events,hrun,-,hbegins,hfirst⟩ :=
    @caller_jobs _ _ _ _ (sizeValues-1) wideStart wideCall rfl (by decide) (by decide)
  have htrace := hall 1 ([.run wideCall,.caller none,.caller none]++(actions++
    [.caller none,.caller none,.worker 0 none,.worker 0 none,.worker 0 none]))
  have hend : ((wideStart.run actions).1.run
      [.caller none,.caller none,.worker 0 none,.worker 0 none,.worker 0 none]).2=
      [.started (.index (some ()) (some ()) 0)] := by
    rw [hrun]
    exact wide_again
  rw [run_append,hopen] at htrace
  dsimp only at htrace
  rw [run_append] at htrace
  dsimp only at htrace
  rw [hend,hrun] at htrace
  have honce := batched_once htrace (by
    rw [List.countP_append,List.countP_append,hbegins]
    exact Nat.le_refl 1)
  rw [started_append,started_append,started_start] at honce
  have hsecond := (List.nodup_append.mp (List.nodup_append.mp honce).2.1).2.2
  exact hsecond _ (hfirst (by decide)) _ (List.mem_singleton_self _) rfl

end Wrapping

end Ros1Adapter.ScanPool
