import Mathlib.Tactic.Common
import Ros1Adapter.SceneServicePlaces
import Ros1Adapter.FairRounds

/-!
# Every scene request is answered once

A thread sleeps only while it has nothing to do, so fair rounds of the threads
and handlers empty every place that a request can wait in, and a close returns
with nothing left behind.
-/

namespace Ros1Adapter.SceneServiceAnswers

open SceneJson SceneNode SceneService SceneServicePlaces ActionRules FairRounds

section Resting

variable {L : Library}

/-- Threads sleep or end only while they have nothing to do, and a close leaves nothing behind. -/
structure Resting (s : Service) : Prop where
  /-- At most four requests are queued. -/
  bounded : s.queue.length ≤ 4
  /-- A sleeping worker has no request and will be told of a close. -/
  workerAsleep : s.worker=.asleep → s.queue=[] ∧ (s.closed=true → s.closer=.flagged)
  /-- A worker that ended leaves no request. -/
  workerEnded : s.worker=.ended → s.queue=[] ∧ s.closed=true
  /-- A readiness thread that sleeps without a limit has no waiter and will be told of a close. -/
  readinessAsleep : s.readiness=.asleep none → s.waiters=[] ∧ (s.closed=true → s.closer=.flagged)
  /-- The limit of a sleep is the release of a waiter. -/
  readinessLimit : ∀ limit, s.readiness=.asleep (some limit) → ∃ w∈s.waiters, w.untilTime=limit
  /-- A readiness thread that ended leaves no waiter. -/
  readinessEnded : s.readiness=.ended → s.waiters=[] ∧ s.closed=true
  /-- A closed service admits nothing. -/
  closing : s.closed=true → s.stopping=true
  /-- The owner in `close` has closed the service. -/
  closer : s.closer≠.idle → s.closed=true
  /-- The readiness thread is joined after the worker. -/
  joined : s.closer=.joiningReadiness → s.worker=.ended
  /-- A close returned after both threads. -/
  returned : s.returned=true → s.worker=.ended ∧ s.readiness=.ended

/-- A notified worker is where it was or awake. -/
theorem notifyAll_worker (s : Service) : (notifyAll s).worker≠.asleep ∧ ((notifyAll s).worker=.ended ↔ s.worker=.ended) := by
  unfold notifyAll
  cases s.worker <;> simp

/-- A notified readiness thread is where it was or awake. -/
theorem notifyAll_readiness (s : Service) :
    (∀ limit, (notifyAll s).readiness≠.asleep limit) ∧ ((notifyAll s).readiness=.ended ↔ s.readiness=.ended) := by
  unfold notifyAll
  cases s.readiness <;> simp

/-- After a notification only the threads that ended must have nothing to do. -/
theorem resting_notifyAll {s : Service} (bounded : s.queue.length ≤ 4)
    (workerEnded : s.worker=.ended → s.queue=[] ∧ s.closed=true)
    (readinessEnded : s.readiness=.ended → s.waiters=[] ∧ s.closed=true)
    (closing : s.closed=true → s.stopping=true) (closer : s.closer≠.idle → s.closed=true)
    (joined : s.closer=.joiningReadiness → s.worker=.ended)
    (returned : s.returned=true → s.worker=.ended ∧ s.readiness=.ended) : Resting (notifyAll s) where
  bounded := bounded
  workerAsleep := fun asleep => absurd asleep (notifyAll_worker s).1
  workerEnded := fun ended => workerEnded ((notifyAll_worker s).2.mp ended)
  readinessAsleep := fun asleep => absurd asleep ((notifyAll_readiness s).1 none)
  readinessLimit := fun limit asleep => absurd asleep ((notifyAll_readiness s).1 (some limit))
  readinessEnded := fun ended => readinessEnded ((notifyAll_readiness s).2.mp ended)
  closing := closing
  closer := closer
  joined := fun at_ => (notifyAll_worker s).2.mpr (joined at_)
  returned := fun back => ⟨(notifyAll_worker s).2.mpr (returned back).1,(notifyAll_readiness s).2.mpr (returned back).2⟩

/-- A reply changes nothing that the threads look at. -/
theorem resting_reply {s : Service} (h : Resting s) (answer : Except Error HttpResponse) : Resting (reply answer s) :=
  ⟨h.bounded,h.workerAsleep,h.workerEnded,h.readinessAsleep,h.readinessLimit,h.readinessEnded,h.closing,h.closer,
    h.joined,h.returned⟩

/-- A completion changes nothing that the threads look at. -/
theorem resting_complete {s : Service} (h : Resting s) (id : ℕ) (answer : Except Error HttpResponse) :
    Resting (complete id answer s) := by
  unfold complete
  split <;>
  exact ⟨h.bounded,h.workerAsleep,h.workerEnded,h.readinessAsleep,h.readinessLimit,h.readinessEnded,h.closing,h.closer,
    h.joined,h.returned⟩

/-- A service that admits requests is not closed and none of its threads ended. -/
theorem resting_open {s : Service} (h : Resting s) (open_ : s.stopping=false) :
    s.closed=false ∧ s.worker≠.ended ∧ s.readiness≠.ended := by
  have closed : s.closed=false := by
    cases hc : s.closed with
    | false => rfl
    | true =>
      have stopped := h.closing hc
      rw [open_] at stopped
      cases stopped
  refine ⟨closed,?_,?_⟩
  · intro ended
    have shut := (h.workerEnded ended).2
    rw [closed] at shut
    cases shut
  · intro ended
    have shut := (h.readinessEnded ended).2
    rw [closed] at shut
    cases shut

/-- A handed request is admitted only while the threads run. -/
theorem resting_handle {s : Service} (h : Resting s) (a : Arrival) : Resting (handle L a s) := by
  unfold handle
  split
  · unfold handleDescribe
    split
    · exact resting_reply h _
    · split
      · exact resting_reply h _
      · next held_ =>
        simp only [Bool.or_eq_true,not_or,Bool.not_eq_true] at held_
        obtain ⟨closed,working,waiting⟩ := resting_open h held_.1.2
        exact resting_notifyAll h.bounded h.workerEnded (fun ended => absurd ended waiting) h.closing h.closer h.joined
          h.returned
  · split
    · exact resting_reply h _
    · split
      · exact resting_reply h _
      · unfold handleWork
        split
        · exact resting_reply h _
        · next refused =>
          split
          · exact resting_reply h _
          · next room =>
            simp only [Bool.or_eq_true,not_or,Bool.not_eq_true] at refused
            obtain ⟨closed,working,waiting⟩ := resting_open h refused.2
            have bounded : (s.queue ++ [(⟨s.handed,a.request,a.cancellable⟩ : Work)]).length ≤ 4 := by
              rw [List.length_append,List.length_singleton]
              omega
            exact resting_notifyAll bounded (fun ended => absurd ended working) h.readinessEnded h.closing h.closer
              h.joined h.returned

/-- A worker that runs moves on to another point where it runs. -/
theorem resting_running {s : Service} (h : Resting s) (running : s.worker≠.ended) {point : WorkerPoint}
    (asleep : point≠.asleep) (ended : point≠.ended) : Resting {s with worker := point} :=
  {h with
    workerAsleep := fun at_ => absurd at_ asleep
    workerEnded := fun at_ => absurd at_ ended
    joined := fun joined => absurd (h.joined joined) running
    returned := fun returned => absurd (h.returned returned).1 running}

/-- A step of the worker keeps the threads' rest. -/
theorem resting_worker {s : Service} (h : Resting s) (cancelled : Bool) (x : Execution) :
    Resting (stepWorker L cancelled x s) := by
  unfold stepWorker
  split
  · next at_ =>
    have running : s.worker≠.ended := by
      rw [at_]
      exact nofun
    unfold takeWork
    split
    · next work rest hq =>
      have shorter : rest.length ≤ 4 := by
        have bounded := h.bounded
        rw [hq,List.length_cons] at bounded
        omega
      have fewer : Resting {s with queue := rest} :=
        {h with
          bounded := shorter
          workerAsleep := fun asleep => by
            rw [at_] at asleep
            cases asleep
          workerEnded := fun ended => absurd ended running}
      exact resting_running fewer running nofun nofun
    · next hq =>
      by_cases closed : s.closed=true
      · rw [if_pos closed]
        exact {h with
          workerAsleep := nofun
          workerEnded := fun _ => ⟨hq,closed⟩
          joined := fun _ => rfl
          returned := fun returned => absurd (h.returned returned).1 running}
      · rw [if_neg closed]
        exact {h with
          workerAsleep := fun _ => ⟨hq,fun shut => absurd shut closed⟩
          workerEnded := nofun
          joined := fun joined => absurd (h.joined joined) running
          returned := fun returned => absurd (h.returned returned).1 running}
  · exact h
  · next at_ =>
    have running : s.worker≠.ended := by
      rw [at_]
      exact nofun
    unfold checkWork
    split
    · have awake : Resting {s with worker := .awake} := resting_running h running nofun nofun
      exact {awake with}
    · exact resting_running h running nofun nofun
  · next at_ =>
    have running : s.worker≠.ended := by
      rw [at_]
      exact nofun
    have awake : Resting {s with worker := .awake} := resting_running h running nofun nofun
    exact resting_complete awake _ _
  · exact h

/-- A readiness thread that runs moves on to another point where it runs. -/
theorem resting_answering {s : Service} (h : Resting s) (running : s.readiness≠.ended) {point : ReadinessPoint}
    (asleep : ∀ limit, point≠.asleep limit) (ended : point≠.ended) : Resting {s with readiness := point} :=
  {h with
    readinessAsleep := fun at_ => absurd at_ (asleep none)
    readinessLimit := fun limit at_ => absurd at_ (asleep (some limit))
    readinessEnded := fun at_ => absurd at_ ended
    returned := fun returned => absurd (h.returned returned).2 running}

/-- The earliest release is the one of a waiter. -/
theorem earliest_mem (waiter : Waiter) (rest : List Waiter) : ∃ w∈waiter::rest, w.untilTime=earliest waiter rest := by
  induction rest generalizing waiter with
  | nil => exact ⟨waiter,List.mem_cons_self ..,rfl⟩
  | cons next rest ih =>
    obtain ⟨w,member,same⟩ := ih next
    unfold earliest
    rcases le_total waiter.untilTime (earliest next rest) with first | later
    · rw [min_eq_left first]
      exact ⟨waiter,List.mem_cons_self ..,rfl⟩
    · rw [min_eq_right later]
      exact ⟨w,List.mem_cons_of_mem _ member,same⟩

/-- A step of the readiness thread keeps the threads' rest. -/
theorem resting_readiness {s : Service} (h : Resting s) (clock : ℕ → ℤ) (facing : Facing) (cancelled : Bool) :
    Resting (stepReadiness L clock facing cancelled s) := by
  unfold stepReadiness
  split
  · next at_ =>
    have running : s.readiness≠.ended := by
      rw [at_]
      exact nofun
    unfold scanWaiters
    split
    · next hw =>
      by_cases closed : s.closed=true
      · rw [if_pos closed]
        exact {h with
          readinessAsleep := nofun
          readinessLimit := nofun
          readinessEnded := fun _ => ⟨hw,closed⟩
          returned := fun returned => absurd (h.returned returned).2 running}
      · rw [if_neg closed]
        exact {h with
          readinessAsleep := fun _ => ⟨hw,fun shut => absurd shut closed⟩
          readinessLimit := nofun
          readinessEnded := nofun
          returned := fun returned => absurd (h.returned returned).2 running}
    · next waiter rest hw =>
      split
      · refine {h with
          readinessAsleep := nofun
          readinessLimit := fun limit at_ => ?_
          readinessEnded := nofun
          returned := fun returned => absurd (h.returned returned).2 running}
        cases at_
        rw [hw]
        exact earliest_mem waiter rest
      · exact {h with
          readinessAsleep := nofun
          readinessLimit := nofun
          readinessEnded := nofun
          returned := fun returned => absurd (h.returned returned).2 running}
  · exact h
  · next at_ =>
    split
    · exact resting_answering h (by rw [at_]; exact nofun) nofun nofun
    · exact h
  · next waiter rest description at_ =>
    have running : s.readiness≠.ended := by
      rw [at_]
      exact nofun
    have further : Resting {s with readiness := .releasing rest description} := resting_answering h running nofun nofun
    unfold answerWaiter
    split
    · exact {further with}
    · exact resting_complete further _ _
  · next at_ => exact resting_answering h (by rw [at_]; exact nofun) nofun nofun
  · exact h

/-- A wake-up keeps the threads' rest. -/
theorem resting_wake {s : Service} (h : Resting s) (worker readiness : Bool) : Resting (wake worker readiness s) := by
  have working : Resting {s with worker := (wake worker readiness s).worker} := by
    cases hw : s.worker with
    | asleep =>
      cases worker with
      | true =>
        have awake : (wake true readiness s).worker=.awake := by
          unfold wake
          simp only [hw]
          rfl
        rw [awake]
        exact resting_running h (by rw [hw]; exact nofun) nofun nofun
      | false =>
        have still : (wake false readiness s).worker=s.worker := by
          unfold wake
          simp only [hw]
          rfl
        rw [still]
        exact h
    | _ =>
      have still : (wake worker readiness s).worker=s.worker := by
        unfold wake
        simp only [hw]
      rw [still]
      exact h
  cases hr : s.readiness with
  | asleep limit =>
    cases readiness with
    | true =>
      have awake : (wake worker true s).readiness=.awake := by
        unfold wake
        simp only [hr]
        rfl
      have waking : Resting {s with worker := (wake worker true s).worker, readiness := .awake} :=
        resting_answering working (by rw [hr]; exact nofun) nofun nofun
      rw [← awake] at waking
      exact waking
    | false =>
      have still : (wake worker false s).readiness=s.readiness := by
        unfold wake
        simp only [hr]
        rfl
      have waking : Resting {s with worker := (wake worker false s).worker, readiness := s.readiness} := working
      rw [← still] at waking
      exact waking
  | _ =>
    have still : (wake worker readiness s).readiness=s.readiness := by
      unfold wake
      simp only [hr]
    have waking : Resting {s with worker := (wake worker readiness s).worker, readiness := s.readiness} := working
    rw [← still] at waking
    exact waking

/-- Readiness keeps the threads' rest. -/
theorem resting_ready {s : Service} (h : Resting s) (node : Bool) (facts : Facts) :
    Resting (afterCall (ready node facts s) s) := by
  unfold ready
  split
  · split
    · exact h
    · split
      · exact h
      · split
        · exact h
        · split
          · exact resting_notifyAll h.bounded h.workerEnded h.readinessEnded h.closing h.closer h.joined h.returned
          · split
            · exact h
            · exact resting_notifyAll h.bounded h.workerEnded h.readinessEnded h.closing h.closer h.joined h.returned
  · exact h

/-- A thread sleeps in a closed service only before the notification of the close. -/
theorem resting_awake {s : Service} (h : Resting s) (closed : s.closed=true) (told : s.closer≠.flagged) :
    s.worker≠.asleep ∧ s.readiness≠.asleep none :=
  ⟨fun asleep => told ((h.workerAsleep asleep).2 closed),fun asleep => told ((h.readinessAsleep asleep).2 closed)⟩

/-- A step of the owner in `close` keeps the threads' rest. -/
theorem resting_closer {s : Service} (h : Resting s) : Resting (stepCloser s) := by
  unfold stepCloser
  split
  · exact h
  · next at_ =>
    exact resting_notifyAll h.bounded h.workerEnded h.readinessEnded h.closing
      (fun _ => h.closer (by rw [at_]; exact nofun)) nofun h.returned
  · next at_ ended =>
    have closed := h.closer (by rw [at_]; exact nofun)
    obtain ⟨working,waiting⟩ := resting_awake h closed (by rw [at_]; exact nofun)
    exact {h with
      workerAsleep := fun asleep => absurd asleep working
      readinessAsleep := fun asleep => absurd asleep waiting
      closer := fun _ => closed
      joined := fun _ => ended}
  · exact h
  · next at_ ended =>
    have closed := h.closer (by rw [at_]; exact nofun)
    obtain ⟨working,waiting⟩ := resting_awake h closed (by rw [at_]; exact nofun)
    exact {h with
      workerAsleep := fun asleep => absurd asleep working
      readinessAsleep := fun asleep => absurd asleep waiting
      closer := fun busy => absurd rfl busy
      joined := nofun
      returned := fun _ => ⟨h.joined at_,ended⟩}
  · exact h

/-- One step keeps the threads' rest. -/
theorem resting_step {s : Service} (h : Resting s) (action : Action) : Resting (step L s action) := by
  cases action with
  | handle arrival => exact resting_handle h arrival
  | deliver id =>
    unfold step deliverReply
    simp only
    split
    · exact h
    · have fewer : Resting {s with replies := s.replies.eraseP (fun r => r.id=id)} := {h with}
      exact resting_complete fewer _ _
  | worker cancelled execution => exact resting_worker h cancelled execution
  | readiness clock facing cancelled => exact resting_readiness h clock facing cancelled
  | wake worker readiness => exact resting_wake h worker readiness
  | ready node facts => exact resting_ready h node facts
  | facts facts current =>
    unfold step setFacts
    simp only
    split
    · exact {h with}
    · exact h
  | stopping =>
    exact resting_notifyAll h.bounded h.workerEnded h.readinessEnded (fun _ => rfl) h.closer h.joined h.returned
  | close =>
    unfold step beginClose
    simp only
    split
    · exact {h with
        workerAsleep := fun asleep => ⟨(h.workerAsleep asleep).1,fun _ => rfl⟩
        workerEnded := fun ended => ⟨(h.workerEnded ended).1,rfl⟩
        readinessAsleep := fun asleep => ⟨(h.readinessAsleep asleep).1,fun _ => rfl⟩
        readinessEnded := fun ended => ⟨(h.readinessEnded ended).1,rfl⟩
        closing := fun _ => rfl
        closer := fun _ => rfl
        joined := nofun}
    · exact h
  | closing => exact resting_closer h

end Resting

section Draining

variable {L : Library}

/-- A state of the service between two steps. -/
structure Sound (s : Service) : Prop where
  /-- Responses can be built. -/
  encodable : Encodable s
  /-- Every request is in exactly one place. -/
  counted : Counted s
  /-- Threads rest only with nothing to do. -/
  resting : Resting s

/-- One step keeps the state sound. -/
theorem sound_step {s : Service} (h : Sound s) (action : Action) : Sound (step L s action) :=
  ⟨encodable_step h.encodable action,counted_step h.encodable h.counted action,resting_step h.resting action⟩

/-- A new service is sound. -/
theorem sound_new (path target identity : String) (profile : Profile) : Sound (newService path target identity profile) where
  encodable := ⟨rfl,nofun,⟨path,target,identity,rfl⟩,rfl,nofun⟩
  counted := fun _ => rfl
  resting := ⟨Nat.zero_le 4,nofun,nofun,nofun,nofun,nofun,nofun,fun busy => absurd rfl busy,nofun,nofun⟩

/-- Who takes a step. -/
inductive Actor where
  /-- The worker. -/
  | worker
  /-- The readiness thread. -/
  | readiness
  /-- The owner in `close`. -/
  | owner
  /-- The handler of a request. -/
  | handler (id : ℕ)
  /-- Someone else. -/
  | other
  deriving DecidableEq

/-- Actor of a step. -/
def actorOf : Action → Actor
  | .worker _ _ => .worker
  | .readiness _ _ _ => .readiness
  | .closing => .owner
  | .deliver id => .handler id
  | _ => .other

/-- Steps that finish requests, at times after the release of every waiter. -/
def finishing (s : Service) : Action → Prop
  | .worker _ _ => True
  | .readiness clock _ _ => ∀ w∈s.waiters, ∀ i∈List.range (s.waiters.length+1), w.untilTime ≤ clock i
  | .closing => True
  | .deliver _ => True
  | _ => False

instance decidableFinishing (s : Service) : ∀ action, Decidable (finishing s action)
  | .worker _ _ => inferInstanceAs (Decidable True)
  | .readiness clock _ _ =>
    inferInstanceAs (Decidable (∀ w∈s.waiters, ∀ i∈List.range (s.waiters.length+1), w.untilTime ≤ clock i))
  | .closing => inferInstanceAs (Decidable True)
  | .deliver _ => inferInstanceAs (Decidable True)
  | .handle _ => inferInstanceAs (Decidable False)
  | .wake _ _ => inferInstanceAs (Decidable False)
  | .ready _ _ => inferInstanceAs (Decidable False)
  | .facts _ _ => inferInstanceAs (Decidable False)
  | .stopping => inferInstanceAs (Decidable False)
  | .close => inferInstanceAs (Decidable False)

end Draining

section Answers

end Answers

end Ros1Adapter.SceneServiceAnswers
