import Mathlib.Tactic.Common
import Ros1Adapter.SimulationClient
import Ros1Adapter.RollingWindow

/-!
# The reconnect budget of the simulation client

The worker paces its discoveries by a backoff that draws a jittered delay and
keeps the last fifteen failures in a ring. Here the worker runs against a
clock: times are nanoseconds, delays are milliseconds, and every step brings
its own readings. The ring forgets its failures at a successful discovery and
a socket event moves the retry time up, so the budget holds as long as
neither happens while it is in use.
-/

namespace Ros1Adapter.ReconnectBudget

open SimulationClient RollingWindow ActionRules SceneJson SceneCompile

section Backoff

/-- Nanoseconds of a millisecond. -/
def millisecond : ℤ := 1000000

/-- Nanoseconds of the ten seconds between two summaries. -/
def summaryPeriod : ℤ := 10000000000

/-- Nanoseconds of a minute. -/
def minute : ℤ := 60000000000

/-- Members of the backoff, less its random engine. -/
structure PeerBackoff where
  /-- Upper end of the next draw in milliseconds. -/
  cap : ℕ := 250
  /-- Failures in the ring. -/
  attempts : ℕ := 0
  /-- Failures since the last summary. -/
  suppressed : ℕ := 0
  /-- The peer is away. -/
  outage : Bool := false
  /-- Time of the last summary. -/
  summary : ℤ := 0
  /-- Ring of failure times. -/
  failures : ℕ → ℤ := fun _ => 0
  /-- Next place of the ring. -/
  next : ℕ := 0

/-- Result of a failure. -/
structure Failed where
  /-- Delay in milliseconds. -/
  delay : ℤ
  /-- Printed line. -/
  line : Option String
  /-- Backoff afterwards. -/
  backoff : PeerBackoff

/-- Line that a failure prints. -/
def failureLine (b : PeerBackoff) (peer reason : String) (now : ℤ) : Option String :=
  if !b.outage then some ("scene adapter: " ++ peer ++ " waiting: " ++ reason)
  else if summaryPeriod ≤ now-b.summary then
    some ("scene adapter: " ++ peer ++ " waiting; suppressed " ++ toString b.suppressed ++ " attempts")
  else none

/-- Outage and summary members after a failure. -/
def summarized (b : PeerBackoff) (now : ℤ) : PeerBackoff :=
  if !b.outage then {b with outage := true, summary := now}
  else if summaryPeriod ≤ now-b.summary then {b with summary := now, suppressed := 0}
  else {b with suppressed := b.suppressed+1}

/-- Members after a failure: its time enters the ring and the cap doubles. -/
def recorded (b : PeerBackoff) (now : ℤ) : PeerBackoff :=
  {summarized b now with
    failures := Function.update b.failures b.next now, next := (b.next+1)%15,
    attempts := min (b.attempts+1) 15, cap := min (b.cap*2) 10000}

/-- The jittered delay, at least one millisecond. -/
def jitter (b : PeerBackoff) (draw : ℕ) : ℤ := max ((draw%(b.cap+1) : ℕ) : ℤ) 1

/-- Milliseconds, truncated, until the oldest failure of the ring is a minute old, and one more. -/
def untilSpare (b : PeerBackoff) (now : ℤ) : ℤ :=
  Int.tdiv (b.failures b.next+minute-now) millisecond+1

/-- Record a failure and draw the delay before the next attempt. -/
def failed (b : PeerBackoff) (peer reason : String) (now : ℤ) (draw : ℕ) : Failed where
  delay :=
    if (recorded b now).attempts=15 then max (jitter b draw) (untilSpare (recorded b now) now)
    else jitter b draw
  line := failureLine b peer reason now
  backoff := recorded b now

/-- Forget the outage and its failures. -/
def success (b : PeerBackoff) : PeerBackoff :=
  {b with cap := 250, outage := false, attempts := 0, suppressed := 0, next := 0}

/-- Every delay is at least one millisecond. -/
theorem failed_delay_pos (b : PeerBackoff) (peer reason : String) (now : ℤ) (draw : ℕ) :
    1 ≤ (failed b peer reason now draw).delay := by
  have jittered : 1 ≤ jitter b draw := le_max_right ..
  unfold failed
  simp only
  split
  · exact le_trans jittered (le_max_left ..)
  · exact jittered

/-- Truncation to milliseconds and one more is longer than the time it rounds. -/
theorem lt_truncated (x : ℤ) : x<(Int.tdiv x millisecond+1)*millisecond := by
  unfold millisecond
  by_cases h : 0 ≤ x
  · rw [Int.tdiv_eq_ediv_of_nonneg h]
    omega
  · have flip : Int.tdiv x 1000000= -((-x)/1000000) := by
      have pos := Int.tdiv_eq_ediv_of_nonneg (a := -x) (b := 1000000) (by omega)
      rw [← pos,Int.neg_tdiv,neg_neg]
    rw [flip]
    omega

/-- A full ring delays the next attempt until its oldest failure is more than a minute old. -/
theorem failed_delay_full (b : PeerBackoff) (peer reason : String) (now : ℤ) (draw : ℕ)
    (h : (recorded b now).attempts=15) :
    (recorded b now).failures (recorded b now).next+minute<now+(failed b peer reason now draw).delay*millisecond := by
  have longest : untilSpare (recorded b now) now ≤ (failed b peer reason now draw).delay := by
    unfold failed
    simp only
    rw [if_pos h]
    exact le_max_right ..
  have scaled : untilSpare (recorded b now) now*millisecond ≤ (failed b peer reason now draw).delay*millisecond :=
    mul_le_mul_of_nonneg_right longest (by unfold millisecond; omega)
  have rounded := lt_truncated ((recorded b now).failures (recorded b now).next+minute-now)
  unfold untilSpare at scaled
  omega

end Backoff

section Machine

/-- One call of `failed`. -/
structure Failure where
  /-- Time that the call read. -/
  time : ℤ
  /-- A connection attempt failed; otherwise an established connection was lost. -/
  attempt : Bool
  /-- Delay that it returned. -/
  delay : ℤ
  deriving DecidableEq

/-- The client with its backoff and its clock. -/
structure Worker where
  /-- Client. -/
  client : Client := {}
  /-- Backoff of the worker. -/
  backoff : PeerBackoff := {}
  /-- Time of the next discovery. -/
  retry : ℤ
  /-- Last reading of the clock. -/
  clock : ℤ
  /-- Calls of `failed`, newest first; it is no part of the source. -/
  failures : List Failure := []

/-- A worker whose thread begins at a time. -/
def newWorker (start : ℤ) : Worker := {retry := start, clock := start}

/-- What the surroundings decide in one timed step of the worker. -/
structure Tick where
  /-- Time since the last reading. -/
  elapsed : ℕ
  /-- Time from there to the reading inside `failed`. -/
  failing : ℕ
  /-- Time from there to the reading that becomes or is added to the retry time. -/
  retrying : ℕ
  /-- Random draw. -/
  draw : ℕ
  /-- The socket file is missing. -/
  missing : Bool
  /-- Changes of the socket file. -/
  changes : List Bool

/-- Text of an exception. -/
def refusalText : Refusal → String
  | .simulation message _ => message
  | .other what => what

/-- The reason with which the next step of the worker calls `failed`. -/
def failureReason (c : Client) : Option String :=
  match c.phase with
  | .failed _ (.http _ what) => some what
  | .failed _ (.refused refusal) => if c.connected then none else some (refusalText refusal)
  | .changing _ (_::_) => if c.connected then some "Socket disappeared or changed" else none
  | _ => none

/-- The next step handles an event after which the socket file is there. -/
def appears (c : Client) : Bool :=
  match c.phase with
  | .changing _ (missing::_) => !missing
  | _ => false

variable (p : Peer)

/-- First reading of a step. -/
def Tick.now (tick : Tick) (w : Worker) : ℤ := w.clock+tick.elapsed

/-- Last reading of a step. -/
def Tick.later (tick : Tick) (w : Worker) : ℤ := tick.now w+max tick.failing tick.retrying

/-- The untimed part of a tick. -/
def Tick.turn (tick : Tick) (w : Worker) : Turn :=
  ⟨decide (w.retry ≤ tick.now w),tick.missing,tick.changes⟩

/-- The step discovers the world host. -/
def joins (w : Worker) (tick : Tick) : Bool := !w.client.connected && (work p (tick.turn w) w.client).connected

/-- Record a failure and set the retry time. -/
def fail (reason : String) (tick : Tick) (w : Worker) : Worker :=
  let result := failed w.backoff "world_host" reason (tick.now w+tick.failing) tick.draw
  {w with
    backoff := result.backoff, retry := tick.now w+tick.retrying+result.delay*millisecond,
    failures := ⟨tick.now w+tick.failing,!w.client.connected,result.delay⟩::w.failures}

/-- The call of `success` in a step, if there is one. -/
def noteSuccess (tick : Tick) (w : Worker) : Worker :=
  if joins p w tick then {w with backoff := success w.backoff} else w

/-- The call of `failed` in a step, if there is one. -/
def noteFailure (tick : Tick) (w : Worker) : Worker :=
  match failureReason w.client with
  | some reason => fail reason tick w
  | none => w

/-- The retry time moved up by a socket event. -/
def moveUp (tick : Tick) (w : Worker) : Worker :=
  if appears w.client then {w with retry := tick.later w} else w

/-- One timed step of the worker. -/
def workTimed (tick : Tick) (w : Worker) : Worker :=
  {moveUp tick (noteFailure tick (noteSuccess p tick w)) with
    client := work p (tick.turn w) w.client, clock := tick.later w}

/-- One step of the timed client. -/
inductive TimedAction where
  /-- A call of its owner. -/
  | call (action : Action) (owner : ∀ turn, action≠.work turn)
  /-- A step of the worker. -/
  | work (tick : Tick)

/-- Timed client after one step. -/
def stepTimed (w : Worker) : TimedAction → Worker
  | .call action _ => {w with client := step p w.client action}
  | .work tick => workTimed p tick w

/-- Times of failed attempts, newest first. -/
def attemptTimes (failures : List Failure) : List ℤ := (failures.filter (fun f => f.attempt)).map (fun f => f.time)

/-- No window of a minute holds more than fifteen failed attempts and every delay is at least one millisecond. -/
def WithinBudget (failures : List Failure) : Prop :=
  (∀ start, ((attemptTimes failures).filter (inWindow start minute)).length ≤ 15) ∧ ∀ f∈failures, 1 ≤ f.delay

/-- Every failed attempt is more than a minute old. -/
def allSpent (failures : List Failure) (now : ℤ) : Bool :=
  (attemptTimes failures).all (fun time => decide (time+minute<now))

/-- Fewer than fifteen failed attempts are at most a minute old. -/
def hasSpare (failures : List Failure) (now : ℤ) : Bool :=
  ((attemptTimes failures)[14]?).all (fun time => decide (time+minute<now))

/-- The budget is not in use when a step forgets it: a discovery succeeds only
after every failed attempt is more than a minute old, an event moves the retry
time up only while the budget has a spare attempt, and the delay is not added
to a reading before the one it was computed from. -/
def spares (w : Worker) : TimedAction → Bool
  | .call _ _ => true
  | .work tick =>
    (!joins p w tick || allSpent w.failures (tick.now w)) &&
      (!appears w.client || hasSpare w.failures (tick.later w)) &&
      ((failureReason w.client).isNone || decide (tick.failing ≤ tick.retrying))

end Machine

section Client

variable {p : Peer}

/-- A client that delivers is connected. -/
def Seated (c : Client) : Prop :=
  match c.phase with
  | .capture => c.connected=true
  | .deliver _ => c.connected=true
  | _ => True

/-- An exception of a connection attempt is about to be handled. -/
def attemptFailed (c : Client) : Bool :=
  match c.phase with
  | .failed _ _ => !c.connected
  | _ => false

/-- The replay of a motion state keeps the connection. -/
theorem move_connected (d : Desired) (c : Client) : (move p d c).connected=c.connected := by
  unfold move
  split <;> rfl

/-- A delivery keeps the connection. -/
theorem deliver_connected (d : Desired) (c : Client) : (deliver p d c).connected=c.connected := by
  unfold deliver
  split
  · unfold applyThenMove
    split
    · exact move_connected ..
    · rfl
  · split
    · exact move_connected ..
    · rfl

/-- Replaying leads to a report or an exception. -/
theorem move_seated (d : Desired) (c : Client) : Seated (move p d c) := by
  unfold move
  split <;> trivial

/-- A delivery leads to a report, an exception or the loop. -/
theorem deliver_seated (d : Desired) (c : Client) : Seated (deliver p d c) := by
  unfold deliver
  split
  · unfold applyThenMove
    split
    · exact move_seated ..
    · trivial
  · split
    · exact move_seated ..
    · trivial

/-- A handled exception leads to the loop. -/
theorem refuse_seated (d : Desired) (what : String) (c : Client) : Seated (refuse d what c) := by
  unfold refuse
  simp only
  split <;> trivial

/-- One step of the worker keeps a client seated. -/
theorem work_seated {c : Client} (turn : Turn) (h : Seated c) : Seated (work p turn c) := by
  unfold work
  split
  · exact h
  · unfold readDesired
    split
    · trivial
    · split
      · trivial
      · next d _ =>
        unfold Seated
        simp only
        by_cases first : (!c.connected && decide (c.unavailable≠d.serial))=true
        · rw [if_pos first]
          trivial
        · rw [if_neg first]
          trivial
  · trivial
  · unfold choose
    split
    · unfold connect
      split
      · exact rfl
      · trivial
    · split
      · next joined =>
        have connected : c.connected=true := by
          simp only [Bool.and_eq_true] at joined
          exact joined.1
        exact connected
      · trivial
  · next hp =>
    have connected : c.connected=true := by
      unfold Seated at h
      rw [hp] at h
      exact h
    unfold capture
    split
    · trivial
    · exact connected
  · exact deliver_seated ..
  · trivial
  · next d fault _ =>
    cases fault with
    | http delivery what => trivial
    | refused refusal => cases refusal <;> exact refuse_seated ..
  · trivial
  · trivial
  · trivial
  · exact h

/-- A connection attempt fails only after its retry time. -/
theorem work_attemptFailed {c : Client} (turn : Turn) (h : Seated c)
    (hf : attemptFailed (work p turn c)=true) : (∃ d, c.phase=.choose d) ∧ turn.due=true := by
  unfold work at hf
  split at hf
  · next hp =>
    unfold attemptFailed at hf
    rw [hp] at hf
    cases hf
  · unfold readDesired at hf
    split at hf
    · cases hf
    · split at hf
      · cases hf
      · next d _ =>
        unfold attemptFailed at hf
        simp only at hf
        by_cases first : (!c.connected && decide (c.unavailable≠d.serial))=true
        · rw [if_pos first] at hf
          cases hf
        · rw [if_neg first] at hf
          cases hf
  · cases hf
  · next d hp =>
    unfold choose at hf
    split at hf
    · next ready =>
      simp only [Bool.and_eq_true] at ready
      exact ⟨⟨d,hp⟩,ready.2⟩
    · split at hf <;> cases hf
  · unfold capture at hf
    split at hf <;> cases hf
  · next d hp =>
    -- A delivery runs on a connection, so its exceptions are no failed attempts.
    have connected : (deliver p d c).connected=true := by
      unfold Seated at h
      rw [hp] at h
      rw [deliver_connected]
      exact h
    unfold attemptFailed at hf
    rw [connected] at hf
    split at hf <;> cases hf
  · cases hf
  · next d fault _ =>
    cases fault with
    | http delivery what => cases hf
    | refused refusal =>
      cases refusal <;>
      · unfold recover refuse at hf
        simp only at hf
        split at hf <;> cases hf
  · cases hf
  · cases hf
  · cases hf
  · next hp =>
    unfold attemptFailed at hf
    rw [hp] at hf
    cases hf

end Client

section Ring

/-- The ring of a backoff holds the newest failures. -/
structure Mirrors (b : PeerBackoff) (failures : List Failure) : Prop where
  /-- The next place lies in the ring. -/
  place : b.next<15
  /-- The ring holds at most fifteen failures. -/
  bounded : b.attempts ≤ 15
  /-- The places before the next one hold the newest failures. -/
  holds : ∀ i<b.attempts, (failures[i]?).map (fun f => f.time)=some (b.failures ((b.next+14-i)%15))

/-- A new failure enters the ring. -/
theorem recorded_mirrors {b : PeerBackoff} {failures : List Failure} (h : Mirrors b failures) (f : Failure) :
    Mirrors (recorded b f.time) (f::failures) := by
  have place := h.place
  refine ⟨Nat.mod_lt _ (by omega),Nat.min_le_right ..,?_⟩
  intro i hi
  have bound : i < min (b.attempts+1) 15 := hi
  show _=some (Function.update b.failures b.next f.time (((b.next+1)%15+14-i)%15))
  cases i with
  | zero =>
    have same : ((b.next+1)%15+14-0)%15=b.next := by omega
    rw [same,Function.update_self]
    rfl
  | succ i =>
    have other : ((b.next+1)%15+14-(i+1))%15=(b.next+14-i)%15 := by omega
    have apart : (b.next+14-i)%15≠b.next := by omega
    rw [other,Function.update_of_ne apart,List.getElem?_cons_succ]
    exact h.holds i (by omega)

/-- A full ring names the fifteenth newest failure as its oldest. -/
theorem mirrors_oldest {b : PeerBackoff} {failures : List Failure} (h : Mirrors b failures) (full : b.attempts=15) :
    (failures[14]?).map (fun f => f.time)=some (b.failures b.next) := by
  have place := h.place
  have oldest := h.holds 14 (by omega)
  have same : (b.next+14-14)%15=b.next := by omega
  rw [same] at oldest
  exact oldest

/-- An element at a place of a filtered list stands no earlier in the list itself. -/
theorem mem_drop_of_filter {α : Type} {q : α → Bool} {l : List α} {n : ℕ} {a : α} (h : (l.filter q)[n]?=some a) :
    a∈l.drop n ∧ q a=true := by
  induction l generalizing n with
  | nil => simp at h
  | cons head rest ih =>
    by_cases kept : q head=true
    · rw [List.filter_cons_of_pos kept] at h
      cases n with
      | zero =>
        have same : head=a := by simpa using h
        rw [← same]
        exact ⟨List.mem_cons_self ..,kept⟩
      | succ n =>
        rw [List.getElem?_cons_succ] at h
        exact ih h
    · rw [List.filter_cons_of_neg kept] at h
      obtain ⟨mem,holds⟩ := ih h
      refine ⟨?_,holds⟩
      have shift : (head::rest).drop (n+1)=rest.drop n := rfl
      have further : a∈(head::rest).drop (n+1) := by
        rw [shift]
        exact mem
      exact (List.drop_subset_drop_left (head::rest) (Nat.le_succ n)) further

/-- A failed attempt among the times stands no earlier among the failures. -/
theorem attemptTimes_get {failures : List Failure} {n : ℕ} {time : ℤ} (h : (attemptTimes failures)[n]?=some time) :
    ∃ f∈failures.drop n, f.attempt=true ∧ f.time=time := by
  unfold attemptTimes at h
  rw [List.getElem?_map] at h
  obtain ⟨f,found,same⟩ := Option.map_eq_some_iff.mp h
  obtain ⟨mem,attempt⟩ := mem_drop_of_filter found
  exact ⟨f,mem,attempt,same⟩

end Ring

section Budget

/-- The failures of a worker are paced: the ring holds the newest ones, what it
forgot is spent, and no attempt begins before the fifteenth newest is spent. -/
structure Paced (b : PeerBackoff) (failures : List Failure) (retry clock : ℤ) : Prop where
  /-- The ring holds the newest failures. -/
  ring : Mirrors b failures
  /-- Failures lie in the past. -/
  past : ∀ f∈failures, f.time ≤ clock
  /-- Failures are listed newest first. -/
  falls : (failures.map (fun f => f.time)).Pairwise (fun later first => first ≤ later)
  /-- Attempts outside the ring are spent, unless the ring is full. -/
  forgotten : ∀ f∈failures.drop b.attempts, f.attempt=true → b.attempts=15 ∨ f.time+minute<clock
  /-- Failed attempts are spaced. -/
  spaced : Spaced 15 minute (attemptTimes failures)
  /-- The fifteenth newest attempt is spent before the next one begins. -/
  gate : ∀ first, (attemptTimes failures)[14]?=some first → first+minute < max retry clock
  /-- Delays are at least one millisecond. -/
  delays : ∀ f∈failures, 1 ≤ f.delay

variable {b : PeerBackoff} {failures : List Failure} {retry clock : ℤ}

/-- Paced failures stay paced as time passes. -/
theorem paced_later (h : Paced b failures retry clock) {later : ℤ} (hl : clock ≤ later) :
    Paced b failures retry later where
  ring := h.ring
  past := fun f hf => le_trans (h.past f hf) hl
  falls := h.falls
  forgotten := fun f hf attempt => (h.forgotten f hf attempt).imp_right (fun spent => lt_of_lt_of_le spent hl)
  spaced := h.spaced
  gate := fun first found => lt_of_lt_of_le (h.gate first found) (max_le_max_left retry hl)
  delays := h.delays

/-- A failed attempt is among the times. -/
theorem mem_attemptTimes {f : Failure} (hf : f∈failures) (attempt : f.attempt=true) : f.time∈attemptTimes failures :=
  List.mem_map_of_mem (List.mem_filter.mpr ⟨hf,attempt⟩)

/-- A success that forgets only spent attempts keeps the failures paced. -/
theorem paced_success (h : Paced b failures retry clock) (spent : allSpent failures clock=true) :
    Paced (success b) failures retry clock where
  ring := ⟨by unfold success; simp,by unfold success; simp,fun i hi => absurd hi (Nat.not_lt_zero i)⟩
  past := h.past
  falls := h.falls
  forgotten := by
    intro f hf attempt
    have mem : f∈failures := hf
    have old := List.all_eq_true.mp spent f.time (mem_attemptTimes mem attempt)
    exact Or.inr (of_decide_eq_true old)
  spaced := h.spaced
  gate := h.gate
  delays := h.delays

/-- A retry time may move while the budget has a spare attempt. -/
theorem paced_retry (h : Paced b failures retry clock) (spare : hasSpare failures clock=true) (other : ℤ) :
    Paced b failures other clock := by
  refine {h with gate := fun first found => ?_}
  unfold hasSpare at spare
  rw [found] at spare
  have old : first+minute<clock := of_decide_eq_true spare
  exact lt_of_lt_of_le old (le_max_right ..)

/-- Times of attempts after a failure. -/
theorem attemptTimes_cons (f : Failure) (failures : List Failure) :
    attemptTimes (f::failures)=if f.attempt then f.time::attemptTimes failures else attemptTimes failures := by
  unfold attemptTimes
  cases attempt : f.attempt with
  | true | false => simp [attempt]

/-- The spacing of attempts survives a failure that waited for its retry time. -/
theorem spaced_failure (h : Paced b failures retry clock) (f : Failure) (hf : clock ≤ f.time)
    (waited : f.attempt=true → retry ≤ clock) : Spaced 15 minute (attemptTimes (f::failures)) := by
  rw [attemptTimes_cons]
  split
  · next attempt =>
    refine spaced_cons h.spaced (fun first found => ?_)
    have open_ := h.gate first found
    rw [max_eq_right (waited attempt)] at open_
    exact lt_of_lt_of_le open_ hf
  · exact h.spaced

/-- After a failure its delay keeps the next attempt back until the fifteenth newest is spent. -/
theorem gate_failure (h : Paced b failures retry clock) (f : Failure) (hf : clock ≤ f.time) {next : ℤ}
    (full : (recorded b f.time).attempts=15 → (recorded b f.time).failures (recorded b f.time).next+minute<next)
    {first : ℤ} (found : (attemptTimes (f::failures))[14]?=some first) : first+minute < max next f.time := by
  obtain ⟨g,mem,attempt,same⟩ := attemptTimes_get found
  have mirrors := recorded_mirrors h.ring f
  have falls : ((f::failures).map (fun g => g.time)).Pairwise (fun later first => first ≤ later) := by
    refine List.pairwise_cons.mpr ⟨?_,h.falls⟩
    intro time member
    obtain ⟨g,hg,timed⟩ := List.mem_map.mp member
    rw [← timed]
    exact le_trans (h.past g hg) hf
  by_cases filled : (recorded b f.time).attempts=15
  · -- The fifteenth newest failure is the oldest of a full ring.
    have oldest := mirrors_oldest mirrors filled
    rw [← List.getElem?_map] at oldest
    have older := falling_drop falls oldest g.time (by
      rw [← List.map_drop]
      exact List.mem_map_of_mem mem)
    have kept := full filled
    rw [← same]
    exact lt_of_lt_of_le (by omega) (le_max_left ..)
  · have few : b.attempts+1 ≤ 14 := by
      have shape : (recorded b f.time).attempts=min (b.attempts+1) 15 := rfl
      omega
    have outside : g∈failures.drop b.attempts := by
      have further := (List.drop_subset_drop_left (f::failures) few) mem
      rw [List.drop_succ_cons] at further
      exact further
    rcases h.forgotten g outside attempt with never | spent
    · omega
    · rw [← same]
      exact lt_of_lt_of_le (lt_of_lt_of_le spent hf) (le_max_right ..)

/-- A failure keeps the failures paced. -/
theorem paced_failed (h : Paced b failures retry clock) (reason : String) (draw : ℕ) (attempt : Bool) (now reading : ℤ)
    (hn : clock ≤ now) (hr : now ≤ reading) (waited : attempt=true → retry ≤ clock) :
    Paced (failed b "world_host" reason now draw).backoff
      (⟨now,attempt,(failed b "world_host" reason now draw).delay⟩::failures)
      (reading+(failed b "world_host" reason now draw).delay*millisecond) now where
  ring := recorded_mirrors h.ring ⟨now,attempt,_⟩
  past := by
    intro f hf
    rcases List.mem_cons.mp hf with here | old
    · rw [here]
    · exact le_trans (h.past f old) hn
  falls := by
    refine List.pairwise_cons.mpr ⟨?_,h.falls⟩
    intro time member
    obtain ⟨g,hg,timed⟩ := List.mem_map.mp member
    rw [← timed]
    exact le_trans (h.past g hg) hn
  forgotten := by
    intro f hf marked
    have shape : (failed b "world_host" reason now draw).backoff.attempts=min (b.attempts+1) 15 := rfl
    by_cases filled : b.attempts+1<15
    · have fewer : (failed b "world_host" reason now draw).backoff.attempts=b.attempts+1 := by omega
      rw [fewer,List.drop_succ_cons] at hf
      rcases h.forgotten f hf marked with never | spent
      · omega
      · exact Or.inr (lt_of_lt_of_le spent hn)
    · exact Or.inl (by omega)
  spaced := spaced_failure h ⟨now,attempt,_⟩ hn waited
  gate := fun first found => gate_failure h ⟨now,attempt,_⟩ hn
    (fun filled => by
      have delayed := failed_delay_full b "world_host" reason now draw filled
      simp only
      omega) found
  delays := by
    intro f hf
    rcases List.mem_cons.mp hf with here | old
    · rw [here]
      exact failed_delay_pos b "world_host" reason now draw
    · exact h.delays f old

end Budget

section Runs

variable {p : Peer}

/-- A worker between two steps. -/
structure Steady (w : Worker) : Prop where
  /-- Its failures are paced. -/
  paced : Paced w.backoff w.failures w.retry w.clock
  /-- A failed attempt waited for its retry time. -/
  due : attemptFailed w.client=true → w.retry ≤ w.clock
  /-- Its client is seated. -/
  seated : Seated w.client

/-- Readings of a step do not run back. -/
theorem now_le_later (tick : Tick) (w : Worker) : w.clock ≤ tick.now w ∧ tick.now w ≤ tick.later w := by
  unfold Tick.later Tick.now
  omega

/-- A success in a step keeps the failures paced. -/
theorem noteSuccess_paced {w : Worker} {tick : Tick} (h : Steady w) (hs : spares p w (.work tick)=true) :
    Paced (noteSuccess p tick w).backoff w.failures w.retry (tick.now w) := by
  have later := paced_later h.paced (now_le_later tick w).1
  unfold noteSuccess
  split
  · next joined =>
    refine paced_success later ?_
    unfold spares at hs
    simp only [joined,Bool.not_true,Bool.false_or,Bool.and_eq_true] at hs
    exact hs.1.1
  · exact later

/-- A success touches nothing but the backoff. -/
theorem noteSuccess_frame (w : Worker) (tick : Tick) :
    (noteSuccess p tick w).client=w.client ∧ (noteSuccess p tick w).clock=w.clock ∧
      (noteSuccess p tick w).failures=w.failures ∧ (noteSuccess p tick w).retry=w.retry := by
  unfold noteSuccess
  split <;> exact ⟨rfl,rfl,rfl,rfl⟩

/-- A failure keeps the client and the clock. -/
theorem noteFailure_frame (w : Worker) (tick : Tick) :
    (noteFailure tick w).client=w.client ∧ (noteFailure tick w).clock=w.clock := by
  unfold noteFailure
  split <;> exact ⟨rfl,rfl⟩

/-- Without a connection only a failed attempt calls `failed`. -/
theorem attemptFailed_of_reason {c : Client} {reason : String} (h : failureReason c=some reason)
    (hc : c.connected=false) : attemptFailed c=true := by
  unfold failureReason at h
  unfold attemptFailed
  split at h
  · next hp => rw [hp,hc]; rfl
  · next hp => rw [hp,hc]; rfl
  · rw [hc] at h
    cases h
  · cases h

/-- A failure in a step keeps the failures paced. -/
theorem noteFailure_paced {w : Worker} {tick : Tick} (hp : Paced w.backoff w.failures w.retry (tick.now w))
    (due : attemptFailed w.client=true → w.retry ≤ tick.now w)
    (ordered : (failureReason w.client).isSome=true → tick.failing ≤ tick.retrying) :
    Paced (noteFailure tick w).backoff (noteFailure tick w).failures (noteFailure tick w).retry (tick.later w) := by
  unfold noteFailure
  cases hr : failureReason w.client with
  | none => exact paced_later hp (now_le_later tick w).2
  | some reason =>
    have order := ordered (by rw [hr]; rfl)
    have failing := paced_failed hp reason tick.draw (!w.client.connected) (tick.now w+tick.failing)
      (tick.now w+tick.retrying) (by omega) (by omega) (fun attempt => due (attemptFailed_of_reason hr (by simpa using attempt)))
    exact paced_later failing (by unfold Tick.later; omega)

/-- An event that finds the socket file there is no failed attempt. -/
theorem noteFailure_appears {w : Worker} {tick : Tick} (h : appears w.client=true) :
    attemptTimes (noteFailure tick w).failures=attemptTimes w.failures := by
  unfold noteFailure
  cases hr : failureReason w.client with
  | none => rfl
  | some reason =>
    have connected : w.client.connected=true := by
      unfold appears at h
      split at h
      · next hp =>
        unfold failureReason at hr
        rw [hp] at hr
        cases hc : w.client.connected with
        | true => rfl
        | false => simp [hc] at hr
      · cases h
    unfold fail
    simp only
    rw [attemptTimes_cons]
    simp [connected]

/-- A retry time that moves up keeps the failures paced. -/
theorem moveUp_paced {w : Worker} {tick : Tick} (hp : Paced w.backoff w.failures w.retry (tick.later w))
    (spare : appears w.client=true → hasSpare w.failures (tick.later w)=true) :
    Paced (moveUp tick w).backoff (moveUp tick w).failures (moveUp tick w).retry (tick.later w) := by
  unfold moveUp
  split
  · next here => exact paced_retry hp (spare here) _
  · exact hp

/-- A timed step keeps the failures paced. -/
theorem workTimed_paced {w : Worker} {tick : Tick} (h : Steady w) (hs : spares p w (.work tick)=true) :
    Paced (workTimed p tick w).backoff (workTimed p tick w).failures (workTimed p tick w).retry
      (workTimed p tick w).clock := by
  have joined := noteSuccess_paced h hs
  obtain ⟨client,clock,failures,retry⟩ := noteSuccess_frame (p := p) w tick
  generalize hf : noteSuccess p tick w=first at joined client clock failures retry
  have now : tick.now first=tick.now w := by
    unfold Tick.now
    rw [clock]
  have last : tick.later first=tick.later w := by
    unfold Tick.later
    rw [now]
  unfold spares at hs
  simp only [Bool.and_eq_true,Bool.or_eq_true,Bool.not_eq_true',decide_eq_true_eq] at hs
  have failing : Paced (noteFailure tick first).backoff (noteFailure tick first).failures
      (noteFailure tick first).retry (tick.later first) := by
    refine noteFailure_paced ?_ ?_ ?_
    · rw [failures,retry,now]
      exact joined
    · intro attempt
      rw [client] at attempt
      rw [retry,now]
      exact le_trans (h.due attempt) (now_le_later tick w).1
    · intro called
      rw [client] at called
      rcases hs.2 with none | order
      · rw [Option.isNone_iff_eq_none.mp none] at called
        cases called
      · exact order
  obtain ⟨client_,clock_⟩ := noteFailure_frame first tick
  have last_ : tick.later (noteFailure tick first)=tick.later first := by
    unfold Tick.later Tick.now
    rw [clock_]
  rw [← last_] at failing
  have moved := moveUp_paced failing (by
    intro here
    rw [client_] at here
    have same : attemptTimes (noteFailure tick first).failures=attemptTimes first.failures := noteFailure_appears here
    rw [client] at here
    rcases hs.1.2 with absent | spare
    · rw [absent] at here
      cases here
    · unfold hasSpare at spare ⊢
      rw [same,failures,last_,last]
      exact spare)
  rw [last_,last] at moved
  unfold workTimed
  rw [hf]
  exact moved

/-- The retry time stays where no failure and no event touches it. -/
theorem workTimed_retry {w : Worker} {tick : Tick} {d : Desired} (hc : w.client.phase=.choose d) :
    (workTimed p tick w).retry=w.retry := by
  obtain ⟨client,-,-,retry⟩ := noteSuccess_frame (p := p) w tick
  have quiet : noteFailure tick (noteSuccess p tick w)=noteSuccess p tick w := by
    unfold noteFailure failureReason
    rw [client,hc]
  have still : moveUp tick (noteSuccess p tick w)=noteSuccess p tick w := by
    unfold moveUp appears
    rw [client,hc]
    rfl
  unfold workTimed
  rw [quiet,still]
  exact retry

/-- A step of the worker keeps a steady worker steady. -/
theorem workTimed_steady {w : Worker} {tick : Tick} (h : Steady w) (hs : spares p w (.work tick)=true) :
    Steady (workTimed p tick w) where
  paced := workTimed_paced h hs
  due := by
    intro attempt
    obtain ⟨⟨d,hc⟩,due⟩ := work_attemptFailed (tick.turn w) h.seated attempt
    rw [workTimed_retry hc]
    exact le_trans (of_decide_eq_true due) (now_le_later tick w).2
  seated := work_seated (tick.turn w) h.seated

/-- A call of the owner changes neither the connection nor where the worker stands in its loop. -/
theorem call_client (c : Client) (action : Action) (owner : ∀ turn, action≠.work turn) :
    (step p c action).connected=c.connected ∧ ((step p c action).phase=c.phase ∨ (step p c action).phase=.loop) := by
  cases action with
  | update document epoch revision motion =>
    unfold step update
    simp only
    split
    · exact ⟨rfl,Or.inl rfl⟩
    · refine ⟨rfl,?_⟩
      simp only
      cases c.phase with
      | idle => exact Or.inr rfl
      | _ => exact Or.inl rfl
  | take | close => exact ⟨rfl,Or.inl rfl⟩
  | work turn => exact absurd rfl (owner turn)

/-- One step that spares the budget keeps a steady worker steady. -/
theorem stepTimed_steady {w : Worker} (action : TimedAction) (h : Steady w) (hs : spares p w action=true) :
    Steady (stepTimed p w action) := by
  cases action with
  | call action owner =>
    obtain ⟨connected,phase⟩ := call_client (p := p) w.client action owner
    refine ⟨h.paced,?_,?_⟩
    · intro attempt
      refine h.due ?_
      have attempt : attemptFailed (step p w.client action)=true := attempt
      unfold attemptFailed at attempt ⊢
      rw [connected] at attempt
      rcases phase with same | loop
      · rw [same] at attempt
        exact attempt
      · rw [loop] at attempt
        cases attempt
    · have seated := h.seated
      show Seated (step p w.client action)
      unfold Seated at seated ⊢
      rw [connected]
      rcases phase with same | loop
      · rw [same]
        exact seated
      · rw [loop]
        trivial
  | work tick => exact workTimed_steady h hs

/-- A worker whose thread just began is steady. -/
theorem newWorker_steady (start : ℤ) : Steady (newWorker start) where
  paced :=
    { ring := ⟨Nat.succ_pos 14,Nat.zero_le 15,fun i hi => absurd hi (Nat.not_lt_zero i)⟩
      past := fun f hf => by cases hf
      falls := List.Pairwise.nil
      forgotten := fun f hf => by cases hf
      spaced := fun i first later hl => by cases hl
      gate := fun first found => by cases found
      delays := fun f hf => by cases hf }
  due := fun _ => le_refl start
  seated := trivial

/-- In every run that spares the budget no window of a minute holds more than
fifteen failed attempts and every delay is at least one millisecond. -/
theorem run_withinBudget (p : Peer) (start : ℤ) (actions : List TimedAction)
    (h : Along (stepTimed p) (fun w action => spares p w action=true) (newWorker start) actions) :
    WithinBudget (run (stepTimed p) (newWorker start) actions).failures := by
  have steady : Steady (run (stepTimed p) (newWorker start) actions) :=
    run_invariant (fun _ action hw hs => stepTimed_steady action hw hs) (newWorker_steady start) h
  have falls : (attemptTimes (run (stepTimed p) (newWorker start) actions).failures).Pairwise
      (fun later first => first ≤ later) :=
    List.Pairwise.sublist (List.Sublist.map _ List.filter_sublist) steady.paced.falls
  exact ⟨fun window => window_count falls steady.paced.spaced window,steady.paced.delays⟩

/-- A world host that never answers. -/
def deadPeer : Peer where
  answer := fun _ => .failed .notSent "Cannot connect"
  identity := fun n => toString n
  wellFormed := fun _ => false
  parseJson := fun _ => .error (jsonError "parse error")
  spell := fun _ => "0.0"
  deliveryName := fun delivery => if delivery=.notSent then "not_sent" else "outcome_unknown"
  target := "fixture"
  timeout := 30000
  watched := true

/-- One update and then equal steps of the worker. -/
def equalTicks (count : ℕ) (tick : Tick) : List TimedAction :=
  .call (.update (.object []) "epoch" 1 ⟨false,0,""⟩) (fun _ never => by cases never) ::
    List.replicate count (.work tick)

/-- A socket file that is created again after every failed attempt draws
sixteen attempts in one moment from a dead world host. -/
theorem socket_events_exceed_budget : ¬∀ (p : Peer) (start : ℤ) (actions : List TimedAction),
    WithinBudget (run (stepTimed p) (newWorker start) actions).failures := by
  intro h
  have budget := (h deadPeer 0 (equalTicks 130 ⟨0,0,0,0,false,[false]⟩)).1 0
  revert budget
  decide +kernel

/-- A dead world host without socket events stays within the budget. -/
theorem dead_peer_withinBudget :
    let actions := equalTicks 40 ⟨1000000000,0,0,7,false,[]⟩
    Along (stepTimed deadPeer) (fun w action => spares deadPeer w action=true) (newWorker 0) actions ∧
      (run (stepTimed deadPeer) (newWorker 0) actions).failures.length=13 ∧
      WithinBudget (run (stepTimed deadPeer) (newWorker 0) actions).failures := by
  intro actions
  have spared : Along (stepTimed deadPeer) (fun w action => spares deadPeer w action=true) (newWorker 0) actions := by
    decide +kernel
  exact ⟨spared,by decide +kernel,run_withinBudget deadPeer 0 actions spared⟩

end Runs

end Ros1Adapter.ReconnectBudget
