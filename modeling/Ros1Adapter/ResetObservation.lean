import Mathlib.Data.List.ReduceOption
import Ros1Adapter.ActionRules

/-!
# Reset observation of a ground vehicle

Sessions and results of the reset controller arrive on two topics. The runtime
keeps the last session and at most two results, and publishes a status when a
message, or a new demand, finds the channel demanded and its session source
fresh. All work is done under one lock. Clocks are nanoseconds with zero for no
time; the two comparisons of elapsed seconds come from the channel metadata.
Numbers of a result are only copied.
-/

namespace Ros1Adapter.ResetObservation

open ActionRules

section Messages

/-- Message of the session topic. -/
structure ResetSession where
  /-- Session, zero for none. -/
  session : ℕ
  /-- Native phase. -/
  phase : ℕ
  /-- Stamp of the header. -/
  stamp : ℕ
  deriving DecidableEq

/-- Message of the result topic, kept whole in a slot. -/
structure ResetResult (R : Type) where
  /-- Session that ended, zero for none. -/
  session : ℕ
  /-- Outcome, zero for none. -/
  outcome : ℕ
  /-- Reason. -/
  reason : ℕ
  /-- Planar error at the end. -/
  finalPlanarError : R
  /-- Yaw error at the end. -/
  finalYawError : R
  /-- Duration in seconds. -/
  duration : R
  /-- Bytes of the detail. -/
  detail : List UInt8
  /-- Stamp of the header. -/
  stamp : ℕ

/-- Phases of a published status. -/
inductive ResetPhase where
  | unspecified
  | idle
  | requesting
  | waiting
  | moving
  | settling
  | done
  deriving DecidableEq

/-- Phase of a native phase. -/
def resetPhase : ℕ → ResetPhase
  | 0 => .idle
  | 1 => .requesting
  | 2 => .waiting
  | 3 => .moving
  | 4 => .settling
  | 5 => .done
  | _ => .unspecified

/-- Result of a published status. -/
structure StatusResult (R : Type) where
  /-- Outcome. -/
  outcome : ℕ
  /-- Reason. -/
  reason : ℕ
  /-- Planar error in metres. -/
  finalPlanarErrorM : R
  /-- Yaw error in radians. -/
  finalYawErrorRad : R
  /-- Duration in seconds. -/
  durationS : R
  /-- Detail. -/
  detail : List UInt8
  /-- Stamp of the result in nanoseconds. -/
  sourceStampNs : ℕ

/-- Published status with the source stamp of its envelope. -/
structure ResetStatus (R : Type) where
  /-- Session. -/
  generation : ℕ
  /-- Phase. -/
  phase : ResetPhase
  /-- Result of the session. -/
  result : Option (StatusResult R)
  /-- Source stamp of the envelope. -/
  sourceStamp : ℕ

/-- Values whose change is published at once. -/
structure ResetTuple where
  /-- Session. -/
  generation : ℕ
  /-- Phase. -/
  phase : ResetPhase
  /-- There is a result. -/
  matched : Bool
  /-- Its outcome. -/
  outcome : ℕ
  /-- Its reason. -/
  reason : ℕ
  deriving DecidableEq

end Messages

section Runtime

variable {R : Type}

/-- Longest detail of a result. -/
def kMaximumTelemetryItemBytes : ℕ := 65536

/-- The channel of reset observation. -/
def channel : String := "state.reset"

/-- Members of the runtime that never change. -/
structure Settings where
  /-- Enabled channels. -/
  enabled : String → Bool
  /-- The contract gives the channel an output rate. -/
  rated : Bool
  /-- An elapsed time is below the output period. -/
  belowPeriod : ℕ → Bool
  /-- An age is within the freshness limit. -/
  withinLimit : ℕ → Bool

/-- Tracker of the session source. -/
structure SourceTracker where
  /-- Arrival of the last session. -/
  lastSeen : ℕ := 0
  /-- Start of the observation window. -/
  windowStarted : ℕ := 0
  /-- Sessions in the window. -/
  sourceSamples : ℕ := 0
  /-- Statuses in the window. -/
  outputSamples : ℕ := 0
  /-- Statuses held back by the rate limit. -/
  droppedSamples : ℕ := 0
  deriving DecidableEq

/-- Members of the runtime behind reset observation. -/
structure Runtime (R : Type) where
  /-- Last session. -/
  session : Option ResetSession := none
  /-- Result slot with the earlier receipt. -/
  earlier : Option (ResetResult R) := none
  /-- Result slot with the later receipt. -/
  later : Option (ResetResult R) := none
  /-- Values of the last published status. -/
  lastTuple : Option ResetTuple := none
  /-- Time of the last output. -/
  lastOutput : ℕ := 0
  /-- Tracker of the session source. -/
  source : SourceTracker := {}
  /-- Demanded channels. -/
  statusDemand : List String := []
  /-- Channel of a snapshot in progress. -/
  forcedChannel : String := ""
  /-- Channels that a demand change waits to snapshot. -/
  added : Option (List String) := none
  /-- The runtime is stopping. -/
  stopping : Bool := false

variable (c : Settings)

/-- The session source is fresh. -/
def sourceFreshLocked (now : ℕ) (s : Runtime R) : Bool :=
  if s.source.lastSeen=0 || now<s.source.lastSeen then false else c.withinLimit (now-s.source.lastSeen)

/-- State after the rate limit lets a status pass. -/
def shouldEmitLocked (now : ℕ) (s : Runtime R) : Option (Runtime R) :=
  if !s.statusDemand.contains channel || (s.forcedChannel≠"" && s.forcedChannel≠channel) then none
  else if !c.rated then none
  else if s.forcedChannel="" && s.lastOutput≠0 && s.lastOutput≤now && c.belowPeriod (now-s.lastOutput) then none
  else some {s with lastOutput := now}

/-- Slot that holds a result of the current session. -/
def matchedSlot (session : ResetSession) (s : Runtime R) : Option (ResetResult R) :=
  if session.session=0 then none
  else [s.earlier,s.later].reduceOption.find? (fun slot => slot.outcome≠0 && slot.session=session.session)

/-- Values of a session and its result. -/
def resetTuple (session : ResetSession) (matched : Option (ResetResult R)) : ResetTuple :=
  ⟨session.session,resetPhase session.phase,matched.isSome,(matched.map ResetResult.outcome).getD 0,
    (matched.map ResetResult.reason).getD 0⟩

/-- Published form of a result. -/
def statusResult (slot : ResetResult R) : StatusResult R :=
  ⟨slot.outcome,slot.reason,slot.finalPlanarError,slot.finalYawError,slot.duration,slot.detail,
    if slot.stamp=0 then 0 else slot.stamp⟩

/-- Status of a session and its result. -/
def resetStatus (session : ResetSession) (matched : Option (ResetResult R)) : ResetStatus R :=
  ⟨session.session,resetPhase session.phase,matched.map statusResult,session.stamp⟩

/-- State after a status with the given values. -/
def recordOutputLocked (tuple : ResetTuple) (s : Runtime R) : Runtime R :=
  {s with source := {s.source with outputSamples := s.source.outputSamples+1}, lastTuple := some tuple}

/-- Publish the status unless nothing changed and the rate limit holds it back. -/
def publishResetLocked (now : ℕ) (s : Runtime R) : Runtime R × List (ResetStatus R) :=
  match s.session with
  | none => (s,[])
  | some session =>
    if !c.enabled channel || !s.statusDemand.contains channel ||
        (s.forcedChannel≠"" && s.forcedChannel≠channel) || !sourceFreshLocked c now s then (s,[])
    else
      let matched := matchedSlot session s
      let tuple := resetTuple session matched
      if s.lastTuple=some tuple then
        match shouldEmitLocked c now s with
        | none => ({s with source := {s.source with droppedSamples := s.source.droppedSamples+1}},[])
        | some passed => (recordOutputLocked tuple passed,[resetStatus session matched])
      else (recordOutputLocked tuple {s with lastOutput := now},[resetStatus session matched])

/-- Note an arrival of the session source. -/
def recordSourceLocked (now : ℕ) (s : Runtime R) : Runtime R :=
  {s with source := {s.source with
    windowStarted := if s.source.windowStarted=0 then now else s.source.windowStarted,
    lastSeen := now, sourceSamples := s.source.sourceSamples+1}}

/-- Keep a session. -/
def keepSession (message : ResetSession) (now : ℕ) (s : Runtime R) : Runtime R :=
  {recordSourceLocked now s with session := some message}

/-- Take a session. -/
def noteResetSessionLocked (message : ResetSession) (now : ℕ) (s : Runtime R) : Runtime R × List (ResetStatus R) :=
  publishResetLocked c now (keepSession message now s)

/-- Index of a result slot. -/
inductive Place where
  | earlier
  | later

/-- First slot that meets a condition. -/
def firstPlace (condition : Option (ResetResult R) → Bool) (s : Runtime R) : Option Place :=
  if condition s.earlier then some .earlier else if condition s.later then some .later else none

/-- Fill a slot; a filled earlier slot changes places with the later one. -/
def noteNewest (message : ResetResult R) : Place → Runtime R → Runtime R
  | .earlier,s => {s with earlier := s.later, later := some message}
  | .later,s => {s with later := some message}

/-- A slot holds a result of a session. -/
def holds (session : ℕ) (slot : Option (ResetResult R)) : Bool := slot.any (fun held => held.session=session)

/-- The current session, zero for none. -/
def currentSession (s : Runtime R) : ℕ := (s.session.map ResetSession.session).getD 0

/-- A slot does not hold the result of the current session. -/
def unprotected (current : ℕ) (slot : Option (ResetResult R)) : Bool := !(current≠0 && holds current slot)

/-- Clear a slot that holds a result of a session. -/
def cleared (session : ℕ) (slot : Option (ResetResult R)) : Option (ResetResult R) :=
  if holds session slot then none else slot

/-- Slots after a result that counts. -/
def keepResult (message : ResetResult R) (s : Runtime R) : Runtime R :=
  if kMaximumTelemetryItemBytes < message.detail.length then
    {s with earlier := cleared message.session s.earlier, later := cleared message.session s.later}
  else
    match firstPlace (holds message.session) s with
    | some found => noteNewest message found s
    | none =>
      match firstPlace Option.isNone s with
      | some dest => noteNewest message dest s
      | none =>
        match firstPlace (unprotected (currentSession s)) s with
        | some dest => noteNewest message dest s
        | none => s

/-- Take a result. -/
def noteResetResultLocked (message : ResetResult R) (now : ℕ) (s : Runtime R) : Runtime R × List (ResetStatus R) :=
  if message.session=0 || message.outcome=0 then (s,[])
  else publishResetLocked c now (keepResult message s)

/-- Snapshots of the added channels, one by one; others than reset have their own members. -/
def snapshots (now : ℕ) : List String → Runtime R → Runtime R × List (ResetStatus R)
  | [],s => ({s with forcedChannel := ""},[])
  | added::rest,s =>
    let forced := {s with forcedChannel := added}
    let (after,messages) := if added=channel then publishResetLocked c now forced else (forced,[])
    let (last,more) := snapshots now rest after
    (last,messages ++ more)

/-- What happens to the runtime under its lock. -/
inductive Event (R : Type) where
  /-- Session message. -/
  | session (message : ResetSession) (now : ℕ)
  /-- Result message. -/
  | result (message : ResetResult R) (now : ℕ)
  /-- First part of a demand change. -/
  | demand (channels : List String)
  /-- Last part of a demand change; an exception leaves out the snapshots behind the first ones. -/
  | snapshot (now reached : ℕ)
  /-- A demand change fails while it changes subscriptions. -/
  | abandon
  /-- Stream health looks at the tracker and may close its window. -/
  | streamHealth (now : ℕ) (close : Bool)
  /-- The runtime stops. -/
  | stop

/-- Tracker after stream health. -/
def observed (now : ℕ) (close : Bool) (source : SourceTracker) : SourceTracker :=
  let opened := {source with windowStarted := if source.windowStarted=0 then now else source.windowStarted}
  if close then {opened with sourceSamples := 0, outputSamples := 0, windowStarted := now} else opened

/-- State and published statuses after an event. -/
def step (s : Runtime R) : Event R → Runtime R × List (ResetStatus R)
  | .session message now => if s.stopping then (s,[]) else noteResetSessionLocked c message now s
  | .result message now => if s.stopping then (s,[]) else noteResetResultLocked c message now s
  | .demand channels =>
    if s.stopping || s.added.isSome then (s,[])
    else
      ({s with
        statusDemand := channels,
        added := some (channels.filter (fun name => c.enabled name && !s.statusDemand.contains name))},[])
  | .snapshot now reached =>
    match s.added with
    | none => (s,[])
    | some added =>
      if s.stopping then ({s with added := none},[])
      else snapshots c now (added.take reached) {s with added := none}
  | .abandon => ({s with added := none},[])
  | .streamHealth now close => ({s with source := observed now close s.source},[])
  | .stop => ({s with stopping := true},[])

/-- State after an event. -/
def next (s : Runtime R) (event : Event R) : Runtime R := (step c s event).1

/-- Statuses published over a run. -/
def outputs : Runtime R → List (Event R) → List (ResetStatus R)
  | _,[] => []
  | s,event::rest => (step c s event).2 ++ outputs (next c s event) rest

end Runtime

section Publishing

variable {R : Type} {c : Settings} {now : ℕ} {s t : Runtime R}

/-- The channel is open for a status. -/
def Open (c : Settings) (now : ℕ) (s : Runtime R) : Prop :=
  c.enabled channel=true ∧ channel∈s.statusDemand ∧ (s.forcedChannel="" ∨ s.forcedChannel=channel) ∧
    sourceFreshLocked c now s=true

/-- Values that a status has now. -/
def currentTuple (s : Runtime R) : Option ResetTuple :=
  s.session.map (fun session => resetTuple session (matchedSlot session s))

/-- Status that is published now. -/
def currentStatus (s : Runtime R) : Option (ResetStatus R) :=
  s.session.map (fun session => resetStatus session (matchedSlot session s))

/-- Values that a published status shows. -/
def shown (status : ResetStatus R) : ResetTuple :=
  ⟨status.generation,status.phase,status.result.isSome,(status.result.map StatusResult.outcome).getD 0,
    (status.result.map StatusResult.reason).getD 0⟩

/-- A status shows the values it was made of. -/
theorem shown_resetStatus (session : ResetSession) (matched : Option (ResetResult R)) :
    shown (resetStatus session matched)=resetTuple session matched := by
  cases matched with
  | none | some _ => rfl

/-- The status of now shows the values of now. -/
theorem shown_current : (currentStatus s).map shown=currentTuple s := by
  unfold currentStatus currentTuple
  cases s.session with
  | none => rfl
  | some session => exact congrArg some (shown_resetStatus session (matchedSlot session s))

/-- Only the tracker's counters, the last output and its values may differ. -/
structure SameReset (s t : Runtime R) : Prop where
  /-- Session. -/
  session : t.session=s.session
  /-- Earlier slot. -/
  earlier : t.earlier=s.earlier
  /-- Later slot. -/
  later : t.later=s.later
  /-- Arrival of the last session. -/
  lastSeen : t.source.lastSeen=s.source.lastSeen
  /-- Demand. -/
  statusDemand : t.statusDemand=s.statusDemand
  /-- Snapshot in progress. -/
  forcedChannel : t.forcedChannel=s.forcedChannel
  /-- Snapshots that wait. -/
  added : t.added=s.added
  /-- Stop. -/
  stopping : t.stopping=s.stopping

/-- The values of now stay. -/
theorem SameReset.tuple (h : SameReset s t) : currentTuple t=currentTuple s := by
  unfold currentTuple matchedSlot
  rw [h.session,h.earlier,h.later]

/-- The status of now stays. -/
theorem SameReset.status (h : SameReset s t) : currentStatus t=currentStatus s := by
  unfold currentStatus matchedSlot
  rw [h.session,h.earlier,h.later]

/-- Freshness stays. -/
theorem SameReset.fresh (h : SameReset s t) (c : Settings) (now : ℕ) :
    sourceFreshLocked c now t=sourceFreshLocked c now s := by
  unfold sourceFreshLocked
  rw [h.lastSeen]

/-- What publishing does: nothing, or one status with the values of now. -/
structure Publishes (c : Settings) (now : ℕ) (s t : Runtime R) (statuses : List (ResetStatus R)) : Prop where
  /-- Everything else stays. -/
  same : SameReset s t
  /-- Nothing is published when the channel is closed, no session came or nothing changed. -/
  result : (statuses=[] ∧ t.lastTuple=s.lastTuple ∧ (Open c now s → s.session.isSome=true → s.lastTuple=currentTuple s)) ∨
    (∃ status, currentStatus s=some status ∧ statuses=[status] ∧ t.lastTuple=currentTuple s)

/-- The rate limit only notes the time. -/
theorem shouldEmitLocked_some (h : shouldEmitLocked c now s=some t) : t={s with lastOutput := now} := by
  unfold shouldEmitLocked at h
  split at h
  · cases h
  split at h
  · cases h
  split at h
  · cases h
  exact (Option.some.inj h).symm

/-- The guard of publishing is the open channel. -/
theorem open_iff : (!c.enabled channel || !s.statusDemand.contains channel ||
    (s.forcedChannel≠"" && s.forcedChannel≠channel) || !sourceFreshLocked c now s)=false ↔ Open c now s := by
  unfold Open
  simp only [Bool.or_eq_false_iff,Bool.not_eq_false',Bool.and_eq_false_iff,decide_eq_false_iff_not,ne_eq,not_not,
    List.contains_iff_mem,and_assoc]

/-- Publishing publishes the values of now or leaves them shown. -/
theorem publish_spec (c : Settings) (now : ℕ) (s : Runtime R) :
    Publishes c now s (publishResetLocked c now s).1 (publishResetLocked c now s).2 := by
  have refl : SameReset s s := ⟨rfl,rfl,rfl,rfl,rfl,rfl,rfl,rfl⟩
  unfold publishResetLocked
  cases hsession : s.session with
  | none =>
    refine ⟨refl,Or.inl ⟨rfl,rfl,fun _ hsome => ?_⟩⟩
    rw [hsession] at hsome
    cases hsome
  | some session =>
    have htuple : currentTuple s=some (resetTuple session (matchedSlot session s)) := by
      unfold currentTuple
      rw [hsession]
      rfl
    have hstatus : currentStatus s=some (resetStatus session (matchedSlot session s)) := by
      unfold currentStatus
      rw [hsession]
      rfl
    dsimp only
    by_cases hclosed : (!c.enabled channel || !s.statusDemand.contains channel ||
        (s.forcedChannel≠"" && s.forcedChannel≠channel) || !sourceFreshLocked c now s)=true
    · rw [if_pos hclosed]
      refine ⟨refl,Or.inl ⟨rfl,rfl,fun hopen _ => ?_⟩⟩
      rw [open_iff.mpr hopen] at hclosed
      cases hclosed
    · rw [if_neg hclosed]
      by_cases hlast : s.lastTuple=some (resetTuple session (matchedSlot session s))
      · rw [if_pos hlast]
        cases hemit : shouldEmitLocked c now s with
        | none =>
          refine ⟨⟨hsession.symm,rfl,rfl,rfl,rfl,rfl,rfl,rfl⟩,Or.inl ⟨rfl,rfl,fun _ _ => ?_⟩⟩
          rw [htuple]
          exact hlast
        | some passed =>
          rw [shouldEmitLocked_some hemit]
          dsimp only
          exact ⟨⟨rfl,rfl,rfl,rfl,rfl,rfl,rfl,rfl⟩,Or.inr ⟨_,hstatus,rfl,htuple.symm⟩⟩
      · rw [if_neg hlast]
        exact ⟨⟨hsession.symm,rfl,rfl,rfl,rfl,rfl,rfl,rfl⟩,Or.inr ⟨_,hstatus,rfl,htuple.symm⟩⟩

/-- An open channel shows the values of now after publishing. -/
theorem Publishes.current {statuses : List (ResetStatus R)} (h : Publishes c now s t statuses) (ho : Open c now s)
    (hsome : s.session.isSome=true) : t.lastTuple=currentTuple t := by
  rw [h.same.tuple]
  rcases h.result with ⟨_,hlast,hsame⟩ | ⟨_,_,_,hlast⟩
  · rw [hlast]
    exact hsame ho hsome
  · exact hlast

/-- An open channel publishes values that were not shown. -/
theorem Publishes.changed {statuses : List (ResetStatus R)} (h : Publishes c now s t statuses) (ho : Open c now s)
    (hsome : s.session.isSome=true) (hnew : s.lastTuple≠currentTuple s) :
    ∃ status, currentStatus s=some status ∧ statuses=[status] := by
  rcases h.result with ⟨_,_,hsame⟩ | ⟨status,hstatus,hlist,_⟩
  · exact absurd (hsame ho hsome) hnew
  · exact ⟨status,hstatus,hlist⟩

/-- Statuses of now are published, and the last one is remembered. -/
structure Reports (s t : Runtime R) (statuses : List (ResetStatus R)) : Prop where
  /-- Everything else stays. -/
  same : SameReset s t
  /-- Every status is the one of now. -/
  truthful : ∀ status∈statuses, currentStatus s=some status
  /-- The values of the last status are remembered. -/
  remembered : t.lastTuple=((statuses.getLast?).map shown).or s.lastTuple

/-- Publishing reports. -/
theorem Publishes.reports {statuses : List (ResetStatus R)} (h : Publishes c now s t statuses) :
    Reports s t statuses := by
  rcases h.result with ⟨hlist,hlast,_⟩ | ⟨status,hstatus,hlist,hlast⟩
  · rw [hlist]
    exact ⟨h.same,fun _ hs => absurd hs List.not_mem_nil,hlast⟩
  · rw [hlist]
    refine ⟨h.same,fun other hs => ?_,?_⟩
    · rw [List.mem_singleton.mp hs]
      exact hstatus
    · rw [hlast,←shown_current,hstatus]
      rfl

/-- Doing nothing reports nothing. -/
theorem reports_same (h : SameReset s t) (hlast : t.lastTuple=s.lastTuple) : Reports s t [] :=
  ⟨h,fun _ hs => absurd hs List.not_mem_nil,hlast⟩

/-- One report after another. -/
theorem Reports.trans {u : Runtime R} {first second : List (ResetStatus R)} (h : Reports s t first)
    (hmore : Reports t u second) : Reports s u (first ++ second) := by
  refine ⟨?_,?_,?_⟩
  · exact ⟨hmore.same.session.trans h.same.session,hmore.same.earlier.trans h.same.earlier,
      hmore.same.later.trans h.same.later,hmore.same.lastSeen.trans h.same.lastSeen,
      hmore.same.statusDemand.trans h.same.statusDemand,hmore.same.forcedChannel.trans h.same.forcedChannel,
      hmore.same.added.trans h.same.added,hmore.same.stopping.trans h.same.stopping⟩
  · intro status hs
    rcases List.mem_append.mp hs with hs | hs
    · exact h.truthful status hs
    · rw [←h.same.status]
      exact hmore.truthful status hs
  · rw [hmore.remembered,h.remembered,List.getLast?_append]
    cases second.getLast? with
    | none | some _ => rfl

/-- Without a session nothing is reported. -/
theorem Reports.silent {statuses : List (ResetStatus R)} (h : Reports s t statuses) (hnone : s.session=none) :
    statuses=[] := by
  cases statuses with
  | nil => rfl
  | cons status rest =>
    have hstatus := h.truthful status List.mem_cons_self
    unfold currentStatus at hstatus
    rw [hnone] at hstatus
    cases hstatus

/-- Values that are shown stay shown. -/
theorem Reports.current {statuses : List (ResetStatus R)} (h : Reports s t statuses)
    (hcurrent : s.lastTuple=currentTuple s) : t.lastTuple=currentTuple t := by
  rw [h.remembered,h.same.tuple]
  cases hlast : statuses.getLast? with
  | none => exact hcurrent
  | some status =>
    rw [←shown_current,h.truthful status (List.mem_of_getLast? hlast)]
    rfl

/-- Snapshots report and end without one in progress. -/
theorem snapshots_reports (c : Settings) (now : ℕ) (added : List String) (s : Runtime R) :
    Reports {s with forcedChannel := ""} (snapshots c now added s).1 (snapshots c now added s).2 := by
  induction added generalizing s with
  | nil => exact reports_same ⟨rfl,rfl,rfl,rfl,rfl,rfl,rfl,rfl⟩ rfl
  | cons name rest ih =>
    rw [snapshots]
    dsimp only
    by_cases hname : name=channel
    · rw [if_pos hname]
      have hpublished := (publish_spec c now {s with forcedChannel := name}).reports
      have hfirst : Reports {s with forcedChannel := ""}
          {(publishResetLocked c now {s with forcedChannel := name}).1 with forcedChannel := ""}
          (publishResetLocked c now {s with forcedChannel := name}).2 := by
        have hsame := hpublished.same
        exact ⟨⟨hsame.session,hsame.earlier,hsame.later,hsame.lastSeen,hsame.statusDemand,rfl,hsame.added,
          hsame.stopping⟩,hpublished.truthful,hpublished.remembered⟩
      exact hfirst.trans (ih _)
    · rw [if_neg hname]
      exact ih {s with forcedChannel := name}

end Publishing

section Slots

variable {R : Type} {s : Runtime R}

/-- A slot holds a result. -/
def Held (s : Runtime R) (message : ResetResult R) : Prop := s.earlier=some message ∨ s.later=some message

/-- The two slots hold results of different sessions. -/
def Apart (s : Runtime R) : Prop :=
  ∀ earlier later, s.earlier=some earlier → s.later=some later → earlier.session≠later.session

/-- A slot that holds a result of a session. -/
theorem holds_iff {session : ℕ} {slot : Option (ResetResult R)} :
    holds session slot=true ↔ ∃ held, slot=some held ∧ held.session=session := by
  cases slot with
  | none | some _ => simp [holds]

/-- What a result that counts and is short does to the slots. -/
structure Noted (message : ResetResult R) (s t : Runtime R) (kept : Option (ResetResult R)) : Prop where
  /-- The result is the later one; everything else stays. -/
  state : t={s with earlier := kept, later := some message}
  /-- The other slot was there before. -/
  old : kept=s.earlier ∨ kept=s.later
  /-- It is of another session. -/
  other : holds message.session kept=false
  /-- The result of the current session is kept. -/
  protects : ∀ held, Held s held → currentSession s≠0 → held.session=currentSession s →
    held.session≠message.session → kept=some held
  /-- Of two full slots the earlier one goes unless it is protected. -/
  oldest : ∀ earlier later, s.earlier=some earlier → s.later=some later → earlier.session≠message.session →
    later.session≠message.session → kept=if currentSession s≠0 ∧ earlier.session=currentSession s then some earlier else some later

/-- A short result becomes the later one, next to a slot that was there before. -/
theorem keepResult_noted (hapart : Apart s) {message : ResetResult R}
    (hshort : ¬kMaximumTelemetryItemBytes < message.detail.length) :
    ∃ kept, Noted message s (keepResult message s) kept := by
  unfold keepResult firstPlace
  rw [if_neg hshort]
  by_cases hearlier : holds message.session s.earlier=true
  · obtain ⟨held,hheld,hsession⟩ := holds_iff.mp hearlier
    rw [if_pos hearlier]
    refine ⟨s.later,⟨rfl,Or.inr rfl,?_,?_,?_⟩⟩
    · rw [Bool.eq_false_iff]
      intro hlater
      obtain ⟨other,hother,hsame⟩ := holds_iff.mp hlater
      exact hapart held other hheld hother (hsession.trans hsame.symm)
    · rintro other (hother | hother) _ _ hne
      · rw [hheld] at hother
        exact absurd ((Option.some.inj hother) ▸ hsession) hne
      · exact hother
    · intro earlier later he _ hne _
      rw [hheld] at he
      exact absurd ((Option.some.inj he) ▸ hsession) hne
  rw [if_neg hearlier]
  rw [Bool.not_eq_true] at hearlier
  by_cases hlater : holds message.session s.later=true
  · obtain ⟨held,hheld,hsession⟩ := holds_iff.mp hlater
    rw [if_pos hlater]
    refine ⟨s.earlier,⟨rfl,Or.inl rfl,hearlier,?_,?_⟩⟩
    · rintro other (hother | hother) _ _ hne
      · exact hother
      · rw [hheld] at hother
        exact absurd ((Option.some.inj hother) ▸ hsession) hne
    · intro earlier later _ hl _ hne
      rw [hheld] at hl
      exact absurd ((Option.some.inj hl) ▸ hsession) hne
  rw [if_neg hlater]
  rw [Bool.not_eq_true] at hlater
  dsimp only
  cases he : s.earlier with
  | none =>
    refine ⟨s.later,⟨rfl,Or.inr rfl,hlater,?_,?_⟩⟩
    · rintro other (hother | hother) _ _ _
      · rw [he] at hother
        cases hother
      · exact hother
    · intro earlier later hsome
      rw [he] at hsome
      cases hsome
  | some first =>
    cases hl : s.later with
    | none =>
      refine ⟨s.earlier,⟨?_,Or.inl rfl,hearlier,?_,?_⟩⟩
      · simp [noteNewest,he]
      · rintro other (hother | hother) _ _ _
        · exact hother
        · rw [hl] at hother
          cases hother
      · intro earlier later _ hsome
        rw [hl] at hsome
        cases hsome
    | some second =>
      have hne : first.session≠second.session := hapart first second he hl
      by_cases hprotected : currentSession s≠0 ∧ first.session=currentSession s
      · have hfirst : unprotected (currentSession s) (some first)=false := by
          simp [unprotected,holds,hprotected.1,hprotected.2]
        have hsecond : unprotected (currentSession s) (some second)=true := by
          have hother : second.session≠currentSession s := fun h => hne (hprotected.2.trans h.symm)
          simp [unprotected,holds,hother]
        refine ⟨s.earlier,⟨?_,Or.inl rfl,hearlier,?_,?_⟩⟩
        · simp [hfirst,hsecond,noteNewest,he]
        · rintro other (hother | hother) _ hcurrent _
          · exact hother
          · rw [hl] at hother
            rw [←Option.some.inj hother,←hprotected.2] at hcurrent
            exact absurd hcurrent.symm hne
        · intro earlier later hsome _ _ _
          rw [he] at hsome
          rw [←Option.some.inj hsome,if_pos hprotected,he]
      · have hfirst : unprotected (currentSession s) (some first)=true := by
          rw [not_and_or,not_not] at hprotected
          simpa [unprotected,holds] using hprotected
        refine ⟨s.later,⟨?_,Or.inr rfl,hlater,?_,?_⟩⟩
        · simp [hfirst,noteNewest,hl]
        · rintro other (hother | hother) hnonzero hcurrent _
          · rw [he] at hother
            rw [←Option.some.inj hother] at hcurrent
            exact absurd ⟨hnonzero,hcurrent⟩ hprotected
          · exact hother
        · intro earlier later hsome hsomeLater _ _
          rw [he] at hsome
          rw [hl] at hsomeLater
          rw [←Option.some.inj hsome,if_neg hprotected,hl,hsomeLater]

end Slots

section Histories

variable {R : Type} {s t : Runtime R} {results : List (ResetResult R)}

/-- Results of an event that count. -/
def taken (s : Runtime R) : Event R → List (ResetResult R)
  | .result message _ => if s.stopping || message.session=0 || message.outcome=0 then [] else [message]
  | _ => []

/-- Results of a run that count, in order. -/
def heard (c : Settings) : Runtime R → List (Event R) → List (ResetResult R)
  | _,[] => []
  | s,event::rest => taken s event ++ heard c (next c s event) rest

/-- Last result of a session. -/
def latestOf (session : ℕ) (results : List (ResetResult R)) : Option (ResetResult R) :=
  results.reverse.find? (fun result => result.session=session)

/-- Number of results up to the last one of a session. -/
def receipt (session : ℕ) (results : List (ResetResult R)) : ℕ :=
  (results.reverse.dropWhile (fun result => result.session≠session)).length

/-- Last result after one more. -/
theorem latestOf_append (session : ℕ) (results : List (ResetResult R)) (message : ResetResult R) :
    latestOf session (results ++ [message])=if message.session=session then some message else latestOf session results := by
  unfold latestOf
  rw [List.reverse_append,List.reverse_singleton,List.singleton_append,List.find?_cons]
  by_cases h : message.session=session
  · simp [h]
  · simp [h]

/-- Receipt after one more. -/
theorem receipt_append (session : ℕ) (results : List (ResetResult R)) (message : ResetResult R) :
    receipt session (results ++ [message])=
      if message.session=session then results.length+1 else receipt session results := by
  unfold receipt
  rw [List.reverse_append,List.reverse_singleton,List.singleton_append,List.dropWhile_cons]
  by_cases h : message.session=session
  · simp [h]
  · simp [h]

/-- A receipt is in the list. -/
theorem receipt_le (session : ℕ) (results : List (ResetResult R)) : receipt session results ≤ results.length := by
  unfold receipt
  have hle := (List.dropWhile_suffix (fun result => decide (result.session≠session)) (l := results.reverse)).length_le
  rw [List.length_reverse] at hle
  exact hle

/-- What the slots hold after the results that counted, between events. -/
structure Kept (results : List (ResetResult R)) (s : Runtime R) : Prop where
  /-- No session has two slots. -/
  apart : Apart s
  /-- A held result is the last one of its session; it counts and is short. -/
  latest : ∀ held, Held s held → latestOf held.session results=some held ∧
    held.detail.length ≤ kMaximumTelemetryItemBytes ∧ held.session≠0 ∧ held.outcome≠0
  /-- The earlier slot was received earlier. -/
  ordered : ∀ earlier later, s.earlier=some earlier → s.later=some later →
    receipt earlier.session results<receipt later.session results
  /-- No snapshot is in progress. -/
  idle : s.forcedChannel=""

/-- Only the slots and the snapshot in progress matter. -/
theorem Kept.same (h : Kept results s) (hearlier : t.earlier=s.earlier) (hlater : t.later=s.later)
    (hforced : t.forcedChannel=s.forcedChannel) : Kept results t := by
  refine ⟨?_,?_,?_,hforced.trans h.idle⟩
  · intro earlier later he hl
    exact h.apart earlier later (hearlier ▸ he) (hlater ▸ hl)
  · intro held hheld
    refine h.latest held (hheld.imp (fun he => ?_) (fun hl => ?_))
    · rw [←hearlier]
      exact he
    · rw [←hlater]
      exact hl
  · intro earlier later he hl
    exact h.ordered earlier later (hearlier ▸ he) (hlater ▸ hl)

/-- A cleared slot holds what it held, of another session. -/
theorem cleared_some {session : ℕ} {slot : Option (ResetResult R)} {held : ResetResult R}
    (h : cleared session slot=some held) : slot=some held ∧ held.session≠session := by
  unfold cleared at h
  split at h
  · cases h
  · rename_i hother
    refine ⟨h,fun hsame => hother ?_⟩
    exact holds_iff.mpr ⟨held,h,hsame⟩

/-- A result that counts keeps the slots in order. -/
theorem keepResult_kept (h : Kept results s) {message : ResetResult R} (hsession : message.session≠0)
    (houtcome : message.outcome≠0) : Kept (results ++ [message]) (keepResult message s) := by
  have hstays : ∀ {held : ResetResult R}, Held s held → held.session≠message.session →
      latestOf held.session (results ++ [message])=some held ∧
        held.detail.length ≤ kMaximumTelemetryItemBytes ∧ held.session≠0 ∧ held.outcome≠0 := by
    intro held hheld hne
    rw [latestOf_append,if_neg (fun hsame => hne hsame.symm)]
    exact h.latest held hheld
  by_cases hlong : kMaximumTelemetryItemBytes < message.detail.length
  · have hstate : keepResult message s=
        {s with earlier := cleared message.session s.earlier, later := cleared message.session s.later} := by
      unfold keepResult
      rw [if_pos hlong]
    rw [hstate]
    refine ⟨?_,?_,?_,h.idle⟩
    · intro earlier later he hl
      exact h.apart earlier later (cleared_some he).1 (cleared_some hl).1
    · rintro held (hheld | hheld)
      · exact hstays (Or.inl (cleared_some hheld).1) (cleared_some hheld).2
      · exact hstays (Or.inr (cleared_some hheld).1) (cleared_some hheld).2
    · intro earlier later he hl
      rw [receipt_append,receipt_append,if_neg (fun hsame => (cleared_some he).2 hsame.symm),
        if_neg (fun hsame => (cleared_some hl).2 hsame.symm)]
      exact h.ordered earlier later (cleared_some he).1 (cleared_some hl).1
  · obtain ⟨kept,hnoted⟩ := keepResult_noted h.apart hlong
    have hheld : ∀ {held : ResetResult R}, kept=some held → Held s held ∧ held.session≠message.session := by
      intro held hkept
      refine ⟨hnoted.old.imp (fun ho => ho.symm.trans hkept) (fun ho => ho.symm.trans hkept),fun hsame => ?_⟩
      have hholds := holds_iff.mpr ⟨held,hkept,hsame⟩
      rw [hnoted.other] at hholds
      cases hholds
    rw [hnoted.state]
    refine ⟨?_,?_,?_,h.idle⟩
    · intro earlier later he hl
      rw [←Option.some.inj hl]
      exact (hheld he).2
    · rintro held (hkept | hnew)
      · exact hstays (hheld hkept).1 (hheld hkept).2
      · rw [←Option.some.inj hnew,latestOf_append,if_pos rfl]
        exact ⟨rfl,Nat.le_of_not_lt hlong,hsession,houtcome⟩
    · intro earlier later he hl
      rw [←Option.some.inj hl,receipt_append,receipt_append,if_neg (fun hsame => (hheld he).2 hsame.symm),if_pos rfl]
      exact Nat.lt_succ_of_le (receipt_le earlier.session results)

end Histories

section Steps

variable {R : Type} {c : Settings} {s t : Runtime R} {results : List (ResetResult R)}

/-- State of an event before anything is published. -/
def noted (c : Settings) (s : Runtime R) : Event R → Runtime R
  | .session message now => if s.stopping then s else keepSession message now s
  | .result message _ => if s.stopping || message.session=0 || message.outcome=0 then s else keepResult message s
  | .snapshot _ _ => {s with added := none}
  | event => next c s event

/-- Every event notes something and reports. -/
theorem step_reports (hidle : s.forcedChannel="") (event : Event R) :
    Reports (noted c s event) (next c s event) (step c s event).2 := by
  have hsame : ∀ u : Runtime R, SameReset u u := fun u => ⟨rfl,rfl,rfl,rfl,rfl,rfl,rfl,rfl⟩
  unfold next noted
  cases event with
  | session message now =>
    rw [step]
    dsimp only
    split
    · exact reports_same (hsame s) rfl
    · exact (publish_spec c now (keepSession message now s)).reports
  | result message now =>
    rw [step]
    dsimp only
    cases hstop : s.stopping with
    | true => exact reports_same (hsame s) rfl
    | false =>
      rw [Bool.false_or]
      unfold noteResetResultLocked
      split
      · rename_i hinvalid
        rw [if_neg Bool.false_ne_true]
        exact reports_same (hsame s) rfl
      · rename_i hvalid
        rw [if_neg Bool.false_ne_true]
        exact (publish_spec c now (keepResult message s)).reports
  | demand channels =>
    have hnone : (step c s (.demand channels)).2=[] := by
      rw [step]
      split <;> rfl
    rw [hnone]
    exact reports_same (hsame _) rfl
  | snapshot now reached =>
    rw [step]
    cases hadded : s.added with
    | none =>
      exact reports_same ⟨rfl,rfl,rfl,rfl,rfl,rfl,hadded,rfl⟩ rfl
    | some added =>
      dsimp only
      split
      · exact reports_same (hsame _) rfl
      · have hreports := snapshots_reports c now (added.take reached) {s with added := none}
        rw [←hidle] at hreports
        exact hreports
  | abandon | streamHealth _ _ | stop => exact reports_same (hsame _) rfl

/-- Noting an event keeps the slots in order. -/
theorem noted_kept (h : Kept results s) (event : Event R) : Kept (results ++ taken s event) (noted c s event) := by
  cases event with
  | session message now =>
    have hnone : taken s (.session message now)=[] := rfl
    rw [hnone,List.append_nil,noted]
    split
    · exact h
    · exact h.same rfl rfl rfl
  | result message now =>
    rw [taken,noted]
    split
    · rw [List.append_nil]
      exact h
    · rename_i hvalid
      simp only [Bool.or_eq_true,decide_eq_true_eq,not_or] at hvalid
      exact keepResult_kept h hvalid.1.2 hvalid.2
  | demand channels =>
    have hnone : taken s (.demand channels)=[] := rfl
    have hnoted : noted c s (.demand channels)=(step c s (.demand channels)).1 := rfl
    rw [hnone,List.append_nil,hnoted,step]
    split
    · exact h
    · exact h.same rfl rfl rfl
  | snapshot _ _ | abandon | streamHealth _ _ | stop => exact (List.append_nil results).symm ▸ h.same rfl rfl rfl

/-- An event keeps the slots in order. -/
theorem step_kept (h : Kept results s) (event : Event R) : Kept (results ++ taken s event) (next c s event) := by
  have hsame := (step_reports (c := c) h.idle event).same
  exact (noted_kept h event).same hsame.earlier hsame.later hsame.forcedChannel

/-- A run keeps the slots in order. -/
theorem run_kept (h : Kept results s) (events : List (Event R)) :
    Kept (results ++ heard c s events) (run (next c) s events) := by
  induction events generalizing s results with
  | nil =>
    rw [heard,List.append_nil]
    exact h
  | cons event rest ih =>
    rw [heard,←List.append_assoc,run_cons]
    exact ih (step_kept h event)

/-- A new runtime holds nothing. -/
theorem kept_new : Kept [] ({} : Runtime R) := by
  refine ⟨?_,?_,?_,rfl⟩
  · intro earlier later he
    cases he
  · rintro held (hheld | hheld) <;> cases hheld
  · intro earlier later he
    cases he

/-- The result of a status is the held one of its session. -/
theorem matchedSlot_iff (h : Kept results s) {session : ResetSession} {held : ResetResult R} :
    matchedSlot session s=some held ↔ session.session≠0 ∧ Held s held ∧ held.session=session.session := by
  unfold matchedSlot
  by_cases hzero : session.session=0
  · simp [hzero]
  rw [if_neg hzero]
  have hmem : ∀ result : ResetResult R, result∈[s.earlier,s.later].reduceOption ↔ Held s result := by
    intro result
    rw [List.reduceOption_mem_iff,List.mem_pair]
    exact Iff.or eq_comm eq_comm
  constructor
  · intro hfound
    have hcond := List.find?_some hfound
    have hheld := (hmem held).mp (List.mem_of_find?_eq_some hfound)
    rw [Bool.and_eq_true,decide_eq_true_eq,decide_eq_true_eq] at hcond
    exact ⟨hzero,hheld,hcond.2⟩
  · rintro ⟨_,hheld,hsession⟩
    have houtcome := (h.latest held hheld).2.2.2
    have hcond : (decide (held.outcome≠0) && decide (held.session=session.session))=true := by
      rw [Bool.and_eq_true,decide_eq_true_eq,decide_eq_true_eq]
      exact ⟨houtcome,hsession⟩
    cases hfound : [s.earlier,s.later].reduceOption.find?
        (fun slot => slot.outcome≠0 && slot.session=session.session) with
    | none =>
      have hnone := List.find?_eq_none.mp hfound held ((hmem held).mpr hheld)
      exact absurd hcond hnone
    | some other =>
      have hother := List.find?_some hfound
      rw [Bool.and_eq_true,decide_eq_true_eq,decide_eq_true_eq] at hother
      have hsame : other.session=held.session := hother.2.trans hsession.symm
      have hlast := (h.latest other ((hmem other).mp (List.mem_of_find?_eq_some hfound))).1
      rw [hsame,(h.latest held hheld).1] at hlast
      exact hlast.symm

end Steps

section Runs

variable {R : Type} {c : Settings} {s : Runtime R} {results : List (ResetResult R)}

/-- A result only changes the slots. -/
theorem keepResult_frame (message : ResetResult R) (s : Runtime R) :
    ∃ earlier later, keepResult message s={s with earlier := earlier, later := later} := by
  have hnewest : ∀ place, ∃ earlier later, noteNewest message place s={s with earlier := earlier, later := later} := by
    intro place
    cases place with
    | earlier => exact ⟨s.later,some message,rfl⟩
    | later => exact ⟨s.earlier,some message,rfl⟩
  unfold keepResult
  split
  · exact ⟨_,_,rfl⟩
  split
  · exact hnewest _
  split
  · exact hnewest _
  split
  · exact hnewest _
  · exact ⟨s.earlier,s.later,rfl⟩

/-- Noting an event shows nothing. -/
theorem noted_lastTuple (event : Event R) : (noted c s event).lastTuple=s.lastTuple := by
  cases event with
  | session message now =>
    rw [noted]
    split <;> rfl
  | result message now =>
    rw [noted]
    obtain ⟨earlier,later,hstate⟩ := keepResult_frame message s
    split
    · rfl
    · rw [hstate]
  | demand channels =>
    have hnoted : noted c s (.demand channels)=(step c s (.demand channels)).1 := rfl
    rw [hnoted,step]
    split <;> rfl
  | snapshot _ _ | abandon | streamHealth _ _ | stop => rfl

/-- Time at which the runtime takes a message. -/
def handledAt (s : Runtime R) : Event R → Option ℕ
  | .session _ now => if s.stopping then none else some now
  | .result message now => if s.stopping || message.session=0 || message.outcome=0 then none else some now
  | _ => none

/-- A message that is taken is published. -/
theorem step_publishes {event : Event R} {now : ℕ} (h : handledAt s event=some now) :
    Publishes c now (noted c s event) (next c s event) (step c s event).2 := by
  unfold next noted
  cases event with
  | session message time =>
    rw [handledAt] at h
    rw [step]
    dsimp only
    split at h
    · cases h
    · rename_i hstop
      rw [if_neg hstop,if_neg hstop]
      cases h
      exact publish_spec c now (keepSession message now s)
  | result message time =>
    rw [handledAt] at h
    rw [step]
    dsimp only
    split at h
    · cases h
    · rename_i hvalid
      have hparts := hvalid
      simp only [Bool.or_eq_true,not_or,Bool.not_eq_true] at hparts
      unfold noteResetResultLocked
      rw [if_neg hvalid,hparts.1.1,if_neg Bool.false_ne_true,hparts.1.2,hparts.2,Bool.or_false,
        if_neg Bool.false_ne_true]
      cases h
      exact publish_spec c now (keepResult message s)
  | demand _ | snapshot _ _ | abandon | streamHealth _ _ | stop => cases h

/-- The last status of a run shows the values that the runtime remembers. -/
theorem run_remembered (h : Kept results s) (events : List (Event R)) :
    (run (next c) s events).lastTuple=((outputs c s events).getLast?.map shown).or s.lastTuple := by
  induction events generalizing s results with
  | nil => rfl
  | cons event rest ih =>
    have hstep := (step_reports (c := c) h.idle event).remembered
    rw [noted_lastTuple] at hstep
    rw [run_cons,ih (step_kept h event),hstep,outputs,List.getLast?_append]
    cases (outputs c (next c s event) rest).getLast? with
    | none | some _ => rfl

/-- An event that is no session message. -/
def NoSession : Event R → Prop
  | .session _ _ => False
  | _ => True

/-- An event that is neither a session message nor a result that counts. -/
def Quiet : Event R → Prop
  | .session _ _ => False
  | .result message _ => message.session=0 ∨ message.outcome=0
  | _ => True

/-- An event that neither changes the current session nor brings a result of it. -/
def Elsewhere (current : ℕ) : Event R → Prop
  | .session message _ => message.session=current
  | .result message _ => message.session≠current
  | _ => True

/-- Without a session message the session and its arrival stay. -/
theorem noted_source {event : Event R} (h : NoSession event) :
    (noted c s event).session=s.session ∧ (noted c s event).source.lastSeen=s.source.lastSeen := by
  cases event with
  | session message now => cases h
  | result message now =>
    rw [noted]
    obtain ⟨earlier,later,hstate⟩ := keepResult_frame message s
    split
    · exact ⟨rfl,rfl⟩
    · rw [hstate]
      exact ⟨rfl,rfl⟩
  | demand channels =>
    have hnoted : noted c s (.demand channels)=(step c s (.demand channels)).1 := rfl
    rw [hnoted,step]
    split <;> exact ⟨rfl,rfl⟩
  | snapshot _ _ | abandon | stop => exact ⟨rfl,rfl⟩
  | streamHealth now close =>
    refine ⟨rfl,?_⟩
    cases close <;> rfl

/-- Without session messages the session and its arrival stay over a run. -/
theorem run_source (h : Kept results s) {events : List (Event R)} (hs : ∀ event∈events, NoSession event) :
    (run (next c) s events).session=s.session ∧ (run (next c) s events).source.lastSeen=s.source.lastSeen := by
  induction events generalizing s results with
  | nil => exact ⟨rfl,rfl⟩
  | cons event rest ih =>
    have hsame := (step_reports (c := c) h.idle event).same
    have hnoted := noted_source (c := c) (s := s) (hs event List.mem_cons_self)
    obtain ⟨hsession,hseen⟩ := ih (step_kept (c := c) h event) (fun e he => hs e (List.mem_cons_of_mem event he))
    rw [run_cons,hsession,hseen,hsame.session,hsame.lastSeen]
    exact hnoted

/-- Without session messages nothing is published. -/
theorem outputs_silent (h : Kept results s) (hnone : s.session=none) {events : List (Event R)}
    (hs : ∀ event∈events, NoSession event) : outputs c s events=[] := by
  induction events generalizing s results with
  | nil => rfl
  | cons event rest ih =>
    have hreports := step_reports (c := c) h.idle event
    have hnoted := (noted_source (c := c) (s := s) (hs event List.mem_cons_self)).1.trans hnone
    have hnext : (next c s event).session=none := hreports.same.session.trans hnoted
    rw [outputs,hreports.silent hnoted,ih (step_kept h event) hnext (fun e he => hs e (List.mem_cons_of_mem event he))]
    rfl

/-- Quiet events leave the values of now. -/
theorem noted_quiet {event : Event R} (h : Quiet event) : currentTuple (noted c s event)=currentTuple s := by
  cases event with
  | session message now => cases h
  | result message now =>
    have hskip : (s.stopping || message.session=0 || message.outcome=0)=true := by
      rcases h with h | h <;> simp [h]
    rw [noted,if_pos hskip]
  | demand channels =>
    have hnoted : noted c s (.demand channels)=(step c s (.demand channels)).1 := rfl
    rw [hnoted,step]
    split <;> rfl
  | snapshot _ _ | abandon | streamHealth _ _ | stop => rfl

/-- Values that are shown stay shown while nothing is taken. -/
theorem run_quiet (h : Kept results s) (hcurrent : s.lastTuple=currentTuple s) {events : List (Event R)}
    (hq : ∀ event∈events, Quiet event) : (run (next c) s events).lastTuple=currentTuple (run (next c) s events) := by
  induction events generalizing s results with
  | nil => exact hcurrent
  | cons event rest ih =>
    have hreports := step_reports (c := c) h.idle event
    have hnoted : (noted c s event).lastTuple=currentTuple (noted c s event) := by
      rw [noted_lastTuple,noted_quiet (hq event List.mem_cons_self)]
      exact hcurrent
    exact ih (step_kept h event) (hreports.current hnoted) (fun e he => hq e (List.mem_cons_of_mem event he))

/-- An event elsewhere leaves the current session and its result. -/
theorem noted_protects (h : Kept results s) {held : ResetResult R} (hzero : currentSession s≠0) (hheld : Held s held)
    (hsession : held.session=currentSession s) {event : Event R} (he : Elsewhere (currentSession s) event) :
    currentSession (noted c s event)=currentSession s ∧ Held (noted c s event) held := by
  cases event with
  | session message now =>
    rw [noted]
    split
    · exact ⟨rfl,hheld⟩
    · exact ⟨he,hheld⟩
  | result message now =>
    rw [noted]
    split
    · exact ⟨rfl,hheld⟩
    · refine ⟨?_,?_⟩
      · obtain ⟨earlier,later,hstate⟩ := keepResult_frame message s
        rw [hstate]
        rfl
      · have hne : held.session≠message.session := fun hsame => he (hsame.symm.trans hsession)
        by_cases hlong : kMaximumTelemetryItemBytes < message.detail.length
        · have hclear : ∀ {slot : Option (ResetResult R)}, slot=some held → cleared message.session slot=some held := by
            intro slot hslot
            unfold cleared
            rw [if_neg ?_]
            · exact hslot
            · intro hholds
              obtain ⟨other,hother,hsame⟩ := holds_iff.mp hholds
              rw [hslot] at hother
              exact hne ((Option.some.inj hother) ▸ hsame)
          unfold keepResult
          rw [if_pos hlong]
          exact hheld.imp hclear hclear
        · obtain ⟨kept,hnoted⟩ := keepResult_noted h.apart hlong
          rw [hnoted.state]
          exact Or.inl (hnoted.protects held hheld hzero hsession hne)
  | demand channels =>
    have hnoted : noted c s (.demand channels)=(step c s (.demand channels)).1 := rfl
    rw [hnoted,step]
    split <;> exact ⟨rfl,hheld⟩
  | snapshot _ _ | abandon | streamHealth _ _ | stop => exact ⟨rfl,hheld⟩

/-- However much happens elsewhere, the result of the current session stays. -/
theorem run_protects (h : Kept results s) {held : ResetResult R} (hzero : currentSession s≠0) (hheld : Held s held)
    (hsession : held.session=currentSession s) {events : List (Event R)}
    (he : ∀ event∈events, Elsewhere (currentSession s) event) : Held (run (next c) s events) held := by
  induction events generalizing s results with
  | nil => exact hheld
  | cons event rest ih =>
    have hsame := (step_reports (c := c) h.idle event).same
    obtain ⟨hcurrent,hstill⟩ := noted_protects (c := c) h hzero hheld hsession (he event List.mem_cons_self)
    have hnext : currentSession (next c s event)=currentSession s := by
      unfold currentSession at hcurrent ⊢
      rw [hsame.session]
      exact hcurrent
    have hkept : Held (next c s event) held := by
      unfold Held at hstill ⊢
      rw [hsame.earlier,hsame.later]
      exact hstill
    rw [←hnext] at hzero hsession he
    exact ih (step_kept h event) hzero hkept hsession (fun e hmem => he e (List.mem_cons_of_mem event hmem))

end Runs

section Observation

variable {R : Type}

/-- What holds after a run of a new runtime, and of its next event. -/
structure Observed (c : Settings) (events : List (Event R)) : Prop where
  /-- No session has two result slots. -/
  oneSlot : Apart (run (next c) {} events)
  /-- A held result is the last one of its session that counts, and it is short. -/
  latest : ∀ held, Held (run (next c) {} events) held →
    latestOf held.session (heard c {} events)=some held ∧ held.detail.length ≤ kMaximumTelemetryItemBytes
  /-- A published status is of the current session, and it has a result exactly if a slot holds one
  of that session, which is not zero, and then with its values. -/
  carried : ∀ event, ∀ status∈(step c (run (next c) {} events) event).2, ∃ session,
    (next c (run (next c) {} events) event).session=some session ∧ status.generation=session.session ∧
    status.phase=resetPhase session.phase ∧ status.sourceStamp=session.stamp ∧
    ∀ result, status.result=some result ↔ ∃ held, session.session≠0 ∧
      Held (next c (run (next c) {} events) event) held ∧ held.session=session.session ∧ result=statusResult held
  /-- Whatever arrives for other sessions, the result of the current session stays. -/
  protects : ∀ held more, currentSession (run (next c) {} events)≠0 → Held (run (next c) {} events) held →
    held.session=currentSession (run (next c) {} events) →
    (∀ event∈more, Elsewhere (currentSession (run (next c) {} events)) event) →
    Held (run (next c) {} (events ++ more)) held
  /-- With both slots full, a short result of a new session takes the place of the earlier received
  one, or of the later received one if the earlier is of the current session. -/
  oldest : ∀ earlier later message now, (run (next c) {} events).stopping=false →
    (run (next c) {} events).earlier=some earlier → (run (next c) {} events).later=some later →
    message.session≠0 → message.outcome≠0 → ¬kMaximumTelemetryItemBytes < message.detail.length →
    earlier.session≠message.session → later.session≠message.session →
    receipt earlier.session (heard c {} events)<receipt later.session (heard c {} events) ∧
    (next c (run (next c) {} events) (.result message now)).later=some message ∧
    (next c (run (next c) {} events) (.result message now)).earlier=
      if currentSession (run (next c) {} events)≠0 ∧ earlier.session=currentSession (run (next c) {} events) then
        some earlier else some later
  /-- A message that leaves values unlike the last published ones publishes them at once. -/
  changed : ∀ event now, handledAt (run (next c) {} events) event=some now →
    Open c now (next c (run (next c) {} events) event) →
    (next c (run (next c) {} events) event).session.isSome=true →
    (outputs c {} events).getLast?.map shown≠currentTuple (next c (run (next c) {} events) event) →
    ∃ status, (step c (run (next c) {} events) event).2=[status] ∧
      currentTuple (next c (run (next c) {} events) event)=some (shown status)
  /-- After a message with the channel open the last published values are the ones of now, until the
  next message is taken. -/
  current : ∀ event now more, handledAt (run (next c) {} events) event=some now →
    Open c now (next c (run (next c) {} events) event) →
    (next c (run (next c) {} events) event).session.isSome=true → (∀ later∈more, Quiet later) →
    (outputs c {} (events ++ event::more)).getLast?.map shown=
      currentTuple (run (next c) {} (events ++ event::more))
  /-- Nothing is published before the first session message. -/
  silent : (∀ event∈events, NoSession event) → outputs c {} events=[]
  /-- Without session messages the source is as fresh as it was, at any time. -/
  stale : ∀ more now, (∀ event∈more, NoSession event) →
    sourceFreshLocked c now (run (next c) {} (events ++ more))=sourceFreshLocked c now (run (next c) {} events)

/-- Reset observation keeps the right result over every run. -/
theorem run_observed (c : Settings) (events : List (Event R)) : Observed c events := by
  have hkept : Kept (heard c {} events) (run (next c) ({} : Runtime R) events) := by
    have hrun := run_kept (c := c) kept_new events
    rw [List.nil_append] at hrun
    exact hrun
  have hshown : ∀ all : List (Event R),
      (run (next c) {} all).lastTuple=(outputs c {} all).getLast?.map shown := by
    intro all
    rw [run_remembered kept_new all]
    cases (outputs c {} all).getLast? with
    | none => rfl
    | some status => rfl
  have hopen : ∀ {event now}, Open c now (next c (run (next c) {} events) event) →
      Open c now (noted c (run (next c) {} events) event) := by
    intro event now ho
    have hsame := (step_reports (c := c) hkept.idle event).same
    unfold Open at ho ⊢
    rw [hsame.statusDemand,hsame.forcedChannel,hsame.fresh] at ho
    exact ho
  have hsession : ∀ event, (next c (run (next c) {} events) event).session=(noted c (run (next c) {} events) event).session :=
    fun event => (step_reports (c := c) hkept.idle event).same.session
  refine ⟨hkept.apart,fun held hheld => ?_,?_,?_,?_,?_,?_,outputs_silent kept_new rfl,?_⟩
  · exact ⟨(hkept.latest held hheld).1,(hkept.latest held hheld).2.1⟩
  · intro event status hs
    have hreports := step_reports (c := c) hkept.idle event
    have hstatus := hreports.truthful status hs
    rw [←hreports.same.status] at hstatus
    obtain ⟨session,hsome,hmade⟩ := Option.map_eq_some_iff.mp hstatus
    refine ⟨session,hsome,?_,?_,?_,?_⟩
    · rw [←hmade]
      rfl
    · rw [←hmade]
      rfl
    · rw [←hmade]
      rfl
    · intro result
      have hmap : status.result=(matchedSlot session (next c (run (next c) {} events) event)).map statusResult := by
        rw [←hmade]
        rfl
      rw [hmap,Option.map_eq_some_iff]
      constructor
      · rintro ⟨held,hmatched,hresult⟩
        obtain ⟨hzero,hheld,hsame⟩ := (matchedSlot_iff (step_kept hkept event)).mp hmatched
        exact ⟨held,hzero,hheld,hsame,hresult.symm⟩
      · rintro ⟨held,hzero,hheld,hsame,hresult⟩
        exact ⟨held,(matchedSlot_iff (step_kept hkept event)).mpr ⟨hzero,hheld,hsame⟩,hresult.symm⟩
  · intro held more hzero hheld hsame helse
    rw [run_append]
    exact run_protects hkept hzero hheld hsame helse
  · intro earlier later message now hstop he hl hzero houtcome hshort hne hneLater
    obtain ⟨kept,hnoted⟩ := keepResult_noted hkept.apart hshort
    have hsame := (step_reports (c := c) hkept.idle (.result message now)).same
    have hstate : noted c (run (next c) {} events) (.result message now)=keepResult message (run (next c) {} events) := by
      rw [noted,if_neg]
      simp [hstop,hzero,houtcome]
    rw [hsame.earlier,hsame.later,hstate,hnoted.state]
    exact ⟨hkept.ordered earlier later he hl,rfl,hnoted.oldest earlier later he hl hne hneLater⟩
  · intro event now hhandled ho hsome hnew
    have hpublishes := step_publishes (c := c) hhandled
    have hreports := step_reports (c := c) hkept.idle event
    rw [hsession] at hsome
    rw [←hshown,←noted_lastTuple (c := c) event,hreports.same.tuple] at hnew
    obtain ⟨status,hstatus,hlist⟩ := hpublishes.changed (hopen ho) hsome hnew
    refine ⟨status,hlist,?_⟩
    rw [hreports.same.tuple,←shown_current,hstatus]
    rfl
  · intro event now more hhandled ho hsome hquiet
    have hpublishes := step_publishes (c := c) hhandled
    rw [hsession] at hsome
    have hcurrent := hpublishes.current (hopen ho) hsome
    rw [←hshown,run_append,run_cons]
    exact run_quiet (step_kept hkept event) hcurrent hquiet
  · intro more now hnone
    have hseen := (run_source (c := c) hkept hnone).2
    unfold sourceFreshLocked
    rw [run_append,hseen]

end Observation

end Ros1Adapter.ResetObservation
