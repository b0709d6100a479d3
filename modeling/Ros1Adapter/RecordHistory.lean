import Ros1Adapter.RecordFacts

/-!
# Recorded facts form a history of each producer

Whatever messages arrive, in whatever order, the reports of one producer are
recorded with increasing numbers, and the validity of each is ended once, by
the next report of the same producer. A refused message changes no earlier
fact, and a seal keeps the list as it is.
-/

namespace Ros1Adapter.RecordHistory

open ActionRules SceneJson RecordFacts

variable {lib : Library}

/-- The part of the state that the facts rest on. -/
def view (s : State) : List Event × (Key → Option ℕ) × Bool := (s.events,s.producers,s.isSealed)

/-- A step that adds at most one fact that is no report. -/
structure Quiet (s t : State) : Prop where
  /-- References stay. -/
  producers : t.producers=s.producers
  /-- A seal stays. -/
  isSealed : s.isSealed=true → t.isSealed=true
  /-- Facts stay, and one more may follow. -/
  events : t.events=s.events ∨ (s.isSealed=false ∧ s.events.length < maxEvents ∧
    ∃ body, (∀ report, body≠.producer report) ∧ t.events=s.events ++ [⟨s.events.length,body⟩])

/-- A step outside the facts. -/
theorem quiet_of_view {s t : State} (h : view t=view s) : Quiet s t := by
  have events : t.events=s.events := congrArg (fun v => v.1) h
  have producers : t.producers=s.producers := congrArg (fun v => v.2.1) h
  have isSealed : t.isSealed=s.isSealed := congrArg (fun v => v.2.2) h
  exact ⟨producers,fun given => by rw [isSealed,given],Or.inl events⟩

/-- A quiet step between steps outside the facts. -/
theorem Quiet.congr {s s' t t' : State} (h : Quiet s t) (hs : view s=view s') (ht : view t'=view t) : Quiet s' t' := by
  have events : t'.events=t.events := congrArg (fun v => v.1) ht
  have producers : t'.producers=t.producers := congrArg (fun v => v.2.1) ht
  have isSealed : t'.isSealed=t.isSealed := congrArg (fun v => v.2.2) ht
  have events' : s.events=s'.events := congrArg (fun v => v.1) hs
  have producers' : s.producers=s'.producers := congrArg (fun v => v.2.1) hs
  have isSealed' : s.isSealed=s'.isSealed := congrArg (fun v => v.2.2) hs
  constructor
  · rw [producers,h.producers,producers']
  · rw [isSealed,← isSealed']
    exact h.isSealed
  · rw [events,← events',← isSealed']
    exact h.events

/-- Keeping a payload leaves the facts as they are. -/
theorem store_view (lib : Library) (disk : Disk) (data : List UInt8) (label suffix : String) :
    Preserves view (store lib disk data label suffix) := by
  unfold store
  refine preserves_ite (preserves_throw _ _) ((preserves_get _).bind fun s => preserves_ite (preserves_throw _ _) ?_)
  refine (preserves_ofResult _ _).bind fun _ => preserves_ite ?_ (preserves_pure _ _)
  exact preserves_modify_bind (fun _ => rfl) (fun _ => preserves_pure _ _)

/-- A fact that is no report is added quietly. -/
theorem append_quiet {s t : State} {body : Body} {place : Option ℕ} (h : ∀ report, body≠.producer report)
    (added : s.append body=(t,place)) : Quiet s t := by
  unfold State.append at added
  split at added
  · cases added
    exact quiet_of_view rfl
  · next unsealed =>
    split at added
    · cases added
      exact quiet_of_view rfl
    · next room =>
      cases added
      exact ⟨rfl,id,Or.inr ⟨by simpa using unsealed,by omega,body,h,rfl⟩⟩

/-- A missing source is recorded quietly. -/
theorem unavailable_quiet (s : State) (kind source reason : String) (clock : Json) :
    Quiet s (s.unavailable kind source reason clock) := by
  unfold State.unavailable
  split
  · exact quiet_of_view rfl
  · split
    · next added => exact append_quiet (by simp) added
    · next added => exact (append_quiet (by simp) added).congr rfl rfl

/-- A sample is recorded quietly, and a failure leaves the facts as they are. -/
theorem observation_quiet (lib : Library) (disk : Disk) (kind source : String) (value observed : Json) (s : State) :
    Meets (observation lib disk kind source value observed) s (fun _ t => Quiet s t) (fun _ t => view t=view s) := by
  unfold observation
  rw [meets_bind,meets_ofResult]
  refine ⟨fun data _ => ?_,fun e _ => rfl⟩
  rw [meets_bind,meets_get,meets_ite]
  refine ⟨fun _ => quiet_of_view rfl,fun _ => ?_⟩
  rw [meets_bind]
  refine ((store_view lib disk data (kind ++ "-" ++ source) ".json").meets s).mono (fun content t kept => ?_)
    (fun _ t kept => kept)
  rw [meets_modify]
  split
  · next added => exact (append_quiet (by simp) added).congr kept rfl
  · next added => exact (append_quiet (by simp) added).congr kept rfl

/-- A declared file is recorded quietly. -/
theorem file_quiet (read : FileRead) (disk : Disk) (kind source suffix : String) (clock : Json) (s : State) :
    Quiet s (file lib read disk kind source suffix clock s) := by
  unfold file
  split
  · exact unavailable_quiet s ..
  · next data _ =>
    dsimp only
    split
    · exact quiet_of_view rfl
    · have kept := store_view lib disk data (kind ++ "-" ++ source) suffix s
      split
      · next result =>
        rw [result] at kept
        exact (unavailable_quiet _ kind source _ clock).congr kept rfl
      · next content t result =>
        rw [result] at kept
        split
        · next added => exact (append_quiet (by simp) added).congr kept rfl
        · next added => exact (append_quiet (by simp) added).congr kept rfl

/-- A parameter is recorded quietly. -/
theorem parameter_quiet (read : ParameterRead) (disk : Disk) (name : String) (clock : Json) (s : State) :
    Quiet s (parameter lib read disk name clock s) := by
  unfold parameter
  split
  · exact unavailable_quiet s ..
  · exact unavailable_quiet s ..
  · next value =>
    have sampled := observation_quiet lib disk "parameter" name value clock s
    split
    · next result => exact (sampled.returned result).congr rfl rfl
    · next result => exact (unavailable_quiet _ "parameter" name _ clock).congr (sampled.thrown result) rfl

/-- The list with a new report, settled. -/
def recordedEvents (events : List Event) (message : Message) (content : Content) (observed : Json)
    (previous : Option (ℕ × Report)) : List Event :=
  settle (events ++ [⟨events.length,.producer (newReport message content observed previous)⟩]) events.length message previous

/-- A report was recorded. -/
structure Recorded (s t : State) (message : Message) (content : Content) (observed : Json) : Prop where
  /-- The list was not sealed. -/
  unsealed : s.isSealed=false
  /-- It had room. -/
  room : s.events.length < maxEvents
  /-- The previous report has a smaller number. -/
  newer : ∀ place before, s.previous message.key=some (place,before) → before.sequence < message.sequence
  /-- The report follows, and the previous one ends. -/
  events : t.events=recordedEvents s.events message content observed (s.previous message.key)
  /-- The report becomes the producer's last one. -/
  producers : t.producers=Function.update s.producers message.key (some s.events.length)
  /-- The list is not sealed. -/
  isSealed : t.isSealed=false

/-- A report is recorded, or the facts stay. -/
theorem record_cases {s t : State} (message : Message) (content : Content) (observed : Json) (kept : view t=view s)
    (newer : ∀ place before, s.previous message.key=some (place,before) → before.sequence < message.sequence) :
    (view (t.record message content observed (s.previous message.key))=view s ∧
      (s.isSealed=true ∨ maxEvents ≤ s.events.length)) ∨
      Recorded s (t.record message content observed (s.previous message.key)) message content observed := by
  have events : t.events=s.events := congrArg (fun v => v.1) kept
  have producers : t.producers=s.producers := congrArg (fun v => v.2.1) kept
  have isSealed : t.isSealed=s.isSealed := congrArg (fun v => v.2.2) kept
  unfold State.record State.append
  split
  · next u added =>
    split at added
    · next closed =>
      cases added
      exact Or.inl ⟨kept,Or.inl (isSealed ▸ closed)⟩
    · split at added
      · next full =>
        cases added
        exact Or.inl ⟨kept,Or.inr (events ▸ full)⟩
      · cases added
  · next u place added =>
    split at added
    · cases added
    · next unsealed =>
      split at added
      · cases added
      · next room =>
        cases added
        rw [isSealed] at unsealed
        rw [events] at room
        refine Or.inr ⟨by simpa using unsealed,by omega,newer,?_,?_,?_⟩
        · show settle (t.events ++ _) t.events.length message _=_
          rw [events]
          rfl
        · show Function.update t.producers message.key (some t.events.length)=_
          rw [events,producers]
        · show t.isSealed=false
          rw [isSealed]
          simpa using unsealed

/-- A report's message is recorded, dropped or refused. -/
theorem producer_cases (lib : Library) (disk : Disk) (text : String) (observed : Json) (s : State) :
    Meets (producer lib disk text observed) s
      (fun _ t => view t=view s ∨ ∃ message content u, readMessage lib text=.ok message ∧
        store lib disk text.toUTF8.data.toList ("application-" ++ message.key.kind) ".json" s=.ok content u ∧
        Recorded s t message content observed)
      (fun _ t => view t=view s) := by
  unfold producer
  rw [meets_bind,meets_ofResult]
  refine ⟨fun message read => ?_,fun _ _ => rfl⟩
  have kept := store_view lib disk text.toUTF8.data.toList ("application-" ++ message.key.kind) ".json" s
  cases stored : store lib disk text.toUTF8.data.toList ("application-" ++ message.key.kind) ".json" s with
  | error failure t =>
    rw [stored] at kept
    unfold Meets
    rw [bind_of_error stored]
    exact kept
  | ok content t =>
    rw [stored] at kept
    have previous : t.previous message.key=s.previous message.key := by
      have events : t.events=s.events := congrArg (fun v => v.1) kept
      have producers : t.producers=s.producers := congrArg (fun v => v.2.1) kept
      unfold State.previous
      rw [events,producers]
    unfold Meets
    rw [bind_of_ok stored]
    refine (meets_bind get _ t _ _).mpr ?_
    rw [meets_get,previous]
    have recorded := record_cases message content observed kept
    split
    · next place before found =>
      rw [meets_ite]
      refine ⟨fun _ => Or.inl kept,fun _ => ?_⟩
      rw [meets_ite]
      refine ⟨fun _ => kept,fun larger => ?_⟩
      rw [meets_modify]
      rw [found] at recorded
      rcases recorded (by rintro _ _ ⟨⟩; omega) with ⟨same,_⟩ | done
      · exact Or.inl same
      · exact Or.inr ⟨message,content,t,read,stored,done⟩
    · next absent =>
      rw [meets_modify]
      rw [absent] at recorded
      rcases recorded nofun with ⟨same,_⟩ | done
      · exact Or.inl same
      · exact Or.inr ⟨message,content,t,read,stored,done⟩

/-- Work on a message records one report, or is quiet. -/
theorem processMessage_cases (lib : Library) (disk : Disk) (clock : Json) (s : State) :
    Quiet s (processMessage lib disk clock s) ∨ ∃ source text observed rest message content u,
      s.messages=Queued.producer source text observed::rest ∧ readMessage lib text=.ok message ∧
      store lib disk text.toUTF8.data.toList ("application-" ++ message.key.kind) ".json" {s with messages := rest}=
        .ok content u ∧
      Recorded s (processMessage lib disk clock s) message content observed := by
  unfold processMessage
  split
  · exact Or.inl (quiet_of_view rfl)
  · next queued rest waiting =>
    cases queued with
    | producer source text observed =>
      have spec := producer_cases lib disk text observed {s with messages := rest}
      split
      · next t result =>
        rcases spec.returned result with kept | ⟨message,content,u,read,stored,done⟩
        · exact Or.inl (quiet_of_view kept)
        · exact Or.inr ⟨source,text,observed,rest,message,content,u,waiting,read,stored,
            ⟨done.unsealed,done.room,done.newer,done.events,done.producers,done.isSealed⟩⟩
      · next failure t result => exact Or.inl ((unavailable_quiet t ..).congr (spec.thrown result) rfl)
    | unavailable source reason =>
      left
      split
      · next t result =>
        cases result
        exact (unavailable_quiet {s with messages := rest} "observer" source reason clock).congr rfl rfl
      · next result => cases result
    | observation kind source value observed =>
      left
      have spec := observation_quiet lib disk kind source value observed {s with messages := rest}
      split
      · next t result => exact (spec.returned result).congr rfl rfl
      · next failure t result => exact (unavailable_quiet t ..).congr (spec.thrown result) rfl

/-- Every action records one report, or is quiet. -/
theorem step_cases (lib : Library) (s : State) (action : Action) :
    Quiet s (step lib s action) ∨ ∃ message content observed, Recorded s (step lib s action) message content observed := by
  cases action with
  | enqueue message =>
    left
    apply quiet_of_view
    show view (enqueue s message)=view s
    unfold enqueue
    split
    · rfl
    · split <;> rfl
  | process disk clock =>
    rcases processMessage_cases lib disk clock s with quiet | ⟨_,_,observed,_,message,content,_,_,_,_,done⟩
    · exact Or.inl quiet
    · exact Or.inr ⟨message,content,observed,done⟩
  | file read disk kind source suffix clock => exact Or.inl (file_quiet read disk kind source suffix clock s)
  | parameter read disk name clock => exact Or.inl (parameter_quiet read disk name clock s)
  | pollFailed type clock => exact Or.inl (unavailable_quiet s ..)
  | snapshot =>
    left
    apply quiet_of_view
    show view (snapshot s)=view s
    unfold snapshot
    split <;> rfl
  | close => exact Or.inl (quiet_of_view rfl)
  | sealed clock stillRunning =>
    left
    show Quiet s (sealFacts clock stillRunning s)
    unfold sealFacts snapshot
    split
    · exact ⟨rfl,fun _ => rfl,Or.inl rfl⟩
    · exact ⟨rfl,fun _ => rfl,Or.inl rfl⟩

section Edits

/-- An edit changes the report at its place. -/
theorem reportAt_edit (events : List Event) (place i : ℕ) (edit : Report → Report) :
    reportAt (editReport events place edit) i=if i=place then (reportAt events i).map edit else reportAt events i := by
  unfold reportAt editReport
  rw [List.getElem?_modify]
  cases events[i]? with
  | none => simp
  | some event =>
    obtain ⟨ordinal,body⟩ := event
    by_cases here : i=place
    · rw [here]
      cases body <;> simp
    · cases body <;> simp [here,Ne.symm here]

/-- An edit keeps the numbers. -/
theorem ordinals_edit (events : List Event) (place : ℕ) (edit : Report → Report) :
    (editReport events place edit).map Event.ordinal=events.map Event.ordinal := by
  apply List.ext_getElem?
  intro i
  unfold editReport
  rw [List.getElem?_map,List.getElem?_map,List.getElem?_modify]
  cases events[i]? with
  | none => simp
  | some event =>
    obtain ⟨ordinal,body⟩ := event
    cases body <;> by_cases here : place=i <;> simp [here]

/-- Settling keeps the numbers. -/
theorem ordinals_settle (events : List Event) (place : ℕ) (message : Message) (previous : Option (ℕ × Report)) :
    (settle events place message previous).map Event.ordinal=events.map Event.ordinal := by
  have ended : (endPrevious events message previous).map Event.ordinal=events.map Event.ordinal := by
    unfold endPrevious
    split
    · split
      · rw [ordinals_edit]
      · rfl
    · rfl
  unfold settle
  split
  · rw [ordinals_edit,ended]
  · exact ended

/-- A report beyond the list. -/
theorem reportAt_lt {events : List Event} {i : ℕ} {report : Report} (h : reportAt events i=some report) :
    i < events.length := by
  by_contra outside
  unfold reportAt at h
  rw [List.getElem?_eq_none (by omega)] at h
  cases h

/-- The reports of a longer list. -/
theorem reportAt_append (events : List Event) (event : Event) (i : ℕ) :
    reportAt (events ++ [event]) i=
      if i=events.length then reportAt [event] 0 else reportAt events i := by
  unfold reportAt
  by_cases last : i=events.length
  · rw [if_pos last,last,List.getElem?_concat_length]
    rfl
  · rw [if_neg last]
    by_cases inside : i < events.length
    · rw [List.getElem?_append_left inside]
    · have short : (events ++ [event]).length ≤ i := by
        rw [List.length_append,List.length_singleton]
        omega
      rw [List.getElem?_eq_none short,List.getElem?_eq_none (by omega)]

end Edits

/-- The next report of a producer after a place. -/
structure Next (events : List Event) (i : ℕ) (key : Key) (j : ℕ) (next : Report) : Prop where
  /-- It comes later. -/
  later : i < j
  /-- It is a report. -/
  found : reportAt events j=some next
  /-- It is of the producer. -/
  same : next.key=key
  /-- Nothing of the producer comes between. -/
  nearest : ∀ k between, i < k → k < j → reportAt events k=some between → between.key≠key

/-- The place of the last report of a producer. -/
structure IsLast (events : List Event) (key : Key) (i : ℕ) (report : Report) : Prop where
  /-- It is a report. -/
  found : reportAt events i=some report
  /-- It is of the producer. -/
  same : report.key=key
  /-- No report of the producer comes later. -/
  last : ∀ j other, reportAt events j=some other → other.key=key → j ≤ i

/-- The next message is the following one, and neither the monotonic clock nor the ROS clock went back. -/
def Continues (before after : Message) : Prop :=
  after.sequence=before.sequence+1 ∧
    timeAt before.effectiveAt "monotonicTimeNs" ≤ timeAt after.effectiveAt "monotonicTimeNs" ∧
    timeAt before.effectiveAt "rosTimeNs" ≤ timeAt after.effectiveAt "rosTimeNs"

/-- Why a message does not continue the one before it. -/
def Breaks (before after : Message) (continuity : Continuity) : Prop :=
  (continuity=.sequenceGap ∧ after.sequence≠before.sequence+1) ∨
    (continuity=.producerClockRegression ∧
      timeAt after.effectiveAt "monotonicTimeNs" < timeAt before.effectiveAt "monotonicTimeNs") ∨
    (continuity=.rosClockRegression ∧ timeAt after.effectiveAt "rosTimeNs" < timeAt before.effectiveAt "rosTimeNs")

/-- A validity that the next message ended. -/
structure EndedBy (report : Report) (next : Message) (validity : Validity) : Prop where
  /-- It begins with the report. -/
  start : validity.start=report.effectiveAt
  /-- The following message gives it an end time. -/
  continued : Continues report.toMessage next →
    validity.finish=some next.effectiveAt ∧ validity.endReason=.next next.event
  /-- Otherwise it has none, and its end names the gap or the clock. -/
  broken : ¬Continues report.toMessage next →
    validity.finish=none ∧ ∃ continuity, validity.endReason=.broken continuity ∧ Breaks report.toMessage next continuity

/-- The validity of a report is what the later reports of its producer make of it. -/
structure Settled (events : List Event) (i : ℕ) (report : Report) : Prop where
  /-- A stop has no validity. -/
  stopped : report.event=.stopped → report.validity=none
  /-- The next report ends an application. -/
  ended : report.event=.applied → ∀ j next, Next events i report.key j next →
    ∃ validity, report.validity=some validity ∧ EndedBy report next.toMessage validity
  /-- An application without a next report has no end yet. -/
  unended : report.event=.applied → IsLast events report.key i report →
    report.validity=some (openValidity report.toMessage)

/-- Facts that form a history of each producer. -/
structure History (events : List Event) : Prop where
  /-- Every fact is numbered by its place. -/
  ordinals : events.map Event.ordinal=List.range events.length
  /-- There are not too many. -/
  bounded : events.length ≤ maxEvents
  /-- The numbers of a producer's reports increase. -/
  increasing : ∀ i j first second, reportAt events i=some first → reportAt events j=some second →
    first.key=second.key → i < j → first.sequence < second.sequence
  /-- Every report is settled. -/
  settled : ∀ i report, reportAt events i=some report → Settled events i report

/-- Facts with references to the last report of each producer. -/
structure Consistent (s : State) : Prop where
  /-- The facts form a history. -/
  history : History s.events
  /-- A reference names the last report. -/
  referred : ∀ key place, s.producers key=some place → ∃ report, IsLast s.events key place report
  /-- Without a reference there is no report. -/
  unreferred : ∀ key, s.producers key=none → ∀ i report, reportAt s.events i=some report → report.key≠key

/-- The empty list is a history. -/
theorem newFacts_consistent (clock : Json) : Consistent (newFacts clock) := by
  have empty : ∀ i, reportAt (newFacts clock).events i=none := fun i => by simp [reportAt,newFacts,State.events]
  have absent : ∀ i report, reportAt (newFacts clock).events i≠some report := by
    intro i report found
    rw [empty] at found
    cases found
  refine ⟨⟨rfl,Nat.zero_le _,?_,?_⟩,?_,?_⟩
  · exact fun i j first second found => absurd found (absent i first)
  · exact fun i report found => absurd found (absent i report)
  · intro key place given
    cases given
  · exact fun key _ i report found => absurd found (absent i report)

/-- The numbers after one more fact. -/
theorem ordinals_append {events : List Event} (h : events.map Event.ordinal=List.range events.length) (body : Body) :
    (events ++ [(⟨events.length,body⟩ : Event)]).map Event.ordinal=List.range (events.length+1) := by
  rw [List.map_append,h,List.range_succ]
  rfl

/-- Facts with the same reports settle alike. -/
theorem settled_congr {events events' : List Event} (same : ∀ i, reportAt events' i=reportAt events i) {i : ℕ}
    {report : Report} (h : Settled events i report) : Settled events' i report := by
  refine ⟨h.stopped,fun applied j next after => ?_,fun applied last => ?_⟩
  · refine h.ended applied j next ⟨after.later,by rw [← same,after.found],after.same,fun k between low high found => ?_⟩
    exact after.nearest k between low high (by rw [same,found])
  · refine h.unended applied ⟨by rw [← same,last.found],last.same,fun j other found => ?_⟩
    exact last.last j other (by rw [same,found])

/-- Consistency depends on the reports, the numbers and the references only. -/
theorem Consistent.same {s t : State} (h : Consistent s) (ordinals : t.events.map Event.ordinal=List.range t.events.length)
    (bounded : t.events.length ≤ maxEvents) (same : ∀ i, reportAt t.events i=reportAt s.events i)
    (producers : t.producers=s.producers) : Consistent t := by
  refine ⟨⟨ordinals,bounded,fun i j first second hi hj => ?_,fun i report found => ?_⟩,fun key place given => ?_,
    fun key given i report found => ?_⟩
  · exact h.history.increasing i j first second (by rw [← same,hi]) (by rw [← same,hj])
  · exact settled_congr same (h.history.settled i report (by rw [← same,found]))
  · rw [producers] at given
    obtain ⟨report,last⟩ := h.referred key place given
    exact ⟨report,by rw [same,last.found],last.same,fun j other found => last.last j other (by rw [← same,found])⟩
  · rw [producers] at given
    exact h.unreferred key given i report (by rw [← same,found])

/-- Quiet steps keep a history. -/
theorem quiet_consistent {s t : State} (h : Consistent s) (quiet : Quiet s t) : Consistent t := by
  rcases quiet.events with same | ⟨_,room,body,other,added⟩
  · refine h.same ?_ ?_ (fun i => by rw [same]) quiet.producers
    · rw [same]
      exact h.history.ordinals
    · rw [same]
      exact h.history.bounded
  · refine h.same ?_ ?_ (fun i => ?_) quiet.producers
    · rw [added,ordinals_append h.history.ordinals,List.length_append]
      rfl
    · rw [added,List.length_append]
      exact room
    · rw [added,reportAt_append]
      split
      · next last =>
        have beyond : reportAt s.events i=none := by
          cases found : reportAt s.events i with
          | none => rfl
          | some report =>
            have := reportAt_lt found
            omega
        rw [beyond]
        cases body with
        | producer report => exact absurd rfl (other report)
        | snapshot | unavailable => rfl
      · rfl

/-- A report ended by a message that follows it. -/
def endedReport (before : Report) (message : Message) : Report :=
  {before with validity := before.validity.map (endValidity message (continuityAfter before.toMessage message))}

/-- A new report as it stays in the list. -/
def settledReport (message : Message) (content : Content) (observed : Json) (previous : Option (ℕ × Report)) : Report :=
  {newReport message content observed previous with
    validity := if message.event=.stopped then none else some (openValidity message)}

section Recording

variable {events : List Event} {message : Message} {content : Content} {observed : Json}
  {previous : Option (ℕ × Report)}

/-- Only the previous report ends. -/
theorem reportAt_endPrevious (i : ℕ) (other : ∀ before, previous=some (i,before) → before.event≠.applied) :
    reportAt (endPrevious events message previous) i=reportAt events i := by
  unfold endPrevious
  split
  · next last before =>
    split
    · next applied =>
      rw [reportAt_edit,if_neg]
      intro here
      exact other before (by rw [here]) applied
    · rfl
  · rfl

/-- The new report is at the end. -/
theorem recorded_new (inside : ∀ place before, previous=some (place,before) → reportAt events place=some before) :
    reportAt (recordedEvents events message content observed previous) events.length=
      some (settledReport message content observed previous) := by
  have added : reportAt (endPrevious (events ++ [⟨events.length,.producer (newReport message content observed previous)⟩])
      message previous) events.length=some (newReport message content observed previous) := by
    rw [reportAt_endPrevious,reportAt_append,if_pos rfl]
    · rfl
    · intro before given
      have := reportAt_lt (inside _ before given)
      omega
  unfold recordedEvents settle settledReport
  split
  · rw [reportAt_edit,if_pos rfl,added]
    rfl
  · rw [added]
    rfl

/-- The stop's own edit concerns the new report only. -/
theorem recorded_before {i : ℕ} (old : i≠events.length) :
    reportAt (recordedEvents events message content observed previous) i=
      reportAt (endPrevious (events ++ [⟨events.length,.producer (newReport message content observed previous)⟩])
        message previous) i := by
  unfold recordedEvents settle
  split
  · rw [reportAt_edit,if_neg old]
  · rfl

/-- The report that the message ends. -/
theorem recorded_ended {last : ℕ} {before : Report} (given : previous=some (last,before))
    (inside : reportAt events last=some before) (applied : before.event=.applied) :
    reportAt (recordedEvents events message content observed previous) last=some (endedReport before message) := by
  have low := reportAt_lt inside
  rw [recorded_before (by omega),given]
  unfold endPrevious
  dsimp only
  rw [if_pos applied,reportAt_edit,if_pos rfl,reportAt_append,if_neg (by omega),inside]
  rfl

/-- The other reports stay. -/
theorem recorded_other {i : ℕ} (old : i≠events.length)
    (other : ∀ before, previous=some (i,before) → before.event≠.applied) :
    reportAt (recordedEvents events message content observed previous) i=reportAt events i := by
  rw [recorded_before old,reportAt_endPrevious i other,reportAt_append,if_neg old]

/-- Earlier reports keep their messages. -/
theorem recorded_message (inside : ∀ place before, previous=some (place,before) → reportAt events place=some before)
    {i : ℕ} (old : i≠events.length) :
    (reportAt (recordedEvents events message content observed previous) i).map Report.toMessage=
      (reportAt events i).map Report.toMessage := by
  by_cases other : ∀ before, previous=some (i,before) → before.event≠.applied
  · rw [recorded_other old other]
  · push Not at other
    obtain ⟨before,given,applied⟩ := other
    rw [recorded_ended given (inside i before given) applied,inside i before given]
    rfl

end Recording

/-- The previous report is the last one of its producer. -/
theorem previous_isLast {s : State} (h : Consistent s) {key : Key} {place : ℕ} {before : Report}
    (given : s.previous key=some (place,before)) : IsLast s.events key place before := by
  unfold State.previous at given
  split at given
  · next found referred =>
    obtain ⟨report,last⟩ := h.referred key found referred
    rw [last.found] at given
    cases given
    exact last
  · cases given

/-- Without a previous report the producer is new. -/
theorem previous_none {s : State} (h : Consistent s) {key : Key} (given : s.previous key=none) :
    ∀ i report, reportAt s.events i=some report → report.key≠key := by
  unfold State.previous at given
  split at given
  · next found referred =>
    obtain ⟨report,last⟩ := h.referred key found referred
    rw [last.found] at given
    cases given
  · next unreferred => exact h.unreferred key unreferred

/-- The next report ends a validity as it follows it. -/
theorem ended_by {before : Report} (unended : before.validity=some (openValidity before.toMessage)) (message : Message) :
    ∃ validity, (endedReport before message).validity=some validity ∧ EndedBy (endedReport before message) message validity := by
  refine ⟨endValidity message (continuityAfter before.toMessage message) (openValidity before.toMessage),?_,?_⟩
  · unfold endedReport
    rw [unended]
    rfl
  · refine ⟨?_,fun continues => ?_,fun broken => ?_⟩
    · unfold endValidity
      split <;> rfl
    · unfold endValidity continuityAfter
      obtain ⟨following,monotonic,ros⟩ := continues
      have following : message.sequence=before.sequence+1 := following
      have monotonic : ¬timeAt message.effectiveAt "monotonicTimeNs" < timeAt before.effectiveAt "monotonicTimeNs" :=
        Nat.not_lt.mpr monotonic
      have ros : ¬timeAt message.effectiveAt "rosTimeNs" < timeAt before.effectiveAt "rosTimeNs" := Nat.not_lt.mpr ros
      rw [if_pos following,if_neg monotonic,if_neg ros]
      exact ⟨rfl,rfl⟩
    · unfold endValidity continuityAfter
      by_cases following : message.sequence=before.sequence+1
      · rw [if_pos following]
        by_cases monotonic : timeAt message.effectiveAt "monotonicTimeNs" < timeAt before.effectiveAt "monotonicTimeNs"
        · rw [if_pos monotonic]
          exact ⟨rfl,.producerClockRegression,rfl,Or.inr (Or.inl ⟨rfl,monotonic⟩)⟩
        · rw [if_neg monotonic]
          by_cases ros : timeAt message.effectiveAt "rosTimeNs" < timeAt before.effectiveAt "rosTimeNs"
          · rw [if_pos ros]
            exact ⟨rfl,.rosClockRegression,rfl,Or.inr (Or.inr ⟨rfl,ros⟩)⟩
          · exact absurd ⟨following,Nat.not_lt.mp monotonic,Nat.not_lt.mp ros⟩ broken
      · rw [if_neg following]
        exact ⟨rfl,.sequenceGap,rfl,Or.inl ⟨rfl,following⟩⟩

section Step

variable {s t : State} {message : Message} {content : Content} {observed : Json}

/-- Earlier reports keep their messages through a recording. -/
theorem recorded_messages (h : Consistent s) (done : Recorded s t message content observed) {i : ℕ}
    (old : i≠s.events.length) :
    (reportAt t.events i).map Report.toMessage=(reportAt s.events i).map Report.toMessage := by
  rw [done.events]
  exact recorded_message (fun place before given => (previous_isLast h given).found) old

/-- A report that is not new was there before. -/
theorem recorded_old (h : Consistent s) (done : Recorded s t message content observed) {i : ℕ} {report : Report}
    (old : i≠s.events.length) (found : reportAt t.events i=some report) :
    ∃ earlier, reportAt s.events i=some earlier ∧ report.toMessage=earlier.toMessage := by
  have kept := recorded_messages h done old
  rw [found] at kept
  cases earlier : reportAt s.events i with
  | none =>
    rw [earlier] at kept
    cases kept
  | some before =>
    rw [earlier] at kept
    exact ⟨before,rfl,Option.some.inj kept⟩

/-- A report that was there is still there. -/
theorem recorded_still (h : Consistent s) (done : Recorded s t message content observed) {i : ℕ} {earlier : Report}
    (found : reportAt s.events i=some earlier) :
    ∃ report, reportAt t.events i=some report ∧ report.toMessage=earlier.toMessage := by
  have low := reportAt_lt found
  have kept := recorded_messages h done (show i≠s.events.length by omega)
  rw [found] at kept
  cases later : reportAt t.events i with
  | none =>
    rw [later] at kept
    cases kept
  | some report =>
    rw [later] at kept
    exact ⟨report,rfl,Option.some.inj kept⟩

/-- The new report is at the end of the list. -/
theorem recorded_last (h : Consistent s) (done : Recorded s t message content observed) :
    reportAt t.events s.events.length=some (settledReport message content observed (s.previous message.key)) := by
  rw [done.events]
  exact recorded_new (fun place before given => (previous_isLast h given).found)

/-- The list has one more fact, and the numbers go on. -/
theorem recorded_ordinals (h : Consistent s) (done : Recorded s t message content observed) :
    t.events.map Event.ordinal=List.range (s.events.length+1) := by
  rw [done.events]
  unfold recordedEvents
  rw [ordinals_settle,ordinals_append h.history.ordinals]

/-- The list has one more fact. -/
theorem recorded_length (h : Consistent s) (done : Recorded s t message content observed) :
    t.events.length=s.events.length+1 := by
  have lengths := congrArg List.length (recorded_ordinals h done)
  rwa [List.length_map,List.length_range] at lengths

/-- The message's number is larger than those of its producer's earlier reports. -/
theorem recorded_newer (h : Consistent s) (done : Recorded s t message content observed) {i : ℕ} {earlier : Report}
    (found : reportAt s.events i=some earlier) (same : earlier.key=message.key) : earlier.sequence < message.sequence := by
  cases previous : s.previous message.key with
  | none => exact absurd same (previous_none h previous i earlier found)
  | some last =>
    obtain ⟨place,before⟩ := last
    have isLast := previous_isLast h previous
    have newer := done.newer place before previous
    rcases Nat.lt_or_eq_of_le (isLast.last i earlier found same) with low | here
    · have smaller := h.history.increasing i place earlier before found isLast.found (same.trans isLast.same.symm) low
      omega
    · rw [here,isLast.found] at found
      cases found
      exact newer

/-- A report that the message does not end stays settled. -/
theorem recorded_settled_other (h : Consistent s) (done : Recorded s t message content observed) {i : ℕ}
    {report : Report} (found : reportAt s.events i=some report)
    (other : ∀ before, s.previous message.key=some (i,before) → before.event≠.applied) :
    Settled t.events i report := by
  have before := h.history.settled i report found
  have low := reportAt_lt found
  have new := recorded_last h done
  refine ⟨before.stopped,fun applied j next after => ?_,fun applied last => ?_⟩
  · by_cases old : j=s.events.length
    · -- the new report can only follow the last one of its producer, and that one is ended elsewhere
      exfalso
      have shape := after.found
      rw [old,new] at shape
      cases shape
      have same : message.key=report.key := after.same
      cases previous : s.previous message.key with
      | none => exact previous_none h previous i report found same.symm
      | some pair =>
        obtain ⟨place,known⟩ := pair
        have isLast := previous_isLast h previous
        have bound := isLast.last i report found same.symm
        rcases Nat.lt_or_eq_of_le bound with between | here
        · have inside := reportAt_lt isLast.found
          obtain ⟨shown,still,kept⟩ := recorded_still h done isLast.found
          have key : shown.key=known.key := congrArg Message.key kept
          exact after.nearest place shown between (by omega) still (by rw [key,isLast.same,same])
        · have shown := isLast.found
          rw [← here,found] at shown
          cases shown
          exact other report (by rw [previous,here]) applied
    · obtain ⟨earlier,was,kept⟩ := recorded_old h done old after.found
      have key : next.key=earlier.key := congrArg Message.key kept
      have nearest : Next s.events i report.key j earlier := by
        refine ⟨after.later,was,by rw [← key,after.same],fun k between above below there => ?_⟩
        obtain ⟨shown,still,kept⟩ := recorded_still h done there
        have key : shown.key=between.key := congrArg Message.key kept
        exact key ▸ after.nearest k shown above below still
      rw [kept]
      exact before.ended applied j earlier nearest
  · refine before.unended applied ⟨found,rfl,fun j next there same => ?_⟩
    obtain ⟨shown,still,kept⟩ := recorded_still h done there
    have key : shown.key=next.key := congrArg Message.key kept
    exact last.last j shown still (by rw [key,same])

/-- The report that the message ends is settled. -/
theorem recorded_settled_ended (h : Consistent s) (done : Recorded s t message content observed) {i : ℕ}
    {before : Report} (previous : s.previous message.key=some (i,before)) (applied : before.event=.applied) :
    Settled t.events i (endedReport before message) := by
  have isLast := previous_isLast h previous
  have low := reportAt_lt isLast.found
  have same : before.key=message.key := isLast.same
  have isLast_ : IsLast s.events before.key i before := by
    rw [same]
    exact isLast
  have unended := (h.history.settled i before isLast.found).unended applied isLast_
  refine ⟨fun stopped => ?_,fun _ j next after => ?_,fun _ last => ?_⟩
  · have stopped : before.event=.stopped := stopped
    rw [applied] at stopped
    cases stopped
  · have new : j=s.events.length := by
      by_contra old
      obtain ⟨earlier,was,kept⟩ := recorded_old h done old after.found
      have key : next.key=earlier.key := congrArg Message.key kept
      have key' : next.key=before.key := after.same
      have bound := isLast.last j earlier was (by rw [← key,key',same])
      have later := after.later
      omega
    have shape := after.found
    rw [new,recorded_last h done] at shape
    cases shape
    exact ended_by unended message
  · have bound := last.last s.events.length _ (recorded_last h done) same.symm
    omega

/-- Recording a report keeps a history. -/
theorem recorded_consistent (h : Consistent s) (done : Recorded s t message content observed) : Consistent t := by
  have new := recorded_last h done
  have length := recorded_length h done
  have room := done.room
  have below : ∀ i report, reportAt t.events i=some report → i ≤ s.events.length := by
    intro i report found
    have := reportAt_lt found
    omega
  refine ⟨⟨?_,by omega,fun i j first second hi hj same low => ?_,fun i report found => ?_⟩,fun key place given => ?_,
    fun key given i report found => ?_⟩
  · rw [length]
    exact recorded_ordinals h done
  · have high := below j second hj
    obtain ⟨earlier,was,kept⟩ := recorded_old h done (show i≠s.events.length by omega) hi
    have key : first.key=earlier.key := congrArg Message.key kept
    have sequence : first.sequence=earlier.sequence := congrArg Message.sequence kept
    rw [sequence]
    by_cases last : j=s.events.length
    · rw [last,new] at hj
      cases hj
      exact recorded_newer h done was (key.symm.trans same)
    · obtain ⟨earlier',was',kept'⟩ := recorded_old h done last hj
      have key' : second.key=earlier'.key := congrArg Message.key kept'
      have sequence' : second.sequence=earlier'.sequence := congrArg Message.sequence kept'
      rw [sequence']
      exact h.history.increasing i j earlier earlier' was was' (key.symm.trans (same.trans key')) low
  · by_cases last : i=s.events.length
    · rw [last,new] at found
      cases found
      refine ⟨fun stopped => ?_,fun _ j next after => ?_,fun applied _ => ?_⟩
      · exact if_pos stopped
      · have high := below j next after.found
        have later := after.later
        omega
      · refine if_neg fun stopped => ?_
        have applied : message.event=.applied := applied
        rw [applied] at stopped
        cases stopped
    · by_cases other : ∀ before, s.previous message.key=some (i,before) → before.event≠.applied
      · rw [done.events,recorded_other last other] at found
        exact recorded_settled_other h done found other
      · push Not at other
        obtain ⟨before,given,applied⟩ := other
        rw [done.events,recorded_ended given (previous_isLast h given).found applied] at found
        cases found
        exact recorded_settled_ended h done given applied
  · rw [done.producers] at given
    by_cases here : key=message.key
    · rw [here,Function.update_self] at given
      cases given
      exact ⟨_,new,here.symm,fun j other found _ => below j other found⟩
    · rw [Function.update_of_ne here] at given
      obtain ⟨report,last⟩ := h.referred key place given
      obtain ⟨shown,still,kept⟩ := recorded_still h done last.found
      have key_ : shown.key=report.key := congrArg Message.key kept
      refine ⟨shown,still,by rw [key_,last.same],fun j other found same => ?_⟩
      by_cases end_ : j=s.events.length
      · rw [end_,new] at found
        cases found
        exact absurd same.symm here
      · obtain ⟨earlier,was,kept⟩ := recorded_old h done end_ found
        have key_ : other.key=earlier.key := congrArg Message.key kept
        exact last.last j earlier was (by rw [← key_,same])
  · rw [done.producers] at given
    by_cases here : key=message.key
    · rw [here,Function.update_self] at given
      cases given
    · rw [Function.update_of_ne here] at given
      by_cases end_ : i=s.events.length
      · rw [end_,new] at found
        cases found
        exact fun same => here same.symm
      · obtain ⟨earlier,was,kept⟩ := recorded_old h done end_ found
        have key_ : report.key=earlier.key := congrArg Message.key kept
        rw [key_]
        exact h.unreferred key given i earlier was

end Step

/-- Every action keeps a history. -/
theorem step_consistent (lib : Library) {s : State} (h : Consistent s) (action : Action) : Consistent (step lib s action) := by
  rcases step_cases lib s action with quiet | ⟨message,content,observed,done⟩
  · exact quiet_consistent h quiet
  · exact recorded_consistent h done

/-- A fact at a later time: it is the same, or the open validity of an application ended. -/
def Later (event event' : Event) : Prop :=
  event'=event ∨ ∃ report validity, event=⟨event.ordinal,.producer report⟩ ∧ report.event=.applied ∧
    report.validity=some (openValidity report.toMessage) ∧ validity.endReason≠.notObserved ∧
    event'=⟨event.ordinal,.producer {report with validity := some validity}⟩

/-- Every fact of a list is kept in a later one. -/
def Extends (events events' : List Event) : Prop :=
  ∀ (i : ℕ) (event : Event), events[i]?=some event → ∃ event', events'[i]?=some event' ∧ Later event event'

/-- A validity that has ended never changes again. -/
theorem later_trans {first second third : Event} (h : Later first second) (h' : Later second third) :
    Later first third := by
  rcases h with same | ⟨report,validity,shape,applied,unended,reason,ended⟩
  · rw [← same]
    exact h'
  · rcases h' with same | ⟨report',validity',shape',_,unended',_,_⟩
    · rw [same]
      exact Or.inr ⟨report,validity,shape,applied,unended,reason,ended⟩
    · exfalso
      rw [ended] at shape'
      injection shape' with _ body
      injection body with body
      rw [← body] at unended'
      have same : validity=openValidity _ := Option.some.inj unended'
      rw [same] at reason
      exact reason rfl

/-- Lists extend each other one after the other. -/
theorem extends_trans {first second third : List Event} (h : Extends first second) (h' : Extends second third) :
    Extends first third := by
  intro i event found
  obtain ⟨event',found',later⟩ := h i event found
  obtain ⟨event'',found'',later'⟩ := h' i event' found'
  exact ⟨event'',found'',later_trans later later'⟩

/-- A list that begins with another one. -/
theorem extends_of_append (events rest : List Event) : Extends events (events ++ rest) := by
  intro i event found
  have inside : i < events.length := (List.getElem?_eq_some_iff.mp found).1
  exact ⟨event,by rw [List.getElem?_append_left inside,found],Or.inl rfl⟩

/-- An edit keeps the facts elsewhere. -/
theorem edit_elsewhere (events : List Event) {place i : ℕ} (edit : Report → Report) (other : i≠place) :
    (editReport events place edit)[i]?=events[i]? := by
  unfold editReport
  rw [List.getElem?_modify_ne _ _ (Ne.symm other)]

/-- A recording keeps the earlier facts, and ends at most one validity. -/
theorem recorded_extends {s t : State} {message : Message} {content : Content} {observed : Json} (h : Consistent s)
    (done : Recorded s t message content observed) : Extends s.events t.events := by
  intro i event found
  have inside : i < s.events.length := (List.getElem?_eq_some_iff.mp found).1
  have added : (s.events ++ [⟨s.events.length,.producer (newReport message content observed
      (s.previous message.key))⟩])[i]?=some event := by
    rw [List.getElem?_append_left inside,found]
  have ended : t.events[i]?=(endPrevious (s.events ++ [⟨s.events.length,.producer (newReport message content observed
      (s.previous message.key))⟩]) message (s.previous message.key))[i]? := by
    rw [done.events]
    unfold recordedEvents settle
    split
    · rw [edit_elsewhere _ _ (by omega)]
    · rfl
  rw [ended]
  cases previous : s.previous message.key with
  | none =>
    rw [previous] at added
    exact ⟨event,added,Or.inl rfl⟩
  | some pair =>
    obtain ⟨last,before⟩ := pair
    rw [previous] at added
    have isLast := previous_isLast h previous
    unfold endPrevious
    dsimp only
    split
    · next applied =>
      by_cases here : i=last
      · have unended := (h.history.settled last before isLast.found).unended applied
          (isLast.same.symm ▸ isLast)
        have report := isLast.found
        unfold reportAt at report
        rw [← here,found] at report
        split at report
        · next ordinal known shape =>
          cases report
          cases shape
          refine ⟨⟨ordinal,.producer (endedReport before message)⟩,?_,Or.inr ⟨before,endValidity message
            (continuityAfter before.toMessage message) (openValidity before.toMessage),rfl,applied,unended,?_,?_⟩⟩
          · unfold editReport
            rw [here] at added
            rw [here,List.getElem?_modify_eq,added]
            rfl
          · unfold endValidity
            split
            · intro clash
              cases clash
            · intro clash
              cases clash
          · unfold endedReport
            rw [unended]
            rfl
        · cases report
      · rw [edit_elsewhere _ _ here]
        exact ⟨event,added,Or.inl rfl⟩
    · exact ⟨event,added,Or.inl rfl⟩

/-- Every action keeps the earlier facts, and ends at most one validity. -/
theorem step_extends (lib : Library) {s : State} (h : Consistent s) (action : Action) : Extends s.events (step lib s action).events := by
  rcases step_cases lib s action with quiet | ⟨message,content,observed,done⟩
  · rcases quiet.events with same | ⟨_,_,body,_,added⟩
    · rw [same]
      exact fun i event found => ⟨event,found,Or.inl rfl⟩
    · rw [added]
      exact extends_of_append _ _
  · exact recorded_extends h done

/-- A sealed list stays as it is. -/
theorem step_sealed (lib : Library) {s : State} (h : s.isSealed=true) (action : Action) :
    (step lib s action).events=s.events ∧ (step lib s action).producers=s.producers ∧
      (step lib s action).isSealed=true := by
  rcases step_cases lib s action with quiet | ⟨message,content,observed,done⟩
  · rcases quiet.events with same | ⟨unsealed,_⟩
    · exact ⟨same,quiet.producers,quiet.isSealed h⟩
    · rw [h] at unsealed
      cases unsealed
  · have unsealed := done.unsealed
    rw [h] at unsealed
    cases unsealed

/-- A text from the fact topic that is not recorded. -/
inductive Rejected (lib : Library) (s : State) (disk : Disk) (text : String) : Prop where
  /-- It is too large, no JSON, or fails a check. -/
  | invalid (refused : ∀ message, readMessage lib text≠.ok message)
  /-- It cannot be stored within the bounds. -/
  | unstored (refused : ∀ kind content t,
      store lib disk text.toUTF8.data.toList ("application-" ++ kind) ".json" s≠.ok content t)
  /-- Its number is not larger than that of a recorded report of its producer. -/
  | stale (message : Message) (i : ℕ) (earlier : Report) (read : readMessage lib text=.ok message)
      (found : reportAt s.events i=some earlier) (same : earlier.key=message.key)
      (old : message.sequence ≤ earlier.sequence)
  /-- The list is full. -/
  | full (many : maxEvents ≤ s.events.length)

/-- A rejected text leaves the earlier facts and the references as they are. -/
theorem rejected_unchanged {s : State} (h : Consistent s) {source text : String} {observed : Json} {rest : List Queued}
    (waiting : s.messages=Queued.producer source text observed::rest) {disk : Disk}
    (rejected : Rejected lib {s with messages := rest} disk text) (clock : Json) :
    (step lib s (.process disk clock)).producers=s.producers ∧ s.events <+: (step lib s (.process disk clock)).events := by
  rcases processMessage_cases lib disk clock s with quiet | ⟨source',text',observed',rest',message,content,u,shape,read,
    stored,done⟩
  · refine ⟨quiet.producers,?_⟩
    rcases quiet.events with same | ⟨_,_,body,_,added⟩
    · exact ⟨[],by rw [List.append_nil]; exact same.symm⟩
    · exact ⟨_,added.symm⟩
  · exfalso
    rw [waiting] at shape
    cases shape
    cases rejected with
    | invalid refused => exact refused message read
    | unstored refused => exact refused _ content u stored
    | stale message' i earlier read' found same old =>
      rw [read] at read'
      cases read'
      have newer := recorded_newer h done found same
      omega
    | full many => exact absurd many (Nat.not_le.mpr done.room)

/-- The facts are a faithful history, now and from now on. -/
structure Faithful (lib : Library) (s : State) : Prop where
  /-- The facts form a history of each producer. -/
  history : History s.events
  /-- Later facts only follow, and a validity ends at most once. -/
  extended : ∀ actions, Extends s.events (run (step lib) s actions).events
  /-- A rejected text changes no earlier fact and no reference. -/
  rejected : ∀ source text observed rest disk clock, s.messages=Queued.producer source text observed::rest →
    Rejected lib {s with messages := rest} disk text →
    (step lib s (.process disk clock)).producers=s.producers ∧ s.events <+: (step lib s (.process disk clock)).events
  /-- A message that finds no place in the queue changes neither. -/
  queued : ∀ message, (step lib s (.enqueue message)).producers=s.producers ∧
    (step lib s (.enqueue message)).events=s.events
  /-- After a seal no fact is added or edited. -/
  afterSeal : ∀ clock stillRunning actions,
    (run (step lib) (step lib s (.sealed clock stillRunning)) actions).events=s.events ∧
      (run (step lib) (step lib s (.sealed clock stillRunning)) actions).producers=s.producers

/-- Every run keeps the earlier facts, and ends each validity at most once. -/
theorem run_extends (lib : Library) {s : State} (h : Consistent s) (actions : List Action) :
    Extends s.events (run (step lib) s actions).events := by
  induction actions generalizing s with
  | nil => exact fun i event found => ⟨event,found,Or.inl rfl⟩
  | cons action rest ih =>
    rw [run_cons]
    exact extends_trans (step_extends lib h action) (ih (step_consistent lib h action))

/-- A sealed list stays as it is in every run. -/
theorem run_sealed (lib : Library) {s : State} (h : s.isSealed=true) (actions : List Action) :
    (run (step lib) s actions).events=s.events ∧ (run (step lib) s actions).producers=s.producers := by
  induction actions generalizing s with
  | nil => exact ⟨rfl,rfl⟩
  | cons action rest ih =>
    obtain ⟨events,producers,isSealed⟩ := step_sealed lib h action
    rw [run_cons,(ih isSealed).1,(ih isSealed).2]
    exact ⟨events,producers⟩

/-- A consistent state is faithful. -/
theorem consistent_faithful (lib : Library) {s : State} (h : Consistent s) : Faithful lib s := by
  refine ⟨h.history,fun actions => ?_,fun source text observed rest disk clock waiting rejected => ?_,
    fun message => ?_,fun clock stillRunning actions => ?_⟩
  · exact run_extends lib h actions
  · exact rejected_unchanged h waiting rejected clock
  · show (enqueue s message).producers=s.producers ∧ (enqueue s message).events=s.events
    unfold enqueue
    split
    · exact ⟨rfl,rfl⟩
    · split <;> exact ⟨rfl,rfl⟩
  · have now : (sealFacts clock stillRunning s).events=s.events ∧ (sealFacts clock stillRunning s).producers=s.producers ∧
        (sealFacts clock stillRunning s).isSealed=true := by
      unfold sealFacts snapshot
      split <;> exact ⟨rfl,rfl,rfl⟩
    have after := run_sealed lib now.2.2 actions
    exact ⟨after.1.trans now.1,after.2.trans now.2.1⟩

/-- The facts of every recording form a faithful history. -/
theorem run_faithful (lib : Library) (clock : Json) (actions : List Action) :
    Faithful lib (run (step lib) (newFacts clock) actions) := by
  apply consistent_faithful
  exact run_invariant (fun (t : State) action (ht : Consistent t) _ => step_consistent lib ht action)
    (newFacts_consistent clock) (along_true (step lib) (newFacts clock) actions)

section Clocks

/-- A first report of a camera driver. -/
def firstText : String :=
  "\x7b\"effectiveAt\":\x7b\"monotonicTimeNs\":\"10\",\"rosTimeNs\":\"20\",\"unixTimeNs\":\"50\"\x7d,\"event\":\"applied\"," ++
  "\"evidence\":\"producer-applied\",\"provenance\":\x7b\x7d,\"schemaVersion\":1,\"sequence\":1," ++
  "\"source\":\x7b\"id\":\"camera\",\"instanceId\":\"a\",\"kind\":\"driver\"\x7d,\"values\":\x7b\x7d\x7d"

/-- Its next report, after the system's time was set back. -/
def secondText : String :=
  "\x7b\"effectiveAt\":\x7b\"monotonicTimeNs\":\"11\",\"rosTimeNs\":\"21\",\"unixTimeNs\":\"40\"\x7d,\"event\":\"applied\"," ++
  "\"evidence\":\"producer-applied\",\"provenance\":\x7b\x7d,\"schemaVersion\":1,\"sequence\":2," ++
  "\"source\":\x7b\"id\":\"camera\",\"instanceId\":\"a\",\"kind\":\"driver\"\x7d,\"values\":\x7b\x7d\x7d"

/-- The value of such a report. -/
def cameraValue (sequence : ℤ) (monotonic ros unix : String) : Json :=
  .object [("effectiveAt",.object [("monotonicTimeNs",.string monotonic),("rosTimeNs",.string ros),
      ("unixTimeNs",.string unix)]),
    ("event",.string "applied"),("evidence",.string "producer-applied"),("provenance",.object []),
    ("schemaVersion",.integer 1),("sequence",.integer sequence),
    ("source",.object [("id",.string "camera"),("instanceId",.string "a"),("kind",.string "driver")]),
    ("values",.object [])]

/-- The library functions on the two texts. -/
def cameraLibrary : Library where
  loads := fun _ _ text =>
    if text=firstText then .ok (cameraValue 1 "10" "20" "50")
    else if text=secondText then .ok (cameraValue 2 "11" "21" "40")
    else .error ⟨"JSONDecodeError","Expecting value: line 1 column 1 (char 0)"⟩
  encoded := fun value =>
    .ok (if value.equal (cameraValue 1 "10" "20" "50") then firstText else secondText).toUTF8.data.toList
  sha256 := fun data =>
    if data=firstText.toUTF8.data.toList then "f7f1447a4c6e51076e40928428fb073d59f903a815088ff7ec23638dc6db7225"
    else "82b46582b2238e1bd85660d1d8d31786fb7c5201ee636d5d1200b73bc53dcea6"

/-- Both texts arrive and are worked on. -/
def cameraRun : List Action :=
  [.enqueue (.producer "/xgc/record_facts" firstText .null),.process .created .null,
    .enqueue (.producer "/xgc/record_facts" secondText .null),.process .created .null]

/-- Whether the first of two facts got an end although the system's time went back. -/
def endsAcrossUnixRegression (events : List Event) : Bool :=
  match reportAt events 0,reportAt events 1 with
  | some first,some second =>
    decide (first.event=.applied) && decide (first.key=second.key) &&
      decide (timeAt second.effectiveAt "unixTimeNs" < timeAt first.effectiveAt "unixTimeNs") &&
      (match first.validity with
      | some validity => validity.finish.isSome
      | none => false)
  | _,_ => false

/-- The validity of an application ends although a clock of its producer went back. -/
theorem unix_regression_ends_validity :
    ¬∀ (lib : Library) (clock : Json) (actions : List Action) (i j : ℕ) (report next : Report) (validity : Validity),
      reportAt (run (step lib) (newFacts clock) actions).events i=some report → report.event=.applied →
      Next (run (step lib) (newFacts clock) actions).events i report.key j next → report.validity=some validity →
      timeAt next.effectiveAt "unixTimeNs" < timeAt report.effectiveAt "unixTimeNs" → validity.finish=none := by
  intro claimed
  have shown : endsAcrossUnixRegression (run (step cameraLibrary) (newFacts .null) cameraRun).events=true := by
    decide +kernel
  unfold endsAcrossUnixRegression at shown
  split at shown
  · next first second one two =>
    simp only [Bool.and_eq_true,decide_eq_true_eq] at shown
    obtain ⟨⟨⟨applied,same⟩,earlier⟩,ended⟩ := shown
    split at ended
    · next validity known =>
      have next : Next (run (step cameraLibrary) (newFacts .null) cameraRun).events 0 first.key 1 second :=
        ⟨by omega,two,same.symm,by omega⟩
      have none := claimed cameraLibrary .null cameraRun 0 1 first second validity one applied next known earlier
      rw [none] at ended
      cases ended
    · cases ended
  · cases shown

end Clocks

end Ros1Adapter.RecordHistory
