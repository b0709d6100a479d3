import Ros1Adapter.ServiceHelperCalls

/-!
# A service is called at most once

In every run of calls and their helpers, a helper enters the native call at
most once, and only for the request of its call. A call that fails with a
certain error has not dispatched its request and never will, one that succeeds
has dispatched it and returns what the native call gave, and no more helpers
live than calls are allowed in flight.
-/

namespace Ros1Adapter.ServiceHelperDispatch

open LittleEndian ByteStreams ServiceHelperFrames ServiceHelperProtocol ServiceHelperSound ServiceHelperCalls

section Systems

variable {Response : Type} {decoding : Bytes → Bytes → Decoded Response} {maximumInFlight : ℕ} {s s' : System Response}

/-- All calls are sound, and those with a permit are counted. -/
structure Safe (decoding : Bytes → Bytes → Decoded Response) (maximumInFlight : ℕ) (s : System Response) : Prop where
  /-- Every call is sound. -/
  calls : ∀ c∈s.calls, Sound decoding c
  /-- The number of calls in flight is that of the permits. -/
  permits : s.shared.inFlight=s.calls.countP (·.permit)
  /-- It is within its limit. -/
  limit : s.shared.inFlight ≤ maximumInFlight

/-- A call that has just begun is sound. -/
theorem begun_sound (request : ServiceCallRequest) : Sound decoding ({request := request} : Call Response) := by
  refine ⟨⟨List.nil_prefix,fun wrong => absurd rfl wrong,fun _ => ⟨rfl,rfl,rfl,rfl⟩,fun h wrong => by cases wrong⟩,rfl,rfl,
    (fun wrong => by cases wrong),fun wrong => by cases wrong⟩

/-- Replacing a call by a sound one keeps the system safe if the counts fit. -/
theorem replace_safe {index : ℕ} {c c' : Call Response} {shared : Shared} (safe : Safe decoding maximumInFlight s)
    (found : s.calls[index]?=some c) (sound : Sound decoding c') (counts : Counts maximumInFlight s.shared shared c c') :
    Safe decoding maximumInFlight ⟨shared,s.calls.set index c'⟩ := by
  obtain ⟨bound,rfl⟩ := List.getElem?_eq_some_iff.mp found
  have count : (s.calls.set index c').countP (·.permit)=
      s.calls.countP (·.permit)-(if s.calls[index].permit then 1 else 0)+(if c'.permit then 1 else 0) :=
    List.countP_set bound
  have positive : s.calls[index].permit=true → 0<s.calls.countP (·.permit) := fun permit =>
    List.countP_pos_iff.mpr ⟨_,List.getElem_mem bound,permit⟩
  have limit := safe.limit
  refine ⟨fun other member => ?_,?_,?_⟩
  · rcases List.mem_or_eq_of_mem_set member with old | new
    · exact safe.calls other old
    · rw [new]
      exact sound
  · show shared.inFlight=_
    rw [count,← safe.permits]
    rcases counts with ⟨number,same⟩ | ⟨number,_,before,after⟩ | ⟨number,before,after⟩
    · rw [number,same]
      cases held : s.calls[index].permit with
      | true =>
        have some := positive held
        rw [← safe.permits] at some
        simp only [if_true]
        omega
      | false => rfl
    · rw [number,before,after]
      rfl
    · rw [number,before,after]
      rfl
  · show shared.inFlight ≤ _
    rcases counts with ⟨number,_⟩ | ⟨number,room,_⟩ | ⟨number,_⟩
    · omega
    · omega
    · omega

/-- What an event does: a call begins, or it takes a turn, or its helper does. -/
theorem step_cases {event : Event} (step_ : step decoding maximumInFlight s event=some s') :
    (∃ request, s'={s with calls := s.calls ++ [{request := request}]}) ∨
      (∃ index c turn shared c', s.calls[index]?=some c ∧ call decoding maximumInFlight s.shared c turn=some (shared,c') ∧
        s'=⟨shared,s.calls.set index c'⟩) ∨
      ∃ index c h turn c', s.calls[index]?=some c ∧ c.helper=some h ∧ runHelper c h turn=some c' ∧
        s'=⟨s.shared,s.calls.set index c'⟩ := by
  cases event with
  | begin_ request => exact .inl ⟨request,(Option.some.inj step_).symm⟩
  | call index turn =>
    unfold step at step_
    dsimp only at step_
    split at step_
    · cases step_
    · rename_i c found
      obtain ⟨⟨shared,c'⟩,turned,rfl⟩ := Option.map_eq_some_iff.mp step_
      exact .inr (.inl ⟨index,c,turn,shared,c',found,turned,rfl⟩)
  | helper index turn =>
    unfold step at step_
    dsimp only at step_
    split at step_
    · cases step_
    · rename_i c found
      split at step_
      · cases step_
      · rename_i h present
        obtain ⟨c',turned,rfl⟩ := Option.map_eq_some_iff.mp step_
        exact .inr (.inr ⟨index,c,h,turn,c',found,present,turned,rfl⟩)

/-- Every event keeps the system safe. -/
theorem step_safe {event : Event} (safe : Safe decoding maximumInFlight s)
    (step_ : step decoding maximumInFlight s event=some s') : Safe decoding maximumInFlight s' := by
  rcases step_cases step_ with ⟨request,rfl⟩ | ⟨index,c,turn,shared,c',found,turned,rfl⟩ |
    ⟨index,c,h,turn,c',found,present,turned,rfl⟩
  · refine ⟨fun c member => ?_,?_,safe.limit⟩
    · rcases List.mem_append.mp member with old | new
      · exact safe.calls c old
      · rw [List.mem_singleton.mp new]
        exact begun_sound request
    · rw [List.countP_append]
      exact safe.permits
  · have kept := call_sound (safe.calls c (List.mem_of_getElem? found)) turned
    exact replace_safe safe found kept.1 kept.2
  · have kept := turn_sound (safe.calls c (List.mem_of_getElem? found)) present turned
    exact replace_safe safe found kept.1 (.inl ⟨rfl,kept.2⟩)

/-- Every run keeps the system safe. -/
theorem run_safe (events : List Event) (safe : Safe decoding maximumInFlight s)
    (ran : run decoding maximumInFlight s events=some s') : Safe decoding maximumInFlight s' := by
  induction events generalizing s with
  | nil =>
    obtain rfl := Option.some.inj ran
    exact safe
  | cons event rest ih =>
    obtain ⟨middle,first,later⟩ := Option.bind_eq_some_iff.mp ran
    exact ih (step_safe safe first) later

/-- A system without calls is safe. -/
theorem empty_safe : Safe decoding maximumInFlight ({} : System Response) := by
  exact ⟨(fun c member => by cases member),rfl,Nat.zero_le _⟩

/-- A call that returned stays as it is. -/
theorem returned_stays {index : ℕ} {c : Call Response} {outcome : Outcome Response} (events : List Event)
    (safe : Safe decoding maximumInFlight s) (found : s.calls[index]?=some c) (at_ : c.point=.returned outcome)
    (ran : run decoding maximumInFlight s events=some s') : s'.calls[index]?=some c := by
  have gone := (safe.calls c (List.mem_of_getElem? found)).holds.gone (by rw [at_]; rfl)
  induction events generalizing s with
  | nil =>
    obtain rfl := Option.some.inj ran
    exact found
  | cons event rest ih =>
    obtain ⟨middle,first,later⟩ := Option.bind_eq_some_iff.mp ran
    refine ih (step_safe safe first) ?_ later
    rcases step_cases first with ⟨request,rfl⟩ | ⟨other,d,turn,shared,d',there,turned,rfl⟩ |
      ⟨other,d,h,turn,d',there,present,turned,rfl⟩
    · exact List.getElem?_append_left (List.getElem?_eq_some_iff.mp found).1 ▸ found
    · by_cases same : other=index
      · rw [same,found] at there
        obtain rfl := Option.some.inj there
        rw [returned_silent turn at_] at turned
        cases turned
      · exact (List.getElem?_set_ne same).trans found
    · by_cases same : other=index
      · rw [same,found] at there
        obtain rfl := Option.some.inj there
        unfold helperGone at gone
        rw [present] at gone
        rw [gone_silent turn (of_decide_eq_true gone)] at turned
        cases turned
      · exact (List.getElem?_set_ne same).trans found

variable (decoding maximumInFlight)

/-- In every run of calls and their helpers a helper enters the native call at most once, with the name, the checksum and the
payload of its call. A call that failed with an error that is not uncertain has not entered it, one that succeeded has, and
returned what the native call gave; and a call that returned and its helper stay as they are. -/
theorem run_dispatches {events : List Event} (ran : run decoding maximumInFlight {} events=some s) {index : ℕ}
    {c : Call Response} (found : s.calls[index]?=some c) :
    (∀ h, c.helper=some h → h.entered=[] ∨ h.entered=[(c.request.service,c.md5,c.payload)]) ∧
      (∀ error, c.point=.returned (.error error) → error.errorClass≠.uncertain → ∀ h, c.helper=some h → h.entered=[]) ∧
      (∀ result, c.point=.returned (.ok result) → ∃ h data, c.helper=some h ∧
        h.entered=[(c.request.service,c.md5,c.payload)] ∧ h.reply=some (.kCompleted,data) ∧
          decoding c.request.serviceType data=.response result.response) ∧
      ∀ outcome, c.point=.returned outcome → ∀ later s', run decoding maximumInFlight s later=some s' →
        s'.calls[index]?=some c := by
  have safe := run_safe events empty_safe ran
  have sound := safe.calls c (List.mem_of_getElem? found)
  have stages := sound.stages
  refine ⟨fun h present => ?_,fun error at_ certain h present => ?_,fun result at_ => ?_,fun outcome at_ later s' more =>
    returned_stays later safe found at_ more⟩
  · rcases (sound.base.helper h present).entered with none | entered
    · exact .inl none
    · exact .inr entered.1
  · simp only [Stages,at_] at stages
    exact sound.base.quiet (stages certain) present
  · simp only [Stages,at_] at stages
    obtain ⟨h,data,present,decided,response⟩ := stages
    have helper := sound.base.helper h present
    refine ⟨h,data,present,?_,decided,response⟩
    exact (helper.entered.resolve_left (helper.reply _ data decided).2.1).1

/-- In every run at most the allowed number of helpers lives, no more than calls are in flight; and when every call has
returned none is in flight. -/
theorem run_in_flight {events : List Event} (ran : run decoding maximumInFlight {} events=some s) :
    s.calls.countP (fun c => !helperGone c) ≤ s.shared.inFlight ∧ s.shared.inFlight ≤ maximumInFlight ∧
      ((∀ c∈s.calls, ∃ outcome, c.point=.returned outcome) → s.shared.inFlight=0) := by
  have safe := run_safe events empty_safe ran
  refine ⟨?_,safe.limit,fun returned => ?_⟩
  · rw [safe.permits]
    refine List.countP_mono_left fun c member alive => ?_
    have sound := safe.calls c member
    rw [sound.holds.permit]
    have present : c.helper≠none := by
      intro none
      unfold helperGone at alive
      rw [none] at alive
      cases alive
    have notOver : settled c.point≠true := by
      intro ended
      rw [sound.holds.gone ended] at alive
      cases alive
    have stages := sound.stages
    cases at_ : c.point with
    | entry | resolving =>
      simp only [Stages,at_] at stages
      exact absurd stages present
    | checking | loading | exchanging _ =>
      simp only [Stages,at_] at stages
      exact absurd stages.1 present
    | returned outcome => exact absurd (by rw [at_]; rfl) notOver
    | starting | startFailed _ | numbering | writing _ _ | readingReady _ | deciding | committing _
    | readingResponse _ | checkingResponse _ | readingPayload _ _ | checkingPayload _ _ | terminating _ | decoding _
    | releasing _ => rfl
  · rw [safe.permits]
    refine List.countP_eq_zero.mpr fun c member => ?_
    obtain ⟨outcome,at_⟩ := returned c member
    rw [(safe.calls c member).holds.permit,at_]
    exact Bool.false_ne_true

end Systems

section Samples

/-- A call whose helper answers with one byte. -/
def sampleEvents : List Event :=
  [.begin_ ⟨[0x2f,0x61],[],5⟩,.call 0 (.check .allowed),.call 0 (.resolved (.ok (List.replicate 32 0x30,[7]))),
    .call 0 (.check .allowed),.call 0 .load,.call 0 (.exchange false),.call 0 (.spawned none),.call 0 .number,
    .call 0 (.transfer (.moved 60)),.helper 0 (.booted true),.helper 0 (.transfer (.moved 60)),.call 0 (.transfer (.moved 4)),
    .call 0 (.transfer (.moved 2)),.call 0 (.transfer (.moved 32)),.call 0 (.transfer (.moved 1)),
    .helper 0 (.transfer (.moved 4)),.helper 0 (.transfer (.moved 2)),.helper 0 (.transfer (.moved 32)),
    .helper 0 (.transfer (.moved 1)),.helper 0 (.named true),.helper 0 (.available true),.helper 0 (.made true),
    .helper 0 (.transfer (.moved 64)),.call 0 (.transfer (.moved 64)),.call 0 (.check .allowed),
    .call 0 (.transfer (.moved 64)),.helper 0 (.transfer (.moved 64)),.helper 0 .enter,.helper 0 (.called (some [8])),
    .helper 0 (.transfer (.moved 64)),.helper 0 (.transfer (.moved 1)),.call 0 (.transfer (.moved 64)),
    .call 0 (.check .allowed),.call 0 (.transfer (.moved 1)),.call 0 (.check .allowed),.call 0 .reaped,.call 0 (.decode 3),
    .call 0 .release]

/-- Decoding that leaves bytes as they are. -/
def sampleDecoding (_ data : Bytes) : Decoded Bytes := .response data

/-- Result that a call returned. -/
def resultOf (c : Call Bytes) : Option (ServiceCallResult Bytes) :=
  match c.point with
  | .returned (.ok result) => some result
  | _ => none

/-- In that run the call returns the byte, and its helper entered the native call. -/
theorem run_dispatches_sample : ∃ s c result, run sampleDecoding 1 {} sampleEvents=some s ∧ s.calls[0]?=some c ∧
    c.point=.returned (.ok result) ∧ result.response=[8] ∧
      ∃ h, c.helper=some h ∧ h.entered=[([0x2f,0x61],List.replicate 32 0x30,[7])] := by
  have shown : (((run sampleDecoding 1 {} sampleEvents).bind (fun s => s.calls[0]?)).map
      (fun c => ((resultOf c).map (·.response),c.request.service,c.md5,c.payload)))=
        some (some [8],[0x2f,0x61],List.replicate 32 0x30,[7]) := by
    decide +kernel
  obtain ⟨c,found,fields⟩ := Option.map_eq_some_iff.mp shown
  obtain ⟨s,ran,there⟩ := Option.bind_eq_some_iff.mp found
  obtain ⟨response,request⟩ := Prod.mk.inj fields
  obtain ⟨service,rest⟩ := Prod.mk.inj request
  obtain ⟨md5,payload⟩ := Prod.mk.inj rest
  obtain ⟨result,returned,answer⟩ := Option.map_eq_some_iff.mp response
  have at_ : c.point=.returned (.ok result) := by
    unfold resultOf at returned
    split at returned
    · rename_i other here
      obtain rfl := Option.some.inj returned
      exact here
    · cases returned
  obtain ⟨h,_,present,entered,_⟩ := (run_dispatches sampleDecoding 1 ran there).2.2.1 result at_
  rw [service,md5,payload] at entered
  exact ⟨s,c,result,ran,there,at_,answer,h,present,entered⟩

/-- In that run, before the helper is reaped, one helper lives and one call is in flight. -/
theorem run_in_flight_sample : ∃ s, run sampleDecoding 1 {} (sampleEvents.take 30)=some s ∧
    s.calls.countP (fun c => !helperGone c)=1 ∧ s.shared.inFlight=1 := by
  have shown : ((run sampleDecoding 1 {} (sampleEvents.take 30)).map (fun s => s.calls.countP (fun c => !helperGone c)))=some 1 := by
    decide +kernel
  obtain ⟨s,ran,one⟩ := Option.map_eq_some_iff.mp shown
  have flight := run_in_flight sampleDecoding 1 ran
  exact ⟨s,ran,one,by omega⟩

end Samples

end Ros1Adapter.ServiceHelperDispatch
