import Ros1Adapter.ServiceHelperSound

/-!
# Turns of service calls

Every turn of a call or of its helper keeps what the call wrote and took in
step with its point. Before the last byte of the commit is written every error
is certain that nothing was dispatched; after it every error is uncertain.
-/

namespace Ros1Adapter.ServiceHelperCalls

open LittleEndian ByteStreams ServiceHelperFrames ServiceHelperProtocol ServiceHelperSound

section Calls

variable {Response : Type} (decoding : Bytes → Bytes → Decoded Response)

/-- An error that is not uncertain means that the request is not dispatched. -/
def Honest (c : Call Response) (error : Ros1ToolsError) : Prop := error.errorClass≠.uncertain → Uncommitted c

/-- The helper decided on a response with this frame and payload. -/
def Answers (c : Call Response) (frame : ServiceHelperFrame) (data : Bytes) : Prop :=
  ∃ h status, c.helper=some h ∧ h.reply=some (status,data) ∧ frame=makeServiceHelperResponse c.requestId status data.length

/-- What an outcome says of the helper. -/
def Ended (c : Call Response) : Outcome Response → Prop
  | .error error => Honest c error
  | .ok result =>
    ∃ h data, c.helper=some h ∧ h.reply=some (.kCompleted,data) ∧
      decoding c.request.serviceType data=.response result.response

/-- A call without a helper holds no stream. -/
def Alone (c : Call Response) : Prop := c.helper=none

/-- What a call wrote and took, by its point. -/
def Stages (c : Call Response) : Prop :=
  match c.point with
  | .entry | .resolving | .startFailed _ => Alone c
  | .checking => Alone c ∧ c.payload.length ≤ kMaximumServicePayloadBytes
  | .loading | .exchanging _ | .starting => Alone c ∧ Limits c
  | .numbering => c.down.written=[] ∧ c.up.taken=0
  | .writing rest later => c.down.written ++ (rest ++ later.flatten)=preamble c ∧ c.up.taken=0
  | .readingReady got => c.down.written=preamble c ∧ Reads 0 got c.up
  | .deciding => c.down.written=preamble c ∧ c.up.taken=frameBytes
  | .committing rest => c.down.written ++ rest=whole c ∧ rest≠[] ∧ c.up.taken=frameBytes
  | .readingResponse got => Reads frameBytes got c.up
  | .checkingResponse got => Reads frameBytes got c.up ∧ got.length=frameBytes
  | .readingPayload frame got => (∃ data, Answers c frame data) ∧ Reads (frameBytes+frameBytes) got c.up
  | .checkingPayload frame got => Answers c frame got
  | .terminating (.failed error) => Honest c error
  | .terminating (.responded frame payload) => Answers c frame payload
  | .decoding payload => ∃ frame, Answers c frame payload ∧ responseError frame.status c.request.service=none
  | .releasing outcome | .returned outcome => Ended decoding c outcome

/-- Points at which a call is in flight. -/
def counted : CallPoint Response → Bool
  | .entry | .resolving | .checking | .loading | .exchanging _ | .returned _ => false
  | _ => true

/-- Points at which the helper is gone. -/
def settled : CallPoint Response → Bool
  | .decoding _ | .releasing _ | .returned _ => true
  | _ => false

/-- Points at which there is a helper. -/
def served : CallPoint Response → Bool
  | .numbering | .writing _ _ | .readingReady _ | .deciding | .committing _ | .readingResponse _ | .checkingResponse _
  | .readingPayload _ _ | .checkingPayload _ _ | .terminating _ => true
  | _ => false

/-- Whether a call is in flight, and whether its helper may live, by its point. -/
structure Holds (c : Call Response) : Prop where
  /-- It is in flight from its permit to its release. -/
  permit : c.permit=counted c.point
  /-- It has a helper while it exchanges frames. -/
  served : served c.point=true → c.helper≠none
  /-- Before it is released its helper is gone. -/
  gone : settled c.point=true → helperGone c=true

/-- A call between two turns. -/
structure Sound (c : Call Response) : Prop where
  /-- What holds wherever it stands. -/
  base : Base c
  /-- Its point tells what it did. -/
  stages : Stages decoding c
  /-- It is in flight from its permit to its release. -/
  holds : Holds c

/-- A turn leads to a sound call that counts as before. -/
def Stays (c d : Call Response) : Prop := Sound decoding d ∧ d.permit=c.permit

end Calls

section Turns

variable {Response : Type} {decoding : Bytes → Bytes → Decoded Response} {c c' : Call Response} {h : Helper}

/-- A helper that is gone takes no turn. -/
theorem gone_silent (event : HelperEvent) (gone : h.point=.gone) : runHelper c h event=none := by
  cases event <;> simp only [runHelper,gone,if_true]

/-- The response a helper decided on stays decided. -/
theorem Answers.turned {frame : ServiceHelperFrame} {data : Bytes} (answers : Answers c frame data)
    (present : c.helper=some h) (turned : Turned c h c') : Answers c' frame data := by
  obtain ⟨down,piece,h',rfl,_,reply,_⟩ := turned
  obtain ⟨other,status,same,decided,shape⟩ := answers
  rw [present] at same
  obtain rfl := Option.some.inj same
  exact ⟨h',status,rfl,reply _ decided,shape⟩

/-- A turn of a helper keeps its call sound. -/
theorem turn_sound {event : HelperEvent} (sound : Sound decoding c) (present : c.helper=some h)
    (step : runHelper c h event=some c') : Stays decoding c c' := by
  have turned := helper_turned sound.base present step
  have alive : helperGone c≠true := by
    unfold helperGone
    rw [present]
    intro gone
    rw [gone_silent event (of_decide_eq_true gone)] at step
    cases step
  have answers : ∀ frame data, Answers c frame data → Answers c' frame data := fun _ _ before => before.turned present turned
  obtain ⟨down,piece,h',rfl,written,reply,after⟩ := turned
  have some : c.helper≠none := by
    rw [present]
    exact Option.some_ne_none h
  have stages := sound.stages
  have holds := sound.holds
  refine ⟨⟨⟨?_,fun _ => (sound.base.limits some).congr rfl rfl rfl,(fun none => by cases none),?_⟩,?_,holds.permit,
    (fun _ none => by cases none),fun ended => absurd (holds.gone ended) alive⟩,rfl⟩
  · show down.written <+: whole c
    rw [written]
    exact sound.base.sent
  · intro other same
    obtain rfl := Option.some.inj same
    exact after
  · cases point : c.point with
    | entry | resolving | startFailed _ =>
      simp only [Stages,point] at stages
      exact absurd stages some
    | checking | loading | exchanging _ | starting =>
      simp only [Stages,point] at stages
      exact absurd stages.1 some
    | numbering | writing _ _ | deciding | committing _ =>
      simp only [Stages,point] at stages ⊢
      rw [written]
      exact stages
    | readingReady got =>
      simp only [Stages,point] at stages ⊢
      rw [written]
      exact ⟨stages.1,stages.2.push piece⟩
    | readingResponse got =>
      simp only [Stages,point] at stages ⊢
      exact stages.push piece
    | checkingResponse got =>
      simp only [Stages,point] at stages ⊢
      exact ⟨stages.1.push piece,stages.2⟩
    | readingPayload frame got =>
      simp only [Stages,point] at stages ⊢
      obtain ⟨⟨data,before⟩,reads⟩ := stages
      exact ⟨⟨data,answers _ _ before⟩,reads.push piece⟩
    | checkingPayload frame got =>
      simp only [Stages,point] at stages ⊢
      exact answers _ _ stages
    | terminating ending =>
      cases ending with
      | failed error =>
        simp only [Stages,point] at stages ⊢
        intro certain
        show down.written.length<(whole c).length
        rw [written]
        exact stages certain
      | responded frame payload =>
        simp only [Stages,point] at stages ⊢
        exact answers _ _ stages
    | decoding _ | releasing _ | returned _ => exact absurd (holds.gone (by rw [point]; rfl)) alive

end Turns

section Steps

variable {Response : Type} {decoding : Bytes → Bytes → Decoded Response} {c c' : Call Response}

/-- A call goes to a point if what holds there holds. -/
theorem goes_sound (base : Base c) (point : CallPoint Response) (stages : Stages decoding {c with point := point})
    (permit : c.permit=counted point) (some : served point=true → c.helper≠none)
    (gone : settled point=true → helperGone c=true) : Stays decoding c {c with point := point} :=
  ⟨⟨base_congr base rfl rfl rfl rfl rfl rfl rfl,stages,permit,some,gone⟩,rfl⟩

/-- A call with a helper goes on exchanging frames. -/
theorem serves_sound (base : Base c) (point : CallPoint Response) (stages : Stages decoding {c with point := point})
    (permit : c.permit=counted point) (some : c.helper≠none) (open_ : settled point=false) :
    Stays decoding c {c with point := point} :=
  goes_sound base point stages permit (fun _ => some) (fun ended => absurd (open_.symm.trans ended) (by decide))

/-- A call goes on before it has a helper. -/
theorem begins_sound (base : Base c) (point : CallPoint Response) (stages : Stages decoding {c with point := point})
    (permit : c.permit=counted point) (early : served point=false) (open_ : settled point=false) :
    Stays decoding c {c with point := point} :=
  goes_sound base point stages permit (fun here => absurd (early.symm.trans here) (by decide))
    (fun ended => absurd (open_.symm.trans ended) (by decide))

/-- A call that exchanges frames counts and has a helper. -/
theorem Sound.serving {point : CallPoint Response} (sound : Sound decoding c) (at_ : c.point=point) (here : served point=true) :
    c.permit=true ∧ c.helper≠none := by
  have both : counted point=true := by
    cases point with
    | entry | resolving | checking | loading | exchanging _ | starting | startFailed _ | decoding _ | releasing _
    | returned _ => cases here
    | numbering | writing _ _ | readingReady _ | deciding | committing _ | readingResponse _ | checkingResponse _
    | readingPayload _ _ | checkingPayload _ _ | terminating _ => rfl
  rw [← at_] at both here
  exact ⟨sound.holds.permit.trans both,sound.holds.served here⟩

/-- A call without a live helper ends as it should. -/
theorem finish_sound {outcome : Outcome Response} (base : Base c) (ended : Ended decoding c outcome)
    (gone : helperGone c=true) : Stays decoding c (finish outcome c) := by
  unfold finish
  by_cases permit : c.permit=true
  · rw [if_pos permit]
    exact goes_sound base (.releasing outcome) ended permit (fun wrong => by cases wrong) (fun _ => gone)
  · rw [if_neg permit]
    exact goes_sound base (.returned outcome) ended (Bool.eq_false_iff.mpr permit) (fun wrong => by cases wrong)
      (fun _ => gone)

/-- A call fails as it should. -/
theorem fail_sound {error : Ros1ToolsError} (base : Base c) (held : c.helper≠none → c.permit=true) (honest : Honest c error) :
    Stays decoding c (fail error c) := by
  unfold fail
  cases present : c.helper with
  | none =>
    rw [if_neg (by decide)]
    refine finish_sound base honest ?_
    unfold helperGone
    rw [present]
  | some h =>
    rw [if_pos (by rfl)]
    have some : c.helper≠none := by
      rw [present]
      exact Option.some_ne_none h
    have closes : Base {c with closed := true} := base_congr base rfl rfl rfl rfl rfl rfl rfl
    rw [← present]
    exact serves_sound closes (.terminating (.failed error)) honest (held some) some rfl

/-- Without a helper nothing is dispatched. -/
theorem alone_uncommitted (base : Base c) (alone : Alone c) : Uncommitted c := by
  unfold Uncommitted
  rw [(base.alone alone).1]
  exact Nat.zero_lt_of_lt (preamble_lt c)

/-- A check lets a call go on or fails it before it is dispatched. -/
theorem required_sound {seen : Check} {next : Call Response} (base : Base c) (held : c.helper≠none → c.permit=true)
    (uncommitted : Uncommitted c) (goes : Stays decoding c next)
    (step : requirePreDispatchAllowed seen c next=some c') : Stays decoding c c' := by
  cases seen with
  | allowed =>
    obtain rfl := Option.some.inj step
    exact goes
  | cancelled | expired =>
    obtain rfl := Option.some.inj step
    exact fail_sound base held (fun _ => uncommitted)
  | timedOut => cases step

/-- A turn of a transfer before the commit keeps a call sound if its moves do. -/
theorem preCommit_sound {closed : Option Bytes} {moved : ℕ → Option (Call Response)} {turn : Turn} (sound : Sound decoding c)
    (permit : c.permit=true) (uncommitted : Uncommitted c)
    (moves : ∀ count, moved count=some c' → Stays decoding c c')
    (step : preCommit c closed moved turn=some c') : Stays decoding c c' := by
  have fails : ∀ error, Stays decoding c (fail error c) := fun error =>
    fail_sound sound.base (fun _ => permit) (fun _ => uncommitted)
  cases turn with
  | cancelled | expired | failed _ =>
    obtain rfl := Option.some.inj step
    exact fails _
  | timedOut => cases step
  | moved count => exact moves count step
  | again =>
    obtain rfl := Option.some.inj step
    exact ⟨sound,rfl⟩
  | closed =>
    obtain ⟨reason,_,rfl⟩ := Option.map_eq_some_iff.mp step
    exact fails _

/-- After the commit every error is uncertain, so a call may fail. -/
theorem uncertain_sound {error : Ros1ToolsError} (sound : Sound decoding c) (permit : c.permit=true)
    (uncertain : error.errorClass=.uncertain) : Stays decoding c (fail error c) :=
  fail_sound sound.base (fun _ => permit) (fun certain => absurd uncertain certain)

/-- Errors of transfers after the commit are uncertain. -/
theorem failPostCommit_uncertain (result : PostCommitIoResult) (service reason : Bytes) :
    (failPostCommit result service reason).errorClass=.uncertain := by
  cases result <;> rfl

/-- Whatever is thrown after the commit becomes uncertain. -/
theorem afterCommit_uncertain (thrown : Thrown) : (afterCommit thrown).errorClass=.uncertain := by
  cases thrown with
  | tools error =>
    unfold afterCommit
    dsimp only
    split
    · rename_i uncertain
      exact uncertain
    · rfl
  | other _ | unknown => rfl

/-- A response that reports no result is an uncertain error. -/
theorem responseError_uncertain {status : UInt32} {service : Bytes} {error : Ros1ToolsError}
    (h : responseError status service=some error) : error.errorClass=.uncertain := by
  unfold responseError at h
  split at h
  · obtain rfl := Option.some.inj h
    rfl
  · split at h
    · obtain rfl := Option.some.inj h
      rfl
    · split at h
      · obtain rfl := Option.some.inj h
        rfl
      · cases h

/-- A turn of a transfer after the commit keeps a call sound if its moves do. -/
theorem postCommit_sound {closed : Option Bytes} {moved : ℕ → Option (Call Response)} {turn : Turn} (sound : Sound decoding c)
    (permit : c.permit=true)
    (moves : ∀ count, moved count=some c' → Stays decoding c c')
    (step : postCommit c closed moved turn=some c') : Stays decoding c c' := by
  have fails : ∀ result reason, Stays decoding c (fail (failPostCommit result c.request.service reason) c) := fun result reason =>
    uncertain_sound sound permit (failPostCommit_uncertain result c.request.service reason)
  cases turn with
  | cancelled | expired | timedOut | failed _ =>
    obtain rfl := Option.some.inj step
    exact fails _ _
  | moved count => exact moves count step
  | again =>
    obtain rfl := Option.some.inj step
    exact ⟨sound,rfl⟩
  | closed =>
    obtain ⟨reason,_,rfl⟩ := Option.map_eq_some_iff.mp step
    exact fails _ _

/-- The check after a transfer keeps a call sound if going on does. -/
theorem completed_sound {seen : Check} {next : Call Response} (sound : Sound decoding c) (permit : c.permit=true)
    (goes : Stays decoding c next) :
    Stays decoding c (completed seen c next) := by
  have fails : ∀ result, Stays decoding c (fail (failPostCommit result c.request.service []) c) := fun result =>
    uncertain_sound sound permit (failPostCommit_uncertain result c.request.service [])
  cases seen with
  | allowed => exact goes
  | cancelled | expired | timedOut => exact fails _

/-- Sending moves the beginning of what is left. -/
theorem sendSome_spec {rest : Bytes} {point : Bytes → CallPoint Response} {done : CallPoint Response} {count : ℕ}
    (step : sendSome c rest point done count=some c') :
    ∃ front back, rest=front ++ back ∧
      c'={c with down := c.down.push front,point := if back=[] then done else point back} := by
  unfold sendSome at step
  split at step
  · obtain rfl := Option.some.inj step
    exact ⟨_,_,(List.take_append_drop count rest).symm,rfl⟩
  · cases step

/-- Receiving adds to what was collected. -/
theorem receiveSome_spec {got : Bytes} {start size : ℕ} {point : Bytes → CallPoint Response}
    {done : Bytes → Call Response → Call Response} {count : ℕ} (reads : Reads start got c.up)
    (step : receiveSome c got size point done count=some c') :
    ∃ more up, Reads start more up ∧ up.written=c.up.written ∧
      ((more.length=size ∧ c'=done more {c with up := up}) ∨ c'={c with up := up,point := point more}) := by
  unfold receiveSome at step
  split at step
  · cases pulled : c.up.pull count with
    | none =>
      rw [pulled] at step
      cases step
    | some taken =>
      obtain ⟨piece,up⟩ := taken
      rw [pulled] at step
      obtain rfl := Option.some.inj step
      refine ⟨got ++ piece,up,reads.pull pulled,(Stream.pull_spec pulled).1,?_⟩
      dsimp only
      split
      · rename_i full
        exact .inl ⟨full,rfl⟩
      · exact .inr rfl
  · cases step

/-- Receiving bytes keeps a call sound if its point tells what it collected. -/
theorem receiving_sound {got : Bytes} {start size : ℕ} {point : Bytes → CallPoint Response}
    {done : Bytes → Call Response → Call Response} {count : ℕ} (base : Base c) (helper : c.helper≠none)
    (reads : Reads start got c.up)
    (goes : ∀ more up, Base {c with up := up} → Reads start more up →
      Stays decoding {c with up := up} {c with up := up,point := point more})
    (ends : ∀ more up, Base {c with up := up} → Reads start more up → more.length=size →
      Stays decoding {c with up := up} (done more {c with up := up}))
    (step : receiveSome c got size point done count=some c') : Stays decoding c c' := by
  obtain ⟨more,up,later,written,ended | going⟩ := receiveSome_spec reads step
  · rw [ended.2]
    exact ends more up (base.receive helper written) later ended.1
  · rw [going]
    exact goes more up (base.receive helper written) later

/-- Sending a part of a section keeps a call sound. -/
theorem writing_sound {rest : Bytes} {later : List Bytes} {count : ℕ} (sound : Sound decoding c)
    (at_ : c.point=.writing rest later)
    (step : sendSome c rest (fun rest => .writing rest later) (afterSection later) count=some c') :
    Stays decoding c c' := by
  obtain ⟨permit,some⟩ := sound.serving at_ rfl
  have stages := sound.stages
  simp only [Stages,at_] at stages
  obtain ⟨left,untaken⟩ := stages
  obtain ⟨front,back,parts,rfl⟩ := sendSome_spec step
  rw [parts,List.append_assoc,← List.append_assoc] at left
  have sent : Base {c with down := c.down.push front} := by
    refine sound.base.send some ⟨back ++ later.flatten ++ (makeServiceHelperCommit c.requestId).bytes,?_⟩
    rw [← List.append_assoc,left]
    rfl
  split
  · rename_i nothing
    rw [nothing,List.nil_append] at left
    cases later with
    | nil =>
      rw [List.flatten_nil,List.append_nil] at left
      exact serves_sound sent (.readingReady []) ⟨left,reads_start untaken⟩ permit some rfl
    | cons section_ more => exact serves_sound sent (.writing section_ more) ⟨left,untaken⟩ permit some rfl
  · exact serves_sound sent (.writing back later) ⟨left,untaken⟩ permit some rfl

/-- Sending a part of the commit keeps a call sound. -/
theorem committing_sound {rest : Bytes} {count : ℕ} (sound : Sound decoding c) (at_ : c.point=.committing rest)
    (step : sendSome c rest .committing (.readingResponse []) count=some c') :
    Stays decoding c c' := by
  obtain ⟨permit,some⟩ := sound.serving at_ rfl
  have stages := sound.stages
  simp only [Stages,at_] at stages
  obtain ⟨left,_,taken⟩ := stages
  obtain ⟨front,back,parts,rfl⟩ := sendSome_spec step
  rw [parts,← List.append_assoc] at left
  have sent : Base {c with down := c.down.push front} := sound.base.send some ⟨back,left⟩
  split
  · exact serves_sound sent (.readingResponse []) (reads_start taken) permit some rfl
  · rename_i more
    exact serves_sound sent (.committing back) ⟨left,more,taken⟩ permit some rfl

/-- A request that was written to its end is not yet dispatched. -/
theorem preamble_uncommitted (written : c.down.written=preamble c) : Uncommitted c := by
  unfold Uncommitted
  rw [written]
  exact preamble_lt c

/-- A readiness that was read lets the call decide, or fails it. -/
theorem readyRead_sound {got : Bytes} (base : Base c) (some : c.helper≠none) (permit : c.permit=true)
    (written : c.down.written=preamble c) (taken : c.up.taken=frameBytes) :
    Stays decoding c (readyRead got c) := by
  unfold readyRead
  split
  · exact fail_sound base (fun _ => permit) (fun _ => preamble_uncommitted written)
  · exact serves_sound base .deciding ⟨written,taken⟩ permit some rfl

/-- The second frame that a call reads is the response its helper decided on. -/
theorem response_answers {got : Bytes} (base : Base c) (reads : Reads frameBytes got c.up) (full : got.length=frameBytes) :
    ∃ data, Answers c (ServiceHelperFrame.ofBytes got) data := by
  have taken : c.up.taken=frameBytes+frameBytes := by
    rw [reads.1,full]
  obtain ⟨h,present⟩ := base.present (by rw [taken]; decide)
  have sound := base.helper h present
  have bound := c.up.bound
  have reach := sound.wrote.length_le
  have slice := reads.slice sound.wrote
  rw [full] at slice
  cases decided : h.reply with
  | none =>
    unfold script at reach
    rw [decided] at reach
    cases ready : h.ready with
    | none =>
      rw [ready] at reach
      simp only [List.append_nil,List.length_nil] at reach
      unfold frameBytes at taken
      omega
    | some status =>
      rw [ready] at reach
      simp only [List.append_nil,ServiceHelperFrame.bytes_length] at reach
      unfold frameBytes at taken reach
      omega
  | some pair =>
    obtain ⟨status,data⟩ := pair
    have ready := (sound.reply status data decided).1
    refine ⟨data,h,status,present,decided,?_⟩
    unfold script at slice
    rw [decided,ready] at slice
    dsimp only at slice
    rw [slice_between _ _ _ (ServiceHelperFrame.bytes_length _).symm (ServiceHelperFrame.bytes_length _).symm] at slice
    rw [slice,ServiceHelperFrame.ofBytes_bytes]

/-- A response frame announces the length of the payload its helper decided on. -/
theorem Answers.announced {frame : ServiceHelperFrame} {data : Bytes} (base : Base c) (answers : Answers c frame data) :
    frame.payloadBytes.toNat=data.length := by
  obtain ⟨h,status,present,decided,rfl⟩ := answers
  have small := ((base.helper h present).reply status data decided).2.2.1
  unfold kMaximumServicePayloadBytes at small
  exact UInt32.toNat_ofNat_of_lt' (by change _<2^32; omega)

/-- The bytes behind the second frame are the payload its helper decided on. -/
theorem payload_answers {frame : ServiceHelperFrame} {data got : Bytes} (base : Base c) (answers : Answers c frame data)
    (reads : Reads (frameBytes+frameBytes) got c.up) (full : got.length=frame.payloadBytes.toNat) : got=data := by
  rw [answers.announced base] at full
  obtain ⟨h,status,present,decided,rfl⟩ := answers
  have sound := base.helper h present
  have ready := (sound.reply status data decided).1
  have slice := reads.slice sound.wrote
  rw [full] at slice
  unfold script at slice
  rw [decided,ready] at slice
  dsimp only at slice
  rw [← List.append_assoc,← List.append_nil (_ ++ data),List.append_assoc _ data,slice_between _ data [] _ rfl] at slice
  · exact slice
  · rw [List.length_append,ServiceHelperFrame.bytes_length,ServiceHelperFrame.bytes_length]

/-- A response frame that was read leads to its payload, or fails the call. -/
theorem responseRead_sound {got : Bytes} (sound : Sound decoding c) (at_ : c.point=.checkingResponse got) :
    Stays decoding c (responseRead got c) := by
  obtain ⟨permit,some⟩ := sound.serving at_ rfl
  have stages := sound.stages
  simp only [Stages,at_] at stages
  obtain ⟨reads,full⟩ := stages
  obtain ⟨data,answers⟩ := response_answers sound.base reads full
  unfold responseRead
  dsimp only
  split
  · exact uncertain_sound sound permit rfl
  · split
    · rename_i none
      have empty : data=[] := by
        have announced := answers.announced sound.base
        rw [none] at announced
        exact List.length_eq_zero_iff.mp announced.symm
      rw [empty] at answers
      have closes : Base {c with closed := true} := base_congr sound.base rfl rfl rfl rfl rfl rfl rfl
      exact serves_sound closes (.terminating (.responded _ [])) answers permit some rfl
    · have taken : c.up.taken=frameBytes+frameBytes := by rw [reads.1,full]
      exact serves_sound sound.base (.readingPayload _ []) ⟨⟨data,answers⟩,reads_start taken⟩ permit some rfl

/-- A request that was serialized is small enough. -/
theorem serialized_sound {outcome : Except Ros1ToolsError (Bytes × Bytes)} (sound : Sound decoding c)
    (at_ : c.point=.resolving) : Stays decoding c (serialized outcome c) := by
  have permit := sound.holds.permit
  have alone := sound.stages
  simp only [Stages,at_] at alone
  have fails : ∀ error, Stays decoding c (fail error c) := fun error =>
    fail_sound sound.base (fun some => absurd alone some) (fun _ => alone_uncommitted sound.base alone)
  unfold serialized
  split
  · exact fails _
  · split
    · exact fails _
    · rename_i md5 payload _ small
      obtain ⟨written,taken,wrote,untaken⟩ := sound.base.alone alone
      rw [at_] at permit
      refine ⟨⟨⟨?_,fun some => absurd alone some,fun _ => ⟨written,taken,wrote,untaken⟩,fun h present => ?_⟩,
        ⟨alone,Nat.le_of_not_lt small⟩,permit,(fun wrong => by cases wrong),fun wrong => by cases wrong⟩,rfl⟩
      · show c.down.written <+: _
        rw [written]
        exact List.nil_prefix
      · have none : c.helper=some h := present
        rw [alone] at none
        cases none

/-- The last checks let a request within the limits go on. -/
theorem allow_sound (sound : Sound decoding c) (at_ : c.point=.checking) :
    Stays decoding c (allow c) := by
  have permit := sound.holds.permit
  have stages := sound.stages
  simp only [Stages,at_] at stages
  obtain ⟨alone,payload⟩ := stages
  have fails : ∀ error, Stays decoding c (fail error c) := fun error =>
    fail_sound sound.base (fun some => absurd alone some) (fun _ => alone_uncommitted sound.base alone)
  unfold allow
  split
  · exact fails _
  · rename_i valid
    split
    · exact fails _
    · rename_i named
      rw [not_or] at named
      have limits : Limits c := by
        refine ⟨List.length_pos_iff.mpr named.1,Nat.le_of_not_lt named.2,?_,payload⟩
        have md5 := Bool.eq_true_of_not_eq_false valid
        unfold validServiceMd5 at md5
        exact of_decide_eq_true (Bool.and_eq_true_iff.mp md5).1
      rw [at_] at permit
      exact begins_sound sound.base .loading ⟨alone,limits.congr rfl rfl rfl⟩ permit rfl rfl

/-- A reaped helper leaves an error or a response to decode. -/
theorem reaped_sound {ending : Ending} (sound : Sound decoding c) (at_ : c.point=.terminating ending) :
    Stays decoding c (reaped ending {c with helper := c.helper.map (fun h => {h with point := .gone})}) := by
  obtain ⟨permit,some⟩ := sound.serving at_ rfl
  have stages := sound.stages
  have base := sound.base.reap
  have gone : helperGone {c with helper := c.helper.map (fun h => {h with point := .gone})}=true := by
    unfold helperGone
    cases c.helper with
    | none => rfl
    | some h => exact decide_eq_true rfl
  cases ending with
  | failed error =>
    simp only [Stages,at_] at stages
    exact finish_sound base stages gone
  | responded frame payload =>
    simp only [Stages,at_] at stages
    unfold reaped
    dsimp only
    split
    · rename_i error told
      exact finish_sound base (fun certain => absurd (responseError_uncertain told) certain) gone
    · rename_i told
      obtain ⟨h,status,present,decided,shape⟩ := stages
      refine goes_sound base (.decoding payload) ⟨frame,⟨{h with point := .gone},status,?_,decided,shape⟩,told⟩ permit
        (fun wrong => by cases wrong) (fun _ => gone)
      show c.helper.map _=_
      rw [present]
      rfl

/-- A response without an error is one of a completed call. -/
theorem responseError_none {status : ServiceHelperResponseStatus} {service : Bytes}
    (h : responseError status.code service=none) : status=.kCompleted := by
  cases status with
  | kCompleted => rfl
  | kCallFailed | kResponseTooLarge | kProtocolError => cases h

/-- Decoding a response ends the call with it, or with an uncertain error. -/
theorem decodeResponse_sound {payload : Bytes} {durationMs : ℕ} (sound : Sound decoding c) (at_ : c.point=.decoding payload) :
    Stays decoding c (decodeResponse (decoding c.request.serviceType payload) durationMs c) := by
  have gone := sound.holds.gone (by rw [at_]; rfl)
  have stages := sound.stages
  simp only [Stages,at_] at stages
  obtain ⟨frame,⟨h,status,present,decided,rfl⟩,told⟩ := stages
  have completed_ := responseError_none told
  unfold decodeResponse
  split
  · exact finish_sound sound.base (fun certain => absurd rfl certain) gone
  · rename_i value response
    refine finish_sound sound.base ⟨h,payload,present,?_,response⟩ gone
    rw [decided,completed_]
  · exact finish_sound sound.base (fun certain => absurd (afterCommit_uncertain _) certain) gone

/-- How a turn of a call changes the number of calls in flight and its own part in it. -/
def Counts (maximumInFlight : ℕ) (s s' : Shared) (c c' : Call Response) : Prop :=
  (s'.inFlight=s.inFlight ∧ c'.permit=c.permit) ∨
    (s'.inFlight=s.inFlight+1 ∧ s.inFlight < maximumInFlight ∧ c.permit=false ∧ c'.permit=true) ∨
    (s'.inFlight=s.inFlight-1 ∧ c.permit=true ∧ c'.permit=false)

variable {maximumInFlight : ℕ} {s s' : Shared}

/-- A turn that leaves what is shared alone. -/
theorem alone_counts {result : Option (Call Response)} (keeps : ∀ c', result=some c' → Stays decoding c c')
    (step : result.map (s,·)=some (s',c')) : Sound decoding c' ∧ Counts maximumInFlight s s' c c' := by
  obtain ⟨d,found,same⟩ := Option.map_eq_some_iff.mp step
  obtain ⟨rfl,rfl⟩ := Prod.mk.inj same
  have kept := keeps d found
  exact ⟨kept.1,.inl ⟨rfl,kept.2⟩⟩

/-- A turn that leaves what is shared alone and always happens. -/
theorem sure_counts {d : Call Response} (keeps : Stays decoding c d) (step : some (s,d)=some (s',c')) :
    Sound decoding c' ∧ Counts maximumInFlight s s' c c' := by
  obtain ⟨rfl,rfl⟩ := Prod.mk.inj (Option.some.inj step)
  exact ⟨keeps.1,.inl ⟨rfl,keeps.2⟩⟩

/-- A check before the call has a helper. -/
theorem checked_counts {seen : Check} {next : Call Response} (sound : Sound decoding c) (alone : Alone c)
    (goes : Stays decoding c next) (step : (requirePreDispatchAllowed seen c next).map (s,·)=some (s',c')) :
    Sound decoding c' ∧ Counts maximumInFlight s s' c c' :=
  alone_counts (fun _ => required_sound sound.base (fun served => absurd alone served)
    (alone_uncommitted sound.base alone) goes) step

/-- A check keeps a call sound. -/
theorem check_sound {seen : Check} (sound : Sound decoding c)
    (step : call decoding maximumInFlight s c (.check seen)=some (s',c')) :
    Sound decoding c' ∧ Counts maximumInFlight s s' c c' := by
  have permit := sound.holds.permit
  have stages := sound.stages
  unfold call at step
  dsimp only at step
  split at step
  · rename_i at_
    simp only [Stages,at_] at stages
    rw [at_] at permit
    exact checked_counts sound stages (begins_sound sound.base .resolving stages permit rfl rfl) step
  · rename_i at_
    simp only [Stages,at_] at stages
    exact checked_counts sound stages.1 (allow_sound sound at_) step
  · rename_i at_
    simp only [Stages,at_] at stages
    exact checked_counts sound stages
      (fail_sound sound.base (fun served => absurd stages served) (fun _ => alone_uncommitted sound.base stages)) step
  · rename_i at_
    simp only [Stages,at_] at stages
    obtain ⟨permit,served⟩ := sound.serving at_ rfl
    have more : (makeServiceHelperCommit c.requestId).bytes≠[] := by
      intro empty
      have size := ServiceHelperFrame.bytes_length (makeServiceHelperCommit c.requestId)
      rw [empty] at size
      cases size
    have left : c.down.written ++ (makeServiceHelperCommit c.requestId).bytes=whole c := by
      rw [stages.1]
      rfl
    exact alone_counts (fun c' => required_sound sound.base (fun _ => permit) (preamble_uncommitted stages.1)
      (serves_sound sound.base (.committing _) ⟨left,more,stages.2⟩ permit served rfl)) step
  · rename_i got at_
    exact sure_counts (completed_sound sound (sound.serving at_ rfl).1 (responseRead_sound sound at_)) step
  · rename_i frame got at_
    simp only [Stages,at_] at stages
    obtain ⟨permit,served⟩ := sound.serving at_ rfl
    have closes : Base {c with closed := true} := base_congr sound.base rfl rfl rfl rfl rfl rfl rfl
    have goes : Stays decoding c {c with closed := true,point := .terminating (.responded frame got)} :=
      serves_sound closes (.terminating (.responded frame got)) stages permit served rfl
    exact sure_counts (completed_sound sound permit goes) step
  · cases step

/-- A turn of a transfer keeps a call sound. -/
theorem transfer_sound {turn : Turn} (sound : Sound decoding c)
    (step : call decoding maximumInFlight s c (.transfer turn)=some (s',c')) :
    Sound decoding c' ∧ Counts maximumInFlight s s' c c' := by
  have stages := sound.stages
  unfold call at step
  dsimp only at step
  split at step
  · rename_i rest later at_
    simp only [Stages,at_] at stages
    have uncommitted : Uncommitted c := by
      have size := congrArg List.length stages.1
      rw [List.length_append] at size
      have more := preamble_lt c
      unfold Uncommitted
      omega
    exact alone_counts (fun c' => preCommit_sound sound (sound.serving at_ rfl).1 uncommitted
      (fun count => writing_sound sound at_)) step
  · rename_i got at_
    simp only [Stages,at_] at stages
    obtain ⟨permit,served⟩ := sound.serving at_ rfl
    refine alone_counts (fun c' => preCommit_sound sound permit (preamble_uncommitted stages.1) (fun count =>
      receiving_sound sound.base served stages.2 ?_ ?_)) step
    · intro more up base reads
      exact serves_sound base (.readingReady more) ⟨stages.1,reads⟩ permit served rfl
    · intro more up base reads full
      exact readyRead_sound base served permit stages.1 (by rw [reads.1,full,Nat.zero_add])
  · rename_i rest at_
    simp only [Stages,at_] at stages
    have uncommitted : Uncommitted c := by
      have size := congrArg List.length stages.1
      rw [List.length_append] at size
      have more := List.length_pos_iff.mpr stages.2.1
      unfold Uncommitted
      omega
    exact alone_counts (fun c' => preCommit_sound sound (sound.serving at_ rfl).1 uncommitted
      (fun count => committing_sound sound at_)) step
  · rename_i got at_
    simp only [Stages,at_] at stages
    obtain ⟨permit,served⟩ := sound.serving at_ rfl
    refine alone_counts (fun c' => postCommit_sound sound permit (fun count =>
      receiving_sound sound.base served stages ?_ ?_)) step
    · intro more up base reads
      exact serves_sound base (.readingResponse more) reads permit served rfl
    · intro more up base reads full
      exact serves_sound base (.checkingResponse more) ⟨reads,full⟩ permit served rfl
  · rename_i frame got at_
    simp only [Stages,at_] at stages
    obtain ⟨permit,served⟩ := sound.serving at_ rfl
    obtain ⟨⟨data,answers⟩,before⟩ := stages
    refine alone_counts (fun c' => postCommit_sound sound permit (fun count =>
      receiving_sound sound.base served before ?_ ?_)) step
    · intro more up base reads
      exact serves_sound base (.readingPayload frame more) ⟨⟨data,answers⟩,reads⟩ permit served rfl
    · intro more up base reads full
      have same : more=data := payload_answers base answers reads full
      rw [same]
      exact serves_sound base (.checkingPayload frame data) answers permit served rfl
  · cases step

/-- Loading the number of calls in flight and exchanging it keep a call sound. -/
theorem counting_sound {event : CallEvent} (sound : Sound decoding c) (early : event=.load ∨ ∃ spurious, event=.exchange spurious)
    (step : call decoding maximumInFlight s c event=some (s',c')) :
    Sound decoding c' ∧ Counts maximumInFlight s s' c c' := by
  have permit := sound.holds.permit
  have stages := sound.stages
  have loads : ∀ current, Alone c ∧ Limits c → c.permit=false → Stays decoding c {c with point := .exchanging current} :=
    fun current alone free => begins_sound sound.base (.exchanging current) ⟨alone.1,alone.2.congr rfl rfl rfl⟩ free rfl rfl
  rcases early with rfl | ⟨spurious,rfl⟩
  · unfold call at step
    dsimp only at step
    split at step
    · rename_i at_
      simp only [Stages,at_] at stages
      rw [at_] at permit
      exact sure_counts (loads _ stages permit) step
    · cases step
  · unfold call at step
    dsimp only at step
    split at step
    · rename_i current at_
      simp only [Stages,at_] at stages
      rw [at_] at permit
      split at step
      · exact sure_counts (fail_sound sound.base (fun served => absurd stages.1 served)
          (fun _ => alone_uncommitted sound.base stages.1)) step
      · rename_i room
        split at step
        · rename_i taken
          obtain ⟨rfl,rfl⟩ := Prod.mk.inj (Option.some.inj step)
          have permits : Base {c with permit := true} := base_congr sound.base rfl rfl rfl rfl rfl rfl rfl
          have goes : Stays decoding {c with permit := true} {c with permit := true,point := .starting} :=
            begins_sound permits .starting ⟨stages.1,stages.2.congr rfl rfl rfl⟩ rfl rfl rfl
          refine ⟨goes.1,.inr (.inl ⟨by rw [taken.1],?_,permit,rfl⟩)⟩
          rw [taken.1]
          exact Nat.lt_of_not_le room
        · exact sure_counts (loads _ stages permit) step
    · cases step

/-- Starting a helper keeps a call sound. -/
theorem spawned_sound {failure : Option Bytes} (sound : Sound decoding c)
    (step : call decoding maximumInFlight s c (.spawned failure)=some (s',c')) :
    Sound decoding c' ∧ Counts maximumInFlight s s' c c' := by
  have permit := sound.holds.permit
  have stages := sound.stages
  unfold call at step
  dsimp only at step
  split at step
  · rename_i at_
    simp only [Stages,at_] at stages
    rw [at_] at permit
    cases failure with
    | some reason => exact sure_counts (begins_sound sound.base (.startFailed reason) stages.1 permit rfl rfl) step
    | none =>
      obtain ⟨nothing,_,_,untaken⟩ := sound.base.alone stages.1
      have goes : Stays decoding c {c with helper := some {},point := .numbering} :=
        serves_sound (sound.base.spawn stages.1 stages.2) .numbering ⟨nothing,untaken⟩ permit (Option.some_ne_none _) rfl
      exact sure_counts goes step
  · cases step

/-- Taking an identity keeps a call sound. -/
theorem number_sound (sound : Sound decoding c) (step : call decoding maximumInFlight s c .number=some (s',c')) :
    Sound decoding c' ∧ Counts maximumInFlight s s' c c' := by
  have stages := sound.stages
  unfold call at step
  dsimp only at step
  split at step
  · rename_i at_
    simp only [Stages,at_] at stages
    obtain ⟨permit,served⟩ := sound.serving at_ rfl
    split at step
    · obtain ⟨rfl,rfl⟩ := Prod.mk.inj (Option.some.inj step)
      exact ⟨sound,.inl ⟨rfl,rfl⟩⟩
    · obtain ⟨rfl,rfl⟩ := Prod.mk.inj (Option.some.inj step)
      have left : c.down.written ++ preamble {c with requestId := s.next}=preamble {c with requestId := s.next} := by
        rw [stages.1]
        rfl
      have goes : Sound decoding _ :=
        (serves_sound (sound.base.number stages.1 s.next) (.writing _ _) ⟨left,stages.2⟩ permit served rfl).1
      exact ⟨goes,.inl ⟨rfl,rfl⟩⟩
  · cases step

/-- Every turn of a call keeps it sound. -/
theorem call_sound {event : CallEvent} (sound : Sound decoding c)
    (step : call decoding maximumInFlight s c event=some (s',c')) :
    Sound decoding c' ∧ Counts maximumInFlight s s' c c' := by
  have stages := sound.stages
  cases event with
  | check seen => exact check_sound sound step
  | transfer turn => exact transfer_sound sound step
  | load => exact counting_sound sound (.inl rfl) step
  | exchange spurious => exact counting_sound sound (.inr ⟨spurious,rfl⟩) step
  | spawned failure => exact spawned_sound sound step
  | number => exact number_sound sound step
  | resolved outcome =>
    unfold call at step
    dsimp only at step
    split at step
    · rename_i at_
      exact sure_counts (serialized_sound sound at_) step
    · cases step
  | threw thrown =>
    have fails : ∀ {point}, c.point=point → served point=true → Stays decoding c (fail (afterCommit thrown) c) :=
      fun at_ here => uncertain_sound sound (sound.serving at_ here).1 (afterCommit_uncertain thrown)
    unfold call at step
    dsimp only at step
    split at step
    · rename_i at_
      exact sure_counts (fails at_ rfl) step
    · rename_i at_
      exact sure_counts (fails at_ rfl) step
    · rename_i at_
      exact sure_counts (fails at_ rfl) step
    · rename_i at_
      exact sure_counts (fails at_ rfl) step
    · cases step
  | reaped =>
    unfold call at step
    dsimp only at step
    split at step
    · rename_i at_
      exact sure_counts (reaped_sound sound at_) step
    · cases step
  | decode durationMs =>
    unfold call at step
    dsimp only at step
    split at step
    · rename_i at_
      exact sure_counts (decodeResponse_sound sound at_) step
    · cases step
  | release =>
    unfold call at step
    dsimp only at step
    split at step
    · rename_i outcome at_
      have permit := sound.holds.permit
      have gone := sound.holds.gone (by rw [at_]; rfl)
      simp only [Stages,at_] at stages
      rw [at_] at permit
      obtain ⟨rfl,rfl⟩ := Prod.mk.inj (Option.some.inj step)
      have releases : Base {c with permit := false} := base_congr sound.base rfl rfl rfl rfl rfl rfl rfl
      have goes := goes_sound releases (.returned outcome) stages rfl (fun wrong => by cases wrong) (fun _ => gone)
      exact ⟨goes.1,.inr (.inr ⟨rfl,permit,rfl⟩)⟩
    · cases step

/-- A call that returned takes no turn. -/
theorem returned_silent {outcome : Outcome Response} (event : CallEvent)
    (at_ : c.point=.returned outcome) : call decoding maximumInFlight s c event=none := by
  cases event <;> simp only [call,at_]

end Steps

end Ros1Adapter.ServiceHelperCalls
