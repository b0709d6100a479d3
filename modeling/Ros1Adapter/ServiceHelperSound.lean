import Mathlib.Tactic.SplitIfs
import Ros1Adapter.ServiceHelperProtocol

/-!
# What a service call and its helper know of each other

The call writes the bytes of its request and then those of its commit, and the
helper's point tells how many of them it took. It is about to enter the native
call only when it took the last one. What it wrote itself is the beginning of
the readiness and the response it decided on.
-/

namespace Ros1Adapter.ServiceHelperSound

open LittleEndian ByteStreams ServiceHelperFrames ServiceHelperProtocol

section Bytes

variable {Response : Type}

/-- Bytes of a request. -/
def preamble (c : Call Response) : Bytes := (requestFrame c).bytes ++ (requestSections c).flatten

/-- Bytes of a request and its commit. -/
def whole (c : Call Response) : Bytes := preamble c ++ (makeServiceHelperCommit c.requestId).bytes

/-- A request within the limits of the protocol. -/
structure Limits (c : Call Response) : Prop where
  /-- There is a name. -/
  named : 0<c.request.service.length
  /-- The name is short enough. -/
  name : c.request.service.length ≤ kMaximumServiceNameBytes
  /-- The checksum has its length. -/
  md5 : c.md5.length=kServiceMd5Bytes
  /-- The payload is short enough. -/
  payload : c.payload.length ≤ kMaximumServicePayloadBytes

/-- Sections are the name, the checksum and the payload. -/
theorem sections_flatten (c : Call Response) : (requestSections c).flatten=c.request.service ++ (c.md5 ++ c.payload) := by
  unfold requestSections
  split
  · rename_i empty
    rw [empty]
    simp
  · simp

/-- Length of a request. -/
theorem preamble_length (c : Call Response) :
    (preamble c).length=frameBytes+(c.request.service.length+(c.md5.length+c.payload.length)) := by
  rw [preamble,List.length_append,ServiceHelperFrame.bytes_length,sections_flatten,List.length_append,List.length_append]

/-- The commit follows the request. -/
theorem whole_length (c : Call Response) : (whole c).length=(preamble c).length+frameBytes := by
  rw [whole,List.length_append,ServiceHelperFrame.bytes_length]

/-- Bytes that stand behind so many others. -/
theorem slice_between {α : Type} (before middle after : List α) {start size : ℕ} (hstart : start=before.length)
    (hsize : size=middle.length) : ((before ++ (middle ++ after)).drop start).take size=middle := by
  rw [hstart,hsize,List.drop_left,List.take_left]

/-- The first frame is the request. -/
theorem whole_request (c : Call Response) : ((whole c).drop 0).take frameBytes=(requestFrame c).bytes := by
  rw [List.drop_zero,whole,preamble,List.append_assoc]
  exact List.take_left' (ServiceHelperFrame.bytes_length _)

/-- The name follows. -/
theorem whole_name (c : Call Response) :
    ((whole c).drop frameBytes).take c.request.service.length=c.request.service := by
  rw [whole,preamble,sections_flatten,List.append_assoc,List.append_assoc]
  exact slice_between _ _ _ (ServiceHelperFrame.bytes_length _).symm rfl

/-- The checksum follows. -/
theorem whole_md5 (c : Call Response) :
    ((whole c).drop (frameBytes+c.request.service.length)).take c.md5.length=c.md5 := by
  rw [whole,preamble,sections_flatten,← List.append_assoc,List.append_assoc (_ ++ _),List.append_assoc c.md5]
  refine slice_between _ _ _ ?_ rfl
  rw [List.length_append,ServiceHelperFrame.bytes_length]

/-- The payload follows. -/
theorem whole_payload (c : Call Response) :
    ((whole c).drop (frameBytes+c.request.service.length+c.md5.length)).take c.payload.length=c.payload := by
  rw [whole,preamble,sections_flatten,← List.append_assoc,← List.append_assoc,List.append_assoc (_ ++ _)]
  refine slice_between _ _ _ ?_ rfl
  rw [List.length_append,List.length_append,ServiceHelperFrame.bytes_length]

/-- A request within the limits announces the lengths it has. -/
theorem Limits.announced {c : Call Response} (limits : Limits c) :
    (requestFrame c).serviceNameBytes.toNat=c.request.service.length ∧ (requestFrame c).serviceMd5Bytes.toNat=c.md5.length ∧
      (requestFrame c).payloadBytes.toNat=c.payload.length := by
  have name := limits.name
  have md5 := limits.md5
  have payload := limits.payload
  unfold kMaximumServiceNameBytes at name
  unfold kServiceMd5Bytes at md5
  unfold kMaximumServicePayloadBytes at payload
  refine ⟨?_,?_,?_⟩
  · exact UInt32.toNat_ofNat_of_lt' (by change _<2^32; omega)
  · exact UInt32.toNat_ofNat_of_lt' (by change _<2^32; omega)
  · exact UInt32.toNat_ofNat_of_lt' (by change _<2^32; omega)

end Bytes

section Invariants

variable {Response : Type}

/-- Bytes of a readiness and a response. -/
def script (c : Call Response) (h : Helper) : Bytes :=
  (match h.ready with
    | none => []
    | some status => (makeServiceHelperReady c.requestId status).bytes) ++
  match h.reply with
    | none => []
    | some (status,data) => (makeServiceHelperResponse c.requestId status data.length).bytes ++ data

/-- A helper that decided on nothing and entered nothing. -/
def Fresh (h : Helper) : Prop := h.entered=[] ∧ h.ready=none ∧ h.reply=none

/-- A helper that knows the request. -/
def Known (c : Call Response) (h : Helper) : Prop :=
  h.frame=requestFrame c ∧ h.service=c.request.service ∧ h.md5=c.md5 ∧ h.payload=c.payload

/-- A helper that said it is ready and decided on no response. -/
def Ready (c : Call Response) (h : Helper) : Prop :=
  h.ready=some .kReady ∧ h.reply=none ∧ c.up.written=script c h

/-- What a helper took and wrote, by its point. -/
def Stands (c : Call Response) (h : Helper) : Prop :=
  match h.point with
  | .booting => c.down.taken=0 ∧ Fresh h ∧ h.payload=[]
  | .readingRequest got => Reads 0 got c.down ∧ Fresh h ∧ h.payload=[]
  | .readingName got => h.frame=requestFrame c ∧ Reads frameBytes got c.down ∧ Fresh h ∧ h.payload=[]
  | .readingMd5 got =>
    h.frame=requestFrame c ∧ h.service=c.request.service ∧ Reads (frameBytes+c.request.service.length) got c.down ∧ Fresh h ∧
      h.payload=[]
  | .readingPayload got =>
    h.frame=requestFrame c ∧ h.service=c.request.service ∧ h.md5=c.md5 ∧
      Reads (frameBytes+c.request.service.length+c.md5.length) got c.down ∧ Fresh h
  | .validating => Known c h ∧ c.down.taken=(preamble c).length ∧ Fresh h
  | .looking => Known c h ∧ c.down.taken=(preamble c).length ∧ Fresh h
  | .making => Known c h ∧ c.down.taken=(preamble c).length ∧ Fresh h
  | .writingReady rest =>
    Known c h ∧ c.down.taken=(preamble c).length ∧ h.entered=[] ∧ h.reply=none ∧ c.up.written ++ rest=script c h
  | .readingCommit got => Known c h ∧ Reads (preamble c).length got c.down ∧ h.entered=[] ∧ Ready c h
  | .entering => Known c h ∧ c.down.taken=(whole c).length ∧ h.entered=[] ∧ Ready c h
  | .calling => h.frame=requestFrame c ∧ h.entered≠[] ∧ Ready c h
  | .writingReply rest later => c.up.written ++ (rest ++ later)=script c h
  | .gone => True

/-- A helper between two turns. -/
structure HelperSound (c : Call Response) (h : Helper) : Prop where
  /-- It entered nothing, or the call of the request after it took the whole commit. -/
  entered : h.entered=[] ∨ (h.entered=[(c.request.service,c.md5,c.payload)] ∧ c.down.taken=(whole c).length)
  /-- What it wrote is the beginning of what it decided on. -/
  wrote : c.up.written <+: script c h
  /-- It decides on a readiness after it took the request. -/
  ready : h.ready≠none → (preamble c).length ≤ c.down.taken
  /-- It decides on a response after it entered the call; only a completed call has a payload. -/
  reply : ∀ status data, h.reply=some (status,data) →
    h.ready=some .kReady ∧ h.entered≠[] ∧ data.length ≤ kMaximumServicePayloadBytes ∧ (status≠.kCompleted → data=[])
  /-- Its point tells what it did. -/
  stands : Stands c h

/-- What holds wherever a call stands. -/
structure Base (c : Call Response) : Prop where
  /-- What the call wrote is the beginning of its request and commit. -/
  sent : c.down.written <+: whole c
  /-- Only a request within the limits has a helper. -/
  limits : c.helper≠none → Limits c
  /-- Without a helper nothing is written. -/
  alone : c.helper=none → c.down.written=[] ∧ c.down.taken=0 ∧ c.up.written=[] ∧ c.up.taken=0
  /-- The helper is sound. -/
  helper : ∀ h, c.helper=some h → HelperSound c h

end Invariants

section Helpers

variable {Response : Type} {c c' : Call Response} {h : Helper}

/-- What a helper knows of a call is in its request, its identity and the streams. -/
theorem HelperSound.congr (sound : HelperSound c h) (request : c'.request=c.request) (md5 : c'.md5=c.md5)
    (payload : c'.payload=c.payload) (id : c'.requestId=c.requestId) (down : c'.down=c.down) (up : c'.up.written=c.up.written) :
    HelperSound c' h := by
  have frame : requestFrame c'=requestFrame c := by
    unfold requestFrame
    rw [request,md5,payload,id]
  have preambles : preamble c'=preamble c := by
    unfold preamble requestSections
    rw [frame,request,md5,payload]
  have wholes : whole c'=whole c := by
    unfold whole
    rw [preambles,id]
  have scripts : script c' h=script c h := by
    unfold script
    rw [id]
  refine ⟨?_,?_,?_,sound.reply,?_⟩
  · rw [request,md5,payload,down,wholes]
    exact sound.entered
  · rw [up,scripts]
    exact sound.wrote
  · rw [preambles,down]
    exact sound.ready
  · have stands := sound.stands
    unfold Stands Known Ready at stands ⊢
    rw [request,md5,payload,down,up,frame,preambles,wholes,scripts]
    exact stands

/-- A helper that only goes to another point is sound if that point tells what it did. -/
theorem HelperSound.moves (sound : HelperSound c h) {point : HelperPoint} (stands : Stands c {h with point := point}) :
    HelperSound c {h with point := point} :=
  ⟨sound.entered,sound.wrote,sound.ready,sound.reply,stands⟩

/-- A helper that dies is sound. -/
theorem HelperSound.gone (sound : HelperSound c h) : HelperSound c {h with point := .gone} := sound.moves trivial

/-- A helper that takes more and decides on nothing stays sound if its point tells what it did. -/
theorem HelperSound.advance (sound : HelperSound c h) {down : Stream UInt8} {h' : Helper} (quiet : h.entered=[])
    (entered : h'.entered=h.entered) (ready : h'.ready=h.ready) (reply : h'.reply=h.reply)
    (more : c.down.taken ≤ down.taken) (stands : Stands {c with down := down} h') :
    HelperSound {c with down := down} h' := by
  have scripts : script {c with down := down} h'=script c h := by
    unfold script
    rw [ready,reply]
  refine ⟨.inl (entered.trans quiet),?_,?_,?_,stands⟩
  · rw [scripts]
    exact sound.wrote
  · intro decided
    rw [ready] at decided
    exact (sound.ready decided).trans more
  · intro status data decided
    rw [reply] at decided
    rw [ready,entered]
    exact sound.reply status data decided

/-- A turn of a helper: it takes and writes bytes, keeps a response it decided on, and stays sound. -/
def Turned (c : Call Response) (h : Helper) (c' : Call Response) : Prop :=
  ∃ down piece h', c'={c with down := down,up := c.up.push piece,helper := some h'} ∧ down.written=c.down.written ∧
    (∀ reply, h.reply=some reply → h'.reply=some reply) ∧ HelperSound c' h'

/-- A turn without writing. -/
theorem turned_taking {down : Stream UInt8} {h' : Helper} (written : down.written=c.down.written)
    (reply : ∀ reply, h.reply=some reply → h'.reply=some reply) (sound : HelperSound {c with down := down} h') :
    Turned c h {c with down := down,helper := some h'} := by
  refine ⟨down,[],h',?_,written,reply,sound.congr rfl rfl rfl rfl rfl rfl⟩
  rw [Stream.push_nil]

/-- A turn that only changes the helper. -/
theorem turned_deciding {h' : Helper} (reply : ∀ reply, h.reply=some reply → h'.reply=some reply) (sound : HelperSound c h') :
    Turned c h {c with helper := some h'} := by
  have shown : Turned c h {c with down := c.down,helper := some h'} := turned_taking rfl reply sound
  exact shown

/-- A turn that writes. -/
theorem turned_writing {piece : Bytes} {h' : Helper} (reply : h'.reply=h.reply)
    (sound : HelperSound {c with up := c.up.push piece} h') :
    Turned c h {c with up := c.up.push piece,helper := some h'} :=
  ⟨c.down,piece,h',rfl,rfl,fun _ decided => reply.trans decided,sound.congr rfl rfl rfl rfl rfl rfl⟩

/-- Nothing happens in a turn. -/
theorem turned_again (base : Base c) (present : c.helper=some h) : Turned c h c := by
  have shown := turned_deciding (fun _ same => same) (base.helper h present)
  rw [← present] at shown
  exact shown

/-- The helper dies in a turn. -/
theorem turned_gone (base : Base c) (present : c.helper=some h) : Turned c h {c with helper := some {h with point := .gone}} :=
  turned_deciding (fun _ same => same) (base.helper h present).gone

/-- A turn of reading. -/
theorem readExact_turned {got : Bytes} {start size : ℕ} {point : Bytes → HelperPoint} {done : Bytes → Helper → Helper}
    {turn : Turn} (base : Base c) (present : c.helper=some h) (reads : Reads start got c.down) (quiet : h.entered=[])
    (step : readExact c h got size point done turn=some c')
    (goes : ∀ got down, Reads start got down → Stands {c with down := down} {h with point := point got})
    (ends : ∀ got (down : Stream UInt8), Reads start got down → down.written=c.down.written → c.down.taken ≤ down.taken →
      got=((whole c).drop start).take size → got.length=size →
      HelperSound {c with down := down} (done got h) ∧ (done got h).reply=h.reply) : Turned c h c' := by
  have sound := base.helper h present
  cases turn with
  | moved count =>
    unfold readExact at step
    dsimp only at step
    split at step
    · cases pulled : c.down.pull count with
      | none =>
        rw [pulled] at step
        cases step
      | some taken =>
        obtain ⟨piece,down⟩ := taken
        rw [pulled] at step
        obtain rfl := Option.some.inj step
        obtain ⟨written,taken,_,_⟩ := Stream.pull_spec pulled
        have later := reads.pull pulled
        have more : c.down.taken ≤ down.taken := by omega
        split
        · rename_i full
          have slice := later.slice (show down.written <+: whole c by rw [written]; exact base.sent)
          rw [full] at slice
          obtain ⟨kept,reply⟩ := ends _ down later written more slice full
          exact turned_taking written (fun _ decided => reply.trans decided) kept
        · exact turned_taking written (fun _ same => same) (sound.advance quiet rfl rfl rfl more (goes _ down later))
    · cases step
  | again =>
    obtain rfl := Option.some.inj step
    exact turned_again base present
  | closed =>
    unfold readExact at step
    dsimp only at step
    split at step
    · obtain rfl := Option.some.inj step
      exact turned_gone base present
    · cases step
  | failed reason =>
    obtain rfl := Option.some.inj step
    exact turned_gone base present
  | cancelled | expired | timedOut => cases step

/-- A turn of writing: what is written and what is left stay the bytes that were decided on. -/
theorem writeExact_turned {rest : Bytes} {point : Bytes → HelperPoint} {done : HelperPoint} {turn : Turn} (base : Base c)
    (present : c.helper=some h) (step : writeExact c h rest point done turn=some c')
    (goes : ∀ front back, rest=front ++ back → back≠[] →
      HelperSound {c with up := c.up.push front} {h with point := point back})
    (ends : HelperSound {c with up := c.up.push rest} {h with point := done}) : Turned c h c' := by
  cases turn with
  | moved count =>
    unfold writeExact at step
    dsimp only at step
    split at step
    · obtain rfl := Option.some.inj step
      by_cases all : rest.drop count=[]
      · have front : rest.take count=rest := by
          have parts := List.take_append_drop count rest
          rw [all,List.append_nil] at parts
          exact parts
        rw [if_pos all,front]
        exact turned_writing rfl ends
      · rw [if_neg all]
        exact turned_writing rfl (goes _ _ (List.take_append_drop count rest).symm all)
    · cases step
  | again =>
    obtain rfl := Option.some.inj step
    exact turned_again base present
  | closed | failed _ =>
    obtain rfl := Option.some.inj step
    exact turned_gone base present
  | cancelled | expired | timedOut => cases step

/-- A helper that writes what it decided on stays sound if its point tells what it did. -/
theorem HelperSound.writes (sound : HelperSound c h) {piece : Bytes} {point : HelperPoint}
    (wrote : c.up.written ++ piece <+: script c h) (stands : Stands {c with up := c.up.push piece} {h with point := point}) :
    HelperSound {c with up := c.up.push piece} {h with point := point} :=
  ⟨sound.entered,wrote,sound.ready,sound.reply,stands⟩

/-- Deciding on a readiness keeps a helper sound that knows the request. -/
theorem answerReady_sound (sound : HelperSound c h) (status : ServiceHelperReadyStatus) (known : Known c h)
    (taken : c.down.taken=(preamble c).length) (fresh : Fresh h) :
    HelperSound c (answerReady status h) ∧ (answerReady status h).reply=h.reply := by
  have nothing : c.up.written=[] := by
    have wrote := sound.wrote
    unfold script at wrote
    rw [fresh.2.1,fresh.2.2] at wrote
    exact List.prefix_nil.mp wrote
  have decided : script c (answerReady status h)=(makeServiceHelperReady c.requestId status).bytes := by
    unfold script answerReady
    dsimp only
    rw [fresh.2.2]
    exact List.append_nil _
  refine ⟨⟨.inl fresh.1,?_,fun _ => Nat.le_of_eq taken.symm,?_,?_⟩,rfl⟩
  · rw [nothing]
    exact List.nil_prefix
  · intro other data replied
    have none : h.reply=some (other,data) := replied
    rw [fresh.2.2] at none
    cases none
  · refine ⟨known,taken,fresh.1,fresh.2.2,?_⟩
    rw [nothing,decided,show h.frame.requestId=c.requestId by rw [known.1]; rfl]
    exact List.nil_append _

/-- Deciding on a response keeps a helper sound that called. -/
theorem answerReply_sound (sound : HelperSound c h) (status : ServiceHelperResponseStatus) {data : Bytes}
    (frame : h.frame=requestFrame c) (called : h.entered≠[]) (ready : Ready c h)
    (size : data.length ≤ kMaximumServicePayloadBytes) (empty : status≠.kCompleted → data=[]) :
    HelperSound c (answerReply status data h) := by
  have before : script c h=(makeServiceHelperReady c.requestId .kReady).bytes := by
    unfold script
    rw [ready.1,ready.2.1]
    exact List.append_nil _
  have decided : script c (answerReply status data h)=
      script c h ++ ((makeServiceHelperResponse c.requestId status data.length).bytes ++ data) := by
    rw [before]
    unfold script answerReply
    dsimp only
    rw [ready.1]
  refine ⟨sound.entered,?_,sound.ready,?_,?_⟩
  · rw [decided,ready.2.2]
    exact List.prefix_append _ _
  · intro other data' replied
    obtain ⟨rfl,rfl⟩ := Prod.mk.inj (Option.some.inj replied)
    exact ⟨ready.1,called,size,empty⟩
  · show c.up.written ++ ((makeServiceHelperResponse h.frame.requestId status data.length).bytes ++ data)=
      script c (answerReply status data h)
    rw [decided,ready.2.2,show h.frame.requestId=c.requestId by rw [frame]; rfl]

/-- A helper that read a request frame knows it. -/
theorem requestRead_sound (base : Base c) (present : c.helper=some h) (fresh : Fresh h) (payload : h.payload=[])
    {got : Bytes} {down : Stream UInt8} (reads : Reads 0 got down) (more : c.down.taken ≤ down.taken)
    (slice : got=((whole c).drop 0).take frameBytes) (full : got.length=frameBytes) :
    HelperSound {c with down := down} (requestRead got h) ∧ (requestRead got h).reply=h.reply := by
  have sound := base.helper h present
  have frame : ServiceHelperFrame.ofBytes got=requestFrame c := by
    rw [slice,whole_request,ServiceHelperFrame.ofBytes_bytes]
  have taken : down.taken=frameBytes := by
    rw [reads.1,full,Nat.zero_add]
  unfold requestRead
  dsimp only
  split
  · exact ⟨sound.advance fresh.1 rfl rfl rfl more ⟨frame,reads_start taken,fresh,payload⟩,rfl⟩
  · exact ⟨sound.advance fresh.1 rfl rfl rfl more trivial,rfl⟩

/-- A helper that read a commit may call. -/
theorem commitRead_sound (base : Base c) (present : c.helper=some h) (known : Known c h) (quiet : h.entered=[])
    (ready : Ready c h) {got : Bytes} {down : Stream UInt8} (reads : Reads (preamble c).length got down)
    (more : c.down.taken ≤ down.taken) (full : got.length=frameBytes) :
    HelperSound {c with down := down} (commitRead got h) ∧ (commitRead got h).reply=h.reply := by
  have sound := base.helper h present
  unfold commitRead
  split
  · refine ⟨sound.advance quiet rfl rfl rfl more ⟨known,?_,quiet,ready⟩,rfl⟩
    rw [reads.1,full]
    exact (whole_length c).symm
  · exact ⟨sound.advance quiet rfl rfl rfl more trivial,rfl⟩

/-- Every turn of a transfer of a helper keeps it sound. -/
theorem transfer_turned {turn : Turn} (base : Base c) (present : c.helper=some h)
    (step : runHelper c h (.transfer turn)=some c') : Turned c h c' := by
  have sound := base.helper h present
  have limits := base.limits (by rw [present]; exact Option.some_ne_none h)
  have announced := limits.announced
  have stands := sound.stands
  unfold runHelper at step
  dsimp only at step
  split at step
  · rename_i got at_
    simp only [Stands,at_] at stands
    obtain ⟨reads,fresh,payload⟩ := stands
    exact readExact_turned base present reads fresh.1 step (fun _ _ later => ⟨later,fresh,payload⟩)
      (fun _ _ later _ more slice full => requestRead_sound base present fresh payload later more slice full)
  · rename_i got at_
    simp only [Stands,at_] at stands
    obtain ⟨frame,reads,fresh,payload⟩ := stands
    refine readExact_turned base present reads fresh.1 step (fun _ _ later => ⟨frame,later,fresh,payload⟩) ?_
    intro got down later _ more slice full
    rw [frame,announced.1] at slice full
    rw [whole_name] at slice
    have taken := later.1
    rw [full] at taken
    exact ⟨sound.advance fresh.1 rfl rfl rfl more ⟨frame,slice,reads_start taken,fresh,payload⟩,rfl⟩
  · rename_i got at_
    simp only [Stands,at_] at stands
    obtain ⟨frame,service,reads,fresh,payload⟩ := stands
    refine readExact_turned base present reads fresh.1 step (fun _ _ later => ⟨frame,service,later,fresh,payload⟩) ?_
    intro got down later _ more slice full
    rw [frame,announced.2.1] at slice full
    rw [whole_md5] at slice
    have taken := later.1
    rw [full] at taken
    refine ⟨sound.advance fresh.1 rfl rfl rfl more ?_,rfl⟩
    unfold md5Read
    by_cases none : h.frame.payloadBytes=0
    · have nothing : c.payload=[] := by
        rw [frame] at none
        have size := announced.2.2
        rw [none] at size
        exact List.length_eq_zero_iff.mp size.symm
      rw [if_pos none]
      refine ⟨⟨frame,service,slice,payload.trans nothing.symm⟩,?_,fresh⟩
      have length := preamble_length c
      rw [nothing,List.length_nil] at length
      show down.taken=(preamble c).length
      omega
    · rw [if_neg none]
      exact ⟨frame,service,slice,reads_start taken,fresh⟩
  · rename_i got at_
    simp only [Stands,at_] at stands
    obtain ⟨frame,service,md5,reads,fresh⟩ := stands
    refine readExact_turned base present reads fresh.1 step (fun _ _ later => ⟨frame,service,md5,later,fresh⟩) ?_
    intro got down later _ more slice full
    rw [frame,announced.2.2] at slice full
    rw [whole_payload] at slice
    refine ⟨sound.advance fresh.1 rfl rfl rfl more ⟨⟨frame,service,md5,slice⟩,?_,fresh⟩,rfl⟩
    have taken := later.1
    have length := preamble_length c
    show down.taken=(preamble c).length
    omega
  · rename_i rest at_
    simp only [Stands,at_] at stands
    obtain ⟨known,taken,quiet,none,left⟩ := stands
    refine writeExact_turned base present step ?_ ?_
    · intro front back parts more
      rw [parts,← List.append_assoc] at left
      exact sound.writes ⟨back,left⟩ ⟨known,taken,quiet,none,left⟩
    · refine sound.writes (by rw [left]) ?_
      split
      · rename_i ready
        exact ⟨known,reads_start taken,quiet,ready,none,left⟩
      · trivial
  · rename_i got at_
    simp only [Stands,at_] at stands
    obtain ⟨known,reads,quiet,ready⟩ := stands
    exact readExact_turned base present reads quiet step (fun _ _ later => ⟨known,later,quiet,ready⟩)
      (fun _ _ later _ more _ full => commitRead_sound base present known quiet ready later more full)
  · rename_i rest later at_
    simp only [Stands,at_] at stands
    refine writeExact_turned base present step ?_ ?_
    · intro front back parts more
      rw [parts,List.append_assoc,← List.append_assoc] at stands
      exact sound.writes ⟨back ++ later,stands⟩ stands
    · rw [← List.append_assoc] at stands
      refine sound.writes ⟨later,stands⟩ ?_
      split
      · trivial
      · show (c.up.written ++ rest) ++ (later ++ [])=script c h
        rw [List.append_nil]
        exact stands
  · cases step

/-- Every turn of a helper keeps it sound. -/
theorem helper_turned {event : HelperEvent} (base : Base c) (present : c.helper=some h)
    (step : runHelper c h event=some c') : Turned c h c' := by
  have sound := base.helper h present
  have stands := sound.stands
  cases event with
  | transfer turn => exact transfer_turned base present step
  | booted ok =>
    unfold runHelper at step
    dsimp only at step
    split at step
    · rename_i at_
      simp only [Stands,at_] at stands
      obtain ⟨taken,fresh,payload⟩ := stands
      obtain rfl := Option.some.inj step
      cases ok with
      | true =>
        exact turned_deciding (fun _ same => same) (sound.moves ⟨reads_start taken,fresh,payload⟩)
      | false => exact turned_gone base present
    · cases step
  | named valid =>
    unfold runHelper at step
    dsimp only at step
    split at step
    · rename_i at_
      simp only [Stands,at_] at stands
      obtain ⟨known,taken,fresh⟩ := stands
      obtain rfl := Option.some.inj step
      split
      · exact turned_deciding (fun _ same => same) (sound.moves ⟨known,taken,fresh⟩)
      · have answered := answerReady_sound sound .kProtocolError known taken fresh
        exact turned_deciding (fun _ decided => answered.2.trans decided) answered.1
    · cases step
  | available found =>
    unfold runHelper at step
    dsimp only at step
    split at step
    · rename_i at_
      simp only [Stands,at_] at stands
      obtain ⟨known,taken,fresh⟩ := stands
      obtain rfl := Option.some.inj step
      split
      · exact turned_deciding (fun _ same => same) (sound.moves ⟨known,taken,fresh⟩)
      · have answered := answerReady_sound sound .kServiceUnavailable known taken fresh
        exact turned_deciding (fun _ decided => answered.2.trans decided) answered.1
    · cases step
  | made ok =>
    unfold runHelper at step
    dsimp only at step
    split at step
    · rename_i at_
      simp only [Stands,at_] at stands
      obtain ⟨known,taken,fresh⟩ := stands
      obtain rfl := Option.some.inj step
      have answered := answerReady_sound sound (if ok then .kReady else .kProtocolError) known taken fresh
      exact turned_deciding (fun _ decided => answered.2.trans decided) answered.1
    · cases step
  | enter =>
    unfold runHelper at step
    dsimp only at step
    split at step
    · rename_i at_
      simp only [Stands,at_] at stands
      obtain ⟨known,taken,quiet,ready⟩ := stands
      obtain rfl := Option.some.inj step
      refine turned_deciding (fun _ same => same) ⟨.inr ⟨?_,taken⟩,sound.wrote,sound.ready,?_,known.1,?_,ready⟩
      · show (h.service,h.md5,h.payload)::h.entered=_
        rw [quiet,known.2.1,known.2.2.1,known.2.2.2]
      · intro status data decided
        have none : h.reply=some (status,data) := decided
        rw [ready.2.1] at none
        cases none
      · exact List.cons_ne_nil _ _
    · cases step
  | callFailed =>
    unfold runHelper at step
    dsimp only at step
    split at step
    · rename_i at_
      simp only [Stands,at_] at stands
      obtain ⟨frame,called,ready⟩ := stands
      obtain rfl := Option.some.inj step
      refine turned_deciding (fun _ decided => ?_) (answerReply_sound sound _ frame called ready (Nat.zero_le _) (fun _ => rfl))
      rw [ready.2.1] at decided
      cases decided
    · cases step
  | called payload =>
    unfold runHelper at step
    dsimp only at step
    split at step
    · rename_i at_
      simp only [Stands,at_] at stands
      obtain ⟨frame,called,ready⟩ := stands
      have fresh : ∀ reply, h.reply≠some reply := by
        intro reply decided
        rw [ready.2.1] at decided
        cases decided
      have empty : ∀ status, HelperSound c (answerReply status [] h) := fun status =>
        answerReply_sound sound status frame called ready (Nat.zero_le _) (fun _ => rfl)
      cases payload with
      | none =>
        obtain rfl := Option.some.inj step
        exact turned_deciding (fun reply decided => absurd decided (fresh reply)) (empty _)
      | some data =>
        obtain rfl := Option.some.inj step
        split
        · exact turned_deciding (fun reply decided => absurd decided (fresh reply)) (empty _)
        · rename_i small
          exact turned_deciding (fun reply decided => absurd decided (fresh reply))
            (answerReply_sound sound _ frame called ready (Nat.le_of_not_lt small) (fun wrong => absurd rfl wrong))
    · cases step
  | died =>
    unfold runHelper at step
    dsimp only at step
    split at step
    · cases step
    · obtain rfl := Option.some.inj step
      exact turned_gone base present

end Helpers

section Bases

variable {Response : Type} {c c' : Call Response} {h : Helper}

/-- The request is not dispatched: the commit is not written. -/
def Uncommitted (c : Call Response) : Prop := c.down.written.length<(whole c).length

/-- The limits are about the request, the checksum and the payload. -/
theorem Limits.congr (limits : Limits c) (request : c'.request=c.request) (md5 : c'.md5=c.md5)
    (payload : c'.payload=c.payload) : Limits c' := by
  obtain ⟨named,name,size,short⟩ := limits
  rw [← request] at named name
  rw [← md5] at size
  rw [← payload] at short
  exact ⟨named,name,size,short⟩

/-- What holds wherever a call stands is in its request, its helper and the streams. -/
theorem base_congr (base : Base c) (request : c'.request=c.request) (md5 : c'.md5=c.md5) (payload : c'.payload=c.payload)
    (id : c'.requestId=c.requestId) (helper : c'.helper=c.helper) (down : c'.down=c.down) (up : c'.up=c.up) : Base c' := by
  have frame : requestFrame c'=requestFrame c := by
    unfold requestFrame
    rw [request,md5,payload,id]
  have wholes : whole c'=whole c := by
    unfold whole preamble requestSections
    rw [frame,request,md5,payload,id]
  refine ⟨?_,?_,?_,?_⟩
  · rw [down,wholes]
    exact base.sent
  · intro present
    rw [helper] at present
    exact (base.limits present).congr request md5 payload
  · rw [helper,down,up]
    exact base.alone
  · intro h present
    rw [helper] at present
    exact (base.helper h present).congr request md5 payload id down (by rw [up])

/-- The commit is not empty. -/
theorem preamble_lt (c : Call Response) : (preamble c).length<(whole c).length := by
  rw [whole_length]
  exact Nat.lt_add_of_pos_right (by decide)

/-- A helper that entered the call took the whole commit. -/
theorem Base.quiet (base : Base c) (uncommitted : Uncommitted c) (present : c.helper=some h) : h.entered=[] := by
  rcases (base.helper h present).entered with none | entered
  · exact none
  · have taken := c.down.bound
    rw [entered.2] at taken
    exact absurd uncommitted (Nat.not_lt_of_le taken)

/-- A call that has read bytes has a helper. -/
theorem Base.present (base : Base c) (took : 0<c.up.taken) : ∃ h, c.helper=some h := by
  cases present : c.helper with
  | none =>
    rw [(base.alone present).2.2.2] at took
    cases took
  | some h => exact ⟨h,rfl⟩

/-- Sent bytes disturb no helper. -/
theorem HelperSound.sent (sound : HelperSound c h) (piece : Bytes) : HelperSound {c with down := c.down.push piece} h := by
  refine ⟨sound.entered,sound.wrote,sound.ready,sound.reply,?_⟩
  have stands := sound.stands
  cases point : h.point with
  | readingRequest got =>
    simp only [Stands,point] at stands ⊢
    exact ⟨stands.1.push piece,stands.2⟩
  | readingName _ | readingCommit _ =>
    simp only [Stands,point] at stands ⊢
    exact ⟨stands.1,stands.2.1.push piece,stands.2.2⟩
  | readingMd5 got =>
    simp only [Stands,point] at stands ⊢
    exact ⟨stands.1,stands.2.1,stands.2.2.1.push piece,stands.2.2.2⟩
  | readingPayload got =>
    simp only [Stands,point] at stands ⊢
    exact ⟨stands.1,stands.2.1,stands.2.2.1,stands.2.2.2.1.push piece,stands.2.2.2.2⟩
  | booting | validating | looking | making | writingReady _ | entering | calling | writingReply _ _ =>
    simp only [Stands,point] at stands ⊢
    exact stands
  | gone => simp only [Stands,point]

/-- Sending the next bytes keeps what holds. -/
theorem Base.send (base : Base c) {piece : Bytes} (present : c.helper≠none) (next : c.down.written ++ piece <+: whole c) :
    Base {c with down := c.down.push piece} :=
  ⟨next,fun _ => (base.limits present).congr rfl rfl rfl,fun none => absurd none present,fun h here => (base.helper h here).sent piece⟩

/-- Receiving bytes keeps what holds. -/
theorem Base.receive (base : Base c) {up : Stream UInt8} (present : c.helper≠none) (written : up.written=c.up.written) :
    Base {c with up := up} :=
  ⟨base.sent,fun _ => (base.limits present).congr rfl rfl rfl,fun none => absurd none present,
    fun h here => (base.helper h here).congr rfl rfl rfl rfl rfl written⟩

/-- Before anything is written a call may take an identity. -/
theorem Base.number (base : Base c) (nothing : c.down.written=[]) (id : UInt64) : Base {c with requestId := id} := by
  have empty : c.down.taken=0 := by
    have bound := c.down.bound
    rw [nothing] at bound
    exact Nat.le_zero.mp bound
  refine ⟨?_,fun present => (base.limits present).congr rfl rfl rfl,base.alone,?_⟩
  · show c.down.written <+: _
    rw [nothing]
    exact List.nil_prefix
  · intro h present
    have sound := base.helper h present
    have positive : 0<(preamble c).length := by
      rw [preamble_length]
      exact Nat.lt_of_lt_of_le (by decide) (Nat.le_add_right _ _)
    have quiet : h.entered=[] := base.quiet (by unfold Uncommitted; rw [nothing]; exact Nat.zero_lt_of_lt (preamble_lt c)) present
    have undecided : h.ready=none := by
      cases ready : h.ready with
      | none => rfl
      | some status =>
        have took := sound.ready (by rw [ready]; exact Option.some_ne_none _)
        omega
    have silent : h.reply=none := by
      cases reply : h.reply with
      | none => rfl
      | some pair =>
        obtain ⟨status,data⟩ := pair
        exact absurd quiet (sound.reply status data reply).2.1
    have scripts : ∀ c : Call Response, script c h=[] := by
      intro c
      unfold script
      rw [undecided,silent]
      rfl
    refine ⟨.inl quiet,?_,fun wrong => absurd undecided wrong,sound.reply,?_⟩
    · have wrote := sound.wrote
      rw [scripts] at wrote ⊢
      exact wrote
    · have stands := sound.stands
      cases point : h.point with
      | booting | readingRequest _ =>
        simp only [Stands,point] at stands ⊢
        exact stands
      | readingName got =>
        simp only [Stands,point] at stands
        have took := stands.2.1.1
        unfold frameBytes at took
        omega
      | readingMd5 got =>
        simp only [Stands,point] at stands
        have took := stands.2.2.1.1
        unfold frameBytes at took
        omega
      | readingPayload got =>
        simp only [Stands,point] at stands
        have took := stands.2.2.2.1.1
        unfold frameBytes at took
        omega
      | validating | looking | making | writingReady _ =>
        simp only [Stands,point] at stands
        omega
      | readingCommit got =>
        simp only [Stands,point] at stands
        have took := stands.2.1.1
        omega
      | entering =>
        simp only [Stands,point] at stands
        have more := preamble_lt c
        omega
      | calling =>
        simp only [Stands,point] at stands
        exact absurd quiet stands.2.1
      | writingReply rest later =>
        simp only [Stands,point,scripts] at stands ⊢
        exact stands
      | gone => simp only [Stands,point]

/-- A new helper knows nothing. -/
theorem Base.spawn (base : Base c) (alone : c.helper=none) (limits : Limits c) : Base {c with helper := some {}} := by
  obtain ⟨nothing,taken,written,_⟩ := base.alone alone
  refine ⟨base.sent,fun _ => limits.congr rfl rfl rfl,(fun none => by cases none),?_⟩
  intro h present
  obtain rfl : ({} : Helper)=h := Option.some.inj present
  refine ⟨.inl rfl,?_,fun wrong => absurd rfl wrong,(fun status data replied => by cases replied),taken,⟨rfl,rfl,rfl⟩,rfl⟩
  show c.up.written <+: _
  rw [written]
  exact List.nil_prefix

/-- A helper that is killed keeps what it did. -/
theorem Base.reap (base : Base c) : Base {c with helper := c.helper.map (fun h => {h with point := .gone})} := by
  cases present : c.helper with
  | none => exact base_congr base rfl rfl rfl rfl present.symm rfl rfl
  | some h =>
    have some : c.helper≠none := by
      rw [present]
      exact Option.some_ne_none h
    refine ⟨base.sent,fun _ => (base.limits some).congr rfl rfl rfl,(fun none => by cases none),?_⟩
    · intro h' same
      obtain rfl := Option.some.inj same
      exact (base.helper h present).gone.congr rfl rfl rfl rfl rfl rfl

end Bases

end Ros1Adapter.ServiceHelperSound
