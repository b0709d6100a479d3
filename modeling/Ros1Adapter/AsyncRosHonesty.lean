import Ros1Adapter.AsyncRosPump

/-!
# Asynchronous ROS services answer honestly

A call that says its request was not sent has written no byte of it, and a
response is the first frame that followed the whole request. Every call is
pending until its completion, which is invoked once, by the first pump that
collects it.
-/

namespace Ros1Adapter.AsyncRosHonesty

open ActionRules LittleEndian AsyncRosServices AsyncRosPump

section Traces

/-- The call that an event is about. -/
def eventId : Event → ℕ
  | .started id _ | .wrote id _ _ | .received id _ | .finished id | .completed id _ => id

/-- Bytes of one message that a call has written, from its events, newest first. -/
def sentOf (id : ℕ) (message : Message) : List Event → Bytes
  | [] => []
  | .wrote i m bytes::older => if i=id ∧ m=message then sentOf id message older ++ bytes else sentOf id message older
  | .started _ _::older | .received _ _::older | .finished _::older | .completed _ _::older => sentOf id message older

/-- Bytes that a call has received since it last wrote to one message. -/
def since (id : ℕ) (message : Message) : List Event → Bytes
  | [] => []
  | .wrote i m _::older => if i=id ∧ m=message then [] else since id message older
  | .received i bytes::older => if i=id then since id message older ++ bytes else since id message older
  | .started _ _::older | .finished _::older | .completed _ _::older => since id message older

/-- Nothing is written for a call after it finished. -/
def Silent (trace : List Event) : Prop :=
  ∀ newer older id, trace=newer ++ .finished id::older → ∀ message bytes, Event.wrote id message bytes∉newer

/-- Events of other calls write nothing for a call. -/
theorem sentOf_others {id : ℕ} {message : Message} {new older : List Event} (h : ∀ event∈new, eventId event≠id) :
    sentOf id message (new ++ older)=sentOf id message older := by
  induction new with
  | nil => rfl
  | cons event rest ih =>
    have later := ih fun e he => h e (List.mem_cons_of_mem _ he)
    have other := h event (List.mem_cons_self ..)
    cases event with
    | wrote i m bytes =>
      rw [List.cons_append,sentOf,if_neg (fun same => other same.1)]
      exact later
    | started _ _ | received _ _ | finished _ | completed _ _ => exact later

/-- Events of other calls bring nothing for a call. -/
theorem since_others {id : ℕ} {message : Message} {new older : List Event} (h : ∀ event∈new, eventId event≠id) :
    since id message (new ++ older)=since id message older := by
  induction new with
  | nil => rfl
  | cons event rest ih =>
    have later := ih fun e he => h e (List.mem_cons_of_mem _ he)
    have other := h event (List.mem_cons_self ..)
    cases event with
    | wrote i m bytes =>
      rw [List.cons_append,since,if_neg (fun same => other same.1)]
      exact later
    | received i bytes =>
      have apart : i≠id := other
      rw [List.cons_append,since,if_neg apart]
      exact later
    | started _ _ | finished _ | completed _ _ => exact later

/-- Silence goes on while no finished call writes. -/
theorem silent_cons {event : Event} {trace : List Event} (h : Silent trace)
    (open_ : ∀ id message bytes, event=.wrote id message bytes → Event.finished id∉trace) : Silent (event::trace) := by
  intro newer older id shape message bytes wrote
  cases newer with
  | nil => cases wrote
  | cons first rest =>
    rw [List.cons_append] at shape
    obtain ⟨same,later⟩ := List.cons.inj shape
    rcases List.mem_cons.mp wrote with here | further
    · rw [← here] at same
      exact open_ id message bytes same (by simp [later])
    · exact h rest older id later message bytes further

end Traces

section Bytes

/-- What was found stands at its position. -/
theorem find_spec {needle bytes : Bytes} {position : ℕ} (h : find needle bytes=some position) :
    position ≤ bytes.length ∧ ∃ rest, bytes=bytes.take position ++ needle ++ rest := by
  induction bytes generalizing position with
  | nil =>
    unfold find at h
    split at h
    · rename_i empty
      obtain rfl : 0=position := Option.some.inj h
      exact ⟨Nat.le_refl _,[],by rw [empty]; rfl⟩
    · cases h
  | cons b rest ih =>
    unfold find at h
    split at h
    · rename_i here
      obtain rfl : 0=position := Option.some.inj h
      obtain ⟨rest',shape⟩ := List.isPrefixOf_iff_prefix.mp here
      exact ⟨Nat.zero_le _,rest',by rw [List.take_zero,List.nil_append,shape]⟩
    · obtain ⟨before,found,next⟩ := Option.map_eq_some_iff.mp h
      obtain ⟨bound,rest',shape⟩ := ih found
      rw [← next,List.take_succ_cons]
      refine ⟨Nat.succ_le_succ bound,rest',?_⟩
      rw [List.cons_append,List.cons_append]
      exact congrArg (b::·) shape

/-- Further bytes extend the first ones. -/
theorem take_further (bytes : Bytes) (sent count : ℕ) :
    bytes.take sent ++ (bytes.drop sent).take count=bytes.take (sent+((bytes.drop sent).take count).length) := by
  rw [List.take_add,List.length_take,← List.take_eq_take_min]

end Bytes

section Calls

/-- A response frame of the service at the start of a stream. -/
def ServiceFrame (stream response : Bytes) : Prop :=
  response.length ≤ maximumFrame ∧ ∃ rest, stream=1::(framed response ++ rest)

/-- A response of the master at the start of a stream, behind headers that give its length. -/
def MasterFrame (stream response : Bytes) : Prop :=
  ∃ head rest value, stream=head ++ ofText "\r\n\r\n" ++ response ++ rest ∧ find (ofText "\r\n\r\n") stream=some head.length ∧
    contentLength (head.map lower)=some value ∧ value.all isDigit=true ∧ decimal value=response.length ∧
    response.length ≤ maximumFrame

/-- What a response rests on: the whole request was written, and the response is the first that followed. -/
def Answered (id : ℕ) (request : Request) (response : Bytes) (trace : List Event) : Prop :=
  if request.masterXml=[] then
    sentOf id .request trace=framed request.bytes ∧ ServiceFrame (since id .request trace) response
  else
    ∃ address, parseAddress request.masterUri (ofText "http")=some address ∧
      sentOf id .lookup trace=masterPost {request := request,address := address} ∧
      MasterFrame (since id .lookup trace) response

/-- What a result says of the bytes that were written and received. -/
def Honest (id : ℕ) (request : Request) (result : Result) (trace : List Event) : Prop :=
  match result.outcome with
  | .response => Answered id request result.response trace
  | .notSent | .deadline | .cancelled => sentOf id .request trace=[]
  | .unknown => request.masterXml=[] ∧ sentOf id .request trace≠[]

/-- No byte of the request frame was written. -/
def Quiet (x : Running) : Prop := x.call.requestSent=false ∧ sentOf x.id .request x.trace=[]

/-- The master is the next peer. -/
def AtMaster (x : Running) : Prop :=
  Quiet x ∧ parseAddress x.call.request.masterUri (ofText "http")=some x.call.address

/-- The service is the next peer. -/
def AtService (x : Running) : Prop := Quiet x ∧ x.call.request.masterXml=[]

/-- The first bytes of a message are written, and nothing came since. -/
def Partly (message : Message) (bytes : Bytes) (x : Running) : Prop :=
  x.call.send=bytes ∧ x.call.sent ≤ bytes.length ∧ sentOf x.id message x.trace=bytes.take x.call.sent ∧
    (x.call.sent≠0 → since x.id message x.trace=[])

/-- A message is written, and the call holds what came since. -/
def Wholly (message : Message) (bytes : Bytes) (x : Running) : Prop :=
  sentOf x.id message x.trace=bytes ∧ since x.id message x.trace=x.call.received

/-- What a call that is not finished has done, by its stage. -/
def Sound (x : Running) : Prop :=
  match x.call.stage with
  | .resolveMaster => AtMaster x ∧ sentOf x.id .lookup x.trace=[] ∧ x.call.fd=none
  | .connectMaster => AtMaster x ∧ sentOf x.id .lookup x.trace=[]
  | .writeMaster => AtMaster x ∧ Partly .lookup (masterPost x.call) x
  | .readMaster => AtMaster x ∧ Wholly .lookup (masterPost x.call) x
  | .resolveService => AtService x ∧ x.call.fd=none
  | .connectService => AtService x
  | .writeHeader => AtService x
  | .readHeader => AtService x
  | .writeRequest =>
    x.call.request.masterXml=[] ∧ x.call.requestSent=decide (x.call.sent≠0) ∧ Partly .request (framed x.call.request.bytes) x
  | .readResponse =>
    x.call.request.masterXml=[] ∧ x.call.requestSent=true ∧ Wholly .request (framed x.call.request.bytes) x

/-- The flag of a call tells whether a byte of the request was written. -/
def Told (x : Running) : Prop :=
  (x.call.requestSent=false → sentOf x.id .request x.trace=[]) ∧
    (x.call.requestSent=true → x.call.request.masterXml=[] ∧ sentOf x.id .request x.trace≠[])

/-- A call between two steps of the event loop. -/
structure Good (x : Running) : Prop where
  /-- It finished only if it is done. -/
  open_ : x.call.done=false → Event.finished x.id∉x.trace
  /-- While it is not done, its stage says what it did. -/
  sound : x.call.done=false → Sound x
  /-- When it is done, its result is honest. -/
  honest : x.call.done=true → Honest x.id x.call.request x.call.result x.trace
  /-- Nothing is written for a finished call. -/
  silent : Silent x.trace

/-- An event of one call between its start and its completion. -/
def isOwn (id : ℕ) : Event → Bool
  | .wrote i _ _ | .received i _ | .finished i => i==id
  | .started _ _ | .completed _ _ => false

/-- A call went on: it is the same call, and whatever happened is its own. -/
def Goes (x y : Running) : Prop :=
  y.id=x.id ∧ y.call.request=x.call.request ∧ ∃ new, y.trace=new ++ x.trace ∧ ∀ event∈new, isOwn x.id event=true

/-- Nothing happened. -/
theorem goes_refl (x : Running) : Goes x x := ⟨rfl,rfl,[],rfl,by simp⟩

/-- Going on goes on. -/
theorem Goes.trans {x y z : Running} (first : Goes x y) (second : Goes y z) : Goes x z := by
  obtain ⟨id,request,new,shape,own⟩ := first
  obtain ⟨id',request',new',shape',own'⟩ := second
  refine ⟨id'.trans id,request'.trans request,new' ++ new,?_,?_⟩
  · rw [shape',shape,List.append_assoc]
  · intro event member
    rcases List.mem_append.mp member with here | there
    · rw [← id]
      exact own' event here
    · exact own event there

/-- A good call went on, and it is good. -/
def Keeps (x y : Running) : Prop := Good y ∧ Goes x y

/-- A call keeps going. -/
theorem Keeps.trans {x y z : Running} (first : Keeps x y) (second : Keeps y z) : Keeps x z :=
  ⟨second.1,first.2.trans second.2⟩

/-- The stage of a call tells what its flag means. -/
theorem Sound.told {x : Running} (sound : Sound x) : Told x := by
  have quiet : Quiet x → Told x := by
    intro h
    refine ⟨fun _ => h.2,fun flag => ?_⟩
    rw [h.1] at flag
    cases flag
  unfold Sound at sound
  split at sound
  · exact quiet sound.1.1
  · exact quiet sound.1.1
  · exact quiet sound.1.1
  · exact quiet sound.1.1
  · exact quiet sound.1.1
  · exact quiet sound.1
  · exact quiet sound.1
  · exact quiet sound.1
  · obtain ⟨service,flag,send,bound,sent,_⟩ := sound
    have framedLength : (framed x.call.request.bytes).length=4+x.call.request.bytes.length := by
      rw [framed,List.length_append,u32,wordBytes_length]
    constructor
    · intro none
      have zero : x.call.sent=0 := by
        rw [flag] at none
        simpa using none
      rw [sent,zero,List.take_zero]
    · intro some
      have positive : x.call.sent≠0 := by
        rw [flag] at some
        simpa using some
      refine ⟨service,fun empty => ?_⟩
      rw [sent] at empty
      have short := congrArg List.length empty
      rw [List.length_take,List.length_nil] at short
      omega
  · obtain ⟨service,flag,sent,_⟩ := sound
    refine ⟨fun none => ?_,fun _ => ⟨service,fun empty => ?_⟩⟩
    · rw [flag] at none
      cases none
    · rw [sent] at empty
      have short := congrArg List.length empty
      rw [framed,List.length_append,u32,wordBytes_length,List.length_nil] at short
      omega

/-- A step that changes only the call leads to a good call as long as its stage tells what it did. -/
theorem keeps_update {x : Running} {c : Call} {master : Option (ℕ × Bytes)} (open_ : Event.finished x.id∉x.trace)
    (silent : Silent x.trace) (request : c.request=x.call.request) (done : c.done=false)
    (sound : Sound {x with call := c,master := master}) : Keeps x {x with call := c,master := master} := by
  refine ⟨⟨fun _ => open_,fun _ => sound,fun ended => ?_,silent⟩,rfl,request,[],rfl,by simp⟩
  rw [show ({x with call := c,master := master} : Running).call.done=c.done from rfl,done] at ended
  cases ended

/-- Finishing a call is honest if its flag is told and a response is there. -/
theorem finish_keeps {x : Running} {outcome : Outcome} {detail : String} {response : Bytes} (live : x.call.done=false)
    (silent : Silent x.trace) (told : Told x)
    (answered : outcome=.response → Answered x.id x.call.request response x.trace)
    (begun : outcome=.unknown → x.call.requestSent=true) : Keeps x (finish outcome detail response x) := by
  unfold finish
  rw [if_neg (by rw [live]; decide)]
  refine ⟨⟨?_,?_,fun _ => ?_,?_⟩,rfl,rfl,[.finished x.id],rfl,?_⟩
  · intro ended
    cases ended
  · intro ended
    cases ended
  · by_cases given : x.call.requestSent=true ∧ outcome≠.response
    · simp only [if_pos given,Honest]
      exact told.2 given.1
    · simp only [if_neg given,Honest]
      have quiet : outcome≠.response → sentOf x.id .request x.trace=[] := by
        intro other
        refine told.1 ?_
        cases flag : x.call.requestSent
        · rfl
        · exact absurd ⟨flag,other⟩ given
      cases outcome with
      | response => exact answered rfl
      | notSent | deadline | cancelled => exact quiet (by decide)
      | unknown => exact absurd ⟨begun rfl,by decide⟩ given
  · refine silent_cons silent ?_
    intro id message bytes wrote
    cases wrote
  · intro event member
    rw [List.mem_singleton.mp member,isOwn]
    exact beq_self_eq_true x.id

/-- A good call that fails, expires or is cancelled is good. -/
theorem fail_keeps {x : Running} {outcome : Outcome} {detail : String} {response : Bytes} (good : Good x)
    (live : x.call.done=false) (other : outcome≠.response) (certain : outcome≠.unknown) :
    Keeps x (finish outcome detail response x) :=
  finish_keeps live good.silent (good.sound live).told (fun same => absurd same other)
    (fun same => absurd same certain)

end Calls

section Functions

variable {x : Running}

/-- A good call is kept by doing nothing. -/
theorem keeps_refl (good : Good x) : Keeps x x := ⟨good,goes_refl x⟩

/-- The resolver's answer keeps a call good. -/
theorem answered_keeps (answer : Option (List (Family × Bytes))) (good : Good x) :
    Keeps x (answered answer x) := by
  cases answer with
  | none => exact keeps_refl good
  | some found =>
    rw [answered]
    unfold resolved
    split
    · exact keeps_refl good
    · rename_i done
      have live := Bool.eq_false_iff.mpr done
      exact keeps_update (good.open_ live) good.silent rfl live (good.sound live)

variable (L : Libraries)

/-- Stage in which a peer is resolved. -/
def resolveStage (master : Bool) : Stage := if master then .resolveMaster else .resolveService

/-- Stage in which a peer is reached. -/
def connectStage (master : Bool) : Stage := if master then .connectMaster else .connectService

/-- Resolving a peer keeps a call good if the call may stand there. -/
theorem resolve_keeps (master : Bool) (resolution : Resolution) (live : x.call.done=false)
    (open_ : Event.finished x.id∉x.trace) (silent : Silent x.trace)
    (sound : Sound {x with call := {x.call with stage := resolveStage master}}) :
    Keeps x (resolve L master resolution x) := by
  have there : ∀ (c : Call), c.request=x.call.request → c.done=false → c.stage=resolveStage master → c.address=x.call.address →
      c.fd=x.call.fd → c.requestSent=x.call.requestSent → Keeps x {x with call := c} := by
    intro c request done stage address fd flag
    refine keeps_update open_ silent request done ?_
    cases master with
    | true =>
      have plain : AtMaster x ∧ sentOf x.id .lookup x.trace=[] ∧ x.call.fd=none := sound
      simp only [Sound,stage,resolveStage,if_true,AtMaster,Quiet,request,address,fd,flag]
      exact plain
    | false =>
      have plain : AtService x ∧ x.call.fd=none := sound
      simp only [Sound,stage,resolveStage,Bool.false_eq_true,if_false,AtService,Quiet,request,fd,flag]
      exact plain
  unfold resolve
  dsimp only
  split
  · exact there _ rfl live rfl rfl rfl rfl
  · split
    · have kept := there
        {x.call with
          stage := resolveStage master,
          addresses := [],
          nextAddress := 0,
          resolveDone := false,
          ipv6Query := false} rfl live rfl rfl rfl rfl
      exact kept.trans (fail_keeps kept.1 live (by decide) (by decide))
    · have kept := there
        {x.call with
          stage := resolveStage master,
          addresses := [],
          nextAddress := 0,
          resolveDone := false,
          ipv6Query := false,
          resolver := true} rfl live rfl rfl rfl rfl
      split
      · exact kept.trans (fail_keeps kept.1 live (by decide) (by decide))
      · exact kept.trans (answered_keeps resolution.answer kept.1)

/-- Connecting to a peer keeps a call good if the call may stand there. -/
theorem connectNext_keeps (master : Bool) (attempts : ℕ → Attempt) (good : Good x) (live : x.call.done=false)
    (sound : Sound {x with call := {x.call with stage := connectStage master}}) :
    Keeps x (connectNext master attempts x) := by
  unfold connectNext
  dsimp only
  split
  · refine keeps_update (good.open_ live) good.silent rfl live ?_
    cases master with
    | true | false => exact sound
  · have told := (good.sound live).told
    exact finish_keeps (x := {x with call := {x.call with
      nextAddress := (tryAddresses attempts x.call.nextAddress (x.call.addresses.drop x.call.nextAddress)).1,
      fd := (tryAddresses attempts x.call.nextAddress (x.call.addresses.drop x.call.nextAddress)).2}})
      live good.silent told (fun same => by cases same) (fun same => by cases same)

/-- A call at the master that wrote nothing may connect. -/
theorem connect_master (here : AtMaster x ∧ sentOf x.id .lookup x.trace=[]) :
    Sound {x with call := {x.call with stage := connectStage true}} := here

/-- A call at the service may connect. -/
theorem connect_service (here : AtService x) :
    Sound {x with call := {x.call with stage := connectStage false}} := here

/-- What connecting leads to keeps a call good. -/
theorem connected_keeps (healthy : Bool) (attempts : ℕ → Attempt) (good : Good x) (live : x.call.done=false)
    (stage : connecting x.call.stage=true) : Keeps x (connected healthy attempts x) := by
  have sound := good.sound live
  rcases of_decide_eq_true stage with master | service
  · simp only [Sound,master] at sound
    unfold connected
    split
    · rw [master]
      exact connectNext_keeps true attempts good live (connect_master sound)
    · refine keeps_update (good.open_ live) good.silent rfl live ?_
      exact ⟨sound.1,rfl,Nat.zero_le _,by rw [sound.2,prepareSend,List.take_zero],fun wrong => absurd rfl wrong⟩
  · simp only [Sound,service] at sound
    unfold connected
    split
    · rw [service]
      exact connectNext_keeps false attempts good live (connect_service sound)
    · rw [if_neg (by rw [service]; decide)]
      exact keeps_update (good.open_ live) good.silent rfl live sound

/-- Accepted bytes keep a writing call good. -/
theorem accept_keeps (count : ℕ) (good : Good x) (live : x.call.done=false)
    (stage : writing x.call.stage=true) (more : x.call.sent<x.call.send.length) : Keeps x (accept count x) := by
  have sound := good.sound live
  have size : ((x.call.send.drop x.call.sent).take (max 1 count)).length ≤ x.call.send.length-x.call.sent := by
    rw [List.length_take,List.length_drop]
    omega
  have some : 0<((x.call.send.drop x.call.sent).take (max 1 count)).length := by
    rw [List.length_take,List.length_drop]
    omega
  have further := take_further x.call.send x.call.sent (max 1 count)
  unfold accept
  dsimp only
  generalize (x.call.send.drop x.call.sent).take (max 1 count)=bytes at size some further
  refine ⟨⟨fun _ finished => ?_,fun _ => ?_,fun ended => ?_,?_⟩,rfl,rfl,[.wrote x.id (messageOf x.call.stage) bytes],rfl,?_⟩
  · rcases List.mem_cons.mp finished with here | there
    · cases here
    · exact good.open_ live there
  · rcases of_decide_eq_true stage with master | header | request
    · simp only [Sound,master] at sound
      obtain ⟨⟨⟨flag,quiet⟩,address⟩,send,bound,sent,_⟩ := sound
      simp only [Sound,master,AtMaster,Quiet,Partly,messageOf,flag,Bool.false_or]
      have within : x.call.sent+bytes.length ≤ (masterPost x.call).length := by
        rw [← send]
        omega
      rw [send] at further
      refine ⟨⟨⟨by decide,?_⟩,address⟩,send,within,?_,fun _ => ?_⟩
      · rw [sentOf,if_neg (fun same => by cases same.2),quiet]
      · rw [sentOf,if_pos ⟨rfl,rfl⟩,sent]
        exact further
      · rw [since,if_pos ⟨rfl,rfl⟩]
    · simp only [Sound,header] at sound
      obtain ⟨⟨flag,quiet⟩,service⟩ := sound
      simp only [Sound,header,AtService,Quiet,messageOf,flag,Bool.false_or]
      refine ⟨⟨by decide,?_⟩,service⟩
      rw [sentOf,if_neg (fun same => by cases same.2),quiet]
    · simp only [Sound,request] at sound
      obtain ⟨service,flag,send,bound,sent,_⟩ := sound
      simp only [Sound,request,Partly,messageOf,decide_true,Bool.or_true]
      refine ⟨service,?_,send,?_,?_,fun _ => ?_⟩
      · exact (decide_eq_true (by omega)).symm
      · rw [← send]
        omega
      · rw [sentOf,if_pos ⟨rfl,rfl⟩,sent,← send,further]
      · rw [since,if_pos ⟨rfl,rfl⟩]
  · exact absurd (ended.symm.trans live) (by decide)
  · refine silent_cons good.silent ?_
    intro id message written wrote
    cases wrote
    exact good.open_ live
  · intro event member
    rw [List.mem_singleton.mp member,isOwn]
    exact beq_self_eq_true x.id

/-- Having written everything keeps a writing call good. -/
theorem written_keeps (good : Good x) (live : x.call.done=false) (stage : writing x.call.stage=true)
    (all : x.call.send.length ≤ x.call.sent) : Keeps x (written x) := by
  have sound := good.sound live
  refine keeps_update (good.open_ live) good.silent rfl live ?_
  rcases of_decide_eq_true stage with master | header | request
  · simp only [Sound,master] at sound
    obtain ⟨here,send,bound,sent,quiet⟩ := sound
    have size : 0<(masterPost x.call).length := by
      have lead : (ofText "POST ").length=5 := by decide
      simp only [masterPost,List.length_append,lead]
      omega
    rw [send] at all
    simp only [Sound,master,readStage]
    refine ⟨here,?_,quiet (by omega)⟩
    rw [sent,List.take_of_length_le all]
    rfl
  · simp only [Sound,header] at sound
    simp only [Sound,header,readStage]
    exact sound
  · simp only [Sound,request] at sound
    obtain ⟨service,flag,send,bound,sent,quiet⟩ := sound
    have size : (framed x.call.request.bytes).length=4+x.call.request.bytes.length := by
      rw [framed,List.length_append,u32,wordBytes_length]
    rw [send] at all
    simp only [Sound,request,readStage]
    refine ⟨service,?_,?_,quiet (by omega)⟩
    · rw [flag]
      exact decide_eq_true (by omega)
    · rw [sent,List.take_of_length_le all]

/-- Writing keeps a call good, however its bytes are accepted. -/
theorem write_keeps (answers : List Sent) (good : Good x) (live : x.call.done=false)
    (stage : writing x.call.stage=true) : Keeps x (write answers x) := by
  induction answers generalizing x with
  | nil =>
    unfold write
    split
    · rename_i all
      exact written_keeps good live stage all
    · exact keeps_refl good
  | cons answer rest ih =>
    unfold write
    split
    · rename_i all
      exact written_keeps good live stage all
    · rename_i more
      cases answer with
      | accepted count =>
        have kept := accept_keeps count good live stage (Nat.lt_of_not_le more)
        exact kept.trans (ih kept.1 live stage)
      | interrupted => exact ih good live stage
      | failed => exact fail_keeps good live (by decide) (by decide)

/-- Stages in which a call reads. -/
def reading (stage : Stage) : Bool := decide (stage=.readMaster ∨ stage=.readHeader ∨ stage=.readResponse)

/-- Received bytes keep a reading call good. -/
theorem deliver_keeps (bytes : Bytes) (good : Good x) (live : x.call.done=false)
    (stage : reading x.call.stage=true) :
    Keeps x {deliver bytes x with call := {x.call with received := x.call.received ++ bytes}} := by
  have sound := good.sound live
  refine ⟨⟨fun _ finished => ?_,fun _ => ?_,fun ended => ?_,?_⟩,rfl,rfl,[.received x.id bytes],rfl,?_⟩
  · rcases List.mem_cons.mp finished with here | there
    · cases here
    · exact good.open_ live there
  · rcases of_decide_eq_true stage with master | header | response
    · simp only [Sound,master] at sound
      simp only [Sound,master,deliver]
      exact ⟨sound.1,sound.2.1,by rw [since,if_pos rfl,sound.2.2]⟩
    · simp only [Sound,header] at sound
      simp only [Sound,header,deliver]
      exact sound
    · simp only [Sound,response] at sound
      simp only [Sound,response,deliver]
      exact ⟨sound.1,sound.2.1,sound.2.2.1,by rw [since,if_pos rfl,sound.2.2.2]⟩
  · exact absurd (ended.symm.trans live) (by decide)
  · refine silent_cons good.silent ?_
    intro id message written wrote
    cases wrote
  · intro event member
    rw [List.mem_singleton.mp member,isOwn]
    exact beq_self_eq_true x.id

/-- The body of a master response keeps a call good. -/
theorem masterReply_keeps (resolution : Resolution) {xml : Bytes} (good : Good x) (live : x.call.done=false)
    (stage : x.call.stage=.readMaster) (frame : MasterFrame x.call.received xml) :
    Keeps x (masterReply L resolution xml x) := by
  have sound := good.sound live
  simp only [Sound,stage] at sound
  obtain ⟨⟨quiet,address⟩,sent,received⟩ := sound
  unfold masterReply
  split
  · rename_i master
    refine finish_keeps live good.silent (good.sound live).told (fun _ => ?_) (fun same => by cases same)
    rw [Answered,if_neg master]
    refine ⟨x.call.address,address,sent,?_⟩
    rw [received]
    exact frame
  · rename_i service
    split
    · exact fail_keeps good live (by decide) (by decide)
    · split
      · exact fail_keeps good live (by decide) (by decide)
      · exact fail_keeps good live (by decide) (by decide)
      · split
        · exact fail_keeps good live (by decide) (by decide)
        · rename_i found _
          exact resolve_keeps (x := {x with call := {x.call with address := found,fd := none,received := []}}) L false resolution
            live (good.open_ live) good.silent ⟨⟨quiet,Decidable.not_not.mp service⟩,rfl⟩

/-- A response of the master stands behind headers that give its length. -/
theorem master_frame {received value : Bytes} {stop : ℕ} (h : find (ofText "\r\n\r\n") received=some stop)
    (length : contentLength ((received.take stop).map lower)=some value) (digits : value.all isDigit=true)
    (bound : decimal value ≤ maximumFrame) (whole : stop+4+decimal value ≤ received.length) :
    MasterFrame received ((received.drop (stop+4)).take (decimal value)) := by
  obtain ⟨within,rest,shape⟩ := find_spec h
  have lead : (received.take stop ++ ofText "\r\n\r\n").length=stop+4 := by
    have four : (ofText "\r\n\r\n").length=4 := by decide
    rw [List.length_append,List.length_take,four]
    omega
  have after : received.drop (stop+4)=rest := by
    rw [← lead]
    nth_rewrite 2 [shape]
    exact List.drop_left
  have size : (rest.take (decimal value)).length=decimal value := by
    rw [List.length_take,← after,List.length_drop]
    omega
  rw [after]
  refine ⟨received.take stop,rest.drop (decimal value),value,?_,?_,length,digits,size.symm,?_⟩
  · rw [List.append_assoc,List.take_append_drop]
    exact shape
  · rw [h,List.length_take]
    congr 1
    omega
  · rw [size]
    exact bound

/-- Reading a master response keeps a call good. -/
theorem parseMaster_keeps (resolution : Resolution) (good : Good x) (live : x.call.done=false)
    (stage : x.call.stage=.readMaster) : Keeps x (parseMaster L resolution x) := by
  unfold parseMaster
  split
  · exact keeps_refl good
  · rename_i stop found
    split
    · exact fail_keeps good live (by decide) (by decide)
    · dsimp only
      generalize (decide (x.call.received.take 8=ofText "HTTP/1.1") &&
        (find (ofText "connection: close") ((x.call.received.take stop).map lower)).isNone)=keeps
      have kept : Keeps x {x with call := {x.call with masterKeepalive := keeps}} :=
        keeps_update (good.open_ live) good.silent rfl live (good.sound live)
      split
      · exact kept.trans (fail_keeps kept.1 live (by decide) (by decide))
      · rename_i value length
        split
        · exact kept.trans (fail_keeps kept.1 live (by decide) (by decide))
        · rename_i wellFormed
          have digits : value.all isDigit=true := by
            cases shape : value.all isDigit
            · exact absurd (.inr (.inr shape)) wellFormed
            · rfl
          split
          · exact kept.trans (fail_keeps kept.1 live (by decide) (by decide))
          · rename_i bound
            split
            · exact kept
            · rename_i whole
              exact kept.trans (masterReply_keeps L resolution kept.1 live stage
                (master_frame found length digits (Nat.le_of_not_lt bound) (Nat.le_of_not_lt whole)))

/-- Reading the header of the service keeps a call good. -/
theorem parseHeader_keeps (good : Good x) (live : x.call.done=false) (stage : x.call.stage=.readHeader) :
    Keeps x (parseHeader x) := by
  have sound := good.sound live
  simp only [Sound,stage] at sound
  obtain ⟨⟨flag,quiet⟩,service⟩ := sound
  unfold parseHeader
  split
  · exact keeps_refl good
  · dsimp only
    split
    · exact fail_keeps good live (by decide) (by decide)
    · split
      · exact keeps_refl good
      · split
        · exact fail_keeps good live (by decide) (by decide)
        · exact fail_keeps good live (by decide) (by decide)
        · exact fail_keeps good live (by decide) (by decide)
        · split
          · exact fail_keeps good live (by decide) (by decide)
          · refine keeps_update (good.open_ live) good.silent rfl live ?_
            refine ⟨service,flag,rfl,Nat.zero_le _,?_,fun wrong => absurd rfl wrong⟩
            rw [quiet]
            rfl

/-- A response frame is its first byte, its length and its bytes. -/
theorem service_frame {received : Bytes} (first : received.head?=some 1) (bound : read32 (received.drop 1) ≤ maximumFrame)
    (whole : read32 (received.drop 1)+5 ≤ received.length) :
    ServiceFrame received ((received.drop 5).take (read32 (received.drop 1))) := by
  cases received with
  | nil => cases first
  | cons b tail =>
    obtain rfl : b=1 := Option.some.inj first
    rw [List.drop_one,List.tail_cons] at bound whole ⊢
    rw [List.length_cons] at whole
    have four : u32 (read32 tail)=tail.take 4 := wordBytes_wordValue (by omega)
    have size : ((tail.drop 4).take (read32 tail)).length=read32 tail := by
      rw [List.length_take,List.length_drop]
      omega
    have body : (1::tail).drop 5=tail.drop 4 := rfl
    rw [body]
    refine ⟨by rw [size]; exact bound,(tail.drop 4).drop (read32 tail),?_⟩
    rw [framed,size,four,List.append_assoc,List.take_append_drop,List.take_append_drop]

/-- Reading the response of the service keeps a call good. -/
theorem parseResponse_keeps (good : Good x) (live : x.call.done=false) (stage : x.call.stage=.readResponse) :
    Keeps x (parseResponse x) := by
  have sound := good.sound live
  simp only [Sound,stage] at sound
  obtain ⟨service,flag,sent,received⟩ := sound
  have unknown : ∀ detail response, Keeps x (finish .unknown detail response x) := fun detail response =>
    finish_keeps live good.silent (good.sound live).told (fun same => by cases same) (fun _ => flag)
  unfold parseResponse
  split
  · exact keeps_refl good
  · dsimp only
    split
    · exact unknown _ _
    · rename_i bound
      split
      · exact keeps_refl good
      · rename_i whole
        split
        · exact unknown _ _
        · rename_i first
          refine finish_keeps live good.silent (good.sound live).told (fun _ => ?_) (fun same => by cases same)
          rw [Answered,if_pos service,received]
          exact ⟨sent,service_frame (Decidable.not_not.mp first) (Nat.le_of_not_lt bound) (Nat.le_of_not_lt whole)⟩

/-- Reading what a stage expects keeps a call good. -/
theorem parse_keeps (resolution : Resolution) (good : Good x) (live : x.call.done=false)
    (stage : reading x.call.stage=true) : Keeps x (parse L resolution x) := by
  unfold parse
  split
  · rename_i master
    exact parseMaster_keeps L resolution good live master
  · rename_i notMaster
    split
    · rename_i header
      exact parseHeader_keeps good live header
    · rename_i notHeader
      rcases of_decide_eq_true stage with master | header | response
      · exact absurd master notMaster
      · exact absurd header notHeader
      · exact parseResponse_keeps good live response

/-- Reading keeps a call good, however its bytes are delivered. -/
theorem read_keeps (answers : List Received) (resolution : Resolution) (good : Good x) (live : x.call.done=false)
    (stage : reading x.call.stage=true) : Keeps x (read L resolution answers x) := by
  induction answers generalizing x with
  | nil =>
    unfold AsyncRosServices.read
    exact keeps_refl good
  | cons answer rest ih =>
    cases answer with
    | interrupted =>
      unfold AsyncRosServices.read
      exact ih good live stage
    | closed =>
      unfold AsyncRosServices.read
      exact fail_keeps good live (by decide) (by decide)
    | bytes first more =>
      have kept := deliver_keeps (first::more) good live stage
      unfold AsyncRosServices.read
      dsimp only
      split
      · have told : Told (deliver (first::more) x) := (good.sound live).told
        have ended : Keeps (deliver (first::more) x) (finish .notSent "response exceeds frame limit" [] (deliver (first::more) x)) :=
          finish_keeps live kept.1.silent told (fun same => by cases same) (fun same => by cases same)
        exact ⟨ended.1,kept.2.trans ended.2⟩
      · have parsed := parse_keeps L resolution kept.1 live stage
        split
        · exact kept.trans parsed
        · rename_i more
          rw [not_or,Decidable.not_not] at more
          have same : reading (parse L resolution _).call.stage=true := (congrArg reading more.2).trans stage
          exact kept.trans (parsed.trans (ih parsed.1 (Bool.eq_false_iff.mpr more.1) same))

/-- Advancing a call that has its addresses keeps it good. -/
theorem prepare_keeps (now : ℕ) (preparation : Preparation) (good : Good x) :
    Keeps x (prepare now preparation x) := by
  unfold prepare
  split
  · exact keeps_refl good
  · rename_i done
    have live := Bool.eq_false_iff.mpr done
    split
    · exact fail_keeps good live (by decide) (by decide)
    · split
      · exact keeps_refl good
      · rename_i waiting
        split
        · exact keeps_refl good
        · split
          · have kept : Keeps x {x with call := {x.call with ipv6Query := true,resolveDone := false}} :=
              keeps_update (good.open_ live) good.silent rfl live (good.sound live)
            exact kept.trans (answered_keeps preparation.answer kept.1)
          · split
            · exact fail_keeps good live (by decide) (by decide)
            · have kept : Keeps x {x with call := {x.call with resolver := false}} :=
                keeps_update (good.open_ live) good.silent rfl live (good.sound live)
              have sound := good.sound live
              have stage : x.call.stage=.resolveMaster ∨ x.call.stage=.resolveService :=
                of_decide_eq_true (Bool.eq_true_of_not_eq_false waiting)
              rcases stage with master | service
              · simp only [Sound,master] at sound
                rw [master]
                exact kept.trans (connectNext_keeps true preparation.attempts kept.1 live
                  (connect_master (x := {x with call := {x.call with resolver := false}}) ⟨sound.1,sound.2.1⟩))
              · simp only [Sound,service] at sound
                rw [service]
                exact kept.trans (connectNext_keeps false preparation.attempts kept.1 live
                  (connect_service (x := {x with call := {x.call with resolver := false}}) sound.1))

/-- A ready descriptor of a resolver keeps a call good. -/
theorem pollResolver_keeps (event : ℕ × Option (List (Family × Bytes))) (good : Good x) :
    Keeps x (pollResolver event x) := by
  unfold pollResolver
  split
  · exact keeps_refl good
  · rename_i done
    split
    · exact fail_keeps good (Bool.eq_false_iff.mpr done) (by decide) (by decide)
    · split
      · exact answered_keeps event.2 good
      · exact keeps_refl good

/-- The ready descriptors of a resolver keep a call good. -/
theorem pollResolvers_keeps (events : List (ℕ × Option (List (Family × Bytes)))) (good : Good x) :
    Keeps x (events.foldl (fun x event => pollResolver event x) x) := by
  induction events generalizing x with
  | nil => exact keeps_refl good
  | cons first rest ih =>
    have kept := pollResolver_keeps first good
    exact kept.trans (ih kept.1)

/-- A call with a socket waits for no address. -/
theorem Sound.connected (sound : Sound x) (socket : x.call.fd.isSome=true) :
    connecting x.call.stage=true ∨ writing x.call.stage=true ∨ reading x.call.stage=true := by
  cases stage : x.call.stage with
  | resolveMaster =>
    simp only [Sound,stage] at sound
    rw [sound.2.2] at socket
    cases socket
  | resolveService =>
    simp only [Sound,stage] at sound
    rw [sound.2] at socket
    cases socket
  | connectMaster | connectService => exact .inl (by decide)
  | writeMaster | writeHeader | writeRequest => exact .inr (.inl (by decide))
  | readMaster | readHeader | readResponse => exact .inr (.inr (by decide))

/-- A ready socket keeps a call good. -/
theorem pollSocket_keeps (event : Ready) (good : Good x) (socket : x.call.fd.isSome=true) :
    Keeps x (pollSocket L event x) := by
  unfold pollSocket
  split
  · exact keeps_refl good
  · rename_i done
    have live := Bool.eq_false_iff.mpr done
    have stages := (good.sound live).connected socket
    split
    · exact fail_keeps good live (by decide) (by decide)
    · split
      · rename_i connects
        exact connected_keeps event.healthy event.attempts good live connects
      · rename_i connects
        split
        · rename_i writes
          exact write_keeps event.sent good live writes
        · rename_i writes
          rcases stages with c | w | r
          · exact absurd c connects
          · exact absurd w writes
          · exact read_keeps L event.received event.resolution good live r

/-- Polling keeps a call good. -/
theorem poll_keeps (event : Polled) (good : Good x) : Keeps x (poll L event x) := by
  unfold poll
  split
  · exact keeps_refl good
  · split
    · exact pollResolvers_keeps event.resolver good
    · split
      · rename_i socket
        split
        · exact pollSocket_keeps L _ good socket
        · exact keeps_refl good
      · exact keeps_refl good

/-- The last look at a call keeps it good. -/
theorem sweep_keeps (event : ℕ × Option (List (Family × Bytes))) (good : Good x) : Keeps x (sweep event x) := by
  unfold sweep
  split
  · exact keeps_refl good
  · rename_i done
    split
    · exact fail_keeps good (Bool.eq_false_iff.mpr done) (by decide) (by decide)
    · split
      · exact answered_keeps event.2 good
      · exact keeps_refl good

/-- A new call that did nothing yet becomes a good one. -/
theorem open_keeps {request : Request} (idle : Bool) (resolution : Resolution)
    (new : x.call={request := request}) (finished : Event.finished x.id∉x.trace) (silent : Silent x.trace)
    (nothing : ∀ message, sentOf x.id message x.trace=[]) : Keeps x (open_ L request idle resolution x) := by
  have live : x.call.done=false := by rw [new]
  have flag : x.call.requestSent=false := by rw [new]
  have told : Told x := ⟨fun _ => nothing .request,fun sent => absurd (flag.symm.trans sent) (by decide)⟩
  have fail : ∀ detail, Keeps x (finish .notSent detail [] x) := fun detail =>
    finish_keeps live silent told (fun same => by cases same) (fun same => by cases same)
  unfold open_
  split
  · exact fail _
  · split
    · exact fail _
    · rename_i address parsed
      have here : AtMaster {x with call := {x.call with address := address}} := by
        refine ⟨⟨flag,nothing .request⟩,?_⟩
        rw [show x.call.request=request by rw [new]]
        exact parsed
      have resolves : ∀ master, Keeps x (resolve L true resolution {x with call := {x.call with address := address},master := master}) := by
        intro master
        have kept := resolve_keeps (x := {x with call := {x.call with address := address},master := master}) L true resolution live
          finished silent ⟨here,nothing .lookup,by rw [new]⟩
        exact ⟨kept.1,kept.2⟩
      dsimp only
      split
      · exact resolves _
      · split
        · exact resolves _
        · split
          · exact resolves none
          · exact keeps_update finished silent rfl live ⟨here,nothing .lookup⟩

end Functions

end Ros1Adapter.AsyncRosHonesty
