import Ros1Adapter.AsyncRosServices

/-!
# The event loop of asynchronous ROS services

Calls are started, cancelled and pumped. A pump advances the calls that wait
for nothing, polls the others, ends the expired ones and hands every ended call
to its completion, which may start and cancel calls in turn. Whatever the
clock, the sockets and the completions do is an input.
-/

namespace Ros1Adapter.AsyncRosPump

open ActionRules LittleEndian AsyncRosServices

/-- The calls and what they share. -/
structure Services where
  /-- Calls by identity, in order. -/
  calls : List (ℕ × Call) := []
  /-- Kept connection to a master, with its URI. -/
  master : Option (ℕ × Bytes) := none
  /-- Last identity. -/
  next : ℕ := 0
  /-- Events, newest first. -/
  trace : List Event := []

/-- Advance one call. -/
def onCall (id : ℕ) (f : Running → Running) (s : Services) : Services :=
  match s.calls.lookup id with
  | none => s
  | some call =>
    let x := f ⟨id,call,s.master,s.trace⟩
    {s with
      calls := s.calls.map (fun entry => if entry.1=id then (id,x.call) else entry)
      master := x.master
      trace := x.trace}

/-- Advance every call in order. -/
def onCalls (f : ℕ → Running → Running) (s : Services) : Services :=
  (s.calls.map Prod.fst).foldl (fun s id => onCall id (f id) s) s

/-- What the system answers while a call that waits for nothing advances. -/
structure Preparation where
  /-- Addresses of another family, if the resolver answers at once. -/
  answer : Option (List (Family × Bytes)) := none
  /-- Attempts to connect. -/
  attempts : ℕ → Attempt := fun _ => .refused

/-- What the system does with a socket that is ready. -/
structure Ready where
  /-- Time. -/
  now : ℕ
  /-- The connection was made. -/
  healthy : Bool := true
  /-- Attempts to connect to further addresses. -/
  attempts : ℕ → Attempt := fun _ => .refused
  /-- Answers of sends. -/
  sent : List Sent := []
  /-- Answers of receives. -/
  received : List Received := []
  /-- Answer of the resolver. -/
  resolution : Resolution := {}

/-- What polling gives for the descriptors of one call. -/
structure Polled where
  /-- Resolver descriptors that are ready, each with its time and the answer it brings. -/
  resolver : List (ℕ × Option (List (Family × Bytes))) := []
  /-- The socket, if it is ready. -/
  socket : Option Ready := none

/-- What a completion does. -/
inductive Operation where
  /-- Start a call; a kept connection may be idle. -/
  | start (request : Request) (idle : Bool) (resolution : Resolution)
  /-- Cancel a call. -/
  | cancel (id : ℕ)

/-- The inputs of one pump. -/
structure Inputs where
  /-- Time at its start. -/
  now : ℕ
  /-- What happens before polling. -/
  preparation : ℕ → Preparation := fun _ => {}
  /-- What polling gives. -/
  polled : ℕ → Polled := fun _ => {}
  /-- Times and resolver answers after polling. -/
  swept : ℕ → ℕ × Option (List (Family × Bytes)) := fun _ => (0,none)
  /-- What the completions do. -/
  reactions : ℕ → List Operation := fun _ => []

section Pump

variable (L : Libraries)

/-- The end of a call at its deadline. -/
def expire (x : Running) : Running := finish .deadline "absolute service deadline expired" [] x

/-- Stages in which a call waits for addresses. -/
def resolving (stage : Stage) : Bool := decide (stage=.resolveMaster ∨ stage=.resolveService)

/-- Stages in which a call waits for a connection. -/
def connecting (stage : Stage) : Bool := decide (stage=.connectMaster ∨ stage=.connectService)

/-- Stages in which a call writes. -/
def writing (stage : Stage) : Bool := decide (stage=.writeMaster ∨ stage=.writeHeader ∨ stage=.writeRequest)

/-- Advance a call that has its addresses. -/
def prepare (now : ℕ) (p : Preparation) (x : Running) : Running :=
  if x.call.done then x
  else if x.call.request.deadline ≤ now then expire x
  else if resolving x.call.stage=false then x
  else if x.call.resolveDone=false then x
  else if x.call.addresses=[] ∧ x.call.resolver=true ∧ x.call.ipv6Query=false then
    answered p.answer {x with call := {x.call with ipv6Query := true,resolveDone := false}}
  else if x.call.addresses=[] then finish .notSent "DNS lookup failed" [] x
  else connectNext (decide (x.call.stage=.resolveMaster)) p.attempts {x with call := {x.call with resolver := false}}

/-- A resolver descriptor is ready. -/
def pollResolver (event : ℕ × Option (List (Family × Bytes))) (x : Running) : Running :=
  if x.call.done then x
  else if x.call.request.deadline ≤ event.1 then expire x
  else if x.call.resolver then answered event.2 x
  else x

/-- The socket is ready. -/
def pollSocket (event : Ready) (x : Running) : Running :=
  if x.call.done then x
  else if x.call.request.deadline ≤ event.now then expire x
  else if connecting x.call.stage then connected event.healthy event.attempts x
  else if writing x.call.stage then write event.sent x
  else read L event.resolution event.received x

/-- Poll the descriptors of a call: those of its resolver, else its socket. -/
def poll (event : Polled) (x : Running) : Running :=
  if x.call.done then x
  else if x.call.resolver then event.resolver.foldl (fun x e => pollResolver e x) x
  else if x.call.fd.isSome then
    match event.socket with
    | some ready => pollSocket L ready x
    | none => x
  else x

/-- End an expired call, or let its resolver go on. -/
def sweep (event : ℕ × Option (List (Family × Bytes))) (x : Running) : Running :=
  if x.call.done then x
  else if x.call.request.deadline ≤ event.1 then expire x
  else if x.call.resolver then answered event.2 x
  else x

/-- A call before it has an identity. -/
def open_ (request : Request) (idle : Bool) (resolution : Resolution) (x : Running) : Running :=
  if maximumFrame < request.bytes.length ∨ maximumFrame < request.masterXml.length then
    finish .notSent "invalid service request or master URI" [] x
  else
    match parseAddress request.masterUri (ofText "http") with
    | none => finish .notSent "invalid service request or master URI" [] x
    | some address =>
      let x := {x with call := {x.call with address := address}}
      match x.master with
      | none => resolve L true resolution x
      | some (fd,uri) =>
        if request.masterXml=[] then resolve L true resolution x
        else if uri≠request.masterUri ∨ idle=false then resolve L true resolution {x with master := none}
        else {x with call := {x.call with fd := some fd,stage := .connectMaster},master := none}

/-- Start a call. -/
def start (request : Request) (idle : Bool) (resolution : Resolution) (s : Services) : Services :=
  let id := s.next+1
  let x := open_ L request idle resolution ⟨id,{request := request},s.master,.started id request::s.trace⟩
  {s with calls := s.calls ++ [(id,x.call)],master := x.master,next := id,trace := x.trace}

/-- Cancel a call. -/
def cancel (id : ℕ) (s : Services) : Services := onCall id (finish .cancelled "local I/O cancelled" []) s

/-- Start or cancel a call. -/
def operate (s : Services) : Operation → Services
  | .start request idle resolution => start L request idle resolution s
  | .cancel id => cancel id s

/-- Hand a result to its completion. -/
def invoke (reactions : ℕ → List Operation) (s : Services) (ended : ℕ × Call) : Services :=
  (reactions ended.1).foldl (operate L) {s with trace := .completed ended.1 ended.2.result::s.trace}

/-- The ended calls leave, and then their completions are invoked. -/
def complete (reactions : ℕ → List Operation) (s : Services) : Services :=
  (s.calls.filter (fun entry => entry.2.done)).foldl (invoke L reactions)
    {s with calls := s.calls.filter (fun entry => !entry.2.done)}

/-- A pump up to its completions. -/
def pollAll (inputs : Inputs) (s : Services) : Services :=
  onCalls (fun id => sweep (inputs.swept id))
    (onCalls (fun id => poll L (inputs.polled id)) (onCalls (fun id => prepare inputs.now (inputs.preparation id)) s))

/-- One pump. -/
def pump (inputs : Inputs) (s : Services) : Services := complete L inputs.reactions (pollAll L inputs s)

/-- What can happen to the services, in any order. -/
inductive Action where
  /-- A call is started or cancelled. -/
  | operate (operation : Operation)
  /-- The event loop runs once. -/
  | pump (inputs : Inputs)

/-- The services after an action. -/
def step (s : Services) : Action → Services
  | .operate operation => operate L s operation
  | .pump inputs => pump L inputs s

end Pump

end Ros1Adapter.AsyncRosPump
