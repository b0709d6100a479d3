import Mathlib.Data.Int.Notation
import Mathlib.Data.List.Basic
import Ros1Adapter.ActionRules

/-!
# Motion publishers

The remote control of a multirotor and the motion command of a ground vehicle
stream the last discrete intent of an operator. Every operation publishes at
most once and holds one mutex, so a run is a sequence of operations, and every
single publication may fail. What a caller was told decides which command is
in force; a publisher must stream nothing else but zero.
-/

namespace Ros1Adapter.MotionPublishers

open ActionRules

section Commands

/-- Velocities and turn rate of a command. -/
structure Motion where
  /-- Forward velocity. -/
  forward : Float := 0
  /-- Lateral velocity. -/
  lateral : Float := 0
  /-- Turn rate. -/
  turn : Float := 0
  deriving DecidableEq

/-- A command that moves nothing. -/
def Motion.isZero (m : Motion) : Bool := m.forward==0 && m.lateral==0 && m.turn==0

/-- A discrete intent of an operator. -/
structure Intent where
  /-- Gear. -/
  gear : ℕ
  /-- Forward axis. -/
  longitudinal : ℤ
  /-- Lateral axis. -/
  lateral : ℤ
  /-- Turn axis. -/
  yaw : ℤ

/-- The smaller double; the first one when they do not compare. -/
def least (a b : Float) : Float := if b<a then b else a

/-- The larger double; the first one when they do not compare. -/
def greatest (a b : Float) : Float := if a<b then b else a

/-- A value within a limit of zero. -/
def clamp (value limit : Float) : Float := greatest (-limit) (least limit value)

/-- One axis of an intent, scaled by the gear and clamped. -/
def axis (value : ℤ) (limit : Float) (gear : ℕ) : Float :=
  clamp (Float.ofInt value*limit*(Float.ofNat gear/3.0)) limit

/-- An axis value is one step at most. -/
def isStep (value : ℤ) : Bool := decide (-1 ≤ value) && decide (value ≤ 1)

/-- Outcome of one publication. -/
inductive Publication where
  | accepted
  | threw (what : Option String)
  deriving DecidableEq

/-- One operation of a publisher. -/
inductive Operation where
  | setIntent (intent : Intent)
  | release
  | coreSilent (silentFor : ℤ)
  | publishPeriodic
  | stop

/-- What an operation returned and what it published successfully. -/
structure Reply where
  /-- Result; an operation without one returns true. -/
  returned : Except String Unit
  /-- Command that was published. -/
  published : Option Motion

/-- The caller was told yes. -/
def Reply.accepted (reply : Reply) : Bool := reply.returned.isOk

end Commands

section Multirotor

/-- Configuration of a remote control. -/
structure RemoteControl where
  /-- A publish function exists. -/
  available : Bool
  /-- Altitude to hold. -/
  altitudeMeters : Float
  /-- Largest velocity. -/
  maximumLinearVelocity : Float
  /-- Largest turn rate. -/
  maximumYawRate : Float
  /-- Silence of the core in milliseconds that releases an intent; none when not positive. -/
  coreSilenceLimit : ℤ

/-- The setpoint of a multirotor. -/
structure PositionTarget where
  /-- Coordinate frame. -/
  coordinateFrame : ℕ
  /-- Ignored components. -/
  typeMask : ℕ
  /-- Altitude. -/
  altitude : Float
  /-- Velocities and turn rate. -/
  motion : Motion

/-- Members of a remote control. -/
structure RemoteState where
  /-- Setpoint. -/
  target : PositionTarget
  /-- The stream is up. -/
  active : Bool := false
  /-- The publisher is stopped. -/
  stopped : Bool := false

/-- A new remote control holds its altitude, with velocities and a turn rate. -/
def RemoteControl.new (p : RemoteControl) : RemoteState := ⟨⟨1,1+2+32+64+128+256+1024,p.altitudeMeters,{}⟩,false,false⟩

/-- Command of an intent. -/
def RemoteControl.command (p : RemoteControl) (intent : Intent) : Except String Motion :=
  if intent.gear<1 ∨ 3 < intent.gear ∨ isStep intent.longitudinal=false ∨ isStep intent.lateral=false ∨
      isStep intent.yaw=false then
    .error "PX4 remote intent is outside its discrete bounds"
  else .ok ⟨axis intent.longitudinal p.maximumLinearVelocity intent.gear,axis intent.lateral p.maximumLinearVelocity intent.gear,
    axis intent.yaw p.maximumYawRate intent.gear⟩

/-- Publish the setpoint. -/
def RemoteControl.publishLocked (p : RemoteControl) (publication : Publication) (s : RemoteState) : Reply :=
  if !p.available then ⟨.error "PX4 remote-control publisher is unavailable",none⟩
  else
    match publication with
    | .accepted => ⟨.ok (),some s.target.motion⟩
    | .threw _ => ⟨.error "PX4 remote-control publication failed",none⟩

/-- Setpoint with another motion. -/
def RemoteState.moving (s : RemoteState) (motion : Motion) : RemoteState := {s with target := {s.target with motion := motion}}

/-- Take an intent: the setpoint and the stream change before it is published. -/
def RemoteControl.setIntent (p : RemoteControl) (intent : Intent) (publication : Publication) (s : RemoteState) :
    RemoteState × Reply :=
  match p.command intent with
  | .error message => (s,⟨.error message,none⟩)
  | .ok motion =>
    if s.stopped then (s,⟨.error "PX4 remote-control publisher is stopped",none⟩)
    else
      let t := {s.moving motion with active := true}
      (t,p.publishLocked publication t)

/-- Publish a zero and end the stream, unless the publication fails. -/
def RemoteControl.endStream (p : RemoteControl) (publication : Publication) (s : RemoteState) : RemoteState × Reply :=
  let t := s.moving {}
  let reply := p.publishLocked publication t
  (if reply.accepted then {t with active := false} else t,reply)

/-- Release the intent. -/
def RemoteControl.release (p : RemoteControl) (publication : Publication) (s : RemoteState) : RemoteState × Reply :=
  if s.stopped then (s,⟨.error "PX4 remote-control publisher is stopped",none⟩)
  else p.endStream publication s

/-- Release an intent that nobody refreshes. -/
def RemoteControl.coreSilent (p : RemoteControl) (silentFor : ℤ) (publication : Publication) (s : RemoteState) :
    RemoteState × Reply :=
  if p.coreSilenceLimit ≤ 0 ∨ silentFor<p.coreSilenceLimit then (s,⟨.error "",none⟩)
  else if s.stopped || !s.active then (s,⟨.error "",none⟩)
  else p.endStream publication s

/-- Publish the setpoint of a stream that is up. -/
def RemoteControl.publishPeriodic (p : RemoteControl) (publication : Publication) (s : RemoteState) : RemoteState × Reply :=
  if !s.stopped && s.active then (s,⟨.ok (),(p.publishLocked publication s).published⟩) else (s,⟨.ok (),none⟩)

/-- Stop; a stream that is up ends with a zero. -/
def RemoteControl.stop (p : RemoteControl) (publication : Publication) (s : RemoteState) : RemoteState × Reply :=
  if s.stopped then (s,⟨.ok (),none⟩)
  else
    let t := s.moving {}
    let published := if s.active then (p.publishLocked publication t).published else none
    ({t with active := false, stopped := true},⟨.ok (),published⟩)

/-- One operation. -/
def RemoteControl.step (p : RemoteControl) (publication : Publication) (s : RemoteState) : Operation → RemoteState × Reply
  | .setIntent intent => p.setIntent intent publication s
  | .release => p.release publication s
  | .coreSilent silentFor => p.coreSilent silentFor publication s
  | .publishPeriodic => p.publishPeriodic publication s
  | .stop => p.stop publication s

end Multirotor

section Vehicle

/-- Configuration of a motion command. -/
structure MotionCommand where
  /-- A publish function exists. -/
  available : Bool
  /-- Largest velocity. -/
  maximumLinear : Float
  /-- Largest turn rate. -/
  maximumAngular : Float
  /-- The chassis moves sideways. -/
  lateral : Bool
  /-- Silence of the core in milliseconds that releases an intent; none when not positive. -/
  coreSilenceLimit : ℤ

/-- Members of a motion command. -/
structure VehicleState where
  /-- Command. -/
  command : Motion := {}
  /-- The stream is up. -/
  active : Bool := false
  /-- The publisher is stopped. -/
  stopped : Bool := false

/-- Command of an intent; a chassis that cannot move sideways ignores that axis. -/
def MotionCommand.motionIntentCommand (p : MotionCommand) (intent : Intent) : Except String Motion :=
  if intent.gear<1 ∨ 3 < intent.gear then .error "gear must be between 1 and 3"
  else if isStep intent.longitudinal=false then .error "longitudinal intent must be between -1 and 1"
  else if isStep intent.yaw=false then .error "yaw intent must be between -1 and 1"
  else if isStep intent.lateral=false then .error "lateral intent must be between -1 and 1"
  else .ok ⟨axis intent.longitudinal p.maximumLinear intent.gear,
    if p.lateral then axis intent.lateral p.maximumLinear intent.gear else 0,axis intent.yaw p.maximumAngular intent.gear⟩

/-- Publish a command. -/
def MotionCommand.publishLocked (p : MotionCommand) (publication : Publication) (command : Motion) : Reply :=
  if !p.available then ⟨.error "motion command publisher is unavailable",none⟩
  else
    match publication with
    | .accepted => ⟨.ok (),some command⟩
    | .threw (some what) => ⟨.error ("motion command publication failed: " ++ what),none⟩
    | .threw none => ⟨.error "motion command publication failed",none⟩

/-- Take an intent that was published. -/
def MotionCommand.setIntent (p : MotionCommand) (intent : Intent) (publication : Publication) (s : VehicleState) :
    VehicleState × Reply :=
  match p.motionIntentCommand intent with
  | .error message => (s,⟨.error message,none⟩)
  | .ok command =>
    if s.stopped then (s,⟨.error "motion command publisher is stopped",none⟩)
    else
      let reply := p.publishLocked publication command
      (if reply.accepted then {s with command := command, active := true} else s,reply)

/-- Publish a zero and end the stream, unless the publication fails. -/
def MotionCommand.endStream (p : MotionCommand) (publication : Publication) (s : VehicleState) : VehicleState × Reply :=
  let reply := p.publishLocked publication {}
  (if reply.accepted then {s with command := {}, active := false} else s,reply)

/-- Release the intent. -/
def MotionCommand.release (p : MotionCommand) (publication : Publication) (s : VehicleState) : VehicleState × Reply :=
  if s.stopped then (s,⟨.error "motion command publisher is stopped",none⟩)
  else p.endStream publication s

/-- Release an intent that nobody refreshes. -/
def MotionCommand.coreSilent (p : MotionCommand) (silentFor : ℤ) (publication : Publication) (s : VehicleState) :
    VehicleState × Reply :=
  if p.coreSilenceLimit ≤ 0 ∨ silentFor<p.coreSilenceLimit then (s,⟨.error "",none⟩)
  else if s.stopped || !s.active then (s,⟨.error "",none⟩)
  else p.endStream publication s

/-- Publish the command of a stream that is up. -/
def MotionCommand.publishPeriodic (p : MotionCommand) (publication : Publication) (s : VehicleState) : VehicleState × Reply :=
  if s.stopped || !s.active then (s,⟨.ok (),none⟩) else (s,⟨.ok (),(p.publishLocked publication s.command).published⟩)

/-- Stop; a stream that is up ends with a zero. -/
def MotionCommand.stop (p : MotionCommand) (publication : Publication) (s : VehicleState) : VehicleState × Reply :=
  if s.stopped then (s,⟨.ok (),none⟩)
  else
    let published := if s.active then (p.publishLocked publication {}).published else none
    ({s with command := {}, active := false, stopped := true},⟨.ok (),published⟩)

/-- One operation. -/
def MotionCommand.step (p : MotionCommand) (publication : Publication) (s : VehicleState) : Operation → VehicleState × Reply
  | .setIntent intent => p.setIntent intent publication s
  | .release => p.release publication s
  | .coreSilent silentFor => p.coreSilent silentFor publication s
  | .publishPeriodic => p.publishPeriodic publication s
  | .stop => p.stop publication s

end Vehicle

section Runs

/-- One operation with what its caller was told and what was published. -/
structure Record where
  /-- Operation. -/
  operation : Operation
  /-- The caller was told yes. -/
  accepted : Bool
  /-- Command that was published. -/
  published : Option Motion

/-- A publisher with the records of its run, newest first. -/
structure History (σ : Type) where
  /-- Members. -/
  state : σ
  /-- Records. -/
  records : List Record := []

/-- One recorded operation. -/
def recorded {σ : Type} (step : Publication → σ → Operation → σ × Reply) (h : History σ)
    (input : Operation × Publication) : History σ :=
  let result := step input.2 h.state input.1
  ⟨result.1,⟨input.1,result.2.accepted,result.2.published⟩::h.records⟩

/-- The command that the callers put in force: that of the last intent that was
accepted, unless it was released, silenced or stopped since. -/
def inForce (command : Intent → Except String Motion) : List Record → Option Motion
  | [] => none
  | r::rest =>
    match r.operation,r.accepted with
    | .setIntent intent,true => (command intent).toOption
    | .release,true => none
    | .coreSilent _,true => none
    | .stop,_ => none
    | _,_ => inForce command rest

/-- An operation that stops. -/
def Operation.stops : Operation → Bool
  | .stop => true
  | _ => false

/-- An operation that ends a stream. -/
def Operation.ends : Operation → Bool
  | .release => true
  | .coreSilent _ => true
  | _ => false

/-- Every record drives only what is in force. -/
def DrivesAccepted (command : Intent → Except String Motion) : List Record → Prop
  | [] => True
  | r::rest => DrivesAccepted command rest ∧
    (∀ m, r.published=some m → m.isZero=true ∨ inForce command (r::rest)=some m) ∧
    ((∃ earlier∈rest, earlier.operation.stops=true) → ∀ m, r.published=some m → m.isZero=true) ∧
    (r.operation.ends=true → r.accepted=true → ∃ m, r.published=some m ∧ m.isZero=true)

end Runs

section Moves

variable {command : Intent → Except String Motion}

/-- The members that both publishers have. -/
structure View where
  /-- Command of the stream. -/
  motion : Motion
  /-- The stream is up. -/
  active : Bool
  /-- The publisher is stopped. -/
  stopped : Bool

/-- Everything that one operation can do. A refused intent may replace the
command of the stream only by zero or by the command in force. -/
inductive Moves (command : Intent → Except String Motion) (records : List Record) (v : View) :
    Operation → View → Bool → Option Motion → Prop
  /-- Nothing happens. -/
  | idle (operation : Operation) (accepted : Bool) (ht : accepted=true → operation=.publishPeriodic ∨
      (operation=.stop ∧ v.stopped=true)) (hs : operation=.stop → v.stopped=true) :
    Moves command records v operation v accepted none
  /-- An intent is published and accepted. -/
  | taken (intent : Intent) (m : Motion) (hc : command intent=.ok m) (hr : v.stopped=false) :
    Moves command records v (.setIntent intent) ⟨m,true,false⟩ true (some m)
  /-- An intent that was not published changes the stream. -/
  | refused (intent : Intent) (m : Motion) (hm : m.isZero=true ∨ inForce command records=some m) (hr : v.stopped=false) :
    Moves command records v (.setIntent intent) ⟨m,true,false⟩ false none
  /-- A zero is published and the stream ends. -/
  | ended (operation : Operation) (he : operation.ends=true) (hr : v.stopped=false) :
    Moves command records v operation ⟨{},false,false⟩ true (some {})
  /-- The end of the stream was not published, and the stream is zero. -/
  | zeroed (operation : Operation) (he : operation.ends=true) (hr : v.stopped=false) :
    Moves command records v operation ⟨{},v.active,false⟩ false none
  /-- The stream goes on. -/
  | streamed (published : Option Motion) (ha : v.active=true) (hp : published=none ∨ published=some v.motion) :
    Moves command records v .publishPeriodic v true published
  /-- The publisher stops. -/
  | halted (published : Option Motion) (hp : published=none ∨ published=some {}) :
    Moves command records v .stop ⟨{},false,true⟩ true published

/-- The stream carries zero or the command in force, and none after a stop. -/
structure Agrees (command : Intent → Except String Motion) (v : View) (records : List Record) : Prop where
  /-- What the stream carries. -/
  streams : v.active=true → v.motion.isZero=true ∨ inForce command records=some v.motion
  /-- A recorded stop stopped the publisher. -/
  stops : (∃ r∈records, r.operation.stops=true) → v.stopped=true
  /-- A stopped publisher has no stream. -/
  quiet : v.stopped=true → v.active=false

/-- The zero command is zero. -/
theorem zero_isZero : ({} : Motion).isZero=true := by
  decide +kernel

/-- A stop among the records and one more operation. -/
theorem stops_cons {r : Record} {records : List Record} (h : ∃ earlier∈r::records, earlier.operation.stops=true) :
    r.operation.stops=true ∨ ∃ earlier∈records, earlier.operation.stops=true := by
  obtain ⟨earlier,member,stops⟩ := h
  rcases List.mem_cons.mp member with here | there
  · rw [here] at stops
    exact Or.inl stops
  · exact Or.inr ⟨earlier,there,stops⟩

/-- An operation keeps the agreement. -/
theorem moves_agrees {v w : View} {records : List Record} {operation : Operation} {accepted : Bool} {published : Option Motion}
    (h : Agrees command v records) (hm : Moves command records v operation w accepted published) :
    Agrees command w (⟨operation,accepted,published⟩::records) := by
  have earlier : ∀ (b : Bool), v.stopped=false → operation.stops=false →
      (∃ r∈(⟨operation,accepted,published⟩ : Record)::records, r.operation.stops=true) → b=true := by
    intro b running other stopped
    rcases stops_cons stopped with here | there
    · rw [other] at here
      cases here
    · rw [h.stops there] at running
      cases running
  cases hm with
  | idle _ _ ht hs =>
    refine ⟨fun active => ?_,fun stopped => ?_,h.quiet⟩
    · have force : inForce command (⟨operation,accepted,none⟩::records)=inForce command records := by
        cases accepted with
        | false =>
          cases operation with
          | stop =>
            rw [h.quiet (hs rfl)] at active
            cases active
          | _ => rfl
        | true =>
          rcases ht rfl with periodic | ⟨stop,stopped⟩
          · rw [periodic]
            rfl
          · rw [h.quiet stopped] at active
            cases active
      rw [force]
      exact h.streams active
    · rcases stops_cons stopped with here | there
      · refine hs ?_
        cases operation with
        | stop => rfl
        | _ => cases here
      · exact h.stops there
  | taken intent m hc hr =>
    refine ⟨fun _ => Or.inr ?_,fun stopped => earlier _ hr rfl stopped,nofun⟩
    simp only [inForce,hc]
    rfl
  | refused intent m hm hr => exact ⟨fun _ => hm,fun stopped => earlier _ hr rfl stopped,nofun⟩
  | ended _ he hr =>
    have other : operation.stops=false := by
      cases operation with
      | stop => cases he
      | _ => rfl
    exact ⟨nofun,fun stopped => earlier _ hr other stopped,nofun⟩
  | zeroed _ he hr =>
    have other : operation.stops=false := by
      cases operation with
      | stop => cases he
      | _ => rfl
    exact ⟨fun _ => Or.inl zero_isZero,fun stopped => earlier _ hr other stopped,nofun⟩
  | streamed _ ha hp =>
    refine ⟨h.streams,fun stopped => ?_,h.quiet⟩
    rcases stops_cons stopped with here | there
    · cases here
    · exact h.stops there
  | halted _ hp => exact ⟨nofun,fun _ => rfl,fun _ => rfl⟩

/-- An operation drives only what is in force. -/
theorem moves_drives {v w : View} {records : List Record} {operation : Operation} {accepted : Bool} {published : Option Motion}
    (h : Agrees command v records) (hd : DrivesAccepted command records)
    (hm : Moves command records v operation w accepted published) :
    DrivesAccepted command (⟨operation,accepted,published⟩::records) := by
  have zero : ∀ m, some ({} : Motion)=some m → m.isZero=true := by
    intro m same
    rw [← Option.some.inj same]
    exact zero_isZero
  refine ⟨hd,?_⟩
  cases hm with
  | idle _ _ ht hs =>
    refine ⟨fun m hp => ?_,fun _ m hp => ?_,fun he ha => ?_⟩
    · cases hp
    · cases hp
    · rcases ht ha with periodic | ⟨stop,-⟩
      · rw [periodic] at he
        cases he
      · rw [stop] at he
        cases he
  | taken intent m hc hr =>
    refine ⟨fun n hp => Or.inr ?_,fun stopped => ?_,nofun⟩
    · rw [← Option.some.inj hp]
      simp only [inForce,hc]
      rfl
    · rw [h.stops stopped] at hr
      cases hr
  | refused intent m hm hr =>
    refine ⟨fun n hp => ?_,fun _ n hp => ?_,nofun⟩
    · cases hp
    · cases hp
  | ended _ he hr => exact ⟨fun m hp => Or.inl (zero m hp),fun _ m hp => zero m hp,fun _ _ => ⟨{},rfl,zero_isZero⟩⟩
  | zeroed _ he hr =>
    refine ⟨fun m hp => ?_,fun _ m hp => ?_,fun _ => nofun⟩
    · cases hp
    · cases hp
  | streamed _ ha hp =>
    refine ⟨fun m shown => ?_,fun stopped => ?_,nofun⟩
    · rcases hp with none_ | some_
      · rw [none_] at shown
        cases shown
      · rw [some_] at shown
        rw [← Option.some.inj shown]
        exact h.streams ha
    · rw [h.quiet (h.stops stopped)] at ha
      cases ha
  | halted _ hp =>
    have shownZero : ∀ m, published=some m → m.isZero=true := by
      intro m shown
      rcases hp with none_ | some_
      · rw [none_] at shown
        cases shown
      · rw [some_] at shown
        exact zero m shown
    exact ⟨fun m shown => Or.inl (shownZero m shown),fun _ => shownZero,nofun⟩

end Moves

section Publishers

/-- View of a remote control. -/
def RemoteState.view (s : RemoteState) : View := ⟨s.target.motion,s.active,s.stopped⟩

/-- View of a motion command. -/
def VehicleState.view (s : VehicleState) : View := ⟨s.command,s.active,s.stopped⟩

/-- A refused intent of a remote control leaves zero or the command in force. -/
def IntentPublished (p : RemoteControl) (h : History RemoteState) (input : Operation × Publication) : Prop :=
  ∀ intent m, input.1=.setIntent intent → p.command intent=.ok m → h.state.stopped=false →
    p.available=true ∧ input.2=.accepted ∨ m.isZero=true ∨ inForce p.command h.records=some m

/-- A publication of a remote control succeeds or fails. -/
theorem remote_published (p : RemoteControl) (publication : Publication) (s : RemoteState) :
    ((p.publishLocked publication s).accepted=true ∧ (p.publishLocked publication s).published=some s.target.motion ∧
        p.available=true ∧ publication=.accepted) ∨
      ((p.publishLocked publication s).accepted=false ∧ (p.publishLocked publication s).published=none) := by
  unfold RemoteControl.publishLocked
  split
  · exact Or.inr ⟨rfl,rfl⟩
  · next available =>
    cases publication with
    | accepted => exact Or.inl ⟨rfl,rfl,by simpa using available,rfl⟩
    | threw what => exact Or.inr ⟨rfl,rfl⟩

/-- A publication of a motion command succeeds or fails. -/
theorem vehicle_published (p : MotionCommand) (publication : Publication) (command : Motion) :
    ((p.publishLocked publication command).accepted=true ∧ (p.publishLocked publication command).published=some command) ∨
      ((p.publishLocked publication command).accepted=false ∧ (p.publishLocked publication command).published=none) := by
  unfold MotionCommand.publishLocked
  split
  · exact Or.inr ⟨rfl,rfl⟩
  · cases publication with
    | accepted => exact Or.inl ⟨rfl,rfl⟩
    | threw what =>
      cases what with
      | none | some _ => exact Or.inr ⟨rfl,rfl⟩

/-- What an operation of a remote control can do. -/
theorem remote_moves (p : RemoteControl) (h : History RemoteState) (input : Operation × Publication)
    (hi : IntentPublished p h input) :
    Moves p.command h.records h.state.view input.1 (p.step input.2 h.state input.1).1.view
      (p.step input.2 h.state input.1).2.accepted (p.step input.2 h.state input.1).2.published := by
  obtain ⟨s,records⟩ := h
  obtain ⟨operation,publication⟩ := input
  have ends : ∀ o : Operation, o.ends=true → s.stopped=false → Moves p.command records s.view o (p.endStream publication s).1.view
      (p.endStream publication s).2.accepted (p.endStream publication s).2.published := by
    intro o he running
    unfold RemoteControl.endStream
    simp only
    rcases remote_published p publication (s.moving {}) with ⟨accepted,published,-,-⟩ | ⟨accepted,published⟩
    · rw [accepted,published,if_pos rfl]
      have shape : RemoteState.view {s.moving {} with active := false}=⟨{},false,false⟩ := by
        simp [RemoteState.view,RemoteState.moving,running]
      rw [shape]
      exact .ended o he running
    · rw [accepted,published,if_neg (by simp)]
      have shape : (s.moving {}).view=⟨{},s.view.active,false⟩ := by
        simp [RemoteState.view,RemoteState.moving,running]
      rw [shape]
      exact .zeroed o he running
  cases operation with
  | setIntent intent =>
    show Moves _ _ _ _ (p.setIntent intent publication s).1.view (p.setIntent intent publication s).2.accepted
      (p.setIntent intent publication s).2.published
    unfold RemoteControl.setIntent
    split
    · exact .idle _ _ nofun nofun
    · next m hc =>
      split
      · exact .idle _ _ nofun nofun
      · next running =>
        have live : s.stopped=false := by simpa using running
        have shape : RemoteState.view {s.moving m with active := true}=⟨m,true,false⟩ := by
          simp [RemoteState.view,RemoteState.moving,live]
        simp only
        rcases remote_published p publication {s.moving m with active := true} with
          ⟨accepted,published,-,-⟩ | ⟨accepted,published⟩
        · rw [accepted,published,shape]
          exact .taken intent m hc live
        · rw [accepted,published,shape]
          rcases hi intent m rfl hc live with ⟨available,sent⟩ | allowed
          · have never : (p.publishLocked publication {s.moving m with active := true}).accepted=true := by
              change publication=.accepted at sent
              rw [sent]
              unfold RemoteControl.publishLocked
              rw [available]
              rfl
            rw [never] at accepted
            cases accepted
          · exact .refused intent m allowed live
  | release =>
    show Moves _ _ _ _ (p.release publication s).1.view (p.release publication s).2.accepted
      (p.release publication s).2.published
    unfold RemoteControl.release
    split
    · exact .idle _ _ nofun nofun
    · next running => exact ends .release rfl (by simpa using running)
  | coreSilent silentFor =>
    show Moves _ _ _ _ (p.coreSilent silentFor publication s).1.view (p.coreSilent silentFor publication s).2.accepted
      (p.coreSilent silentFor publication s).2.published
    unfold RemoteControl.coreSilent
    split
    · exact .idle _ _ nofun nofun
    · split
      · exact .idle _ _ nofun nofun
      · next running =>
        have live : s.stopped=false := by
          cases flag : s.stopped with
          | false => rfl
          | true =>
            rw [flag] at running
            exact absurd rfl running
        exact ends (.coreSilent silentFor) rfl live
  | publishPeriodic =>
    show Moves _ _ _ _ (p.publishPeriodic publication s).1.view (p.publishPeriodic publication s).2.accepted
      (p.publishPeriodic publication s).2.published
    unfold RemoteControl.publishPeriodic
    split
    · next up =>
      have active : s.active=true := (Bool.and_eq_true _ _ ▸ up).2
      refine .streamed _ active ?_
      rcases remote_published p publication s with ⟨-,published,-,-⟩ | ⟨-,published⟩
      · exact Or.inr published
      · exact Or.inl published
    · exact .idle _ _ (fun _ => Or.inl rfl) nofun
  | stop =>
    show Moves _ _ _ _ (p.stop publication s).1.view (p.stop publication s).2.accepted
      (p.stop publication s).2.published
    unfold RemoteControl.stop
    split
    · next stopped => exact .idle _ _ (fun _ => Or.inr ⟨rfl,stopped⟩) (fun _ => stopped)
    · refine .halted _ ?_
      split
      · rcases remote_published p publication (s.moving {}) with ⟨-,published,-,-⟩ | ⟨-,published⟩
        · exact Or.inr published
        · exact Or.inl published
      · exact Or.inl rfl

/-- What an operation of a motion command can do. -/
theorem vehicle_moves (p : MotionCommand) (h : History VehicleState) (input : Operation × Publication) :
    Moves p.motionIntentCommand h.records h.state.view input.1 (p.step input.2 h.state input.1).1.view
      (p.step input.2 h.state input.1).2.accepted (p.step input.2 h.state input.1).2.published := by
  obtain ⟨s,records⟩ := h
  obtain ⟨operation,publication⟩ := input
  have ends : ∀ o : Operation, o.ends=true → s.stopped=false →
      Moves p.motionIntentCommand records s.view o (p.endStream publication s).1.view
        (p.endStream publication s).2.accepted (p.endStream publication s).2.published := by
    intro o he running
    unfold MotionCommand.endStream
    simp only
    rcases vehicle_published p publication {} with ⟨accepted,published⟩ | ⟨accepted,published⟩
    · rw [accepted,published,if_pos rfl]
      have shape : VehicleState.view {s with command := {}, active := false}=⟨{},false,false⟩ := by
        simp [VehicleState.view,running]
      rw [shape]
      exact .ended o he running
    · rw [accepted,published,if_neg (by simp)]
      refine .idle o false nofun (fun stops => ?_)
      rw [stops] at he
      cases he
  cases operation with
  | setIntent intent =>
    show Moves _ _ _ _ (p.setIntent intent publication s).1.view (p.setIntent intent publication s).2.accepted
      (p.setIntent intent publication s).2.published
    unfold MotionCommand.setIntent
    split
    · exact .idle _ _ nofun nofun
    · next m hc =>
      split
      · exact .idle _ _ nofun nofun
      · next running =>
        have live : s.stopped=false := by simpa using running
        simp only
        rcases vehicle_published p publication m with ⟨accepted,published⟩ | ⟨accepted,published⟩
        · have shape : VehicleState.view {s with command := m, active := true}=⟨m,true,false⟩ := by
            simp [VehicleState.view,live]
          rw [accepted,published,if_pos rfl,shape]
          exact .taken intent m hc live
        · rw [accepted,published,if_neg (by simp)]
          exact .idle _ _ nofun nofun
  | release =>
    show Moves _ _ _ _ (p.release publication s).1.view (p.release publication s).2.accepted
      (p.release publication s).2.published
    unfold MotionCommand.release
    split
    · exact .idle _ _ nofun nofun
    · next running => exact ends .release rfl (by simpa using running)
  | coreSilent silentFor =>
    show Moves _ _ _ _ (p.coreSilent silentFor publication s).1.view (p.coreSilent silentFor publication s).2.accepted
      (p.coreSilent silentFor publication s).2.published
    unfold MotionCommand.coreSilent
    split
    · exact .idle _ _ nofun nofun
    · split
      · exact .idle _ _ nofun nofun
      · next running =>
        have live : s.stopped=false := by
          cases flag : s.stopped with
          | false => rfl
          | true =>
            rw [flag] at running
            exact absurd rfl running
        exact ends (.coreSilent silentFor) rfl live
  | publishPeriodic =>
    show Moves _ _ _ _ (p.publishPeriodic publication s).1.view (p.publishPeriodic publication s).2.accepted
      (p.publishPeriodic publication s).2.published
    unfold MotionCommand.publishPeriodic
    split
    · exact .idle _ _ (fun _ => Or.inl rfl) nofun
    · next up =>
      have active : s.active=true := by
        cases flag : s.active with
        | true => rfl
        | false =>
          rw [flag,Bool.not_false,Bool.or_true] at up
          exact absurd rfl up
      refine .streamed _ active ?_
      rcases vehicle_published p publication s.command with ⟨-,published⟩ | ⟨-,published⟩
      · exact Or.inr published
      · exact Or.inl published
  | stop =>
    show Moves _ _ _ _ (p.stop publication s).1.view (p.stop publication s).2.accepted
      (p.stop publication s).2.published
    unfold MotionCommand.stop
    split
    · next stopped => exact .idle _ _ (fun _ => Or.inr ⟨rfl,stopped⟩) (fun _ => stopped)
    · refine .halted _ ?_
      split
      · rcases vehicle_published p publication {} with ⟨-,published⟩ | ⟨-,published⟩
        · exact Or.inr published
        · exact Or.inl published
      · exact Or.inl rfl

/-- In every run of both publishers, with any failures of single publications,
only zero and the command in force are published, provided that a refused intent
of a remote control is zero or the command in force already. -/
theorem run_drives_accepted (p : RemoteControl) (q : MotionCommand) (inputs : List (Operation × Publication)) :
    (Along (recorded p.step) (IntentPublished p) ⟨p.new,[]⟩ inputs →
      DrivesAccepted p.command (run (recorded p.step) ⟨p.new,[]⟩ inputs).records) ∧
    DrivesAccepted q.motionIntentCommand (run (recorded q.step) ⟨{},[]⟩ inputs).records := by
  have quiet : ∀ command motion, Agrees command ⟨motion,false,false⟩ [] := by
    intro command motion
    refine ⟨nofun,fun stopped => ?_,fun _ => rfl⟩
    obtain ⟨r,member,-⟩ := stopped
    cases member
  constructor
  · intro condition
    have start : Agrees p.command (RemoteState.view p.new) [] ∧ DrivesAccepted p.command [] := ⟨quiet _ _,trivial⟩
    exact (run_invariant (fun (h : History RemoteState) input
        (agrees : Agrees p.command h.state.view h.records ∧ DrivesAccepted p.command h.records) published =>
      ⟨moves_agrees agrees.1 (remote_moves p h input published),
        moves_drives agrees.1 agrees.2 (remote_moves p h input published)⟩) (s := ⟨p.new,[]⟩) start condition).2
  · have start : Agrees q.motionIntentCommand (VehicleState.view {}) [] ∧ DrivesAccepted q.motionIntentCommand [] :=
      ⟨quiet _ _,trivial⟩
    exact (run_invariant (fun (h : History VehicleState) input
        (agrees : Agrees q.motionIntentCommand h.state.view h.records ∧ DrivesAccepted q.motionIntentCommand h.records) _ =>
      ⟨moves_agrees agrees.1 (vehicle_moves q h input),moves_drives agrees.1 agrees.2 (vehicle_moves q h input)⟩)
      (s := ⟨{},[]⟩) start (along_true (recorded q.step) ⟨{},[]⟩ inputs)).2

/-- A sample remote control. -/
def sampleRemote : RemoteControl := ⟨true,1,2,1,1000⟩

/-- The publication of an intent fails, its caller is told no, and the next
period streams the intent. -/
theorem refused_intent_streamed :
    ¬DrivesAccepted sampleRemote.command (run (recorded sampleRemote.step) ⟨sampleRemote.new,[]⟩
      [(.setIntent ⟨3,1,0,0⟩,.threw none),(.publishPeriodic,.accepted)]).records := by
  intro h
  have published : (run (recorded sampleRemote.step) ⟨sampleRemote.new,[]⟩
      [(.setIntent ⟨3,1,0,0⟩,.threw none),(.publishPeriodic,.accepted)]).records.map Record.published=
      [some ⟨2,0,0⟩,none] := by
    decide +kernel
  have force : inForce sampleRemote.command (run (recorded sampleRemote.step) ⟨sampleRemote.new,[]⟩
      [(.setIntent ⟨3,1,0,0⟩,.threw none),(.publishPeriodic,.accepted)]).records=none := by
    decide +kernel
  generalize (run (recorded sampleRemote.step) ⟨sampleRemote.new,[]⟩
      [(.setIntent ⟨3,1,0,0⟩,.threw none),(.publishPeriodic,.accepted)]).records=records at h published force
  cases records with
  | nil => cases published
  | cons r rest =>
    obtain ⟨-,drives,-⟩ := h
    have shown : r.published=some ⟨2,0,0⟩ := (List.cons.inj published).1
    rcases drives _ shown with zero | here
    · exact absurd zero (by decide +kernel)
    · rw [force] at here
      cases here

/-- An intent is streamed and released; the release fails once. -/
theorem run_drives_accepted_release :
    Along (recorded sampleRemote.step) (IntentPublished sampleRemote) ⟨sampleRemote.new,[]⟩
        [(.setIntent ⟨3,1,0,0⟩,.accepted),(.release,.threw none),(.publishPeriodic,.accepted),(.release,.accepted)] ∧
      DrivesAccepted sampleRemote.command (run (recorded sampleRemote.step) ⟨sampleRemote.new,[]⟩
        [(.setIntent ⟨3,1,0,0⟩,.accepted),(.release,.threw none),(.publishPeriodic,.accepted),(.release,.accepted)]).records := by
  have published : Along (recorded sampleRemote.step) (IntentPublished sampleRemote) ⟨sampleRemote.new,[]⟩
      [(.setIntent ⟨3,1,0,0⟩,.accepted),(.release,.threw none),(.publishPeriodic,.accepted),(.release,.accepted)] :=
    ⟨fun _ _ _ _ _ => Or.inl ⟨rfl,rfl⟩,nofun,nofun,nofun,trivial⟩
  exact ⟨published,(run_drives_accepted sampleRemote ⟨true,1,1,false,1000⟩ _).1 published⟩

end Publishers

end Ros1Adapter.MotionPublishers
