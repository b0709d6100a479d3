import Mathlib.Tactic.Linarith
import Mathlib.Tactic.NormNum
import Mathlib.Data.Rat.Floor
import Mathlib.Data.List.Basic

/-!
# When a lidar scans

A sensor's next scan is the ceiling of a multiple of its period, counted from
an epoch. The epoch moves only when the next slot is already over. Slots then
grow by at least one period from scan to scan, whatever the ticks in between,
so consecutive scans keep the rate; and scans that stay within their slots
never leave the grid of their epoch.
-/

namespace Ros1Adapter.LidarSchedule

section Pacing

/-- Each time reaches its slot, and the slot after it is later than the time
and at least one period later than its own. -/
def Follows (period slot : ℚ) : List ℤ → Prop
  | [] => True
  | time::rest =>
    slot≤time ∧ ∃ after, slot+period≤after ∧ (time : ℚ)<after ∧ Follows period after rest

/-- A time is as many periods after the first slot as there are times before it. -/
theorem Follows.reaches {period : ℚ} {last : ℤ} {later : List ℤ} :
    ∀ {times : List ℤ} {slot : ℚ}, Follows period slot (times++last::later) →
      slot+times.length*period≤last := by
  intro times
  induction times with
  | nil =>
    intro slot h
    have hreach := h.1
    simpa using hreach
  | cons time rest ih =>
    intro slot h
    obtain ⟨-,after,hgrow,-,hrest⟩ := h
    have hreach := ih hrest
    have hlength : ((time::rest).length : ℚ)=rest.length+1 := by
      simp only [List.length_cons,Nat.cast_add,Nat.cast_one]
    rw [hlength]
    linarith

/-- Two times are more periods apart than there are times between them. -/
theorem Follows.spread {period : ℚ} {first last : ℤ} {middle later : List ℤ} :
    ∀ {earlier : List ℤ} {slot : ℚ},
      Follows period slot (earlier++first::(middle++last::later)) →
      (middle.length : ℚ)*period<last-first := by
  intro earlier
  induction earlier with
  | nil =>
    intro slot h
    obtain ⟨-,after,-,hlate,hrest⟩ := h
    have hreach := hrest.reaches
    linarith
  | cons time rest ih =>
    intro slot h
    obtain ⟨-,after,-,-,hrest⟩ := h
    exact ih hrest

end Pacing

section Phases

/-- Largest time of a schedule. -/
def int64Max : ℤ := 2^63-1

/-- Phase of one sensor. -/
structure Schedule where
  /-- Time before which the sensor is not scanned; negative when none is planned. -/
  nextDue : ℤ := -1
  /-- Origin of the slots. -/
  epoch : ℤ := 0
  /-- Number of the next slot. -/
  index : ℕ := 0
  deriving DecidableEq

/-- Slots are multiples of the period, rounded up, after the epoch. -/
def slot (period : ℚ) (epoch : ℤ) (index : ℕ) : ℤ :=
  epoch+⌈(index : ℚ)*period⌉

/-- Plan the scan after the one at `now`. -/
def Schedule.advance (period : ℚ) (schedule : Schedule) (now : ℤ) : Schedule :=
  let counted : Schedule :=
    if schedule.nextDue<0 then {schedule with epoch := now, index := 1}
    else {schedule with index := schedule.index+1}
  let next := slot period counted.epoch counted.index
  if next≤now then ⟨min (now+⌈period⌉) int64Max,now,1⟩
  else {counted with nextDue := min next int64Max}

/-- The exact time of the planned slot. -/
def Schedule.exact (period : ℚ) (schedule : Schedule) : ℚ :=
  schedule.epoch+schedule.index*period

/-- A slot is the first whole time at or after its exact time. -/
theorem slot_le_iff (period : ℚ) (epoch now : ℤ) (index : ℕ) :
    slot period epoch index≤now ↔ (epoch : ℚ)+index*period≤now := by
  unfold slot
  constructor
  · intro h
    have hceil := Int.le_ceil ((index : ℚ)*period)
    have hcast : (epoch : ℚ)+⌈(index : ℚ)*period⌉≤now := by exact_mod_cast h
    linarith
  · intro h
    have hceil : ⌈(index : ℚ)*period⌉≤now-epoch := by
      apply Int.ceil_le.mpr
      push_cast
      linarith
    omega

/-- Slot one of an epoch. -/
theorem slot_one (period : ℚ) (epoch : ℤ) : slot period epoch 1=epoch+⌈period⌉ := by
  simp only [slot,Nat.cast_one,one_mul]

/-- What planning does: the epoch is kept exactly when its next slot is still ahead. -/
theorem advance_cases (period : ℚ) (schedule : Schedule) (now : ℤ) :
    (now<slot period (schedule.epoch) (schedule.index+1) ∧ 0 ≤ schedule.nextDue ∧
      schedule.advance period now=
        ⟨min (slot period schedule.epoch (schedule.index+1)) int64Max,schedule.epoch,schedule.index+1⟩) ∨
    ((schedule.nextDue<0 ∨ slot period schedule.epoch (schedule.index+1)≤now) ∧
      schedule.advance period now=⟨min (slot period now 1) int64Max,now,1⟩) := by
  unfold Schedule.advance
  by_cases hnone : schedule.nextDue<0
  · right
    simp only [hnone,if_true,true_or,true_and,slot_one,ite_self]
  · by_cases hpast : slot period schedule.epoch (schedule.index+1)≤now
    · right
      simp only [hnone,if_false,hpast,if_true,or_true,true_and,slot_one]
    · left
      have hahead : now<slot period schedule.epoch (schedule.index+1) := by omega
      have hplanned : 0 ≤ schedule.nextDue := by omega
      simp only [hnone,if_false,hpast,hahead,hplanned,true_and]

/-- The planned time is its slot unless it has reached the largest time. -/
theorem advance_due {period : ℚ} {schedule : Schedule} {now : ℤ}
    (h : (schedule.advance period now).nextDue < int64Max) :
    (schedule.advance period now).nextDue=
      slot period (schedule.advance period now).epoch (schedule.advance period now).index := by
  rcases advance_cases period schedule now with ⟨-,-,heq⟩ | ⟨-,heq⟩
  · rw [heq] at h ⊢
    dsimp only at h ⊢
    omega
  · rw [heq] at h ⊢
    dsimp only at h ⊢
    omega

/-- The planned time is after the scan. -/
theorem advance_after {period : ℚ} (hp : 0<period) {schedule : Schedule} {now : ℤ}
    (h : (schedule.advance period now).nextDue < int64Max) :
    now<(schedule.advance period now).nextDue := by
  rw [advance_due h]
  rcases advance_cases period schedule now with ⟨hahead,-,heq⟩ | ⟨-,heq⟩
  · rw [heq]
    exact hahead
  · rw [heq]
    have hceil : 0<⌈period⌉ := Int.ceil_pos.mpr hp
    simp only [slot_one]
    omega

/-- The planned time grows by at least one period when the scan reached its slot. -/
theorem advance_grows {period : ℚ} {schedule : Schedule} {now : ℤ}
    (h : schedule.exact period≤now) :
    schedule.exact period+period≤(schedule.advance period now).exact period := by
  rcases advance_cases period schedule now with ⟨-,-,heq⟩ | ⟨-,heq⟩
  · rw [heq]
    unfold Schedule.exact
    push_cast
    linarith
  · rw [heq]
    unfold Schedule.exact at h ⊢
    push_cast
    linarith

/-- A scan without a plan starts an epoch. -/
theorem advance_starts {period : ℚ} {schedule : Schedule} {now : ℤ} (h : schedule.nextDue<0) :
    (schedule.advance period now).exact period=now+period := by
  rcases advance_cases period schedule now with ⟨-,hplanned,-⟩ | ⟨-,heq⟩
  · omega
  · rw [heq]
    unfold Schedule.exact
    push_cast
    linarith

/-- A scan before the slot after next keeps the epoch. -/
theorem advance_keeps {period : ℚ} {schedule : Schedule} {now : ℤ} (hplanned : 0 ≤ schedule.nextDue)
    (h : now<slot period schedule.epoch (schedule.index+1)) :
    schedule.advance period now=
      ⟨min (slot period schedule.epoch (schedule.index+1)) int64Max,schedule.epoch,schedule.index+1⟩ := by
  rcases advance_cases period schedule now with ⟨-,-,heq⟩ | ⟨hpast,-⟩
  · exact heq
  · omega

end Phases

section Fleet

/-- How a sensor samples the scene. -/
inductive Mode where
  | raycast
  | penetrating
  | depthFrustum
  deriving DecidableEq

/-- The part of a sensor's configuration that the engine reads itself. -/
structure SensorConfig where
  mode : Mode
  /-- Spacing of the samples of a surface. -/
  surfaceSpacing : ℚ := 1/10
  /-- Penetrating scans keep samples inside of other obstacles. -/
  penetratingKeepBuried : Bool := false
  /-- Standard deviation of the range noise. -/
  noiseStd : ℚ := 0

/-- One sensor of the manifest. -/
structure SensorSpec where
  backend : String := "cpu"
  poseTopic : String
  bodyId : ℤ := 0
  config : SensorConfig
  /-- Scans per second; none is a value that is not finite. -/
  rateHz : Option ℚ := some 10
  publishBeams : Bool := false

/-- One body of the manifest. -/
structure BodySpec where
  id : ℤ := 0
  poseTopic : String
  radius : ℚ := 0
  /-- The body returns rays into saved clouds. -/
  bodyReturns : Bool := false

/-- Sensors and bodies, fixed for the life of an engine. -/
structure FleetManifest where
  robots : List SensorSpec
  bodies : List BodySpec := []
  /-- The manifest lists the bodies itself. -/
  bodyRoster : Bool := false

/-- Options of an engine; none is a value that is not finite. -/
structure EngineOptions where
  poseTimeout : Option ℚ := some (1/2)
  vehicleBodies : Bool := false
  vehicleBodyRadius : Option ℚ := some (3/10)

/-- The observation contract of the math library, at the engine's time-out. -/
structure Contract (Pose : Type) where
  /-- A pose in a frame is usable in the world frame. -/
  validObservationPose : Pose → String → String → Bool
  /-- An age in nanoseconds is within the time-out. -/
  freshObservationTime : ℤ → Bool

variable {Pose : Type}

/-- State of one sensor. -/
structure Sensor (Pose : Type) where
  spec : SensorSpec
  /-- Time between slots in nanoseconds. -/
  period : ℚ
  /-- Its scans include bodies. -/
  withBodies : Bool
  enabled : Bool := true
  demand : Bool := false
  poseValid : Bool := false
  pose : Pose
  /-- Time of the pose. -/
  stamp : ℤ := 0
  schedule : Schedule := {}

/-- State of one body. -/
structure Body (Pose : Type) where
  spec : BodySpec
  valid : Bool := false
  pose : Pose
  /-- Time of the pose. -/
  stamp : ℤ := 0

/-- State of the engine that decides which sensors are scanned. -/
structure Engine (Pose : Type) where
  bodyRoster : Bool
  sensors : List (Sensor Pose)
  bodies : List (Body Pose)
  enabled : Bool := true
  /-- A scene is installed. -/
  ready : Bool := false
  /-- The scene is a saved cloud. -/
  pointMap : Bool := false
  /-- Time of the last tick. -/
  lastTick : ℤ := -1

/-- A finite positive value. -/
def positive : Option ℚ → Bool
  | none => false
  | some value => decide (0<value)

/-- A sensor with its period. -/
def makeSensor [Inhabited Pose] (manifest : FleetManifest) (options : EngineOptions)
    (spec : SensorSpec) : Except String (Sensor Pose) :=
  match spec.rateHz with
  | none => .error "invalid fleet sensor rate"
  | some rate =>
    if rate≤0 ∨ 100<rate then .error "invalid fleet sensor rate"
    else .ok {
      spec := spec
      period := 1000000000/rate
      withBodies := options.vehicleBodies || (manifest.bodyRoster && spec.config.mode != .penetrating)
      pose := default }

/-- An engine before its first tick. -/
def make [Inhabited Pose] (manifest : FleetManifest) (options : EngineOptions) :
    Except String (Engine Pose) :=
  if !positive options.poseTimeout then
    .error "world lidar needs frame_id=world and a positive finite pose_timeout"
  else if options.vehicleBodies && !positive options.vehicleBodyRadius then
    .error "~vehicle_body_radius must be > 0"
  else (manifest.robots.mapM (makeSensor manifest options)).map fun sensors => {
    bodyRoster := manifest.bodyRoster
    sensors := sensors
    bodies := manifest.bodies.map fun body => {spec := body, pose := default} }

end Fleet

section Ticks

variable {Pose : Type} (contract : Contract Pose)

/-- A sample is not from the future and within the time-out. -/
def fresh (stamp now : ℤ) : Bool :=
  if stamp<0 ∨ now<stamp then false else contract.freshObservationTime (now-stamp)

/-- Every body that a scan may need has a fresh pose; a saved cloud needs none. -/
def bodyTruthReady (pointMap : Bool) (now : ℤ) : List (Body Pose) → Bool
  | [] => true
  | body::rest =>
    if pointMap && !body.spec.bodyReturns then bodyTruthReady pointMap now rest
    else if !body.valid || !fresh contract body.stamp now then
      if pointMap then bodyTruthReady pointMap now rest else false
    else bodyTruthReady pointMap now rest

/-- Truth about the bodies as a tick sees it. -/
def Engine.bodyTruth (engine : Engine Pose) (now : ℤ) : Bool :=
  if engine.bodyRoster then bodyTruthReady contract engine.pointMap now engine.bodies else true

/-- Everything but the schedule allows a scan. -/
def Sensor.eligible (sensor : Sensor Pose) (bodyTruth : Bool) (now : ℤ) : Bool :=
  sensor.enabled && sensor.demand && sensor.poseValid && fresh contract sensor.stamp now &&
    !(sensor.withBodies && !bodyTruth)

/-- The sensor is scanned in a tick. -/
def Sensor.due (sensor : Sensor Pose) (bodyTruth : Bool) (now : ℤ) : Bool :=
  !(decide (0 ≤ sensor.schedule.nextDue) && decide (now<sensor.schedule.nextDue)) &&
    sensor.eligible contract bodyTruth now

/-- Forget the plan. -/
def Sensor.unscheduled (sensor : Sensor Pose) : Sensor Pose :=
  {sensor with schedule := {sensor.schedule with nextDue := -1}}

/-- Plan the next scan of a sensor that is due. -/
def Sensor.ticked (bodyTruth : Bool) (now : ℤ) (sensor : Sensor Pose) : Sensor Pose :=
  if sensor.due contract bodyTruth now then
    {sensor with schedule := sensor.schedule.advance sensor.period now}
  else sensor

/-- A time before the last one forgets every plan. -/
def Engine.rewound (engine : Engine Pose) (now : ℤ) : Engine Pose :=
  if 0≤engine.lastTick ∧ now<engine.lastTick then
    {engine with sensors := engine.sensors.map Sensor.unscheduled}
  else engine

/-- One tick: the engine after it, and the sensors it scans in their order. -/
def Engine.tick (engine : Engine Pose) (now : ℤ) : Engine Pose × List ℕ :=
  let started := {engine.rewound now with lastTick := now}
  if started.enabled && started.ready then
    let bodyTruth := started.bodyTruth contract now
    ({started with sensors := started.sensors.map (Sensor.ticked contract bodyTruth now)},
      (started.sensors.zipIdx.filter fun entry => entry.1.due contract bodyTruth now).map Prod.snd)
  else (started,[])

/-- What the owner tells the engine between ticks. -/
inductive Input (Pose : Type) where
  | enable (enabled : Bool)
  | enableSensor (sensor : ℕ) (enabled : Bool)
  | demand (sensor : ℕ) (demand : Bool)
  | pose (sensor : ℕ) (pose : Pose) (stamp : ℤ) (frame : String)
  | bodyPose (body : ℕ) (pose : Pose) (stamp : ℤ) (frame : String)

/-- Calls of an engine. -/
inductive Op (Pose : Type) where
  | input (input : Input Pose)
  /-- A scene is set, refused or withdrawn; the engine is ready or not after it. -/
  | scene (ready : Bool)
  /-- A saved cloud is set, which the scene cache may still refuse. -/
  | pointCloud (ready : Bool)
  | tick (now : ℤ)

/-- A sensor with a new pose. -/
def Sensor.posed (pose : Pose) (stamp : ℤ) (frame : String) (sensor : Sensor Pose) : Sensor Pose :=
  {sensor with
    poseValid := contract.validObservationPose pose frame "world"
    pose := pose
    stamp := stamp }

/-- A body with a new pose. -/
def Body.posed (pose : Pose) (stamp : ℤ) (frame : String) (body : Body Pose) : Body Pose :=
  {body with
    valid := contract.validObservationPose pose frame "world"
    pose := pose
    stamp := stamp }

/-- A pose of a body is also the pose of every sensor on its topic. -/
def Engine.setBodyPose (engine : Engine Pose) (index : ℕ) (pose : Pose) (stamp : ℤ)
    (frame : String) : Engine Pose :=
  match engine.bodies[index]? with
  | none => engine
  | some body =>
    {engine with
      bodies := engine.bodies.modify index (Body.posed contract pose stamp frame)
      sensors := engine.sensors.map fun sensor =>
        if sensor.spec.poseTopic=body.spec.poseTopic then sensor.posed contract pose stamp frame
        else sensor }

/-- Under a saved cloud a sensor needs bodies when another body returns rays. -/
def Engine.setPointCloud (engine : Engine Pose) (ready : Bool) : Engine Pose :=
  {engine with
    pointMap := true
    ready := ready
    sensors := engine.sensors.map fun sensor =>
      {sensor with withBodies := engine.bodies.any fun body =>
        body.spec.bodyReturns && body.spec.id != sensor.spec.bodyId } }

/-- The engine after an input; one for a sensor or body that is not there is refused. -/
def Engine.accept (engine : Engine Pose) : Input Pose → Engine Pose
  | .enable enabled => {engine with enabled := enabled}
  | .enableSensor index enabled =>
    {engine with sensors := engine.sensors.modify index fun sensor => {sensor with enabled := enabled}}
  | .demand index demand =>
    {engine with sensors := engine.sensors.modify index fun sensor => {sensor with demand := demand}}
  | .pose index pose stamp frame =>
    {engine with sensors := engine.sensors.modify index (Sensor.posed contract pose stamp frame)}
  | .bodyPose index pose stamp frame => engine.setBodyPose contract index pose stamp frame

/-- One call, and the sensors it scans. -/
def Engine.step (engine : Engine Pose) : Op Pose → Engine Pose × List ℕ
  | .input input => (engine.accept contract input,[])
  | .scene ready => ({engine with ready := ready},[])
  | .pointCloud ready => (engine.setPointCloud ready,[])
  | .tick now => engine.tick contract now

/-- The engine after calls. -/
def Engine.run (engine : Engine Pose) (ops : List (Op Pose)) : Engine Pose :=
  ops.foldl (fun state op => (state.step contract op).1) engine

/-- Times of ticks. -/
def ticks : List (Op Pose) → List ℤ
  | [] => []
  | .tick now::rest => now::ticks rest
  | _::rest => ticks rest

/-- Times at which a sensor is scanned. -/
def scans (index : ℕ) (engine : Engine Pose) : List (Op Pose) → List ℤ
  | [] => []
  | .tick now::rest =>
    let ticked := engine.tick contract now
    if index∈ticked.2 then now::scans index ticked.1 rest else scans index ticked.1 rest
  | op::rest => scans index (engine.step contract op).1 rest

/-- Everything but the schedule allows a scan of a sensor. -/
def Engine.eligible (engine : Engine Pose) (index : ℕ) (now : ℤ) : Bool :=
  engine.enabled && engine.ready &&
    engine.sensors[index]?.any fun sensor => sensor.eligible contract (engine.bodyTruth contract now) now

/-- A sensor has this period and this plan. -/
def Engine.Planned (engine : Engine Pose) (index : ℕ) (period : ℚ) (schedule : Schedule) : Prop :=
  ∃ sensor, engine.sensors[index]?=some sensor ∧ sensor.period=period ∧ sensor.schedule=schedule

/-- The plan that a tick starts from. -/
def Engine.base (engine : Engine Pose) (now : ℤ) (schedule : Schedule) : Schedule :=
  if 0≤engine.lastTick ∧ now<engine.lastTick then {schedule with nextDue := -1} else schedule

/-- The plan does not forbid a scan at `now`. -/
def Schedule.isOpen (schedule : Schedule) (now : ℤ) : Prop :=
  ¬(0 ≤ schedule.nextDue ∧ now<schedule.nextDue)

/-- Sensors after a rewind. -/
theorem rewound_sensor (engine : Engine Pose) (index : ℕ) (now : ℤ) :
    (engine.rewound now).sensors[index]?=
      (engine.sensors[index]?).map fun sensor =>
        {sensor with schedule := engine.base now sensor.schedule} := by
  unfold Engine.rewound Engine.base
  split
  · rw [List.getElem?_map]
    rfl
  · exact (Option.map_id' (x := engine.sensors[index]?)).symm

/-- A rewind changes nothing else. -/
theorem rewound_fields (engine : Engine Pose) (now : ℤ) :
    (engine.rewound now).enabled=engine.enabled ∧ (engine.rewound now).ready=engine.ready ∧
    (engine.rewound now).bodyRoster=engine.bodyRoster ∧ (engine.rewound now).bodies=engine.bodies ∧
    (engine.rewound now).pointMap=engine.pointMap := by
  unfold Engine.rewound
  split
  · simp only [and_self]
  · simp only [and_self]

/-- The sensor is due exactly when its plan is open and it is eligible. -/
theorem due_iff (sensor : Sensor Pose) (bodyTruth : Bool) (now : ℤ) :
    sensor.due contract bodyTruth now=true ↔
      sensor.eligible contract bodyTruth now=true ∧ sensor.schedule.isOpen now := by
  unfold Sensor.due Schedule.isOpen
  simp only [Bool.and_eq_true,Bool.not_eq_true',Bool.and_eq_false_iff,decide_eq_false_iff_not]
  constructor
  · intro h
    refine ⟨h.2,?_⟩
    intro hboth
    rcases h.1 with hneg | hneg
    · exact hneg hboth.1
    · exact hneg hboth.2
  · intro h
    refine ⟨?_,h.1⟩
    by_contra hcon
    push Not at hcon
    exact h.2 hcon

/-- A tick of an engine that is disabled or has no scene only rewinds. -/
theorem tick_off {engine : Engine Pose} {now : ℤ} (hoff : (engine.enabled && engine.ready)=false) :
    engine.tick contract now=({engine.rewound now with lastTick := now},[]) := by
  obtain ⟨henabled,hready,-⟩ := rewound_fields engine now
  have hoff' : ¬((engine.rewound now).enabled && (engine.rewound now).ready)=true := by
    rw [henabled,hready,hoff]
    exact Bool.false_ne_true
  unfold Engine.tick
  exact if_neg hoff'

/-- A tick of an engine that can scan. -/
theorem tick_on {engine : Engine Pose} {now : ℤ} (hon : (engine.enabled && engine.ready)=true) :
    engine.tick contract now=
      ({engine.rewound now with
          lastTick := now
          sensors := (engine.rewound now).sensors.map
            (Sensor.ticked contract (engine.bodyTruth contract now) now) },
        ((engine.rewound now).sensors.zipIdx.filter fun entry =>
          entry.1.due contract (engine.bodyTruth contract now) now).map Prod.snd) := by
  obtain ⟨henabled,hready,hroster,hbodies,hmap⟩ := rewound_fields engine now
  have hon' : ((engine.rewound now).enabled && (engine.rewound now).ready)=true := by
    rw [henabled,hready,hon]
  have htruth : Engine.bodyTruth contract {engine.rewound now with lastTick := now} now=
      engine.bodyTruth contract now := by
    unfold Engine.bodyTruth
    dsimp only
    rw [hroster,hbodies,hmap]
  unfold Engine.tick
  dsimp only
  rw [if_pos hon',htruth]

/-- What a tick does to one sensor. -/
theorem tick_planned {engine : Engine Pose} {index : ℕ} {period : ℚ} {schedule : Schedule}
    (h : engine.Planned index period schedule) (now : ℤ) :
    (index∈(engine.tick contract now).2 ↔
      engine.eligible contract index now=true ∧ (engine.base now schedule).isOpen now) ∧
    (engine.tick contract now).1.Planned index period
      (if index∈(engine.tick contract now).2 then (engine.base now schedule).advance period now
        else engine.base now schedule) := by
  obtain ⟨sensor,hs,hperiod,hschedule⟩ := h
  subst hschedule
  have hrewound := rewound_sensor engine index now
  rw [hs,Option.map_some] at hrewound
  have heligible : engine.eligible contract index now=
      (engine.enabled && engine.ready && sensor.eligible contract (engine.bodyTruth contract now) now) := by
    unfold Engine.eligible
    rw [hs]
    rfl
  rw [heligible]
  cases hon : (engine.enabled && engine.ready) with
  | false =>
    rw [tick_off contract hon,Bool.false_and]
    dsimp only
    constructor
    · simp only [List.not_mem_nil,Bool.false_eq_true,false_and]
    · rw [if_neg (List.not_mem_nil)]
      exact ⟨_,hrewound,hperiod,rfl⟩
  | true =>
    rw [tick_on contract hon,Bool.true_and]
    dsimp only
    have hdue := due_iff contract {sensor with schedule := engine.base now sensor.schedule}
      (engine.bodyTruth contract now) now
    have hmem : index∈((engine.rewound now).sensors.zipIdx.filter fun entry =>
        entry.1.due contract (engine.bodyTruth contract now) now).map Prod.snd ↔
        Sensor.due contract {sensor with schedule := engine.base now sensor.schedule}
          (engine.bodyTruth contract now) now=true := by
      rw [List.mem_map]
      constructor
      · intro ⟨entry,hentry,hindex⟩
        rw [List.mem_filter,List.mem_zipIdx_iff_getElem?] at hentry
        rw [hindex,hrewound,Option.some_inj] at hentry
        rw [hentry.1]
        exact hentry.2
      · intro hd
        refine ⟨({sensor with schedule := engine.base now sensor.schedule},index),?_,rfl⟩
        rw [List.mem_filter,List.mem_zipIdx_iff_getElem?]
        exact ⟨hrewound,hd⟩
    constructor
    · rw [hmem,hdue]
      rfl
    · refine ⟨Sensor.ticked contract (engine.bodyTruth contract now) now
        {sensor with schedule := engine.base now sensor.schedule},?_,?_,?_⟩
      · rw [List.getElem?_map,hrewound]
        rfl
      · unfold Sensor.ticked
        split <;> exact hperiod
      · unfold Sensor.ticked
        by_cases hd : Sensor.due contract {sensor with schedule := engine.base now sensor.schedule}
            (engine.bodyTruth contract now) now=true
        · rw [if_pos hd,if_pos (hmem.mpr hd),←hperiod]
        · rw [if_neg hd,if_neg (mt hmem.mp hd)]

/-- A tick changes nothing of a sensor but its plan. -/
theorem tick_sensors (engine : Engine Pose) (now : ℤ) : ∃ change : Sensor Pose → Schedule,
    ∀ index : ℕ, (engine.tick contract now).1.sensors[index]?=
      (engine.sensors[index]?).map fun sensor => {sensor with schedule := change sensor} := by
  cases hon : (engine.enabled && engine.ready) with
  | false =>
    refine ⟨fun sensor => engine.base now sensor.schedule,fun index => ?_⟩
    rw [tick_off contract hon]
    exact rewound_sensor engine index now
  | true =>
    refine ⟨fun sensor => (Sensor.ticked contract (engine.bodyTruth contract now) now
      {sensor with schedule := engine.base now sensor.schedule}).schedule,fun index => ?_⟩
    rw [tick_on contract hon]
    dsimp only
    rw [List.getElem?_map,rewound_sensor,Option.map_map]
    congr 1
    funext sensor
    dsimp only [Function.comp_apply]
    unfold Sensor.ticked
    split
    · rfl
    · rfl

/-- A tick scans sensors of an engine with a scene, each at most once. -/
theorem tick_scanned (engine : Engine Pose) (now : ℤ) :
    (engine.tick contract now).2.Nodup ∧ (engine.tick contract now).1.ready=engine.ready ∧
    ∀ index∈(engine.tick contract now).2, engine.ready=true ∧ index<engine.sensors.length := by
  obtain ⟨-,hready,-⟩ := rewound_fields engine now
  cases hon : (engine.enabled && engine.ready) with
  | false =>
    rw [tick_off contract hon]
    exact ⟨List.nodup_nil,hready,fun index hindex => absurd hindex List.not_mem_nil⟩
  | true =>
    rw [tick_on contract hon]
    refine ⟨?_,hready,fun index hindex => ?_⟩
    · have hall : ((engine.rewound now).sensors.zipIdx.map Prod.snd).Nodup := by
        rw [List.zipIdx_map_snd]
        exact List.nodup_range'
      exact (List.filter_sublist.map Prod.snd).nodup hall
    · obtain ⟨entry,hentry,hsame⟩ := List.mem_map.mp hindex
      have hlookup := (List.mem_zipIdx_iff_getElem?.mp (List.mem_of_mem_filter hentry))
      rw [Bool.and_eq_true] at hon
      refine ⟨hon.2,?_⟩
      rw [hsame,rewound_sensor] at hlookup
      cases hsensor : engine.sensors[index]? with
      | none =>
        rw [hsensor] at hlookup
        exact absurd hlookup (by simp only [Option.map_none,reduceCtorEq,not_false_eq_true])
      | some sensor => exact (List.getElem?_eq_some_iff.mp hsensor).1

/-- A tick remembers its time. -/
theorem tick_lastTick (engine : Engine Pose) (now : ℤ) :
    (engine.tick contract now).1.lastTick=now := by
  unfold Engine.tick
  dsimp only
  split <;> rfl

/-- Calls other than ticks. -/
def Op.quiet : Op Pose → Bool
  | .tick _ => false
  | _ => true

/-- A map that keeps a sensor's period and plan keeps what is planned. -/
theorem planned_map {engine after : Engine Pose} {index : ℕ} {period : ℚ} {schedule : Schedule}
    (h : engine.Planned index period schedule) {change : Sensor Pose → Sensor Pose}
    (hafter : after.sensors[index]?=engine.sensors[index]? ∨
      after.sensors[index]?=(engine.sensors[index]?).map change)
    (hchange : ∀ sensor, (change sensor).period=sensor.period ∧ (change sensor).schedule=sensor.schedule) :
    after.Planned index period schedule := by
  obtain ⟨sensor,hs,hperiod,hschedule⟩ := h
  rcases hafter with hsame | hmapped
  · exact ⟨sensor,hsame.trans hs,hperiod,hschedule⟩
  · rw [hs,Option.map_some] at hmapped
    exact ⟨_,hmapped,(hchange sensor).1.trans hperiod,(hchange sensor).2.trans hschedule⟩

/-- Changing one sensor of a list changes that one or not. -/
theorem modify_lookup {α : Type} (items : List α) (target index : ℕ) (change : α → α) :
    (items.modify target change)[index]?=items[index]? ∨
      (items.modify target change)[index]?=(items[index]?).map change := by
  rw [List.getElem?_modify]
  by_cases h : target=index
  · right
    simp only [h,if_true]
    rfl
  · left
    simp only [h,if_false]
    exact Option.map_id' (x := items[index]?)

/-- An input keeps every plan and the time of the last tick. -/
theorem accept_planned (engine : Engine Pose) (input : Input Pose) :
    (engine.accept contract input).lastTick=engine.lastTick ∧
    ∀ {index period schedule}, engine.Planned index period schedule →
      (engine.accept contract input).Planned index period schedule := by
  cases input with
  | enable enabled => exact ⟨rfl,fun h => h⟩
  | enableSensor target _ | demand target _ | pose target _ _ _ =>
    exact ⟨rfl,fun h => planned_map h (modify_lookup engine.sensors target _ _) (fun _ => ⟨rfl,rfl⟩)⟩
  | bodyPose target pose stamp frame =>
    unfold Engine.accept Engine.setBodyPose
    dsimp only
    cases engine.bodies[target]? with
    | none => exact ⟨rfl,fun h => h⟩
    | some body =>
      refine ⟨rfl,fun h => planned_map h (Or.inr List.getElem?_map) (fun sensor => ?_)⟩
      by_cases htopic : sensor.spec.poseTopic=body.spec.poseTopic
      · rw [if_pos htopic]
        exact ⟨rfl,rfl⟩
      · rw [if_neg htopic]
        exact ⟨rfl,rfl⟩

/-- An input keeps what every sensor is, and whether a scene is installed. -/
theorem accept_sensors (engine : Engine Pose) (input : Input Pose) :
    (engine.accept contract input).ready=engine.ready ∧
    (engine.accept contract input).sensors.length=engine.sensors.length ∧
    ∀ (index : ℕ) (after : Sensor Pose), (engine.accept contract input).sensors[index]?=some after →
      ∃ sensor, engine.sensors[index]?=some sensor ∧ after.spec=sensor.spec ∧
        after.withBodies=sensor.withBodies := by
  have hmodify : ∀ (target : ℕ) (change : Sensor Pose → Sensor Pose),
      (∀ sensor, (change sensor).spec=sensor.spec ∧ (change sensor).withBodies=sensor.withBodies) →
      ∀ (index : ℕ) (after : Sensor Pose), (engine.sensors.modify target change)[index]?=some after →
        ∃ sensor, engine.sensors[index]?=some sensor ∧ after.spec=sensor.spec ∧
          after.withBodies=sensor.withBodies := by
    intro target change hchange index after hafter
    rcases modify_lookup engine.sensors target index change with hsame | hmapped
    · rw [hsame] at hafter
      exact ⟨after,hafter,rfl,rfl⟩
    · rw [hmapped] at hafter
      obtain ⟨sensor,hsensor,hequal⟩ := Option.map_eq_some_iff.mp hafter
      rw [←hequal]
      exact ⟨sensor,hsensor,(hchange sensor).1,(hchange sensor).2⟩
  cases input with
  | enable enabled => exact ⟨rfl,rfl,fun index after h => ⟨after,h,rfl,rfl⟩⟩
  | enableSensor target enabled =>
    exact ⟨rfl,List.length_modify ..,hmodify target _ fun _ => ⟨rfl,rfl⟩⟩
  | demand target _ | pose target _ _ _ => exact ⟨rfl,List.length_modify ..,hmodify target _ fun _ => ⟨rfl,rfl⟩⟩
  | bodyPose target pose stamp frame =>
    unfold Engine.accept Engine.setBodyPose
    dsimp only
    cases engine.bodies[target]? with
    | none => exact ⟨rfl,rfl,fun index after h => ⟨after,h,rfl,rfl⟩⟩
    | some body =>
      refine ⟨rfl,List.length_map _,fun index after hafter => ?_⟩
      dsimp only at hafter
      rw [List.getElem?_map] at hafter
      obtain ⟨sensor,hsensor,hequal⟩ := Option.map_eq_some_iff.mp hafter
      refine ⟨sensor,hsensor,?_⟩
      rw [←hequal]
      split
      · exact ⟨rfl,rfl⟩
      · exact ⟨rfl,rfl⟩

/-- A call other than a tick keeps every plan and the time of the last tick. -/
theorem quiet_step (engine : Engine Pose) {op : Op Pose} (hquiet : op.quiet=true) :
    (engine.step contract op).1.lastTick=engine.lastTick ∧
    ∀ {index period schedule}, engine.Planned index period schedule →
      (engine.step contract op).1.Planned index period schedule := by
  cases op with
  | tick now => exact absurd hquiet Bool.false_ne_true
  | input input => exact accept_planned contract engine input
  | scene ready => exact ⟨rfl,fun h => h⟩
  | pointCloud ready =>
    exact ⟨rfl,fun h => planned_map h (Or.inr List.getElem?_map) (fun _ => ⟨rfl,rfl⟩)⟩

end Ticks

section Runs

variable {Pose : Type} (contract : Contract Pose)

/-- Ticks in the order of their times. -/
def Nondecreasing (ops : List (Op Pose)) : Prop :=
  (ticks ops).Pairwise (·≤·)

/-- No plan of the sensor reaches the largest time. -/
def Unsaturated (index : ℕ) (engine : Engine Pose) : List (Op Pose) → Prop
  | [] => True
  | op::rest =>
    (∀ sensor, (engine.step contract op).1.sensors[index]?=some sensor →
      sensor.schedule.nextDue < int64Max) ∧
    Unsaturated index (engine.step contract op).1 rest

/-- Ticks in the order of their times, none before the engine's last one. -/
def Forward (engine : Engine Pose) (ops : List (Op Pose)) : Prop :=
  (0≤engine.lastTick → ∀ now∈ticks ops, engine.lastTick≤now) ∧ Nondecreasing ops

/-- Runs compose. -/
theorem run_append (engine : Engine Pose) (before after : List (Op Pose)) :
    engine.run contract (before++after)=(engine.run contract before).run contract after :=
  List.foldl_append

/-- One call, then a run. -/
theorem run_cons (engine : Engine Pose) (op : Op Pose) (rest : List (Op Pose)) :
    engine.run contract (op::rest)=(engine.step contract op).1.run contract rest :=
  rfl

/-- The scan of one tick. -/
theorem scans_tick (index : ℕ) (engine : Engine Pose) (now : ℤ) (rest : List (Op Pose)) :
    scans contract index engine (.tick now::rest)=
      if index∈(engine.tick contract now).2 then now::scans contract index (engine.tick contract now).1 rest
      else scans contract index (engine.tick contract now).1 rest :=
  rfl

/-- Scans of a call and of the calls after it. -/
theorem scans_cons (index : ℕ) (engine : Engine Pose) (op : Op Pose) (rest : List (Op Pose)) :
    scans contract index engine (op::rest)=
      scans contract index engine [op]++scans contract index (engine.step contract op).1 rest := by
  cases op with
  | tick now =>
    rw [scans_tick,scans_tick]
    split
    · rfl
    · rfl
  | _ => rfl

/-- Scans of a run are those of its parts. -/
theorem scans_append (index : ℕ) (before after : List (Op Pose)) (engine : Engine Pose) :
    scans contract index engine (before++after)=
      scans contract index engine before++scans contract index (engine.run contract before) after := by
  induction before generalizing engine with
  | nil => rfl
  | cons op rest ih =>
    rw [List.cons_append,scans_cons,ih,scans_cons contract index engine op rest,run_cons,List.append_assoc]

/-- A call other than a tick scans nothing. -/
theorem scans_quiet (index : ℕ) (engine : Engine Pose) {op : Op Pose} (hquiet : op.quiet=true)
    (rest : List (Op Pose)) :
    scans contract index engine (op::rest)=scans contract index (engine.step contract op).1 rest := by
  cases op with
  | tick now => exact absurd hquiet Bool.false_ne_true
  | _ => rfl

/-- Times of a call and of the calls after it. -/
theorem ticks_cons (op : Op Pose) (rest : List (Op Pose)) : ticks (op::rest)=ticks [op]++ticks rest := by
  cases op with
  | _ => rfl

/-- Times of a run are those of its parts. -/
theorem ticks_append (before after : List (Op Pose)) :
    ticks (before++after)=ticks before++ticks after := by
  induction before with
  | nil => rfl
  | cons op rest ih => rw [List.cons_append,ticks_cons,ih,ticks_cons op rest,List.append_assoc]

/-- A call other than a tick has no time. -/
theorem ticks_quiet {op : Op Pose} (hquiet : op.quiet=true) (rest : List (Op Pose)) :
    ticks (op::rest)=ticks rest := by
  cases op with
  | tick now => exact absurd hquiet Bool.false_ne_true
  | _ => rfl

/-- Every call is a tick or quiet. -/
theorem tick_or_quiet (op : Op Pose) : (∃ now, op=.tick now) ∨ op.quiet=true := by
  cases op with
  | tick now => exact Or.inl ⟨now,rfl⟩
  | _ => exact Or.inr rfl

/-- Ticks in order keep plans when a tick starts. -/
theorem forward_base {engine : Engine Pose} {now : ℤ} {rest : List (Op Pose)}
    (h : Forward engine (.tick now::rest)) (schedule : Schedule) : engine.base now schedule=schedule := by
  unfold Engine.base
  refine if_neg fun hback => ?_
  have hle := h.1 hback.1 now List.mem_cons_self
  omega

/-- Ticks in order stay in order. -/
theorem forward_step {engine : Engine Pose} {op : Op Pose} {rest : List (Op Pose)}
    (h : Forward engine (op::rest)) : Forward (engine.step contract op).1 rest := by
  obtain ⟨hlast,horder⟩ := h
  rcases tick_or_quiet op with ⟨now,rfl⟩ | hquiet
  · have hpair : (now::ticks rest).Pairwise (·≤·) := horder
    rw [List.pairwise_cons] at hpair
    refine ⟨fun _ later hlater => ?_,hpair.2⟩
    have hlastTick : (engine.step contract (.tick now)).1.lastTick=now := tick_lastTick contract engine now
    rw [hlastTick]
    exact hpair.1 later hlater
  · unfold Nondecreasing at horder
    rw [ticks_quiet hquiet] at hlast horder
    refine ⟨fun hnonneg later hlater => ?_,horder⟩
    rw [(quiet_step contract engine hquiet).1] at hnonneg ⊢
    exact hlast hnonneg later hlater

/-- Ticks of a run's end are in order. -/
theorem forward_append {before after : List (Op Pose)} {engine : Engine Pose}
    (h : Forward engine (before++after)) : Forward (engine.run contract before) after := by
  induction before generalizing engine with
  | nil => exact h
  | cons op rest ih => exact ih (forward_step contract h)

/-- Plans of a run's end stay below the largest time. -/
theorem unsaturated_append {index : ℕ} {before after : List (Op Pose)} {engine : Engine Pose}
    (h : Unsaturated contract index engine (before++after)) :
    Unsaturated contract index (engine.run contract before) after := by
  induction before generalizing engine with
  | nil => exact h
  | cons op rest ih => exact ih h.2

/-- A sensor that may be scanned has a sample, whose time is not negative. -/
theorem eligible_nonneg {engine : Engine Pose} {index : ℕ} {now : ℤ}
    (h : engine.eligible contract index now=true) : 0≤now := by
  unfold Engine.eligible at h
  rw [Bool.and_eq_true] at h
  obtain ⟨sensor,-,helig⟩ := (Option.any_eq_true _ _).mp h.2
  have hfresh : fresh contract sensor.stamp now=true := by
    unfold Sensor.eligible at helig
    simp only [Bool.and_eq_true] at helig
    exact helig.1.2
  unfold fresh at hfresh
  by_cases hbad : sensor.stamp<0 ∨ now<sensor.stamp
  · rw [if_pos hbad] at hfresh
    exact absurd hfresh Bool.false_ne_true
  · omega

/-- A planned sensor below the largest time. -/
theorem unsaturated_planned {index : ℕ} {engine : Engine Pose} {op : Op Pose} {rest : List (Op Pose)}
    {period : ℚ} {schedule : Schedule} (h : Unsaturated contract index engine (op::rest))
    (hplanned : (engine.step contract op).1.Planned index period schedule) :
    schedule.nextDue < int64Max := by
  obtain ⟨sensor,hs,-,hschedule⟩ := hplanned
  rw [←hschedule]
  exact h.1 sensor hs

/-- A plan is its slot, or there is none. -/
def Schedule.OnGrid (period : ℚ) (schedule : Schedule) : Prop :=
  schedule.nextDue<0 ∨ schedule.nextDue=slot period schedule.epoch schedule.index

/-- An open plan has reached its slot, or there is none. -/
theorem open_reached {period : ℚ} {schedule : Schedule} {now : ℤ} (hgrid : schedule.OnGrid period)
    (hopen : schedule.isOpen now) : schedule.nextDue<0 ∨ schedule.exact period≤now := by
  rcases hgrid with hnone | hslot
  · exact Or.inl hnone
  · by_cases hneg : schedule.nextDue<0
    · exact Or.inl hneg
    · right
      have hle : schedule.nextDue≤now := by
        unfold Schedule.isOpen at hopen
        omega
      rw [hslot] at hle
      exact (slot_le_iff _ _ _ _).mp hle

/-- Under ticks in order the scans of a sensor keep to its slots. -/
theorem scans_follow {index : ℕ} {period : ℚ} (hp : 0<period) {ops : List (Op Pose)} :
    ∀ {engine : Engine Pose} {schedule : Schedule}, engine.Planned index period schedule →
      schedule.OnGrid period → Forward engine ops → Unsaturated contract index engine ops →
      ∃ planned, Follows period planned (scans contract index engine ops) ∧
        (0 ≤ schedule.nextDue → planned=schedule.exact period) := by
  induction ops with
  | nil =>
    intro engine schedule _ _ _ _
    exact ⟨schedule.exact period,trivial,fun _ => rfl⟩
  | cons op rest ih =>
    intro engine schedule hplanned hgrid hforward hunsat
    rcases tick_or_quiet op with ⟨now,rfl⟩ | hquiet
    · have hbase := forward_base hforward schedule
      obtain ⟨hscan,hafter⟩ := tick_planned contract hplanned now
      rw [hbase] at hscan hafter
      rw [scans_tick]
      by_cases hin : index∈(engine.tick contract now).2
      · rw [if_pos hin] at hafter ⊢
        have hbelow : (schedule.advance period now).nextDue < int64Max :=
          unsaturated_planned contract hunsat hafter
        have hdue := advance_due hbelow
        have hlate := advance_after hp hbelow
        have hnow := eligible_nonneg contract (hscan.mp hin).1
        obtain ⟨after,hfollows,hexact⟩ :=
          ih hafter (Or.inr hdue) (forward_step contract hforward) hunsat.2
        have hafter' := hexact (by omega)
        have hahead : (now : ℚ)<after := by
          rw [hafter']
          by_contra hcon
          have hle := (slot_le_iff period _ _ _).mpr (not_lt.mp hcon)
          omega
        rcases open_reached hgrid (hscan.mp hin).2 with hnone | hreached
        · refine ⟨now,⟨le_rfl,after,?_,hahead,hfollows⟩,fun hsome => ?_⟩
          · rw [hafter',advance_starts hnone]
          · omega
        · refine ⟨schedule.exact period,⟨hreached,after,?_,hahead,hfollows⟩,fun _ => rfl⟩
          rw [hafter']
          exact advance_grows hreached
      · rw [if_neg hin] at hafter ⊢
        exact ih hafter hgrid (forward_step contract hforward) hunsat.2
    · rw [scans_quiet contract index engine hquiet]
      exact ih ((quiet_step contract engine hquiet).2 hplanned) hgrid
        (forward_step contract hforward) hunsat.2

/-- While every scan happens before the slot after its own, the epoch stays and
the plan is the slot of the number of scans. -/
theorem run_keeps_epoch {index : ℕ} {period : ℚ} (hp : 0<period) {start : ℤ} (hstart : 0 ≤ start)
    {ops : List (Op Pose)} :
    ∀ {engine : Engine Pose} {done : ℕ},
      engine.Planned index period ⟨slot period start (done+1),start,done+1⟩ →
      Forward engine ops → Unsaturated contract index engine ops →
      (∀ (later : ℕ) (time : ℤ), (scans contract index engine ops)[later]?=some time →
        time<slot period start (done+later+2)) →
      (engine.run contract ops).Planned index period
        ⟨slot period start (done+(scans contract index engine ops).length+1),start,
          done+(scans contract index engine ops).length+1⟩ := by
  induction ops with
  | nil =>
    intro engine done hplanned _ _ _
    exact hplanned
  | cons op rest ih =>
    intro engine done hplanned hforward hunsat hontime
    rw [run_cons]
    rcases tick_or_quiet op with ⟨now,rfl⟩ | hquiet
    · have hbase := forward_base hforward ⟨slot period start (done+1),start,done+1⟩
      obtain ⟨-,hafter⟩ := tick_planned contract hplanned now
      rw [hbase] at hafter
      rw [scans_tick] at hontime ⊢
      by_cases hin : index∈(engine.tick contract now).2
      · rw [if_pos hin] at hafter hontime ⊢
        have hnow : now<slot period start (done+1+1) := hontime 0 now rfl
        have hnonneg : 0 ≤ slot period start (done+1) := by
          have hceil : 0≤⌈((done+1 : ℕ) : ℚ)*period⌉ := by positivity
          unfold slot
          omega
        have hkeeps := @advance_keeps period ⟨slot period start (done+1),start,done+1⟩ now hnonneg hnow
        rw [hkeeps] at hafter
        have hbelow := unsaturated_planned contract hunsat hafter
        have hmin : min (slot period start (done+1+1)) int64Max=slot period start (done+1+1) := by
          dsimp only at hbelow
          omega
        dsimp only at hafter
        rw [hmin] at hafter
        have hrun := ih hafter (forward_step contract hforward) hunsat.2 (fun later time hlater => by
          have hbound := hontime (later+1) time hlater
          have hindex : done+1+later+2=done+(later+1)+2 := by omega
          rw [hindex]
          exact hbound)
        have hcount : done+(now::scans contract index (engine.tick contract now).1 rest).length+1=
            done+1+(scans contract index (engine.tick contract now).1 rest).length+1 := by
          rw [List.length_cons]
          omega
        rw [hcount]
        exact hrun
      · rw [if_neg hin] at hafter hontime ⊢
        exact ih hafter (forward_step contract hforward) hunsat.2 hontime
    · rw [scans_quiet contract index engine hquiet] at hontime ⊢
      exact ih ((quiet_step contract engine hquiet).2 hplanned) (forward_step contract hforward)
        hunsat.2 hontime

/-- Without a scan a sensor without a plan stays without one. -/
theorem run_unplanned {index : ℕ} {period : ℚ} {ops : List (Op Pose)} :
    ∀ {engine : Engine Pose} {schedule : Schedule}, engine.Planned index period schedule →
      schedule.nextDue<0 → scans contract index engine ops=[] →
      ∃ kept, (engine.run contract ops).Planned index period kept ∧ kept.nextDue<0 := by
  induction ops with
  | nil =>
    intro engine schedule hplanned hnone _
    exact ⟨schedule,hplanned,hnone⟩
  | cons op rest ih =>
    intro engine schedule hplanned hnone hscans
    rw [run_cons]
    rcases tick_or_quiet op with ⟨now,rfl⟩ | hquiet
    · obtain ⟨-,hafter⟩ := tick_planned contract hplanned now
      rw [scans_tick] at hscans
      by_cases hin : index∈(engine.tick contract now).2
      · rw [if_pos hin] at hscans
        exact absurd hscans (List.cons_ne_nil _ _)
      · rw [if_neg hin] at hscans hafter
        refine ih hafter ?_ hscans
        unfold Engine.base
        split
        · dsimp only
          omega
        · exact hnone
    · rw [scans_quiet contract index engine hquiet] at hscans
      exact ih ((quiet_step contract engine hquiet).2 hplanned) hnone hscans

/-- Before the time zero no sensor is planned. -/
theorem run_negative {index : ℕ} {period : ℚ} {ops : List (Op Pose)} :
    ∀ {engine : Engine Pose} {schedule : Schedule}, engine.Planned index period schedule →
      (engine.lastTick<0 → schedule.nextDue<0) →
      ∃ reached, (engine.run contract ops).Planned index period reached ∧
        ((engine.run contract ops).lastTick<0 → reached.nextDue<0) := by
  induction ops with
  | nil =>
    intro engine schedule hplanned hnegative
    exact ⟨schedule,hplanned,hnegative⟩
  | cons op rest ih =>
    intro engine schedule hplanned hnegative
    rw [run_cons]
    rcases tick_or_quiet op with ⟨now,rfl⟩ | hquiet
    · obtain ⟨hscan,hafter⟩ := tick_planned contract hplanned now
      refine ih hafter fun hlast => ?_
      have hnow : now<0 := by
        have heq : (engine.step contract (.tick now)).1.lastTick=now := tick_lastTick contract engine now
        rwa [heq] at hlast
      have hout : index∉(engine.tick contract now).2 := by
        intro hin
        have hnonneg := eligible_nonneg contract (hscan.mp hin).1
        omega
      rw [if_neg hout]
      unfold Engine.base
      split
      · dsimp only
        omega
      · refine hnegative ?_
        omega
    · refine ih ((quiet_step contract engine hquiet).2 hplanned) fun hlast => ?_
      rw [(quiet_step contract engine hquiet).1] at hlast
      exact hnegative hlast

/-- The engine remembers the time of the last tick. -/
theorem run_lastTick {ops : List (Op Pose)} :
    ∀ {engine : Engine Pose}, (engine.run contract ops).lastTick=(ticks ops).getLastD engine.lastTick := by
  induction ops with
  | nil =>
    intro engine
    rfl
  | cons op rest ih =>
    intro engine
    rw [run_cons,ih]
    rcases tick_or_quiet op with ⟨now,rfl⟩ | hquiet
    · have heq : (engine.step contract (.tick now)).1.lastTick=now := tick_lastTick contract engine now
      have hticks : ticks (.tick now::rest)=now::ticks rest := rfl
      rw [heq,hticks,List.getLastD_cons]
    · rw [ticks_quiet hquiet,(quiet_step contract engine hquiet).1]

/-- The first tick of calls is earlier than the last tick of the calls before them. -/
def WentBack (before after : List (Op Pose)) : Prop :=
  ∃ last first, (ticks before).getLast?=some last ∧ (ticks after).head?=some first ∧ first<last

/-- Calls before the first tick keep the engine's last tick and every plan. -/
theorem run_idle {ops : List (Op Pose)} (hnone : ticks ops=[]) :
    ∀ {engine : Engine Pose}, (engine.run contract ops).lastTick=engine.lastTick ∧
      ∀ {index period schedule}, engine.Planned index period schedule →
        (engine.run contract ops).Planned index period schedule := by
  induction ops with
  | nil =>
    intro engine
    exact ⟨rfl,fun h => h⟩
  | cons op rest ih =>
    intro engine
    rcases tick_or_quiet op with ⟨now,rfl⟩ | hquiet
    · exact absurd hnone (List.cons_ne_nil _ _)
    · rw [ticks_quiet hquiet] at hnone
      obtain ⟨hlast,hkeeps⟩ := quiet_step contract engine hquiet
      obtain ⟨hlast',hkeeps'⟩ := @ih hnone (engine.step contract op).1
      exact ⟨hlast'.trans hlast,fun h => hkeeps' (hkeeps h)⟩

/-- Calls with a tick are calls without one, the tick, and the rest. -/
theorem first_tick {ops : List (Op Pose)} {first : ℤ} (h : (ticks ops).head?=some first) :
    ∃ idle rest, ops=idle++.tick first::rest ∧ ticks idle=[] := by
  induction ops with
  | nil => exact absurd h (by simp only [ticks,List.head?_nil,reduceCtorEq,not_false_eq_true])
  | cons op rest ih =>
    rcases tick_or_quiet op with ⟨now,rfl⟩ | hquiet
    · have hnow : now=first := Option.some_inj.mp h
      rw [hnow]
      exact ⟨[],rest,rfl,rfl⟩
    · rw [ticks_quiet hquiet] at h
      obtain ⟨idle,later,hops,hidle⟩ := ih h
      refine ⟨op::idle,later,by rw [hops,List.cons_append],?_⟩
      rw [ticks_quiet hquiet]
      exact hidle

/-- A tick without a plan scans the sensor exactly when it is eligible. -/
theorem unplanned_tick {engine : Engine Pose} {index : ℕ} {period : ℚ} {schedule : Schedule}
    (h : engine.Planned index period schedule) {now : ℤ} (hnone : (engine.base now schedule).nextDue<0) :
    index∈(engine.tick contract now).2 ↔ engine.eligible contract index now=true := by
  rw [(tick_planned contract h now).1]
  constructor
  · intro hboth
    exact hboth.1
  · intro heligible
    refine ⟨heligible,?_⟩
    unfold Schedule.isOpen
    omega

/-- A tick keeps a missing plan missing at its start. -/
theorem base_unplanned (engine : Engine Pose) (now : ℤ) {schedule : Schedule} (h : schedule.nextDue<0) :
    (engine.base now schedule).nextDue<0 := by
  unfold Engine.base
  split
  · dsimp only
    omega
  · exact h

/-- A tick before the last one starts without a plan. -/
theorem base_back {engine : Engine Pose} {now : ℤ} {schedule : Schedule} (hback : now<engine.lastTick)
    (hnegative : engine.lastTick<0 → schedule.nextDue<0) : (engine.base now schedule).nextDue<0 := by
  by_cases hlast : 0≤engine.lastTick
  · unfold Engine.base
    rw [if_pos ⟨hlast,hback⟩]
    dsimp only
    omega
  · exact base_unplanned engine now (hnegative (by omega))

/-- Once the time has gone back, a sensor that has not been scanned since is
scanned by every tick that finds it eligible. -/
theorem back_scans {engine : Engine Pose} {index : ℕ} {period : ℚ} {schedule : Schedule}
    (hplanned : engine.Planned index period schedule)
    (hnegative : engine.lastTick<0 → schedule.nextDue<0) {before since : List (Op Pose)} {now : ℤ}
    (hback : WentBack before (since++[.tick now]))
    (hnone : scans contract index (engine.run contract before) since=[]) :
    index∈((engine.run contract (before++since)).tick contract now).2 ↔
      (engine.run contract (before++since)).eligible contract index now=true := by
  obtain ⟨reached,hreached,hreachedNegative⟩ :=
    @run_negative Pose contract index period before engine schedule hplanned hnegative
  obtain ⟨last,first,hlast,hfirst,hless⟩ := hback
  have hlastTick : (engine.run contract before).lastTick=last := by
    rw [run_lastTick,List.getLastD_eq_getLast?,hlast]
    rfl
  rw [run_append]
  rw [ticks_append] at hfirst
  cases hticks : ticks since with
  | nil =>
    rw [hticks] at hfirst
    have hnow : now=first := Option.some_inj.mp hfirst
    obtain ⟨hidle,hkeeps⟩ := @run_idle Pose contract since hticks (engine.run contract before)
    refine unplanned_tick contract (hkeeps hreached) (base_back ?_ ?_)
    · rw [hidle,hlastTick,hnow]
      exact hless
    · rw [hidle]
      exact hreachedNegative
  | cons head rest =>
    rw [hticks] at hfirst
    have hhead : (ticks since).head?=some first := by
      rw [hticks]
      exact hfirst
    obtain ⟨idle,later,hsince,hidleTicks⟩ := first_tick hhead
    obtain ⟨hidle,hkeeps⟩ := @run_idle Pose contract idle hidleTicks (engine.run contract before)
    rw [hsince,scans_append,scans_tick,List.append_eq_nil_iff] at hnone
    obtain ⟨-,hafter⟩ := tick_planned contract (hkeeps hreached) first
    have hbase : (((engine.run contract before).run contract idle).base first reached).nextDue<0 := by
      refine base_back ?_ ?_
      · rw [hidle,hlastTick]
        exact hless
      · rw [hidle]
        exact hreachedNegative
    by_cases hin : index∈(((engine.run contract before).run contract idle).tick contract first).2
    · rw [if_pos hin] at hnone
      exact absurd hnone.2 (List.cons_ne_nil _ _)
    · rw [if_neg hin] at hnone hafter
      obtain ⟨kept,hkept,hkeptNone⟩ := run_unplanned contract hafter hbase hnone.2
      rw [hsince,run_append,run_cons]
      exact unplanned_tick contract hkept (base_unplanned _ now hkeptNone)

/-- Results of a fallible map in the order of the items. -/
theorem mapM_lookup {α β ε : Type} {make : α → Except ε β} {items : List α} :
    ∀ {made : List β} {index : ℕ} {item : α}, items.mapM make=.ok made →
      items[index]?=some item → ∃ result, made[index]?=some result ∧ make item=.ok result := by
  induction items with
  | nil =>
    intro made index item _ hitem
    exact absurd hitem (by simp only [List.getElem?_nil,reduceCtorEq,not_false_eq_true])
  | cons head rest ih =>
    intro made index item hmade hitem
    rw [List.mapM_cons] at hmade
    cases hhead : make head with
    | error refusal =>
      rw [hhead] at hmade
      exact absurd hmade (by intro hcon; cases hcon)
    | ok result =>
      cases hrest : rest.mapM make with
      | error refusal =>
        rw [hhead,hrest] at hmade
        exact absurd hmade (by intro hcon; cases hcon)
      | ok results =>
        rw [hhead,hrest] at hmade
        have heq : made=result::results := (Except.ok.inj hmade).symm
        rw [heq]
        cases index with
        | zero =>
          have hsame : head=item := Option.some_inj.mp hitem
          exact ⟨result,rfl,hsame ▸ hhead⟩
        | succ index =>
          obtain ⟨made,hmade,hsame⟩ := ih hrest hitem
          exact ⟨made,hmade,hsame⟩

/-- A rate that is accepted gives the sensor its period. -/
theorem makeSensor_accepts [Inhabited Pose] (manifest : FleetManifest) (options : EngineOptions)
    {spec : SensorSpec} {rate : ℚ} (hrate : spec.rateHz=some rate) (hpos : 0<rate) (hle : rate≤100) :
    makeSensor manifest options spec=.ok ({
      spec := spec
      period := 1000000000/rate
      withBodies := options.vehicleBodies || (manifest.bodyRoster && spec.config.mode != .penetrating)
      pose := default } : Sensor Pose) := by
  have hgood : ¬(rate≤0 ∨ 100<rate) := by
    push Not
    exact ⟨hpos,hle⟩
  unfold makeSensor
  rw [hrate]
  exact if_neg hgood

/-- A sensor of a new engine has the period of its rate and no plan. -/
theorem make_planned [Inhabited Pose] {manifest : FleetManifest} {options : EngineOptions}
    {engine : Engine Pose} (hmake : make manifest options=.ok engine) {index : ℕ} {spec : SensorSpec}
    (hspec : manifest.robots[index]?=some spec) {rate : ℚ} (hrate : spec.rateHz=some rate) :
    0<rate ∧ rate≤100 ∧ engine.lastTick=-1 ∧ engine.Planned index (1000000000/rate) {} := by
  unfold make at hmake
  split at hmake
  · exact absurd hmake (by intro hcon; cases hcon)
  · split at hmake
    · exact absurd hmake (by intro hcon; cases hcon)
    · cases hsensors : manifest.robots.mapM (@makeSensor Pose _ manifest options) with
      | error refusal =>
        rw [hsensors] at hmake
        exact absurd hmake (by intro hcon; cases hcon)
      | ok sensors =>
        rw [hsensors] at hmake
        have heq := Except.ok.inj hmake
        obtain ⟨sensor,hlookup,hmade⟩ := mapM_lookup hsensors hspec
        unfold makeSensor at hmade
        rw [hrate] at hmade
        dsimp only at hmade
        by_cases hbad : rate≤0 ∨ 100<rate
        · rw [if_pos hbad] at hmade
          exact absurd hmade (by intro hcon; cases hcon)
        · rw [if_neg hbad] at hmade
          have hsensor := Except.ok.inj hmade
          push Not at hbad
          refine ⟨hbad.1,hbad.2,by rw [←heq],sensor,by rw [←heq]; exact hlookup,?_,?_⟩
          · rw [←hsensor]
          · rw [←hsensor]

/-- Every scan plans the next one after itself. -/
def PlansAhead (index : ℕ) (period : ℚ) (engine : Engine Pose) (ops : List (Op Pose)) : Prop :=
  ∀ before now after, ops=before++.tick now::after →
    index∈((engine.run contract before).tick contract now).2 →
    ∃ schedule, ((engine.run contract before).tick contract now).1.Planned index period schedule ∧
      now<schedule.nextDue

/-- Consecutive scans are more periods apart than there are scans between them. -/
def KeepsRate (index : ℕ) (period : ℚ) (engine : Engine Pose) (ops : List (Op Pose)) : Prop :=
  ∀ (earlier middle later : List ℤ) (first last : ℤ),
    scans contract index engine ops=earlier++first::(middle++last::later) →
    (middle.length : ℚ)*period<last-first

/-- After a scan that starts an epoch, and while scan `k` after it happens before
slot `k+1`, the epoch stays, the plan is the next slot, and a tick that is not
before the others scans exactly when the sensor is eligible and the slot reached. -/
def KeepsEpoch (index : ℕ) (period : ℚ) (engine : Engine Pose) (ops : List (Op Pose)) : Prop :=
  ∀ before start during schedule, ops=before++.tick start::during →
    index∈((engine.run contract before).tick contract start).2 →
    ((engine.run contract before).tick contract start).1.Planned index period schedule →
    schedule.epoch=start → schedule.index=1 →
    ∀ late, late=scans contract index ((engine.run contract before).tick contract start).1 during →
    (∀ (k : ℕ) (time : ℤ), late[k]?=some time → time<start+⌈((k+1+1 : ℕ) : ℚ)*period⌉) →
    (engine.run contract ops).Planned index period
      ⟨start+⌈((late.length+1 : ℕ) : ℚ)*period⌉,start,late.length+1⟩ ∧
    ∀ now, (∀ past∈ticks ops, past≤now) →
      (index∈((engine.run contract ops).tick contract now).2 ↔
        (engine.run contract ops).eligible contract index now=true ∧
          start+⌈((late.length+1 : ℕ) : ℚ)*period⌉≤now)

/-- Once the time has gone back, and while the sensor has not been scanned since,
a tick scans it exactly when it is eligible. -/
def ScansAfterBack (index : ℕ) (engine : Engine Pose) : Prop :=
  ∀ before since now, WentBack before (since++[.tick now]) →
    scans contract index (engine.run contract before) since=[] →
    (index∈((engine.run contract (before++since)).tick contract now).2 ↔
      (engine.run contract (before++since)).eligible contract index now=true)

/-- A sensor of a run is planned. -/
theorem run_planned {index : ℕ} {period : ℚ} {engine : Engine Pose} {schedule : Schedule}
    (hplanned : engine.Planned index period schedule) (hnegative : engine.lastTick<0 → schedule.nextDue<0)
    (ops : List (Op Pose)) : ∃ reached, (engine.run contract ops).Planned index period reached := by
  obtain ⟨reached,hreached,-⟩ := @run_negative Pose contract index period ops engine schedule hplanned hnegative
  exact ⟨reached,hreached⟩

section New

variable {engine : Engine Pose} {index : ℕ} {period : ℚ} {schedule : Schedule}

/-- A run without saturation plans every scan after the one before it. -/
theorem plansAhead (hp : 0<period) (hplanned : engine.Planned index period schedule)
    (hnone : schedule.nextDue<0) {ops : List (Op Pose)}
    (hunsat : Unsaturated contract index engine ops) : PlansAhead contract index period engine ops := by
  intro before now after hops hin
  rw [hops] at hunsat
  obtain ⟨reached,hreached⟩ := run_planned contract hplanned (fun _ => hnone) before
  obtain ⟨-,hafter⟩ := tick_planned contract hreached now
  rw [if_pos hin] at hafter
  have hbelow := unsaturated_planned contract (unsaturated_append contract hunsat) hafter
  exact ⟨_,hafter,advance_after hp hbelow⟩

/-- A run in order without saturation keeps the rate. -/
theorem keepsRate (hp : 0<period) (hplanned : engine.Planned index period schedule)
    (hnone : schedule.nextDue<0) {ops : List (Op Pose)} (hforward : Forward engine ops)
    (hunsat : Unsaturated contract index engine ops) : KeepsRate contract index period engine ops := by
  intro earlier middle later first last hscans
  obtain ⟨planned,hfollows,-⟩ := scans_follow contract hp hplanned (Or.inl hnone) hforward hunsat
  rw [hscans] at hfollows
  exact hfollows.spread

/-- A run in order without saturation keeps its epochs. -/
theorem keepsEpoch (hp : 0<period) (hplanned : engine.Planned index period schedule)
    (hnone : schedule.nextDue<0) {ops : List (Op Pose)} (hforward : Forward engine ops)
    (hunsat : Unsaturated contract index engine ops) : KeepsEpoch contract index period engine ops := by
  intro before start during started hops hin hstarted hepoch hindex late hlate hontime
  have hforwardOps := hforward
  rw [hops] at hforward hunsat
  obtain ⟨reached,hreached⟩ := run_planned contract hplanned (fun _ => hnone) before
  obtain ⟨hscan,hafter⟩ := tick_planned contract hreached start
  have hstart := eligible_nonneg contract (hscan.mp hin).1
  have hunsat' := unsaturated_append contract hunsat
  have hforward' := forward_append contract hforward
  rw [if_pos hin] at hafter
  have hdue := advance_due (unsaturated_planned contract hunsat' hafter)
  have hsame : started=((engine.run contract before).base start reached).advance period start := by
    obtain ⟨sensor,hs,-,hschedule⟩ := hstarted
    obtain ⟨sensor',hs',-,hschedule'⟩ := hafter
    rw [hs] at hs'
    rw [←hschedule,←hschedule',Option.some_inj.mp hs']
  rw [←hsame,hepoch,hindex] at hdue
  have hform : started=⟨slot period start (0+1),start,0+1⟩ := by
    cases started with
    | mk nextDue epoch number =>
      dsimp only at hdue hepoch hindex
      rw [hdue,hepoch,hindex]
  rw [hform] at hstarted
  have hkeeps := run_keeps_epoch contract hp hstart hstarted (forward_step contract hforward') hunsat'.2
    (fun later time hlater => by
      have hbound := hontime later time (by rw [hlate]; exact hlater)
      have hnumber : 0+later+2=later+1+1 := by omega
      rw [hnumber]
      exact hbound)
  rw [←hlate,Nat.zero_add] at hkeeps
  have hrun : engine.run contract ops=
      ((engine.run contract before).tick contract start).1.run contract during := by
    rw [hops,run_append,run_cons]
    rfl
  rw [hrun]
  refine ⟨hkeeps,fun now hnow => ?_⟩
  have hlast : Forward (engine.run contract ops) [.tick now] := by
    have hall : Forward engine (ops++[.tick now]) := by
      unfold Forward Nondecreasing at hforwardOps ⊢
      rw [ticks_append,List.pairwise_append]
      refine ⟨fun hlast later hlater => ?_,hforwardOps.2,List.pairwise_singleton _ _,?_⟩
      · rw [List.mem_append] at hlater
        rcases hlater with hold | hnew
        · exact hforwardOps.1 hlast later hold
        · rw [List.mem_singleton.mp hnew]
          have hpast : start∈ticks ops := by
            rw [hops,ticks_append]
            exact List.mem_append_right _ List.mem_cons_self
          exact (hforwardOps.1 hlast start hpast).trans (hnow start hpast)
      · intro past hpast later hlater
        rw [List.mem_singleton.mp hlater]
        exact hnow past hpast
    exact forward_append contract hall
  rw [hrun] at hlast
  rw [(tick_planned contract hkeeps now).1,forward_base hlast]
  have hopen : (⟨slot period start (late.length+1),start,late.length+1⟩ : Schedule).isOpen now ↔
      slot period start (late.length+1)≤now := by
    have hceil : 0≤⌈((late.length+1 : ℕ) : ℚ)*period⌉ := by positivity
    unfold Schedule.isOpen slot
    dsimp only
    omega
  rw [hopen]
  rfl

end New

/-- Scans keep their rate and do not drift. In every run of a new engine whose
ticks are in order and whose plans stay below the largest time, every scan plans
the next one after itself, `n` consecutive scans take more than `n-2` periods,
and the slots of an epoch are kept. In every run, once the time has gone back,
the first eligible tick scans. -/
theorem scans_keep_rate [Inhabited Pose] {manifest : FleetManifest} {options : EngineOptions}
    {engine : Engine Pose} (hmake : make manifest options=.ok engine) {index : ℕ} {spec : SensorSpec}
    (hspec : manifest.robots[index]?=some spec) {rate : ℚ} (hrate : spec.rateHz=some rate) :
    (0<rate ∧ rate≤100) ∧
    (∀ ops, Nondecreasing ops → Unsaturated contract index engine ops →
      PlansAhead contract index (1000000000/rate) engine ops ∧
      KeepsRate contract index (1000000000/rate) engine ops ∧
      KeepsEpoch contract index (1000000000/rate) engine ops) ∧
    ScansAfterBack contract index engine := by
  obtain ⟨hpos,hle,hlast,hplanned⟩ := make_planned hmake hspec hrate
  have hp : 0<1000000000/rate := by positivity
  have hnone : ({} : Schedule).nextDue<0 := by decide
  refine ⟨⟨hpos,hle⟩,?_,?_⟩
  · intro ops horder hunsat
    have hforward : Forward engine ops := by
      refine ⟨fun hnonneg => ?_,horder⟩
      omega
    exact ⟨plansAhead contract hp hplanned hnone hunsat,
      keepsRate contract hp hplanned hnone hforward hunsat,
      keepsEpoch contract hp hplanned hnone hforward hunsat⟩
  · intro before since now hback hquiet
    exact back_scans contract hplanned (fun _ => hnone) hback hquiet

/-- One sensor at ten scans per second. -/
def lone : FleetManifest :=
  {robots := [{poseTopic := "pose", config := {mode := .raycast}}]}

/-- It before the first tick. -/
def loneSensor : Sensor ℤ :=
  { spec := {poseTopic := "pose", config := {mode := .raycast}}
    period := 1000000000/10
    withBodies := false
    pose := 0 }

/-- Its engine. -/
def loneEngine : Engine ℤ :=
  {bodyRoster := false, bodies := [], sensors := [loneSensor]}

/-- Poses in the world frame that are at most half a second old. -/
def loneContract : Contract ℤ :=
  ⟨fun _ frame world => frame==world,fun age => decide (age≤500000000)⟩

/-- Three ticks of a sensor in demand with a pose and a scene. -/
def loneRun : List (Op ℤ) :=
  [.input (.demand 0 true),.input (.pose 0 5 0 "world"),.scene true,.tick 0,.tick 70000000,.tick 100000000]

/-- The lone sensor has an engine. -/
theorem lone_make : make lone {}=.ok loneEngine := by
  have hsensor : makeSensor lone {} {poseTopic := "pose", config := {mode := .raycast}}=
      .ok loneSensor :=
    makeSensor_accepts lone {} rfl (by norm_num) (by norm_num)
  have htimeout : positive (some (1/2))=true := by
    unfold positive
    norm_num
  unfold make
  rw [htimeout]
  dsimp only [lone] at hsensor ⊢
  rw [List.mapM_cons,hsensor]
  rfl

/-- The rate of a run with two scans. -/
theorem scans_keep_rate_lone :
    scans loneContract 0 loneEngine loneRun=[0,100000000] ∧
    KeepsRate loneContract 0 (1000000000/10) loneEngine loneRun := by
  have hscans := @scans_keep_rate ℤ loneContract _ lone {} loneEngine lone_make 0 _ rfl 10 rfl
  refine ⟨by decide +kernel,(hscans.2.1 loneRun ?_ ?_).2.1⟩
  · unfold Nondecreasing
    decide
  · refine ⟨?_,?_,?_,?_,?_,?_,trivial⟩
    all_goals
      intro sensor h
      cases h
      decide +kernel

end Runs

end Ros1Adapter.LidarSchedule
