import Mathlib.Tactic.Common
import Mathlib.Data.List.Basic
import Mathlib.Logic.Function.Basic
import Ros1Adapter.LidarSchedule

/-!
# What a lidar scan delivers

A scan writes into the buffer of its sensor and remembers the pose and the
generation of the scene; a scan of the same pose and generation delivers the
buffer again. Scenes, saved clouds, GPU maps, failing attempts and the fallback
to the CPU all touch what the buffer stands for. A remembered scan is kept
exactly while no attempt fails over it and no refused cloud leaves a GPU map of
an older one.
-/

namespace Ros1Adapter.LidarScans

open LidarSchedule

section Model

variable {Pose View Scene Cloud Bytes Draw : Type}

/-- Body seen by a scan. -/
structure VehicleBody (Pose : Type) where
  id : ℤ
  pose : Pose
  radius : Option ℚ

/-- What a GPU map is built from. -/
inductive Source (Scene Cloud : Type) where
  | scene (scene : Scene)
  | cloud (cloud : Cloud)

/-- The scan functions. Noise is drawn from `Draw`. -/
structure Library (Pose View Scene Cloud Bytes Draw : Type) where
  /-- World position and orientation of a sensor, as its scan uses them. -/
  worldView : Pose → View
  /-- Component-wise comparison of two views. -/
  same : View → View → Bool
  gpuScan : Source Scene Cloud → SensorConfig → View → Bytes
  mapScan : Cloud → SensorConfig → View → Bytes
  scanInto : Scene → SensorConfig → View → List (VehicleBody Pose) → Draw → Bytes
  /-- The hits of a scan of all beams, as points. -/
  scanBeamsInto : Scene → SensorConfig → View → List (VehicleBody Pose) → Draw → Bytes
  /-- Merge bodies into a scan of a saved cloud, on the GPU's output or the CPU's. -/
  composeBodyCloud : Bool → Cloud → SensorConfig → View → List (VehicleBody Pose) → Bytes → Bytes
  /-- A scene without obstacles. -/
  emptyScene : Scene
  emptyBytes : Bytes

/-- How a computation ends: it throws and leaves its buffer in some state, or not. -/
inductive Outcome (Bytes : Type) where
  | done
  | throws (left : Bytes)

/-- What one scan meets. -/
structure Attempt (Bytes Draw : Type) where
  gpu : Outcome Bytes
  /-- A GPU map is built before the GPU throws. -/
  mapped : Bool
  cpu : Outcome Bytes
  draw : Draw

/-- State of one sensor's scans. -/
structure Scanner (View Scene Bytes : Type) where
  /-- Generation that the sensor is prepared for. -/
  prepared : ℕ := 0
  /-- Scene of the sensor's own lidar. -/
  scene : Scene
  points : Bytes
  fallback : Bool := false
  cacheView : View
  cacheGeneration : ℕ := 0

/-- What the engine gives to a scan. -/
structure Setting (Pose View Scene Cloud : Type) where
  spec : SensorSpec
  withBodies : Bool
  generation : ℕ
  cloud : Option Cloud
  scene : Scene
  view : View
  others : List (VehicleBody Pose)

/-- A scan that depends on scene and pose alone may be reused. -/
def reusable (spec : SensorSpec) (withBodies : Bool) : Bool :=
  !withBodies && !spec.publishBeams && decide (spec.config.noiseStd=0)

/-- The GPU renders this sensor. -/
def supported (spec : SensorSpec) (withBodies : Bool) (cloud : Option Cloud) : Bool :=
  !(decide (spec.config.mode=.depthFrustum) || decide (spec.config.noiseStd≠0) || spec.publishBeams ||
    (withBodies && cloud.isNone))

/-- A new GPU map is built from the cloud, or from the scene. -/
def Setting.source (setting : Setting Pose View Scene Cloud) : Source Scene Cloud :=
  match setting.cloud with
  | some cloud => .cloud cloud
  | none => .scene setting.scene

variable (library : Library Pose View Scene Cloud Bytes Draw)

/-- Bodies are merged into scans of a saved cloud when there are any. -/
def Setting.composed (setting : Setting Pose View Scene Cloud) (gpu : Bool) (bytes : Bytes) : Bytes :=
  match setting.cloud with
  | none => bytes
  | some cloud =>
    if setting.others.isEmpty then bytes
    else library.composeBodyCloud gpu cloud setting.spec.config setting.view setting.others bytes

/-- Output of the GPU with a map. -/
def Setting.gpuBytes (setting : Setting Pose View Scene Cloud) (map : Source Scene Cloud) : Bytes :=
  setting.composed library true (library.gpuScan map setting.spec.config setting.view)

/-- Output of the CPU with the scene of a lidar. -/
def Setting.cpuBytes (setting : Setting Pose View Scene Cloud) (scene : Scene) (draw : Draw) : Bytes :=
  match setting.cloud with
  | some cloud => setting.composed library false (library.mapScan cloud setting.spec.config setting.view)
  | none =>
    if !setting.spec.publishBeams || decide (setting.spec.config.mode=.penetrating) then
      library.scanInto scene setting.spec.config setting.view setting.others draw
    else library.scanBeamsInto scene setting.spec.config setting.view setting.others draw

/-- The sensor is scanned on the GPU. -/
def Scanner.renders (setting : Setting Pose View Scene Cloud) (scanner : Scanner View Scene Bytes) : Bool :=
  setting.spec.backend != "cpu" && !scanner.fallback

/-- The last scan of the current generation is remembered. -/
def Scanner.remembers (setting : Setting Pose View Scene Cloud) (scanner : Scanner View Scene Bytes) :
    Bool :=
  reusable setting.spec setting.withBodies && decide (scanner.cacheGeneration=setting.generation)

/-- Remember the scan that is in the buffer. -/
def Scanner.remember (setting : Setting Pose View Scene Cloud) (scanner : Scanner View Scene Bytes) :
    Scanner View Scene Bytes :=
  if reusable setting.spec setting.withBodies then
    {scanner with cacheView := setting.view, cacheGeneration := setting.generation}
  else scanner

/-- A scanner, the GPU map of its policy, and the points delivered unless the scan throws. -/
structure Scanned (View Scene Cloud Bytes : Type) where
  scanner : Scanner View Scene Bytes
  map : Option (Source Scene Cloud)
  delivered : Option Bytes

/-- A scan on the CPU. -/
def Scanner.scanCpu (setting : Setting Pose View Scene Cloud) (attempt : Attempt Bytes Draw)
    (map : Option (Source Scene Cloud)) (scanner : Scanner View Scene Bytes) :
    Scanned View Scene Cloud Bytes :=
  match attempt.cpu with
  | .throws left => ⟨{scanner with points := left},map,none⟩
  | .done =>
    let bytes := setting.cpuBytes library scanner.scene attempt.draw
    ⟨Scanner.remember setting {scanner with points := bytes},map,some bytes⟩

/-- A scan on the GPU has thrown. -/
def Scanner.rescued (setting : Setting Pose View Scene Cloud) (attempt : Attempt Bytes Draw)
    (map : Option (Source Scene Cloud)) (scanner : Scanner View Scene Bytes) :
    Scanned View Scene Cloud Bytes :=
  if setting.spec.backend != "auto" then ⟨scanner,map,none⟩
  else Scanner.scanCpu library setting attempt map {scanner with fallback := true}

/-- One scan of a sensor. -/
def Scanner.scan (setting : Setting Pose View Scene Cloud) (attempt : Attempt Bytes Draw)
    (map : Option (Source Scene Cloud)) (scanner : Scanner View Scene Bytes) :
    Scanned View Scene Cloud Bytes :=
  if scanner.remembers setting && library.same scanner.cacheView setting.view then
    ⟨scanner,map,some scanner.points⟩
  else if scanner.renders setting then
    if !supported setting.spec setting.withBodies setting.cloud then
      scanner.rescued library setting attempt map
    else
      let built := map.getD setting.source
      match attempt.gpu with
      | .throws left =>
        Scanner.rescued library setting attempt (if attempt.mapped then some built else map)
          {scanner with points := left}
      | .done =>
        let bytes := setting.gpuBytes library built
        ⟨Scanner.remember setting {scanner with points := bytes},some built,some bytes⟩
  else scanner.scanCpu library setting attempt map

/-- What the sensor's scan computation yields: the GPU's output unless the sensor
is on the CPU or has fallen back to it, always from the current scene or cloud. -/
def Setting.wanted (setting : Setting Pose View Scene Cloud) (fallback : Bool) (draw : Draw) : Bytes :=
  if setting.spec.backend != "cpu" && !fallback then setting.gpuBytes library setting.source
  else setting.cpuBytes library setting.scene draw

end Model

section Scans

variable {Pose View Scene Cloud Bytes Draw : Type} {library : Library Pose View Scene Cloud Bytes Draw}
  {setting : Setting Pose View Scene Cloud} {attempt : Attempt Bytes Draw}
  {map : Option (Source Scene Cloud)} {scanner : Scanner View Scene Bytes}

/-- Without noise a scan is a function of scene, configuration and pose. -/
def Library.Noiseless (library : Library Pose View Scene Cloud Bytes Draw) : Prop :=
  ∀ scene config view others first second, config.noiseStd=0 →
    library.scanInto scene config view others first=library.scanInto scene config view others second ∧
    library.scanBeamsInto scene config view others first=library.scanBeamsInto scene config view others second

/-- A remembered scan is still in the buffer, and it is what its pose yields. -/
def Kept (library : Library Pose View Scene Cloud Bytes Draw) (setting : Setting Pose View Scene Cloud)
    (scanner : Scanner View Scene Bytes) : Prop :=
  scanner.remembers setting=true → ∀ draw, scanner.points=
    Setting.wanted library {setting with view := scanner.cacheView, others := []} scanner.fallback draw

/-- The GPU cannot render the sensor, or throws. -/
def gpuFails (setting : Setting Pose View Scene Cloud) (attempt : Attempt Bytes Draw) : Prop :=
  supported setting.spec setting.withBodies setting.cloud=false ∨ ∃ left, attempt.gpu=.throws left

/-- A scan of another pose fails over a remembered one: it changes the buffer, or
the sensor falls back to the CPU and fails there too. -/
def Spoils (library : Library Pose View Scene Cloud Bytes Draw) (setting : Setting Pose View Scene Cloud)
    (attempt : Attempt Bytes Draw) (scanner : Scanner View Scene Bytes) : Prop :=
  scanner.remembers setting=true ∧ library.same scanner.cacheView setting.view=false ∧
    ((scanner.renders setting=true ∧ setting.spec.backend≠"auto" ∧
        supported setting.spec setting.withBodies setting.cloud=true ∧
        ∃ left, attempt.gpu=.throws left ∧ left≠scanner.points) ∨
      (scanner.renders setting=true ∧ setting.spec.backend="auto" ∧ gpuFails setting attempt ∧
        ∃ left, attempt.cpu=.throws left) ∨
      (scanner.renders setting=false ∧ ∃ left, attempt.cpu=.throws left ∧ left≠scanner.points))

/-- The scan does not spoil what is remembered, and a pose that compares equal to
the remembered one is that pose. -/
def Calm (library : Library Pose View Scene Cloud Bytes Draw) (setting : Setting Pose View Scene Cloud)
    (attempt : Attempt Bytes Draw) (scanner : Scanner View Scene Bytes) : Prop :=
  ¬Spoils library setting attempt scanner ∧
  (scanner.remembers setting=true → library.same scanner.cacheView setting.view=true →
    scanner.cacheView=setting.view)

/-- What is known of the scanner before and after a scan. -/
structure Ready (library : Library Pose View Scene Cloud Bytes Draw)
    (setting : Setting Pose View Scene Cloud) (map : Option (Source Scene Cloud))
    (scanner : Scanner View Scene Bytes) : Prop where
  kept : Kept library setting scanner
  map : ∀ source, map=some source → source=setting.source
  scene : scanner.scene=setting.scene
  past : scanner.cacheGeneration ≤ setting.generation

/-- A reusable scan has no noise and no bodies. -/
theorem reusable_parts {spec : SensorSpec} {withBodies : Bool} (h : reusable spec withBodies=true) :
    withBodies=false ∧ spec.config.noiseStd=0 := by
  unfold reusable at h
  simp only [Bool.and_eq_true,Bool.not_eq_true',decide_eq_true_eq] at h
  exact ⟨h.1.1,h.2⟩

/-- Only reusable scans are remembered. -/
theorem remembers_reusable (h : scanner.remembers setting=true) :
    reusable setting.spec setting.withBodies=true := by
  unfold Scanner.remembers at h
  rw [Bool.and_eq_true] at h
  exact h.1

/-- What a reusable scan yields does not depend on the draw. -/
theorem wanted_draw (hnoise : library.Noiseless) (hreusable : reusable setting.spec setting.withBodies=true)
    (fallback : Bool) (first second : Draw) :
    setting.wanted library fallback first=setting.wanted library fallback second := by
  obtain ⟨-,hzero⟩ := reusable_parts hreusable
  unfold Setting.wanted
  split
  · rfl
  · unfold Setting.cpuBytes
    split
    · rfl
    · split
      · exact (hnoise _ _ _ _ first second hzero).1
      · exact (hnoise _ _ _ _ first second hzero).2

/-- On the CPU the scan yields the CPU's output. -/
theorem wanted_cpu (hrenders : scanner.renders setting=false) (draw : Draw) :
    setting.wanted library scanner.fallback draw=setting.cpuBytes library setting.scene draw := by
  unfold Scanner.renders at hrenders
  unfold Setting.wanted
  rw [hrenders]
  exact if_neg Bool.false_ne_true

/-- On the GPU the scan yields the GPU's output. -/
theorem wanted_gpu (hrenders : scanner.renders setting=true) (draw : Draw) :
    setting.wanted library scanner.fallback draw=setting.gpuBytes library setting.source := by
  unfold Scanner.renders at hrenders
  unfold Setting.wanted
  rw [hrenders]
  exact if_pos rfl

/-- A scan that may not be reused is not remembered. -/
theorem kept_unreusable (h : reusable setting.spec setting.withBodies=false) : Kept library setting scanner := by
  intro hremembers
  rw [remembers_reusable hremembers] at h
  exact absurd h.symm Bool.false_ne_true

/-- A scan that yields what is wanted may be remembered. -/
theorem remember_ready (hnoise : library.Noiseless) {bytes : Bytes} {draw : Draw}
    (hothers : setting.withBodies=false → setting.others=[])
    (hmap : ∀ source, map=some source → source=setting.source) (hscene : scanner.scene=setting.scene)
    (hpast : scanner.cacheGeneration ≤ setting.generation)
    (hbytes : bytes=setting.wanted library scanner.fallback draw) :
    Ready library setting map (Scanner.remember setting {scanner with points := bytes}) := by
  unfold Scanner.remember
  by_cases hreusable : reusable setting.spec setting.withBodies=true
  · rw [if_pos hreusable]
    refine ⟨fun _ other => ?_,hmap,hscene,Nat.le_refl _⟩
    obtain ⟨hbodies,-⟩ := reusable_parts hreusable
    have hsame : ({setting with view := setting.view, others := []} : Setting Pose View Scene Cloud)=setting := by
      cases setting with
      | mk spec withBodies generation cloud scene view others =>
        dsimp only at hothers hbodies ⊢
        rw [hothers hbodies]
    dsimp only
    rw [hsame,hbytes]
    exact wanted_draw hnoise hreusable _ _ _
  · rw [if_neg hreusable]
    rw [Bool.not_eq_true] at hreusable
    exact ⟨kept_unreusable hreusable,hmap,hscene,hpast⟩

/-- Remembering changes neither buffer, fallback nor the scene. -/
theorem remember_fields (setting : Setting Pose View Scene Cloud) (scanner : Scanner View Scene Bytes) :
    (Scanner.remember setting scanner).fallback=scanner.fallback ∧
    (Scanner.remember setting scanner).prepared=scanner.prepared := by
  unfold Scanner.remember
  split
  · exact ⟨rfl,rfl⟩
  · exact ⟨rfl,rfl⟩

/-- What is known after a scan: the scanner is ready again, prepared as before,
and the points that were delivered are those that the scan yields. -/
structure Good (library : Library Pose View Scene Cloud Bytes Draw)
    (setting : Setting Pose View Scene Cloud) (attempt : Attempt Bytes Draw) (prepared : ℕ)
    (scanned : Scanned View Scene Cloud Bytes) : Prop where
  ready : Ready library setting scanned.map scanned.scanner
  prepared : scanned.scanner.prepared=prepared
  exact : ∀ bytes, scanned.delivered=some bytes →
    bytes=setting.wanted library scanned.scanner.fallback attempt.draw

/-- A scan on the CPU is good when its failure would keep what is remembered. -/
theorem scanCpu_good (hnoise : library.Noiseless) (hothers : setting.withBodies=false → setting.others=[])
    (hmap : ∀ source, map=some source → source=setting.source) (hscene : scanner.scene=setting.scene)
    (hpast : scanner.cacheGeneration ≤ setting.generation) (hrenders : scanner.renders setting=false)
    (hfail : ∀ left, attempt.cpu=.throws left → Kept library setting {scanner with points := left}) :
    Good library setting attempt scanner.prepared (scanner.scanCpu library setting attempt map) := by
  unfold Scanner.scanCpu
  cases hcpu : attempt.cpu with
  | throws left =>
    dsimp only
    refine ⟨⟨hfail left hcpu,hmap,hscene,hpast⟩,rfl,fun bytes hbytes => ?_⟩
    exact absurd hbytes (by simp only [reduceCtorEq,not_false_eq_true])
  | done =>
    dsimp only
    have hbytes : setting.cpuBytes library scanner.scene attempt.draw=
        setting.wanted library scanner.fallback attempt.draw := by
      rw [wanted_cpu hrenders,hscene]
    obtain ⟨hfallback,hprepared⟩ := remember_fields setting
      {scanner with points := setting.cpuBytes library scanner.scene attempt.draw}
    refine ⟨remember_ready hnoise hothers hmap hscene hpast hbytes,hprepared,fun bytes hdelivered => ?_⟩
    rw [←Option.some_inj.mp hdelivered,hfallback]
    exact hbytes

/-- After a failure of the GPU the scan is good when nothing is remembered, or
the scan throws with the buffer as it was. -/
theorem rescued_good (hnoise : library.Noiseless) (hothers : setting.withBodies=false → setting.others=[])
    (hmap : ∀ source, map=some source → source=setting.source) (hscene : scanner.scene=setting.scene)
    (hpast : scanner.cacheGeneration ≤ setting.generation)
    (hthrown : setting.spec.backend≠"auto" → Kept library setting scanner)
    (hfail : setting.spec.backend="auto" → ∀ left, attempt.cpu=.throws left →
      scanner.remembers setting=false) :
    Good library setting attempt scanner.prepared (scanner.rescued library setting attempt map) := by
  unfold Scanner.rescued
  by_cases hauto : setting.spec.backend="auto"
  · have hcond : ¬(setting.spec.backend != "auto")=true := by
      rw [hauto]
      decide
    rw [if_neg hcond]
    refine @scanCpu_good _ _ _ _ _ _ library setting attempt map {scanner with fallback := true}
      hnoise hothers hmap hscene hpast ?_ ?_
    · unfold Scanner.renders
      dsimp only
      rw [Bool.not_true,Bool.and_false]
    · intro left hleft hremembers
      have hnot : scanner.remembers setting=false := hfail hauto left hleft
      have hsame : scanner.remembers setting=true := hremembers
      rw [hnot] at hsame
      exact absurd hsame Bool.false_ne_true
  · have hcond : (setting.spec.backend != "auto")=true := bne_iff_ne.mpr hauto
    rw [if_pos hcond]
    refine ⟨⟨hthrown hauto,hmap,hscene,hpast⟩,rfl,fun bytes hbytes => ?_⟩
    exact absurd hbytes (by simp only [reduceCtorEq,not_false_eq_true])

/-- The map of a policy after a scan stands for what it was built from. -/
theorem built_source (hmap : ∀ source, map=some source → source=setting.source) :
    map.getD setting.source=setting.source := by
  cases map with
  | none => rfl
  | some source => exact hmap source rfl

/-- A calm scan is good. -/
theorem scan_good (hnoise : library.Noiseless) (hothers : setting.withBodies=false → setting.others=[])
    (hready : Ready library setting map scanner) (hcalm : Calm library setting attempt scanner) :
    Good library setting attempt scanner.prepared (scanner.scan library setting attempt map) := by
  obtain ⟨hkept,hmap,hscene,hpast⟩ := hready
  obtain ⟨hspoils,hsame⟩ := hcalm
  unfold Scanner.scan
  by_cases hreuse : (scanner.remembers setting && library.same scanner.cacheView setting.view)=true
  · rw [if_pos hreuse]
    rw [Bool.and_eq_true] at hreuse
    refine ⟨⟨hkept,hmap,hscene,hpast⟩,rfl,fun bytes hbytes => ?_⟩
    have hview := hsame hreuse.1 hreuse.2
    obtain ⟨hbodies,-⟩ := reusable_parts (remembers_reusable hreuse.1)
    have hsetting : ({setting with view := scanner.cacheView, others := []} :
        Setting Pose View Scene Cloud)=setting := by
      cases setting with
      | mk spec withBodies generation cloud scene view others =>
        dsimp only at hothers hbodies hview ⊢
        rw [hothers hbodies,hview]
    have hpoints := hkept hreuse.1 attempt.draw
    rw [hsetting] at hpoints
    rw [←Option.some_inj.mp hbytes]
    exact hpoints
  · rw [if_neg hreuse]
    have hother : scanner.remembers setting=true → library.same scanner.cacheView setting.view=false := by
      intro hremembers
      rw [hremembers,Bool.true_and,Bool.not_eq_true] at hreuse
      exact hreuse
    cases hrenders : scanner.renders setting with
    | false =>
      rw [if_neg Bool.false_ne_true]
      refine scanCpu_good hnoise hothers hmap hscene hpast hrenders fun left hleft hremembers => ?_
      have hpoints : left=scanner.points := by
        by_contra hne
        exact hspoils ⟨hremembers,hother hremembers,Or.inr (Or.inr ⟨hrenders,left,hleft,hne⟩)⟩
      rw [hpoints]
      exact hkept hremembers
    | true =>
      rw [if_pos rfl]
      have hauto : gpuFails setting attempt → setting.spec.backend="auto" →
          ∀ left, attempt.cpu=.throws left → scanner.remembers setting=false := by
        intro hfails hbackend left hleft
        by_contra hremembers
        rw [Bool.not_eq_false] at hremembers
        exact hspoils ⟨hremembers,hother hremembers,Or.inr (Or.inl ⟨hrenders,hbackend,hfails,left,hleft⟩)⟩
      cases hsupported : supported setting.spec setting.withBodies setting.cloud with
      | false =>
        rw [Bool.not_false,if_pos rfl]
        exact rescued_good hnoise hothers hmap hscene hpast (fun _ => hkept) (hauto (Or.inl hsupported))
      | true =>
        rw [Bool.not_true,if_neg Bool.false_ne_true]
        have hbuilt := built_source hmap
        dsimp only
        rw [hbuilt]
        cases hgpu : attempt.gpu with
        | throws left =>
          dsimp only
          refine @rescued_good _ _ _ _ _ _ library setting attempt _ {scanner with points := left}
            hnoise hothers ?_ hscene hpast ?_ ?_
          · intro source hsource
            split at hsource
            · exact (Option.some_inj.mp hsource).symm
            · exact hmap source hsource
          · intro hbackend hremembers
            have hlive : scanner.remembers setting=true := hremembers
            have hpoints : left=scanner.points := by
              by_contra hne
              exact hspoils ⟨hlive,hother hlive,Or.inl ⟨hrenders,hbackend,hsupported,left,hgpu,hne⟩⟩
            rw [hpoints]
            exact hkept hlive
          · exact hauto (Or.inr ⟨left,hgpu⟩)
        | done =>
          dsimp only
          have hbytes : setting.gpuBytes library setting.source=
              setting.wanted library scanner.fallback attempt.draw := (wanted_gpu hrenders attempt.draw).symm
          obtain ⟨hfallback,hprepared⟩ := remember_fields setting
            {scanner with points := setting.gpuBytes library setting.source}
          refine ⟨remember_ready hnoise hothers ?_ hscene hpast hbytes,hprepared,fun bytes hdelivered => ?_⟩
          · intro source hsource
            exact (Option.some_inj.mp hsource).symm
          · rw [←Option.some_inj.mp hdelivered,hfallback]
            exact hbytes

end Scans

section Engines

variable {Pose View Scene Cloud Bytes Draw : Type}

/-- Samples of a policy are shared by the sensors that have it. -/
def policy (config : SensorConfig) : ℚ × Bool := (config.surfaceSpacing,config.penetratingKeepBuried)

/-- An engine with its scene, its saved cloud, its GPU maps and its scanners. -/
structure Engine (Pose View Scene Cloud Bytes : Type) where
  control : LidarSchedule.Engine Pose
  options : EngineOptions
  revision : ℕ := 0
  haveRevision : Bool := false
  scene : Scene
  cloud : Option Cloud := none
  /-- Scenes that have been installed. -/
  generation : ℕ := 0
  /-- Sensors that are not prepared for the scene. -/
  pending : ℕ := 0
  maps : ℚ × Bool → Option (Source Scene Cloud) := fun _ => none
  scanners : List (Scanner View Scene Bytes)

variable (library : Library Pose View Scene Cloud Bytes Draw) (contract : Contract Pose)

/-- An engine before its first scene. -/
def make [Inhabited Pose] [Inhabited View] (manifest : FleetManifest) (options : EngineOptions) :
    Except String (Engine Pose View Scene Cloud Bytes) :=
  (LidarSchedule.make manifest options).map fun control => {
    control := control
    options := options
    scene := library.emptyScene
    scanners := control.sensors.map fun _ =>
      {scene := library.emptyScene, points := library.emptyBytes, cacheView := default} }

/-- Bodies of the roster with fresh poses; the list ends where truth is missing. -/
def rosterSnapshot (pointMap : Bool) (now : ℤ) : List (Body Pose) → List (VehicleBody Pose)
  | [] => []
  | body::rest =>
    if pointMap && !body.spec.bodyReturns then rosterSnapshot pointMap now rest
    else if !body.valid || !fresh contract body.stamp now then
      if pointMap then rosterSnapshot pointMap now rest else []
    else ⟨body.spec.id,body.pose,some body.spec.radius⟩::rosterSnapshot pointMap now rest

/-- Bodies that a tick shows to its scans. -/
def Engine.bodySnapshot (engine : Engine Pose View Scene Cloud Bytes) (now : ℤ) :
    List (VehicleBody Pose) :=
  if engine.control.bodyRoster then
    rosterSnapshot contract engine.cloud.isSome now engine.control.bodies
  else if engine.cloud.isNone && engine.options.vehicleBodies then
    (engine.control.sensors.filter fun sensor =>
      sensor.poseValid && fresh contract sensor.stamp now).map fun sensor =>
        ⟨sensor.spec.bodyId,sensor.pose,engine.options.vehicleBodyRadius⟩
  else []

/-- What the engine gives to the scan of a sensor. -/
def Engine.setting (engine : Engine Pose View Scene Cloud Bytes) (snapshot : List (VehicleBody Pose))
    (sensor : Sensor Pose) : Setting Pose View Scene Cloud :=
  { spec := sensor.spec
    withBodies := sensor.withBodies
    generation := engine.generation
    cloud := engine.cloud
    scene := engine.scene
    view := library.worldView sensor.pose
    others := if sensor.withBodies then snapshot.filter fun body => body.id != sensor.spec.bodyId
      else [] }

/-- A delivery with the engine as it is then. -/
structure Report (Pose View Scene Cloud Bytes Draw : Type) where
  engine : Engine Pose View Scene Cloud Bytes
  snapshot : List (VehicleBody Pose)
  draw : Draw
  sensor : ℕ
  points : Bytes
  stamp : ℤ
  revision : ℕ

/-- Scan one sensor; none when the scan throws. -/
def Engine.scanSensor (engine : Engine Pose View Scene Cloud Bytes) (snapshot : List (VehicleBody Pose))
    (attempt : Attempt Bytes Draw) (index : ℕ) :
    Engine Pose View Scene Cloud Bytes × Option (Report Pose View Scene Cloud Bytes Draw) :=
  match engine.control.sensors[index]?, engine.scanners[index]? with
  | some sensor, some scanner =>
    let key := policy sensor.spec.config
    let scanned := scanner.scan library (engine.setting library snapshot sensor) attempt (engine.maps key)
    let after := {engine with
      scanners := engine.scanners.set index scanned.scanner
      maps := Function.update engine.maps key scanned.map }
    (after,scanned.delivered.map fun points =>
      ⟨after,snapshot,attempt.draw,index,points,sensor.stamp,engine.revision⟩)
  | _, _ => (engine,none)

/-- Scan sensors one after the other. The thread of the GPU gives up at the first
that throws; those of the CPU do not. -/
def Engine.scanAll (stops : Bool) (snapshot : List (VehicleBody Pose)) (attempts : ℕ → Attempt Bytes Draw) :
    Engine Pose View Scene Cloud Bytes → List ℕ →
    Engine Pose View Scene Cloud Bytes × List (Report Pose View Scene Cloud Bytes Draw)
  | engine, [] => (engine,[])
  | engine, index::rest =>
    let scanned := engine.scanSensor library snapshot (attempts index) index
    match scanned.2 with
    | none => if stops then (scanned.1,[]) else Engine.scanAll stops snapshot attempts scanned.1 rest
    | some report =>
      let later := Engine.scanAll stops snapshot attempts scanned.1 rest
      (later.1,report::later.2)

/-- Give the scene to a sensor's lidar. -/
def Engine.prepare (engine : Engine Pose View Scene Cloud Bytes) (index : ℕ) :
    Engine Pose View Scene Cloud Bytes :=
  match engine.scanners[index]? with
  | none => engine
  | some scanner =>
    if scanner.prepared=engine.generation then engine
    else {engine with
      scanners := engine.scanners.set index {scanner with
        scene := engine.scene
        prepared := engine.generation }
      pending := engine.pending-1 }

/-- The sensor starts the tick on the GPU. -/
def Engine.onGpu (engine : Engine Pose View Scene Cloud Bytes) (index : ℕ) : Bool :=
  match engine.control.sensors[index]?, engine.scanners[index]? with
  | some sensor, some scanner => sensor.spec.backend != "cpu" && !scanner.fallback
  | _, _ => false

/-- The engine after the control part of a tick and the preparation of its sensors. -/
def Engine.prepared (engine : Engine Pose View Scene Cloud Bytes) (now : ℤ) :
    Engine Pose View Scene Cloud Bytes :=
  let ticked := engine.control.tick contract now
  let started := {engine with control := ticked.1}
  if started.pending≠0 then ticked.2.foldl Engine.prepare started else started

/-- Sensors of a tick on the GPU, or on the CPU. -/
def Engine.active (engine : Engine Pose View Scene Cloud Bytes) (now : ℤ) (gpu : Bool) : List ℕ :=
  (engine.control.tick contract now).2.filter fun index => (engine.prepared contract now).onGpu index==gpu

/-- One tick: GPU sensors on the caller's thread and CPU sensors on the workers. -/
def Engine.tick (engine : Engine Pose View Scene Cloud Bytes) (now : ℤ)
    (attempts : ℕ → Attempt Bytes Draw) :
    Engine Pose View Scene Cloud Bytes × List (Report Pose View Scene Cloud Bytes Draw) :=
  let snapshot := engine.bodySnapshot contract now
  let gpu := Engine.scanAll library true snapshot attempts (engine.prepared contract now)
    (engine.active contract now true)
  let cpu := Engine.scanAll library false snapshot attempts gpu.1 (engine.active contract now false)
  (cpu.1,gpu.2++cpu.2)

/-- A revision is not accepted: it is older than the last one, or installed already. -/
def Engine.refuses (engine : Engine Pose View Scene Cloud Bytes) (revision : ℕ) : Bool :=
  (engine.control.ready && revision==engine.revision) ||
    (engine.haveRevision && decide (revision<engine.revision))

/-- Withdraw the scene, unless the revision is older than the last one. -/
def Engine.invalidateScene (engine : Engine Pose View Scene Cloud Bytes) (revision : ℕ) :
    Engine Pose View Scene Cloud Bytes :=
  if engine.haveRevision && decide (revision<engine.revision) then engine
  else {engine with
    revision := revision
    haveRevision := true
    control := {engine.control with ready := false} }

/-- Install a scene; a refused revision changes nothing. Compiling may throw. -/
def Engine.setScene (engine : Engine Pose View Scene Cloud Bytes) (obstacles : Scene) (revision : ℕ)
    (compiles : Bool) : Engine Pose View Scene Cloud Bytes :=
  if engine.refuses revision then engine
  else
    let waiting := {engine.invalidateScene revision with maps := fun _ => none}
    if compiles then {waiting with
      scene := if waiting.cloud.isSome then library.emptyScene else obstacles
      control := {waiting.control with ready := true}
      generation := waiting.generation+1
      pending := waiting.scanners.length }
    else waiting

/-- Install a saved cloud, or none when its bytes are refused. The cloud is kept
even when the revision is refused. -/
def Engine.setPointCloud (engine : Engine Pose View Scene Cloud Bytes) (cloud : Option Cloud)
    (revision : ℕ) (compiles : Bool) : Engine Pose View Scene Cloud Bytes :=
  match cloud with
  | none => engine
  | some cloud =>
    Engine.setScene library {engine with
      cloud := some cloud
      control := engine.control.setPointCloud engine.control.ready
      scanners := engine.scanners.map fun scanner => {scanner with cacheGeneration := 0} }
      library.emptyScene revision compiles

/-- Calls of an engine. -/
inductive Op (Pose Scene Cloud Bytes Draw : Type) where
  | input (input : Input Pose)
  | setScene (obstacles : Scene) (revision : ℕ) (compiles : Bool)
  | invalidateScene (revision : ℕ)
  | setPointCloud (cloud : Option Cloud) (revision : ℕ) (compiles : Bool)
  | tick (now : ℤ) (attempts : ℕ → Attempt Bytes Draw)

/-- One call, and what it delivers. -/
def Engine.step (engine : Engine Pose View Scene Cloud Bytes) :
    Op Pose Scene Cloud Bytes Draw →
    Engine Pose View Scene Cloud Bytes × List (Report Pose View Scene Cloud Bytes Draw)
  | .input input => ({engine with control := engine.control.accept contract input},[])
  | .setScene obstacles revision compiles => (engine.setScene library obstacles revision compiles,[])
  | .invalidateScene revision => (engine.invalidateScene revision,[])
  | .setPointCloud cloud revision compiles => (engine.setPointCloud library cloud revision compiles,[])
  | .tick now attempts => engine.tick library contract now attempts

end Engines

section Invariant

variable {Pose View Scene Cloud Bytes Draw : Type}
  (library : Library Pose View Scene Cloud Bytes Draw) (contract : Contract Pose)

/-- What new GPU maps are built from. -/
def Engine.source (engine : Engine Pose View Scene Cloud Bytes) : Source Scene Cloud :=
  match engine.cloud with
  | some cloud => .cloud cloud
  | none => .scene engine.scene

/-- Everything but the GPU maps: scanners belong to sensors, those that are
prepared have the scene, the others are counted, and remembered scans are kept. -/
structure Core (engine : Engine Pose View Scene Cloud Bytes) : Prop where
  length : engine.scanners.length=engine.control.sensors.length
  positive : engine.control.ready=true → 0<engine.generation
  past : ∀ (index : ℕ) (scanner : Scanner View Scene Bytes), engine.scanners[index]?=some scanner →
    scanner.prepared≤engine.generation ∧ scanner.cacheGeneration≤engine.generation
  scene : ∀ (index : ℕ) (scanner : Scanner View Scene Bytes), engine.scanners[index]?=some scanner →
    scanner.prepared=engine.generation → scanner.scene=engine.scene
  pending : engine.pending=
    (engine.scanners.map Scanner.prepared).countP fun prepared => decide (prepared≠engine.generation)
  kept : ∀ (index : ℕ) (sensor : Sensor Pose) (scanner : Scanner View Scene Bytes),
    engine.control.sensors[index]?=some sensor → engine.scanners[index]?=some scanner →
    0<engine.generation → Kept library (engine.setting library [] sensor) scanner

/-- While a scene is installed, GPU maps are built from it or from the cloud. -/
def Current (engine : Engine Pose View Scene Cloud Bytes) : Prop :=
  engine.control.ready=true → ∀ key source, engine.maps key=some source → source=engine.source

/-- A report delivers what the scan computation of its sensor yields. -/
def Exact (report : Report Pose View Scene Cloud Bytes Draw) : Prop :=
  ∃ sensor scanner, report.engine.control.sensors[report.sensor]?=some sensor ∧
    report.engine.scanners[report.sensor]?=some scanner ∧
    report.points=Setting.wanted library (report.engine.setting library report.snapshot sensor)
      scanner.fallback report.draw

/-- Sensors are the same up to what they are told. -/
def SameSensors (before after : LidarSchedule.Engine Pose) : Prop :=
  after.ready=before.ready ∧ after.sensors.length=before.sensors.length ∧
  ∀ (index : ℕ) (moved : Sensor Pose), after.sensors[index]?=some moved →
    ∃ sensor, before.sensors[index]?=some sensor ∧ moved.spec=sensor.spec ∧
      moved.withBodies=sensor.withBodies

/-- Telling the sensors something keeps the invariant. -/
theorem core_control {engine : Engine Pose View Scene Cloud Bytes} (h : Core library engine)
    {control : LidarSchedule.Engine Pose} (hsame : SameSensors engine.control control) :
    Core library {engine with control := control} := by
  obtain ⟨hready,hlength,hsensors⟩ := hsame
  refine ⟨h.length.trans hlength.symm,?_,h.past,h.scene,h.pending,?_⟩
  · dsimp only
    rw [hready]
    exact h.positive
  · intro index moved scanner hmoved hscanner hpos
    obtain ⟨sensor,hsensor,hspec,hbodies⟩ := hsensors index moved hmoved
    have hkept := h.kept index sensor scanner hsensor hscanner hpos
    unfold Kept Scanner.remembers Engine.setting at hkept ⊢
    dsimp only at hkept ⊢
    rw [hspec,hbodies]
    exact hkept

/-- One item of a list that is counted, replaced by one that is not. -/
theorem countP_replaced {α : Type} {counts : α → Bool} {items : List α} :
    ∀ {index : ℕ} {old new : α}, items[index]?=some old → counts old=true → counts new=false →
      (items.set index new).countP counts+1=items.countP counts := by
  induction items with
  | nil =>
    intro index old new hold
    exact absurd hold (by simp only [List.getElem?_nil,reduceCtorEq,not_false_eq_true])
  | cons head rest ih =>
    intro index old new hold hcounts hnew
    cases index with
    | zero =>
      have hhead : head=old := Option.some_inj.mp hold
      rw [List.set_cons_zero,List.countP_cons,List.countP_cons,hhead,if_pos hcounts,hnew,
        if_neg Bool.false_ne_true]
    | succ index =>
      have hrest := ih hold hcounts hnew
      rw [List.set_cons_succ,List.countP_cons,List.countP_cons]
      omega

/-- Looking up a list with one item replaced. -/
theorem set_lookup {α : Type} {items : List α} {index other : ℕ} {old new found : α}
    (hold : items[index]?=some old) (hfound : (items.set index new)[other]?=some found) :
    (other=index ∧ found=new) ∨ (other≠index ∧ items[other]?=some found) := by
  obtain ⟨hlt,-⟩ := List.getElem?_eq_some_iff.mp hold
  by_cases hsame : index=other
  · left
    rw [←hsame,List.getElem?_set_self hlt] at hfound
    exact ⟨hsame.symm,(Option.some_inj.mp hfound).symm⟩
  · right
    rw [List.getElem?_set_ne hsame] at hfound
    exact ⟨Ne.symm hsame,hfound⟩

/-- A scanner in another state, with the same counts. -/
theorem core_scanner {engine : Engine Pose View Scene Cloud Bytes} (h : Core library engine)
    {index : ℕ} {sensor : Sensor Pose} {scanner moved : Scanner View Scene Bytes}
    (hsensor : engine.control.sensors[index]?=some sensor) (hscanner : engine.scanners[index]?=some scanner)
    (hpast : moved.prepared≤engine.generation ∧ moved.cacheGeneration≤engine.generation)
    (hscene : moved.prepared=engine.generation → moved.scene=engine.scene)
    (hkept : 0<engine.generation → Kept library (engine.setting library [] sensor) moved)
    {pending : ℕ} (hpending : pending=((engine.scanners.map Scanner.prepared).set index moved.prepared).countP
      fun prepared => decide (prepared≠engine.generation))
    (maps : ℚ × Bool → Option (Source Scene Cloud)) :
    Core library {engine with
      scanners := engine.scanners.set index moved
      pending := pending
      maps := maps } := by
  refine ⟨?_,h.positive,?_,?_,?_,?_⟩
  · dsimp only
    rw [List.length_set]
    exact h.length
  · intro other found hfound
    rcases set_lookup hscanner hfound with ⟨-,hnew⟩ | ⟨-,hold⟩
    · rw [hnew]
      exact hpast
    · exact h.past other found hold
  · intro other found hfound hprepared
    rcases set_lookup hscanner hfound with ⟨-,hnew⟩ | ⟨-,hold⟩
    · rw [hnew] at hprepared ⊢
      exact hscene hprepared
    · exact h.scene other found hold hprepared
  · dsimp only
    rw [List.map_set]
    exact hpending
  · intro other found scanned hfound hscanned hpos
    rcases set_lookup hscanner hscanned with ⟨hsame,hnew⟩ | ⟨-,hold⟩
    · rw [hsame,hsensor] at hfound
      rw [hnew,←Option.some_inj.mp hfound]
      exact hkept hpos
    · exact h.kept other found scanned hfound hold hpos

/-- A prepared sensor has the scene of the engine, and every other one keeps its scanner. -/
theorem prepare_core {engine : Engine Pose View Scene Cloud Bytes} (h : Core library engine) (index : ℕ) :
    Core library (engine.prepare index) ∧ (engine.prepare index).control=engine.control ∧
    (engine.prepare index).maps=engine.maps ∧ (engine.prepare index).cloud=engine.cloud ∧
    (engine.prepare index).scene=engine.scene ∧ (engine.prepare index).generation=engine.generation ∧
    ∀ (other : ℕ) (scanner : Scanner View Scene Bytes), (engine.prepare index).scanners[other]?=some scanner →
      scanner.prepared=engine.generation ∨ (other≠index ∧ engine.scanners[other]?=some scanner) := by
  unfold Engine.prepare
  cases hscanner : engine.scanners[index]? with
  | none =>
    refine ⟨h,rfl,rfl,rfl,rfl,rfl,fun other scanner hother => Or.inr ⟨?_,hother⟩⟩
    intro hsame
    rw [hsame,hscanner] at hother
    exact absurd hother (by simp only [reduceCtorEq,not_false_eq_true])
  | some scanner =>
    dsimp only
    by_cases hprepared : scanner.prepared=engine.generation
    · rw [if_pos hprepared]
      refine ⟨h,rfl,rfl,rfl,rfl,rfl,fun other found hother => ?_⟩
      by_cases hsame : other=index
      · left
        rw [hsame,hscanner] at hother
        rw [←Option.some_inj.mp hother]
        exact hprepared
      · exact Or.inr ⟨hsame,hother⟩
    · rw [if_neg hprepared]
      have hlt : index<engine.control.sensors.length := by
        rw [←h.length]
        exact (List.getElem?_eq_some_iff.mp hscanner).1
      have hsensor := List.getElem?_eq_getElem hlt
      have hcount : (engine.scanners.map Scanner.prepared)[index]?=some scanner.prepared := by
        rw [List.getElem?_map,hscanner]
        rfl
      have hreplaced := @countP_replaced ℕ (fun prepared => decide (prepared≠engine.generation)) _ index
        scanner.prepared engine.generation hcount (decide_eq_true hprepared)
        (decide_eq_false (not_not.mpr rfl))
      have hpending := h.pending
      refine ⟨core_scanner library h hsensor hscanner ?_ ?_ ?_ ?_ engine.maps,
        rfl,rfl,rfl,rfl,rfl,fun other found hother => ?_⟩
      · exact ⟨Nat.le_refl _,(h.past index scanner hscanner).2⟩
      · exact fun _ => rfl
      · exact h.kept index _ scanner hsensor hscanner
      · dsimp only at hreplaced ⊢
        omega
      · rcases set_lookup hscanner hother with ⟨-,hnew⟩ | ⟨hne,hold⟩
        · left
          rw [hnew]
        · exact Or.inr ⟨hne,hold⟩

/-- Preparing sensors prepares those of the list and keeps the rest of the engine. -/
theorem prepare_all {indices : List ℕ} :
    ∀ {engine : Engine Pose View Scene Cloud Bytes}, Core library engine →
      Core library (indices.foldl Engine.prepare engine) ∧
      (indices.foldl Engine.prepare engine).control=engine.control ∧
      (indices.foldl Engine.prepare engine).maps=engine.maps ∧
      (indices.foldl Engine.prepare engine).cloud=engine.cloud ∧
      (indices.foldl Engine.prepare engine).scene=engine.scene ∧
      (indices.foldl Engine.prepare engine).generation=engine.generation ∧
      ∀ (other : ℕ) (scanner : Scanner View Scene Bytes),
        (indices.foldl Engine.prepare engine).scanners[other]?=some scanner →
        scanner.prepared=engine.generation ∨ (other∉indices ∧ engine.scanners[other]?=some scanner) := by
  induction indices with
  | nil =>
    intro engine h
    exact ⟨h,rfl,rfl,rfl,rfl,rfl,fun other scanner hother => Or.inr ⟨List.not_mem_nil,hother⟩⟩
  | cons index rest ih =>
    intro engine h
    obtain ⟨hcore,hcontrol,hmaps,hcloud,hscene,hgeneration,hscanners⟩ := prepare_core library h index
    obtain ⟨hcore',hcontrol',hmaps',hcloud',hscene',hgeneration',hscanners'⟩ := ih hcore
    refine ⟨hcore',hcontrol'.trans hcontrol,hmaps'.trans hmaps,hcloud'.trans hcloud,hscene'.trans hscene,
      hgeneration'.trans hgeneration,fun other scanner hother => ?_⟩
    rcases hscanners' other scanner hother with hprepared | ⟨hout,hold⟩
    · left
      rw [hprepared,hgeneration]
    · rcases hscanners other scanner hold with hprepared | ⟨hne,hbefore⟩
      · exact Or.inl hprepared
      · refine Or.inr ⟨?_,hbefore⟩
        rw [List.mem_cons,not_or]
        exact ⟨hne,hout⟩

/-- Scans change scanners and GPU maps alone. -/
structure Frame (before after : Engine Pose View Scene Cloud Bytes) : Prop where
  control : after.control=before.control
  cloud : after.cloud=before.cloud
  scene : after.scene=before.scene
  generation : after.generation=before.generation

/-- The engine gives the same to a scan. -/
theorem Frame.setting {before after : Engine Pose View Scene Cloud Bytes} (h : Frame before after)
    (snapshot : List (VehicleBody Pose)) (sensor : Sensor Pose) :
    after.setting library snapshot sensor=before.setting library snapshot sensor := by
  unfold Engine.setting
  rw [h.cloud,h.scene,h.generation]

/-- What holds of the engine before and after a scan of `indices`. -/
structure Scanning (engine : Engine Pose View Scene Cloud Bytes) (indices : List ℕ) : Prop where
  core : Core library engine
  current : Current engine
  ready : engine.control.ready=true
  prepared : ∀ index∈indices, ∀ scanner : Scanner View Scene Bytes,
    engine.scanners[index]?=some scanner → scanner.prepared=engine.generation

/-- A calm scan of one sensor delivers what is wanted and keeps the other sensors. -/
theorem scanSensor_good (hnoise : library.Noiseless) {engine : Engine Pose View Scene Cloud Bytes}
    {index : ℕ} (h : Scanning library engine [index]) (snapshot : List (VehicleBody Pose))
    (attempt : Attempt Bytes Draw)
    (hcalm : ∀ sensor scanner, engine.control.sensors[index]?=some sensor →
      engine.scanners[index]?=some scanner → Calm library (engine.setting library snapshot sensor) attempt scanner) :
    Core library (engine.scanSensor library snapshot attempt index).1 ∧
    Current (engine.scanSensor library snapshot attempt index).1 ∧
    Frame engine (engine.scanSensor library snapshot attempt index).1 ∧
    (∀ other, other≠index →
      (engine.scanSensor library snapshot attempt index).1.scanners[other]?=engine.scanners[other]?) ∧
    ∀ report, (engine.scanSensor library snapshot attempt index).2=some report → Exact library report := by
  have hstay : Core library engine ∧ Current engine ∧ Frame engine engine ∧
      (∀ other, other≠index → engine.scanners[other]?=engine.scanners[other]?) :=
    ⟨h.core,h.current,⟨rfl,rfl,rfl,rfl⟩,fun _ _ => rfl⟩
  unfold Engine.scanSensor
  cases hsensor : engine.control.sensors[index]? with
  | none => exact ⟨hstay.1,hstay.2.1,hstay.2.2.1,hstay.2.2.2,fun report hreport => by cases hreport⟩
  | some sensor =>
    cases hscanner : engine.scanners[index]? with
    | none => exact ⟨hstay.1,hstay.2.1,hstay.2.2.1,hstay.2.2.2,fun report hreport => by cases hreport⟩
    | some scanner =>
      dsimp only
      have hprepared := h.prepared index (List.mem_singleton_self _) scanner hscanner
      have hpos := h.core.positive h.ready
      have hready : Ready library (engine.setting library snapshot sensor)
          (engine.maps (policy sensor.spec.config)) scanner :=
        ⟨h.core.kept index sensor scanner hsensor hscanner hpos,
          fun source hsource => h.current h.ready _ source hsource,
          h.core.scene index scanner hscanner hprepared,(h.core.past index scanner hscanner).2⟩
      have hothers : (engine.setting library snapshot sensor).withBodies=false →
          (engine.setting library snapshot sensor).others=[] := by
        intro hbodies
        have hnone : sensor.withBodies=false := hbodies
        unfold Engine.setting
        dsimp only
        rw [hnone]
        exact if_neg Bool.false_ne_true
      have hgood := scan_good hnoise hothers hready (hcalm sensor scanner hsensor hscanner)
      have hlt := (List.getElem?_eq_some_iff.mp hscanner).1
      refine ⟨?_,?_,⟨rfl,rfl,rfl,rfl⟩,?_,?_⟩
      · refine core_scanner library h.core hsensor hscanner ?_ ?_ ?_ ?_ _
        · rw [hgood.prepared]
          exact ⟨(h.core.past index scanner hscanner).1,hgood.ready.past⟩
        · exact fun _ => hgood.ready.scene
        · exact fun _ => hgood.ready.kept
        · have hcount : (engine.scanners.map Scanner.prepared)[index]?=some scanner.prepared := by
            rw [List.getElem?_map,hscanner]
            rfl
          rw [hgood.prepared,h.core.pending]
          congr 1
          obtain ⟨hbound,hitem⟩ := List.getElem?_eq_some_iff.mp hcount
          rw [←hitem]
          exact (List.set_getElem_self hbound).symm
      · intro _ key source hsource
        dsimp only at hsource
        by_cases hkey : key=policy sensor.spec.config
        · rw [hkey,Function.update_self] at hsource
          exact hgood.ready.map source hsource
        · rw [Function.update_of_ne hkey] at hsource
          exact h.current h.ready key source hsource
      · intro other hother
        exact List.getElem?_set_ne (Ne.symm hother)
      · intro report hreport
        obtain ⟨points,hpoints,hequal⟩ := Option.map_eq_some_iff.mp hreport
        rw [←hequal]
        refine ⟨sensor,_,hsensor,List.getElem?_set_self hlt,?_⟩
        exact hgood.exact points hpoints

/-- Calm scans of different sensors deliver what is wanted. -/
theorem scanAll_good (hnoise : library.Noiseless) (stops : Bool) (snapshot : List (VehicleBody Pose))
    (attempts : ℕ → Attempt Bytes Draw) {indices : List ℕ} :
    ∀ {engine : Engine Pose View Scene Cloud Bytes}, indices.Nodup → Scanning library engine indices →
      (∀ index∈indices, ∀ sensor scanner, engine.control.sensors[index]?=some sensor →
        engine.scanners[index]?=some scanner →
        Calm library (engine.setting library snapshot sensor) (attempts index) scanner) →
      Core library (Engine.scanAll library stops snapshot attempts engine indices).1 ∧
      Current (Engine.scanAll library stops snapshot attempts engine indices).1 ∧
      Frame engine (Engine.scanAll library stops snapshot attempts engine indices).1 ∧
      (∀ other∉indices, (Engine.scanAll library stops snapshot attempts engine indices).1.scanners[other]?=
        engine.scanners[other]?) ∧
      ∀ report∈(Engine.scanAll library stops snapshot attempts engine indices).2, Exact library report := by
  induction indices with
  | nil =>
    intro engine _ h _
    exact ⟨h.core,h.current,⟨rfl,rfl,rfl,rfl⟩,fun _ _ => rfl,fun report hreport => absurd hreport List.not_mem_nil⟩
  | cons index rest ih =>
    intro engine hnodup h hcalm
    obtain ⟨hout,hrest⟩ := List.nodup_cons.mp hnodup
    have hone : Scanning library engine [index] :=
      ⟨h.core,h.current,h.ready,fun other hother =>
        h.prepared other (by rw [List.mem_singleton.mp hother]; exact List.mem_cons_self)⟩
    obtain ⟨hcore,hcurrent,hframe,hothers,hexact⟩ :=
      scanSensor_good library hnoise hone snapshot (attempts index) (hcalm index List.mem_cons_self)
    have hne : ∀ other∈rest, other≠index := fun other hother hsame => hout (hsame ▸ hother)
    have hscanning : Scanning library (engine.scanSensor library snapshot (attempts index) index).1 rest := by
      refine ⟨hcore,hcurrent,?_,fun other hother scanner hscanner => ?_⟩
      · rw [hframe.control]
        exact h.ready
      · rw [hothers other (hne other hother)] at hscanner
        rw [hframe.generation]
        exact h.prepared other (List.mem_cons_of_mem _ hother) scanner hscanner
    have hlater := ih hrest hscanning (by
      intro other hother sensor scanner hsensor hscanner
      rw [hframe.control] at hsensor
      rw [hothers other (hne other hother)] at hscanner
      rw [hframe.setting]
      exact hcalm other (List.mem_cons_of_mem _ hother) sensor scanner hsensor hscanner)
    obtain ⟨hcore',hcurrent',hframe',hothers',hexact'⟩ := hlater
    have hboth : Frame engine (Engine.scanAll library stops snapshot attempts
        (engine.scanSensor library snapshot (attempts index) index).1 rest).1 :=
      ⟨hframe'.control.trans hframe.control,hframe'.cloud.trans hframe.cloud,
        hframe'.scene.trans hframe.scene,hframe'.generation.trans hframe.generation⟩
    have hkept : ∀ other∉index::rest, (Engine.scanAll library stops snapshot attempts
        (engine.scanSensor library snapshot (attempts index) index).1 rest).1.scanners[other]?=
        engine.scanners[other]? := by
      intro other hother
      rw [List.mem_cons,not_or] at hother
      exact (hothers' other hother.2).trans (hothers other hother.1)
    rw [Engine.scanAll]
    dsimp only
    cases hdelivered : (engine.scanSensor library snapshot (attempts index) index).2 with
    | none =>
      dsimp only
      cases stops with
      | true =>
        refine ⟨hcore,hcurrent,hframe,fun other hother => ?_,fun report hreport => ?_⟩
        · rw [List.mem_cons,not_or] at hother
          exact hothers other hother.1
        · exact absurd hreport List.not_mem_nil
      | false => exact ⟨hcore',hcurrent',hboth,hkept,hexact'⟩
    | some report =>
      dsimp only
      refine ⟨hcore',hcurrent',hboth,hkept,fun other hother => ?_⟩
      rcases List.mem_cons.mp hother with hfirst | hlast
      · rw [hfirst]
        exact hexact report hdelivered
      · exact hexact' other hlast

/-- Sensors after a tick are the same. -/
theorem tick_same (control : LidarSchedule.Engine Pose) (now : ℤ) :
    SameSensors control (control.tick contract now).1 := by
  obtain ⟨change,hchange⟩ := tick_sensors contract control now
  obtain ⟨-,hready,-⟩ := tick_scanned contract control now
  refine ⟨hready,?_,fun index moved hmoved => ?_⟩
  · apply Nat.le_antisymm
    · by_contra hcon
      have hlookup := hchange control.sensors.length
      rw [List.getElem?_eq_none (Nat.le_refl _),Option.map_none,List.getElem?_eq_none_iff] at hlookup
      omega
    · by_contra hcon
      have hlookup := hchange (control.tick contract now).1.sensors.length
      rw [List.getElem?_eq_none (Nat.le_refl _)] at hlookup
      have hnone := Option.map_eq_none_iff.mp hlookup.symm
      rw [List.getElem?_eq_none_iff] at hnone
      omega
  · rw [hchange] at hmoved
    obtain ⟨sensor,hsensor,hequal⟩ := Option.map_eq_some_iff.mp hmoved
    rw [←hequal]
    exact ⟨sensor,hsensor,rfl,rfl⟩

/-- A tick starts its scans with every scanned sensor prepared. -/
theorem prepared_good {engine : Engine Pose View Scene Cloud Bytes} (h : Core library engine)
    (hcurrent : Current engine) (now : ℤ) :
    Core library (engine.prepared contract now) ∧ Current (engine.prepared contract now) ∧
    (engine.prepared contract now).control=(engine.control.tick contract now).1 ∧
    ∀ index∈(engine.control.tick contract now).2, ∀ scanner : Scanner View Scene Bytes,
      (engine.prepared contract now).scanners[index]?=some scanner →
      scanner.prepared=(engine.prepared contract now).generation := by
  have hsame := tick_same contract engine.control now
  have hstarted := core_control library h hsame
  have hcurrentStarted : Current {engine with control := (engine.control.tick contract now).1} := by
    intro hready
    dsimp only at hready
    rw [hsame.1] at hready
    exact hcurrent hready
  unfold Engine.prepared
  dsimp only
  by_cases hpending : engine.pending≠0
  · rw [if_pos hpending]
    obtain ⟨hcore,hcontrol,hmaps,hcloud,hscene,hgeneration,hscanners⟩ :=
      @prepare_all _ _ _ _ _ _ library (engine.control.tick contract now).2 _ hstarted
    refine ⟨hcore,?_,hcontrol,fun index hindex scanner hscanner => ?_⟩
    · intro hready key source hsource
      rw [hcontrol] at hready
      rw [hmaps] at hsource
      have hsourceStarted := hcurrentStarted hready key source hsource
      unfold Engine.source at hsourceStarted ⊢
      rw [hcloud,hscene]
      exact hsourceStarted
    · rw [hgeneration]
      rcases hscanners index scanner hscanner with hprepared | ⟨hout,-⟩
      · exact hprepared
      · exact absurd hindex hout
  · rw [if_neg hpending]
    refine ⟨hstarted,hcurrentStarted,rfl,fun index _ scanner hscanner => ?_⟩
    have hcount := h.pending
    rw [not_not] at hpending
    rw [hpending] at hcount
    have hmem : scanner.prepared∈engine.scanners.map Scanner.prepared :=
      List.mem_map_of_mem (List.mem_of_getElem? hscanner)
    have hprepared := List.countP_eq_zero.mp hcount.symm scanner.prepared hmem
    by_contra hne
    exact hprepared (decide_eq_true hne)

/-- A call does not reach a stale scan: no scan of a tick spoils what its sensor
remembers or takes another pose for the remembered one, and no refused cloud
replaces the cloud of GPU maps in use. -/
def CalmStep (engine : Engine Pose View Scene Cloud Bytes) : Op Pose Scene Cloud Bytes Draw → Prop
  | .tick now attempts => ∀ index∈(engine.control.tick contract now).2, ∀ sensor scanner,
    (engine.prepared contract now).control.sensors[index]?=some sensor →
    (engine.prepared contract now).scanners[index]?=some scanner →
    Calm library ((engine.prepared contract now).setting library (engine.bodySnapshot contract now) sensor)
      (attempts index) scanner
  | .setPointCloud cloud revision _ => cloud.isSome=true → engine.refuses revision=true →
    engine.control.ready=true → ∀ key, engine.maps key=none
  | _ => True

/-- A calm tick delivers what is wanted. -/
theorem tick_good (hnoise : library.Noiseless) {engine : Engine Pose View Scene Cloud Bytes}
    (h : Core library engine) (hcurrent : Current engine) {now : ℤ} {attempts : ℕ → Attempt Bytes Draw}
    (hcalm : CalmStep library contract engine (.tick now attempts)) :
    Core library (engine.tick library contract now attempts).1 ∧
    Current (engine.tick library contract now attempts).1 ∧
    ∀ report∈(engine.tick library contract now attempts).2, Exact library report := by
  obtain ⟨hcore,hcurrent',hcontrol,hprepared⟩ := prepared_good library contract h hcurrent now
  obtain ⟨hnodup,hready,hscanned⟩ := tick_scanned contract engine.control now
  have hmem : ∀ gpu, ∀ index∈engine.active contract now gpu, index∈(engine.control.tick contract now).2 :=
    fun gpu index hindex => List.mem_of_mem_filter hindex
  have hactive : ∀ gpu, (engine.active contract now gpu).Nodup := fun gpu => hnodup.filter _
  -- an engine without a scene scans nothing
  by_cases hscene : engine.control.ready=true
  · have hready' : (engine.prepared contract now).control.ready=true := by
      rw [hcontrol,hready,hscene]
    have hgpu : Scanning library (engine.prepared contract now) (engine.active contract now true) :=
      ⟨hcore,hcurrent',hready',fun index hindex => hprepared index (hmem true index hindex)⟩
    obtain ⟨hcore1,hcurrent1,hframe1,hothers1,hexact1⟩ :=
      scanAll_good library hnoise true (engine.bodySnapshot contract now) attempts (hactive true) hgpu
        fun index hindex => hcalm index (hmem true index hindex)
    have hapart : ∀ index∈engine.active contract now false, index∉engine.active contract now true := by
      intro index hfalse htrue
      have hoff := (List.mem_filter.mp hfalse).2
      have hon := (List.mem_filter.mp htrue).2
      rw [beq_iff_eq] at hoff hon
      rw [hoff] at hon
      exact absurd hon Bool.false_ne_true
    have hcpu : Scanning library (Engine.scanAll library true (engine.bodySnapshot contract now) attempts
        (engine.prepared contract now) (engine.active contract now true)).1
        (engine.active contract now false) := by
      refine ⟨hcore1,hcurrent1,?_,fun index hindex scanner hscanner => ?_⟩
      · rw [hframe1.control]
        exact hready'
      · rw [hothers1 index (hapart index hindex)] at hscanner
        rw [hframe1.generation]
        exact hprepared index (hmem false index hindex) scanner hscanner
    obtain ⟨hcore2,hcurrent2,-,-,hexact2⟩ :=
      scanAll_good library hnoise false (engine.bodySnapshot contract now) attempts (hactive false) hcpu (by
        intro index hindex sensor scanner hsensor hscanner
        rw [hframe1.control] at hsensor
        rw [hothers1 index (hapart index hindex)] at hscanner
        rw [hframe1.setting]
        exact hcalm index (hmem false index hindex) sensor scanner hsensor hscanner)
    refine ⟨hcore2,hcurrent2,fun report hreport => ?_⟩
    rcases List.mem_append.mp hreport with hfirst | hsecond
    · exact hexact1 report hfirst
    · exact hexact2 report hsecond
  · have hnone : ∀ gpu, engine.active contract now gpu=[] := by
      intro gpu
      rw [List.eq_nil_iff_forall_not_mem]
      intro index hindex
      exact hscene (hscanned index (hmem gpu index hindex)).1
    unfold Engine.tick
    dsimp only
    rw [hnone true,hnone false]
    exact ⟨hcore,hcurrent',fun report hreport => absurd hreport List.not_mem_nil⟩

/-- A withdrawn scene keeps scanners and counts. -/
theorem invalidate_core {engine : Engine Pose View Scene Cloud Bytes} (h : Core library engine)
    (revision : ℕ) : Core library (engine.invalidateScene revision) ∧
      (engine.invalidateScene revision).generation=engine.generation ∧
      (engine.invalidateScene revision).scanners=engine.scanners := by
  unfold Engine.invalidateScene
  split
  · exact ⟨h,rfl,rfl⟩
  · refine ⟨⟨h.length,fun hready => ?_,h.past,h.scene,h.pending,h.kept⟩,rfl,rfl⟩
    exact absurd hready Bool.false_ne_true

/-- Setting a scene keeps the invariant; the maps matter only when the revision is refused. -/
theorem setScene_good {engine : Engine Pose View Scene Cloud Bytes} (h : Core library engine)
    (obstacles : Scene) {revision : ℕ} (compiles : Bool)
    (hcurrent : engine.refuses revision=true → Current engine) :
    Core library (engine.setScene library obstacles revision compiles) ∧
    Current (engine.setScene library obstacles revision compiles) := by
  unfold Engine.setScene
  by_cases hrefuses : engine.refuses revision=true
  · rw [if_pos hrefuses]
    exact ⟨h,hcurrent hrefuses⟩
  · rw [if_neg hrefuses]
    obtain ⟨hcore,hgeneration,hscanners⟩ := invalidate_core library h revision
    dsimp only
    cases compiles with
    | false =>
      rw [if_neg Bool.false_ne_true]
      refine ⟨⟨hcore.length,hcore.positive,hcore.past,hcore.scene,hcore.pending,hcore.kept⟩,?_⟩
      intro _ key source hsource
      exact absurd hsource (by simp only [reduceCtorEq,not_false_eq_true])
    | true =>
      rw [if_pos rfl]
      have hold : ∀ (index : ℕ) (scanner : Scanner View Scene Bytes),
          (engine.invalidateScene revision).scanners[index]?=some scanner →
          scanner.prepared<(engine.invalidateScene revision).generation+1 ∧
          scanner.cacheGeneration<(engine.invalidateScene revision).generation+1 := by
        intro index scanner hscanner
        have hpast := hcore.past index scanner hscanner
        exact ⟨Nat.lt_succ_of_le hpast.1,Nat.lt_succ_of_le hpast.2⟩
      refine ⟨⟨hcore.length,fun _ => Nat.succ_pos _,?_,?_,?_,?_⟩,?_⟩
      · intro index scanner hscanner
        have hlt := hold index scanner hscanner
        exact ⟨Nat.le_of_lt hlt.1,Nat.le_of_lt hlt.2⟩
      · intro index scanner hscanner hprepared
        have hlt := (hold index scanner hscanner).1
        dsimp only at hprepared
        omega
      · dsimp only
        have hall : ∀ prepared∈(engine.invalidateScene revision).scanners.map Scanner.prepared,
            (decide (prepared≠(engine.invalidateScene revision).generation+1))=true := by
          intro prepared hmem
          obtain ⟨scanner,hscanner,hequal⟩ := List.mem_map.mp hmem
          obtain ⟨index,hindex⟩ := List.getElem?_of_mem hscanner
          have hlt := (hold index scanner hindex).1
          rw [decide_eq_true_eq]
          omega
        rw [List.countP_eq_length.mpr hall,List.length_map]
      · intro index sensor scanner _ hscanner _ hremembers
        have hlt := (hold index scanner hscanner).2
        unfold Scanner.remembers at hremembers
        rw [Bool.and_eq_true,decide_eq_true_eq] at hremembers
        have hequal := hremembers.2
        unfold Engine.setting at hequal
        dsimp only at hequal
        omega
      · intro _ key source hsource
        exact absurd hsource (by simp only [reduceCtorEq,not_false_eq_true])

/-- Setting a cloud forgets every remembered scan. -/
theorem setPointCloud_good {engine : Engine Pose View Scene Cloud Bytes} (h : Core library engine)
    (hcurrent : Current engine) {cloud : Option Cloud} {revision : ℕ} {compiles : Bool}
    (hcalm : CalmStep library contract engine
      (.setPointCloud cloud revision compiles : Op Pose Scene Cloud Bytes Draw)) :
    Core library (engine.setPointCloud library cloud revision compiles) ∧
    Current (engine.setPointCloud library cloud revision compiles) := by
  unfold Engine.setPointCloud
  cases cloud with
  | none => exact ⟨h,hcurrent⟩
  | some cloud =>
    dsimp only
    refine setScene_good library ?_ _ compiles ?_
    · refine ⟨?_,h.positive,?_,?_,?_,?_⟩
      · dsimp only [LidarSchedule.Engine.setPointCloud]
        rw [List.length_map,List.length_map]
        exact h.length
      · intro index scanner hscanner
        dsimp only at hscanner
        rw [List.getElem?_map] at hscanner
        obtain ⟨old,hold,hequal⟩ := Option.map_eq_some_iff.mp hscanner
        rw [←hequal]
        exact ⟨(h.past index old hold).1,Nat.zero_le _⟩
      · intro index scanner hscanner hprepared
        dsimp only at hscanner
        rw [List.getElem?_map] at hscanner
        obtain ⟨old,hold,hequal⟩ := Option.map_eq_some_iff.mp hscanner
        rw [←hequal] at hprepared ⊢
        exact h.scene index old hold hprepared
      · dsimp only
        rw [List.map_map]
        exact h.pending
      · intro index sensor scanner _ hscanner hpos hremembers
        dsimp only at hscanner
        rw [List.getElem?_map] at hscanner
        obtain ⟨old,-,hequal⟩ := Option.map_eq_some_iff.mp hscanner
        unfold Scanner.remembers at hremembers
        rw [Bool.and_eq_true,decide_eq_true_eq,←hequal] at hremembers
        have hzero := hremembers.2
        unfold Engine.setting at hzero
        dsimp only at hzero hpos
        omega
    · intro hrefuses hready key source hsource
      have hnone := hcalm rfl hrefuses hready key
      dsimp only at hsource
      rw [hnone] at hsource
      exact absurd hsource (by simp only [reduceCtorEq,not_false_eq_true])

/-- A calm call keeps the invariant and delivers what is wanted. -/
theorem step_good (hnoise : library.Noiseless) {engine : Engine Pose View Scene Cloud Bytes}
    (h : Core library engine) (hcurrent : Current engine) {op : Op Pose Scene Cloud Bytes Draw}
    (hcalm : CalmStep library contract engine op) :
    Core library (engine.step library contract op).1 ∧ Current (engine.step library contract op).1 ∧
    ∀ report∈(engine.step library contract op).2, Exact library report := by
  cases op with
  | input input =>
    have hsame := accept_sensors contract engine.control input
    refine ⟨core_control library h hsame,?_,fun report hreport => absurd hreport List.not_mem_nil⟩
    intro hready
    have hbefore : engine.control.ready=true := hsame.1.symm.trans hready
    exact hcurrent hbefore
  | setScene obstacles revision compiles =>
    obtain ⟨hcore,hafter⟩ := setScene_good library h obstacles compiles fun _ => hcurrent
    exact ⟨hcore,hafter,fun report hreport => absurd hreport List.not_mem_nil⟩
  | invalidateScene revision =>
    obtain ⟨hcore,-,-⟩ := invalidate_core library h revision
    refine ⟨hcore,?_,fun report hreport => absurd hreport List.not_mem_nil⟩
    intro hready
    unfold Engine.step Engine.invalidateScene at hready ⊢
    dsimp only at hready ⊢
    split at hready
    · rename_i hold
      rw [if_pos hold]
      exact hcurrent hready
    · exact absurd hready Bool.false_ne_true
  | setPointCloud cloud revision compiles =>
    obtain ⟨hcore,hafter⟩ := setPointCloud_good library contract h hcurrent hcalm
    exact ⟨hcore,hafter,fun report hreport => absurd hreport List.not_mem_nil⟩
  | tick now attempts => exact tick_good library contract hnoise h hcurrent hcalm

/-- An attempt that succeeds. -/
def succeeds : ℕ → Attempt ℤ Unit := fun _ => ⟨.done,false,.done,()⟩

/-- An attempt that throws after it has written to the buffer. -/
def fails : ℕ → Attempt ℤ Unit := fun _ => ⟨.done,false,.throws 99,()⟩

end Invariant

end Ros1Adapter.LidarScans
