import Mathlib.Algebra.BigOperators.Group.List.Basic
import Mathlib.Algebra.Order.Floor.Semiring
import Mathlib.Data.Fin.VecNotation
import Mathlib.Data.Real.Sqrt
import Ros1Adapter.RingBuffers

/-!
# Health of a positioning source

A source that replays one pose is told from a live one by the variation of its
last samples. The samples stand in a ring with one more place than it keeps; the
newest sample takes that place, the ring is compared with it, and the oldest
sample goes. Numbers are exact, and a number that is not finite is no number.
-/

namespace Ros1Adapter.PositioningWindow

open RingBuffers

section Window

/-- A position. -/
abbrev Position (K : Type) := Fin 3 → K

/-- Registers start at the origin. -/
instance positionInhabited {K : Type} [Zero K] : Inhabited (Position K) := ⟨fun _ => 0⟩

/-- Configuration of the detector. -/
structure PositioningHealthConfig (K : Type) where
  /-- Number of samples that are kept. -/
  frameNumber : ℕ
  /-- Variation of a live source in metres. -/
  comparisonThresholdM : K
  /-- Age of a silent source in seconds. -/
  timeoutSeconds : K

/-- States of a source. -/
inductive PositioningHealthState where
  | timedOut
  | active
  | frozen
  deriving DecidableEq

/-- Reasons of the states. -/
inductive PositioningHealthReason where
  | vrpnTimeout
  | windowVariationObserved
  | repeatFrameWindowFrozen
  deriving DecidableEq

/-- Judgement of a source. -/
structure PositioningHealthResult (K : Type) where
  /-- State. -/
  state : PositioningHealthState
  /-- Reason. -/
  reason : PositioningHealthReason
  /-- Age of the last sample in milliseconds. -/
  observedAgeMs : ℕ
  /-- Largest variation of an axis. -/
  comparisonMetricM : K
  /-- Number of samples kept. -/
  sampleCount : ℕ

/-- Samples of a source. -/
structure PositioningHealthWindow (K : Type) where
  /-- Configuration. -/
  config : PositioningHealthConfig K
  /-- Samples. -/
  registers : CellRing (Position K)
  /-- Time of the last sample. -/
  lastObservedSeconds : K
  /-- Largest variation of an axis. -/
  comparisonMetricM : K
  /-- There was a sample. -/
  hasObservation : Bool
  /-- The source varies. -/
  active : Bool

/-- A call: time and coordinates, where they are finite. -/
structure Pose (K : Type) where
  /-- Time. -/
  seconds : Option K
  /-- First coordinate. -/
  x : Option K
  /-- Second coordinate. -/
  y : Option K
  /-- Third coordinate. -/
  z : Option K

variable {K : Type} [Field K] [LinearOrder K]

/-- A detector without samples. -/
def PositioningHealthWindow.start (config : PositioningHealthConfig K) : PositioningHealthWindow K :=
  ⟨config,.unused (config.frameNumber+1),0,0,false,false⟩

/-- Sum of the squared differences of an axis, from an index on. -/
def sumSquares (r : CellRing (Position K)) (newest : Position K) (axis : Fin 3) : ℕ → ℕ → K → K
  | 0,_,sum => sum
  | samples+1,index,sum =>
    let difference := r.cell index axis-newest axis
    sumSquares r newest axis samples (r.next index) (sum+difference*difference)

/-- Largest variation and whether an axis varies. -/
def compared (sqrt : K → K) (config : PositioningHealthConfig K) (r : CellRing (Position K)) (newest : Position K) :
    K × Bool :=
  (List.finRange 3).foldl (fun result axis =>
    let sum := sumSquares r newest axis r.retained r.first 0
    (max result.1 (sqrt sum),
      result.2 || decide (config.comparisonThresholdM*config.comparisonThresholdM<sum))) (0,false)

/-- The samples begin anew at a clock that goes backwards. -/
def PositioningHealthWindow.restarted (w : PositioningHealthWindow K) (seconds : K) : PositioningHealthWindow K :=
  if w.hasObservation && decide (seconds<w.lastObservedSeconds) then {
    w with registers := { w.registers with first := 0, retained := 0 }, active := false, comparisonMetricM := 0 }
  else w

/-- The ring with the newest sample in its spare place. -/
def extended (registers : CellRing (Position K)) (newest : Position K) : CellRing (Position K) :=
  (registers.write newest).grown

/-- Record a sample. -/
def PositioningHealthWindow.recordPose (sqrt : K → K) (w : PositioningHealthWindow K) (pose : Pose K) :
    PositioningHealthWindow K :=
  match pose.seconds,pose.x,pose.y,pose.z with
  | some seconds,some x,some y,some z =>
    let w := { w.restarted seconds with lastObservedSeconds := seconds, hasObservation := true }
    let newest : Position K := ![x,y,z]
    let registers := extended w.registers newest
    if registers.retained ≤ w.config.frameNumber then {
      w with registers := registers, active := false, comparisonMetricM := 0 }
    else
      let (metric,active) := compared sqrt w.config registers newest
      { w with registers := registers.shifted, active := active, comparisonMetricM := metric }
  | _,_,_,_ => w

/-- Age in milliseconds. -/
def ageMillis [FloorSemiring K] (now observed : K) : ℕ :=
  if now<observed then 0
  else
    let milliseconds := (now-observed)*1000
    if (2^64-1 : ℕ) ≤ milliseconds then 2^64-1
    else
      let rounded := ⌊max 0 milliseconds+1/2⌋₊
      if 2^64-1 ≤ rounded then 2^64-1 else rounded

/-- Judge the source. -/
def PositioningHealthWindow.evaluate [FloorSemiring K] (w : PositioningHealthWindow K) (now : Option K) :
    PositioningHealthResult K :=
  let result : PositioningHealthResult K := ⟨.timedOut,.vrpnTimeout,0,w.comparisonMetricM,w.registers.retained⟩
  match now with
  | none => result
  | some now =>
    if !w.hasObservation || decide (now<w.lastObservedSeconds) then result
    else
      let result := { result with observedAgeMs := ageMillis now w.lastObservedSeconds }
      if w.config.timeoutSeconds ≤ now-w.lastObservedSeconds then result
      else if w.active then { result with state := .active, reason := .windowVariationObserved }
      else { result with state := .frozen, reason := .repeatFrameWindowFrozen }

/-- Calls one after the other. -/
def recorded (sqrt : K → K) (config : PositioningHealthConfig K) (poses : List (Pose K)) : PositioningHealthWindow K :=
  poses.foldl (fun w pose => w.recordPose sqrt pose) (.start config)

end Window

section Samples

variable {K : Type} [Field K] [LinearOrder K]

/-- Time and position of a finite sample. -/
def Pose.sample (pose : Pose K) : Option (K × Position K) :=
  match pose.seconds,pose.x,pose.y,pose.z with
  | some seconds,some x,some y,some z => some (seconds,![x,y,z])
  | _,_,_,_ => none

/-- Samples since the last clock that went backwards. -/
def sinceBackwards (samples : List (K × Position K)) : List (K × Position K) :=
  samples.foldl (fun since sample =>
    if since.getLast?.any (fun last => decide (sample.1<last.1)) then [sample] else since ++ [sample]) []

/-- Finite samples of calls since the last clock that went backwards. -/
def samplesOf (poses : List (Pose K)) : List (K × Position K) := sinceBackwards (poses.filterMap Pose.sample)

/-- The last positions, a number of them. -/
def lastPositions (n : ℕ) (samples : List (K × Position K)) : List (Position K) :=
  (samples.map Prod.snd).drop (samples.length-n)

/-- Sum of the squared differences to the last position. -/
def variation (positions : List (Position K)) (axis : Fin 3) : K :=
  match positions.getLast? with
  | none => 0
  | some newest => (positions.map (fun p => (p axis-newest axis)^2)).sum

/-- A source varies if an axis does among its last samples. -/
def Varies (config : PositioningHealthConfig K) (samples : List (K × Position K)) : Prop :=
  config.frameNumber+1 ≤ samples.length ∧ ∃ axis,
    config.comparisonThresholdM^2<variation (lastPositions (config.frameNumber+1) samples) axis

end Samples

section Indices

/-- Indices that are read from an index on. -/
def visited {K : Type} (r : CellRing (Position K)) : ℕ → ℕ → List ℕ
  | 0,_ => []
  | samples+1,index => index::visited r samples (r.next index)

/-- The loop reads cells of the ring. -/
theorem visited_lt {K : Type} {r : CellRing (Position K)} (h : r.Valid) (samples : ℕ) {index : ℕ} (hi : index<r.cells.length) :
    ∀ i∈visited r samples index, i<r.cells.length := by
  induction samples generalizing index with
  | zero =>
    intro i hmem
    cases hmem
  | succ samples ih =>
    have hnext : r.next index<r.cells.length := by
      unfold CellRing.next
      split
      · exact Nat.lt_of_le_of_lt (Nat.zero_le _) h.first_lt
      · omega
    intro i hmem
    rcases List.mem_cons.mp hmem with rfl | hmem
    · exact hi
    · exact ih hnext i hmem

end Indices

section Sums

variable {K : Type} [Field K] [LinearOrder K] {r : CellRing (Position K)}

/-- The loop sums over the cells behind an index. -/
theorem sumSquares_behind (h : 0<r.cells.length) (newest : Position K) (axis : Fin 3) (samples offset : ℕ) (sum : K) :
    sumSquares r newest axis samples (r.behind offset) sum=
      sum+((List.range samples).map (fun i => (r.cell (r.behind (offset+i)) axis-newest axis)^2)).sum := by
  induction samples generalizing offset sum with
  | zero =>
    rw [sumSquares,List.range_zero,List.map_nil,List.sum_nil,add_zero]
  | succ samples ih =>
    rw [sumSquares,next_behind r h,ih,List.range_succ_eq_map,List.map_cons,List.sum_cons,List.map_map,add_assoc,add_zero,pow_two]
    congr 3
    refine List.map_congr_left (fun i _ => ?_)
    have hoffset : offset+1+i=offset+(i+1) := by omega
    rw [hoffset]
    rfl

/-- The loop sums over the contents. -/
theorem sumSquares_contents (h : r.Valid) (newest : Position K) (axis : Fin 3) :
    sumSquares r newest axis r.retained r.first 0=(r.contents.map (fun p => (p axis-newest axis)^2)).sum := by
  have hbehind := sumSquares_behind (Nat.lt_of_le_of_lt (Nat.zero_le _) h.first_lt) newest axis r.retained 0 0
  rw [h.behind_zero,zero_add] at hbehind
  rw [hbehind]
  unfold CellRing.contents
  rw [List.map_map]
  congr 1
  refine List.map_congr_left (fun i _ => ?_)
  rw [zero_add]
  rfl

/-- An axis varies among the contents. -/
theorem compared_active (sqrt : K → K) (config : PositioningHealthConfig K) (h : r.Valid) (newest : Position K) :
    (compared sqrt config r newest).2=true ↔ ∃ axis,
      config.comparisonThresholdM^2<(r.contents.map (fun p => (p axis-newest axis)^2)).sum := by
  have hfold : ∀ (axes : List (Fin 3)) (metric : K) (active : Bool),
      (axes.foldl (fun result axis => (max result.1 (sqrt (sumSquares r newest axis r.retained r.first 0)),
        result.2 || decide (config.comparisonThresholdM*config.comparisonThresholdM<
          sumSquares r newest axis r.retained r.first 0))) (metric,active)).2=true ↔
      active=true ∨ ∃ axis∈axes, config.comparisonThresholdM^2<(r.contents.map (fun p => (p axis-newest axis)^2)).sum := by
    intro axes
    induction axes with
    | nil =>
      intro metric active
      simp
    | cons axis axes ih =>
      intro metric active
      rw [List.foldl_cons,ih,Bool.or_eq_true,decide_eq_true_eq,sumSquares_contents h,←pow_two,or_assoc,
        List.exists_mem_cons_iff]
  unfold compared
  dsimp only
  rw [hfold]
  constructor
  · rintro (hfalse | ⟨axis,_,hvaries⟩)
    · cases hfalse
    · exact ⟨axis,hvaries⟩
  · rintro ⟨axis,hvaries⟩
    exact Or.inr ⟨axis,List.mem_finRange axis,hvaries⟩

end Sums

section Runs

variable {K : Type} [Field K] [LinearOrder K] {config : PositioningHealthConfig K}

/-- What the detector keeps of the samples since the last clock that went backwards. -/
structure Keeps (config : PositioningHealthConfig K) (samples : List (K × Position K)) (w : PositioningHealthWindow K) :
    Prop where
  /-- The configuration stays. -/
  unchanged : w.config=config
  /-- The indices of the ring are in range. -/
  valid : w.registers.Valid
  /-- The ring has one place more than it keeps. -/
  size : w.registers.cells.length=config.frameNumber+1
  /-- The ring holds the last positions. -/
  contents : w.registers.contents=lastPositions config.frameNumber samples
  /-- There was a sample. -/
  observed : w.hasObservation=!samples.isEmpty
  /-- Time of the last sample. -/
  last : ∀ sample, samples.getLast?=some sample → w.lastObservedSeconds=sample.1
  /-- The source varies. -/
  active : w.active=true ↔ Varies config samples

variable {samples : List (K × Position K)} {w : PositioningHealthWindow K}

/-- Number of samples kept. -/
theorem Keeps.retained (h : Keeps config samples w) : w.registers.retained=min config.frameNumber samples.length := by
  have hlength := congrArg List.length h.contents
  unfold lastPositions at hlength
  rw [contents_length,List.length_drop,List.length_map] at hlength
  omega

/-- The samples that a new one continues. -/
def continued (samples : List (K × Position K)) (seconds : K) : List (K × Position K) :=
  if samples.getLast?.any (fun last => decide (seconds<last.1)) then [] else samples

/-- There are no last positions without samples. -/
theorem lastPositions_nil (n : ℕ) : lastPositions n ([] : List (K × Position K))=[] := List.drop_nil

/-- A clock that goes backwards forgets the samples. -/
theorem Keeps.restarted (h : Keeps config samples w) (seconds : K) :
    (w.restarted seconds).config=config ∧ (w.restarted seconds).registers.Valid ∧
      (w.restarted seconds).registers.cells.length=config.frameNumber+1 ∧
      (w.restarted seconds).registers.contents=lastPositions config.frameNumber (continued samples seconds) := by
  have hcondition : (w.hasObservation && decide (seconds<w.lastObservedSeconds))=
      samples.getLast?.any (fun last => decide (seconds<last.1)) := by
    rw [h.observed]
    rcases List.eq_nil_or_concat samples with hnone | ⟨init,sample,hsome⟩
    · rw [hnone]
      rfl
    · have hget : samples.getLast?=some sample := by
        rw [hsome,List.concat_eq_append,List.getLast?_concat]
      have hfull : samples.isEmpty=false := by
        rw [hsome,List.concat_eq_append,List.isEmpty_eq_false_iff]
        exact List.concat_ne_nil _ _
      rw [h.last sample hget,hget,hfull]
      rfl
  unfold PositioningHealthWindow.restarted continued
  rw [hcondition]
  split
  · have hpos := Nat.lt_of_le_of_lt (Nat.zero_le _) h.valid.first_lt
    exact ⟨h.unchanged,⟨hpos,Nat.zero_le _⟩,h.size,(lastPositions_nil _).symm⟩
  · exact ⟨h.unchanged,h.valid,h.size,h.contents⟩

/-- The ring with the newest sample holds one more position. -/
theorem Keeps.lengthened (h : Keeps config samples w) (seconds : K) (newest : Position K) :
    (extended (w.restarted seconds).registers newest).Valid ∧
      (extended (w.restarted seconds).registers newest).cells.length=config.frameNumber+1 ∧
      (extended (w.restarted seconds).registers newest).contents=
        lastPositions (config.frameNumber+1) (continued samples seconds ++ [(seconds,newest)]) := by
  obtain ⟨_,hvalid,hsize,hcontents⟩ := h.restarted seconds
  have hretained := congrArg List.length hcontents
  unfold lastPositions at hretained hcontents
  rw [contents_length,List.length_drop,List.length_map] at hretained
  have hroom : (w.restarted seconds).registers.retained<(w.restarted seconds).registers.cells.length := by
    rw [hsize,hretained]
    omega
  obtain ⟨hgrown,hlist,hlength⟩ := hvalid.grown_spec hroom newest
  refine ⟨hgrown,hlength.trans hsize,?_⟩
  unfold extended lastPositions
  rw [hlist,hcontents,List.map_append,List.map_singleton,List.length_append,List.length_singleton,
    Nat.add_sub_add_right,List.drop_append_of_le_length]
  rw [List.length_map]
  omega

/-- One sample keeps it all, and the loops see the last positions. -/
theorem Keeps.record (sqrt : K → K) (h : Keeps config samples w) {pose : Pose K} {sample : K × Position K}
    (hs : pose.sample=some sample) :
    Keeps config (continued samples sample.1 ++ [sample]) (w.recordPose sqrt pose) := by
  obtain ⟨seconds,newest⟩ := sample
  obtain ⟨hvalid,hsize,hcontents⟩ := h.lengthened seconds newest
  have hconfig := (h.restarted seconds).1
  have hretained := congrArg List.length hcontents
  have hlength : (continued samples seconds ++ [(seconds,newest)]).length=(continued samples seconds).length+1 := by
    rw [List.length_append,List.length_singleton]
  unfold lastPositions at hretained
  rw [contents_length,List.length_drop,List.length_map,hlength] at hretained
  have hobserved : true=!(continued samples seconds ++ [(seconds,newest)]).isEmpty := by
    rw [List.isEmpty_eq_false_iff.mpr (List.concat_ne_nil _ _)]
    rfl
  have hlast : ∀ sample, (continued samples seconds ++ [(seconds,newest)]).getLast?=some sample → seconds=sample.1 := by
    intro sample hsample
    rw [List.getLast?_concat] at hsample
    rw [←Option.some.inj hsample]
  obtain ⟨x,y,z,hpose,rfl⟩ : ∃ x y z, pose=⟨some seconds,some x,some y,some z⟩ ∧ newest=![x,y,z] := by
    obtain ⟨t,a,b,c⟩ := pose
    unfold Pose.sample at hs
    cases t <;> cases a <;> cases b <;> cases c <;> cases hs
    exact ⟨_,_,_,rfl,rfl⟩
  subst hpose
  unfold PositioningHealthWindow.recordPose
  dsimp only
  rw [hconfig]
  by_cases hfew : (extended (w.restarted seconds).registers ![x,y,z]).retained ≤ config.frameNumber
  · rw [if_pos hfew]
    refine ⟨rfl,hvalid,hsize,?_,hobserved,hlast,?_⟩
    · have hall : (continued samples seconds ++ [(seconds,![x,y,z])]).length-(config.frameNumber+1)=0 := by omega
      have hall' : (continued samples seconds ++ [(seconds,![x,y,z])]).length-config.frameNumber=0 := by omega
      change (extended (w.restarted seconds).registers ![x,y,z]).contents=_
      rw [hcontents]
      unfold lastPositions
      rw [hall,hall']
    · refine ⟨nofun,fun hvaries => ?_⟩
      have hmany := hvaries.1
      omega
  · rw [if_neg hfew]
    obtain ⟨hshifted,hlist,hcells⟩ := hvalid.shifted_spec
    refine ⟨rfl,hshifted,hcells.trans hsize,?_,hobserved,hlast,?_⟩
    · change (extended (w.restarted seconds).registers ![x,y,z]).shifted.contents=_
      rw [hlist,hcontents]
      unfold lastPositions
      rw [List.tail_drop]
      congr 1
      omega
    · change (compared sqrt config (extended (w.restarted seconds).registers ![x,y,z]) ![x,y,z]).2=true ↔ _
      rw [compared_active sqrt config hvalid,hcontents]
      have hnewest : (lastPositions (config.frameNumber+1) (continued samples seconds ++ [(seconds,![x,y,z])])).getLast?=
          some ![x,y,z] := by
        unfold lastPositions
        rw [List.map_append,List.map_singleton,List.drop_append_of_le_length,List.getLast?_concat]
        rw [List.length_map]
        omega
      unfold Varies variation
      rw [hnewest]
      refine ⟨fun hsum => ⟨by omega,hsum⟩,fun hvaries => hvaries.2⟩

omit [Field K] in
/-- A finite sample continues the samples before it. -/
theorem samplesOf_snoc (poses : List (Pose K)) {pose : Pose K} {sample : K × Position K} (hs : pose.sample=some sample) :
    samplesOf (poses ++ [pose])=continued (samplesOf poses) sample.1 ++ [sample] := by
  unfold samplesOf sinceBackwards continued
  rw [List.filterMap_append,List.filterMap_cons_some hs,List.filterMap_nil,List.foldl_append]
  change (if _ then _ else _)=_
  split <;> rfl

/-- The detector keeps the samples of its calls. -/
theorem recorded_keeps (sqrt : K → K) (config : PositioningHealthConfig K) (poses : List (Pose K)) :
    Keeps config (samplesOf poses) (recorded sqrt config poses) := by
  induction poses using List.reverseRecOn with
  | nil =>
    refine ⟨rfl,unused_valid (Nat.succ_pos _),List.length_replicate,
      (unused_contents _).trans (lastPositions_nil _).symm,rfl,nofun,nofun,fun hvaries => ?_⟩
    exact absurd hvaries.1 (Nat.not_succ_le_zero _)
  | append_singleton poses pose ih =>
    have hrecorded : recorded sqrt config (poses ++ [pose])=(recorded sqrt config poses).recordPose sqrt pose := by
      unfold recorded
      rw [List.foldl_append]
      rfl
    rw [hrecorded]
    cases hs : pose.sample with
    | none =>
      have hsame : samplesOf (poses ++ [pose])=samplesOf poses := by
        unfold samplesOf
        rw [List.filterMap_append,List.filterMap_cons_none hs,List.filterMap_nil,List.append_nil]
      have hunchanged : (recorded sqrt config poses).recordPose sqrt pose=recorded sqrt config poses := by
        obtain ⟨t,a,b,c⟩ := pose
        unfold Pose.sample at hs
        unfold PositioningHealthWindow.recordPose
        cases t <;> cases a <;> cases b <;> cases c <;> first | rfl | cases hs
      rw [hsame,hunchanged]
      exact ih
    | some sample =>
      rw [samplesOf_snoc poses hs]
      exact ih.record sqrt hs

/-- A judgement counts the samples kept. -/
theorem evaluate_sampleCount [FloorSemiring K] (w : PositioningHealthWindow K) (now : Option K) :
    (w.evaluate now).sampleCount=w.registers.retained := by
  unfold PositioningHealthWindow.evaluate
  cases now with
  | none => rfl
  | some now =>
    dsimp only
    split
    · rfl
    split
    · rfl
    split <;> rfl

/-- The ring is a window of the last samples since the clock last went backwards:
its indices are in range, the loops sum the squared differences of the window's
positions to the newest one, the source is active if a sum exceeds the squared
threshold, and the samples that are kept are counted. -/
theorem window_slides [FloorSemiring K] (sqrt : K → K) (config : PositioningHealthConfig K) (poses : List (Pose K)) :
    ((recorded sqrt config poses).registers.first<config.frameNumber+1 ∧
      (recorded sqrt config poses).registers.cells.length=config.frameNumber+1 ∧
      ∀ seconds newest, let before := (recorded sqrt config poses).restarted seconds
        before.registers.behind before.registers.retained<config.frameNumber+1 ∧
        ∀ index∈visited (extended before.registers newest) (extended before.registers newest).retained (extended before.registers newest).first,
          index<config.frameNumber+1) ∧
    ((recorded sqrt config poses).active=true ↔ Varies config (samplesOf poses)) ∧
    (∀ now, ((recorded sqrt config poses).evaluate now).sampleCount=
      min config.frameNumber (samplesOf poses).length) ∧
    ∀ before pose sample, poses=before ++ [pose] → pose.sample=some sample → ∀ axis,
      let ring := extended ((recorded sqrt config before).restarted sample.1).registers sample.2
      sumSquares ring sample.2 axis ring.retained ring.first 0=
        variation (lastPositions (config.frameNumber+1) (samplesOf poses)) axis := by
  have hkeeps := recorded_keeps sqrt config poses
  refine ⟨⟨hkeeps.size ▸ hkeeps.valid.first_lt,hkeeps.size,fun seconds newest => ?_⟩,hkeeps.active,
    fun now => (evaluate_sampleCount _ now).trans hkeeps.retained,?_⟩
  · obtain ⟨_,hvalid,hsize,_⟩ := hkeeps.restarted seconds
    obtain ⟨hextended,hlength,_⟩ := hkeeps.lengthened seconds newest
    refine ⟨hsize ▸ hvalid.behind_lt _,fun index hmem => ?_⟩
    exact hlength ▸ visited_lt hextended _ hextended.first_lt index hmem
  · rintro before pose sample rfl hs axis
    obtain ⟨hvalid,_,hcontents⟩ := (recorded_keeps sqrt config before).lengthened sample.1 sample.2
    have hnewest : (lastPositions (config.frameNumber+1) (continued (samplesOf before) sample.1 ++ [sample])).getLast?=
        some sample.2 := by
      unfold lastPositions
      rw [List.map_append,List.map_singleton,List.drop_append_of_le_length,List.getLast?_concat]
      rw [List.length_map,List.length_append,List.length_singleton]
      omega
    dsimp only
    rw [sumSquares_contents hvalid,hcontents,samplesOf_snoc before hs]
    unfold variation
    rw [hnewest]

end Runs

end Ros1Adapter.PositioningWindow
