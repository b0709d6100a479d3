import Mathlib.Algebra.Order.Field.Basic
import Mathlib.Algebra.Order.Field.Rat
import Mathlib.Data.List.Chain
import Mathlib.Data.List.Induction
import Mathlib.Tactic.FieldSimp
import Mathlib.Tactic.Linarith

/-!
# Battery display

The charge of a battery is read off a curve of voltages, by the straight line
between two of its points. The voltage goes through a median of three samples
and a first order filter that starts anew after a gap. Numbers are exact.
-/

namespace Ros1Adapter.BatteryDisplay

section Curve

/-- Point of a curve. -/
structure BatteryCurvePoint where
  /-- Voltage. -/
  voltageV : ℚ
  /-- Charge at that voltage. -/
  percentage : ℚ

/-- Texts in front of and behind the one equality sign of an entry. -/
def splitEntry (entry : List Char) : Option (List Char × List Char) :=
  match entry.dropWhile (· ≠ '=') with
  | [] => none
  | _::after =>
    let before := entry.takeWhile (· ≠ '=')
    if before.isEmpty || after.isEmpty || after.contains '=' then none else some (before,after)

/-- One more point of a curve, given how a finite number is read. -/
def parsePoint (strtod : List Char → Option ℚ) (curve : List BatteryCurvePoint) (entry : Option (List Char)) :
    Except String (List BatteryCurvePoint) :=
  match splitEntry (entry.getD []) with
  | none => .error "battery curve points must use voltage=percentage"
  | some (before,after) =>
    match strtod before,strtod after with
    | some voltage,some percentage =>
      if percentage<0 ∨ 1<percentage then .error "battery curve percentage must be within [0,1]"
      else
        match curve.getLast? with
        | none => .ok [⟨voltage,percentage⟩]
        | some previous =>
          if voltage ≤ previous.voltageV then .error "battery curve voltages must increase strictly"
          else if percentage<previous.percentage then .error "battery curve percentages must not decrease"
          else .ok (curve ++ [⟨voltage,percentage⟩])
    | _,_ => .error "battery curve contains a non-finite point"

/-- Points of entries behind a curve. -/
def parsePoints (strtod : List Char → Option ℚ) :
    List BatteryCurvePoint → List (Option (List Char)) → Except String (List BatteryCurvePoint)
  | curve,[] => .ok curve
  | curve,entry::rest => do
    let longer ← parsePoint strtod curve entry
    parsePoints strtod longer rest

/-- Curve of entries; no entries make no curve. -/
def parseBatteryCurve (strtod : List Char → Option ℚ) (entries : List (Option (List Char))) :
    Except String (List BatteryCurvePoint) :=
  if entries.isEmpty then .ok []
  else if entries.length<2 then .error "battery curve requires at least two points"
  else parsePoints strtod [] entries

/-- Charge on the line to the first point that is not below a voltage. -/
def lineTo (voltage : ℚ) : BatteryCurvePoint → List BatteryCurvePoint → Option ℚ
  | _,[] => none
  | lower,upper::rest =>
    if upper.voltageV<voltage then lineTo voltage upper rest
    else
      let ratio := (voltage-lower.voltageV)/(upper.voltageV-lower.voltageV)
      some (lower.percentage+ratio*(upper.percentage-lower.percentage))

/-- Charge at a voltage, where it is finite. -/
def batteryPercentage (curve : List BatteryCurvePoint) (voltage : Option ℚ) : Option ℚ :=
  match voltage,curve,curve.getLast? with
  | some v,front::second::rest,some back =>
    if v ≤ front.voltageV then some front.percentage
    else if back.voltageV ≤ v then some back.percentage
    else lineTo v front (second::rest)
  | _,_,_ => none

end Curve

section Filter

/-- Smoothed voltage. -/
structure BatteryVoltageFilter where
  /-- Last samples, three at most. -/
  samples : List ℚ
  /-- Time of the last sample. -/
  lastSeconds : ℚ
  /-- Smoothed voltage. -/
  filteredV : ℚ

/-- A filter without samples. -/
def BatteryVoltageFilter.start : BatteryVoltageFilter := ⟨[],0,0⟩

/-- A call: voltage and time, where they are finite, and the smoothing factor of
the time that passed. -/
structure Reading where
  /-- Voltage. -/
  voltage : Option ℚ
  /-- Time. -/
  now : Option ℚ
  /-- Smoothing factor. -/
  alpha : ℚ

/-- Time and voltage of a valid sample. -/
def Reading.valid (r : Reading) : Option (ℚ × ℚ) :=
  match r.voltage,r.now with
  | some voltage,some now => if voltage ≤ 0 then none else some (now,voltage)
  | _,_ => none

/-- Median of samples. -/
def median (samples : List ℚ) : ℚ := (samples.mergeSort (· ≤ ·)).getD (samples.length/2) 0

/-- Take a sample. -/
def BatteryVoltageFilter.update (f : BatteryVoltageFilter) (r : Reading) : Option ℚ × BatteryVoltageFilter :=
  match r.valid with
  | none => (none,{ f with samples := [] })
  | some (now,voltage) =>
    let anew := f.samples.isEmpty || decide (now ≤ f.lastSeconds) || decide (5<now-f.lastSeconds)
    let filtered := if anew then voltage else f.filteredV
    let longer := (if anew then [] else f.samples) ++ [voltage]
    let samples := if 3<longer.length then longer.drop 1 else longer
    let filtered := if 1<samples.length then filtered+r.alpha*(median samples-filtered) else filtered
    (some filtered,⟨samples,now,filtered⟩)

/-- Filter after calls. -/
def filtered (readings : List Reading) : BatteryVoltageFilter :=
  readings.foldl (fun f r => (f.update r).2) .start

/-- Valid samples since the last reset after a call: an invalid sample, a time not
after the one before and a gap of more than five seconds reset. -/
def acceptReading (since : List (ℚ × ℚ)) (r : Reading) : List (ℚ × ℚ) :=
  match r.valid with
  | none => []
  | some (now,voltage) =>
    if since.getLast?.any (fun last => decide (last.1<now) && decide (now-last.1 ≤ 5)) then since ++ [(now,voltage)]
    else [(now,voltage)]

/-- Valid samples since the last reset. -/
def sinceReset (readings : List Reading) : List (ℚ × ℚ) := readings.foldl acceptReading []

end Filter

section Levels

/-- Points in order: voltages increase, charges do not decrease. -/
def Ordered (curve : List BatteryCurvePoint) : Prop :=
  curve.IsChain (fun a b => a.voltageV<b.voltageV ∧ a.percentage ≤ b.percentage) ∧
    ∀ p∈curve, 0 ≤ p.percentage ∧ p.percentage ≤ 1

/-- Charge at a voltage on a curve of points, held at its ends. -/
def level (voltage : ℚ) : BatteryCurvePoint → List BatteryCurvePoint → ℚ
  | a,[] => a.percentage
  | a,b::rest =>
    if b.voltageV<voltage then level voltage b rest
    else if voltage ≤ a.voltageV then a.percentage
    else a.percentage+(voltage-a.voltageV)/(b.voltageV-a.voltageV)*(b.percentage-a.percentage)

/-- One more accepted point keeps a curve ordered. -/
theorem parsePoint_ordered {strtod : List Char → Option ℚ} {curve longer : List BatteryCurvePoint}
    {entry : Option (List Char)} (h : Ordered curve) (hp : parsePoint strtod curve entry=.ok longer) :
    Ordered longer ∧ longer.length=curve.length+1 := by
  unfold parsePoint at hp
  split at hp
  · cases hp
  split at hp
  · rename_i voltage percentage _ _
    split at hp
    · cases hp
    rename_i hbounds
    rw [not_or,not_lt,not_lt] at hbounds
    split at hp
    · rename_i hnone
      have hempty := List.getLast?_eq_none_iff.mp hnone
      cases hp
      subst hempty
      refine ⟨⟨List.isChain_singleton _,fun p hmem => ?_⟩,rfl⟩
      rw [List.mem_singleton.mp hmem]
      exact hbounds
    · rename_i previous hprevious
      split at hp
      · cases hp
      rename_i hvoltage
      split at hp
      · cases hp
      rename_i hpercentage
      cases hp
      refine ⟨⟨?_,fun p hmem => ?_⟩,by rw [List.length_append,List.length_singleton]⟩
      · refine List.isChain_append.mpr ⟨h.1,List.isChain_singleton _,?_⟩
        intro x hx y hy
        have hxp : x=previous := (Option.some.inj (hprevious.symm.trans hx)).symm
        have hyn : y=⟨voltage,percentage⟩ := (Option.some.inj hy).symm
        rw [hxp,hyn]
        exact ⟨not_le.mp hvoltage,not_lt.mp hpercentage⟩
      · rcases List.mem_append.mp hmem with hmem | hmem
        · exact h.2 p hmem
        · rw [List.mem_singleton.mp hmem]
          exact hbounds
  · cases hp

/-- Accepted points keep a curve ordered. -/
theorem parsePoints_ordered {strtod : List Char → Option ℚ} (entries : List (Option (List Char)))
    {curve longer : List BatteryCurvePoint} (h : Ordered curve) (hp : parsePoints strtod curve entries=.ok longer) :
    Ordered longer ∧ longer.length=curve.length+entries.length := by
  induction entries generalizing curve with
  | nil =>
    cases hp
    exact ⟨h,rfl⟩
  | cons entry rest ih =>
    unfold parsePoints at hp
    cases hpoint : parsePoint strtod curve entry with
    | error message =>
      rw [hpoint] at hp
      cases hp
    | ok middle =>
      rw [hpoint] at hp
      obtain ⟨hordered,hlength⟩ := parsePoint_ordered h hpoint
      obtain ⟨hlonger,hsum⟩ := ih hordered hp
      refine ⟨hlonger,?_⟩
      rw [hsum,hlength,List.length_cons]
      omega

/-- An accepted curve that is not empty is ordered and has two points at least. -/
theorem parseBatteryCurve_ordered {strtod : List Char → Option ℚ} {entries : List (Option (List Char))}
    {curve : List BatteryCurvePoint} (hp : parseBatteryCurve strtod entries=.ok curve) (hne : curve≠[]) :
    Ordered curve ∧ ∃ a b rest, curve=a::b::rest := by
  unfold parseBatteryCurve at hp
  split at hp
  · cases hp
    exact absurd rfl hne
  split at hp
  · cases hp
  rename_i hlong
  obtain ⟨hordered,hlength⟩ := parsePoints_ordered entries ⟨List.isChain_nil,fun p hmem => absurd hmem List.not_mem_nil⟩ hp
  refine ⟨hordered,?_⟩
  match curve,hlength with
  | [],hlength => exact absurd rfl hne
  | [a],hlength =>
    rw [List.length_singleton,List.length_nil] at hlength
    omega
  | a::b::rest,_ => exact ⟨a,b,rest,rfl⟩

/-- The rest of an ordered curve is ordered. -/
theorem Ordered.rest {a : BatteryCurvePoint} {curve : List BatteryCurvePoint} (h : Ordered (a::curve)) : Ordered curve :=
  ⟨h.1.tail,fun p hmem => h.2 p (List.mem_cons_of_mem a hmem)⟩

/-- Neighbours in an ordered curve. -/
theorem Ordered.step {a b : BatteryCurvePoint} {rest : List BatteryCurvePoint} (h : Ordered (a::b::rest)) :
    a.voltageV<b.voltageV ∧ a.percentage ≤ b.percentage := (List.isChain_cons_cons.mp h.1).1

/-- The first point of an ordered curve has the least voltage and charge. -/
theorem Ordered.first_le {a p : BatteryCurvePoint} {curve : List BatteryCurvePoint} (h : Ordered (a::curve))
    (hp : p∈a::curve) : a.voltageV ≤ p.voltageV ∧ a.percentage ≤ p.percentage := by
  induction curve generalizing a with
  | nil =>
    rw [List.mem_singleton.mp hp]
    exact ⟨le_rfl,le_rfl⟩
  | cons b rest ih =>
    rcases List.mem_cons.mp hp with rfl | hp
    · exact ⟨le_rfl,le_rfl⟩
    · have hbelow := ih h.rest hp
      exact ⟨h.step.1.le.trans hbelow.1,h.step.2.trans hbelow.2⟩

/-- At and below the first voltage the charge is that of the first point. -/
theorem level_first {a : BatteryCurvePoint} {curve : List BatteryCurvePoint} {v : ℚ} (h : Ordered (a::curve))
    (hv : v ≤ a.voltageV) : level v a curve=a.percentage := by
  cases curve with
  | nil => rfl
  | cons b rest =>
    unfold level
    rw [if_neg (not_lt.mpr (hv.trans h.step.1.le)),if_pos hv]

/-- From the last voltage on the charge is that of the last point. -/
theorem level_last {a back : BatteryCurvePoint} {curve : List BatteryCurvePoint} {v : ℚ} (h : Ordered (a::curve))
    (hback : (a::curve).getLast?=some back) (hv : back.voltageV ≤ v) : level v a curve=back.percentage := by
  induction curve generalizing a with
  | nil =>
    have hsame : a=back := Option.some.inj hback
    rw [←hsame]
    rfl
  | cons b rest ih =>
    rw [List.getLast?_cons_cons] at hback
    have hlast := ih h.rest hback
    have hmem : back∈b::rest := List.mem_of_getLast? hback
    have hb := (h.rest.first_le hmem).1
    unfold level
    split
    · exact hlast
    · rename_i hle
      have heq : v=b.voltageV := le_antisymm (not_lt.mp hle) (hb.trans hv)
      rw [if_neg (not_le.mpr (h.step.1.trans_le heq.ge)),heq,div_self (sub_pos.mpr h.step.1).ne',one_mul,add_sub_cancel,
        ←level_first h.rest (heq.le),hlast]

/-- Past the first voltage the line to the next point is the charge. -/
theorem lineTo_level {a : BatteryCurvePoint} {curve : List BatteryCurvePoint} {v : ℚ} (hv : a.voltageV<v)
    {back : BatteryCurvePoint} (hback : (a::curve).getLast?=some back) (hle : v<back.voltageV) :
    lineTo v a curve=some (level v a curve) := by
  induction curve generalizing a with
  | nil =>
    have hsame : a=back := Option.some.inj hback
    rw [←hsame] at hle
    exact absurd hle hv.asymm
  | cons b rest ih =>
    rw [List.getLast?_cons_cons] at hback
    unfold lineTo level
    split
    · rename_i hb
      exact ih hb hback
    · rw [if_neg (not_le.mpr hv)]

/-- On an ordered curve the displayed charge is the charge at the voltage. -/
theorem batteryPercentage_level {a b : BatteryCurvePoint} {rest : List BatteryCurvePoint} (h : Ordered (a::b::rest))
    (v : ℚ) : batteryPercentage (a::b::rest) (some v)=some (level v a (b::rest)) := by
  obtain ⟨back,hback⟩ : ∃ back, (a::b::rest).getLast?=some back :=
    ⟨_,List.getLast?_eq_some_getLast (List.cons_ne_nil a (b::rest))⟩
  unfold batteryPercentage
  rw [hback]
  simp only
  split
  · rename_i hfirst
    rw [level_first h hfirst]
  split
  · rename_i hlast
    rw [level_last h hback hlast]
  · rename_i hfirst hlast
    exact lineTo_level (not_le.mp hfirst) hback (not_le.mp hlast)

/-- Where a voltage lies between two neighbours, so does the charge. -/
theorem segment_bounds {a b : BatteryCurvePoint} {v : ℚ} (h : a.voltageV<b.voltageV ∧ a.percentage ≤ b.percentage)
    (hlow : a.voltageV ≤ v) (hhigh : v ≤ b.voltageV) :
    a.percentage ≤ a.percentage+(v-a.voltageV)/(b.voltageV-a.voltageV)*(b.percentage-a.percentage) ∧
      a.percentage+(v-a.voltageV)/(b.voltageV-a.voltageV)*(b.percentage-a.percentage) ≤ b.percentage := by
  have hwidth : 0<b.voltageV-a.voltageV := sub_pos.mpr h.1
  have hrise : 0 ≤ b.percentage-a.percentage := sub_nonneg.mpr h.2
  have hratio : 0 ≤ (v-a.voltageV)/(b.voltageV-a.voltageV) := div_nonneg (sub_nonneg.mpr hlow) hwidth.le
  have hone : (v-a.voltageV)/(b.voltageV-a.voltageV) ≤ 1 := (div_le_one hwidth).mpr (sub_le_sub_right hhigh _)
  constructor
  · have hpart := mul_nonneg hratio hrise
    linarith
  · have hpart := mul_le_of_le_one_left hrise hone
    linarith

/-- The charge is that of the first point at least. -/
theorem first_le_level {a : BatteryCurvePoint} {curve : List BatteryCurvePoint} (h : Ordered (a::curve)) (v : ℚ) :
    a.percentage ≤ level v a curve := by
  induction curve generalizing a with
  | nil => exact le_rfl
  | cons b rest ih =>
    unfold level
    split
    · exact h.step.2.trans (ih h.rest)
    split
    · exact le_rfl
    · rename_i hb ha
      exact (segment_bounds h.step (not_le.mp ha).le (not_lt.mp hb)).1

/-- The charge is one at most. -/
theorem level_le_one {a : BatteryCurvePoint} {curve : List BatteryCurvePoint} (h : Ordered (a::curve)) (v : ℚ) :
    level v a curve ≤ 1 := by
  induction curve generalizing a with
  | nil => exact (h.2 a List.mem_cons_self).2
  | cons b rest ih =>
    unfold level
    split
    · exact ih h.rest
    split
    · exact (h.2 a List.mem_cons_self).2
    · rename_i hb ha
      have hbelow := (segment_bounds h.step (not_le.mp ha).le (not_lt.mp hb)).2
      exact hbelow.trans (h.2 b (List.mem_cons_of_mem a List.mem_cons_self)).2

/-- A higher voltage has no lower charge. -/
theorem level_mono {a : BatteryCurvePoint} {curve : List BatteryCurvePoint} (h : Ordered (a::curve)) {v w : ℚ}
    (hvw : v ≤ w) : level v a curve ≤ level w a curve := by
  induction curve generalizing a with
  | nil => exact le_rfl
  | cons b rest ih =>
    by_cases hv : v ≤ a.voltageV
    · rw [level_first h hv]
      exact first_le_level h w
    have ha : a.voltageV<v := not_le.mp hv
    by_cases hbv : b.voltageV<v
    · unfold level
      rw [if_pos hbv,if_pos (hbv.trans_le hvw)]
      exact ih h.rest
    have hvb : v ≤ b.voltageV := not_lt.mp hbv
    by_cases hbw : b.voltageV<w
    · -- the two voltages lie on both sides of the next point
      have hv' := (segment_bounds h.step ha.le hvb).2
      unfold level
      rw [if_neg hbv,if_neg hv,if_pos hbw]
      exact hv'.trans (first_le_level h.rest w)
    · unfold level
      rw [if_neg hbv,if_neg hv,if_neg hbw,if_neg (not_le.mpr (ha.trans_le hvw))]
      have hwidth : 0<b.voltageV-a.voltageV := sub_pos.mpr h.step.1
      have hrise : 0 ≤ b.percentage-a.percentage := sub_nonneg.mpr h.step.2
      have hratio := div_le_div_of_nonneg_right (sub_le_sub_right hvw a.voltageV) hwidth.le
      have hpart := mul_le_mul_of_nonneg_right hratio hrise
      linarith

/-- At a point of the curve the charge is that of the point. -/
theorem level_at {a p : BatteryCurvePoint} {curve : List BatteryCurvePoint} (h : Ordered (a::curve)) (hp : p∈a::curve) :
    level p.voltageV a curve=p.percentage := by
  induction curve generalizing a with
  | nil =>
    rw [List.mem_singleton.mp hp]
    rfl
  | cons b rest ih =>
    rcases List.mem_cons.mp hp with rfl | hp
    · exact level_first h le_rfl
    have hbelow := (h.rest.first_le hp).1
    unfold level
    split
    · exact ih h.rest hp
    · rename_i hb
      have heq : p.voltageV=b.voltageV := le_antisymm (not_lt.mp hb) hbelow
      rw [if_neg (not_le.mpr (h.step.1.trans_le heq.ge)),heq,div_self (sub_pos.mpr h.step.1).ne',one_mul,add_sub_cancel,
        ←level_first h.rest heq.le]
      exact ih h.rest hp

end Levels

section Smoothing

/-- Voltages of valid samples since the last reset. -/
def acceptedVoltages (readings : List Reading) : List ℚ := (sinceReset readings).map Prod.snd

/-- Smallest and largest of voltages. -/
structure Extremes (voltages : List ℚ) (low high : ℚ) : Prop where
  /-- The smallest is one of them. -/
  low_mem : low∈voltages
  /-- The largest is one of them. -/
  high_mem : high∈voltages
  /-- All lie between. -/
  between : ∀ v∈voltages, low ≤ v ∧ v ≤ high

/-- Voltages that are not empty have a smallest and a largest. -/
theorem extremes_exist {voltages : List ℚ} (h : voltages≠[]) : ∃ low high, Extremes voltages low high := by
  induction voltages with
  | nil => exact absurd rfl h
  | cons v rest ih =>
    by_cases hrest : rest=[]
    · subst hrest
      refine ⟨v,v,List.mem_singleton_self v,List.mem_singleton_self v,fun x hx => ?_⟩
      rw [List.mem_singleton.mp hx]
      exact ⟨le_rfl,le_rfl⟩
    · obtain ⟨low,high,hlow,hhigh,hbetween⟩ := ih hrest
      refine ⟨min v low,max v high,?_,?_,fun x hx => ?_⟩
      · rcases min_choice v low with hmin | hmin
        · rw [hmin]
          exact List.mem_cons_self
        · rw [hmin]
          exact List.mem_cons_of_mem v hlow
      · rcases max_choice v high with hmax | hmax
        · rw [hmax]
          exact List.mem_cons_self
        · rw [hmax]
          exact List.mem_cons_of_mem v hhigh
      · rcases List.mem_cons.mp hx with rfl | hx
        · exact ⟨min_le_left _ _,le_max_left _ _⟩
        · have hxb := hbetween x hx
          exact ⟨(min_le_right _ _).trans hxb.1,hxb.2.trans (le_max_right _ _)⟩

/-- The median is one of the samples. -/
theorem median_mem {samples : List ℚ} (h : samples≠[]) : median samples∈samples := by
  have hlength : (samples.mergeSort (· ≤ ·)).length=samples.length := List.length_mergeSort samples
  have hpos := List.length_pos_of_ne_nil h
  have hin : samples.length/2<(samples.mergeSort (· ≤ ·)).length := by omega
  unfold median
  rw [List.getD_eq_getElem?_getD,List.getElem?_eq_getElem hin,Option.getD_some]
  exact List.mem_mergeSort.mp (List.getElem_mem hin)

/-- What a filter keeps of the samples since the last reset. -/
structure Keeps (f : BatteryVoltageFilter) (since : List (ℚ × ℚ)) : Prop where
  /-- Samples are kept where there are any. -/
  empty_iff : f.samples=[] ↔ since=[]
  /-- Kept samples are among them. -/
  samples_mem : ∀ v∈f.samples, v∈since.map Prod.snd
  /-- The last time. -/
  last_time : ∀ last∈since.getLast?, f.lastSeconds=last.1
  /-- The estimate lies between any bounds of them. -/
  estimate : since≠[] → ∀ low high, (∀ v∈since.map Prod.snd, low ≤ v ∧ v ≤ high) → low ≤ f.filteredV ∧ f.filteredV ≤ high

/-- A part of the way from one bounded value to another is bounded. -/
theorem part_bounds {low high source target alpha : ℚ} (halpha : 0<alpha ∧ alpha<1) (hf : low ≤ source ∧ source ≤ high)
    (ht : low ≤ target ∧ target ≤ high) :
    low ≤ source+alpha*(target-source) ∧ source+alpha*(target-source) ≤ high := by
  have hlow := mul_nonneg halpha.1.le (sub_nonneg.mpr ht.1)
  have hlow' := mul_nonneg (sub_pos.mpr halpha.2).le (sub_nonneg.mpr hf.1)
  have hhigh := mul_nonneg halpha.1.le (sub_nonneg.mpr ht.2)
  have hhigh' := mul_nonneg (sub_pos.mpr halpha.2).le (sub_nonneg.mpr hf.2)
  constructor <;> linarith

/-- A filter starts anew just where the samples since the last reset do. -/
theorem Keeps.anew_iff {f : BatteryVoltageFilter} {since : List (ℚ × ℚ)} (h : Keeps f since) (now : ℚ) :
    (f.samples.isEmpty || decide (now ≤ f.lastSeconds) || decide (5<now-f.lastSeconds))=
      !since.getLast?.any (fun last => decide (last.1<now) && decide (now-last.1 ≤ 5)) := by
  cases hlast : since.getLast? with
  | none =>
    have hsince := List.getLast?_eq_none_iff.mp hlast
    rw [h.empty_iff.mpr hsince]
    rfl
  | some last =>
    have hsince : since≠[] := by
      rintro rfl
      cases hlast
    have hsamples : f.samples.isEmpty=false := by
      rw [List.isEmpty_eq_false_iff]
      exact mt h.empty_iff.mp hsince
    rw [hsamples,h.last_time last hlast,Option.any_some,Bool.false_or]
    simp only [Bool.not_and,←decide_not,not_lt,not_le]

/-- After the first sample. -/
theorem Keeps.first (now voltage : ℚ) : Keeps ⟨[voltage],now,voltage⟩ [(now,voltage)] := by
  refine ⟨⟨fun h => absurd h (List.cons_ne_nil _ _),fun h => absurd h (List.cons_ne_nil _ _)⟩,fun v hv => hv,fun last hlast => ?_,
    fun _ low high hbetween => hbetween voltage (List.mem_singleton_self voltage)⟩
  have hsame : (now,voltage)=last := Option.some.inj hlast
  rw [←hsame]

/-- After one more sample. -/
theorem Keeps.more {f : BatteryVoltageFilter} {since : List (ℚ × ℚ)} (h : Keeps f since) (hsince : since≠[]) {alpha : ℚ}
    (halpha : 0<alpha ∧ alpha<1) (now voltage : ℚ) {samples : List ℚ}
    (hsamples : samples=if 3<(f.samples ++ [voltage]).length then (f.samples ++ [voltage]).drop 1 else f.samples ++ [voltage]) :
    Keeps ⟨samples,now,if 1<samples.length then f.filteredV+alpha*(median samples-f.filteredV) else f.filteredV⟩
      (since ++ [(now,voltage)]) := by
  have hlast : samples≠[] := by
    rw [hsamples]
    split
    · rename_i hlong
      exact List.ne_nil_of_length_pos (by rw [List.length_drop]; omega)
    · exact List.append_ne_nil_of_right_ne_nil _ (List.cons_ne_nil _ _)
  have hmem : ∀ v∈samples, v∈(since ++ [(now,voltage)]).map Prod.snd := by
    intro v hv
    have hv' : v∈f.samples ++ [voltage] := by
      rw [hsamples] at hv
      split at hv
      · exact List.mem_of_mem_drop hv
      · exact hv
    rw [List.map_append]
    exact List.mem_append.mpr ((List.mem_append.mp hv').imp (h.samples_mem v) id)
  refine ⟨⟨fun he => absurd he hlast,fun he => absurd he (List.append_ne_nil_of_right_ne_nil _ (List.cons_ne_nil _ _))⟩,hmem,
    fun last hl => ?_,fun _ low high hbetween => ?_⟩
  · rw [List.getLast?_concat] at hl
    rw [←Option.some.inj hl]
  · have hold := h.estimate hsince low high (fun v hv => hbetween v (by
      rw [List.map_append]
      exact List.mem_append_left _ hv))
    simp only
    split
    · exact part_bounds halpha hold (hbetween _ (hmem _ (median_mem hlast)))
    · exact hold

/-- A call keeps what a filter keeps. -/
theorem Keeps.update {f : BatteryVoltageFilter} {since : List (ℚ × ℚ)} (h : Keeps f since) {r : Reading}
    (halpha : 0<r.alpha ∧ r.alpha<1) : Keeps (f.update r).2 (acceptReading since r) := by
  unfold BatteryVoltageFilter.update acceptReading
  cases hvalid : r.valid with
  | none =>
    exact ⟨⟨fun _ => rfl,fun _ => rfl⟩,fun v hv => absurd hv List.not_mem_nil,fun last hlast => absurd hlast (Option.not_mem_none last),
      fun hne => absurd rfl hne⟩
  | some sample =>
    obtain ⟨now,voltage⟩ := sample
    simp only
    rw [h.anew_iff now]
    cases hkept : since.getLast?.any (fun last => decide (last.1<now) && decide (now-last.1 ≤ 5)) with
    | false => exact Keeps.first now voltage
    | true =>
      have hsince : since≠[] := by
        rintro rfl
        cases hkept
      exact h.more hsince halpha now voltage rfl

/-- Calls keep what a filter keeps. -/
theorem filtered_keeps (readings : List Reading) (halpha : ∀ r∈readings, 0<r.alpha ∧ r.alpha<1) :
    Keeps (filtered readings) (sinceReset readings) := by
  induction readings using List.reverseRecOn with
  | nil => exact ⟨⟨fun _ => rfl,fun _ => rfl⟩,fun v hv => absurd hv List.not_mem_nil,
      fun last hlast => absurd hlast (Option.not_mem_none last),fun hne => absurd rfl hne⟩
  | append_singleton readings r ih =>
    have hbefore := ih (fun x hx => halpha x (List.mem_append_left _ hx))
    have hr := halpha r (List.mem_append_right _ (List.mem_singleton_self r))
    unfold filtered sinceReset
    rw [List.foldl_append,List.foldl_append]
    exact hbefore.update hr

/-- A valid sample gives the estimate, another one gives nothing. -/
theorem update_output (f : BatteryVoltageFilter) (r : Reading) :
    (f.update r).1=r.valid.map (fun _ => (f.update r).2.filteredV) := by
  unfold BatteryVoltageFilter.update
  cases r.valid with
  | none | some _ => rfl

/-- After a valid sample there are samples since the last reset. -/
theorem acceptedVoltages_ne_nil (readings : List Reading) {r : Reading} (hr : r.valid.isSome) :
    acceptedVoltages (readings ++ [r])≠[] := by
  obtain ⟨sample,hvalid⟩ := Option.isSome_iff_exists.mp hr
  unfold acceptedVoltages sinceReset
  rw [List.foldl_append]
  simp only [List.foldl_cons,List.foldl_nil,acceptReading,hvalid,ne_eq,List.map_eq_nil_iff]
  split
  · exact List.append_ne_nil_of_right_ne_nil _ (List.cons_ne_nil _ _)
  · exact List.cons_ne_nil _ _

/-- On every accepted curve that is not empty the displayed charge is defined for
every finite voltage, stays within zero and one, does not fall as the voltage rises
and is that of the curve at its points. After any calls every valid sample gives an
estimate between the smallest and the largest voltage since the last reset, and
its charge lies between the charges of these two. -/
theorem display_bounded {strtod : List Char → Option ℚ} {entries : List (Option (List Char))}
    {curve : List BatteryCurvePoint} (hparse : parseBatteryCurve strtod entries=.ok curve) (hcurve : curve≠[])
    {readings : List Reading} {r : Reading} (halpha : ∀ x∈readings ++ [r], 0<x.alpha ∧ x.alpha<1) :
    (∀ v w, v ≤ w → ∃ p q, batteryPercentage curve (some v)=some p ∧ batteryPercentage curve (some w)=some q ∧
      0 ≤ p ∧ p ≤ q ∧ q ≤ 1) ∧
    (∀ point∈curve, batteryPercentage curve (some point.voltageV)=some point.percentage) ∧
    (((filtered readings).update r).1.isSome ↔ r.valid.isSome) ∧
    ∀ output∈((filtered readings).update r).1,
      ∃ low high, Extremes (acceptedVoltages (readings ++ [r])) low high ∧ low ≤ output ∧ output ≤ high ∧
        ∃ least shown most, batteryPercentage curve (some low)=some least ∧ batteryPercentage curve (some output)=some shown ∧
          batteryPercentage curve (some high)=some most ∧ least ≤ shown ∧ shown ≤ most := by
  obtain ⟨hordered,a,b,rest,rfl⟩ := parseBatteryCurve_ordered hparse hcurve
  have hshown := batteryPercentage_level hordered
  refine ⟨fun v w hvw => ⟨_,_,hshown v,hshown w,?_,level_mono hordered hvw,level_le_one hordered w⟩,fun point hpoint => ?_,?_,
    fun output houtput => ?_⟩
  · exact (hordered.2 a List.mem_cons_self).1.trans (first_le_level hordered v)
  · rw [hshown,level_at hordered hpoint]
  · rw [update_output,Option.isSome_map]
  · rw [update_output] at houtput
    have hvalid : r.valid.isSome := by
      cases hr : r.valid with
      | none =>
        rw [hr] at houtput
        cases houtput
      | some sample => rfl
    obtain ⟨sample,hsample⟩ := Option.isSome_iff_exists.mp hvalid
    have hestimate : ((filtered readings).update r).2.filteredV=output := by
      rw [hsample] at houtput
      exact Option.some.inj houtput
    have hne := acceptedVoltages_ne_nil readings hvalid
    obtain ⟨low,high,hextremes⟩ := extremes_exist hne
    have hkeeps := filtered_keeps (readings ++ [r]) halpha
    have hstep : filtered (readings ++ [r])=((filtered readings).update r).2 := by
      unfold filtered
      rw [List.foldl_append]
      rfl
    have hbounds := hkeeps.estimate (mt (fun h => by unfold acceptedVoltages; rw [h]; rfl) hne) low high hextremes.between
    rw [hstep,hestimate] at hbounds
    exact ⟨low,high,hextremes,hbounds.1,hbounds.2,_,_,_,hshown low,hshown output,hshown high,
      level_mono hordered hbounds.1,level_mono hordered hbounds.2⟩

/-- Number of a text of decimal digits. -/
def digits (text : List Char) : Option ℚ :=
  some ((text.foldl (fun n c => 10*n+(c.toNat-48)) 0 : ℕ) : ℚ)

/-- A curve of two points and two samples. -/
theorem display_bounded_pair :
    ∃ low high, Extremes (acceptedVoltages ([⟨some 11,some 1,1/2⟩] ++ [⟨some 12,some 2,1/2⟩])) low high ∧
      ∃ output∈((filtered [⟨some 11,some 1,1/2⟩]).update ⟨some 12,some 2,1/2⟩).1, low ≤ output ∧ output ≤ high := by
  have hparse : parseBatteryCurve digits [some ['1','0','=','0'],some ['1','2','=','1']]=.ok [⟨10,0⟩,⟨12,1⟩] := by
    rfl
  have halpha : ∀ x∈[(⟨some 11,some 1,1/2⟩ : Reading)] ++ [⟨some 12,some 2,1/2⟩], 0<x.alpha ∧ x.alpha<1 := by
    intro x hx
    rcases List.mem_cons.mp hx with rfl | hx
    · norm_num
    · rw [List.mem_singleton.mp hx]
      norm_num
  obtain ⟨_,_,hsome,hbetween⟩ := display_bounded hparse (List.cons_ne_nil _ _) halpha
  have hvalid : (⟨some 12,some 2,1/2⟩ : Reading).valid.isSome := by
    have hpositive : ¬(12 : ℚ) ≤ 0 := by norm_num
    simp only [Reading.valid,if_neg hpositive,Option.isSome_some]
  obtain ⟨output,houtput⟩ := Option.isSome_iff_exists.mp (hsome.mpr hvalid)
  obtain ⟨low,high,hextremes,hlow,hhigh,_⟩ := hbetween output houtput
  exact ⟨low,high,hextremes,output,houtput,hlow,hhigh⟩

end Smoothing

end Ros1Adapter.BatteryDisplay
