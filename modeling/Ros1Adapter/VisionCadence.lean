import Mathlib.Algebra.Order.Field.Rat
import Mathlib.Data.List.DropRight
import Mathlib.Data.List.GetD
import Mathlib.Tactic.FieldSimp
import Mathlib.Tactic.Linarith
import Mathlib.Tactic.Positivity
import Ros1Adapter.RingBuffers

/-!
# Cadence of vision publications

A sample is published a period after the last publication, or earlier while the
publications of a window are slower than the rate on average. Times are exact.
-/

namespace Ros1Adapter.VisionCadence

open RingBuffers

section Cadence

/-- Rate and the ring of the last published times. -/
structure VisionPublishCadence where
  /-- Target rate. -/
  targetRateHz : ℚ
  /-- Last published times. -/
  publishedTimes : CellRing ℚ

/-- A cadence of a rate and a window. -/
def VisionPublishCadence.start (rate : ℚ) (window : ℕ) : VisionPublishCadence := ⟨rate,.unused window⟩

/-- A sample is to be published. -/
def VisionPublishCadence.emits (c : VisionPublishCadence) (now : ℚ) : Bool :=
  let times := c.publishedTimes
  if times.retained=0 then true
  else
    let sinceLast := now-times.cell (times.behind (times.retained-1))
    if sinceLast<0 ∨ 1/c.targetRateHz ≤ sinceLast then true
    else
      let span := now-times.cell times.first
      decide (0<span) && decide (times.retained/span<c.targetRateHz)

/-- Take a sample. -/
def VisionPublishCadence.take (c : VisionPublishCadence) (now : ℚ) : Bool × VisionPublishCadence :=
  if c.emits now then
    let times := c.publishedTimes
    let written := times.write now
    (true,{ c with publishedTimes := if times.retained<times.cells.length then written.grown else written.turned })
  else (false,c)

/-- Accepted times and the cadence after samples. -/
def taken (c : VisionPublishCadence) : List ℚ → List ℚ × VisionPublishCadence
  | [] => ([],c)
  | now::rest =>
    let (emitted,after) := c.take now
    let (accepted,last) := taken after rest
    (if emitted then now::accepted else accepted,last)

/-- Accepted times of a rate and a window. -/
def accepted (rate : ℚ) (window : ℕ) (samples : List ℚ) : List ℚ := (taken (.start rate window) samples).1

/-- Cadence of a rate and a window after samples. -/
def after (rate : ℚ) (window : ℕ) (samples : List ℚ) : VisionPublishCadence := (taken (.start rate window) samples).2

/-- Samples are taken one after the other. -/
theorem taken_append (c : VisionPublishCadence) (first second : List ℚ) :
    taken c (first ++ second)=
      ((taken c first).1 ++ (taken (taken c first).2 second).1,(taken (taken c first).2 second).2) := by
  induction first generalizing c with
  | nil => rfl
  | cons now rest ih =>
    rw [List.cons_append,taken,taken]
    dsimp only
    rw [ih]
    cases (c.take now).1 <;> rfl

/-- One more sample. -/
theorem taken_snoc (rate : ℚ) (window : ℕ) (samples : List ℚ) (now : ℚ) :
    accepted rate window (samples ++ [now])=
      (if (after rate window samples).emits now then accepted rate window samples ++ [now]
        else accepted rate window samples) ∧
      after rate window (samples ++ [now])=((after rate window samples).take now).2 := by
  unfold accepted after
  rw [taken_append]
  generalize (taken (.start rate window) samples).2=c
  have hone : taken c [now]=(if c.emits now then [now] else [],(c.take now).2) := by
    have hstep : taken c [now]=(if (c.take now).1 then [now] else [],(c.take now).2) := rfl
    rw [hstep]
    unfold VisionPublishCadence.take
    by_cases hemits : c.emits now=true
    · rw [if_pos hemits,if_pos hemits]
      rfl
    · rw [if_neg hemits,if_neg hemits]
      rfl
  rw [hone]
  dsimp only
  refine ⟨?_,rfl⟩
  split
  · rfl
  · rw [List.append_nil]

end Cadence

section Spacing

/-- Times of which any two are far enough apart for a rate with a window of exceptions. -/
def Spaced (rate : ℚ) (window : ℕ) (times : List ℚ) : Prop :=
  ∀ i j, i < j → j<times.length → ((j : ℚ)-i-window+1)/rate ≤ times.getD j 0-times.getD i 0

/-- Positions of the first and the last time that meets a condition bound their number. -/
theorem filter_positions (times : List ℚ) (p : ℚ → Bool) :
    times.filter p=[] ∨ ∃ i j, i ≤ j ∧ j<times.length ∧ p (times.getD i 0)=true ∧ p (times.getD j 0)=true ∧
      (times.filter p).length ≤ j-i+1 := by
  induction times using List.reverseRecOn with
  | nil => exact Or.inl rfl
  | append_singleton times t ih =>
    have hold : ∀ i, i<times.length → (times ++ [t]).getD i 0=times.getD i 0 := fun i hi =>
      List.getD_append _ _ _ _ hi
    have hnew : (times ++ [t]).getD times.length 0=t := by
      rw [List.getD_append_right _ _ _ _ (le_refl _),Nat.sub_self]
      rfl
    rw [List.filter_append,List.length_append,List.length_append,List.length_singleton]
    by_cases ht : p t=true
    · rw [List.filter_cons_of_pos ht,List.filter_nil,List.length_singleton]
      refine Or.inr ?_
      rcases ih with hnone | ⟨i,j,hij,hj,hi,_,hcount⟩
      · refine ⟨times.length,times.length,le_refl _,Nat.lt_succ_self _,?_,?_,?_⟩
        · rw [hnew]
          exact ht
        · rw [hnew]
          exact ht
        · rw [hnone,List.length_nil]
          omega
      · refine ⟨i,times.length,by omega,Nat.lt_succ_self _,?_,?_,by omega⟩
        · rw [hold i (by omega)]
          exact hi
        · rw [hnew]
          exact ht
    · rw [List.filter_cons_of_neg ht,List.filter_nil,List.append_nil,List.length_nil,Nat.add_zero]
      refine ih.imp_right ?_
      rintro ⟨i,j,hij,hj,hi,hp,hcount⟩
      refine ⟨i,j,hij,by omega,?_,?_,hcount⟩
      · rw [hold i (by omega)]
        exact hi
      · rw [hold j hj]
        exact hp

variable {rate : ℚ} {window : ℕ} {times : List ℚ}

/-- An interval holds as many times as the rate gives, and a window more. -/
theorem Spaced.interval (h : Spaced rate window times) (hr : 0<rate) (hw : 1 ≤ window) (a : ℚ) {T : ℚ} (hT : 0 ≤ T) :
    ((times.filter (fun t => decide (a ≤ t) && decide (t ≤ a+T))).length : ℚ) ≤ rate*T+window := by
  have hproduct : 0 ≤ rate*T := mul_nonneg hr.le hT
  have hwindow : (1 : ℚ) ≤ window := Nat.one_le_cast.mpr hw
  rcases filter_positions times (fun t => decide (a ≤ t) && decide (t ≤ a+T)) with hnone | ⟨i,j,hij,hj,hi,hp,hcount⟩
  · rw [hnone,List.length_nil,Nat.cast_zero]
    linarith
  · rw [Bool.and_eq_true,decide_eq_true_eq,decide_eq_true_eq] at hi hp
    have hcast : ((times.filter (fun t => decide (a ≤ t) && decide (t ≤ a+T))).length : ℚ) ≤ (j : ℚ)-i+1 := by
      have hle : (times.filter (fun t => decide (a ≤ t) && decide (t ≤ a+T))).length+i ≤ j+1 := by omega
      have hreal : ((times.filter (fun t => decide (a ≤ t) && decide (t ≤ a+T))).length : ℚ)+i ≤ j+1 := by
        exact_mod_cast hle
      linarith
    rcases Nat.lt_or_eq_of_le hij with hlt | rfl
    · have hspan := h i j hlt hj
      rw [div_le_iff₀ hr] at hspan
      have hshort : (times.getD j 0-times.getD i 0)*rate ≤ T*rate :=
        mul_le_mul_of_nonneg_right (by linarith [hi.1,hp.2]) hr.le
      linarith
    · linarith

/-- A time behind all others is spaced if it keeps a period to the last one or a
window of periods to the one a window before. -/
theorem Spaced.snoc (h : Spaced rate window times) (hr : 0<rate) (hw : 1 ≤ window) {now : ℚ}
    (hlast : ∀ t∈times, t ≤ now)
    (hrule : times=[] ∨ 1/rate ≤ now-times.getD (times.length-1) 0 ∨
      (min window times.length : ℕ)/rate ≤ now-times.getD (times.length-min window times.length) 0) :
    Spaced rate window (times ++ [now]) := by
  have hold : ∀ i, i<times.length → (times ++ [now]).getD i 0=times.getD i 0 := fun i hi =>
    List.getD_append _ _ _ _ hi
  have hnew : (times ++ [now]).getD times.length 0=now := by
    rw [List.getD_append_right _ _ _ _ (le_refl _),Nat.sub_self]
    rfl
  have hmem : ∀ i, i<times.length → times.getD i 0 ≤ now := by
    intro i hi
    rw [List.getD_eq_getElem _ _ hi]
    exact hlast _ (List.getElem_mem hi)
  have hwindow : (1 : ℚ) ≤ window := Nat.one_le_cast.mpr hw
  intro i j hij hj
  rw [List.length_append,List.length_singleton] at hj
  rcases Nat.lt_or_eq_of_le (Nat.le_of_lt_succ hj) with hbefore | rfl
  · rw [hold i (by omega),hold j hbefore]
    exact h i j hij hbefore
  · rw [hold i hij,hnew,div_le_iff₀ hr]
    have hi := hmem i hij
    rcases hrule with hnone | hperiod | hburst
    · rw [hnone] at hij
      exact absurd hij (Nat.not_lt_zero i)
    · -- The last one keeps its distance to all before it.
      rw [div_le_iff₀ hr] at hperiod
      have hcast : ((times.length-1 : ℕ) : ℚ)=times.length-1 := Nat.cast_pred (Nat.lt_of_le_of_lt (Nat.zero_le i) hij)
      rcases Nat.lt_or_eq_of_le (Nat.le_sub_one_of_lt hij) with hfar | hnear
      · have hspan := h i (times.length-1) hfar (by omega)
        rw [div_le_iff₀ hr,hcast] at hspan
        linarith
      · rw [←hnear] at hcast hperiod
        linarith
    · rw [div_le_iff₀ hr] at hburst
      rcases le_or_gt window times.length with hfull | hfew
      · rw [Nat.min_eq_left hfull] at hburst
        have hcast : ((times.length-window : ℕ) : ℚ)=times.length-window := Nat.cast_sub hfull
        rcases Nat.lt_trichotomy i (times.length-window) with hfar | hsame | hnear
        · have hspan := h i (times.length-window) hfar (by omega)
          rw [div_le_iff₀ hr,hcast] at hspan
          linarith
        · rw [←hsame] at hcast hburst
          linarith
        · have hclose : (times.length : ℚ)+1 ≤ i+window := by
            have hle : times.length+1 ≤ i+window := by omega
            exact_mod_cast hle
          have hproduct := mul_nonneg (sub_nonneg.mpr hi) hr.le
          linarith
      · have hclose : (times.length : ℚ)+1 ≤ i+window := by
          have hle : times.length+1 ≤ i+window := by omega
          exact_mod_cast hle
        have hproduct := mul_nonneg (sub_nonneg.mpr hi) hr.le
        linarith

end Spacing

section Runs

variable {rate : ℚ} {window : ℕ}

/-- What a cadence keeps while times do not decrease. -/
structure Kept (rate : ℚ) (window : ℕ) (samples times : List ℚ) (c : VisionPublishCadence) : Prop where
  /-- The rate stays. -/
  targetRate : c.targetRateHz=rate
  /-- The indices of the ring are in range. -/
  valid : c.publishedTimes.Valid
  /-- The ring has the window's size. -/
  size : c.publishedTimes.cells.length=window
  /-- The ring holds the last accepted times in order. -/
  contents : c.publishedTimes.contents=times.drop (times.length-window)
  /-- Accepted times are samples. -/
  mem : ∀ t∈times, t∈samples
  /-- Accepted times are spaced. -/
  spaced : Spaced rate window times

/-- Number of times in the ring. -/
theorem Kept.retained {samples times : List ℚ} {c : VisionPublishCadence} (h : Kept rate window samples times c) :
    c.publishedTimes.retained=min window times.length := by
  have hlength := congrArg List.length h.contents
  rw [contents_length,List.length_drop] at hlength
  omega

/-- A cell of the ring is an accepted time. -/
theorem Kept.cell {samples times : List ℚ} {c : VisionPublishCadence} (h : Kept rate window samples times c) {i : ℕ}
    (hi : i < min window times.length) :
    c.publishedTimes.cell (c.publishedTimes.behind i)=times.getD (times.length-min window times.length+i) 0 := by
  have hi' : i<c.publishedTimes.retained := by
    rw [h.retained]
    exact hi
  have hposition : times.length-min window times.length=times.length-window := by omega
  rw [←contents_getD _ hi' 0,h.contents,hposition,List.getD_eq_getElem?_getD,List.getD_eq_getElem?_getD,List.getElem?_drop]

/-- An emitted sample is a period behind the last time, or a window of periods
behind the oldest one in the ring. -/
theorem Kept.emits {samples times : List ℚ} {c : VisionPublishCadence} (h : Kept rate window samples times c)
    (hr : 0<rate) (hw : 1 ≤ window) {now : ℚ} (hnow : ∀ t∈samples, t ≤ now) :
    (c.emits now=true → times=[] ∨ 1/rate ≤ now-times.getD (times.length-1) 0 ∨
      (min window times.length : ℕ)/rate ≤ now-times.getD (times.length-min window times.length) 0) ∧
    ((times=[] ∨ 1/rate ≤ now-times.getD (times.length-1) 0) → c.emits now=true) := by
  have hretained := h.retained
  rcases Nat.eq_zero_or_pos times.length with hnone | hsome
  · have hempty : times=[] := List.eq_nil_of_length_eq_zero hnone
    have hzero : c.publishedTimes.retained=0 := by omega
    refine ⟨fun _ => Or.inl hempty,fun _ => ?_⟩
    unfold VisionPublishCadence.emits
    dsimp only
    rw [if_pos hzero]
  · have hpos : 0 < min window times.length := by omega
    have hne : ¬c.publishedTimes.retained=0 := by omega
    have hlast : c.publishedTimes.cell (c.publishedTimes.behind (c.publishedTimes.retained-1))=
        times.getD (times.length-1) 0 := by
      rw [hretained,h.cell (Nat.sub_lt hpos Nat.one_pos)]
      congr 1
      omega
    have hfirst : c.publishedTimes.cell c.publishedTimes.first=times.getD (times.length-min window times.length) 0 := by
      have hcell := h.cell hpos
      rw [h.valid.behind_zero] at hcell
      exact hcell
    have hlate : ¬now-times.getD (times.length-1) 0<0 := by
      rw [List.getD_eq_getElem _ _ (Nat.sub_lt hsome Nat.one_pos)]
      have hle := hnow _ (h.mem _ (List.getElem_mem (Nat.sub_lt hsome Nat.one_pos)))
      linarith
    unfold VisionPublishCadence.emits
    dsimp only
    rw [if_neg hne,hlast,hfirst,h.targetRate,hretained]
    refine ⟨fun hemits => Or.inr ?_,fun hrule => ?_⟩
    · by_cases hperiod : now-times.getD (times.length-1) 0<0 ∨ 1/rate ≤ now-times.getD (times.length-1) 0
      · exact Or.inl (hperiod.resolve_left hlate)
      · rw [if_neg hperiod,Bool.and_eq_true,decide_eq_true_eq,decide_eq_true_eq] at hemits
        obtain ⟨hspan,hslow⟩ := hemits
        rw [div_lt_iff₀ hspan] at hslow
        refine Or.inr ?_
        rw [div_le_iff₀ hr]
        linarith
    · have hperiod := hrule.resolve_left (List.ne_nil_of_length_pos hsome)
      rw [if_pos (Or.inr hperiod)]

/-- One sample keeps it all. -/
theorem Kept.take {samples times : List ℚ} {c : VisionPublishCadence} (h : Kept rate window samples times c)
    (hr : 0<rate) (hw : 1 ≤ window) {now : ℚ} (hnow : ∀ t∈samples, t ≤ now) :
    Kept rate window (samples ++ [now]) (if c.emits now then times ++ [now] else times) (c.take now).2 := by
  have hretained := h.retained
  unfold VisionPublishCadence.take
  by_cases hemits : c.emits now=true
  · rw [if_pos hemits,if_pos hemits]
    have hspaced := h.spaced.snoc hr hw (fun t ht => hnow t (h.mem t ht)) ((h.emits hr hw hnow).1 hemits)
    have hmem : ∀ t∈times ++ [now], t∈samples ++ [now] := by
      intro t ht
      rcases List.mem_append.mp ht with ht | ht
      · exact List.mem_append_left _ (h.mem t ht)
      · exact List.mem_append_right _ ht
    dsimp only
    by_cases hroom : c.publishedTimes.retained<c.publishedTimes.cells.length
    · obtain ⟨hvalid,hcontents,hsize⟩ := h.valid.grown_spec hroom now
      rw [if_pos hroom]
      refine ⟨h.targetRate,hvalid,hsize.trans h.size,?_,hmem,hspaced⟩
      rw [h.size] at hroom
      have hold : times.length-window=0 := by omega
      have hnew : (times ++ [now]).length-window=0 := by
        rw [List.length_append,List.length_singleton]
        omega
      rw [hcontents,h.contents,hold,hnew]
      rfl
    · have hfull : c.publishedTimes.retained=c.publishedTimes.cells.length :=
        Nat.le_antisymm h.valid.retained_le (Nat.le_of_not_lt hroom)
      obtain ⟨hvalid,hcontents,hsize⟩ := h.valid.turned_spec hfull now
      rw [if_neg hroom]
      refine ⟨h.targetRate,hvalid,hsize.trans h.size,?_,hmem,hspaced⟩
      rw [h.size] at hfull
      have hnew : (times ++ [now]).length-window=times.length-window+1 := by
        rw [List.length_append,List.length_singleton]
        omega
      rw [hcontents,h.contents,hnew,List.tail_drop,List.drop_append_of_le_length (by omega)]
  · rw [if_neg hemits,if_neg hemits]
    exact ⟨h.targetRate,h.valid,h.size,h.contents,fun t ht => List.mem_append_left _ (h.mem t ht),h.spaced⟩

/-- Samples that do not decrease keep it all. -/
theorem taken_kept (hr : 0<rate) (hw : 1 ≤ window) (samples : List ℚ) (hs : samples.Pairwise (· ≤ ·)) :
    Kept rate window samples (accepted rate window samples) (after rate window samples) := by
  induction samples using List.reverseRecOn with
  | nil =>
    refine ⟨rfl,unused_valid hw,List.length_replicate,(unused_contents window).trans List.drop_nil.symm,fun t ht => ht,?_⟩
    intro i j _ hj
    exact absurd hj (Nat.not_lt_zero j)
  | append_singleton samples now ih =>
    obtain ⟨hbefore,_,hlast⟩ := List.pairwise_append.mp hs
    obtain ⟨haccepted,hafter⟩ := taken_snoc rate window samples now
    rw [haccepted,hafter]
    exact (ih hbefore).take hr hw (fun t ht => hlast t ht now (List.mem_singleton_self now))

/-- Accepted samples keep the rate but for a window: any two are far enough
apart, an interval holds as many as the rate gives and a window more, a sample a
period behind the last accepted one is accepted, and the ring holds the last
accepted times in order. -/
theorem cadence_bounded (hr : 0<rate) (hw : 1 ≤ window) (samples : List ℚ) (hs : samples.Pairwise (· ≤ ·)) :
    (∀ i j, i < j → j<(accepted rate window samples).length →
      ((j : ℚ)-i-window+1)/rate ≤ (accepted rate window samples).getD j 0-(accepted rate window samples).getD i 0) ∧
    (∀ a T : ℚ, 0 ≤ T → (((accepted rate window samples).filter
      (fun t => decide (a ≤ t) && decide (t ≤ a+T))).length : ℚ) ≤ rate*T+window) ∧
    (∀ before now rest, samples=before ++ now::rest →
      (∀ last, (accepted rate window before).getLast?=some last → 1/rate ≤ now-last) →
        ((after rate window before).take now).1=true) ∧
    (after rate window samples).publishedTimes.contents=
      (accepted rate window samples).drop
        ((accepted rate window samples).length-min window (accepted rate window samples).length) := by
  have hkept := taken_kept hr hw samples hs
  refine ⟨hkept.spaced,fun a T hT => hkept.spaced.interval hr hw a hT,?_,?_⟩
  · rintro before now rest rfl hlast
    obtain ⟨hbefore,_,horder⟩ := List.pairwise_append.mp hs
    have hnow : ∀ t∈before, t ≤ now := fun t ht => horder t ht now List.mem_cons_self
    have hemits : (after rate window before).emits now=true := by
      refine ((taken_kept hr hw before hbefore).emits hr hw hnow).2 ?_
      rcases List.eq_nil_or_concat (accepted rate window before) with hnone | ⟨init,last,hsome⟩
      · exact Or.inl hnone
      · refine Or.inr ?_
        have hperiod := hlast last (by rw [hsome,List.concat_eq_append,List.getLast?_concat])
        rw [hsome,List.concat_eq_append,List.length_append,List.length_singleton,Nat.add_sub_cancel,
          List.getD_append_right _ _ _ _ (le_refl _),Nat.sub_self]
        exact hperiod
    unfold VisionPublishCadence.take
    rw [if_pos hemits]
  · have hposition : (accepted rate window samples).length-min window (accepted rate window samples).length=
        (accepted rate window samples).length-window := by omega
    rw [hposition]
    exact hkept.contents

/-- The bounds at two samples of a hertz. -/
theorem cadence_bounded_hertz : ((0 : ℚ)<1 ∧ 1 ≤ 5 ∧ [(0 : ℚ),1].Pairwise (· ≤ ·)) ∧
    (after 1 5 [0,1]).publishedTimes.contents=(accepted 1 5 [0,1]).drop
      ((accepted 1 5 [0,1]).length-min 5 (accepted 1 5 [0,1]).length) := by
  have hsorted : [(0 : ℚ),1].Pairwise (· ≤ ·) := by simp
  exact ⟨⟨one_pos,by decide,hsorted⟩,(cadence_bounded one_pos (by decide) [0,1] hsorted).2.2.2⟩

end Runs

end Ros1Adapter.VisionCadence
