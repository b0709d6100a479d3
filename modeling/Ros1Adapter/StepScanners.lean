import Mathlib.Tactic.Common
import Mathlib.Data.List.Basic

/-!
# Scanners that repeat a step

A step reads some outputs off the front of a text, or stops. A scanner repeats
it; a step that shortens the text needs no more repetitions than the text has
letters, so the scan is the one of its first step followed by the scan of the
rest.
-/

namespace Ros1Adapter.StepScanners

variable {α β : Type} {step : List α → Option (List β × List α)}

/-- Outputs of a bounded number of steps and the text that is left. -/
def scan (step : List α → Option (List β × List α)) : ℕ → List α → List β × List α
  | 0,text => ([],text)
  | fuel+1,text =>
    match step text with
    | none => ([],text)
    | some (outs,rest) =>
      let more := scan step fuel rest
      (outs ++ more.1,more.2)

/-- Outputs of a text and the text that is left where the step stops. -/
def scanAll (step : List α → Option (List β × List α)) (text : List α) : List β × List α :=
  scan step text.length text

/-- A step that shortens its text. -/
def Shrinks (step : List α → Option (List β × List α)) : Prop :=
  ∀ {text outs rest}, step text=some (outs,rest) → rest.length<text.length

/-- Steps from a text to a later one, with their outputs. -/
inductive Reads (step : List α → Option (List β × List α)) : List α → List β → List α → Prop
  /-- No step. -/
  | done (text : List α) : Reads step text [] text
  /-- One step and those behind it. -/
  | next {text rest last : List α} {outs more : List β} (hs : step text=some (outs,rest))
      (hr : Reads step rest more last) : Reads step text (outs ++ more) last

/-- More repetitions than letters change nothing. -/
theorem scan_fuel (hs : Shrinks step) {text : List α} {fuel other : ℕ} (hf : text.length ≤ fuel)
    (ho : text.length ≤ other) : scan step fuel text=scan step other text := by
  induction fuel generalizing text other with
  | zero =>
    have hempty := List.length_eq_zero_iff.mp (Nat.le_zero.mp hf)
    cases other with
    | zero => rfl
    | succ other =>
      unfold scan
      cases hstep : step text with
      | none => rfl
      | some result =>
        have hshorter := hs hstep
        rw [hempty] at hshorter
        exact absurd hshorter (Nat.not_lt_zero _)
  | succ fuel ih =>
    cases other with
    | zero =>
      have hempty := List.length_eq_zero_iff.mp (Nat.le_zero.mp ho)
      unfold scan
      cases hstep : step text with
      | none => rfl
      | some result =>
        have hshorter := hs hstep
        rw [hempty] at hshorter
        exact absurd hshorter (Nat.not_lt_zero _)
    | succ other =>
      unfold scan
      cases hstep : step text with
      | none => rfl
      | some result =>
        obtain ⟨outs,rest⟩ := result
        have hshorter := hs hstep
        have hrest := @ih rest other (by omega) (by omega)
        dsimp only
        rw [hrest]

/-- A scan is its first step and the scan of the rest. -/
theorem scanAll_next (hs : Shrinks step) {text rest : List α} {outs : List β} (h : step text=some (outs,rest)) :
    scanAll step text=(outs ++ (scanAll step rest).1,(scanAll step rest).2) := by
  have hshorter := hs h
  unfold scanAll
  cases hlength : text.length with
  | zero =>
    rw [hlength] at hshorter
    exact absurd hshorter (Nat.not_lt_zero _)
  | succ fuel =>
    have hrest := @scan_fuel _ _ _ hs rest fuel rest.length (by omega) (Nat.le_refl _)
    unfold scan
    rw [h]
    dsimp only
    rw [hrest]
    cases rest.length with
    | zero | succ _ => rfl

/-- A scan goes on where steps have led. -/
theorem Reads.scanAll (hs : Shrinks step) {text last : List α} {outs : List β} (h : Reads step text outs last) :
    scanAll step text=(outs ++ (scanAll step last).1,(scanAll step last).2) := by
  induction h with
  | done text => rfl
  | next hstep hr ih => rw [scanAll_next hs hstep,ih,List.append_assoc]

end Ros1Adapter.StepScanners
