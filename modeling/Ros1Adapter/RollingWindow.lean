import Mathlib.Data.Int.Order.Basic
import Mathlib.Data.List.Basic

/-!
# Events in a rolling window

A list of times, newest first, is spaced when every time lies more than one
window after the one `limit` places before it. Then no window holds more than
`limit` of them, wherever it starts.
-/

namespace Ros1Adapter.RollingWindow

/-- Times, newest first, of which each lies more than `width` after the one `limit` places before. -/
def Spaced (limit : ℕ) (width : ℤ) (times : List ℤ) : Prop :=
  ∀ i first later, times[i]?=some later → times[i+limit]?=some first → first+width<later

/-- A time lies in a closed window. -/
def inWindow (start width time : ℤ) : Bool := decide (start ≤ time) && decide (time ≤ start+width)

variable {limit : ℕ} {width : ℤ} {times : List ℤ}

/-- Older times of a spaced list are spaced. -/
theorem spaced_tail {time : ℤ} (h : Spaced limit width (time::times)) : Spaced limit width times := by
  intro i first later hl hf
  refine h (i+1) first later ?_ ?_
  · simpa only [List.getElem?_cons_succ] using hl
  · have shift : i+1+limit=(i+limit)+1 := by omega
    rw [shift]
    simpa only [List.getElem?_cons_succ] using hf

/-- A new time keeps the list spaced when it lies more than a window after the
one that it makes the oldest of `limit+1`. -/
theorem spaced_cons {time : ℤ} (h : Spaced (limit+1) width times)
    (ht : ∀ first, times[limit]?=some first → first+width<time) : Spaced (limit+1) width (time::times) := by
  intro i first later hl hf
  cases i with
  | zero =>
    have same : later=time := by simpa using hl.symm
    have shift : 0+(limit+1)=limit+1 := by omega
    rw [shift,List.getElem?_cons_succ] at hf
    rw [same]
    exact ht first hf
  | succ i =>
    rw [List.getElem?_cons_succ] at hl
    have shift : i+1+(limit+1)=(i+(limit+1))+1 := by omega
    rw [shift,List.getElem?_cons_succ] at hf
    exact h i first later hl hf

/-- Later places of a list that falls hold no greater times. -/
theorem falling_drop (h : times.Pairwise (fun later first => first ≤ later)) {i : ℕ} {bound : ℤ}
    (hb : times[i]?=some bound) : ∀ time∈times.drop i, time ≤ bound := by
  induction times generalizing i with
  | nil => simp at hb
  | cons head rest ih =>
    obtain ⟨first,falls⟩ := List.pairwise_cons.mp h
    cases i with
    | zero =>
      have same : head=bound := by simpa using hb
      rw [List.drop_zero,← same]
      intro time mem
      rcases List.mem_cons.mp mem with here | later
      · exact le_of_eq here
      · exact first time later
    | succ i =>
      rw [List.getElem?_cons_succ] at hb
      rw [List.drop_succ_cons]
      exact ih falls hb

/-- No window of a spaced list holds more than `limit` times. -/
theorem window_count (hs : times.Pairwise (fun later first => first ≤ later)) (h : Spaced limit width times) (start : ℤ) :
    (times.filter (inWindow start width)).length ≤ limit := by
  induction times with
  | nil => simp
  | cons head rest ih =>
    by_cases inside : inWindow start width head=true
    · -- Everything `limit` places after the newest time in the window is too old for it.
      have recent : head ≤ start+width := by
        unfold inWindow at inside
        simp only [Bool.and_eq_true,decide_eq_true_eq] at inside
        exact inside.2
      have old : ((head::rest).drop limit).filter (inWindow start width)=[] := by
        refine List.filter_eq_nil_iff.mpr (fun time mem => ?_)
        cases bound : (head::rest)[limit]? with
        | none =>
          have short := List.getElem?_eq_none_iff.mp bound
          rw [List.drop_eq_nil_of_le short] at mem
          cases mem
        | some first =>
          have spaced := h 0 first head rfl (by simpa using bound)
          have falls := falling_drop hs bound time mem
          unfold inWindow
          simp only [Bool.and_eq_true,decide_eq_true_eq]
          omega
      have split_ : (head::rest).filter (inWindow start width)=
          ((head::rest).take limit).filter (inWindow start width) := by
        have parts := List.filter_append (p := inWindow start width) ((head::rest).take limit) ((head::rest).drop limit)
        rw [List.take_append_drop,old,List.append_nil] at parts
        exact parts
      rw [split_]
      calc (((head::rest).take limit).filter (inWindow start width)).length
          ≤ ((head::rest).take limit).length := List.length_filter_le ..
        _ ≤ limit := List.length_take_le ..
    · rw [List.filter_cons_of_neg inside]
      exact ih (List.pairwise_cons.mp hs).2 (spaced_tail h)

end Ros1Adapter.RollingWindow
