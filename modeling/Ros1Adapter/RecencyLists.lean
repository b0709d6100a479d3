import Mathlib.Data.List.Basic
import Mathlib.Data.List.Nodup

/-!
# Recency of uses

A history of uses, newest first, ranks every used value by its last use. A
bounded list of recently used values that is updated use by use holds the first
ones of that ranking, and a value leaves it when enough other values are used
after it.
-/

namespace Ros1Adapter.RecencyLists

variable {α : Type*} [DecidableEq α]

/-- Used values by their last use, newest first. -/
def recent : List α → List α
  | [] => []
  | value::history => value::(recent history).filter (· ≠ value)

/-- Use a value: it moves to the front, and the last ones above the limit leave. -/
def touch (limit : ℕ) (value : α) (held : List α) : List α := (value::held.filter (· ≠ value)).take limit

/-- Uses after the last use of a value. -/
def usesSince (value : α) (history : List α) : List α := history.takeWhile (· ≠ value)

/-- Ranking after one more use. -/
theorem recent_cons (value : α) (history : List α) :
    recent (value::history)=value::(recent history).filter (· ≠ value) := rfl

/-- The used values are the ones of the history. -/
@[simp] theorem mem_recent {value : α} {history : List α} : value∈recent history ↔ value∈history := by
  induction history with
  | nil => simp [recent]
  | cons first history ih =>
    by_cases h : value=first
    · simp [recent,h]
    · simp [recent,h,ih]

/-- Every used value is ranked once. -/
theorem recent_nodup (history : List α) : (recent history).Nodup := by
  induction history with
  | nil => exact List.nodup_nil
  | cons first history ih =>
    unfold recent
    rw [List.nodup_cons]
    refine ⟨?_,ih.filter _⟩
    rw [List.mem_filter]
    simp

/-- Removing one value shortens a list of distinct values by at most one. -/
theorem take_filter_take {held : List α} (h : held.Nodup) (value : α) (count : ℕ) :
    ((held.take (count+1)).filter (· ≠ value)).take count=(held.filter (· ≠ value)).take count := by
  induction held generalizing count with
  | nil => simp
  | cons first held ih =>
    rw [List.nodup_cons] at h
    rw [List.take_succ_cons]
    by_cases hfirst : first=value
    · have hheld : ∀ other∈held, (decide (other≠value))=true := by
        intro other ho
        have hne : other≠value := by
          rintro rfl
          exact h.1 (hfirst ▸ ho)
        simpa using hne
      have htaken : ∀ other∈held.take count, (decide (other≠value))=true :=
        fun other ho => hheld other (List.mem_of_mem_take ho)
      rw [List.filter_cons_of_neg (by simpa using hfirst),List.filter_cons_of_neg (by simpa using hfirst),
        List.filter_eq_self.mpr hheld,List.filter_eq_self.mpr htaken,List.take_take,Nat.min_self]
    · rw [List.filter_cons_of_pos (by simpa using hfirst),List.filter_cons_of_pos (by simpa using hfirst)]
      cases count with
      | zero => rfl
      | succ count =>
        rw [List.take_succ_cons,List.take_succ_cons,ih h.2 count]

/-- The held values follow the ranking use by use. -/
theorem touch_recent (limit : ℕ) (value : α) (history : List α) :
    touch limit value ((recent history).take limit)=(recent (value::history)).take limit := by
  unfold touch
  rw [recent_cons]
  cases limit with
  | zero => rfl
  | succ count => rw [List.take_succ_cons,List.take_succ_cons,take_filter_take (recent_nodup history)]

/-- The values used after the last use of a value rank before it. -/
theorem recent_split {value : α} {history : List α} (h : value∈history) :
    ∃ older, recent history=recent (usesSince value history) ++ value::older := by
  induction history with
  | nil => cases h
  | cons first history ih =>
    unfold usesSince
    by_cases hfirst : first=value
    · rw [List.takeWhile_cons_of_neg (by simpa using hfirst)]
      exact ⟨(recent history).filter (· ≠ first),by rw [←hfirst]; rfl⟩
    · have hmem : value∈history := (List.mem_cons.mp h).resolve_left (Ne.symm hfirst)
      obtain ⟨older,holder⟩ := ih hmem
      rw [List.takeWhile_cons_of_pos (by simpa using hfirst)]
      refine ⟨older.filter (· ≠ first),?_⟩
      rw [recent_cons,recent_cons,holder,List.filter_append,List.cons_append]
      congr 2
      exact List.filter_cons_of_pos (by simpa using Ne.symm hfirst)

/-- A used value is held exactly while fewer other values than the limit are used after it. -/
theorem mem_held_iff {value : α} {history : List α} (h : value∈history) (limit : ℕ) :
    value∈(recent history).take limit ↔ (recent (usesSince value history)).length<limit := by
  obtain ⟨older,hsplit⟩ := recent_split h
  have hnodup := recent_nodup history
  rw [hsplit] at hnodup ⊢
  have hfresh : value∉recent (usesSince value history) := by
    intro hin
    exact (List.nodup_append.mp hnodup).2.2 value hin value (List.mem_cons_self ..) rfl
  rw [List.take_append,List.mem_append]
  constructor
  · rintro (hin | hin)
    · exact absurd (List.mem_of_mem_take hin) hfresh
    · by_contra hlong
      have hzero : limit-(recent (usesSince value history)).length=0 := by omega
      rw [hzero] at hin
      cases hin
  · intro hlength
    obtain ⟨count,hcount⟩ : ∃ count, limit-(recent (usesSince value history)).length=count+1 :=
      ⟨limit-(recent (usesSince value history)).length-1,by omega⟩
    right
    rw [hcount,List.take_succ_cons]
    exact List.mem_cons_self ..

end Ros1Adapter.RecencyLists
