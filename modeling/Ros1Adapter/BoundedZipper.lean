import Mathlib.Data.List.Basic

/-!
# Bounded zippers

A zipper is a list with a cursor. Moving the cursor keeps the list, pushing a
new entry drops everything after the cursor and, in a full zipper, the oldest
entry. The number of entries beside the cursor never exceeds the limit.
-/

namespace Ros1Adapter.BoundedZipper

variable {α : Type}

/-- A list with a cursor. -/
@[ext] structure Zipper (α : Type) where
  /-- Entries before the cursor, oldest first. -/
  past : List α
  /-- Entry at the cursor. -/
  focus : α
  /-- Entries after the cursor, the nearest last. -/
  future : List α

/-- Moves of a zipper. -/
inductive Move (α : Type) where
  /-- Nothing moves. -/
  | stay
  /-- The cursor moves to the previous entry. -/
  | back
  /-- The cursor moves to the next entry. -/
  | forth
  /-- A new entry follows the cursor, which moves to it. -/
  | push (entry : α)
  /-- One entry is left. -/
  | restart (entry : α)

namespace Zipper

/-- The whole list, oldest first. -/
def entries (z : Zipper α) : List α := z.past ++ z.focus::z.future.reverse

/-- Entries beside the cursor. -/
def others (z : Zipper α) : ℕ := z.past.length+z.future.length

/-- The newest entries up to a limit. -/
def newest (limit : ℕ) (entries : List α) : List α := entries.drop (entries.length-limit)

/-- The zipper after a move; a cursor at the end stays there. -/
def move (limit : ℕ) (z : Zipper α) : Move α → Zipper α
  | .stay => z
  | .back =>
    match z.past.getLast? with
    | none => z
    | some entry => ⟨z.past.dropLast,entry,z.future ++ [z.focus]⟩
  | .forth =>
    match z.future.getLast? with
    | none => z
    | some entry => ⟨z.past ++ [z.focus],entry,z.future.dropLast⟩
  | .push entry => ⟨newest limit (z.past ++ [z.focus]),entry,[]⟩
  | .restart entry => ⟨[],entry,[]⟩

/-- A last element splits its list. -/
theorem dropLast_concat {entries : List α} {entry : α} (h : entries.getLast?=some entry) :
    entries.dropLast ++ [entry]=entries := List.dropLast_append_getLast? entry h

/-- A step back in a zipper with a past. -/
theorem move_back (limit : ℕ) {z : Zipper α} {entry : α} (h : z.past.getLast?=some entry) :
    z.move limit .back=⟨z.past.dropLast,entry,z.future ++ [z.focus]⟩ := by
  unfold move
  simp only [h]

/-- A step forth in a zipper with a future. -/
theorem move_forth (limit : ℕ) {z : Zipper α} {entry : α} (h : z.future.getLast?=some entry) :
    z.move limit .forth=⟨z.past ++ [z.focus],entry,z.future.dropLast⟩ := by
  unfold move
  simp only [h]

/-- A step back keeps the list. -/
theorem entries_back (limit : ℕ) (z : Zipper α) : (z.move limit .back).entries=z.entries := by
  cases h : z.past.getLast? with
  | none =>
    unfold move
    simp only [h]
  | some entry =>
    rw [move_back limit h]
    unfold entries
    have hp := dropLast_concat h
    conv_rhs => rw [←hp]
    simp

/-- A step forth keeps the list. -/
theorem entries_forth (limit : ℕ) (z : Zipper α) : (z.move limit .forth).entries=z.entries := by
  cases h : z.future.getLast? with
  | none =>
    unfold move
    simp only [h]
  | some entry =>
    rw [move_forth limit h]
    unfold entries
    have hf := dropLast_concat h
    conv_rhs => rw [←hf]
    simp

/-- A step forth undoes a step back. -/
theorem forth_back (limit : ℕ) {z : Zipper α} (h : z.past≠[]) :
    (z.move limit .back).move limit .forth=z := by
  obtain ⟨entry,he⟩ := List.getLast?_isSome.mpr h |> Option.isSome_iff_exists.mp
  rw [move_back limit he]
  have hf : (⟨z.past.dropLast,entry,z.future ++ [z.focus]⟩ : Zipper α).future.getLast?=some z.focus := by
    simp
  rw [move_forth limit hf]
  have hp := dropLast_concat he
  ext1
  · exact hp
  · rfl
  · simp

/-- The newest entries stay within the limit. -/
theorem newest_length (limit : ℕ) (entries : List α) : (newest limit entries).length≤limit := by
  unfold newest
  rw [List.length_drop]
  omega

/-- No move exceeds the limit of a bounded zipper. -/
theorem others_move {limit : ℕ} {z : Zipper α} (h : z.others≤limit) (m : Move α) :
    (z.move limit m).others≤limit := by
  cases m with
  | stay => exact h
  | back =>
    cases hp : z.past.getLast? with
    | none =>
      unfold move
      simp only [hp]
      exact h
    | some entry =>
      have hlen := congrArg List.length (dropLast_concat hp)
      rw [move_back limit hp]
      unfold others at h ⊢
      simp only [List.length_append,List.length_singleton] at hlen ⊢
      omega
  | forth =>
    cases hf : z.future.getLast? with
    | none =>
      unfold move
      simp only [hf]
      exact h
    | some entry =>
      have hlen := congrArg List.length (dropLast_concat hf)
      rw [move_forth limit hf]
      unfold others at h ⊢
      simp only [List.length_append,List.length_singleton] at hlen ⊢
      omega
  | push entry => exact newest_length limit _
  | restart entry => exact Nat.zero_le _

/-- The zipper after a list of moves. -/
def moves (limit : ℕ) (z : Zipper α) (list : List (Move α)) : Zipper α := list.foldl (move limit) z

/-- Steps back shorten the past one by one. -/
theorem past_back (limit : ℕ) {z : Zipper α} (h : z.past≠[]) :
    (z.move limit .back).past.length+1=z.past.length := by
  obtain ⟨entry,he⟩ := List.getLast?_isSome.mpr h |> Option.isSome_iff_exists.mp
  have hlen := congrArg List.length (dropLast_concat he)
  rw [move_back limit he]
  simpa using hlen

/-- Steps forth shorten the future one by one. -/
theorem future_forth (limit : ℕ) {z : Zipper α} (h : z.future≠[]) :
    (z.move limit .forth).future.length+1=z.future.length := by
  obtain ⟨entry,he⟩ := List.getLast?_isSome.mpr h |> Option.isSome_iff_exists.mp
  have hlen := congrArg List.length (dropLast_concat he)
  rw [move_forth limit he]
  simpa using hlen

/-- The entries beside the cursor are all entries but one. -/
theorem entries_length (z : Zipper α) : z.entries.length=z.others+1 := by
  unfold entries others
  rw [List.length_append,List.length_cons,List.length_reverse]
  omega

/-- As many steps forth as were made back restore the zipper. -/
theorem moves_back_forth (limit : ℕ) {z : Zipper α} {count : ℕ} (h : count≤z.past.length) :
    z.moves limit (List.replicate count .back ++ List.replicate count .forth)=z := by
  induction count generalizing z with
  | zero => rfl
  | succ count ih =>
    have hne : z.past≠[] := by
      intro hnil
      rw [hnil] at h
      simp at h
    have hlen := past_back limit hne
    have hinner := ih (z := z.move limit .back) (by omega)
    -- The outermost pair of moves surrounds the run of the induction hypothesis.
    have hsplit : List.replicate (count+1) Move.back ++ List.replicate (count+1) Move.forth=
        (Move.back : Move α)::(List.replicate count .back ++ List.replicate count .forth) ++ [.forth] := by
      rw [List.replicate_succ,List.replicate_succ']
      simp
    rw [hsplit]
    unfold moves at hinner ⊢
    rw [List.foldl_append,List.foldl_cons,List.foldl_nil,List.foldl_cons,hinner]
    exact forth_back limit hne

end Zipper

end Ros1Adapter.BoundedZipper
