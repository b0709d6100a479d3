import Mathlib.Data.List.Basic
import Mathlib.Data.List.Induction
import Mathlib.Tactic.Common

/-!
# Rings of cells

A ring keeps the index of its oldest cell and the number of cells in use. Its
contents are read from the oldest cell on, round the end of the cells.
-/

namespace Ros1Adapter.RingBuffers

section Indices

variable {α : Type}

/-- Cells in a circle. -/
structure CellRing (α : Type) where
  /-- Cells. -/
  cells : List α
  /-- Index of the oldest cell in use. -/
  first : ℕ
  /-- Number of cells in use. -/
  retained : ℕ

/-- The indices of a ring are in range. -/
structure CellRing.Valid (r : CellRing α) : Prop where
  /-- The oldest cell exists. -/
  first_lt : r.first<r.cells.length
  /-- There are as many cells as are in use. -/
  retained_le : r.retained ≤ r.cells.length

/-- Index a number of cells behind the oldest one. -/
def CellRing.behind (r : CellRing α) (offset : ℕ) : ℕ := (r.first+offset)%r.cells.length

/-- Index of the next cell. -/
def CellRing.next (r : CellRing α) (index : ℕ) : ℕ := if index+1=r.cells.length then 0 else index+1

/-- Write behind the newest cell. -/
def CellRing.write (r : CellRing α) (value : α) : CellRing α := {
  r with cells := r.cells.set (r.behind r.retained) value }

/-- Use one more cell. -/
def CellRing.grown (r : CellRing α) : CellRing α := { r with retained := r.retained+1 }

/-- Give the oldest cell up. -/
def CellRing.shifted (r : CellRing α) : CellRing α := {
  r with first := r.next r.first, retained := r.retained-1 }

/-- Give the oldest cell up for one more. -/
def CellRing.turned (r : CellRing α) : CellRing α := { r with first := r.next r.first }

variable {r : CellRing α}

/-- Indices behind the oldest cell are in range. -/
theorem CellRing.Valid.behind_lt (h : r.Valid) (offset : ℕ) : r.behind offset<r.cells.length :=
  Nat.mod_lt _ (Nat.lt_of_le_of_lt (Nat.zero_le _) h.first_lt)

/-- The next index is the one behind. -/
theorem next_behind (r : CellRing α) (h : 0<r.cells.length) (offset : ℕ) :
    r.next (r.behind offset)=r.behind (offset+1) := by
  have hlt : (r.first+offset)%r.cells.length<r.cells.length := Nat.mod_lt _ h
  have hnext : (r.first+(offset+1))%r.cells.length=((r.first+offset)%r.cells.length+1)%r.cells.length := by
    rw [Nat.mod_add_mod,Nat.add_assoc]
  unfold CellRing.next CellRing.behind
  rw [hnext]
  split
  · rename_i hend
    rw [hend,Nat.mod_self]
  · exact (Nat.mod_eq_of_lt (by omega)).symm

/-- The oldest cell is the first one. -/
theorem CellRing.Valid.behind_zero (h : r.Valid) : r.behind 0=r.first := Nat.mod_eq_of_lt h.first_lt

/-- Different offsets within the ring are different cells. -/
theorem CellRing.Valid.behind_ne (h : r.Valid) {i j : ℕ} (hij : i < j) (hj : j<r.cells.length) :
    r.behind i≠r.behind j := by
  have hfirst := h.first_lt
  unfold CellRing.behind
  intro heq
  rcases Nat.lt_or_ge (r.first+i) r.cells.length with hi | hi
  · rw [Nat.mod_eq_of_lt hi] at heq
    rcases Nat.lt_or_ge (r.first+j) r.cells.length with hk | hk
    · rw [Nat.mod_eq_of_lt hk] at heq
      omega
    · rw [Nat.mod_eq_sub_mod hk,Nat.mod_eq_of_lt (by omega)] at heq
      omega
  · rw [Nat.mod_eq_sub_mod hi,Nat.mod_eq_of_lt (by omega),Nat.mod_eq_sub_mod (by omega : r.cells.length ≤ r.first+j),
      Nat.mod_eq_of_lt (by omega)] at heq
    omega

/-- The next index behind the oldest cell. -/
theorem CellRing.Valid.next_first (h : r.Valid) : r.next r.first=r.behind 1 := by
  have hbehind := next_behind r (Nat.lt_of_le_of_lt (Nat.zero_le _) h.first_lt) 0
  rw [h.behind_zero] at hbehind
  exact hbehind

/-- Indices behind the next cell. -/
theorem CellRing.Valid.next_offset (h : r.Valid) (offset : ℕ) :
    (r.next r.first+offset)%r.cells.length=r.behind (offset+1) := by
  rw [h.next_first]
  unfold CellRing.behind
  rw [Nat.mod_add_mod]
  congr 1
  omega

/-- Writing moves no index. -/
theorem write_behind (r : CellRing α) (value : α) (offset : ℕ) : (r.write value).behind offset=r.behind offset := by
  unfold CellRing.write CellRing.behind
  rw [List.length_set]

end Indices

section Contents

variable {α : Type} [Inhabited α]

/-- An unused ring. -/
def CellRing.unused (size : ℕ) : CellRing α := ⟨List.replicate size default,0,0⟩

/-- Cell at an index. -/
def CellRing.cell (r : CellRing α) (index : ℕ) : α := r.cells.getD index default

/-- Contents from the oldest cell on. -/
def CellRing.contents (r : CellRing α) : List α := (List.range r.retained).map (fun i => r.cell (r.behind i))

variable {r : CellRing α} {value : α}

/-- An unused ring is valid. -/
theorem unused_valid {size : ℕ} (h : 0<size) : (CellRing.unused size : CellRing α).Valid := by
  unfold CellRing.unused
  refine ⟨?_,Nat.zero_le _⟩
  rw [List.length_replicate]
  exact h

/-- An unused ring is empty. -/
theorem unused_contents (size : ℕ) : (CellRing.unused size : CellRing α).contents=[] := rfl

/-- There are as many contents as cells in use. -/
theorem contents_length (r : CellRing α) : r.contents.length=r.retained := by
  unfold CellRing.contents
  rw [List.length_map,List.length_range]

/-- Contents are the cells behind the oldest one. -/
theorem contents_getD (r : CellRing α) {i : ℕ} (h : i<r.retained) (other : α) :
    r.contents.getD i other=r.cell (r.behind i) := by
  unfold CellRing.contents
  rw [List.getD_eq_getElem?_getD,List.getElem?_map,List.getElem?_range h]
  rfl

/-- A written value is read. -/
theorem CellRing.Valid.write_cell (h : r.Valid) : (r.write value).cell (r.behind r.retained)=value := by
  unfold CellRing.write CellRing.cell
  rw [List.getD_eq_getElem?_getD,List.getElem?_set_self (h.behind_lt _)]
  rfl

/-- Other cells keep their values. -/
theorem write_other (r : CellRing α) (value : α) {index : ℕ} (h : index≠r.behind r.retained) :
    (r.write value).cell index=r.cell index := by
  unfold CellRing.write CellRing.cell
  rw [List.getD_eq_getElem?_getD,List.getD_eq_getElem?_getD,List.getElem?_set_ne (Ne.symm h)]

/-- A ring with a cell to spare takes one more value at the end. -/
theorem CellRing.Valid.grown_spec (h : r.Valid) (hroom : r.retained<r.cells.length) (value : α) :
    (r.write value).grown.Valid ∧ (r.write value).grown.contents=r.contents ++ [value] ∧
      (r.write value).grown.cells.length=r.cells.length := by
  have hlength : (r.write value).grown.cells.length=r.cells.length := by
    unfold CellRing.grown CellRing.write
    exact List.length_set
  refine ⟨⟨hlength ▸ h.first_lt,?_⟩,?_,hlength⟩
  · rw [hlength]
    exact hroom
  · have hlast : (r.write value).cell ((r.write value).behind r.retained)=value := by
      rw [write_behind]
      exact h.write_cell
    have hbefore : ∀ i∈List.range r.retained, (r.write value).cell ((r.write value).behind i)=r.cell (r.behind i) := by
      intro i hi
      rw [write_behind]
      exact write_other r value (h.behind_ne (List.mem_range.mp hi) hroom)
    unfold CellRing.contents
    change (List.range (r.retained+1)).map (fun i => (r.write value).cell ((r.write value).behind i))=_
    rw [List.range_succ,List.map_append,List.map_congr_left hbefore,List.map_singleton,hlast]

/-- Giving the oldest cell up leaves the others. -/
theorem CellRing.Valid.shifted_spec (h : r.Valid) :
    r.shifted.Valid ∧ r.shifted.contents=r.contents.tail ∧ r.shifted.cells.length=r.cells.length := by
  have hindex : ∀ i, r.shifted.behind i=r.behind (i+1) := h.next_offset
  refine ⟨⟨?_,?_⟩,?_,rfl⟩
  · change r.next r.first<r.cells.length
    rw [h.next_first]
    exact h.behind_lt 1
  · change r.retained-1 ≤ r.cells.length
    have := h.retained_le
    omega
  · unfold CellRing.contents
    cases hretained : r.retained with
    | zero =>
      have hnone : r.shifted.retained=0 := by
        unfold CellRing.shifted
        dsimp only
        rw [hretained]
      rw [hnone]
      rfl
    | succ k =>
      have hone : r.shifted.retained=k := by
        unfold CellRing.shifted
        dsimp only
        rw [hretained,Nat.add_sub_cancel]
      rw [hone,List.range_succ_eq_map,List.map_cons,List.tail_cons,List.map_map]
      refine List.map_congr_left (fun i _ => ?_)
      rw [hindex]
      rfl

/-- A full ring takes a value in place of its oldest one. -/
theorem CellRing.Valid.turned_spec (h : r.Valid) (hfull : r.retained=r.cells.length) (value : α) :
    (r.write value).turned.Valid ∧ (r.write value).turned.contents=r.contents.tail ++ [value] ∧
      (r.write value).turned.cells.length=r.cells.length := by
  have hlength : (r.write value).turned.cells.length=r.cells.length := by
    unfold CellRing.turned CellRing.write
    exact List.length_set
  have hnext : (r.write value).next (r.write value).first=r.next r.first := by
    unfold CellRing.next CellRing.write
    rw [List.length_set]
  have hindex : ∀ i, (r.write value).turned.behind i=r.behind (i+1) := by
    intro i
    have hoffset := h.next_offset i
    rw [←hnext,←hlength] at hoffset
    exact hoffset
  have hcells : ∀ index, (r.write value).turned.cell index=(r.write value).cell index := fun _ => rfl
  have hzero : r.behind r.cells.length=r.behind 0 := Nat.add_mod_right _ _
  refine ⟨⟨?_,?_⟩,?_,hlength⟩
  · rw [hlength]
    change (r.write value).next (r.write value).first<r.cells.length
    rw [hnext,h.next_first]
    exact h.behind_lt 1
  · rw [hlength]
    exact h.retained_le
  · obtain ⟨k,hk⟩ := Nat.exists_eq_succ_of_ne_zero (Nat.ne_of_gt (Nat.lt_of_le_of_lt (Nat.zero_le _) h.first_lt))
    have hretained : r.retained=k+1 := hfull.trans hk
    have hlast : (r.write value).turned.cell ((r.write value).turned.behind k)=value := by
      rw [hcells,hindex,←hretained]
      exact h.write_cell
    have hbefore : ∀ i∈List.range k, (r.write value).turned.cell ((r.write value).turned.behind i)=
        r.cell (r.behind (i+1)) := by
      intro i hi
      have hlt := List.mem_range.mp hi
      rw [hcells,hindex]
      refine write_other r value ?_
      rw [hfull,hzero]
      exact (h.behind_ne (Nat.succ_pos i) (by omega)).symm
    have hcount : (r.write value).turned.retained=k+1 := hretained
    unfold CellRing.contents
    rw [hcount,hretained,List.range_succ,List.map_append,List.map_congr_left hbefore,List.map_singleton,hlast,
      ←List.range_succ,List.range_succ_eq_map,List.map_cons,List.tail_cons,List.map_map]
    rfl

end Contents

end Ros1Adapter.RingBuffers
