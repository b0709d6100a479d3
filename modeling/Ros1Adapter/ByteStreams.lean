import Mathlib.Data.List.Infix

/-!
# Streams between two processes

One process writes at the end of a stream and the other takes from its
beginning, any number of elements at a time. A reader that collects what it
takes holds a slice of what was written, whatever was written meanwhile.
-/

namespace Ros1Adapter.ByteStreams

variable {α : Type}

/-- Everything that was written, and how much of it was taken. -/
structure Stream (α : Type) where
  /-- Written elements, the first ones first. -/
  written : List α := []
  /-- Number of taken elements. -/
  taken : ℕ := 0
  /-- Only what was written is taken. -/
  bound : taken ≤ written.length := by simp

/-- Write at the end. -/
def Stream.push (s : Stream α) (piece : List α) : Stream α where
  written := s.written ++ piece
  taken := s.taken
  bound := by
    rw [List.length_append]
    exact Nat.le_add_right_of_le s.bound

/-- Nothing waits to be taken. -/
def Stream.drained (s : Stream α) : Bool := decide (s.taken=s.written.length)

/-- Take some elements that wait. -/
def Stream.pull (s : Stream α) (count : ℕ) : Option (List α × Stream α) :=
  if h : s.taken+count ≤ s.written.length then some ((s.written.drop s.taken).take count,⟨s.written,s.taken+count,h⟩)
  else none

/-- Writing adds to what was written. -/
@[simp] theorem Stream.push_written (s : Stream α) (piece : List α) : (s.push piece).written=s.written ++ piece := rfl

/-- Writing nothing changes nothing. -/
theorem Stream.push_nil (s : Stream α) : s.push []=s := by
  obtain ⟨written,taken,bound⟩ := s
  simp [push]

/-- Taking is possible if enough waits, and writes nothing. -/
theorem Stream.pull_spec {s s' : Stream α} {count : ℕ} {piece : List α} (h : s.pull count=some (piece,s')) :
    s'.written=s.written ∧ s'.taken=s.taken+count ∧ piece=(s.written.drop s.taken).take count ∧ piece.length=count := by
  unfold pull at h
  split at h
  · rename_i enough
    obtain ⟨rfl,rfl⟩ := Prod.mk.inj (Option.some.inj h)
    refine ⟨rfl,rfl,rfl,?_⟩
    rw [List.length_take,List.length_drop]
    omega
  · cases h

/-- A reader collected what follows a position. -/
def Reads (start : ℕ) (got : List α) (s : Stream α) : Prop :=
  s.taken=start+got.length ∧ got=(s.written.drop start).take got.length

/-- A reader that begins at a position has collected nothing. -/
theorem reads_start {start : ℕ} {s : Stream α} (taken : s.taken=start) : Reads start [] s := ⟨taken,rfl⟩

/-- Taking more is collecting it. -/
theorem Reads.pull {start count : ℕ} {got piece : List α} {s s' : Stream α} (reads : Reads start got s)
    (h : s.pull count=some (piece,s')) : Reads start (got ++ piece) s' := by
  obtain ⟨written,taken,slice,size⟩ := Stream.pull_spec h
  refine ⟨?_,?_⟩
  · rw [taken,reads.1,List.length_append,size,Nat.add_assoc]
  · rw [written,List.length_append,size,List.take_add,← reads.2,List.drop_drop,← reads.1,slice]

/-- What is written meanwhile changes nothing. -/
theorem Reads.push {start : ℕ} {got : List α} {s : Stream α} (reads : Reads start got s) (piece : List α) :
    Reads start got (s.push piece) := by
  refine ⟨reads.1,?_⟩
  have bound := s.bound
  rw [reads.1] at bound
  rw [Stream.push_written,List.drop_append_of_le_length (Nat.le_of_add_right_le bound),
    List.take_append_of_le_length (by rw [List.length_drop]; omega)]
  exact reads.2

/-- What was collected is a slice of everything that will have been written. -/
theorem Reads.slice {start : ℕ} {got whole : List α} {s : Stream α} (reads : Reads start got s) (h : s.written <+: whole) :
    got=(whole.drop start).take got.length := by
  obtain ⟨rest,rfl⟩ := h
  have later := (reads.push rest).2
  exact later

end Ros1Adapter.ByteStreams
