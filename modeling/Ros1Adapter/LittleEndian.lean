import Mathlib.Data.Nat.Digits.Defs

/-!
# Numbers as bytes, least significant first

A word of a fixed width holds every number below a power of 256, and reading a
written word gives the number back. Bytes behind a word do not change it.
-/

namespace Ros1Adapter.LittleEndian

/-- Bytes of a stream. -/
abbrev Bytes := List UInt8

/-- A word of a fixed width; higher digits are dropped. -/
def wordBytes : ℕ → ℕ → Bytes
  | 0,_ => []
  | width+1,n => UInt8.ofNat (n%256)::wordBytes width (n/256)

/-- The number of a word, read from its first bytes; missing bytes are zero. -/
def wordValue : ℕ → Bytes → ℕ
  | 0,_ => 0
  | _+1,[] => 0
  | width+1,b::rest => b.toNat+256*wordValue width rest

/-- A word has its width. -/
theorem wordBytes_length (width n : ℕ) : (wordBytes width n).length=width := by
  induction width generalizing n with
  | zero => rfl
  | succ width ih => rw [wordBytes,List.length_cons,ih]

/-- A written word is read back, whatever follows it. -/
theorem wordValue_wordBytes {width n : ℕ} (h : n<256^width) (rest : Bytes) :
    wordValue width (wordBytes width n ++ rest)=n := by
  induction width generalizing n with
  | zero =>
    have zero : n=0 := by simpa using h
    rw [zero]
    rfl
  | succ width ih =>
    have low : (UInt8.ofNat (n%256)).toNat=n%256 := by
      rw [UInt8.toNat_ofNat']
      omega
    have high : n/256<256^width := by
      rw [pow_succ] at h
      omega
    rw [wordBytes,List.cons_append,wordValue,ih high,low]
    omega

/-- A word that was read is written back. -/
theorem wordBytes_wordValue {width : ℕ} {bytes : Bytes} (h : width ≤ bytes.length) :
    wordBytes width (wordValue width bytes)=bytes.take width := by
  induction width generalizing bytes with
  | zero => rfl
  | succ width ih =>
    cases bytes with
    | nil => cases h
    | cons b rest =>
      have byte : b.toNat<256 := b.toNat_lt
      have low : (b.toNat+256*wordValue width rest)%256=b.toNat := by omega
      have high : (b.toNat+256*wordValue width rest)/256=wordValue width rest := by omega
      rw [wordValue,wordBytes,low,high,ih (Nat.le_of_succ_le_succ h),List.take_succ_cons,UInt8.ofNat_toNat]

end Ros1Adapter.LittleEndian
