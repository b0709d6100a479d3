import Mathlib

/-!
# Doubles by their bits

A double is determined by its sign, exponent and mantissa fields. IEEE equality
ignores the sign of zero and never holds of a value that is no number, so
equality together with an equal sign bit at zero is identity.
-/

namespace Ros1Adapter.DoubleBits

open Float.Model Float.Model.UnpackedFloat

/-- Bit pattern of a double. -/
abbrev Bits := BitVec Format.binary64.numBits

/-- Bit pattern of a double. -/
def bitsOf (x : Float) : Bits := x.toModel.toBits.toBitVec

/-- Sign bit of a double. -/
def signbit (x : Float) : Bool := decide (2^63≤x.toBits.toNat)

/-- Bits from their three fields. -/
theorem toNat_fields (b : Bits) :
    b.toNat=(unpackMantissa b).toNat+2^52*(unpackExponent b).toNat+2^63*(unpackSign b).toNat := by
  have hb : b.toNat<2^64 := b.isLt
  have hm : (unpackMantissa b).toNat=b.toNat%2^52 := by
    simp [unpackMantissa,BitVec.extractLsb_toNat]
  have he : (unpackExponent b).toNat=b.toNat/2^52%2^11 := by
    simp [unpackExponent,BitVec.extractLsb_toNat,Nat.shiftRight_eq_div_pow]
  have hs : (unpackSign b).toNat=b.toNat/2^63%2 := by
    simp [unpackSign,BitVec.extractLsb_toNat,Nat.shiftRight_eq_div_pow]
  rw [hm,he,hs]
  omega

/-- A double by the fields of its bits. -/
inductive Decoded (b : Bits) : UnpackedFloat → Prop
  | infinity (he : (unpackExponent b).toNat=2047) (hm : (unpackMantissa b).toNat=0) :
    Decoded b (.infinity (Sign.ofBitVec (unpackSign b)))
  | nan : Decoded b .notANumber
  | zero (he : (unpackExponent b).toNat=0) (hm : (unpackMantissa b).toNat=0) :
    Decoded b (.zero (Sign.ofBitVec (unpackSign b)))
  | finite {mantissa : ℕ} {exponent : Int} (h : 0 < mantissa)
    (hf : (exponent= -1074 ∧ (unpackExponent b).toNat=0 ∧ mantissa=(unpackMantissa b).toNat) ∨
      (exponent=(unpackExponent b).toNat-1075 ∧ mantissa=2^52+(unpackMantissa b).toNat)) :
    Decoded b (.finite (Sign.ofBitVec (unpackSign b)) mantissa exponent h)

/-- Every bit pattern decodes by its fields. -/
theorem unpack_decoded (b : Bits) : Decoded b (UnpackedFloat.unpack Format.binary64 b) := by
  have hbias : (Format.binary64.exponentBias : Int)=1023 := by decide
  unfold UnpackedFloat.unpack
  dsimp only
  split
  · rename_i he
    split
    · rename_i hm
      refine .infinity ?_ ?_
      · rw [he]
        decide
      · rw [hm]
        decide
    · exact .nan
  · split
    · rename_i he
      have hzero : (unpackExponent b).toNat=0 := by
        rw [he]
        decide
      split
      · rename_i hm
        refine .zero hzero ?_
        rw [hm]
        decide
      · refine .finite _ (Or.inl ⟨?_,hzero,rfl⟩)
        rw [hzero,hbias]
        decide
    · refine .finite _ (Or.inr ⟨?_,?_⟩)
      · rw [hbias]
        omega
      · -- The implicit bit stands above the stored mantissa.
        have hm := (unpackMantissa b).isLt
        rw [BitVec.toNat_append,←Nat.shiftLeft_add_eq_or_of_lt hm]
        simp [Nat.shiftLeft_eq]

/-- Signs that compare equal come from the same bit. -/
theorem sign_bit {s t : BitVec 1} (h : compare (Sign.ofBitVec s) (Sign.ofBitVec t)=.eq) :
    s.toNat=t.toNat := by
  revert s t
  decide

/-- Finite values that compare equal have the same sign, mantissa and exponent. -/
theorem compare_finite {s t : Sign} {m n : ℕ} {e f : Int} {hm : 0 < m} {hn : 0<n}
    (h : (UnpackedFloat.finite s m e hm).compare (.finite t n f hn)=some .eq) :
    compare s t=.eq ∧ m=n ∧ e=f := by
  cases s <;> cases t <;>
    simp [UnpackedFloat.compare,Ordering.then_eq_eq,Ordering.swap_eq_eq] at h
  · exact ⟨rfl,h.2,h.1⟩
  · exact ⟨rfl,h.2,h.1⟩

/-- Both patterns are zeros. -/
structure Zeros (b c : Bits) : Prop where
  /-- The first one decodes to zero. -/
  decoded : ∃ s, UnpackedFloat.unpack Format.binary64 b=.zero s
  /-- No exponent on the left. -/
  leftExponent : (unpackExponent b).toNat=0
  /-- No mantissa on the left. -/
  leftMantissa : (unpackMantissa b).toNat=0
  /-- No exponent on the right. -/
  rightExponent : (unpackExponent c).toNat=0
  /-- No mantissa on the right. -/
  rightMantissa : (unpackMantissa c).toNat=0

/-- Patterns that compare equal are zeros or the same. -/
theorem eq_of_compare {b c : Bits} (h : (UnpackedFloat.unpack Format.binary64 b).compare
    (UnpackedFloat.unpack Format.binary64 c)=some .eq) : Zeros b c ∨ b=c := by
  have hb := unpack_decoded b
  have hc := unpack_decoded c
  have hfb := toNat_fields b
  have hfc := toNat_fields c
  rw [←BitVec.toNat_inj]
  generalize hx : UnpackedFloat.unpack Format.binary64 b=x at h hb
  generalize UnpackedFloat.unpack Format.binary64 c=y at h hc
  cases hb with
  | nan => cases hc <;> simp [UnpackedFloat.compare] at h
  | infinity he hm =>
    cases hc with
    | infinity he' hm' =>
      have hs := sign_bit (Option.some.inj h)
      right
      rw [hfb,hfc,he,he',hm,hm',hs]
    | _ => cases hs : Sign.ofBitVec (unpackSign b) <;> simp [UnpackedFloat.compare,hs] at h
  | zero he hm =>
    cases hc with
    | zero he' hm' => exact Or.inl ⟨⟨_,hx⟩,he,hm,he',hm'⟩
    | nan => simp [UnpackedFloat.compare] at h
    | _ => cases hs : Sign.ofBitVec (unpackSign c) <;> simp [UnpackedFloat.compare,hs] at h
  | finite hp hf =>
    cases hc with
    | finite hp' hf' =>
      obtain ⟨hs,hm,he⟩ := compare_finite h
      have hlb : (unpackMantissa b).toNat<2^52 := (unpackMantissa b).isLt
      have hlc : (unpackMantissa c).toNat<2^52 := (unpackMantissa c).isLt
      right
      rw [hfb,hfc,sign_bit hs]
      omega
    | nan => simp [UnpackedFloat.compare] at h
    | infinity _ _ =>
      cases hs : Sign.ofBitVec (unpackSign b) <;> cases ht : Sign.ofBitVec (unpackSign c) <;>
        simp [UnpackedFloat.compare,hs,ht] at h
    | zero _ _ => cases hs : Sign.ofBitVec (unpackSign b) <;> simp [UnpackedFloat.compare,hs] at h

/-- Doubles with the same bits are the same. -/
theorem eq_of_bits {x y : Float} (h : bitsOf x=bitsOf y) : x=y := by
  obtain ⟨⟨a,ha⟩⟩ := x
  obtain ⟨⟨b,hb⟩⟩ := y
  have hbits : a=b := UInt64.eq_of_toBitVec_eq h
  subst hbits
  rfl

/-- Equal doubles are the same, up to the sign of zero. -/
theorem eq_of_beq {x y : Float} (h : (x==y)=true) (hs : (!(x==0) || signbit x==signbit y)=true) :
    x=y := by
  have hc : (UnpackedFloat.unpack Format.binary64 (bitsOf x)).compare
      (UnpackedFloat.unpack Format.binary64 (bitsOf y))=some .eq := beq_iff_eq.mp h
  rcases eq_of_compare hc with hz | heq
  · have hzero : (x==0)=true := by
      obtain ⟨s,hd⟩ := hz.decoded
      show ((UnpackedFloat.unpack Format.binary64 (bitsOf x)).compare _==some .eq)=true
      rw [hd]
      rfl
    rw [hzero] at hs
    have hsign : signbit x=signbit y := by simpa using hs
    have hiff : 2^63≤(bitsOf x).toNat ↔ 2^63≤(bitsOf y).toNat := decide_eq_decide.mp hsign
    have hx := toNat_fields (bitsOf x)
    have hy := toNat_fields (bitsOf y)
    have hlx : (unpackSign (bitsOf x)).toNat<2 := (unpackSign (bitsOf x)).isLt
    have hly : (unpackSign (bitsOf y)).toNat<2 := (unpackSign (bitsOf y)).isLt
    rw [hz.leftExponent,hz.leftMantissa] at hx
    rw [hz.rightExponent,hz.rightMantissa] at hy
    refine eq_of_bits (BitVec.eq_of_toNat_eq ?_)
    omega
  · exact eq_of_bits heq

end Ros1Adapter.DoubleBits
