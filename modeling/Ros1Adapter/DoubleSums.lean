import Ros1Adapter.DoubleBits

/-!
# Sums of doubles that do not go back

Zero, a positive double and positive infinity are closed under addition, since
rounding keeps the sign and only opposite infinities have no sum. Every such
double equals itself, and so does every finite one.
-/

namespace Ros1Adapter.DoubleSums

open DoubleBits Float.Model Float.Model.UnpackedFloat

section Unpacked

/-- A number that is zero or positive. -/
def Forward : UnpackedFloat → Prop
  | .infinity .positive => True
  | .zero _ => True
  | .finite .positive _ _ _ => True
  | _ => False

/-- The sign of packed components. -/
theorem unpackSign_packComponents {sign : Sign} {exponent : BitVec Format.binary64.exponentBits}
    {mantissa : BitVec Format.binary64.mantissaBitsWithoutImplicit} :
    unpackSign (packComponents Format.binary64 sign exponent mantissa)=sign.toBitVec := by
  ext i hi
  have first : i=0 := by
    omega
  subst first
  have top : (sign.toBitVec ++ exponent ++ mantissa : BitVec (1+11+52)).getLsbD 63=sign.toBitVec.getLsbD 0 := by
    rw [BitVec.getLsbD_append,BitVec.getLsbD_append]
    simp
  simp only [unpackSign,packComponents,BitVec.extractLsb,BitVec.getElem_cast,BitVec.getElem_extractLsb',Nat.add_zero]
  exact top

/-- Packed components with a positive sign are forward unless they encode no number. -/
theorem components_forward (exponent : BitVec Format.binary64.exponentBits)
    (mantissa : BitVec Format.binary64.mantissaBitsWithoutImplicit) (h : exponent = -1#_ → mantissa=0#_) :
    Forward (UnpackedFloat.unpack Format.binary64 (packComponents Format.binary64 .positive exponent mantissa)) := by
  have positive : Sign.ofBitVec Sign.positive.toBitVec=.positive := rfl
  unfold UnpackedFloat.unpack
  simp only [unpackMantissa_packComponents,unpackExponent_packComponents,unpackSign_packComponents,positive]
  split
  · next infinite =>
    rw [if_pos (h infinite)]
    trivial
  · split
    · split
      · trivial
      · trivial
    · trivial

/-- A packed zero is a zero. -/
theorem zero_forward (sign : Sign) :
    Forward (UnpackedFloat.unpack Format.binary64 (UnpackedFloat.pack Format.binary64 (.zero sign))) := by
  cases sign with
  | positive => exact components_forward _ _ (fun _ => rfl)
  | negative => exact trivial

/-- Packing a forward number keeps it forward. -/
theorem pack_forward {f : UnpackedFloat} (h : Forward f) :
    Forward (UnpackedFloat.unpack Format.binary64 (UnpackedFloat.pack Format.binary64 f)) := by
  cases f with
  | notANumber => exact h.elim
  | infinity sign =>
    cases sign with
    | positive => exact components_forward _ _ (fun _ => rfl)
    | negative => exact h.elim
  | zero sign => exact zero_forward sign
  | finite sign m e hm =>
    cases sign with
    | negative => exact h.elim
    | positive =>
      unfold UnpackedFloat.pack
      dsimp only
      split
      · exact components_forward _ _ (fun _ => rfl)
      · next small =>
        have normal : BitVec.ofNat 11 (e+Format.binary64.exponentBias+52).toNat≠ -1#11 := by
          intro same
          have value := congrArg BitVec.toNat same
          simp only [BitVec.toNat_ofNat] at value
          change _=2047 at value
          change ¬2^11 ≤ (e+Format.binary64.exponentBias+52).toNat+1 at small
          omega
        split
        · exact components_forward _ _ (fun never => absurd never normal)
        · exact components_forward _ _ (fun never => absurd never (by decide))

/-- Rounding keeps a positive sign. -/
theorem round_forward (m : ℕ) (e : Int) : Forward (UnpackedFloat.round Format.binary64 .positive m e) := by
  unfold UnpackedFloat.round UnpackedFloat.roundWithAccuracy
  dsimp only
  split
  · trivial
  · trivial

/-- Forward numbers have a forward sum. -/
theorem add_forward {a b : UnpackedFloat} (ha : Forward a) (hb : Forward b) :
    Forward (UnpackedFloat.add Format.binary64 a b) := by
  cases a with
  | notANumber => exact ha.elim
  | infinity s =>
    cases s with
    | negative => exact ha.elim
    | positive =>
      cases b with
      | notANumber => exact hb.elim
      | infinity t =>
        cases t with
        | negative => exact hb.elim
        | positive => exact trivial
      | zero _ | finite _ _ _ _ => exact trivial
  | zero s =>
    cases b with
    | notANumber => exact hb.elim
    | infinity _ | finite _ _ _ _ => exact hb
    | zero t =>
      show Forward (if (s==t)=true then .zero s else .zero .positive)
      split
      · trivial
      · trivial
  | finite s m e hm =>
    cases s with
    | negative => exact ha.elim
    | positive =>
      cases b with
      | notANumber => exact hb.elim
      | infinity t => exact hb
      | zero t => exact ha
      | finite t n f hn =>
        cases t with
        | negative => exact hb.elim
        | positive =>
          unfold UnpackedFloat.add UnpackedFloat.normalize
          dsimp only
          split
          · next below =>
            have less := Int.compare_eq_lt.mp below
            simp only [Sign.apply] at less
            omega
          · trivial
          · exact round_forward ..

end Unpacked

section Doubles

/-- A double that is zero or positive. -/
def NonNegative (x : Float) : Prop := Forward x.toModel.unpack

/-- Sums of such doubles are such doubles. -/
theorem NonNegative.add {x y : Float} (hx : NonNegative x) (hy : NonNegative y) : NonNegative (x+y) :=
  pack_forward (add_forward hx hy)

/-- Zero. -/
theorem nonNegative_zero : NonNegative 0 := by
  show Forward (UnpackedFloat.unpack Format.binary64 (UnpackedFloat.pack Format.binary64 (.zero .positive)))
  exact zero_forward .positive

/-- A double above zero. -/
theorem nonNegative_of_pos {x : Float} (h : 0<x) : NonNegative x := by
  have less : (UnpackedFloat.lt (0 : Float).toModel.unpack x.toModel.unpack)=true := of_decide_eq_true h
  have below := beq_iff_eq.mp less
  have zero : (0 : Float).toModel.unpack=.zero .positive := rfl
  rw [zero] at below
  unfold NonNegative
  cases value : x.toModel.unpack with
  | notANumber =>
    rw [value] at below
    cases below
  | infinity s | finite s _ _ _ =>
    rw [value] at below
    cases s with
    | positive => trivial
    | negative => cases below
  | zero s => trivial

/-- A number compares equal to itself. -/
theorem compare_self {f : UnpackedFloat} (h : f≠.notANumber) : f.compare f=some .eq := by
  cases f with
  | notANumber => exact absurd rfl h
  | infinity s => cases s <;> rfl
  | zero s => rfl
  | finite s m e hm =>
    cases s with
    | positive =>
      show some ((compare e e).then (compare m m))=some .eq
      simp
    | negative =>
      show some ((compare e e).then (compare m m)).swap=some .eq
      simp

/-- A double that is a number equals itself. -/
theorem beq_of_number {x : Float} (h : x.toModel.unpack≠.notANumber) : (x==x)=true := by
  have same := compare_self h
  show (x.toModel.unpack.compare x.toModel.unpack==some .eq)=true
  rw [same]
  rfl

/-- Equal numbers are equal the other way round. -/
theorem compare_eq_symm {f g : UnpackedFloat} (h : f.compare g=some .eq) : g.compare f=some .eq := by
  cases f with
  | notANumber => cases h
  | infinity s =>
    cases g with
    | notANumber | zero _ | finite _ _ _ _ => cases s <;> cases h
    | infinity t => cases s <;> cases t <;> cases h <;> rfl
  | zero s =>
    cases g with
    | notANumber => cases h
    | infinity t | finite t _ _ _ => cases t <;> cases h
    | zero t => rfl
  | finite s m e hm =>
    cases g with
    | notANumber | zero _ => cases s <;> cases h
    | infinity t => cases s <;> cases t <;> cases h
    | finite t n f hn =>
      have same : s=t → (compare e f).then (compare m n)=.eq → s=t ∧ e=f ∧ m=n := by
        intro signs ordered
        obtain ⟨exponents,mantissas⟩ := Ordering.then_eq_eq.mp ordered
        exact ⟨signs,Int.compare_eq_eq.mp exponents,Nat.compare_eq_eq.mp mantissas⟩
      have parts : s=t ∧ e=f ∧ m=n := by
        cases s with
        | positive =>
          cases t with
          | positive => exact same rfl (Option.some.inj h)
          | negative => cases h
        | negative =>
          cases t with
          | positive => cases h
          | negative =>
            refine same rfl ?_
            have swapped := Option.some.inj h
            exact Ordering.swap_eq_eq.mp swapped
      obtain ⟨signs,exponents,mantissas⟩ := parts
      subst signs exponents mantissas
      exact compare_self nofun

/-- Equality of doubles is symmetric. -/
theorem beq_symm {x y : Float} (h : (x==y)=true) : (y==x)=true := by
  have equal : x.toModel.unpack.compare y.toModel.unpack=some .eq := beq_iff_eq.mp h
  have swapped := compare_eq_symm equal
  show (y.toModel.unpack.compare x.toModel.unpack==some .eq)=true
  rw [swapped]
  rfl

/-- A double that is zero or positive equals itself. -/
theorem NonNegative.self {x : Float} (h : NonNegative x) : (x==x)=true := by
  refine beq_of_number (fun never => ?_)
  unfold NonNegative at h
  rw [never] at h
  exact h

/-- A finite double equals itself. -/
theorem finite_self {x : Float} (h : x.isFinite=true) : (x==x)=true := by
  refine beq_of_number (fun never => ?_)
  change x.toModel.unpack.isFinite=true at h
  rw [never] at h
  cases h

end Doubles

end Ros1Adapter.DoubleSums
