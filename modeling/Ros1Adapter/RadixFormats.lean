import Mathlib.Algebra.Order.Field.Power
import Mathlib.Algebra.Order.Floor.Semifield
import Mathlib.Algebra.Order.Ring.Abs
import Mathlib.Data.Rat.Cast.Order
import Mathlib.Data.Rat.Floor
import Mathlib.Tactic.FieldSimp
import Mathlib.Tactic.Linarith
import Mathlib.Tactic.Positivity
import Mathlib.Tactic.Ring

/-!
# Floating point formats of any radix

A format has a radix, a number of digits and, where underflow is gradual, a
lowest unit. A positive ratio has a nearest number in a format, computed with
natural numbers. A number survives the way through another format that has
enough digits.
-/

namespace Ros1Adapter.RadixFormats

section Counts

/-- A radix. -/
structure Radix where
  /-- Number of digits. -/
  value : ℕ
  /-- There are at least two digits. -/
  large : 1<value

/-- The radix of binary numbers. -/
def Radix.binary : Radix := ⟨2,by decide⟩

/-- The radix of decimal numbers. -/
def Radix.decimal : Radix := ⟨10,by decide⟩

variable (b : Radix)

/-- A radix is positive. -/
theorem Radix.pos : 0<b.value := Nat.lt_of_succ_lt b.large

/-- A radix is a positive rational number. -/
theorem Radix.cast_pos : (0 : ℚ)<b.value := Nat.cast_pos.mpr b.pos

/-- A radix exceeds one. -/
theorem Radix.one_lt_cast : (1 : ℚ)<b.value := Nat.one_lt_cast.mpr b.large

/-- A power of a radix is positive. -/
theorem Radix.power_pos (power : Int) : (0 : ℚ)<(b.value : ℚ)^power := zpow_pos b.cast_pos power

/-- Exponents add up. -/
theorem Radix.power_add (first second : Int) :
    (b.value : ℚ)^(first+second)=(b.value : ℚ)^first*(b.value : ℚ)^second :=
  zpow_add₀ b.cast_pos.ne' first second

/-- Number of digits of a number. -/
def Radix.digitCount (n : ℕ) : ℕ := (Nat.toDigits b.value n).length

/-- A number has at least one digit. -/
theorem Radix.digitCount_pos (n : ℕ) : 0<b.digitCount n := Nat.length_toDigits_pos

/-- A number is below the power of its digits. -/
theorem Radix.lt_pow_digitCount (n : ℕ) : n<b.value^b.digitCount n :=
  (Nat.length_toDigits_le_iff b.large (b.digitCount_pos n)).mp (le_refl _)

/-- A positive number reaches the power of its leading digit. -/
theorem Radix.pow_digitCount_le {n : ℕ} (h : 0<n) : b.value^(b.digitCount n-1)≤n := by
  by_contra hlow
  rw [not_le] at hlow
  rcases Nat.eq_zero_or_pos (b.digitCount n-1) with hzero | hpos
  · rw [hzero,pow_zero] at hlow
    omega
  · have hcount := (Nat.length_toDigits_le_iff b.large hpos).mpr hlow
    have hself : (Nat.toDigits b.value n).length=b.digitCount n := rfl
    omega

end Counts

section Ratios

/-- A positive ratio. -/
structure Ratio where
  /-- Numerator. -/
  top : ℕ
  /-- Denominator. -/
  bottom : ℕ
  /-- The numerator is positive. -/
  top_pos : 0<top
  /-- The denominator is positive. -/
  bottom_pos : 0<bottom

/-- Value of a ratio. -/
def Ratio.value (q : Ratio) : ℚ := q.top/q.bottom

/-- A ratio times a power of a radix. -/
def Ratio.scaled (q : Ratio) (b : Radix) (power : Int) : Ratio :=
  if 0≤power then ⟨q.top*b.value^power.toNat,q.bottom,Nat.mul_pos q.top_pos (Nat.pow_pos b.pos),q.bottom_pos⟩
  else ⟨q.top,q.bottom*b.value^(-power).toNat,q.top_pos,Nat.mul_pos q.bottom_pos (Nat.pow_pos b.pos)⟩

/-- Value of a scaled ratio. -/
theorem Ratio.value_scaled (q : Ratio) (b : Radix) (power : Int) :
    (q.scaled b power).value=q.value*(b.value : ℚ)^power := by
  have hbottom : (q.bottom : ℚ)≠0 := Nat.cast_ne_zero.mpr q.bottom_pos.ne'
  unfold Ratio.scaled Ratio.value
  split
  · rename_i hpower
    have hcast : (b.value : ℚ)^power.toNat=(b.value : ℚ)^power := by
      rw [←zpow_natCast,Int.toNat_of_nonneg hpower]
    push_cast
    rw [hcast]
    ring
  · rename_i hpower
    have hcast : (b.value : ℚ)^(-power).toNat=((b.value : ℚ)^power)⁻¹ := by
      rw [←zpow_natCast,Int.toNat_of_nonneg (by omega),zpow_neg]
    have hne : (b.value : ℚ)^power≠0 := (b.power_pos power).ne'
    push_cast
    rw [hcast]
    field_simp

/-- Nearest number, ties to even. -/
def Ratio.rounded (q : Ratio) : ℕ :=
  let quotient := q.top/q.bottom
  let rest := q.top%q.bottom
  if 2*rest<q.bottom then quotient
  else if q.bottom<2*rest then quotient+1
  else quotient+quotient%2

/-- Rounding moves by at most a half. -/
theorem Ratio.rounded_error (q : Ratio) : |(q.rounded : ℚ)-q.value|≤1/2 := by
  have hbottom : (0 : ℚ)<q.bottom := Nat.cast_pos.mpr q.bottom_pos
  have hsplit := Nat.div_add_mod q.top q.bottom
  have hrest := Nat.mod_lt q.top q.bottom_pos
  have hnear : 2*(q.rounded*q.bottom)≤2*q.top+q.bottom ∧ 2*q.top≤2*(q.rounded*q.bottom)+q.bottom := by
    unfold Ratio.rounded
    dsimp only
    generalize q.top/q.bottom=quotient at hsplit
    generalize q.top%q.bottom=rest at hsplit hrest
    rw [mul_comm] at hsplit
    split
    · omega
    split
    · rw [Nat.add_mul]
      omega
    · rcases Nat.mod_two_eq_zero_or_one quotient with hparity | hparity
      · rw [hparity,Nat.add_zero]
        omega
      · rw [hparity,Nat.add_mul]
        omega
  have hupper : (2 : ℚ)*(q.rounded*q.bottom)≤2*q.top+q.bottom := by exact_mod_cast hnear.1
  have hlower : (2 : ℚ)*q.top≤2*(q.rounded*q.bottom)+q.bottom := by exact_mod_cast hnear.2
  have hvalue : q.value*q.bottom=q.top := by
    unfold Ratio.value
    field_simp
  rw [abs_le]
  constructor
  · nlinarith
  · nlinarith

/-- The number within less than a half is the nearest one. -/
theorem Ratio.rounded_of_close {q : Ratio} {n : ℕ} (h : |(n : ℚ)-q.value|<1/2) : q.rounded=n := by
  have herror := abs_le.mp q.rounded_error
  have hclose := abs_lt.mp h
  have hupper : (q.rounded : ℚ)<n+1 := by linarith [herror.2,hclose.1]
  have hlower : (n : ℚ)<q.rounded+1 := by linarith [herror.1,hclose.2]
  have hupper' : q.rounded<n+1 := by exact_mod_cast hupper
  have hlower' : n<q.rounded+1 := by exact_mod_cast hlower
  omega

/-- Rounding goes by the value. -/
theorem Ratio.rounded_congr {p q : Ratio} (h : p.value=q.value) : p.rounded=q.rounded := by
  have hp := p.bottom_pos
  have hq := q.bottom_pos
  have hpcast : (p.bottom : ℚ)≠0 := Nat.cast_ne_zero.mpr hp.ne'
  have hqcast : (q.bottom : ℚ)≠0 := Nat.cast_ne_zero.mpr hq.ne'
  have hcross : p.top*q.bottom=q.top*p.bottom := by
    unfold Ratio.value at h
    rw [div_eq_div_iff hpcast hqcast] at h
    exact_mod_cast h
  have hquotient : p.top/p.bottom=q.top/q.bottom := by
    rw [←Nat.mul_div_mul_right p.top p.bottom hq,←Nat.mul_div_mul_right q.top q.bottom hp,hcross,
      mul_comm p.bottom]
  have hrest : p.top%p.bottom*q.bottom=q.top%q.bottom*p.bottom := by
    rw [←Nat.mul_mod_mul_right,←Nat.mul_mod_mul_right,hcross,mul_comm p.bottom]
  unfold Ratio.rounded
  dsimp only
  rw [hquotient]
  generalize p.top%p.bottom=first at hrest
  generalize q.top%q.bottom=second at hrest
  have hleft (m n : ℕ) : m*q.bottom<n*q.bottom ↔ m<n := Nat.mul_lt_mul_right hq
  have hright (m n : ℕ) : m*p.bottom<n*p.bottom ↔ m<n := Nat.mul_lt_mul_right hp
  have hdouble : 2*first*q.bottom=2*second*p.bottom := by rw [mul_assoc,hrest,mul_assoc]
  have hless : 2*first<p.bottom ↔ 2*second<q.bottom := by
    rw [←hleft (2*first),←hright (2*second),hdouble,mul_comm p.bottom]
  have hmore : p.bottom<2*first ↔ q.bottom<2*second := by
    rw [←hleft p.bottom,←hright q.bottom,hdouble,mul_comm p.bottom]
  exact if_congr hless rfl (if_congr hmore rfl rfl)

end Ratios

section Leading

variable (b : Radix)

/-- Power of the leading digit. -/
def Ratio.leadingPower (q : Ratio) : Int :=
  if q.bottom ≤ q.top then (b.digitCount (q.top/q.bottom) : Int)-1
  else -(b.digitCount ((q.bottom-1)/q.top) : Int)

/-- A ratio lies between its leading power and the next. -/
theorem Ratio.leadingPower_spec (q : Ratio) :
    (b.value : ℚ)^q.leadingPower b≤q.value ∧ q.value<(b.value : ℚ)^(q.leadingPower b+1) := by
  have htop : (0 : ℚ)<q.top := Nat.cast_pos.mpr q.top_pos
  have hbottom : (0 : ℚ)<q.bottom := Nat.cast_pos.mpr q.bottom_pos
  unfold Ratio.leadingPower Ratio.value
  split
  · rename_i hlarge
    have hquotient : 0<q.top/q.bottom := Nat.div_pos hlarge q.bottom_pos
    have hcount := b.digitCount_pos (q.top/q.bottom)
    have hlow := b.pow_digitCount_le hquotient
    have hhigh := b.lt_pow_digitCount (q.top/q.bottom)
    generalize b.digitCount (q.top/q.bottom)=count at hcount hlow hhigh
    have hfirst : ((count : Int)-1)=((count-1 : ℕ) : Int) := by omega
    have hsecond : ((count : Int)-1+1)=(count : Int) := by omega
    rw [hsecond,hfirst,zpow_natCast,zpow_natCast,le_div_iff₀ hbottom,div_lt_iff₀ hbottom]
    have hl : b.value^(count-1)*q.bottom≤q.top := (Nat.le_div_iff_mul_le q.bottom_pos).mp hlow
    have hh : q.top<b.value^count*q.bottom := (Nat.div_lt_iff_lt_mul q.bottom_pos).mp hhigh
    exact ⟨by exact_mod_cast hl,by exact_mod_cast hh⟩
  · rename_i hsmall
    have hquotient : 0<(q.bottom-1)/q.top := by
      apply Nat.div_pos _ q.top_pos
      omega
    have hcount := b.digitCount_pos ((q.bottom-1)/q.top)
    have hlow := b.pow_digitCount_le hquotient
    have hhigh := b.lt_pow_digitCount ((q.bottom-1)/q.top)
    generalize b.digitCount ((q.bottom-1)/q.top)=count at hcount hlow hhigh
    have hl : b.value^(count-1)*q.top≤q.bottom-1 := (Nat.le_div_iff_mul_le q.top_pos).mp hlow
    have hh : q.bottom-1<b.value^count*q.top := (Nat.div_lt_iff_lt_mul q.top_pos).mp hhigh
    have hb := q.bottom_pos
    have hl' : b.value^(count-1)*q.top<q.bottom := by omega
    have hh' : q.bottom≤b.value^count*q.top := by omega
    have hnext : (-(count : Int)+1)=-((count-1 : ℕ) : Int) := by omega
    rw [hnext,zpow_neg,zpow_neg,zpow_natCast,zpow_natCast]
    have hpow : (0 : ℚ)<(b.value : ℚ)^count := pow_pos b.cast_pos _
    have hpow' : (0 : ℚ)<(b.value : ℚ)^(count-1) := pow_pos b.cast_pos _
    constructor
    · rw [inv_eq_one_div,div_le_div_iff₀ hpow hbottom]
      have hcast : (q.bottom : ℚ)≤(b.value : ℚ)^count*q.top := by exact_mod_cast hh'
      linarith
    · rw [inv_eq_one_div,div_lt_div_iff₀ hbottom hpow']
      have hcast : (b.value : ℚ)^(count-1)*q.top<q.bottom := by exact_mod_cast hl'
      linarith

/-- A leading power is fixed by the powers around the ratio. -/
theorem Ratio.leadingPower_of_bounds {q : Ratio} {power : Int} (hl : (b.value : ℚ)^power≤q.value)
    (hu : q.value<(b.value : ℚ)^(power+1)) : q.leadingPower b=power := by
  obtain ⟨hlow,hhigh⟩ := q.leadingPower_spec b
  have hfirst := (zpow_lt_zpow_iff_right₀ b.one_lt_cast).mp (hl.trans_lt hhigh)
  have hsecond := (zpow_lt_zpow_iff_right₀ b.one_lt_cast).mp (hlow.trans_lt hu)
  omega

/-- The leading power goes by the value. -/
theorem Ratio.leadingPower_congr {p q : Ratio} (h : p.value=q.value) :
    p.leadingPower b=q.leadingPower b := by
  obtain ⟨hlow,hhigh⟩ := q.leadingPower_spec b
  rw [←h] at hlow hhigh
  exact p.leadingPower_of_bounds b hlow hhigh

end Leading

section Formats

/-- A floating point format. -/
structure Format where
  /-- Radix. -/
  radix : Radix
  /-- Number of digits. -/
  digits : ℕ
  /-- There is a digit. -/
  digits_pos : 0<digits
  /-- Lowest unit of the last digit, where there is one. -/
  lowest : Option Int

/-- A positive number as a significand and the power of its last digit. -/
structure Floating where
  /-- Digits as one number. -/
  significand : ℕ
  /-- Power of the last digit. -/
  unit : Int
  deriving DecidableEq

/-- Value of a number. -/
def Floating.value (x : Floating) (b : Radix) : ℚ := x.significand*(b.value : ℚ)^x.unit

/-- A number with a positive significand as a ratio. -/
def Floating.ratio (x : Floating) (b : Radix) (h : 0<x.significand) : Ratio :=
  (Ratio.mk x.significand 1 h Nat.one_pos).scaled b x.unit

/-- Value of a number as a ratio. -/
theorem Floating.value_ratio (x : Floating) (b : Radix) (h : 0<x.significand) :
    (x.ratio b h).value=x.value b := by
  unfold Floating.ratio Floating.value
  rw [Ratio.value_scaled]
  simp [Ratio.value]

/-- A unit that respects the lowest one. -/
def atLeast : Option Int → Int → Int
  | none,unit => unit
  | some lowest,unit => max lowest unit

variable (f : Format)

/-- Unit of the last digit near a ratio. -/
def Format.unit (q : Ratio) : Int := atLeast f.lowest (q.leadingPower f.radix-(f.digits-1))

/-- Nearest number of a format. -/
def Format.nearest (q : Ratio) : Floating :=
  let unit := f.unit q
  let rounded := (q.scaled f.radix (-unit)).rounded
  if rounded=f.radix.value^f.digits then ⟨f.radix.value^(f.digits-1),unit+1⟩ else ⟨rounded,unit⟩

/-- The nearest number goes by the value. -/
theorem Format.nearest_congr {p q : Ratio} (h : p.value=q.value) : f.nearest p=f.nearest q := by
  have hunit : f.unit p=f.unit q := by
    unfold Format.unit
    rw [Ratio.leadingPower_congr f.radix h]
  have hrounded : (p.scaled f.radix (-f.unit p)).rounded=(q.scaled f.radix (-f.unit q)).rounded := by
    apply Ratio.rounded_congr
    rw [Ratio.value_scaled,Ratio.value_scaled,h,hunit]
  unfold Format.nearest
  dsimp only
  rw [hrounded,hunit]

/-- A carry keeps the value of the rounded ratio. -/
theorem Format.nearest_value (q : Ratio) :
    (f.nearest q).value f.radix=(q.scaled f.radix (-f.unit q)).rounded*(f.radix.value : ℚ)^f.unit q := by
  unfold Format.nearest Floating.value
  dsimp only
  split
  · rename_i hcarry
    have hdigits : (f.radix.value : ℚ)^f.digits=(f.radix.value : ℚ)^(f.digits-1)*f.radix.value :=
      (pow_sub_one_mul f.digits_pos.ne' _).symm
    rw [hcarry,f.radix.power_add,zpow_one]
    push_cast
    rw [hdigits]
    ring
  · rfl

/-- The nearest number lies within half a unit. -/
theorem Format.nearest_error (q : Ratio) :
    |(f.nearest q).value f.radix-q.value|≤(f.radix.value : ℚ)^f.unit q/2 := by
  have herror := (q.scaled f.radix (-f.unit q)).rounded_error
  have hunit := f.radix.power_pos (f.unit q)
  have hback : (q.scaled f.radix (-f.unit q)).value*(f.radix.value : ℚ)^f.unit q=q.value := by
    rw [Ratio.value_scaled,mul_assoc,←f.radix.power_add,neg_add_cancel,zpow_zero,mul_one]
  rw [nearest_value]
  nth_rewrite 1 [←hback]
  rw [←sub_mul,abs_mul,abs_of_pos hunit]
  have hscaled := mul_le_mul_of_nonneg_right herror hunit.le
  linarith

/-- The number within less than half a unit is the nearest one. -/
theorem Format.nearest_of_close {q : Ratio} {n : ℕ} {unit : Int} (hu : f.unit q=unit)
    (h : |n*(f.radix.value : ℚ)^unit-q.value|<(f.radix.value : ℚ)^unit/2) :
    f.nearest q=
      if n=f.radix.value^f.digits then ⟨f.radix.value^(f.digits-1),unit+1⟩ else ⟨n,unit⟩ := by
  have hpower := f.radix.power_pos unit
  have hback : q.value=(q.scaled f.radix (-unit)).value*(f.radix.value : ℚ)^unit := by
    rw [Ratio.value_scaled,mul_assoc,←f.radix.power_add,neg_add_cancel,zpow_zero,mul_one]
  have hrounded : (q.scaled f.radix (-f.unit q)).rounded=n := by
    rw [hu]
    apply Ratio.rounded_of_close
    rw [hback,←sub_mul,abs_mul,abs_of_pos hpower] at h
    have hhalf : |(n : ℚ)-(q.scaled f.radix (-unit)).value| * (f.radix.value : ℚ)^unit<
        1/2*(f.radix.value : ℚ)^unit := by linarith
    exact lt_of_mul_lt_mul_right hhalf hpower.le
  unfold Format.nearest
  dsimp only
  rw [hrounded,hu]

/-- A number as a format holds it. -/
structure Format.Holds (x : Floating) : Prop where
  /-- There is a digit other than zero. -/
  positive : 0<x.significand
  /-- The digits suffice. -/
  digits : x.significand<f.radix.value^f.digits
  /-- The leading digit is not zero, or the unit is the lowest one. -/
  leading : f.radix.value^(f.digits-1)≤x.significand ∨ f.lowest=some x.unit
  /-- The unit is not below the lowest one. -/
  lowest : ∀ l, f.lowest=some l → l≤x.unit

/-- Units of formats without a lowest one. -/
theorem Format.unit_unbounded (h : f.lowest=none) (q : Ratio) :
    f.unit q=q.leadingPower f.radix-(f.digits-1) := by
  unfold Format.unit
  rw [h]
  rfl

/-- A power of the digits before the last one times the unit is the leading power. -/
theorem Format.unit_power (unit : Int) :
    (f.radix.value : ℚ)^(f.digits-1)*(f.radix.value : ℚ)^unit=(f.radix.value : ℚ)^(f.digits-1+unit) := by
  have hdigits : ((f.digits-1 : ℕ) : Int)=(f.digits : Int)-1 := by
    have := f.digits_pos
    omega
  rw [f.radix.power_add,←hdigits,zpow_natCast]

/-- Nearest numbers without a lowest unit have all their digits. -/
theorem Format.nearest_digits (h : f.lowest=none) (q : Ratio) :
    f.radix.value^(f.digits-1)≤(f.nearest q).significand ∧ (f.nearest q).significand<f.radix.value^f.digits := by
  obtain ⟨hlow,hhigh⟩ := q.leadingPower_spec f.radix
  have hunit := f.radix.power_pos (-f.unit q)
  have hpos := f.digits_pos
  have herror := abs_le.mp (q.scaled f.radix (-f.unit q)).rounded_error
  have hfirst : (f.radix.value : ℚ)^q.leadingPower f.radix*(f.radix.value : ℚ)^(-f.unit q)=
      (f.radix.value : ℚ)^(f.digits-1) := by
    rw [←f.radix.power_add,f.unit_unbounded h,←zpow_natCast]
    congr 1
    omega
  have hsecond : (f.radix.value : ℚ)^(q.leadingPower f.radix+1)*(f.radix.value : ℚ)^(-f.unit q)=
      (f.radix.value : ℚ)^f.digits := by
    rw [←f.radix.power_add,f.unit_unbounded h,←zpow_natCast]
    congr 1
    omega
  have hl := mul_le_mul_of_nonneg_right hlow hunit.le
  have hh := mul_lt_mul_of_pos_right hhigh hunit
  rw [hfirst,←Ratio.value_scaled] at hl
  rw [hsecond,←Ratio.value_scaled] at hh
  unfold Format.nearest
  dsimp only
  generalize (q.scaled f.radix (-f.unit q)).value=value at hl hh herror
  generalize (q.scaled f.radix (-f.unit q)).rounded=rounded at herror
  have hlower : f.radix.value^(f.digits-1)≤rounded := by
    by_contra hless
    have hcast : (rounded : ℚ)+1≤(f.radix.value : ℚ)^(f.digits-1) := by
      exact_mod_cast Nat.lt_of_not_le hless
    linarith [herror.1]
  have hupper : rounded≤f.radix.value^f.digits := by
    by_contra hmore
    have hcast : (f.radix.value : ℚ)^f.digits+1≤(rounded : ℚ) := by
      exact_mod_cast Nat.lt_of_not_le hmore
    linarith [herror.2]
  split
  · exact ⟨le_refl _,Nat.pow_lt_pow_right f.radix.large (by omega)⟩
  · exact ⟨hlower,lt_of_le_of_ne hupper ‹_›⟩

end Formats

section RoundTrips

variable {f g : Format} {x : Floating} {q d : Ratio}

/-- A format with more digits misses a number by less than its share of the unit. -/
theorem nearest_near (hg : g.lowest=none) (hd : f.radix.value^f.digits<g.radix.value^(g.digits-1)) :
    2*|(g.nearest q).value g.radix-q.value| * (f.radix.value : ℚ)^f.digits<q.value := by
  have herror := g.nearest_error q
  have hunit := g.radix.power_pos (g.unit q)
  have hmore : (f.radix.value : ℚ)^f.digits<(g.radix.value : ℚ)^(g.digits-1) := by exact_mod_cast hd
  have hfew : (0 : ℚ)<(f.radix.value : ℚ)^f.digits := pow_pos f.radix.cast_pos _
  have hlow := (q.leadingPower_spec g.radix).1
  have hlead : (g.radix.value : ℚ)^q.leadingPower g.radix=
      (g.radix.value : ℚ)^(g.digits-1)*(g.radix.value : ℚ)^g.unit q := by
    rw [g.unit_power,g.unit_unbounded hg]
    congr 1
    omega
  calc 2*|(g.nearest q).value g.radix-q.value| * (f.radix.value : ℚ)^f.digits
      ≤ (g.radix.value : ℚ)^g.unit q*(f.radix.value : ℚ)^f.digits :=
        mul_le_mul_of_nonneg_right (by linarith) hfew.le
    _ < (g.radix.value : ℚ)^g.unit q*(g.radix.value : ℚ)^(g.digits-1) := mul_lt_mul_of_pos_left hmore hunit
    _ = (g.radix.value : ℚ)^q.leadingPower g.radix := by rw [hlead,mul_comm]
    _ ≤ q.value := hlow

/-- What is close to a number of a format lies below the next leading power. -/
theorem Format.Holds.leadingPower_le (h : f.Holds x)
    (hc : |d.value-x.value f.radix|<(f.radix.value : ℚ)^x.unit/2) :
    d.leadingPower f.radix≤f.digits-1+x.unit := by
  have hunit := f.radix.power_pos x.unit
  have hclose := (abs_lt.mp hc).2
  have hdigits : (x.significand : ℚ)+1≤(f.radix.value : ℚ)^f.digits := by exact_mod_cast h.digits
  have hbelow : d.value<(f.radix.value : ℚ)^(f.digits+x.unit) := by
    rw [f.radix.power_add,zpow_natCast]
    unfold Floating.value at hclose
    nlinarith
  have hpower := (zpow_lt_zpow_iff_right₀ f.radix.one_lt_cast).mp
    ((d.leadingPower_spec f.radix).1.trans_lt hbelow)
  omega

/-- The lowest unit does not move the unit of a number. -/
theorem Format.Holds.atLeast_unit (h : f.Holds x) : atLeast f.lowest x.unit=x.unit := by
  cases hl : f.lowest with
  | none => rfl
  | some l => exact max_eq_right (h.lowest l hl)

/-- The number that is close and in reach of its leading digit is read back. -/
theorem Format.Holds.nearest_reached (h : f.Holds x)
    (hc : |d.value-x.value f.radix|<(f.radix.value : ℚ)^x.unit/2)
    (hr : (f.radix.value : ℚ)^(f.digits-1)*(f.radix.value : ℚ)^x.unit≤d.value ∨ f.lowest=some x.unit) :
    f.nearest d=x := by
  have hpower := h.leadingPower_le hc
  have hunit : f.unit d=x.unit := by
    unfold Format.unit
    rcases hr with hr | hr
    · rw [f.unit_power] at hr
      have hlow := (zpow_lt_zpow_iff_right₀ f.radix.one_lt_cast).mp
        (hr.trans_lt (d.leadingPower_spec f.radix).2)
      have heq : d.leadingPower f.radix-(f.digits-1)=x.unit := by omega
      rw [heq]
      exact h.atLeast_unit
    · rw [hr]
      exact max_eq_left (by omega)
  rw [abs_sub_comm] at hc
  rw [f.nearest_of_close hunit hc,if_neg h.digits.ne]

/-- A number that ends a power is read back from just below as well. -/
theorem Format.Holds.nearest_below (h : f.Holds x) (hs : x.significand=f.radix.value^(f.digits-1))
    (hu : f.lowest≠some x.unit)
    (hb : d.value<x.value f.radix)
    (hc : 2*|d.value-x.value f.radix| * (f.radix.value : ℚ)^f.digits<x.value f.radix) :
    f.nearest d=x := by
  have hpos := f.radix.cast_pos
  have hlower := f.radix.power_pos (x.unit-1)
  have hunit : (f.radix.value : ℚ)^x.unit=f.radix.value*(f.radix.value : ℚ)^(x.unit-1) := by
    rw [mul_comm,←zpow_add_one₀ hpos.ne',sub_add_cancel]
  have hdigits : (f.radix.value : ℚ)^f.digits=(f.radix.value : ℚ)^(f.digits-1)*f.radix.value :=
    (pow_sub_one_mul f.digits_pos.ne' _).symm
  have hvalue : x.value f.radix=(f.radix.value : ℚ)^f.digits*(f.radix.value : ℚ)^(x.unit-1) := by
    unfold Floating.value
    rw [hs,hunit,hdigits]
    push_cast
    ring
  have hmany : (0 : ℚ)<(f.radix.value : ℚ)^f.digits := pow_pos hpos _
  have hclose : |d.value-x.value f.radix|<(f.radix.value : ℚ)^(x.unit-1)/2 := by
    nth_rewrite 2 [hvalue] at hc
    rw [mul_comm] at hc
    have hhalf := lt_of_mul_lt_mul_left hc hmany.le
    linarith
  have hnear := abs_lt.mp hclose
  have hgap : (f.radix.value : ℚ)^(f.digits-1)+1≤(f.radix.value : ℚ)^f.digits := by
    have hless : f.radix.value^(f.digits-1)<f.radix.value^f.digits :=
      Nat.pow_lt_pow_right f.radix.large (Nat.sub_lt f.digits_pos Nat.one_pos)
    exact_mod_cast hless
  have hreach : (f.radix.value : ℚ)^(f.digits-1+(x.unit-1))≤d.value := by
    rw [←f.unit_power]
    nlinarith [hnear.1]
  have hbound : d.value<(f.radix.value : ℚ)^(f.digits-1+(x.unit-1)+1) := by
    have hexponent : (f.digits : Int)-1+(x.unit-1)+1=f.digits+(x.unit-1) := by ring
    rw [hexponent,f.radix.power_add,zpow_natCast,←hvalue]
    exact hb
  have hpower := d.leadingPower_of_bounds f.radix hreach hbound
  have hnext : f.unit d=x.unit-1 := by
    unfold Format.unit
    rw [hpower,add_sub_cancel_left]
    cases hl : f.lowest with
    | none => rfl
    | some l =>
      have hle := h.lowest l hl
      have hne : l≠x.unit := by
        rintro rfl
        exact hu hl
      exact max_eq_right (by omega)
  have hcentre : |((f.radix.value^f.digits : ℕ) : ℚ)*(f.radix.value : ℚ)^(x.unit-1)-d.value|<
      (f.radix.value : ℚ)^(x.unit-1)/2 := by
    rw [Nat.cast_pow,←hvalue,abs_sub_comm]
    exact hclose
  rw [f.nearest_of_close hnext hcentre,if_pos rfl,sub_add_cancel,←hs]

/-- A number survives the way through a format with enough digits. -/
theorem round_trip (hg : g.lowest=none) (hd : f.radix.value^f.digits<g.radix.value^(g.digits-1))
    (h : f.Holds x) (hq : q.value=x.value f.radix) (hv : d.value=(g.nearest q).value g.radix) :
    f.nearest d=x := by
  have hnear := nearest_near (q:=q) hg hd
  rw [←hv,hq] at hnear
  have hunit := f.radix.power_pos x.unit
  have hmany : (0 : ℚ)<(f.radix.value : ℚ)^f.digits := pow_pos f.radix.cast_pos _
  have hfew : x.value f.radix<(f.radix.value : ℚ)^x.unit*(f.radix.value : ℚ)^f.digits := by
    have hdigits : (x.significand : ℚ)<(f.radix.value : ℚ)^f.digits := by exact_mod_cast h.digits
    unfold Floating.value
    rw [mul_comm]
    exact mul_lt_mul_of_pos_left hdigits hunit
  have hclose : |d.value-x.value f.radix|<(f.radix.value : ℚ)^x.unit/2 := by
    have hhalf := lt_of_mul_lt_mul_right (hnear.trans hfew) hmany.le
    linarith
  rcases Classical.em ((f.radix.value : ℚ)^(f.digits-1)*(f.radix.value : ℚ)^x.unit≤d.value ∨
    f.lowest=some x.unit) with hr | hr
  · exact h.nearest_reached hclose hr
  · rw [not_or,not_le] at hr
    have hlead := h.leading.resolve_right hr.2
    have hs : x.significand=f.radix.value^(f.digits-1) := by
      by_contra hne
      have hmore : (f.radix.value : ℚ)^(f.digits-1)+1≤(x.significand : ℚ) := by
        exact_mod_cast Nat.lt_of_le_of_ne hlead (Ne.symm hne)
      have hlow := (abs_lt.mp hclose).1
      unfold Floating.value at hlow
      nlinarith
    have hbelow : d.value<x.value f.radix := by
      unfold Floating.value
      rw [hs]
      push_cast
      exact hr.1
    exact h.nearest_below hs hr.2 hbelow hnear

end RoundTrips

end Ros1Adapter.RadixFormats
