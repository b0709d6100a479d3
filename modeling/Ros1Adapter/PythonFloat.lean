import Mathlib.Algebra.Order.Group.Nat
import Mathlib.Data.List.DropRight
import Ros1Adapter.DoubleBits
import Ros1Adapter.RadixFormats

/-!
# Python spelling of doubles

The nearest decimal with the fewest digits that reads back to the same double
is written in Python's fixed or scientific notation. A finite double is an
integer times a power of two, so both the printed decimal, rounded half to
even, and the double that it reads back to are computed exactly. Seventeen
digits always read back, so a finite double is determined by its spelling.
-/

namespace Ros1Adapter.PythonFloat

open RadixFormats
open Float.Model Float.Model.UnpackedFloat

section Decimals

/-- The format of doubles. -/
def binary64 : RadixFormats.Format := ⟨.binary,53,by decide,some (-1074)⟩

/-- Decimals with one digit before the point and some after it. -/
def decimals (precision : ℕ) : RadixFormats.Format := ⟨.decimal,precision+1,Nat.succ_pos _,none⟩

/-- Nearest double of a decimal; one whose exponent is too large is no double. -/
def recovered (decimal : Floating) : Floating :=
  if h : 0<decimal.significand then binary64.nearest (decimal.ratio .decimal h) else ⟨0,-1074⟩

/-- First decimal from the given precision on that reads back, or the last one. -/
def shortest (value : Floating) (magnitude : Ratio) : ℕ → ℕ → Floating
  | precision,0 => (decimals precision).nearest magnitude
  | precision,left+1 =>
    let decimal := (decimals precision).nearest magnitude
    if recovered decimal=value then decimal else shortest value magnitude (precision+1) left

end Decimals

section Notation

/-- Digits without the zeros at their end; the first one stays. -/
def trimmed : List Char → List Char
  | [] => []
  | first::rest => first::rest.rdropWhile (· == '0')

/-- Power of ten with a sign and at least two digits. -/
def powerText (exponent : Int) : List Char :=
  let power := Nat.toDigits 10 exponent.natAbs
  (if exponent<0 then '-' else '+') :: (if power.length<2 then '0'::power else power)

/-- Scientific notation. -/
def scientificText (digits : List Char) (exponent : Int) : List Char :=
  digits.take 1 ++ (if 1<digits.length then '.' :: digits.drop 1 else []) ++ 'e' :: powerText exponent

/-- Fixed notation with the point after some digits. -/
def fixedText (digits : List Char) (point : Int) : List Char :=
  if point≤0 then '0' :: '.' :: (List.replicate (-point).toNat '0' ++ digits)
  else if (digits.length : Int) ≤ point then
    digits ++ List.replicate (point-digits.length).toNat '0' ++ ['.','0']
  else digits.take point.toNat ++ '.' :: digits.drop point.toNat

/-- Python notation of digits and the power of ten of the first one. -/
def notationText (digits : List Char) (exponent : Int) : List Char :=
  if exponent< -4 ∨ 16≤exponent then scientificText digits exponent else fixedText digits (exponent+1)

/-- Shortest decimal of a positive finite double. -/
def shortestDecimal (value : Floating) (h : 0<value.significand) : Floating :=
  shortest value (value.ratio .binary h) 0 16

/-- Python `repr` of a positive finite double. -/
def magnitudeText (value : Floating) (h : 0<value.significand) : List Char :=
  let decimal := shortestDecimal value h
  let digits := Nat.toDigits 10 decimal.significand
  notationText (trimmed digits) (decimal.unit+(digits.length-1))

/-- Sign of a spelled double. -/
def signText : Sign → List Char
  | .negative => ['-']
  | .positive => []

/-- Python `repr` of a double. -/
def pythonFloat (value : Float) : String :=
  match value.toModel.unpack with
  | .notANumber => "nan"
  | .infinity sign => String.ofList (signText sign ++ ['i','n','f'])
  | .zero sign => String.ofList (signText sign ++ ['0','.','0'])
  | .finite sign mantissa exponent h => String.ofList (signText sign ++ magnitudeText ⟨mantissa,exponent⟩ h)

end Notation

section Spelling

/-- A nonempty list of decimal digits. -/
def Digits (text : List Char) : Prop := text≠[] ∧ ∀ c∈text, c.isDigit=true

/-- Decimal digits of a number. -/
theorem toDigits_digits (n : ℕ) : Digits (Nat.toDigits 10 n) :=
  ⟨Nat.toDigits_ne_nil,fun _ hc => Nat.isDigit_of_mem_toDigits (by decide) (by decide) hc⟩

/-- Zeros in front keep digits. -/
theorem Digits.zeros {text : List Char} (h : Digits text) (count : ℕ) :
    Digits (List.replicate count '0' ++ text) := by
  refine ⟨?_,?_⟩
  · intro hnil
    exact h.1 (List.append_eq_nil_iff.mp hnil).2
  · intro c hc
    rcases List.mem_append.mp hc with hc | hc
    · rw [(List.mem_replicate.mp hc).2]
      rfl
    · exact h.2 c hc

/-- Zeros at the end keep digits. -/
theorem Digits.padded {text : List Char} (h : Digits text) (count : ℕ) :
    Digits (text ++ List.replicate count '0') := by
  refine ⟨?_,?_⟩
  · intro hnil
    exact h.1 (List.append_eq_nil_iff.mp hnil).1
  · intro c hc
    rcases List.mem_append.mp hc with hc | hc
    · exact h.2 c hc
    · rw [(List.mem_replicate.mp hc).2]
      rfl

/-- A nonempty part of digits is made of digits. -/
theorem Digits.part {text part : List Char} (h : Digits text) (hs : part.Sublist text) (hn : part≠[]) :
    Digits part := ⟨hn,fun c hc => h.2 c (hs.subset hc)⟩

/-- Digits stay when zeros at their end are dropped. -/
theorem trimmed_digits {text : List Char} (h : Digits text) : Digits (trimmed text) := by
  obtain ⟨hne,hall⟩ := h
  cases text with
  | nil => exact absurd rfl hne
  | cons first rest =>
    refine ⟨List.cons_ne_nil _ _,?_⟩
    intro c hc
    unfold trimmed at hc
    rcases List.mem_cons.mp hc with rfl | hc
    · exact hall c (List.mem_cons_self ..)
    · have hkept := List.rdropWhile_prefix (· == '0') rest
      exact hall c (List.mem_cons_of_mem _ (hkept.subset hc))

/-- Sign of a power of ten. -/
def PowerSign (c : Char) : Prop := c = '-' ∨ c = '+'

/-- Notations of positive doubles. -/
inductive Spelled : List Char → Prop
  /-- Fixed notation. -/
  | fixed {whole rest : List Char} (hw : Digits whole) (hr : Digits rest) : Spelled (whole ++ '.' :: rest)
  /-- Scientific notation with one digit. -/
  | power {first sign : Char} {power : List Char} (hf : first.isDigit=true) (hs : PowerSign sign)
    (hp : Digits power) : Spelled (first :: 'e' :: sign :: power)
  /-- Scientific notation with more digits. -/
  | scientific {first sign : Char} {rest power : List Char} (hf : first.isDigit=true) (hr : Digits rest)
    (hs : PowerSign sign) (hp : Digits power) : Spelled (first :: '.' :: (rest ++ 'e' :: sign :: power))

/-- A power of ten is a sign and digits. -/
theorem powerText_form (exponent : Int) :
    ∃ sign power, powerText exponent=sign :: power ∧ PowerSign sign ∧ Digits power := by
  have hdigits := toDigits_digits exponent.natAbs
  refine ⟨if exponent<0 then '-' else '+',_,rfl,?_,?_⟩
  · unfold PowerSign
    split
    · exact Or.inl rfl
    · exact Or.inr rfl
  · split
    · exact hdigits.zeros 1
    · exact hdigits

/-- Scientific notation is a notation. -/
theorem scientificText_spelled {digits : List Char} (h : Digits digits) (exponent : Int) :
    Spelled (scientificText digits exponent) := by
  obtain ⟨sign,power,hpower,hsign,hdigits⟩ := powerText_form exponent
  unfold scientificText
  rw [hpower]
  cases digits with
  | nil => exact absurd rfl h.1
  | cons first rest =>
    have hfirst : first.isDigit=true := h.2 first (List.mem_cons_self ..)
    cases rest with
    | nil => exact .power hfirst hsign hdigits
    | cons second rest =>
      have hrest : Digits (second::rest) := h.part (List.sublist_cons_self ..) (List.cons_ne_nil _ _)
      exact .scientific hfirst hrest hsign hdigits

/-- Fixed notation is a notation. -/
theorem fixedText_spelled {digits : List Char} (h : Digits digits) (point : Int) :
    Spelled (fixedText digits point) := by
  have hzero : Digits ['0'] := ⟨by simp,by simp⟩
  unfold fixedText
  split
  · exact .fixed hzero (h.zeros _)
  split
  · exact .fixed (h.padded _) hzero
  · rename_i hlow hhigh
    have htake : digits.take point.toNat≠[] := by
      rw [Ne,List.take_eq_nil_iff,not_or]
      exact ⟨by omega,h.1⟩
    have hdrop : digits.drop point.toNat≠[] := by
      rw [Ne,List.drop_eq_nil_iff]
      omega
    exact .fixed (h.part (List.take_sublist ..) htake) (h.part (List.drop_sublist ..) hdrop)

/-- The notation of digits is fixed or scientific. -/
theorem notationText_spelled {digits : List Char} (h : Digits digits) (exponent : Int) :
    Spelled (notationText digits exponent) := by
  unfold notationText
  split
  · exact scientificText_spelled h exponent
  · exact fixedText_spelled h _

/-- A finite double is spelled as a sign and a notation. -/
theorem pythonFloat_spelled {value : Float} (h : value.isFinite=true) :
    ∃ sign text, (pythonFloat value).toList=signText sign ++ text ∧ Spelled text := by
  have hfinite : value.toModel.unpack.isFinite=true := h
  unfold pythonFloat
  cases hunpack : value.toModel.unpack with
  | notANumber | infinity _ =>
    rw [hunpack] at hfinite
    cases hfinite
  | zero sign =>
    have hzero : Digits ['0'] := ⟨by simp,by simp⟩
    exact ⟨sign,['0','.','0'],by simp,.fixed hzero hzero⟩
  | finite sign mantissa exponent hm =>
    exact ⟨sign,_,String.toList_ofList,notationText_spelled (trimmed_digits (toDigits_digits _)) _⟩

/-- Characters of a notation. -/
theorem Spelled.characters {text : List Char} (h : Spelled text) :
    ∀ c∈text, c.isDigit=true ∨ c = '.' ∨ c = 'e' ∨ PowerSign c := by
  intro c hc
  cases h with
  | fixed hw hr =>
    simp only [List.mem_append,List.mem_cons] at hc
    rcases hc with hc | rfl | hc
    · exact Or.inl (hw.2 c hc)
    · exact Or.inr (Or.inl rfl)
    · exact Or.inl (hr.2 c hc)
  | power hf hs hp =>
    simp only [List.mem_cons] at hc
    rcases hc with rfl | rfl | rfl | hc
    · exact Or.inl hf
    · exact Or.inr (Or.inr (Or.inl rfl))
    · exact Or.inr (Or.inr (Or.inr hs))
    · exact Or.inl (hp.2 c hc)
  | scientific hf hr hs hp =>
    simp only [List.mem_append,List.mem_cons] at hc
    rcases hc with rfl | rfl | hc | rfl | rfl | hc
    · exact Or.inl hf
    · exact Or.inr (Or.inl rfl)
    · exact Or.inl (hr.2 c hc)
    · exact Or.inr (Or.inr (Or.inl rfl))
    · exact Or.inr (Or.inr (Or.inr hs))
    · exact Or.inl (hp.2 c hc)

/-- A notation has a point or an exponent. -/
theorem Spelled.marked {text : List Char} (h : Spelled text) : '.'∈text ∨ 'e'∈text := by
  cases h with
  | fixed _ _ | scientific _ _ _ _ => exact Or.inl (by simp)
  | power hf hs hp => exact Or.inr (by simp)

/-- A finite double is spelled with a point or an exponent. -/
theorem pythonFloat_marked {value : Float} (h : value.isFinite=true) :
    '.'∈(pythonFloat value).toList ∨ 'e'∈(pythonFloat value).toList := by
  obtain ⟨sign,text,htext,hspelled⟩ := pythonFloat_spelled h
  rw [htext,List.mem_append,List.mem_append]
  exact hspelled.marked.imp Or.inr Or.inr

/-- A finite double is spelled with digits, signs, points and exponents. -/
theorem pythonFloat_characters {value : Float} (h : value.isFinite=true) :
    ∀ c∈(pythonFloat value).toList, c.isDigit=true ∨ c = '.' ∨ c = 'e' ∨ PowerSign c := by
  obtain ⟨sign,text,htext,hspelled⟩ := pythonFloat_spelled h
  intro c hc
  rw [htext,List.mem_append] at hc
  rcases hc with hc | hc
  · cases sign with
    | negative => exact Or.inr (Or.inr (Or.inr (Or.inl (List.mem_singleton.mp hc))))
    | positive => cases hc
  · exact hspelled.characters c hc

end Spelling

section Reading

/-- Number of a text of digits. -/
def digitsValue (text : List Char) : ℕ := Nat.ofDigitChars 10 text 0

/-- Zeros in front do not change a number. -/
theorem digitsValue_zeros (count : ℕ) (text : List Char) :
    digitsValue (List.replicate count '0' ++ text)=digitsValue text := by
  unfold digitsValue
  rw [Nat.ofDigitChars_append,Nat.ofDigitChars_replicate_zero,Nat.mul_zero]

/-- Zeros at the end multiply a number. -/
theorem digitsValue_padded (text : List Char) (count : ℕ) :
    digitsValue (text ++ List.replicate count '0')=10^count*digitsValue text := by
  unfold digitsValue
  rw [Nat.ofDigitChars_append,Nat.ofDigitChars_replicate_zero]

/-- Value of a signed power of ten. -/
def powerValue : List Char → Int
  | [] => 0
  | sign::text => if sign = '-' then -digitsValue text else digitsValue text

/-- Value of digits with a point. -/
def pointValue (text : List Char) (power : Int) : ℚ :=
  let whole := text.takeWhile (· != '.')
  let rest := (text.dropWhile (· != '.')).drop 1
  digitsValue (whole ++ rest)*(10 : ℚ)^(power-rest.length)

/-- Value of a notation. -/
def textValue (text : List Char) : ℚ :=
  pointValue (text.takeWhile (· != 'e')) (powerValue ((text.dropWhile (· != 'e')).drop 1))

/-- The power of ten is read back. -/
theorem powerValue_text (exponent : Int) : powerValue (powerText exponent)=exponent := by
  have hpower : digitsValue (if (Nat.toDigits 10 exponent.natAbs).length<2 then '0' ::
      Nat.toDigits 10 exponent.natAbs else Nat.toDigits 10 exponent.natAbs)=exponent.natAbs := by
    split
    · have hzero := digitsValue_zeros 1 (Nat.toDigits 10 exponent.natAbs)
      rw [List.replicate_one,List.singleton_append] at hzero
      rw [hzero]
      exact Nat.ofDigitChars_ten_toDigits
    · exact Nat.ofDigitChars_ten_toDigits
  unfold powerText powerValue
  dsimp only
  rw [hpower]
  by_cases h : exponent<0
  · rw [if_pos h,if_pos rfl]
    omega
  · rw [if_neg h,if_neg (by decide)]
    omega

/-- Digits contain no mark. -/
theorem Digits.unmarked {text : List Char} (h : Digits text) {mark : Char} (hm : mark.isDigit=false) :
    ∀ c∈text, (c != mark)=true := by
  intro c hc
  have hdigit := h.2 c hc
  rw [bne_iff_ne]
  rintro rfl
  rw [hm] at hdigit
  cases hdigit

/-- Digits before and after a point. -/
theorem pointValue_point {whole : List Char} (hw : ∀ c∈whole, (c != '.')=true) (rest : List Char) (power : Int) :
    pointValue (whole ++ '.' :: rest) power=digitsValue (whole ++ rest)*(10 : ℚ)^(power-rest.length) := by
  have hmark : ('.' != '.')=false := by decide
  unfold pointValue
  dsimp only
  rw [List.takeWhile_append_of_pos hw,List.dropWhile_append_of_pos hw,List.takeWhile_cons,List.dropWhile_cons,
    hmark]
  simp

/-- Digits without a point. -/
theorem pointValue_whole {whole : List Char} (hw : ∀ c∈whole, (c != '.')=true) (power : Int) :
    pointValue whole power=digitsValue whole*(10 : ℚ)^power := by
  unfold pointValue
  dsimp only
  rw [List.takeWhile_eq_self_iff.mpr hw,List.dropWhile_eq_nil_iff.mpr hw]
  simp

/-- A notation without a power of ten. -/
theorem textValue_fixed {text : List Char} (ht : ∀ c∈text, (c != 'e')=true) : textValue text=pointValue text 0 := by
  unfold textValue
  rw [List.takeWhile_eq_self_iff.mpr ht,List.dropWhile_eq_nil_iff.mpr ht]
  rfl

/-- A notation with a power of ten. -/
theorem textValue_power {text : List Char} (ht : ∀ c∈text, (c != 'e')=true) (exponent : Int) :
    textValue (text ++ 'e' :: powerText exponent)=pointValue text exponent := by
  have hmark : ('e' != 'e')=false := by decide
  unfold textValue
  rw [List.takeWhile_append_of_pos ht,List.dropWhile_append_of_pos ht,List.takeWhile_cons,List.dropWhile_cons,
    hmark]
  simp [powerValue_text]

/-- Digits in scientific notation keep their value. -/
theorem textValue_scientific {digits : List Char} (h : Digits digits) (exponent : Int) :
    textValue (scientificText digits exponent)=digitsValue digits*(10 : ℚ)^(exponent-(digits.length-1)) := by
  have hpoint := h.unmarked (rfl : '.'.isDigit=false)
  have hpower := h.unmarked (rfl : 'e'.isDigit=false)
  unfold scientificText
  cases digits with
  | nil => exact absurd rfl h.1
  | cons first rest =>
    cases rest with
    | nil =>
      have hvalue := textValue_power hpower exponent
      rw [pointValue_whole hpoint] at hvalue
      simpa using hvalue
    | cons second rest =>
      have hmixed : ∀ c∈first:: '.' ::second::rest, (c != 'e')=true := by
        intro c hc
        rcases List.mem_cons.mp hc with rfl | hc
        · exact hpower c (List.mem_cons_self ..)
        · rcases List.mem_cons.mp hc with rfl | hc
          · rfl
          · exact hpower c (List.mem_cons_of_mem _ hc)
      have hfirst : ∀ c∈[first], (c != '.')=true := by
        intro c hc
        rw [List.mem_singleton.mp hc]
        exact hpoint first (List.mem_cons_self ..)
      have hvalue := textValue_power hmixed exponent
      have hread := pointValue_point hfirst (second::rest) exponent
      rw [List.singleton_append] at hread
      rw [hread] at hvalue
      simpa using hvalue

/-- Digits in fixed notation keep their value. -/
theorem textValue_point {digits : List Char} (h : Digits digits) (point : Int) :
    textValue (fixedText digits point)=digitsValue digits*(10 : ℚ)^(point-digits.length) := by
  have hpoint := h.unmarked (rfl : '.'.isDigit=false)
  have hunmarked {text : List Char} (ht : Digits text) : ∀ c∈text, (c != 'e')=true := ht.unmarked rfl
  have hzero : Digits ['0'] := ⟨by simp,by simp⟩
  have hjoin {whole rest : List Char} (hw : Digits whole) (hr : Digits rest) :
      textValue (whole ++ '.' :: rest)=digitsValue (whole ++ rest)*(10 : ℚ)^(-(rest.length : Int)) := by
    rw [textValue_fixed,pointValue_point (hw.unmarked rfl),zero_sub]
    intro c hc
    rcases List.mem_append.mp hc with hc | hc
    · exact hunmarked hw c hc
    · rcases List.mem_cons.mp hc with rfl | hc
      · rfl
      · exact hunmarked hr c hc
  unfold fixedText
  split
  · have hvalue := hjoin hzero (h.zeros (-point).toNat)
    have hnumber := digitsValue_zeros ((-point).toNat+1) digits
    rw [List.replicate_succ,List.cons_append] at hnumber
    rw [List.singleton_append,List.singleton_append,hnumber,List.length_append,List.length_replicate] at hvalue
    rw [hvalue]
    congr 2
    omega
  split
  · rename_i hlow hhigh
    have hvalue := hjoin (h.padded (point-digits.length).toNat) hzero
    have hnumber := digitsValue_padded digits ((point-digits.length).toNat+1)
    have htext : digits ++ List.replicate (point-digits.length).toNat '0' ++ ['0']=
        digits ++ List.replicate ((point-digits.length).toNat+1) '0' := by
      rw [List.append_assoc,List.replicate_succ']
    have hshift : (10 : ℚ)^(point-digits.length)=
        ((10^((point-digits.length).toNat+1) : ℕ) : ℚ)*(10 : ℚ)^(-((['0'] : List Char).length : Int)) := by
      rw [Nat.cast_pow,Nat.cast_ofNat,←zpow_natCast,←zpow_add₀ (by norm_num)]
      congr 1
      simp only [List.length_singleton]
      omega
    rw [hvalue,htext,hnumber,hshift]
    push_cast
    ring
  · rename_i hlow hhigh
    have htake : digits.take point.toNat≠[] := by
      rw [Ne,List.take_eq_nil_iff,not_or]
      exact ⟨by omega,h.1⟩
    have hdrop : digits.drop point.toNat≠[] := by
      rw [Ne,List.drop_eq_nil_iff]
      omega
    rw [hjoin (h.part (List.take_sublist ..) htake) (h.part (List.drop_sublist ..) hdrop),
      List.take_append_drop,List.length_drop]
    congr 2
    omega

/-- The notation of digits keeps their value. -/
theorem textValue_spelling {digits : List Char} (h : Digits digits) (exponent : Int) :
    textValue (notationText digits exponent)=digitsValue digits*(10 : ℚ)^(exponent-(digits.length-1)) := by
  unfold notationText
  split
  · exact textValue_scientific h exponent
  · rw [textValue_point h]
    congr 2
    omega

/-- Dropped zeros divide a number by a power of ten. -/
theorem digitsValue_trimmed {digits : List Char} (h : digits≠[]) :
    digitsValue digits=10^(digits.length-(trimmed digits).length)*digitsValue (trimmed digits) ∧
      (trimmed digits).length≤digits.length := by
  cases digits with
  | nil => exact absurd rfl h
  | cons first rest =>
    have hsplit : rest.rdropWhile (· == '0') ++ rest.rtakeWhile (· == '0')=rest :=
      List.rdropWhile_append_rtakeWhile
    have hzeros : rest.rtakeWhile (· == '0')=List.replicate (rest.rtakeWhile (· == '0')).length '0' := by
      rw [List.eq_replicate_iff]
      refine ⟨rfl,?_⟩
      intro c hc
      have hc' : (c == '0')=true := List.mem_rtakeWhile_imp (p := fun c => c == '0') hc
      exact beq_iff_eq.mp hc'
    have hlength := congrArg List.length hsplit
    rw [List.length_append] at hlength
    unfold trimmed
    rw [List.length_cons,List.length_cons]
    constructor
    · have hnumber := digitsValue_padded (first::rest.rdropWhile (· == '0')) (rest.rtakeWhile (· == '0')).length
      rw [←hzeros,List.cons_append,hsplit] at hnumber
      rw [hnumber]
      congr 2
      omega
    · omega

/-- The text of a decimal has the value of the decimal. -/
theorem textValue_decimal (decimal : Floating) :
    textValue (notationText (trimmed (Nat.toDigits 10 decimal.significand))
      (decimal.unit+((Nat.toDigits 10 decimal.significand).length-1)))=decimal.value .decimal := by
  have hdigits := toDigits_digits decimal.significand
  obtain ⟨hvalue,hlength⟩ := digitsValue_trimmed hdigits.1
  have hnumber : digitsValue (Nat.toDigits 10 decimal.significand)=decimal.significand :=
    Nat.ofDigitChars_ten_toDigits
  have hshift : (10 : ℚ)^(decimal.unit+((Nat.toDigits 10 decimal.significand).length-1)-
      ((trimmed (Nat.toDigits 10 decimal.significand)).length-1))=
      ((10^((Nat.toDigits 10 decimal.significand).length-(trimmed (Nat.toDigits 10 decimal.significand)).length) :
        ℕ) : ℚ)*(10 : ℚ)^decimal.unit := by
    rw [Nat.cast_pow,Nat.cast_ofNat,←zpow_natCast,←zpow_add₀ (by norm_num)]
    congr 1
    omega
  rw [textValue_spelling (trimmed_digits hdigits),hshift]
  rw [hnumber] at hvalue
  have hcast := congrArg (Nat.cast (R := ℚ)) hvalue
  rw [Nat.cast_mul] at hcast
  have hbase : ((Radix.decimal.value : ℕ) : ℚ)=10 := rfl
  unfold Floating.value
  rw [hcast,hbase]
  ring

end Reading

section Identity

/-- A decimal goes by its value. -/
theorem recovered_congr {first second : Floating} (hf : 0<first.significand) (hs : 0<second.significand)
    (h : first.value .decimal=second.value .decimal) : recovered first=recovered second := by
  unfold recovered
  rw [dif_pos hf,dif_pos hs]
  apply Format.nearest_congr
  rw [Floating.value_ratio,Floating.value_ratio,h]

/-- Decimals have a positive significand. -/
theorem decimals_positive (precision : ℕ) (q : Ratio) : 0<((decimals precision).nearest q).significand :=
  (Nat.pow_pos (Radix.pos _)).trans_le ((decimals precision).nearest_digits rfl q).1

/-- Seventeen digits read back. -/
theorem recovered_longest {value : Floating} (hv : binary64.Holds value) :
    recovered ((decimals 16).nearest (value.ratio .binary hv.positive))=value := by
  unfold recovered
  rw [dif_pos (decimals_positive _ _)]
  have hmore : binary64.radix.value^binary64.digits<(decimals 16).radix.value^((decimals 16).digits-1) := by
    decide
  exact round_trip rfl hmore hv (Floating.value_ratio ..) (Floating.value_ratio ..)

/-- The shortest decimal is positive and reads back. -/
theorem shortest_recovered {value : Floating} (hv : binary64.Holds value) {precision left : ℕ}
    (h : precision+left=16) :
    0<(shortest value (value.ratio .binary hv.positive) precision left).significand ∧
      recovered (shortest value (value.ratio .binary hv.positive) precision left)=value := by
  induction left generalizing precision with
  | zero =>
    rw [Nat.add_zero] at h
    rw [h]
    exact ⟨decimals_positive _ _,recovered_longest hv⟩
  | succ left ih =>
    unfold shortest
    dsimp only
    split
    · rename_i hread
      exact ⟨decimals_positive _ _,hread⟩
    · exact ih (by omega)

/-- Value of the text of a positive double. -/
theorem textValue_magnitude (value : Floating) (h : 0<value.significand) :
    textValue (magnitudeText value h)=(shortestDecimal value h).value .decimal :=
  textValue_decimal _

/-- A text determines its positive double. -/
theorem magnitudeText_injective {first second : Floating} (hf : binary64.Holds first)
    (hs : binary64.Holds second) (h : magnitudeText first hf.positive=magnitudeText second hs.positive) :
    first=second := by
  have hvalue := congrArg textValue h
  rw [textValue_magnitude,textValue_magnitude] at hvalue
  obtain ⟨hposf,hreadf⟩ := shortest_recovered hf (Nat.zero_add 16)
  obtain ⟨hposs,hreads⟩ := shortest_recovered hs (Nat.zero_add 16)
  rw [←hreadf,←hreads]
  exact recovered_congr hposf hposs hvalue

/-- A positive double is not spelled as zero. -/
theorem magnitudeText_nonzero {value : Floating} (hv : binary64.Holds value) :
    magnitudeText value hv.positive≠['0','.','0'] := by
  intro h
  have hvalue := congrArg textValue h
  have hzero : textValue ['0','.','0']=0 := by
    have hpoint := pointValue_point (by simp : ∀ c∈['0'], (c != '.')=true) ['0'] 0
    rw [textValue_fixed (by simp)]
    rw [List.singleton_append,List.singleton_append] at hpoint
    rw [hpoint]
    have hnumber : digitsValue ['0','0']=0 := rfl
    rw [hnumber]
    simp
  rw [textValue_magnitude,hzero] at hvalue
  obtain ⟨hpos,_⟩ := shortest_recovered hv (Nat.zero_add 16)
  have hpositive : 0<(shortestDecimal value hv.positive).value .decimal :=
    mul_pos (Nat.cast_pos.mpr hpos) (Radix.decimal.power_pos _)
  rw [hvalue] at hpositive
  exact lt_irrefl _ hpositive

/-- The finite value of a bit pattern is a number of the format. -/
theorem unpack_holds {b : DoubleBits.Bits} {sign : Sign} {mantissa : ℕ} {exponent : Int} {hm : 0 < mantissa}
    (h : UnpackedFloat.unpack Float.Model.Format.binary64 b=.finite sign mantissa exponent hm) :
    binary64.Holds ⟨mantissa,exponent⟩ := by
  have hbias : (Float.Model.Format.binary64.exponentBias : Int)=1023 := by decide
  have hdecoded := DoubleBits.unpack_decoded b
  have hsmall : (unpackMantissa b).toNat<2^52 := (unpackMantissa b).isLt
  rw [h] at hdecoded
  have hexponent : exponent= -1074 ∧ mantissa<2^52 ∨ -1074≤exponent ∧ 2^52 ≤ mantissa ∧ mantissa<2^53 := by
    cases hdecoded with
    | finite _ hf =>
      rcases hf with ⟨he,_,hlow⟩ | ⟨he,hlow⟩
      · exact Or.inl ⟨he,by omega⟩
      · by_cases hzero : unpackExponent b=0#11
        · -- Without an exponent the mantissa would be the stored one.
          exfalso
          unfold UnpackedFloat.unpack at h
          dsimp only at h
          rw [if_neg (by rw [hzero]; decide),if_pos hzero] at h
          split at h
          · cases h
          · injection h with _ hstored _
            omega
        · have hpositive : (unpackExponent b).toNat≠0 := by
            intro htoNat
            exact hzero (BitVec.eq_of_toNat_eq (by rw [htoNat]; rfl))
          exact Or.inr ⟨by omega,by omega,by omega⟩
  constructor
  · exact hm
  · show mantissa<2^53
    omega
  · rcases hexponent with ⟨he,_⟩ | ⟨_,hlow,_⟩
    · exact Or.inr (congrArg some he.symm)
    · exact Or.inl hlow
  · intro l hl
    have hl' : -1074=l := Option.some.inj hl
    rw [←hl']
    show -1074≤exponent
    omega

/-- Sign of an unpacked double. -/
def signOf : UnpackedFloat → Sign
  | .infinity sign => sign
  | .notANumber => .positive
  | .zero sign => sign
  | .finite sign _ _ _ => sign

/-- A finite value has the sign of its bits. -/
theorem decoded_sign {b : DoubleBits.Bits} {value : UnpackedFloat} (h : DoubleBits.Decoded b value)
    (hf : value.isFinite=true) : signOf value=Sign.ofBitVec (unpackSign b) := by
  cases h with
  | infinity _ _ | zero _ _ | finite _ _ => rfl
  | nan => cases hf

/-- A finite value compares equal to itself. -/
theorem compare_self {value : UnpackedFloat} (hf : value.isFinite=true) : value.compare value=some .eq := by
  cases value with
  | notANumber | infinity _ => cases hf
  | zero sign => rfl
  | finite sign mantissa exponent hm => cases sign <;> simp [UnpackedFloat.compare,compare,compareOfLessAndEq]

/-- Patterns that unpack to the same number are the same. -/
theorem unpack_injective {b c : DoubleBits.Bits}
    (hf : (UnpackedFloat.unpack Float.Model.Format.binary64 b).isFinite=true)
    (h : UnpackedFloat.unpack Float.Model.Format.binary64 b=UnpackedFloat.unpack Float.Model.Format.binary64 c) :
    b=c := by
  have hself := compare_self hf
  have hleft := decoded_sign (DoubleBits.unpack_decoded b) hf
  nth_rewrite 2 [h] at hself
  rw [h] at hf hleft
  have hright := decoded_sign (DoubleBits.unpack_decoded c) hf
  rcases DoubleBits.eq_of_compare hself with hz | heq
  · have hs : (unpackSign b).toNat=(unpackSign c).toNat := by
      apply DoubleBits.sign_bit
      rw [←hleft,hright]
      cases Sign.ofBitVec (unpackSign c) <;> rfl
    rw [←BitVec.toNat_inj,DoubleBits.toNat_fields b,DoubleBits.toNat_fields c,hz.leftExponent,hz.leftMantissa,
      hz.rightExponent,hz.rightMantissa,hs]
  · exact heq

/-- A notation starts with a digit. -/
theorem Spelled.head {text : List Char} (h : Spelled text) : ∃ first rest, text=first::rest ∧ first.isDigit=true := by
  cases h with
  | @fixed whole rest hw hr =>
    cases whole with
    | nil => exact absurd rfl hw.1
    | cons first more => exact ⟨first,_,rfl,hw.2 first (List.mem_cons_self ..)⟩
  | power hf _ _ | scientific hf _ _ _ => exact ⟨_,_,rfl,hf⟩

/-- A sign can be told from a notation. -/
theorem signText_injective {s t : Sign} {first second : List Char} (hf : Spelled first) (hs : Spelled second)
    (h : signText s ++ first=signText t ++ second) : s=t ∧ first=second := by
  obtain ⟨a,as,rfl,ha⟩ := hf.head
  obtain ⟨c,cs,rfl,hc⟩ := hs.head
  cases s with
  | negative =>
    cases t with
    | negative => exact ⟨rfl,List.append_cancel_left h⟩
    | positive =>
      have hhead := (List.cons.inj h).1
      rw [←hhead] at hc
      cases hc
  | positive =>
    cases t with
    | negative =>
      have hhead := (List.cons.inj h).1
      rw [hhead] at ha
      cases ha
    | positive => exact ⟨rfl,h⟩

/-- A finite double is determined by its spelling. -/
theorem pythonFloat_injective {a b : Float} (ha : a.isFinite=true) (hb : b.isFinite=true)
    (h : pythonFloat a=pythonFloat b) : a=b := by
  have hfa : (UnpackedFloat.unpack Float.Model.Format.binary64 (DoubleBits.bitsOf a)).isFinite=true := ha
  have hfb : (UnpackedFloat.unpack Float.Model.Format.binary64 (DoubleBits.bitsOf b)).isFinite=true := hb
  apply DoubleBits.eq_of_bits
  apply unpack_injective hfa
  have htext := congrArg String.toList h
  have hzero : Digits ['0'] := ⟨by simp,by simp⟩
  have hzeros : Spelled ['0','.','0'] := .fixed hzero hzero
  have hmagnitude {value : Floating} (hv : 0<value.significand) : Spelled (magnitudeText value hv) :=
    notationText_spelled (trimmed_digits (toDigits_digits _)) _
  unfold pythonFloat at htext
  change (match UnpackedFloat.unpack Float.Model.Format.binary64 (DoubleBits.bitsOf a) with
    | .notANumber => "nan"
    | .infinity sign => String.ofList (signText sign ++ ['i','n','f'])
    | .zero sign => String.ofList (signText sign ++ ['0','.','0'])
    | .finite sign mantissa exponent h => String.ofList (signText sign ++ magnitudeText ⟨mantissa,exponent⟩ h)
    ).toList=(match UnpackedFloat.unpack Float.Model.Format.binary64 (DoubleBits.bitsOf b) with
    | .notANumber => "nan"
    | .infinity sign => String.ofList (signText sign ++ ['i','n','f'])
    | .zero sign => String.ofList (signText sign ++ ['0','.','0'])
    | .finite sign mantissa exponent h => String.ofList (signText sign ++ magnitudeText ⟨mantissa,exponent⟩ h)
    ).toList at htext
  have hholdsa := @unpack_holds (DoubleBits.bitsOf a)
  have hholdsb := @unpack_holds (DoubleBits.bitsOf b)
  generalize UnpackedFloat.unpack Float.Model.Format.binary64 (DoubleBits.bitsOf a)=x at hfa htext hholdsa
  generalize UnpackedFloat.unpack Float.Model.Format.binary64 (DoubleBits.bitsOf b)=y at hfb htext hholdsb
  cases x with
  | notANumber | infinity _ => cases hfa
  | zero sign =>
    cases y with
    | notANumber | infinity _ => cases hfb
    | zero other =>
      rw [String.toList_ofList,String.toList_ofList] at htext
      rw [(signText_injective hzeros hzeros htext).1]
    | finite other mantissa exponent hm =>
      rw [String.toList_ofList,String.toList_ofList] at htext
      exact absurd (signText_injective hzeros (hmagnitude hm) htext).2.symm (magnitudeText_nonzero (hholdsb rfl))
  | finite sign mantissa exponent hm =>
    cases y with
    | notANumber | infinity _ => cases hfb
    | zero other =>
      rw [String.toList_ofList,String.toList_ofList] at htext
      exact absurd (signText_injective (hmagnitude hm) hzeros htext).2 (magnitudeText_nonzero (hholdsa rfl))
    | finite other mantissa' exponent' hm' =>
      rw [String.toList_ofList,String.toList_ofList] at htext
      obtain ⟨hsign,hmagnitudes⟩ := signText_injective (hmagnitude hm) (hmagnitude hm') htext
      have hsame := magnitudeText_injective (hholdsa rfl) (hholdsb rfl) hmagnitudes
      cases hsame
      rw [hsign]

end Identity

end Ros1Adapter.PythonFloat
