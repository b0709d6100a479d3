import Ros1Adapter.YamlScalars

/-!
# Integers of YAML scalars

What the five spellings of an integer denote, and what the conversion makes of
them. Digits are taken in one by one with a division that tells whether the
next value still fits 64 bits; groups of base sixty go through a conversion of
the standard library that refuses what does not fit. Only the first group of a
number in base sixty can be that large.
-/

namespace Ros1Adapter.IntegerScalars

open SceneJson SceneYaml PatternResiduals Pattern PatternLanguage PythonFloat YamlScalars

section Denotation

/-- Number with the given digits, the first one first. -/
def positional (base : ℕ) (digits : List ℕ) : ℕ := digits.foldl (fun value digit => value*base+digit) 0

/-- Number of a text of digits. -/
def spelled (base : ℕ) (text : List Char) : ℕ := positional base (text.map (digitOf base))

/-- A group behind a colon: one or two decimal digits, below sixty. -/
def Group (group : List Char) : Prop :=
  (∃ d, group=[d] ∧ d.isDigit=true) ∨ ∃ c d, group=[c,d] ∧ between '0' '5' c=true ∧ d.isDigit=true

/-- Unsigned texts without separators and the numbers they denote. -/
inductive Spells : List Char → ℕ → Prop
  /-- Base two. -/
  | binary (digits : List Char) (h : ∀ c∈digits, c = '0' ∨ c = '1') : Spells ('0' :: 'b' :: digits) (spelled 2 digits)
  /-- Base eight; no digits denote zero. -/
  | octal (digits : List Char) (h : ∀ c∈digits, between '0' '7' c=true) : Spells ('0' :: digits) (spelled 8 digits)
  /-- Base ten. -/
  | decimal (first : Char) (digits : List Char) (hf : between '1' '9' first=true) (h : ∀ c∈digits, c.isDigit=true) :
    Spells (first::digits) (spelled 10 (first::digits))
  /-- Base sixteen. -/
  | hexadecimal (digits : List Char)
    (h : ∀ c∈digits, PatternResiduals.isDigit c=true ∨ between 'a' 'f' c=true ∨ between 'A' 'F' c=true) :
    Spells ('0' :: 'x' :: digits) (spelled 16 digits)
  /-- Base sixty, group by group. -/
  | sexagesimal (first : Char) (digits : List Char) (groups : List (List Char)) (hf : between '1' '9' first=true)
    (h : ∀ c∈digits, c.isDigit=true) (hne : groups≠[]) (hg : ∀ group∈groups, Group group) :
    Spells ((first::digits) ++ groups.flatMap (fun group => ':' :: group))
      (positional 60 (((first::digits)::groups).map (spelled 10)))

end Denotation

section Accumulation

/-- One more digit. -/
theorem positional_append (base : ℕ) (digits : List ℕ) (digit : ℕ) :
    positional base (digits ++ [digit])=positional base digits*base+digit := by
  unfold positional
  rw [List.foldl_append,List.foldl_cons,List.foldl_nil]

/-- The state after digits: the exact value while it fits, and whether it fits. -/
structure Reads (base : ℕ) (digits : List ℕ) (state : Accumulated) : Prop where
  /-- An overflow is noted exactly when the value does not fit. -/
  overflow : state.overflow=true ↔ unsignedMax<positional base digits
  /-- The value is exact while it fits. -/
  integer : state.overflow=false → state.integer=positional base digits

/-- Nothing read. -/
theorem reads_start (base : ℕ) : Reads base [] .start := by
  refine ⟨⟨fun h => ?_,fun h => ?_⟩,fun _ => rfl⟩
  · cases h
  · exact absurd h (Nat.not_lt_zero unsignedMax)

/-- One digit more is read. -/
theorem Reads.next {base digit : ℕ} {digits : List ℕ} {state : Accumulated} (h : Reads base digits state)
    (hb : 0<base) (hd : digit ≤ unsignedMax) : Reads base (digits ++ [digit]) (accumulate base state digit) := by
  cases ho : state.overflow with
  | true =>
    have hlarge := h.overflow.mp ho
    have hscaled : positional base digits ≤ positional base digits*base := Nat.le_mul_of_pos_right _ hb
    have hnext : (accumulate base state digit).overflow=true := by
      unfold accumulate
      rw [ho]
      rfl
    refine ⟨⟨fun _ => ?_,fun _ => hnext⟩,fun hf => ?_⟩
    · rw [positional_append]
      omega
    · rw [hnext] at hf
      cases hf
  | false =>
    have hvalue := h.integer ho
    have htest : (unsignedMax-digit)/base<state.integer ↔ unsignedMax<positional base (digits ++ [digit]) := by
      rw [Nat.div_lt_iff_lt_mul hb,positional_append,hvalue]
      omega
    have hnext : (accumulate base state digit).overflow=decide ((unsignedMax-digit)/base<state.integer) := by
      unfold accumulate
      rw [ho]
      rfl
    refine ⟨?_,fun hf => ?_⟩
    · rw [hnext,decide_eq_true_eq]
      exact htest
    · rw [hnext] at hf
      unfold accumulate
      rw [ho,hf,positional_append,←hvalue]
      rfl

/-- Several digits more are read. -/
theorem Reads.all {base : ℕ} {digits more : List ℕ} {state : Accumulated} (h : Reads base digits state)
    (hb : 0<base) (hd : ∀ digit∈more, digit ≤ unsignedMax) :
    Reads base (digits ++ more) (more.foldl (accumulate base) state) := by
  induction more generalizing digits state with
  | nil =>
    rw [List.append_nil]
    exact h
  | cons digit rest ih =>
    obtain ⟨hfirst,hrest⟩ := List.forall_mem_cons.mp hd
    have hnext := ih (h.next hb hfirst) hrest
    rw [List.append_assoc,List.singleton_append] at hnext
    exact hnext

end Accumulation

section Groups

/-- Value of a text of decimal digits. -/
theorem spelled_digits {text : List Char} (h : ∀ c∈text, c.isDigit=true) : spelled 10 text=digitsValue text := by
  have general : ∀ value : ℕ, (text.map (digitOf 10)).foldl (fun value digit => value*10+digit) value=
      Nat.ofDigitChars 10 text value := by
    induction text with
    | nil =>
      intro value
      rw [Nat.ofDigitChars_nil]
      rfl
    | cons c rest ih =>
      intro value
      obtain ⟨hc,hrest⟩ := List.forall_mem_cons.mp h
      rw [List.map_cons,List.foldl_cons,ih hrest,Nat.ofDigitChars_cons,digitOf_decimal hc,Nat.mul_comm value 10]
  exact general 0

/-- Digits of the first half are digits. -/
theorem between_digit {low high c : Char} (hlow : 48 ≤ low.toNat) (hhigh : high.toNat ≤ 57) (h : between low high c=true) :
    c.isDigit=true := by
  refine (isDigit_iff c).mp ?_
  unfold PatternResiduals.isDigit
  unfold between at h ⊢
  rw [Bool.and_eq_true,decide_eq_true_eq,decide_eq_true_eq] at h ⊢
  have hzero : '0'.toNat=48 := rfl
  have hnine : '9'.toNat=57 := rfl
  omega

/-- A group is a text of digits. -/
theorem Group.digits {group : List Char} (h : Group group) : group≠[] ∧ ∀ c∈group, c.isDigit=true := by
  rcases h with ⟨d,rfl,hd⟩ | ⟨c,d,rfl,hc,hd⟩
  · refine ⟨List.cons_ne_nil _ _,fun b hb => ?_⟩
    rw [List.mem_singleton.mp hb]
    exact hd
  · refine ⟨List.cons_ne_nil _ _,fun b hb => ?_⟩
    rcases List.mem_pair.mp hb with rfl | rfl
    · exact between_digit (by decide) (by decide) hc
    · exact hd

/-- A group is a small number. -/
theorem Group.small {group : List Char} (h : Group group) : spelled 10 group ≤ unsignedMax := by
  have hvalue := spelled_digits h.digits.2
  have hmax : unsignedMax=2^64-1 := rfl
  have hdecimal := h.digits.2
  rcases h with ⟨d,rfl,hd⟩ | ⟨c,d,rfl,hc,hd⟩
  · have hsmall := digit_small hd
    unfold digitsValue at hvalue
    rw [hvalue,Nat.ofDigitChars_cons,Nat.ofDigitChars_nil]
    omega
  · have hsmall := digit_small hd
    have hlow := digit_small (hdecimal c List.mem_cons_self)
    unfold digitsValue at hvalue
    rw [hvalue,Nat.ofDigitChars_cons,Nat.ofDigitChars_cons,Nat.ofDigitChars_nil]
    omega

end Groups

section Reading

/-- The first digit of a decimal number is a digit and no zero. -/
theorem leading_digit {first : Char} (h : between '1' '9' first=true) : first.isDigit=true ∧ first≠ '0' := by
  refine ⟨between_digit (by decide) (by decide) h,?_⟩
  rintro rfl
  cases h

end Reading

section Patterns

end Patterns

section Outcomes

/-- An unsigned text starts with a digit. -/
theorem Spells.head {unsigned : List Char} {m : ℕ} (h : Spells unsigned m) :
    ∃ first rest, unsigned=first::rest ∧ first.isDigit=true := by
  cases h with
  | binary _ | octal _ | hexadecimal _ => exact ⟨_,_,rfl,rfl⟩
  | decimal _ _ hf | sexagesimal _ _ _ hf => exact ⟨_,_,rfl,(leading_digit hf).1⟩

end Outcomes

end Ros1Adapter.IntegerScalars
