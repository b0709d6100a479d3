import Mathlib.Tactic.FinCases
import Ros1Adapter.PatternLanguage
import Ros1Adapter.PythonFloat
import Ros1Adapter.SceneYaml

/-!
# YAML scalars and their types

A scalar is written in a style; quoted texts are strings again, and a plain
text has the type that the implicit resolvers give it. The emitter quotes
every string that the resolvers would take for something else, and it spells
every number so that the patterns of its own type and no earlier one accept it.
-/

namespace Ros1Adapter.YamlScalars

open SceneJson SceneYaml PatternResiduals Pattern PatternLanguage PythonFloat

section Loader

/-- Type that the loader gives a scalar in a style. -/
def resolvedTag : Style → String → YamlTag
  | .plain,text => implicitTag text
  | .single,_ => .str
  | .double,_ => .str

/-- Largest 64-bit unsigned integer. -/
def unsignedMax : ℕ := 2^64-1

/-- Value of a digit; other characters have the value of the base. -/
def digitOf (base : ℕ) (c : Char) : ℕ :=
  if between '0' '9' c then c.toNat - '0'.toNat
  else if between 'a' 'f' c then c.toNat - 'a'.toNat+10
  else if between 'A' 'F' c then c.toNat - 'A'.toNat+10
  else base

/-- Digits read so far. -/
structure Accumulated where
  /-- Exact value while it fits. -/
  integer : ℕ
  /-- Digits that the long double has taken in. -/
  digits : List ℕ
  /-- The exact value no longer fits. -/
  overflow : Bool

/-- Nothing read yet. -/
def Accumulated.start : Accumulated := ⟨0,[],false⟩

/-- Take in one digit; an overflow stays. -/
def accumulate (base : ℕ) (state : Accumulated) (digit : ℕ) : Accumulated :=
  let overflow := state.overflow || decide ((unsignedMax-digit)/base<state.integer)
  ⟨if overflow then state.integer else state.integer*base+digit,state.digits ++ [digit],overflow⟩

/-- Digits of one base. -/
def readDigits (base : ℕ) : Accumulated → List Char → Except String Accumulated
  | state,[] => .ok state
  | state,c::rest =>
    if base ≤ digitOf base c then .error "Invalid scene YAML: invalid integer scalar"
    else readDigits base (accumulate base state (digitOf base c)) rest

/-- Pieces between colons; nothing is read behind a colon at the end. -/
def colonParts (text : List Char) : List (List Char) :=
  let parts := text.splitOn ':'
  if parts.getLast?=some [] then parts.dropLast else parts

/-- Blanks that a number may start with. -/
def numberBlank (c : Char) : Bool := c == ' ' || between '\t' '\r' c

/-- Decimal number of a text; what is behind the digits is ignored. -/
def stoull (text : List Char) : Except String ℕ :=
  let signed := text.dropWhile numberBlank
  let negative := signed.head?==some '-'
  let digits := (if negative || signed.head?==some '+' then signed.drop 1 else signed).takeWhile isDigit
  let value := digitsValue digits
  if digits.isEmpty || decide (unsignedMax<value) then .error "stoull"
  else .ok (if negative then (2^64-value)%2^64 else value)

/-- Groups of base sixty. -/
def readParts : Accumulated → List (List Char) → Except String Accumulated
  | state,[] => .ok state
  | state,part::rest => do
    let digit ← stoull part
    readParts (accumulate 60 state digit) rest

/-- A number without its sign. -/
def unsignedText (text : List Char) : List Char :=
  if text.head?==some '-' || text.head?==some '+' then text.drop 1 else text

/-- Base of an integer and the characters that announce it. -/
def integerBase (text : List Char) : ℕ × ℕ :=
  if "0b".toList.isPrefixOf text then (2,2)
  else if "0x".toList.isPrefixOf text then (16,2)
  else if decide (1<text.length) && text.head?==some '0' then (8,0)
  else (10,0)

section Conversions

variable (wide : ℕ → List ℕ → Float) (strtod : List Char → Option Float)

/-- Integer of the digits read; values that fit no integer become doubles. -/
def signedValue (negative : Bool) (base : ℕ) (read : Accumulated) : Json :=
  if read.overflow then .float (if negative then -wide base read.digits else wide base read.digits)
  else if !negative then .integer read.integer
  else if 2^63<read.integer then .float (-(UInt64.ofNat read.integer).toFloat)
  else if read.integer=2^63 then .integer (-2^63)
  else .integer (-read.integer)

/-- Conversion of an integer scalar. -/
def integerScalar (value : String) : Except String Json := do
  let text := value.toList.filter (· != '_')
  let negative := text.head?==some '-'
  let unsigned := unsignedText text
  let (base,start) := integerBase unsigned
  if unsigned.contains ':' && base==10 then
    let read ← readParts .start (colonParts unsigned)
    return signedValue wide negative 60 read
  else
    let read ← readDigits base .start (unsigned.drop start)
    return signedValue wide negative base read

/-- Doubles of the pieces of a float. -/
def floatParts : List (List Char) → Except String (List Float)
  | [] => .ok []
  | part::rest =>
    match strtod part with
    | none => .error "Invalid scene YAML: invalid float scalar"
    | some digit => do
      let digits ← floatParts rest
      return digit::digits

/-- Groups of base sixty, summed from right to left. -/
def sexagesimalSum (digits : List Float) : Float :=
  (digits.foldr (fun digit (sum : Float × Float) => (sum.1+digit*sum.2,sum.2*60)) (0,1)).1

/-- Conversion of a float scalar. -/
def floatScalar (value : String) : Except String Json := do
  let text := (value.toList.filter (· != '_')).map Char.toLower
  let negative := text.head?==some '-'
  let unsigned := unsignedText text
  if unsigned=".inf".toList then return .float (if negative then -1/0 else 1/0)
  if unsigned=".nan".toList then return .float (0/0)
  let digits ← floatParts strtod (colonParts unsigned)
  return .float (if negative then -sexagesimalSum digits else sexagesimalSum digits)

/-- Conversion of a boolean scalar. -/
def booleanScalar (value : String) : Except String Json :=
  let lower := String.ofList (value.toList.map Char.toLower)
  if lower="true" || lower="yes" || lower="on" then .ok (.boolean true)
  else if lower="false" || lower="no" || lower="off" then .ok (.boolean false)
  else .error "Invalid scene YAML: invalid boolean scalar"

/-- Value that the loader gives a scalar in a style. -/
def constructScalar (style : Style) (text : String) : Except String Json :=
  match resolvedTag style text with
  | .str => .ok (.string text)
  | .null => .ok .null
  | .int => integerScalar wide text
  | .float => floatScalar strtod text
  | .bool => booleanScalar text
  | .timestamp | .merge | .value => .error "Invalid scene YAML: unsupported scene document tag '?'"

end Conversions

end Loader

section Emitter

/-- Style and text that the emitter chooses for a scalar. -/
def scalarForm (key : Bool) : Json → Option (Style × String)
  | .string text => some (style text key,text)
  | .null => some (.plain,"null")
  | .boolean b => some (.plain,if b then "true" else "false")
  | .integer n => some (.plain,toString n)
  | .float x => some (.plain,String.ofList (floatText (pythonFloat x)))
  | .array _ => none
  | .object _ => none

/-- Type of a scalar. -/
def jsonTag : Json → Option YamlTag
  | .string _ => some .str
  | .null => some .null
  | .boolean _ => some .bool
  | .integer _ => some .int
  | .float _ => some .float
  | .array _ => none
  | .object _ => none

/-- Emission of a text in a style. -/
def emitForm (form : Style × String) (continuation : ℕ) : Emission :=
  match form.1 with
  | .plain => foldedText continuation false false true .text form.2.toList
  | .single => emitAll [write ['\''],foldedText continuation false true true .text form.2.toList,write ['\'']]
  | .double => emitAll [write ['"'],doubleQuoted continuation false true form.2.toList,write ['"']]

end Emitter

section Strings

/-- No scan turns the plain style on. -/
theorem scanStyle_plain {key : Bool} {previous : Option Char} {text : List Char} {allowed : Allowed}
    (h : (scanStyle key previous text allowed).plain=true) : allowed.plain=true := by
  induction text generalizing previous allowed with
  | nil => exact h
  | cons c rest ih =>
    unfold scanStyle at h
    have hnext := ih h
    simp only [Bool.and_eq_true] at hnext
    exact hnext.1.1.1.1.1

/-- A string stays plain only if the resolvers leave it one. -/
theorem style_plain {text : String} {key : Bool} (h : style text key=.plain) : implicitTag text=.str := by
  unfold style at h
  dsimp only at h
  split at h
  · cases h
  · split at h
    · rename_i hplain
      have hstart := scanStyle_plain hplain
      rw [Bool.and_eq_true,decide_eq_true_eq] at hstart
      exact hstart.1
    · split at h <;> cases h

/-- A string is read as a string. -/
theorem string_tag (text : String) (key : Bool) : resolvedTag (style text key) text=.str := by
  cases h : style text key with
  | plain => exact style_plain h
  | single | double => rfl

end Strings

section Numbers

/-- Decimal digits of the patterns. -/
theorem isDigit_iff (c : Char) : PatternResiduals.isDigit c=true ↔ c.isDigit=true := by
  unfold PatternResiduals.isDigit between Char.isDigit
  simp only [Bool.and_eq_true,decide_eq_true_eq,ge_iff_le,Char.toNat,UInt32.le_iff_toNat_le]

/-- Letters start no number. -/
def Lettered (c : Char) : Prop := c≠ '-' ∧ c≠ '+' ∧ c≠ '.' ∧ PatternResiduals.isDigit c=false

/-- Booleans are spelled with letters. -/
theorem boolean_lettered : Within Lettered booleanPattern := by
  unfold booleanPattern
  refine within_anyLiteral ?_
  intro word hword c hc
  unfold Lettered
  fin_cases hword <;> fin_cases hc <;> decide

/-- First character of a text that starts like a number. -/
theorem startsNumber_head {text : String} (h : startsNumber text=true) :
    ∃ first rest, text.toList=first::rest ∧ ¬Lettered first := by
  unfold startsNumber at h
  split at h
  · rename_i first rest htext
    refine ⟨first,rest,htext,?_⟩
    rintro ⟨hminus,hplus,hpoint,hdigit⟩
    simp only [Bool.or_eq_true,beq_iff_eq] at h
    rcases h with ((h | h) | h) | h
    · exact hminus h
    · exact hplus h
    · exact hpoint h
    · rw [hdigit] at h
      cases h
  · cases h

/-- A text that starts like a number is none that starts with a letter. -/
theorem startsNumber_ne {text other : String} (h : startsNumber text=true)
    (ho : ∀ c∈other.toList.head?, Lettered c) : text≠other := by
  rintro rfl
  obtain ⟨first,rest,htext,hfirst⟩ := startsNumber_head h
  rw [htext] at ho
  exact hfirst (ho first rfl)

/-- Resolvers of a text that starts like a number. -/
theorem implicitTag_number {text : String} (h : startsNumber text=true) :
    implicitTag text=
      if floatPattern.matchesText text then .float
      else if integerPattern.matchesText text then .int
      else if timestampPattern.matchesText text then .timestamp
      else .str := by
  have hbool : booleanPattern.matchesText text=false := by
    rw [Bool.eq_false_iff]
    intro hm
    obtain ⟨first,rest,htext,hfirst⟩ := startsNumber_head h
    have hall := Matches.within boolean_lettered ((matchesText_iff _ _).mp hm)
    rw [htext] at hall
    exact hfirst (hall first List.mem_cons_self)
  have hempty : text.isEmpty=false := by
    rw [Bool.eq_false_iff]
    intro he
    obtain ⟨first,rest,htext,_⟩ := startsNumber_head h
    rw [String.isEmpty_iff.mp he] at htext
    cases htext
  have hnull : ∀ other∈["~","null","Null","NULL","<<","="], text≠other := by
    intro other ho
    refine startsNumber_ne h ?_
    intro c hc
    unfold Lettered
    fin_cases ho <;> cases hc <;> decide
  simp only [List.forall_mem_cons] at hnull
  obtain ⟨htilde,hnull,hNull,hNULL,hmerge,hvalue,_⟩ := hnull
  unfold implicitTag
  simp only [hempty,hbool,h,beq_false_of_ne htilde,beq_false_of_ne hnull,beq_false_of_ne hNull,
    beq_false_of_ne hNULL,beq_false_of_ne hmerge,beq_false_of_ne hvalue,Bool.or_self,Bool.false_eq_true,
    if_false,Bool.true_and]

end Numbers

section Integers

/-- Number with its sign. -/
def signedDigits (negative : Bool) (n : ℕ) : List Char := (if negative then ['-'] else []) ++ Nat.toDigits 10 n

/-- Text of an integer. -/
theorem integer_text (n : Int) : (toString n).toList=signedDigits (decide (n<0)) n.natAbs := by
  unfold signedDigits
  cases n with
  | ofNat m =>
    have hpositive : ¬(Int.ofNat m<0) := by simp
    rw [decide_eq_false hpositive]
    exact Nat.toList_repr
  | negSucc m =>
    rw [decide_eq_true (Int.negSucc_lt_zero m)]
    have htext : toString (Int.negSucc m)="-" ++ (m+1).repr := rfl
    rw [htext,String.toList_append,Nat.toList_repr]
    rfl

/-- The digits of a positive number start with one that is not zero. -/
theorem toDigits_head {n : ℕ} (h : 0<n) :
    ∃ first rest, Nat.toDigits 10 n=first::rest ∧ between '1' '9' first=true ∧
      ∀ c∈rest, PatternResiduals.isDigit c=true := by
  have hall := (toDigits_digits n).2
  induction n using Nat.strong_induction_on with
  | h n ih =>
    by_cases hsmall : n<10
    · rw [Nat.toDigits_of_lt_base hsmall]
      refine ⟨n.digitChar,[],rfl,?_,by simp⟩
      have hvalue := Nat.toNat_digitChar_of_lt_ten hsmall
      unfold between
      rw [hvalue,Bool.and_eq_true,decide_eq_true_eq,decide_eq_true_eq]
      have hone : '1'.toNat=49 := rfl
      have hnine : '9'.toNat=57 := rfl
      omega
    · have hsplit := Nat.toDigits_of_base_le (b := 10) (by decide) (Nat.le_of_not_lt hsmall)
      obtain ⟨first,rest,hdigits,hfirst,hrest⟩ := ih (n/10) (by omega) (by omega) (toDigits_digits _).2
      rw [hdigits,List.cons_append] at hsplit
      refine ⟨first,rest ++ [(n%10).digitChar],hsplit,hfirst,?_⟩
      intro c hc
      refine (isDigit_iff c).mpr (hall c ?_)
      rw [hsplit]
      exact List.mem_cons_of_mem first hc

/-- An optional minus sign. -/
theorem matches_sign (negative : Bool) : Matches SceneYaml.sign (if negative then ['-'] else []) := by
  unfold SceneYaml.sign
  cases negative with
  | false => exact matches_absent _
  | true => exact matches_present (matches_char rfl)

/-- Decimal integers are integers of the resolvers. -/
theorem signedDigits_matches (negative : Bool) (n : ℕ) : Matches integerPattern (signedDigits negative n) := by
  have hsign := matches_sign negative
  have hbody : Matches (choice [char '0',sequence [oneOf (between '1' '9'),star spacedDigit]])
      (Nat.toDigits 10 n) := by
    rcases Nat.eq_zero_or_pos n with rfl | hpositive
    · exact Or.inl ⟨'0',rfl,rfl⟩
    · obtain ⟨first,rest,hdigits,hfirst,hrest⟩ := toDigits_head hpositive
      rw [hdigits]
      have hstar : Matches (star spacedDigit) rest :=
        matches_star (fun c hc => by rw [hrest c hc,Bool.true_or])
      have htail := matches_sequence hstar matches_done
      rw [List.append_nil] at htail
      exact Or.inr (matches_sequence (matches_char hfirst) htail)
  have htail := matches_sequence hbody matches_done
  rw [List.append_nil] at htail
  exact Or.inr (Or.inr (Or.inl (matches_sequence hsign htail)))

/-- Every float has a point. -/
theorem float_needs_point : Needs '.' floatPattern := by
  have hpoint : Needs '.' (char '.') := fun c hc => eq_of_beq hc
  unfold floatPattern
  simp only [Pattern.choice,Pattern.sequence,List.foldr_cons,List.foldr_nil,Needs,hpoint,or_true,true_or,and_self]

/-- Characters of a decimal integer. -/
theorem signedDigits_characters (negative : Bool) (n : ℕ) :
    ∀ c∈signedDigits negative n, c = '-' ∨ c.isDigit=true := by
  intro c hc
  unfold signedDigits at hc
  rcases List.mem_append.mp hc with hc | hc
  · cases negative with
    | false => cases hc
    | true => exact Or.inl (List.mem_singleton.mp hc)
  · exact Or.inr ((toDigits_digits n).2 c hc)

/-- A character that is neither a sign nor a digit is in no decimal integer. -/
theorem signedDigits_without {negative : Bool} {n : ℕ} {mark : Char} (hm : mark≠ '-') (hd : mark.isDigit=false) :
    mark∉signedDigits negative n := by
  intro h
  rcases signedDigits_characters negative n mark h with h | h
  · exact hm h
  · rw [hd] at h
    cases h

/-- A decimal integer starts like a number. -/
theorem signedDigits_starts {text : String} {negative : Bool} {n : ℕ} (h : text.toList=signedDigits negative n) :
    startsNumber text=true := by
  unfold startsNumber
  rw [h]
  cases hdigits : signedDigits negative n with
  | nil =>
    unfold signedDigits at hdigits
    exact absurd (List.append_eq_nil_iff.mp hdigits).2 (toDigits_digits n).1
  | cons first rest =>
    have hfirst := signedDigits_characters negative n first (by rw [hdigits]; exact List.mem_cons_self)
    dsimp only
    rcases hfirst with rfl | hfirst
    · rfl
    · rw [(isDigit_iff first).mpr hfirst,Bool.or_true]

/-- A decimal integer is read as an integer. -/
theorem integer_tag (n : Int) : implicitTag (toString n)=.int := by
  have htext := integer_text n
  rw [implicitTag_number (signedDigits_starts htext)]
  have hfloat : floatPattern.matchesText (toString n)=false := by
    rw [Bool.eq_false_iff]
    intro hm
    have hpoint := Matches.needs float_needs_point ((matchesText_iff _ _).mp hm)
    rw [htext] at hpoint
    exact signedDigits_without (by decide) (by decide) hpoint
  have hinteger : integerPattern.matchesText (toString n)=true := by
    rw [matchesText_iff,htext]
    exact signedDigits_matches _ _
  rw [hfloat,hinteger]
  rfl

end Integers

section IntegerConversion

/-- Value of a decimal digit. -/
theorem digitOf_decimal {c : Char} (h : c.isDigit=true) (base : ℕ) : digitOf base c=c.toNat - '0'.toNat := by
  have hdigit := (isDigit_iff c).mpr h
  unfold PatternResiduals.isDigit at hdigit
  unfold digitOf
  rw [if_pos hdigit]

/-- A decimal digit is below ten. -/
theorem digit_small {c : Char} (h : c.isDigit=true) : c.toNat - '0'.toNat<10 := by
  have hdigit := (isDigit_iff c).mpr h
  unfold PatternResiduals.isDigit between at hdigit
  rw [Bool.and_eq_true,decide_eq_true_eq,decide_eq_true_eq] at hdigit
  have hzero : '0'.toNat=48 := rfl
  have hnine : '9'.toNat=57 := rfl
  omega

/-- More digits make no smaller number. -/
theorem ofDigitChars_ge (text : List Char) (read : ℕ) : read ≤ Nat.ofDigitChars 10 text read := by
  rw [Nat.ofDigitChars_eq_ofDigitChars_zero]
  have hpower := Nat.one_le_pow text.length 10 (by decide)
  have hscaled := Nat.mul_le_mul_right read hpower
  omega

/-- A digit that fits is taken in exactly. -/
theorem accumulate_fits {base digit : ℕ} {state : Accumulated} (hb : 0<base) (ho : state.overflow=false)
    (hf : state.integer*base+digit ≤ unsignedMax) :
    accumulate base state digit=⟨state.integer*base+digit,state.digits ++ [digit],false⟩ := by
  have hroom : state.integer*base ≤ unsignedMax-digit := by omega
  have hquotient := (Nat.le_div_iff_mul_le hb).mpr hroom
  have hover : decide ((unsignedMax-digit)/base<state.integer)=false := by
    rw [decide_eq_false_iff_not]
    omega
  unfold accumulate
  simp only [ho,hover,Bool.or_self,Bool.false_eq_true,if_false]

/-- Decimal digits are read exactly while they fit. -/
theorem readDigits_decimal {text : List Char} {state : Accumulated} (hd : ∀ c∈text, c.isDigit=true)
    (ho : state.overflow=false) (hf : Nat.ofDigitChars 10 text state.integer ≤ unsignedMax) :
    ∃ digits, readDigits 10 state text=.ok ⟨Nat.ofDigitChars 10 text state.integer,digits,false⟩ := by
  induction text generalizing state with
  | nil =>
    obtain ⟨integer,digits,overflow⟩ := state
    dsimp only at ho
    rw [ho]
    exact ⟨digits,by rw [Nat.ofDigitChars_nil]; rfl⟩
  | cons c rest ih =>
    obtain ⟨hc,hrest⟩ := List.forall_mem_cons.mp hd
    have hvalue := digitOf_decimal hc 10
    have hsmall := digit_small hc
    rw [Nat.ofDigitChars_cons] at hf ⊢
    have hbelow := ofDigitChars_ge rest (10*state.integer+(c.toNat - '0'.toNat))
    rw [Nat.mul_comm 10 state.integer] at hf hbelow ⊢
    have hroom : state.integer*10+(c.toNat - '0'.toNat) ≤ unsignedMax := by omega
    have hstep := accumulate_fits (by decide) ho hroom
    unfold readDigits
    rw [hvalue,if_neg (by omega),hstep]
    exact @ih ⟨_,_,false⟩ hrest rfl hf

/-- Decimal digits of a number announce no other base. -/
theorem integerBase_decimal (n : ℕ) : integerBase (Nat.toDigits 10 n)=(10,0) := by
  have hletter : ∀ mark : Char, mark.isDigit=false → mark∉Nat.toDigits 10 n := by
    intro mark hm h
    rw [(toDigits_digits n).2 mark h] at hm
    cases hm
  have hplain : ∀ mark : Char, mark.isDigit=false → ['0',mark].isPrefixOf (Nat.toDigits 10 n)=false := by
    intro mark hm
    rw [Bool.eq_false_iff]
    intro h
    obtain ⟨rest,hrest⟩ := List.isPrefixOf_iff_prefix.mp h
    refine hletter mark hm ?_
    rw [←hrest]
    simp
  have hzero : (decide (1<(Nat.toDigits 10 n).length) && (Nat.toDigits 10 n).head?==some '0')=false := by
    rcases Nat.eq_zero_or_pos n with rfl | hpositive
    · rfl
    · obtain ⟨first,rest,hdigits,hfirst,_⟩ := toDigits_head hpositive
      have hne : first≠ '0' := by
        rintro rfl
        exact absurd hfirst (by decide)
      rw [hdigits,List.head?_cons]
      simp [hne]
  unfold integerBase
  have hb := hplain 'b' (by decide)
  have hx := hplain 'x' (by decide)
  have hbText : "0b".toList=['0','b'] := rfl
  have hxText : "0x".toList=['0','x'] := rfl
  rw [hbText,hxText,hb,hx,hzero]
  rfl

/-- A sign in front of digits is dropped. -/
theorem unsignedText_digits (negative : Bool) (n : ℕ) :
    unsignedText (signedDigits negative n)=Nat.toDigits 10 n := by
  unfold unsignedText signedDigits
  cases negative with
  | true => rfl
  | false =>
    simp only [Bool.false_eq_true,if_false,List.nil_append]
    obtain ⟨hne,hall⟩ := toDigits_digits n
    cases hdigits : Nat.toDigits 10 n with
    | nil => exact absurd hdigits hne
    | cons first rest =>
      rw [hdigits] at hall
      have hfirst := hall first List.mem_cons_self
      have hminus : first≠ '-' := by
        rintro rfl
        cases hfirst
      have hplus : first≠ '+' := by
        rintro rfl
        cases hfirst
      rw [if_neg (by simp [hminus,hplus])]

/-- The sign in front of digits. -/
theorem head_digits (negative : Bool) (n : ℕ) : ((signedDigits negative n).head?==some '-')=negative := by
  unfold signedDigits
  cases negative with
  | true => rfl
  | false =>
    simp only [Bool.false_eq_true,if_false,List.nil_append]
    cases hdigits : Nat.toDigits 10 n with
    | nil => rfl
    | cons first rest =>
      have hfirst := (toDigits_digits n).2 first (by rw [hdigits]; exact List.mem_cons_self)
      have hminus : first≠ '-' := by
        rintro rfl
        cases hfirst
      simp [hminus]

/-- Integers that fit 64 bits, signed or not. -/
def Fits (n : Int) : Prop := -2^63 ≤ n ∧ n<2^64

/-- A number that fits keeps its value and sign. -/
theorem signedValue_fits (wide : ℕ → List ℕ → Float) {n : Int} (h : Fits n) (base : ℕ) (digits : List ℕ) :
    signedValue wide (decide (n<0)) base ⟨n.natAbs,digits,false⟩=.integer n := by
  obtain ⟨hlow,hhigh⟩ := h
  unfold signedValue
  rw [if_neg Bool.false_ne_true]
  by_cases hneg : n<0
  · rw [decide_eq_true hneg]
    simp only [Bool.not_true,Bool.false_eq_true,if_false]
    rw [if_neg (by omega)]
    split
    · rename_i hmost
      congr 1
      omega
    · congr 1
      omega
  · rw [decide_eq_false hneg]
    simp only [Bool.not_false,if_true]
    congr 1
    omega

/-- The conversion gives back an integer that fits. -/
theorem integer_value (wide : ℕ → List ℕ → Float) {n : Int} (h : Fits n) :
    integerScalar wide (toString n)=.ok (.integer n) := by
  have hkept : (signedDigits (decide (n<0)) n.natAbs).filter (· != '_')=signedDigits (decide (n<0)) n.natAbs := by
    apply List.filter_eq_self.mpr
    intro c hc
    rw [bne_iff_ne]
    rintro rfl
    exact signedDigits_without (by decide) (by decide) hc
  have hcolon : (Nat.toDigits 10 n.natAbs).contains ':'=false := by
    rw [Bool.eq_false_iff]
    intro hc
    have hdigit := (toDigits_digits n.natAbs).2 ':' (List.contains_iff_mem.mp hc)
    cases hdigit
  have hfits : n.natAbs ≤ unsignedMax := by
    obtain ⟨hlow,hhigh⟩ := h
    unfold unsignedMax
    omega
  have hvalue : Nat.ofDigitChars 10 (Nat.toDigits 10 n.natAbs) Accumulated.start.integer=n.natAbs :=
    Nat.ofDigitChars_ten_toDigits
  obtain ⟨digits,hread⟩ := @readDigits_decimal _ .start (toDigits_digits n.natAbs).2 rfl (hvalue.trans_le hfits)
  rw [hvalue] at hread
  unfold integerScalar
  rw [integer_text,hkept]
  simp only [unsignedText_digits,integerBase_decimal,hcolon,head_digits,Bool.false_and,Bool.false_eq_true,if_false,
    List.drop_zero]
  rw [hread]
  exact congrArg Except.ok (signedValue_fits wide h 10 digits)

end IntegerConversion

section Floats

/-- Exponent of a notation, or nothing. -/
def PowerText (text : List Char) : Prop :=
  text=[] ∨ ∃ sign power, text= 'e'::sign::power ∧ PowerSign sign ∧ Digits power

/-- An exponent is one of the resolvers. -/
theorem PowerText.matches {text : List Char} (h : PowerText text) : Matches (optional SceneYaml.exponent) text := by
  rcases h with rfl | ⟨sign,power,rfl,hsign,hpower⟩
  · exact matches_absent _
  · have hdigits : Matches (plus digit) power :=
      matches_plus hpower.1 (fun c hc => (isDigit_iff c).mpr (hpower.2 c hc))
    have hmark : Matches (oneOf (fun c => c == '-' || c == '+')) [sign] := by
      refine matches_char ?_
      rcases hsign with rfl | rfl <;> rfl
    have htail := matches_sequence hdigits matches_done
    rw [List.append_nil] at htail
    have hletter : Matches (oneOf (fun c => c == 'e' || c == 'E')) ['e'] := matches_char rfl
    exact matches_present (matches_sequence hletter (matches_sequence hmark htail))

/-- Characters of an exponent. -/
theorem PowerText.characters {text : List Char} (h : PowerText text) :
    ∀ c∈text, c.isDigit=true ∨ c = 'e' ∨ c = '-' ∨ c = '+' := by
  rcases h with rfl | ⟨sign,power,rfl,hsign,hpower⟩
  · intro c hc
    cases hc
  · intro c hc
    simp only [List.mem_cons] at hc
    rcases hc with rfl | rfl | hc
    · exact Or.inr (Or.inl rfl)
    · exact Or.inr (Or.inr hsign)
    · exact Or.inl (hpower.2 c hc)

/-- Digits with a point and an exponent are a float of the resolvers. -/
theorem pointed_matches (negative : Bool) {whole rest power : List Char} (hw : Digits whole)
    (hr : ∀ c∈rest, c.isDigit=true) (hp : PowerText power) :
    Matches floatPattern ((if negative then ['-'] else []) ++ (whole ++ '.' :: (rest ++ power))) := by
  have hspaced : ∀ c : Char, c.isDigit=true → (PatternResiduals.isDigit c || c == '_')=true := by
    intro c hc
    rw [(isDigit_iff c).mpr hc,Bool.true_or]
  have hpower := matches_sequence hp.matches matches_done
  rw [List.append_nil] at hpower
  have hrest : Matches (star spacedDigit) rest := matches_star (fun c hc => hspaced c (hr c hc))
  have hpoint : Matches (char '.') ['.'] := matches_char rfl
  have htail := matches_sequence hpoint (matches_sequence hrest hpower)
  obtain ⟨hne,hall⟩ := hw
  cases whole with
  | nil => exact absurd rfl hne
  | cons first more =>
    obtain ⟨hfirst,hmore⟩ := List.forall_mem_cons.mp hall
    have hstar : Matches (star spacedDigit) more := matches_star (fun c hc => hspaced c (hmore c hc))
    have hdigit : Matches digit [first] := matches_char ((isDigit_iff first).mpr hfirst)
    have hwhole := matches_sequence hdigit (matches_sequence hstar htail)
    exact Or.inl (matches_sequence (matches_sign negative) hwhole)

/-- A spelling with a point is written as it is. -/
theorem floatText_pointed {spelled : String} (h : '.'∈spelled.toList) : floatText spelled=spelled.toList := by
  have hne : ∀ other∈["nan","inf","-inf"], spelled≠other := by
    have hnone : ∀ other∈["nan","inf","-inf"], '.'∉other.toList := by decide
    rintro other ho rfl
    exact hnone spelled ho h
  simp only [List.forall_mem_cons] at hne
  obtain ⟨hnan,hinf,hminus,_⟩ := hne
  unfold floatText
  dsimp only
  rw [if_neg hnan,if_neg hinf,if_neg hminus,if_neg (fun hc => hc.1 h)]

/-- A spelling with an exponent and no point gets a point and a zero. -/
theorem floatText_power {spelled : String} {before after : List Char} (h : spelled.toList=before ++ 'e'::after)
    (hb : ∀ c∈before, c≠ 'e' ∧ c≠ '.') (ha : '.'∉after) :
    floatText spelled=before ++ '.':: '0':: 'e'::after := by
  have hmark : 'e'∈spelled.toList := by
    rw [h]
    simp
  have hne : ∀ other∈["nan","inf","-inf"], spelled≠other := by
    have hnone : ∀ other∈["nan","inf","-inf"], 'e'∉other.toList := by decide
    rintro other ho rfl
    exact hnone spelled ho hmark
  simp only [List.forall_mem_cons] at hne
  obtain ⟨hnan,hinf,hminus,_⟩ := hne
  have hpoint : '.'∉spelled.toList := by
    rw [h,List.mem_append,List.mem_cons]
    rintro (hc | hc | hc)
    · exact (hb '.' hc).2 rfl
    · cases hc
    · exact ha hc
  have hall : ∀ c∈before, decide (c≠ 'e')=true := fun c hc => decide_eq_true (hb c hc).1
  unfold floatText
  dsimp only
  rw [if_neg hnan,if_neg hinf,if_neg hminus,if_pos ⟨hpoint,hmark⟩,h,List.takeWhile_append_of_pos hall,
    List.dropWhile_append_of_pos hall]
  simp

/-- Sign of a spelling. -/
theorem signText_minus (sign : Float.Model.UnpackedFloat.Sign) :
    ∃ negative : Bool, signText sign=if negative then ['-'] else [] := by
  cases sign with
  | negative => exact ⟨true,rfl⟩
  | positive => exact ⟨false,rfl⟩

/-- The text of a finite double has a point between digits. -/
theorem finite_text {x : Float} (h : x.isFinite=true) :
    ∃ (negative : Bool) (whole rest power : List Char), Digits whole ∧ (∀ c∈rest, c.isDigit=true) ∧ PowerText power ∧
      floatText (pythonFloat x)=(if negative then ['-'] else []) ++ (whole ++ '.' :: (rest ++ power)) := by
  obtain ⟨sign,text,htext,hspelled⟩ := pythonFloat_spelled h
  obtain ⟨negative,hsign⟩ := signText_minus sign
  rw [hsign] at htext
  refine ⟨negative,?_⟩
  cases hspelled with
  | @fixed whole rest hw hr =>
    refine ⟨whole,rest,[],hw,hr.2,Or.inl rfl,?_⟩
    rw [floatText_pointed (by rw [htext]; simp),htext,List.append_nil]
  | @power first mark power hf hs hp =>
    have hfirst : Digits [first] := ⟨by simp,by simp [hf]⟩
    refine ⟨[first],['0'],'e'::mark::power,hfirst,by simp,Or.inr ⟨mark,power,rfl,hs,hp⟩,?_⟩
    have hbefore : ∀ c∈(if negative then ['-'] else []) ++ [first], c≠ 'e' ∧ c≠ '.' := by
      intro c hc
      rcases List.mem_append.mp hc with hc | hc
      · cases negative with
        | false => cases hc
        | true =>
          rw [List.mem_singleton.mp hc]
          decide
      · rw [List.mem_singleton.mp hc]
        refine ⟨?_,?_⟩
        · rintro rfl
          cases hf
        · rintro rfl
          cases hf
    have hafter : '.'∉mark::power := by
      rw [List.mem_cons]
      rintro (hc | hc)
      · rcases hs with hs | hs
        · rw [hs] at hc
          cases hc
        · rw [hs] at hc
          cases hc
      · cases hp.2 '.' hc
    have hsplit : (pythonFloat x).toList=((if negative then ['-'] else []) ++ [first]) ++ 'e'::mark::power := by
      rw [htext,List.append_assoc]
      rfl
    rw [floatText_power hsplit hbefore hafter,List.append_assoc]
    rfl
  | @scientific first mark rest power hf hr hs hp =>
    have hfirst : Digits [first] := ⟨by simp,by simp [hf]⟩
    refine ⟨[first],rest,'e'::mark::power,hfirst,hr.2,Or.inr ⟨mark,power,rfl,hs,hp⟩,?_⟩
    rw [floatText_pointed (by rw [htext]; simp),htext]
    rfl

/-- Spellings of nonfinite doubles. -/
theorem nonfinite_spelled {x : Float} (h : x.isFinite=false) : pythonFloat x∈["nan","inf","-inf"] := by
  have hmodel : x.toModel.unpack.isFinite=false := h
  unfold pythonFloat
  cases hunpack : x.toModel.unpack with
  | notANumber => simp
  | infinity sign => cases sign <;> decide
  | zero _ | finite _ _ _ _ =>
    rw [hunpack] at hmodel
    cases hmodel

/-- Characters of the text of a double. -/
theorem float_characters (x : Float) :
    ∀ c∈floatText (pythonFloat x), c.isDigit=true ∨ c∈['-','+','.','e','i','n','f','a','u','l','t','r','s'] := by
  cases hfinite : x.isFinite with
  | false =>
    have hspelled := nonfinite_spelled hfinite
    have hall : ∀ spelled∈["nan","inf","-inf"], ∀ c∈floatText spelled,
        c∈['-','+','.','e','i','n','f','a','u','l','t','r','s'] := by
      intro spelled hspelled c hc
      fin_cases hspelled <;> fin_cases hc <;> decide
    exact fun c hc => Or.inr (hall _ hspelled c hc)
  | true =>
    obtain ⟨negative,whole,rest,power,hw,hr,hp,htext⟩ := finite_text hfinite
    intro c hc
    rw [htext] at hc
    simp only [List.mem_append,List.mem_cons] at hc
    rcases hc with hc | hc | rfl | hc | hc
    · cases negative with
      | false => cases hc
      | true =>
        rw [List.mem_singleton.mp hc]
        exact Or.inr (by decide)
    · exact Or.inl (hw.2 c hc)
    · exact Or.inr (by decide)
    · exact Or.inl (hr c hc)
    · exact (hp.characters c hc).imp id (fun hmark => by
        rcases hmark with rfl | rfl | rfl <;> decide)

/-- A text of the float pattern is read as a float. -/
theorem float_tag_of_matches {text : String} (hs : startsNumber text=true) (hm : Matches floatPattern text.toList) :
    implicitTag text=.float := by
  rw [implicitTag_number hs,if_pos ((matchesText_iff _ _).mpr hm)]

/-- A nonfinite double is read as a float. -/
theorem nonfinite_tag {x : Float} (h : x.isFinite=false) :
    implicitTag (String.ofList (floatText (pythonFloat x)))=.float := by
  have hspelled := nonfinite_spelled h
  revert hspelled
  generalize pythonFloat x=spelled
  revert spelled
  decide +kernel

/-- A double is read as a float. -/
theorem float_tag (x : Float) : implicitTag (String.ofList (floatText (pythonFloat x)))=.float := by
  cases hfinite : x.isFinite with
  | false => exact nonfinite_tag hfinite
  | true =>
    obtain ⟨negative,whole,rest,power,hw,hr,hp,htext⟩ := finite_text hfinite
    have hmatches := pointed_matches negative hw hr hp
    refine float_tag_of_matches ?_ (by rw [String.toList_ofList,htext]; exact hmatches)
    unfold startsNumber
    rw [String.toList_ofList,htext]
    obtain ⟨hne,hall⟩ := hw
    cases negative with
    | true => rfl
    | false =>
      cases whole with
      | nil => exact absurd rfl hne
      | cons first more =>
        have hfirst := (isDigit_iff first).mpr (hall first List.mem_cons_self)
        simp [hfirst]

end Floats

section Writing

/-- A text without blanks and line breaks is written as it is. -/
theorem foldedText_write {text : List Char} (h : ∀ c∈text, c≠ ' ' ∧ lineBreak c=false) (continuation : ℕ)
    (key first : Bool) : foldedText continuation key false first .text text=write text := by
  induction text generalizing first with
  | nil => rfl
  | cons c rest ih =>
    obtain ⟨⟨hblank,hbreak⟩,hrest⟩ := List.forall_mem_cons.mp h
    unfold foldedText
    simp only [hblank,hbreak,Bool.false_and,Bool.false_eq_true,if_false,ih hrest]
    funext column
    simp only [emitAll,List.foldr_cons,List.foldr_nil,chain,write,skip,List.nil_append,List.append_nil,
      List.singleton_append,List.length_nil,List.length_cons,Nat.zero_add,Nat.add_assoc,Nat.add_comm 1]

/-- Characters of numbers are neither blanks nor line breaks. -/
theorem number_unbroken {c : Char} (h : c.isDigit=true ∨ c∈['-','+','.','e','i','n','f','a','u','l','t','r','s']) :
    c≠ ' ' ∧ lineBreak c=false := by
  rcases h with h | h
  · refine ⟨?_,?_⟩
    · rintro rfl
      cases h
    · have hdigit := (isDigit_iff c).mpr h
      unfold PatternResiduals.isDigit between at hdigit
      rw [Bool.and_eq_true,decide_eq_true_eq,decide_eq_true_eq] at hdigit
      have hnine : '9'.toNat=57 := rfl
      have hzero : '0'.toNat=48 := rfl
      have hne : c≠ '\n' := by
        rintro rfl
        exact absurd h (by decide)
      unfold lineBreak
      simp only [Bool.or_eq_false_iff,beq_eq_false_iff_ne]
      exact ⟨⟨⟨hne,by omega⟩,by omega⟩,by omega⟩
  · fin_cases h <;> decide

/-- Words of nulls and booleans have neither blanks nor line breaks. -/
theorem word_unbroken {word : List Char} (h : word∈["null".toList,"true".toList,"false".toList]) :
    ∀ c∈word, c≠ ' ' ∧ lineBreak c=false := by
  intro c hc
  fin_cases h <;> fin_cases hc <;> decide

/-- The emitter writes a scalar in the style and with the text chosen for it. -/
theorem emitScalar_form {value : Json} {form : Style × String} (h : scalarForm false value=some form)
    (continuation : ℕ) : emitScalar pythonFloat value continuation=emitForm form continuation := by
  unfold emitForm
  cases value with
  | string text =>
    cases h
    have hform : emitString text continuation false=emitForm (style text false,text) continuation := by
      unfold emitString emitForm
      cases style text false with
      | plain | single | double => rfl
    exact hform
  | null =>
    cases h
    exact (foldedText_write (word_unbroken (by simp)) continuation false true).symm
  | boolean b =>
    cases h
    cases b with
    | false | true => exact (foldedText_write (word_unbroken (by simp)) continuation false true).symm
  | integer n =>
    cases h
    refine (foldedText_write ?_ continuation false true).symm
    intro c hc
    rw [integer_text] at hc
    refine number_unbroken ?_
    rcases signedDigits_characters _ _ c hc with rfl | hdigit
    · exact Or.inr (by decide)
    · exact Or.inl hdigit
  | float x =>
    cases h
    dsimp only
    rw [String.toList_ofList]
    refine (foldedText_write ?_ continuation false true).symm
    intro c hc
    exact number_unbroken (float_characters x c hc)
  | array _ | object _ => cases h

end Writing

section Scalars

/-- A boolean is read back. -/
theorem boolean_value (b : Bool) :
    implicitTag (if b then "true" else "false")=.bool ∧ booleanScalar (if b then "true" else "false")=.ok (.boolean b) := by
  cases b with
  | false | true => exact ⟨by decide +kernel,rfl⟩

/-- Scalars keep their type, and all but doubles their value. -/
theorem scalars_kept (wide : ℕ → List ℕ → Float) (strtod : List Char → Option Float) (key : Bool) {value : Json}
    {style : Style} {text : String} (hi : ∀ n, value=.integer n → Fits n)
    (h : scalarForm key value=some (style,text)) :
    jsonTag value=some (resolvedTag style text) ∧
      ((∀ x, value≠.float x) → constructScalar wide strtod style text=.ok value) := by
  unfold constructScalar
  cases value with
  | string text =>
    cases h
    have htag := string_tag text key
    rw [htag]
    exact ⟨rfl,fun _ => rfl⟩
  | null =>
    cases h
    exact ⟨rfl,fun _ => rfl⟩
  | boolean b =>
    cases h
    obtain ⟨himplicit,hvalue⟩ := boolean_value b
    have htag : resolvedTag .plain (if b then "true" else "false")=.bool := himplicit
    rw [htag]
    exact ⟨rfl,fun _ => hvalue⟩
  | integer n =>
    cases h
    have htag : resolvedTag .plain (toString n)=.int := integer_tag n
    rw [htag]
    exact ⟨rfl,fun _ => integer_value wide (hi n rfl)⟩
  | float x =>
    cases h
    have htag : resolvedTag .plain (String.ofList (floatText (pythonFloat x)))=.float := float_tag x
    rw [htag]
    exact ⟨rfl,fun hx => absurd rfl (hx x)⟩
  | array items => cases h
  | object members => cases h

/-- The lowest integer is read back. -/
theorem scalars_kept_lowest :
    jsonTag (.integer (-2^63))=some (resolvedTag .plain "-9223372036854775808") ∧
      constructScalar (fun base digits => digits.foldl (fun sum digit => sum*Float.ofNat base+Float.ofNat digit) 0)
        (fun _ => none) .plain "-9223372036854775808"=.ok (.integer (-2^63)) := by
  have hform : scalarForm false (.integer (-2^63))=some (.plain,"-9223372036854775808") := by decide
  have hfits : ∀ n, Json.integer (-2^63)=.integer n → Fits n := by
    rintro n ⟨⟩
    exact ⟨by decide,by decide⟩
  have hkept := scalars_kept (fun base digits => digits.foldl (fun sum digit => sum*Float.ofNat base+Float.ofNat digit) 0)
    (fun _ => none) false hfits hform
  exact ⟨hkept.1,hkept.2 (fun x hx => by cases hx)⟩

end Scalars

end Ros1Adapter.YamlScalars
