import Mathlib.Data.List.TakeWhile
import Ros1Adapter.JsonAutomata
import Ros1Adapter.PatternResiduals
import Ros1Adapter.StepScanners

/-!
# Reading the tokens of JSON

Texts are lists of bytes, held as characters. A reader skips blanks, takes
strings up to their closing quote and numbers as far as they go, and stops at
the first character that starts no token. The nonfinite literals are tokens on
demand. What a string spells is left to a decoder.
-/

namespace Ros1Adapter.JsonLexing

open StepScanners JsonAutomata PatternResiduals

section Definitions

/-- Blanks between tokens. -/
def isBlank (c : Char) : Bool := c == ' ' || c == '\t' || c == '\r' || c == '\n'

/-- Tokens of one character. -/
def punctuation (c : Char) : Option Token :=
  if c = '[' then some .openArray
  else if c = ']' then some .closeArray
  else if c = '\x7b' then some .openObject
  else if c = '\x7d' then some .closeObject
  else if c = ',' then some .comma
  else if c = ':' then some .colon
  else none

/-- A string behind its opening quote, up to the closing one; a backslash takes the next character with it. -/
def stringEnd : List Char → Option (List Char × List Char)
  | [] => none
  | c::rest =>
    if c = '"' then some ([c],rest)
    else if c.toNat<0x20 then none
    else if c = '\\' then
      match rest with
      | [] => none
      | d::more => (stringEnd more).map (fun p => (c::d::p.1,p.2))
    else (stringEnd rest).map (fun p => (c::p.1,p.2))

/-- An optional first character. -/
def splitFirst (accepts : Char → Bool) : List Char → List Char × List Char
  | [] => ([],[])
  | c::rest => if accepts c then ([c],rest) else ([],c::rest)

/-- Digits as far as they go; at least one. -/
def scanDigits (text : List Char) : Option (List Char × List Char) :=
  if (text.takeWhile PatternResiduals.isDigit).isEmpty then none
  else some (text.takeWhile PatternResiduals.isDigit,text.dropWhile PatternResiduals.isDigit)

/-- Integer part of a number: zero, or digits that do not start with it. -/
def scanInteger : List Char → Option (List Char × List Char)
  | [] => none
  | c::rest =>
    if c = '0' then some ([c],rest)
    else if between '1' '9' c then
      some (c::rest.takeWhile PatternResiduals.isDigit,rest.dropWhile PatternResiduals.isDigit)
    else none

/-- Fraction of a number, if there is one. -/
def scanFraction : List Char → Option (List Char × List Char)
  | [] => some ([],[])
  | c::rest =>
    if c = '.' then (scanDigits rest).map (fun p => (c::p.1,p.2))
    else some ([],c::rest)

/-- Sign of an exponent. -/
def isSign (c : Char) : Bool := c == '+' || c == '-'

/-- Exponent of a number, if there is one. -/
def scanExponent : List Char → Option (List Char × List Char)
  | [] => some ([],[])
  | c::rest =>
    if c = 'e' ∨ c = 'E' then
      (scanDigits (splitFirst isSign rest).2).map (fun p => (c::((splitFirst isSign rest).1 ++ p.1),p.2))
    else some ([],c::rest)

/-- The part of a number behind its sign. -/
def scanUnsigned (text : List Char) : Option (List Char × List Char) :=
  (scanInteger text).bind fun whole =>
    (scanFraction whole.2).bind fun fraction =>
      (scanExponent fraction.2).map fun power => (whole.1 ++ (fraction.1 ++ power.1),power.2)

/-- A number as far as it goes; nothing if it breaks off. -/
def scanNumber (text : List Char) : Option (List Char × List Char) :=
  (scanUnsigned (splitFirst (· == '-') text).2).map
    (fun p => ((splitFirst (· == '-') text).1 ++ p.1,p.2))

/-- Words of JSON. -/
def plainWords : List (List Char × Token) :=
  [("true".toList,.literal (some true)),("false".toList,.literal (some false)),("null".toList,.literal none)]

/-- Words that spell nonfinite numbers. -/
def nonfiniteWords : List (List Char × Token) :=
  [("NaN".toList,.number "NaN".toList),("Infinity".toList,.number "Infinity".toList),
    ("-Infinity".toList,.number "-Infinity".toList)]

/-- The word that a text starts with. -/
def scanWord (words : List (List Char × Token)) (text : List Char) : Option (List Token × List Char) :=
  (words.find? (fun word => word.1.isPrefixOf text)).map (fun word => ([word.2],text.drop word.1.length))

variable (decode : List Char → Option String) (words : List (List Char × Token))

/-- First token of a text, or a blank in front of it. -/
def lexOne : List Char → Option (List Token × List Char)
  | [] => none
  | c::rest =>
    if isBlank c then some ([],rest)
    else match punctuation c with
    | some token => some ([token],rest)
    | none =>
      if c = '"' then
        (stringEnd rest).bind fun p => (decode (c::p.1)).map fun value => ([.text value],p.2)
      else match scanWord words (c::rest) with
        | some result => some result
        | none => (scanNumber (c::rest)).map (fun p => ([.number p.1],p.2))

/-- Tokens of a text, and the text that is left where no token starts. -/
def lex (text : List Char) : List Token × List Char := scanAll (lexOne decode words) text

end Definitions

section Strings

end Strings

section Numbers

/-- Integer parts. -/
def WholeText (text : List Char) : Prop :=
  text=['0'] ∨ ∃ first rest, text=first::rest ∧ between '1' '9' first=true ∧
    ∀ c∈rest, PatternResiduals.isDigit c=true

/-- At least one digit. -/
def DigitText (text : List Char) : Prop := text≠[] ∧ ∀ c∈text, PatternResiduals.isDigit c=true

/-- Fractions. -/
def FractionText (text : List Char) : Prop := text=[] ∨ ∃ digits, text= '.'::digits ∧ DigitText digits

/-- Exponents. -/
def ExponentText (text : List Char) : Prop :=
  text=[] ∨ ∃ mark sign digits, text=mark::(sign ++ digits) ∧ (mark = 'e' ∨ mark = 'E') ∧
    (sign=[] ∨ ∃ c, sign=[c] ∧ isSign c=true) ∧ DigitText digits

/-- Numbers of JSON. -/
def NumberText (text : List Char) : Prop :=
  ∃ minus whole fraction power, text=minus ++ (whole ++ (fraction ++ power)) ∧ (minus=[] ∨ minus=['-']) ∧
    WholeText whole ∧ FractionText fraction ∧ ExponentText power

/-- First characters of exponents. -/
theorem ExponentText.head {power : List Char} (h : ExponentText power) : ∀ c∈power.head?, c = 'e' ∨ c = 'E' := by
  rcases h with rfl | ⟨mark,sign,digits,rfl,hmark,_⟩
  · intro c hc
    cases hc
  · intro c hc
    cases hc
    exact hmark

/-- First characters of fractions in front of exponents. -/
theorem FractionText.head {fraction power : List Char} (hf : FractionText fraction) (hp : ExponentText power) :
    ∀ c∈(fraction ++ power).head?, c = '.' ∨ c = 'e' ∨ c = 'E' := by
  rcases hf with rfl | ⟨digits,rfl,_⟩
  · intro c hc
    exact Or.inr (hp.head c hc)
  · intro c hc
    cases hc
    exact Or.inl rfl

/-- First characters of integer parts. -/
theorem WholeText.head {whole : List Char} (h : WholeText whole) :
    ∃ first rest, whole=first::rest ∧ PatternResiduals.isDigit first=true := by
  rcases h with rfl | ⟨first,rest,rfl,hfirst,_⟩
  · exact ⟨'0',[],rfl,rfl⟩
  · refine ⟨first,rest,rfl,?_⟩
    unfold between at hfirst
    unfold PatternResiduals.isDigit between
    rw [Bool.and_eq_true,decide_eq_true_eq,decide_eq_true_eq] at hfirst ⊢
    have hzero : '0'.toNat=48 := rfl
    have hone : '1'.toNat=49 := rfl
    omega

/-- A number starts with a digit, or with a minus sign and a digit. -/
theorem NumberText.head {number : List Char} (h : NumberText number) :
    ∃ first rest, number=first::rest ∧ (PatternResiduals.isDigit first=true ∨
      first = '-' ∧ ∃ second more, rest=second::more ∧ PatternResiduals.isDigit second=true) := by
  obtain ⟨minus,whole,fraction,power,rfl,hminus,hwhole,_,_⟩ := h
  obtain ⟨first,rest,rfl,hfirst⟩ := hwhole.head
  rcases hminus with rfl | rfl
  · exact ⟨first,_,rfl,Or.inl hfirst⟩
  · exact ⟨'-',_,rfl,Or.inr ⟨rfl,first,_,rfl,hfirst⟩⟩

/-- Characters of numbers. -/
theorem NumberText.characters {number : List Char} (h : NumberText number) :
    ∀ c∈number, PatternResiduals.isDigit c=true ∨ c∈['-','+','.','e','E'] := by
  obtain ⟨minus,whole,fraction,power,rfl,hminus,hwhole,hfraction,hpower⟩ := h
  intro c hc
  simp only [List.mem_append] at hc
  rcases hc with hc | hc | hc | hc
  · rcases hminus with rfl | rfl
    · cases hc
    · rw [List.mem_singleton.mp hc]
      exact Or.inr (by decide)
  · rcases hwhole with rfl | ⟨first,rest,rfl,hfirst,hrest⟩
    · rw [List.mem_singleton.mp hc]
      exact Or.inl rfl
    · rcases List.mem_cons.mp hc with rfl | hc
      · have htext : WholeText (c::rest) := Or.inr ⟨c,rest,rfl,hfirst,hrest⟩
        obtain ⟨head,_,heq,hhead⟩ := htext.head
        cases heq
        exact Or.inl hhead
      · exact Or.inl (hrest c hc)
  · rcases hfraction with rfl | ⟨digits,rfl,hdigits⟩
    · cases hc
    · rcases List.mem_cons.mp hc with rfl | hc
      · exact Or.inr (by decide)
      · exact Or.inl (hdigits.2 c hc)
  · rcases hpower with rfl | ⟨mark,sign,digits,rfl,hmark,hsign,hdigits⟩
    · cases hc
    · rcases List.mem_cons.mp hc with rfl | hc
      · rcases hmark with rfl | rfl <;> exact Or.inr (by decide)
      · rcases List.mem_append.mp hc with hc | hc
        · rcases hsign with rfl | ⟨d,rfl,hd⟩
          · cases hc
          · rw [List.mem_singleton.mp hc]
            unfold isSign at hd
            simp only [Bool.or_eq_true,beq_iff_eq] at hd
            rcases hd with rfl | rfl <;> exact Or.inr (by decide)
        · exact Or.inl (hdigits.2 c hc)

end Numbers

section Tokens

variable {decode : List Char → Option String} {words : List (List Char × Token)}

end Tokens

end Ros1Adapter.JsonLexing
