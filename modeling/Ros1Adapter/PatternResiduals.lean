import Mathlib.Data.List.Basic

/-!
# Regular patterns by residuals

A pattern maps a text to the suffixes that remain after some match of a
prefix. Whole-text matching asks for an empty residual, so it agrees with
backtracking search under every preference order. Repetition is structural
in a bound that the text length supplies.
-/

namespace Ros1Adapter.PatternResiduals

/-- Regular pattern over characters. -/
inductive Pattern where
  /-- One character of a class. -/
  | oneOf (accepts : Char → Bool)
  /-- The empty text. -/
  | nothing
  /-- Concatenation. -/
  | seq (first second : Pattern)
  /-- Alternation. -/
  | alt (first second : Pattern)
  /-- Between `least` and `least+extra` repetitions. -/
  | repeated (body : Pattern) (least extra : ℕ)
  /-- Any number of repetitions, including none. -/
  | star (body : Pattern)

namespace Pattern

/-- Residuals after exactly `count` runs of a residual function. -/
def exactly (run : List Char → List (List Char)) : ℕ → List Char → List (List Char)
  | 0,text => [text]
  | count+1,text => (run text).flatMap (exactly run count)

/-- Residuals after at most `count` runs; a run that consumes nothing stops. -/
def upTo (run : List Char → List (List Char)) : ℕ → List Char → List (List Char)
  | 0,text => [text]
  | count+1,text =>
    text::((run text).filter (fun rest => rest.length<text.length)).flatMap (upTo run count)

/-- Every suffix left by matching a prefix of the text. -/
def residuals : Pattern → List Char → List (List Char)
  | oneOf accepts,text =>
    match text with
    | [] => []
    | c::rest => if accepts c then [rest] else []
  | nothing,text => [text]
  | seq first second,text => (residuals first text).flatMap (residuals second)
  | alt first second,text => residuals first text ++ residuals second text
  | repeated body least extra,text =>
    (exactly (residuals body) least text).flatMap (upTo (residuals body) extra)
  | star body,text => upTo (residuals body) text.length text

/-- Whole-text match. -/
def matchesText (pattern : Pattern) (text : String) : Bool :=
  (pattern.residuals text.toList).any List.isEmpty

/-- One given character. -/
def char (c : Char) : Pattern := oneOf (fun d => d==c)

/-- The characters of a text in order. -/
def literal (text : String) : Pattern := text.toList.foldr (fun c rest => seq (char c) rest) nothing

/-- One of several literal texts. -/
def anyLiteral : List String → Pattern
  | [] => oneOf (fun _ => false)
  | [text] => literal text
  | text::rest => alt (literal text) (anyLiteral rest)

/-- Zero or one occurrence. -/
def optional (body : Pattern) : Pattern := repeated body 0 1

/-- One or more occurrences. -/
def plus (body : Pattern) : Pattern := seq body (star body)

/-- The patterns of a list in order. -/
def sequence (parts : List Pattern) : Pattern := parts.foldr seq nothing

/-- The alternatives of a list. -/
def choice : List Pattern → Pattern
  | [] => oneOf (fun _ => false)
  | [only] => only
  | first::rest => alt first (choice rest)

end Pattern

/-- Character between two bounds, both included. -/
def between (low high c : Char) : Bool := low.toNat≤c.toNat && c.toNat≤high.toNat

/-- Decimal digit. -/
def isDigit (c : Char) : Bool := between '0' '9' c

/-- ASCII letter. -/
def isLetter (c : Char) : Bool := between 'A' 'Z' c || between 'a' 'z' c

end Ros1Adapter.PatternResiduals
