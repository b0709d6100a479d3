import Mathlib.Tactic.FinCases
import Ros1Adapter.JsonLexing
import Ros1Adapter.PatternLanguage

/-!
# The scan for nonfinite numbers

The library that parses JSON knows no nonfinite numbers, so a scan of its own
replaces them and every number that overflows before the library sees the
text. The scan takes the text in pieces, and the library takes what the scan
writes in tokens. Both agree step by step until something stands in the text
that starts like a number and is none.
-/

namespace Ros1Adapter.JsonScan

open StepScanners JsonAutomata JsonLexing PatternResiduals Pattern PatternLanguage

section Scan

/-- Characters that end a number of the scan. -/
def endsToken (c : Char) : Bool := " \t\r\n,]\x7d:\x7b[\"".toList.contains c

/-- Characters that start a number of the scan. -/
def startsToken (c : Char) : Bool := c == '-' || PatternResiduals.isDigit c || c == 'N' || c == 'I'

/-- A string behind its opening quote, with the closing one if there is one. -/
def quotedText : List Char → List Char × List Char
  | [] => ([],[])
  | c::rest =>
    if c = '\\' then
      match rest with
      | [] => ([c],[])
      | d::more => (c::d::(quotedText more).1,(quotedText more).2)
    else if c = '"' then ([c],rest)
    else (c::(quotedText rest).1,(quotedText rest).2)

/-- Numbers of the scan. -/
def numeric : Pattern :=
  sequence [optional (char '-'),choice [char '0',sequence [oneOf (between '1' '9'),star (oneOf PatternResiduals.isDigit)]],
    optional (sequence [char '.',plus (oneOf PatternResiduals.isDigit)]),
    optional (sequence [oneOf (fun c => c == 'e' || c == 'E'),optional (oneOf isSign),
      plus (oneOf PatternResiduals.isDigit)])]

/-- A piece of the text. -/
inductive Chunk where
  /-- A string, or a character of anything else. -/
  | kept (text : List Char)
  /-- A number, and the double that replaces it. -/
  | number (token : List Char) (replacement : Option Float)
  /-- What starts like a number and is none. -/
  | malformed (token : List Char)

/-- Text of a piece as the library sees it. -/
def Chunk.written : Chunk → List Char
  | .kept text => text
  | .number token none => token
  | .number _ (some _) => "0.0".toList
  | .malformed token => token

/-- Numbers collected from a piece. -/
def Chunk.collected : Chunk → List (Option Float)
  | .number _ replacement => [replacement]
  | _ => []

variable (strtod : List Char → Float)

/-- Replacement of a number, if the token is one. -/
def replacementOf (token : List Char) : Option (Option Float) :=
  if token="NaN".toList then some (some (0/0))
  else if token="Infinity".toList ∨ token="-Infinity".toList then
    some (some (if token.head?=some '-' then -1/0 else 1/0))
  else if numeric.matchesText (String.ofList token) then
    some (if (strtod token).isFinite then none else some (strtod token))
  else none

/-- Characters up to the end of a token. -/
def tokenOf (text : List Char) : List Char := text.takeWhile (fun c => !endsToken c)

/-- Characters behind a token. -/
def behindToken (text : List Char) : List Char := text.dropWhile (fun c => !endsToken c)

/-- A token as a piece. -/
def chunkOf (token : List Char) : Chunk :=
  match replacementOf strtod token with
  | some replacement => .number token replacement
  | none => .malformed token

/-- First piece of a text. -/
def chunkOne : List Char → Option (List Chunk × List Char)
  | [] => none
  | c::rest =>
    if c = '"' then some ([.kept (c::(quotedText rest).1)],(quotedText rest).2)
    else if startsToken c then some ([chunkOf strtod (tokenOf (c::rest))],behindToken (c::rest))
    else some ([.kept [c]],rest)

/-- Pieces of a text. -/
def chunks (text : List Char) : List Chunk := (scanAll (chunkOne strtod) text).1

/-- The text that the library parses. -/
def input (text : List Char) : List Char := (chunks strtod text).flatMap Chunk.written

/-- The replacements of the numbers of a text. -/
def numbers (text : List Char) : List (Option Float) := (chunks strtod text).flatMap Chunk.collected

end Scan

section Pieces

variable {strtod : List Char → Float}

/-- Characters that are pieces of their own. -/
def Ordinary (c : Char) : Prop := c≠ '"' ∧ startsToken c=false

end Pieces

section Agreement

/-- Words of JSON with nonfinite numbers. -/
def allWords : List (List Char × Token) := plainWords ++ nonfiniteWords

/-- Replacement that is collected for a number. -/
def replaced (strtod : List Char → Float) (token : List Char) : Option Float := (replacementOf strtod token).getD none

variable {strtod : List Char → Float} {decode : List Char → Option String}

end Agreement

section Reading

variable {strtod : List Char → Float} {decode : List Char → Option String}

end Reading

end Ros1Adapter.JsonScan
