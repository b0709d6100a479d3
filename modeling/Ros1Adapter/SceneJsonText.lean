import Mathlib.Data.List.Sort
import Ros1Adapter.SceneJson

/-!
# Texts of JSON values

Python representation for error messages, the JSON encoding with Python
separators and the member sort behind request fingerprints. Number spelling
of doubles is a parameter: the shortest decimal that reads back to the same
value. Strings are UTF-8 text throughout, as the parsers produce them.
-/

namespace Ros1Adapter.SceneJsonText

open SceneJson

/-- Lowercase hexadecimal digit. -/
def hexDigit (n : ℕ) : Char := if n<10 then Char.ofNat (48+n) else Char.ofNat (87+n)

/-- Fixed-width lowercase hexadecimal text. -/
def hexText : ℕ → ℕ → List Char
  | 0,_ => []
  | width+1,n => hexText width (n/16) ++ [hexDigit (n%16)]

/-- Code points that Python strips as whitespace. -/
def pythonWhitespace (c : ℕ) : Bool :=
  (9≤c && c≤13) || (0x1c≤c && c≤0x20) || c==0x85 || c==0xa0 || c==0x1680 ||
    (0x2000≤c && c≤0x200a) || c==0x2028 || c==0x2029 || c==0x202f || c==0x205f || c==0x3000

/-- One character of a quoted Python string. -/
def reprCharacter (quote c : Char) : List Char :=
  if c=quote || c = '\\' then ['\\',c]
  else if c = '\n' then ['\\','n']
  else if c = '\r' then ['\\','r']
  else if c = '\t' then ['\\','t']
  else if c.toNat<0x20 || c.toNat=0x7f || (pythonWhitespace c.toNat && c ≠ ' ') then
    if c.toNat≤0xff then '\\' :: 'x' :: hexText 2 c.toNat else '\\' :: 'u' :: hexText 4 c.toNat
  else [c]

/-- Python `repr` of a text, preferring single quotes. -/
def reprText (text : String) : String :=
  let characters := text.toList
  let quote := if '\''∈characters ∧ '"'∉characters then '"' else '\''
  String.ofList (quote::(characters.flatMap (reprCharacter quote) ++ [quote]))

/-- Joined texts with Python's item separator. -/
def joinTexts : List String → String
  | [] => ""
  | [only] => only
  | first::rest => first ++ ", " ++ joinTexts rest

section Spelling

variable (spell : Float → String)

mutual
/-- Python `repr` of a JSON value. -/
def pythonRepr : Json → String
  | .null => "None"
  | .boolean value => if value then "True" else "False"
  | .integer value => toString value
  | .float value => spell value
  | .string value => reprText value
  | .array items => "[" ++ joinTexts (reprItems items) ++ "]"
  | .object members => "\x7b" ++ joinTexts (reprMembers members) ++ "\x7d"

/-- Python `repr` of every element. -/
def reprItems : List Json → List String
  | [] => []
  | item::rest => pythonRepr item::reprItems rest

/-- Python `repr` of every member. -/
def reprMembers : List (String × Json) → List String
  | [] => []
  | (key,value)::rest => (reprText key ++ ": " ++ pythonRepr value)::reprMembers rest
end

/-- JSON escape of one character with `ensure_ascii` off. -/
def escapeCharacter (c : Char) : List Char :=
  if c = '"' then ['\\','"']
  else if c = '\\' then ['\\','\\']
  else if c.toNat=8 then ['\\','b']
  else if c.toNat=12 then ['\\','f']
  else if c = '\n' then ['\\','n']
  else if c = '\r' then ['\\','r']
  else if c = '\t' then ['\\','t']
  else if c.toNat<0x20 then '\\' :: 'u' :: hexText 4 c.toNat
  else [c]

/-- JSON string literal of a text. -/
def quoteText (text : String) : List Char := '"' :: (text.toList.flatMap escapeCharacter ++ ['"'])

/-- Refusal of a number that JSON cannot spell. -/
def nonfiniteError : Error := sceneError "Out of range float values are not JSON compliant"

mutual
/-- Characters of Python's `json.dumps` with `ensure_ascii` and `allow_nan` off. -/
def dumpCharacters : Json → Except Error (List Char)
  | .null => .ok "null".toList
  | .boolean value => .ok (if value then "true".toList else "false".toList)
  | .integer value => .ok (toString value).toList
  | .float value => if value.isFinite then .ok (spell value).toList else .error nonfiniteError
  | .string value => .ok (quoteText value)
  | .array items => do
    let listed ← dumpItems items
    return '[' :: (listed ++ [']'])
  | .object members => do
    let listed ← dumpMembers members
    return '\x7b' :: (listed ++ ['\x7d'])

/-- Encoded elements with Python's separator. -/
def dumpItems : List Json → Except Error (List Char)
  | [] => .ok []
  | [only] => dumpCharacters only
  | first::second::rest => do
    let head ← dumpCharacters first
    let tail ← dumpItems (second::rest)
    return head ++ ',' :: ' ' :: tail

/-- Encoded members with Python's separators. -/
def dumpMembers : List (String × Json) → Except Error (List Char)
  | [] => .ok []
  | [(key,value)] => do
    let item ← dumpCharacters value
    return quoteText key ++ ':' :: ' ' :: item
  | (key,value)::second::rest => do
    let item ← dumpCharacters value
    let tail ← dumpMembers (second::rest)
    return quoteText key ++ ':' :: ' ' :: (item ++ ',' :: ' ' :: tail)
end

/-- The JSON text of a value. -/
def dumpJson (value : Json) : Except Error String := do
  let characters ← dumpCharacters spell value
  return String.ofList characters

end Spelling

mutual
/-- Members of every object in ascending key order, at every depth. -/
def sortedFields : Json → Json
  | .array items => .array (sortedItems items)
  | .object members =>
    .object ((sortedMembers members).insertionSort (fun a b => a.1≤b.1))
  | .null => .null
  | .boolean value => .boolean value
  | .integer value => .integer value
  | .float value => .float value
  | .string value => .string value

/-- Sorted elements in their array order. -/
def sortedItems : List Json → List Json
  | [] => []
  | item::rest => sortedFields item::sortedItems rest

/-- Members with sorted values in their original order. -/
def sortedMembers : List (String × Json) → List (String × Json)
  | [] => []
  | (key,value)::rest => (key,sortedFields value)::sortedMembers rest
end

end Ros1Adapter.SceneJsonText
