import Ros1Adapter.JsonScan
import Ros1Adapter.SceneJson

/-!
# JSON with nonfinite numbers

The parser hands the library a text without nonfinite numbers, and a callback
puts them back by counting the numbers that the library reports. A malformed
number that only the library takes for one is counted but was never collected.
-/

namespace Ros1Adapter.JsonParsing

open SceneJson (Json)
open StepScanners JsonAutomata JsonLexing JsonScan

section Parser

/-- What the JSON library makes of a text: the events it reports before it accepts or rejects the text, and the value
of a text that it accepts. -/
structure Report where
  /-- Events in the order they are reported. -/
  events : List Event
  /-- Value of an accepted text. -/
  tree : Option Tree

/-- The JSON library. -/
structure Library where
  /-- Text that a string with its quotes spells, unless it is ill-formed. -/
  decode : List Char → Option String
  /-- Value of a number. -/
  number : List Char → Json
  /-- Parser with events. -/
  parse : List Char → Report

/-- What a text throws. -/
inductive Thrown where
  /-- An error of the adapter. -/
  | scene (message : String)
  /-- The parse exception of the library. -/
  | parse
  /-- A number past the collected ones is asked for. -/
  | outOfRange
  deriving DecidableEq

/-- Data of the callback. -/
structure Callback where
  /-- Keys of the open objects, the innermost first. -/
  keys : List (List String)
  /-- Numbers reported so far. -/
  index : ℕ
  /-- What the callback left of them. -/
  left : List Json

/-- The callback on one event. -/
def callback (library : Library) (collected : List (Option Float)) (state : Callback) : Event → Except Thrown Callback
  | .objectStart => .ok { state with keys := []::state.keys }
  | .objectEnd => .ok { state with keys := state.keys.tail }
  | .key name =>
    match state.keys with
    | [] => .ok state
    | names::outer =>
      if name∈names then .error (.scene ("Duplicate scene field " ++ name))
      else .ok { state with keys := (name::names)::outer }
  | .number spelled =>
    match collected[state.index]? with
    | none => .error .outOfRange
    | some none => .ok ⟨state.keys,state.index+1,state.left ++ [library.number spelled]⟩
    | some (some value) => .ok ⟨state.keys,state.index+1,state.left ++ [.float value]⟩
  | _ => .ok state

mutual
/-- Value of a tree whose numbers are the first of a list, and the rest of the list. -/
def filled : Tree → List Json → Json × List Json
  | .text value,left => (.string value,left)
  | .number _,left => (left.headD .null,left.tail)
  | .literal none,left => (.null,left)
  | .literal (some b),left => (.boolean b,left)
  | .array items,left => (.array (itemsFilled items left).1,(itemsFilled items left).2)
  | .object members,left => (.object (membersFilled members left).1,(membersFilled members left).2)

/-- Elements with their numbers. -/
def itemsFilled : List Tree → List Json → List Json × List Json
  | [],left => ([],left)
  | item::rest,left =>
    ((filled item left).1::(itemsFilled rest (filled item left).2).1,(itemsFilled rest (filled item left).2).2)

/-- Members with their numbers. -/
def membersFilled : List (String × Tree) → List Json → List (String × Json) × List Json
  | [],left => ([],left)
  | (name,value)::rest,left =>
    ((name,(filled value left).1)::(membersFilled rest (filled value left).2).1,
      (membersFilled rest (filled value left).2).2)
end

/-- The parser of scene documents. -/
def parseJson (library : Library) (strtod : List Char → Float) (bytes : List Char) : Except Thrown Json := do
  let report := library.parse (input strtod bytes)
  let state ← report.events.foldlM (callback library (numbers strtod bytes)) ⟨[],0,[]⟩
  match report.tree with
  | none => .error .parse
  | some tree => .ok (filled tree state.left).1

end Parser

section Meaning

/-- A text is JSON with nonfinite numbers, and this is its tree. -/
def JsonText (library : Library) (bytes : List Char) (tree : Tree) : Prop :=
  lex library.decode allWords bytes=(tree.tokens,[])

/-- The number that a token spells. -/
def ownNumber (library : Library) (strtod : List Char → Float) (token : List Char) : Json :=
  if token="NaN".toList then .float (0/0)
  else if token="Infinity".toList then .float (1/0)
  else if token="-Infinity".toList then .float (-1/0)
  else if (strtod token).isFinite then library.number token
  else .float (strtod token)

mutual
/-- Value of a tree whose numbers are their own. -/
def valueOf (number : List Char → Json) : Tree → Json
  | .text value => .string value
  | .number spelled => number spelled
  | .literal none => .null
  | .literal (some b) => .boolean b
  | .array items => .array (itemsOf number items)
  | .object members => .object (membersOf number members)

/-- Values of elements. -/
def itemsOf (number : List Char → Json) : List Tree → List Json
  | [] => []
  | item::rest => valueOf number item::itemsOf number rest

/-- Values of members. -/
def membersOf (number : List Char → Json) : List (String × Tree) → List (String × Json)
  | [] => []
  | (name,value)::rest => (name,valueOf number value)::membersOf number rest
end

/-- JSON texts that repeat no key are parsed to their values, and nothing but the two kinds of parse errors is thrown
for any other text. -/
def Meets (library : Library) (strtod : List Char → Float) (bytes : List Char) : Prop :=
  (∀ tree, JsonText library bytes tree → tree.Distinct →
    parseJson library strtod bytes=.ok (valueOf (ownNumber library strtod) tree)) ∧
  ((¬∃ tree, JsonText library bytes tree ∧ tree.Distinct) →
    ∃ thrown, parseJson library strtod bytes=.error thrown ∧ thrown≠.outOfRange)

end Meaning

section Callbacks

variable (library : Library) {strtod : List Char → Float} {collected : List (Option Float)}

end Callbacks

section Values

variable {library : Library} {strtod : List Char → Float}

mutual
/-- A value takes its numbers off the front of a list. -/
theorem filled_own (number : List Char → Json) (f : List Char → List Char) (tree : Tree) (more : List Json) :
    filled (tree.respelled f) (tree.numbers.map number ++ more)=(valueOf number tree,more) := by
  cases tree with
  | text _ | number _ => rfl
  | literal value => cases value <;> rfl
  | array items =>
    have hitems := itemsFilled_own number f items more
    unfold Tree.respelled Tree.numbers filled valueOf
    rw [hitems]
  | object members =>
    have hmembers := membersFilled_own number f members more
    unfold Tree.respelled Tree.numbers filled valueOf
    rw [hmembers]

/-- Elements take their numbers off the front of a list. -/
theorem itemsFilled_own (number : List Char → Json) (f : List Char → List Char) (items : List Tree) (more : List Json) :
    itemsFilled (itemsRespelled f items) ((itemNumbers items).map number ++ more)=(itemsOf number items,more) := by
  cases items with
  | nil => rfl
  | cons item items =>
    have hitem := filled_own number f item ((itemNumbers items).map number ++ more)
    have hitems := itemsFilled_own number f items more
    unfold itemsRespelled itemNumbers itemsFilled itemsOf
    rw [List.map_append,List.append_assoc,hitem]
    dsimp only
    rw [hitems]

/-- Members take their numbers off the front of a list. -/
theorem membersFilled_own (number : List Char → Json) (f : List Char → List Char) (members : List (String × Tree))
    (more : List Json) :
    membersFilled (membersRespelled f members) ((memberNumbers members).map number ++ more)=
      (membersOf number members,more) := by
  cases members with
  | nil => rfl
  | cons member members =>
    obtain ⟨name,value⟩ := member
    have hvalue := filled_own number f value ((memberNumbers members).map number ++ more)
    have hmembers := membersFilled_own number f members more
    unfold membersRespelled memberNumbers membersFilled membersOf
    rw [List.map_append,List.append_assoc,hvalue]
    dsimp only
    rw [hmembers]
end

end Values

section Reference

/-- A library that does what is documented, with its own strings and numbers. -/
noncomputable def reference (decode : List Char → Option String) (number : List Char → Json) : Library where
  decode := decode
  number := number
  parse := fun text =>
    ⟨(State.start.run (lex decode plainWords text).1).1,
      open Classical in
      if h : ∃ tree : Tree, lex decode plainWords text=(tree.tokens,[]) then some h.choose else none⟩

end Reference

end Ros1Adapter.JsonParsing
