import Mathlib.Data.Fintype.Card
import Ros1Adapter.ActionRules
import Ros1Adapter.IntegerScalars

/-!
# Loading a scene document

The YAML library gives a graph of nodes with tags; the loader walks it, takes
merge keys apart, refuses nodes inside themselves and converts scalars by their
tags. Texts have one character for each byte. Exceptions of the YAML library
become scene errors; what the standard library throws during a conversion does
not. The loader notes the texts it converts to integers.
-/

namespace Ros1Adapter.YamlLoading

open SceneJson SceneYaml PatternResiduals PythonFloat YamlScalars IntegerScalars ActionRules

section Nodes

/-- Content of a node. -/
inductive Content (Ref : Type) where
  | null
  | scalar (text : List Char)
  | sequence (items : List Ref)
  | map (pairs : List (Ref × Ref))

/-- Node of the YAML library. -/
structure Node (Ref : Type) where
  /-- Tag as written. -/
  tag : String
  /-- Position of its first byte. -/
  position : ℕ
  /-- Content. -/
  content : Content Ref

/-- Nodes of a document; aliases refer to one node. -/
structure Document where
  /-- Number of nodes. -/
  count : ℕ
  /-- Nodes. -/
  nodes : Fin count → Node (Fin count)
  /-- First node. -/
  root : Fin count

/-- Exceptions that leave the loader. -/
inductive Thrown where
  /-- `SceneError`. -/
  | scene (what : String)
  /-- Exception of the standard library. -/
  | standard (what : String)
  /-- No more steps; the loader always has enough of them. -/
  | exhausted
  deriving DecidableEq

/-- Name of an implicit tag. -/
def tagName : YamlTag → String
  | .null => "null"
  | .bool => "bool"
  | .float => "float"
  | .int => "int"
  | .timestamp => "timestamp"
  | .merge => "merge"
  | .value => "value"
  | .str => "str"

/-- Tags of the YAML types. -/
def yamlTag : List Char := "tag:yaml.org,2002:".toList

variable {Ref : Type}

/-- Tag of a node. -/
def nodeTag (node : Node Ref) : Except Thrown String :=
  if node.tag="!" then .ok "str"
  else if node.tag="" || node.tag="?" then
    match node.content with
    | .scalar text => .ok (tagName (implicitTag (String.ofList text)))
    | .sequence _ => .ok "seq"
    | .map _ => .ok "map"
    | .null => .ok "null"
  else if yamlTag.isPrefixOf node.tag.toList then .ok (String.ofList (node.tag.toList.drop yamlTag.length))
  else .error (.scene ("Invalid scene YAML: could not determine a constructor for the tag '" ++ node.tag ++ "'"))

end Nodes

section Texts

/-- Bytes of the line separator. -/
def lineSeparator : List Char := [Char.ofNat 0xe2,Char.ofNat 0x80,Char.ofNat 0xa8]

/-- Bytes of the paragraph separator. -/
def paragraphSeparator : List Char := [Char.ofNat 0xe2,Char.ofNat 0x80,Char.ofNat 0xa9]

/-- A separator stands in front. -/
def separated (text : List Char) : Bool := text.take 3==lineSeparator || text.take 3==paragraphSeparator

/-- Separators of a quoted scalar in order: raw breaks, or escaped characters. -/
def rawBreaks (quote : Char) : List Char → List Bool
  | [] => []
  | c::rest =>
    if c=quote then
      match rest with
      | [] => []
      | d::tail => if quote = '\'' && d = '\'' then rawBreaks quote tail else []
    else if quote = '"' && c = '\\' then
      match rest with
      | [] => []
      | escaped::tail =>
        let plain := escaped = 'L' || escaped = 'P' ||
          (escaped = 'u' && (tail.take 4=="2028".toList || tail.take 4=="2029".toList)) ||
          (escaped = 'U' && (tail.take 8=="00002028".toList || tail.take 8=="00002029".toList))
        (if plain then [false] else []) ++ rawBreaks quote tail
    else (if separated (c::rest) then [true] else []) ++ rawBreaks quote rest

/-- Bytes of a UTF-8 character by its first byte. -/
def byteCount (c : Char) : ℕ := if c.toNat<0x80 then 1 else if c.toNat<0xe0 then 2 else if c.toNat<0xf0 then 3 else 4

/-- Two escapes become UTF-8, and blanks behind raw breaks go. -/
def repaired : ℕ → List Bool → List Char → List Char
  | 0,_,_ => []
  | _,_,[] => []
  | steps+1,breaks,c::rest =>
    if c.toNat=0x85 || c.toNat=0xa0 then Char.ofNat 0xc2::c::repaired steps breaks rest
    else
      let behind := (c::rest).drop (byteCount c)
      (c::rest).take (byteCount c) ++
        (if separated (c::rest) then
          repaired steps breaks.tail
            (if breaks.head?=some true then behind.dropWhile (fun d => d = ' ' || d = '\t') else behind)
        else repaired steps breaks behind)

variable {Ref : Type}

/-- Text of a scalar; every step takes at least one byte. -/
def scalarText (bytes : List Char) (position : ℕ) (text : List Char) : List Char :=
  let breaks := match bytes.drop position with
    | [] => []
    | quote::rest => if quote = '\'' || quote = '"' then rawBreaks quote rest else []
  repaired text.length breaks text

end Texts

section Loader

/-- Actions of the loader; the state is the texts converted to integers so far. -/
abbrev Load := EStateM Thrown (List String)

/-- Throw. -/
def fail {α : Type} (error : Thrown) : Load α := throw error

/-- A result without effects. -/
def lift {α : Type} : Except Thrown α → Load α := ofResult

/-- A refused scalar. -/
def refusal (what : String) : Thrown := if what="stoull" then .standard what else .scene what

variable (wide : ℕ → List ℕ → Float) (strtod : List Char → Option Float) (bytes : List Char) (d : Document)

/-- Convert an integer. -/
def convertInteger (text : String) : Load Json := do
  modify (· ++ [text])
  ofResult ((integerScalar wide text).mapError refusal)

/-- Enter a node unless it is entered already. -/
def enter (active : List (Fin d.count)) (node : Fin d.count) : Except Thrown (List (Fin d.count)) :=
  if node∈active then .error (.scene "Invalid scene YAML: found unconstructable recursive node")
  else .ok (node::active)

/-- Pairs of a merged value, given how to take a mapping apart. -/
def mergedPairs (flatten : Fin d.count → Except Thrown (List (Fin d.count × Fin d.count))) (source : Fin d.count) :
    Except Thrown (List (Fin d.count × Fin d.count)) :=
  match (d.nodes source).content with
  | .map _ => flatten source
  | .sequence maps => do
    let items ← maps.mapM (fun map =>
      match (d.nodes map).content with
      | .map _ => flatten map
      | _ => .error (.scene "Invalid scene YAML: expected a mapping for merging"))
    return items.reverse.flatten
  | _ => .error (.scene "Invalid scene YAML: expected a mapping or list of mappings for merging")

/-- Merged pairs and own pairs, in order. -/
def splitPairs (flatten : Fin d.count → Except Thrown (List (Fin d.count × Fin d.count))) :
    List (Fin d.count × Fin d.count) →
    Except Thrown (List (Fin d.count × Fin d.count) × List (Fin d.count × Fin d.count))
  | [] => .ok ([],[])
  | (key,value)::rest => do
    let kind ← nodeTag (d.nodes key)
    if kind="merge" then
      let items ← mergedPairs d flatten value
      let (merged,own) ← splitPairs flatten rest
      return (items ++ merged,own)
    else
      let (merged,own) ← splitPairs flatten rest
      return (merged,(key,value)::own)

/-- Pairs of a mapping without its merge keys. -/
def flatten : ℕ → List (Fin d.count) → Fin d.count → Except Thrown (List (Fin d.count × Fin d.count))
  | 0,_,_ => .error .exhausted
  | steps+1,active,node => do
    let entered ← enter d active node
    match (d.nodes node).content with
    | .map pairs =>
      let (merged,own) ← splitPairs d (flatten steps entered) pairs
      return merged ++ own
    | _ => return []

/-- Object of pairs; its names are strings and differ. -/
def uniqueObject : List (String × Json) → List (Json × Json) → Except Thrown Json
  | members,[] => .ok (.object members)
  | members,(.string key,value)::rest =>
    if (members.lookup key).isSome then .error (.scene ("Duplicate scene field " ++ key))
    else uniqueObject (members ++ [(key,value)]) rest
  | _,_::_ => .error (.scene "Scene field names must be strings")

/-- A tag that no scene has. -/
def unsupported (node : Node (Fin d.count)) : Thrown :=
  .scene ("Invalid scene YAML: unsupported scene document tag '" ++ node.tag ++ "'")

/-- Value of a scalar of a tag. -/
def constructScalar (node : Node (Fin d.count)) (kind : String) (text : List Char) : Load Json :=
  let value := String.ofList (scalarText bytes node.position text)
  if kind="str" then pure (.string value)
  else if kind="null" then pure .null
  else if kind="int" then convertInteger wide value
  else if kind="float" then lift ((floatScalar strtod value).mapError .scene)
  else if kind="bool" then lift ((booleanScalar value).mapError .scene)
  else fail (unsupported d node)

/-- Value of a name of a mapping, given how to construct a node. -/
def constructKey (construct : Fin d.count → Load Json) (key : Fin d.count) : Load Json := do
  let kind ← lift (nodeTag (d.nodes key))
  match (d.nodes key).content with
  | .scalar text =>
    if kind="str" || kind="value" then
      pure (.string (String.ofList (scalarText bytes (d.nodes key).position text)))
    else if ["timestamp","binary","set","omap","pairs"].contains kind then pure .null
    else construct key
  | _ => if ["timestamp","binary","set","omap","pairs"].contains kind then pure .null else construct key

/-- Value of a pair. -/
def constructPair (construct : Fin d.count → Load Json) (pair : Fin d.count × Fin d.count) : Load (Json × Json) := do
  let key ← constructKey bytes d construct pair.1
  let value ← construct pair.2
  return (key,value)

/-- Values of a list of things, in order. -/
def constructAll {α β : Type} (construct : α → Load β) : List α → Load (List β)
  | [] => pure []
  | first::rest => do
    let value ← construct first
    let values ← constructAll construct rest
    return value::values

/-- Value of a node. -/
def construct : ℕ → List (Fin d.count) → Fin d.count → Load Json
  | 0,_,_ => fail .exhausted
  | steps+1,active,node =>
    match (d.nodes node).content with
    | .null => pure .null
    | .scalar text => do
      let kind ← lift (nodeTag (d.nodes node))
      constructScalar wide strtod bytes d (d.nodes node) kind text
    | .sequence items => do
      let kind ← lift (nodeTag (d.nodes node))
      if kind="seq" then
        let entered ← lift (enter d active node)
        let values ← constructAll (construct steps entered) items
        return .array values
      else fail (unsupported d (d.nodes node))
    | .map _ => do
      let kind ← lift (nodeTag (d.nodes node))
      if kind="map" then
        let pairs ← lift (flatten d (d.count+1) active node)
        let entered ← lift (enter d active node)
        let values ← constructAll (constructPair bytes d (construct steps entered)) pairs
        lift (uniqueObject [] values)
      else fail (unsupported d (d.nodes node))

/-- The YAML library: documents of a stream, or the text of its exception. -/
abbrev LoadAll := List Char → Except String (List Document)

/-- Value of a YAML text. -/
def parseYaml (loadAll : LoadAll) : Load Json :=
  match loadAll bytes with
  | .error what => fail (.scene ("Invalid scene YAML: " ++ what))
  | .ok [] => pure .null
  | .ok [document] => construct wide strtod bytes document (document.count+1) [] document.root
  | .ok _ => fail (.scene "Invalid scene YAML: expected a single document in the stream")

end Loader

section Refusals

/-- A text in base sixty has a group that the standard conversion refuses: no
number, or one that does not fit 64 bits. -/
def Refused (text : String) : Prop :=
  ':'∈unsignedText (text.toList.filter (· != '_')) ∧
    (integerBase (unsignedText (text.toList.filter (· != '_')))).1=10 ∧
    ∃ part∈colonParts (unsignedText (text.toList.filter (· != '_'))), stoull part=.error "stoull"

end Refusals

section Soundness

variable {α β : Type} {source : String → Prop}

/-- No text so far is refused. -/
def Good (texts : List String) : Prop := ∀ text∈texts, ¬Refused text

/-- From good texts of a source an action returns with good ones, throws a scene
error with good ones, or throws an exception of the standard library with a
refused one; all of them are of the source. -/
def Sound (source : String → Prop) (action : Load α) : Prop :=
  ∀ s, Good s → (∀ text∈s, source text) →
    Meets action s (fun _ t => Good t ∧ ∀ text∈t, source text) (fun e t =>
      (((∃ what, e=.scene what) ∧ Good t) ∨ ((∃ what, e=.standard what) ∧ ¬Good t)) ∧ ∀ text∈t, source text)

/-- A result fails with a scene error if at all. -/
def OnlyScene (result : Except Thrown α) : Prop := ∀ e, result=.error e → ∃ what, e=.scene what

/-- A sequence of sound actions. -/
theorem Sound.bind {first : Load α} {second : α → Load β} (hf : Sound source first)
    (hs : ∀ a, Sound source (second a)) : Sound source (first >>= second) :=
  fun s hgood hfrom => (hf s hgood hfrom).bind (fun a t ht => hs a t ht.1 ht.2)

/-- A sequence with scene errors only. -/
theorem OnlyScene.bind {first : Except Thrown α} {second : α → Except Thrown β} (hf : OnlyScene first)
    (hs : ∀ a, first=.ok a → OnlyScene (second a)) : OnlyScene (first >>= second) := by
  intro e he
  cases hfirst : first with
  | error other =>
    rw [hfirst] at he
    have hsame : other=e := Except.error.inj he
    exact hf e (hsame ▸ hfirst)
  | ok a =>
    rw [hfirst] at he
    exact hs a hfirst e he

variable {d : Document}

variable (wide : ℕ → List ℕ → Float) (strtod : List Char → Option Float) (bytes : List Char)

end Soundness

section Exactness

/-- Result of loading a text. -/
def loaded (wide : ℕ → List ℕ → Float) (strtod : List Char → Option Float) (loadAll : LoadAll) (bytes : List Char) :
    EStateM.Result Thrown (List String) Json := parseYaml wide strtod bytes loadAll []

end Exactness

end Ros1Adapter.YamlLoading
