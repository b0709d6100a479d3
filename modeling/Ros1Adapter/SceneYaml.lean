import Ros1Adapter.DoubleBits
import Ros1Adapter.PatternResiduals
import Ros1Adapter.SceneJsonText

/-!
# YAML emission of scene documents

The emitter writes text and tracks its column, so every emission is a map
from the column it starts at to its text and the column it ends at. The
implicit resolvers decide which strings need quotes. The incremental writer
keeps the text of every obstacle by value and concatenates it below a
freshly written header.
-/

namespace Ros1Adapter.SceneYaml

open SceneJson SceneJsonText PatternResiduals Pattern

/-- Type that the YAML 1.1 resolvers give a plain scalar. -/
inductive YamlTag where
  | null
  | bool
  | float
  | int
  | timestamp
  | merge
  | value
  | str
  deriving DecidableEq

/-- Optional sign. -/
def sign : Pattern := optional (oneOf (fun c => c == '-' || c == '+'))

/-- Decimal digit. -/
def digit : Pattern := oneOf isDigit

/-- Decimal digit or digit separator. -/
def spacedDigit : Pattern := oneOf (fun c => isDigit c || c == '_')

/-- Sexagesimal digit groups after the first. -/
def sexagesimal : Pattern :=
  plus (sequence [char ':',optional (oneOf (between '0' '5')),digit])

/-- Signed decimal exponent. -/
def exponent : Pattern :=
  sequence [oneOf (fun c => c == 'e' || c == 'E'),oneOf (fun c => c == '-' || c == '+'),plus digit]

/-- Every spelling of a boolean. -/
def booleanPattern : Pattern :=
  anyLiteral ["yes","Yes","YES","no","No","NO","true","True","TRUE","false","False","FALSE",
    "on","On","ON","off","Off","OFF"]

/-- Binary, octal, decimal, hexadecimal and sexagesimal integers. -/
def integerPattern : Pattern :=
  choice [
    sequence [sign,literal "0b",plus (oneOf (fun c => c == '0' || c == '1' || c == '_'))],
    sequence [sign,char '0',plus (oneOf (fun c => between '0' '7' c || c == '_'))],
    sequence [sign,choice [char '0',sequence [oneOf (between '1' '9'),star spacedDigit]]],
    sequence [sign,literal "0x",
      plus (oneOf (fun c => isDigit c || between 'a' 'f' c || between 'A' 'F' c || c == '_'))],
    sequence [sign,oneOf (between '1' '9'),star spacedDigit,sexagesimal]]

/-- Decimal, sexagesimal and nonfinite floats. -/
def floatPattern : Pattern :=
  choice [
    sequence [sign,digit,star spacedDigit,char '.',star spacedDigit,optional exponent],
    sequence [char '.',plus spacedDigit,optional exponent],
    sequence [sign,digit,star spacedDigit,sexagesimal,char '.',star spacedDigit],
    sequence [sign,char '.',anyLiteral ["inf","Inf","INF"]],
    sequence [char '.',anyLiteral ["nan","NaN","NAN"]]]

/-- Dates and times of day with an optional zone. -/
def timestampPattern : Pattern :=
  let blank := oneOf (fun c => c == ' ' || c == '\t')
  let pair := repeated digit 1 1
  let two := repeated digit 2 0
  choice [
    sequence [repeated digit 4 0,char '-',two,char '-',two],
    sequence [repeated digit 4 0,char '-',pair,char '-',pair,
      alt (oneOf (fun c => c == 'T' || c == 't')) (plus blank),
      pair,char ':',two,char ':',two,optional (sequence [char '.',star digit]),
      optional (sequence [star blank,
        alt (char 'Z') (sequence [oneOf (fun c => c == '-' || c == '+'),pair,
          optional (sequence [char ':',two])])])]]

/-- Characters that may start a number or a date. -/
def startsNumber (text : String) : Bool :=
  match text.toList with
  | c::_ => c == '-' || c == '+' || c == '.' || isDigit c
  | [] => false

/-- Implicit type of a plain scalar. -/
def implicitTag (text : String) : YamlTag :=
  if text.isEmpty || text=="~" || text=="null" || text=="Null" || text=="NULL" then .null
  else if booleanPattern.matchesText text then .bool
  else if startsNumber text && floatPattern.matchesText text then .float
  else if startsNumber text && integerPattern.matchesText text then .int
  else if startsNumber text && timestampPattern.matchesText text then .timestamp
  else if text=="<<" then .merge
  else if text=="=" then .value
  else .str

/-- Line breaks of the emitter. -/
def lineBreak (c : Char) : Bool := c == '\n' || c.toNat==0x85 || c.toNat==0x2028 || c.toNat==0x2029

/-- Whitespace of the emitter, with the terminating zero. -/
def yamlWhitespace (c : Char) : Bool :=
  c.toNat==0 || c == ' ' || c == '\t' || c == '\r' || lineBreak c

/-- Quoting style of a scalar. -/
inductive Style where
  | plain
  | single
  | double
  deriving DecidableEq

/-- Characters that cannot start a plain scalar. -/
def indicator (c : Char) : Bool :=
  "#,[]\x7b\x7d&*!|>'\"%@\x60".toList.contains c

/-- Characters that only a double-quoted scalar can hold. -/
def special (c : Char) : Bool :=
  let n := c.toNat
  !(c == '\n' || (0x20≤n && n≤0x7e) || n==0x2028 || n==0x2029 ||
    (0xa0≤n && n≤0xd7ff) || (0xe000≤n && n≤0xfffd)) || n==0xfeff

/-- Whether the scan still allows plain and single-quoted style. -/
structure Allowed where
  /-- No character so far rules out the plain style. -/
  plain : Bool
  /-- No character so far rules out single quotes. -/
  single : Bool

/-- Scan the characters with their neighbours. -/
def scanStyle (key : Bool) : Option Char → List Char → Allowed → Allowed
  | _,[],allowed => allowed
  | previous,c::rest,allowed =>
    let first := previous.isNone
    let followed := match rest with
      | [] => true
      | d::_ => yamlWhitespace d
    let afterBlank := match previous with
      | none => true
      | some p => yamlWhitespace p
    let folded := match previous with
      | none => false
      | some p => (lineBreak p && c == ' ') || (p == ' ' && lineBreak c)
    let plain := allowed.plain && !(first && indicator c) &&
      !((c == ':' && followed) || (first && (c == '?' || c == '-') && followed) || (c == '#' && afterBlank)) &&
      !((first || rest.isEmpty) && (c == ' ' || lineBreak c)) && !lineBreak c && !(special c || folded)
    let single := allowed.single && !(lineBreak c && key) && !(special c || folded)
    scanStyle key (some c) rest ⟨plain,single⟩

/-- Style in which the emitter writes a text. -/
def style (text : String) (key : Bool) : Style :=
  let characters := text.toList
  if characters.isEmpty then .single
  else
    let marker := "---".toList.isPrefixOf characters || "...".toList.isPrefixOf characters
    let allowed := scanStyle key none characters ⟨implicitTag text=.str && !marker,true⟩
    if allowed.plain then .plain else if allowed.single then .single else .double

/-- Text written from a starting column, with the column reached. -/
abbrev Emission := ℕ → List Char × ℕ

/-- Write nothing. -/
def skip : Emission := fun column => ([],column)

/-- One emission after another. -/
def chain (first second : Emission) : Emission := fun column =>
  let head := first column
  let tail := second head.2
  (head.1 ++ tail.1,tail.2)

/-- Emissions in order. -/
def emitAll (parts : List Emission) : Emission := parts.foldr chain skip

/-- Text on the current line. -/
def write (text : List Char) : Emission := fun column => (text,column+text.length)

/-- New line with the given indentation. -/
def indent (count : ℕ) : Emission := fun _ => ('\n' :: List.replicate count ' ',count)

/-- Indentation at the start of a line. -/
def startLine (count : ℕ) : Emission := fun _ => (List.replicate count ' ',count)

/-- End of a line. -/
def newline : Emission := fun _ => (['\n'],0)

/-- Uppercase hexadecimal text. -/
def upperHex (width n : ℕ) : List Char := (hexText width n).map Char.toUpper

/-- Escape inside double quotes. -/
def escape (c : Char) : List Char :=
  let n := c.toNat
  if n=0 then ['\\','0']
  else if n=7 then ['\\','a']
  else if n=8 then ['\\','b']
  else if n=9 then ['\\','t']
  else if n=10 then ['\\','n']
  else if n=11 then ['\\','v']
  else if n=12 then ['\\','f']
  else if n=13 then ['\\','r']
  else if n=27 then ['\\','e']
  else if c = '"' || c = '\\' then ['\\',c]
  else if n=0x85 then ['\\','N']
  else if n=0xa0 then ['\\','_']
  else if n=0x2028 then ['\\','L']
  else if n=0x2029 then ['\\','P']
  else if n≤0xff then '\\' :: 'x' :: upperHex 2 n
  else if n≤0xffff then '\\' :: 'u' :: upperHex 4 n
  else '\\' :: 'U' :: upperHex 8 n

/-- Characters that double quotes write as escapes. -/
def escaped (c : Char) : Bool :=
  let n := c.toNat
  c == '"' || c == '\\' || n==0x85 || n==0x2028 || n==0x2029 || n==0xfeff ||
    !((0x20≤n && n≤0x7e) || (0xa0≤n && n≤0xd7ff) || (0xe000≤n && n≤0xfffd))

/-- Body of a double-quoted scalar; long lines fold at inner spaces. -/
def doubleQuoted (continuation : ℕ) (key : Bool) : Bool → List Char → Emission
  | _,[] => skip
  | first,c::rest => fun column =>
    if !key && c == ' ' && !first && !rest.isEmpty && 80<column then
      emitAll [indent continuation,if rest.head?==some ' ' then write ['\\'] else skip,
        doubleQuoted continuation key false rest] column
    else
      emitAll [write (if escaped c then escape c else [c]),doubleQuoted continuation key false rest] column

/-- Position of the plain and single-quoted writer. -/
inductive Run where
  /-- Between runs. -/
  | text
  /-- Inside a run of spaces, which may start the scalar. -/
  | spaces (count : ℕ) (leading : Bool)
  /-- Inside a run of line breaks. -/
  | breaks

/-- Close the current run; a single inner space may fold the line. -/
def closeRun (continuation : ℕ) (key single : Bool) (atEnd : Bool) : Run → Emission
  | .text => skip
  | .spaces count leading => fun column =>
    if !key && count=1 && 80<column && (!single || (!leading && !atEnd)) then indent continuation column
    else write (List.replicate count ' ') column
  | .breaks => startLine continuation

/-- One line break of a run. -/
def breakCharacter (c : Char) : Emission := if c = '\n' then indent 0 else fun _ => ([c],0)

/-- Body of a plain or single-quoted scalar. -/
def foldedText (continuation : ℕ) (key single : Bool) : Bool → Run → List Char → Emission
  | _,run,[] => closeRun continuation key single true run
  | first,run,c::rest =>
    let start :=
      if c = ' ' then foldedText continuation key single false (.spaces 1 first) rest
      else if lineBreak c then
        emitAll [if c = '\n' then indent 0 else skip,breakCharacter c,
          foldedText continuation key single false .breaks rest]
      else
        emitAll [write [c],if single && c = '\'' then write ['\''] else skip,
          foldedText continuation key single false .text rest]
    match run with
    | .spaces count leading =>
      if c = ' ' then foldedText continuation key single false (.spaces (count+1) leading) rest
      else chain (closeRun continuation key single false run) start
    | .breaks =>
      if lineBreak c then
        chain (breakCharacter c) (foldedText continuation key single false .breaks rest)
      else chain (closeRun continuation key single false run) start
    | .text => start

/-- A scalar or key text in the style it needs. -/
def emitString (text : String) (continuation : ℕ) (key : Bool) : Emission :=
  match style text key with
  | .plain => foldedText continuation key false true .text text.toList
  | .single => emitAll [write ['\''],foldedText continuation key true true .text text.toList,write ['\'']]
  | .double => emitAll [write ['"'],doubleQuoted continuation key true text.toList,write ['"']]

/-- YAML spelling of a double. -/
def floatText (spelled : String) : List Char :=
  let text := spelled.toList
  if spelled="nan" then ".nan".toList
  else if spelled="inf" then ".inf".toList
  else if spelled="-inf" then "-.inf".toList
  else if '.'∉text ∧ 'e'∈text then
    text.takeWhile (· ≠ 'e') ++ ['.','0'] ++ text.dropWhile (· ≠ 'e')
  else text

/-- Scalars and empty containers stay on their line. -/
def inlineValue : Json → Bool
  | .array items => items.isEmpty
  | .object members => members.isEmpty
  | _ => true

/-- A document whose last key is its obstacles ends with exactly that member. -/
theorem members_split {value : Json} {items : List Json}
    (hitems : value.valueOr "obstacles" .null=.array items)
    (hkeys : (value.members.map Prod.fst).Nodup)
    (hlast : (value.members.getLast?.map Prod.fst==some "obstacles")=true) :
    ∃ before, value.members=before ++ [("obstacles",.array items)] := by
  rcases List.eq_nil_or_concat value.members with hnil | ⟨before,last,hmembers⟩
  · rw [hnil] at hlast
    simp at hlast
  · obtain ⟨key,item⟩ := last
    rw [hmembers] at hlast hkeys
    simp only [List.concat_eq_append,List.getLast?_append,List.getLast?_singleton,Option.some_or,
      Option.map_some,beq_iff_eq,Option.some.injEq] at hlast
    subst hlast
    refine ⟨before,?_⟩
    have hfound : value.member "obstacles"=some item := by
      cases value with
      | object members =>
        simp only [Json.members] at hmembers
        simp only [Json.member,hmembers,List.concat_eq_append]
        rw [List.concat_eq_append,List.map_append] at hkeys
        have hfresh : before.lookup "obstacles"=none := by
          rw [List.lookup_eq_none_iff]
          intro p hp
          have hne := (List.nodup_append.mp hkeys).2.2 p.1 (List.mem_map_of_mem hp) "obstacles" (by simp)
          simpa using fun h => hne h.symm
        rw [List.lookup_append,hfresh]
        simp
      | _ => simp [Json.members] at hmembers
    rw [hmembers,List.concat_eq_append]
    simp only [Json.valueOr,hfound,Option.getD_some] at hitems
    rw [hitems]

/-- Dropping the obstacles member leaves the members before it. -/
theorem filter_before {before : List (String × Json)} {item : Json}
    (hkeys : (before.map Prod.fst ++ [("obstacles",item)].map Prod.fst).Nodup) :
    (before ++ [("obstacles",item)]).filter (fun m => m.1≠"obstacles")=before := by
  rw [List.filter_append]
  have hall : before.filter (fun m => m.1≠"obstacles")=before := by
    apply List.filter_eq_self.mpr
    intro m hm
    have hne := (List.nodup_append.mp hkeys).2.2 m.1 (List.mem_map_of_mem hm) "obstacles" (by simp)
    simpa using hne
  rw [hall]
  simp

section Emitter

variable (spell : Float → String)

/-- Text of a scalar or an empty container. -/
def emitScalar (value : Json) (continuation : ℕ) : Emission :=
  match value with
  | .string text => emitString text continuation false
  | .null => write "null".toList
  | .boolean b => write (if b then "true".toList else "false".toList)
  | .integer n => write (toString n).toList
  | .float x => write (floatText (spell x))
  | .array _ => write "[]".toList
  | .object _ => write "\x7b\x7d".toList

/-- A mapping key; long keys take the explicit form. -/
def emitKey (key : String) (level : ℕ) : Emission :=
  if key.toList.length≤128 && !key.toList.contains '\n' then
    emitAll [emitString key (level+2) true,write [':']]
  else
    emitAll [write ['?',' '],emitString key (level+2) false,indent level,write [':']]

mutual
/-- A value at the given indentation; its first line may already be open. -/
def emitNode (value : Json) (level : ℕ) (firstInline : Bool) : Emission :=
  match value with
  | .object (member::members) => emitMembers level firstInline (member::members)
  | .array (item::items) => emitItems level firstInline (item::items)
  | inlined =>
    emitAll [if firstInline then skip else startLine level,
      emitScalar spell inlined (if firstInline then level else level+2),newline]

/-- Members of a mapping in order. -/
def emitMembers (level : ℕ) (firstInline : Bool) : List (String × Json) → Emission
  | [] => skip
  | (key,value)::rest =>
    emitAll [if firstInline then skip else startLine level,emitKey key level,
      emitBelow value level,emitMembers level false rest]

/-- The value of a mapping member, on its line or on the lines below. -/
def emitBelow (value : Json) (level : ℕ) : Emission :=
  match value with
  | .array (item::items) => chain newline (emitItems level false (item::items))
  | .object (member::members) => chain newline (emitMembers (level+2) false (member::members))
  | inlined => emitAll [write [' '],emitScalar spell inlined (level+2),newline]

/-- Elements of a sequence in order. -/
def emitItems (level : ℕ) (firstInline : Bool) : List Json → Emission
  | [] => skip
  | item::rest =>
    emitAll [if firstInline then skip else startLine level,write ['-',' '],
      emitNode item (level+2) true,emitItems level false rest]
end

/-- YAML text of a value. -/
def dumpYaml (value : Json) : String := String.ofList (emitNode spell value 0 false 0).1


/-- The text of a chain is the text of its parts from the columns they meet. -/
theorem chain_text (first second : Emission) (column : ℕ) :
    (chain first second column).1=(first column).1 ++ (second (first column).2).1 := rfl

/-- A chain ends where its second part ends. -/
theorem chain_column (first second : Emission) (column : ℕ) :
    (chain first second column).2=(second (first column).2).2 := rfl

/-- A nonempty list of emissions ends where its last part ends. -/
theorem emitAll_cons (first : Emission) (rest : List Emission) :
    emitAll (first::rest)=chain first (emitAll rest) := rfl

/-- An empty list of emissions writes nothing. -/
theorem emitAll_nil : emitAll []=skip := rfl

mutual
/-- Every value ends its last line. -/
theorem emitNode_column : ∀ (value : Json) (level : ℕ) (firstInline : Bool) (column : ℕ),
    (emitNode spell value level firstInline column).2=0
  | .object (member::members),level,firstInline,column => by
    rw [emitNode]
    exact emitMembers_column (member::members) level firstInline column (by simp)
  | .array (item::items),level,firstInline,column => by
    rw [emitNode]
    exact emitItems_column (item::items) level firstInline column (by simp)
  | .object [],level,firstInline,column => by simp [emitNode,emitAll,chain,newline,skip]
  | .array [],level,firstInline,column => by simp [emitNode,emitAll,chain,newline,skip]
  | .null,level,firstInline,column => by simp [emitNode,emitAll,chain,newline,skip]
  | .boolean _,level,firstInline,column => by simp [emitNode,emitAll,chain,newline,skip]
  | .integer _,level,firstInline,column => by simp [emitNode,emitAll,chain,newline,skip]
  | .float _,level,firstInline,column => by simp [emitNode,emitAll,chain,newline,skip]
  | .string _,level,firstInline,column => by simp [emitNode,emitAll,chain,newline,skip]

/-- A nonempty mapping ends its last line. -/
theorem emitMembers_column : ∀ (members : List (String × Json)) (level : ℕ) (firstInline : Bool)
    (column : ℕ), members≠[] → (emitMembers spell level firstInline members column).2=0
  | [],_,_,_,h => absurd rfl h
  | (key,value)::rest,level,firstInline,column,_ => by
    rw [emitMembers]
    simp only [emitAll_cons,emitAll_nil,chain_column]
    cases rest with
    | cons next rest => exact emitMembers_column (next::rest) level false _ (by simp)
    | nil =>
      rw [emitMembers]
      exact emitBelow_column value level _

/-- Every member value ends its last line. -/
theorem emitBelow_column : ∀ (value : Json) (level column : ℕ),
    (emitBelow spell value level column).2=0
  | .object (member::members),level,column => by
    rw [emitBelow,chain_column]
    exact emitMembers_column (member::members) (level+2) false _ (by simp)
  | .array (item::items),level,column => by
    rw [emitBelow,chain_column]
    exact emitItems_column (item::items) level false _ (by simp)
  | .object [],level,column => by simp [emitBelow,emitAll,chain,newline,skip]
  | .array [],level,column => by simp [emitBelow,emitAll,chain,newline,skip]
  | .null,level,column => by simp [emitBelow,emitAll,chain,newline,skip]
  | .boolean _,level,column => by simp [emitBelow,emitAll,chain,newline,skip]
  | .integer _,level,column => by simp [emitBelow,emitAll,chain,newline,skip]
  | .float _,level,column => by simp [emitBelow,emitAll,chain,newline,skip]
  | .string _,level,column => by simp [emitBelow,emitAll,chain,newline,skip]

/-- A nonempty sequence ends its last line. -/
theorem emitItems_column : ∀ (items : List Json) (level : ℕ) (firstInline : Bool)
    (column : ℕ), items≠[] → (emitItems spell level firstInline items column).2=0
  | [],_,_,_,h => absurd rfl h
  | item::rest,level,firstInline,column,_ => by
    rw [emitItems]
    simp only [emitAll_cons,emitAll_nil,chain_column]
    cases rest with
    | cons next rest => exact emitItems_column (next::rest) level false _ (by simp)
    | nil =>
      rw [emitItems]
      exact emitNode_column item (level+2) true _
end

/-- Sequence elements are written independently of their neighbours. -/
theorem emitItems_cons (level : ℕ) (item : Json) (rest : List Json) :
    (emitItems spell level false (item::rest) 0).1=
      (emitItems spell level false [item] 0).1 ++ (emitItems spell level false rest 0).1 := by
  rw [emitItems,emitItems,emitItems]
  simp only [emitAll_cons,emitAll_nil,chain_text,skip,
    List.append_nil,emitNode_column,List.append_assoc]

/-- Mapping members are written independently of later members. -/
theorem emitMembers_append (level : ℕ) (first second : List (String × Json)) :
    (emitMembers spell level false (first ++ second) 0).1=
      (emitMembers spell level false first 0).1 ++ (emitMembers spell level false second 0).1 := by
  induction first with
  | nil => rw [List.nil_append,emitMembers]; simp [skip]
  | cons member rest ih =>
    obtain ⟨key,value⟩ := member
    have hsplit : ∀ tail, (emitMembers spell level false ((key,value)::tail) 0).1=
        (emitMembers spell level false [(key,value)] 0).1 ++ (emitMembers spell level false tail 0).1 := by
      intro tail
      rw [emitMembers,emitMembers,emitMembers]
      simp only [emitAll_cons,emitAll_nil,chain_text,skip,List.append_nil,
        emitBelow_column,List.append_assoc]
    rw [List.cons_append,hsplit (rest ++ second),ih,hsplit rest,List.append_assoc]

/-- A cached obstacle and the text of its one-element sequence. -/
structure CachedItem where
  /-- Obstacle value at the time of its encoding. -/
  value : Json
  /-- Text of that value. -/
  text : String

/-- Incremental writer: obstacle texts by key and the number of encodings. -/
structure DocumentYaml where
  /-- Texts of the obstacles of the last document. -/
  items : String → Option CachedItem
  /-- Encodings so far, cache misses included. -/
  emitted : ℕ

/-- A writer that has written nothing. -/
def emptyYaml : DocumentYaml := ⟨fun _ => none,0⟩

/-- Cache key: the identity text, else the position. -/
def itemKey (value : Json) (index : ℕ) : String :=
  match value.member "id" with
  | some (.string id) => id
  | _ => "#" ++ toString index

mutual
/-- Cache equality: same kinds, same member order, equal numbers and the same sign of zero. -/
def sameTextValue : Json → Json → Bool
  | .float x,.float y => x==y && (!(x==0) || DoubleBits.signbit x==DoubleBits.signbit y)
  | .array a,.array b => sameTextItems a b
  | .object a,.object b => sameTextMembers a b
  | .null,.null => true
  | .boolean a,.boolean b => a==b
  | .integer a,.integer b => a==b
  | .string a,.string b => a==b
  | _,_ => false

/-- Cache equality of two arrays. -/
def sameTextItems : List Json → List Json → Bool
  | [],[] => true
  | a::as,b::bs => sameTextValue a b && sameTextItems as bs
  | _,_ => false

/-- Cache equality of two member lists, order included. -/
def sameTextMembers : List (String × Json) → List (String × Json) → Bool
  | [],[] => true
  | (k,v)::rest,(l,w)::other => k==l && sameTextValue v w && sameTextMembers rest other
  | _,_ => false
end

mutual
/-- Values that are the same for the cache are the same. -/
theorem sameTextValue_eq : ∀ a b : Json, sameTextValue a b=true → a=b
  | .float x,b,h => by
    cases b with
    | float y =>
      rw [sameTextValue,Bool.and_eq_true] at h
      rw [DoubleBits.eq_of_beq h.1 h.2]
    | _ => simp [sameTextValue] at h
  | .array a,b,h => by
    cases b with
    | array b =>
      rw [sameTextValue] at h
      rw [sameTextItems_eq a b h]
    | _ => simp [sameTextValue] at h
  | .object a,b,h => by
    cases b with
    | object b =>
      rw [sameTextValue] at h
      rw [sameTextMembers_eq a b h]
    | _ => simp [sameTextValue] at h
  | .null,b,h => by cases b <;> simp_all [sameTextValue]
  | .boolean _,b,h => by cases b <;> simp_all [sameTextValue]
  | .integer _,b,h => by cases b <;> simp_all [sameTextValue]
  | .string _,b,h => by cases b <;> simp_all [sameTextValue]

/-- Arrays that are the same for the cache are the same. -/
theorem sameTextItems_eq : ∀ a b : List Json, sameTextItems a b=true → a=b
  | [],[],_ => rfl
  | [],_::_,h => by simp [sameTextItems] at h
  | _::_,[],h => by simp [sameTextItems] at h
  | a::as,b::bs,h => by
    rw [sameTextItems,Bool.and_eq_true] at h
    rw [sameTextValue_eq a b h.1,sameTextItems_eq as bs h.2]

/-- Member lists that are the same for the cache are the same. -/
theorem sameTextMembers_eq : ∀ a b : List (String × Json), sameTextMembers a b=true → a=b
  | [],[],_ => rfl
  | [],_::_,h => by simp [sameTextMembers] at h
  | _::_,[],h => by simp [sameTextMembers] at h
  | (k,v)::rest,(l,w)::other,h => by
    rw [sameTextMembers,Bool.and_eq_true,Bool.and_eq_true,beq_iff_eq] at h
    rw [h.1.1,sameTextValue_eq v w h.1.2,sameTextMembers_eq rest other h.2]
end

/-- The cached item of an obstacle, or a new encoding and its cost. -/
def reuseItem (old : String → Option CachedItem) (key : String) (obstacle : Json) : CachedItem × ℕ :=
  match old key with
  | some item =>
    if sameTextValue item.value obstacle then (item,0)
    else (⟨obstacle,dumpYaml spell (.array [obstacle])⟩,1)
  | none => (⟨obstacle,dumpYaml spell (.array [obstacle])⟩,1)

/-- Concatenate obstacle texts while the next cache is built. -/
def dumpObstacles (old : String → Option CachedItem) :
    ℕ → List Json → String → DocumentYaml → String × DocumentYaml
  | _,[],text,next => (text,next)
  | index,obstacle::rest,text,next =>
    let key := itemKey obstacle index
    let used := reuseItem spell old key obstacle
    dumpObstacles old (index+1) rest (text ++ used.1.text)
      ⟨fun k => if k=key then some used.1 else next.items k,next.emitted+used.2⟩

/-- Whether the obstacles are the last member, as the fast path needs. -/
def obstaclesLast (value : Json) : Bool := value.members.getLast?.map Prod.fst==some "obstacles"

/-- YAML text of a document with reuse of unchanged obstacle texts. -/
def DocumentYaml.dump (yaml : DocumentYaml) (value : Json) : String × DocumentYaml :=
  let obstacles := value.valueOr "obstacles" .null
  if obstacles.size=0 || !obstaclesLast value then
    (dumpYaml spell value,⟨fun _ => none,yaml.emitted+obstacles.size⟩)
  else
    let listed := dumpObstacles spell yaml.items 0 obstacles.items "" ⟨fun _ => none,yaml.emitted⟩
    let header := Json.object (value.members.filter (fun m => m.1≠"obstacles"))
    (dumpYaml spell header ++ "obstacles:\n" ++ listed.1,listed.2)

/-- Every cached text is the text of its value. -/
def CacheValid (yaml : DocumentYaml) : Prop :=
  ∀ key item, yaml.items key=some item → item.text=dumpYaml spell (.array [item.value])

/-- A new writer has a valid cache. -/
theorem emptyYaml_valid : CacheValid spell emptyYaml := by
  intro key item h
  simp [emptyYaml] at h

/-- Reused and fresh items carry the text of the obstacle they stand for. -/
theorem reuseItem_text {yaml : DocumentYaml} (hv : CacheValid spell yaml) (key : String)
    (obstacle : Json) :
    (reuseItem spell yaml.items key obstacle).1.value=obstacle ∧
      (reuseItem spell yaml.items key obstacle).1.text=dumpYaml spell (.array [obstacle]) := by
  unfold reuseItem
  split
  · next item hi =>
    split
    · next hs =>
      have he : item.value=obstacle := sameTextValue_eq _ _ hs
      exact ⟨he,he ▸ hv key item hi⟩
    · exact ⟨rfl,rfl⟩
  · exact ⟨rfl,rfl⟩

/-- The obstacle loop appends the plain sequence text and keeps the cache valid. -/
theorem dumpObstacles_text {yaml : DocumentYaml} (hv : CacheValid spell yaml) (index : ℕ)
    (obstacles : List Json) (text : String) (next : DocumentYaml) (hn : CacheValid spell next) :
    (dumpObstacles spell yaml.items index obstacles text next).1=
        text ++ String.ofList (emitItems spell 0 false obstacles 0).1 ∧
      CacheValid spell (dumpObstacles spell yaml.items index obstacles text next).2 := by
  induction obstacles generalizing index text next with
  | nil => simp [dumpObstacles,emitItems,skip,hn]
  | cons obstacle rest ih =>
    obtain ⟨hvalue,htext⟩ := reuseItem_text spell hv (itemKey obstacle index) obstacle
    rw [dumpObstacles]
    obtain ⟨h1,h2⟩ := ih (index+1)
      (text ++ (reuseItem spell yaml.items (itemKey obstacle index) obstacle).1.text)
      ⟨fun k => if k=itemKey obstacle index then
          some (reuseItem spell yaml.items (itemKey obstacle index) obstacle).1 else next.items k,
        next.emitted+(reuseItem spell yaml.items (itemKey obstacle index) obstacle).2⟩
      (by
        intro key item h
        dsimp only at h
        split at h
        · cases h
          rw [htext,hvalue]
        · exact hn key item h)
    refine ⟨?_,h2⟩
    rw [h1,htext,emitItems_cons,String.ofList_append,String.append_assoc]
    rfl

/-- The key line of the obstacle member. -/
theorem obstacles_key : (emitKey "obstacles" 0 0).1="obstacles:".toList := by decide +kernel

/-- A nonempty object is written member by member. -/
theorem dumpYaml_object {members : List (String × Json)} (h : members≠[]) :
    dumpYaml spell (.object members)=String.ofList (emitMembers spell 0 false members 0).1 := by
  cases members with
  | nil => exact absurd rfl h
  | cons member rest => rw [dumpYaml,emitNode]

/-- A nonempty obstacle member is its key line and the plain sequence text. -/
theorem emitMembers_obstacles (item : Json) (items : List Json) :
    (emitMembers spell 0 false [("obstacles",.array (item::items))] 0).1=
      "obstacles:\n".toList ++ (emitItems spell 0 false (item::items) 0).1 := by
  rw [emitMembers,emitMembers,emitBelow]
  simp only [emitAll_cons,emitAll_nil,chain_text,skip,List.append_nil]
  have hs : (startLine 0 0)=([],0) := rfl
  simp only [Bool.false_eq_true,if_false,hs,List.nil_append,obstacles_key,newline]
  rfl

/-- The incremental writer returns the plain text for every document whose
members have distinct keys and that has some member besides its obstacles. -/
theorem dump_text {yaml : DocumentYaml} (hv : CacheValid spell yaml) {value : Json}
    (hkeys : (value.members.map Prod.fst).Nodup)
    (hother : ∃ m∈value.members, m.1≠"obstacles")
    (harray : ∃ items, value.valueOr "obstacles" .null=.array items) :
    (yaml.dump spell value).1=dumpYaml spell value ∧ CacheValid spell (yaml.dump spell value).2 := by
  have hempty : CacheValid spell ⟨fun _ => none,yaml.emitted⟩ := by
    intro key item h
    simp at h
  unfold DocumentYaml.dump
  obtain ⟨items,hitems⟩ := harray
  simp only [hitems]
  split
  · refine ⟨rfl,?_⟩
    intro key item h
    simp at h
  · next hfast =>
    simp only [Bool.or_eq_true,decide_eq_true_eq,Bool.not_eq_true',not_or,Bool.not_eq_false] at hfast
    obtain ⟨hsize,hlast⟩ := hfast
    obtain ⟨before,hmembers⟩ := members_split hitems hkeys hlast
    obtain ⟨htext,hvalid⟩ := dumpObstacles_text spell hv 0 items "" ⟨fun _ => none,yaml.emitted⟩ hempty
    refine ⟨?_,hvalid⟩
    have hb : before≠[] := by
      obtain ⟨m,hm,hne⟩ := hother
      rw [hmembers] at hm
      rcases List.mem_append.mp hm with h | h
      · exact List.ne_nil_of_mem h
      · simp only [List.mem_singleton] at h
        rw [h] at hne
        exact absurd rfl hne
    have hvalue : value=.object (before ++ [("obstacles",.array items)]) := by
      cases value with
      | object members => exact congrArg Json.object hmembers
      | _ => simp [Json.members] at hmembers
    have hfilter : (value.members.filter (fun m => m.1≠"obstacles"))=before := by
      rw [hmembers,List.map_append] at hkeys
      rw [hmembers]
      exact filter_before hkeys
    cases items with
    | nil => exact absurd rfl hsize
    | cons item items =>
      rw [hfilter,dumpYaml_object spell hb]
      show String.ofList (emitMembers spell 0 false before 0).1 ++ "obstacles:\n" ++
        (dumpObstacles spell yaml.items 0 (item::items) "" ⟨fun _ => none,yaml.emitted⟩).1=_
      rw [htext,hvalue,dumpYaml_object spell (by simp),emitMembers_append,emitMembers_obstacles]
      simp only [String.ofList_append,String.empty_append,String.append_assoc]
      rfl

end Emitter

end Ros1Adapter.SceneYaml
