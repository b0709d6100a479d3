import Ros1Adapter.SceneService
import Ros1Adapter.SceneTextCaches
import Ros1Adapter.YamlScalars

/-!
# Compact responses

The service strips the blanks between the tokens of the spaced envelope text.
The scan works on bytes with two flags; on UTF-8 text it is the scan of the
characters, since no byte of a longer character is a blank, a quote or a
backslash. On the text of a value the scan gives the text with `,` and `:` as
separators and keeps every string as it is.
-/

namespace Ros1Adapter.SceneCompactText

open SceneJson SceneJsonText SceneFiles SceneFingerprint SceneService SceneTextCaches

section Bytes

/-- The scan of a response over the bytes of the spaced text. -/
def compactedBytes : Bool → Bool → List UInt8 → List UInt8
  | _,_,[] => []
  | quoted,escaped,c::rest =>
    let kept := if quoted || c ≠ 0x20 then [c] else []
    kept ++
      (if escaped then compactedBytes quoted false rest
      else if quoted && c == 0x5c then compactedBytes quoted true rest
      else if c = 0x22 then compactedBytes (!quoted) false rest
      else compactedBytes quoted false rest)

/-- UTF-8 bytes of a text. -/
def utf8Bytes (text : List Char) : List UInt8 := text.flatMap String.utf8EncodeChar

/-- Bytes of joined texts. -/
theorem utf8Bytes_append (text more : List Char) : utf8Bytes (text ++ more)=utf8Bytes text ++ utf8Bytes more :=
  List.flatMap_append

/-- A byte above the ASCII range. -/
def Wide (byte : UInt8) : Prop := 0x80≤byte.toNat

/-- A wide byte is no blank, no quote and no backslash. -/
theorem Wide.plain {byte : UInt8} (h : Wide byte) : byte≠0x20 ∧ byte≠0x22 ∧ byte≠0x5c := by
  unfold Wide at h
  refine ⟨?_,?_,?_⟩ <;> rintro rfl <;> simp at h

/-- A character is one byte of its own number or several wide bytes. -/
theorem utf8_byte_or_wide (c : Char) :
    (c.toNat≤0x7f ∧ String.utf8EncodeChar c=[UInt8.ofNat c.toNat]) ∨
      (0x7f<c.toNat ∧ ∀ byte∈String.utf8EncodeChar c, Wide byte) := by
  unfold String.utf8EncodeChar
  dsimp only
  by_cases h : c.val.toNat≤0x7f
  · rw [if_pos h]
    exact Or.inl ⟨h,rfl⟩
  · rw [if_neg h]
    refine Or.inr ⟨Nat.lt_of_not_le h,?_⟩
    have wide : ∀ n : ℕ, 0x80≤n → n<0x100 → Wide (UInt8.ofNat n) := by
      intro n hlow hhigh
      unfold Wide
      rw [UInt8.toNat_ofNat_of_lt' hhigh]
      exact hlow
    split
    · intro byte hb
      simp only [List.mem_cons,List.not_mem_nil,or_false] at hb
      rcases hb with rfl | rfl <;> exact wide _ (by omega) (by omega)
    · split
      · intro byte hb
        simp only [List.mem_cons,List.not_mem_nil,or_false] at hb
        rcases hb with rfl | rfl | rfl <;> exact wide _ (by omega) (by omega)
      · intro byte hb
        simp only [List.mem_cons,List.not_mem_nil,or_false] at hb
        rcases hb with rfl | rfl | rfl | rfl <;> exact wide _ (by omega) (by omega)

/-- Wide bytes pass the scan and end an escape. -/
theorem compactedBytes_wide {bytes : List UInt8} (h : ∀ byte∈bytes, Wide byte) (hne : bytes≠[])
    (quoted escaped : Bool) (rest : List UInt8) :
    compactedBytes quoted escaped (bytes ++ rest)=bytes ++ compactedBytes quoted false rest := by
  have one : ∀ {byte : UInt8}, Wide byte → ∀ (escaped : Bool) (tail : List UInt8),
      compactedBytes quoted escaped (byte::tail)=byte::compactedBytes quoted false tail := by
    intro byte hb escaped tail
    obtain ⟨hblank,hquote,hslash⟩ := hb.plain
    rw [compactedBytes]
    simp [hblank,hquote,hslash]
  induction bytes generalizing escaped with
  | nil => exact absurd rfl hne
  | cons byte tail ih =>
    rw [List.cons_append,one (h byte List.mem_cons_self)]
    cases tail with
    | nil => rfl
    | cons next more =>
      rw [ih (fun b hb => h b (List.mem_cons_of_mem byte hb)) (List.cons_ne_nil next more) false]
      rfl

/-- ASCII characters are equal exactly if their bytes are. -/
theorem ascii_eq {c m : Char} (hc : c.toNat≤0x7f) (hm : m.toNat≤0x7f) :
    UInt8.ofNat c.toNat=UInt8.ofNat m.toNat ↔ c=m := by
  constructor
  · intro h
    have hn := congrArg UInt8.toNat h
    rw [UInt8.toNat_ofNat_of_lt' (Nat.lt_of_le_of_lt hc (by decide)),
      UInt8.toNat_ofNat_of_lt' (Nat.lt_of_le_of_lt hm (by decide))] at hn
    exact Char.toNat_inj.mp hn
  · rintro rfl
    rfl

/-- The scan of the bytes is the scan of the characters. -/
theorem compactedBytes_utf8 (quoted escaped : Bool) (text : List Char) :
    compactedBytes quoted escaped (utf8Bytes text)=utf8Bytes (compacted quoted escaped text) := by
  induction text generalizing quoted escaped with
  | nil => rfl
  | cons c rest ih =>
    have hsplit : utf8Bytes (c::rest)=String.utf8EncodeChar c ++ utf8Bytes rest := rfl
    rw [hsplit,compacted]
    rcases utf8_byte_or_wide c with ⟨hc,hbytes⟩ | ⟨hc,hwide⟩
    · have hblank : UInt8.ofNat c.toNat=0x20 ↔ c = ' ' := ascii_eq (m := ' ') hc (by decide)
      have hquote : UInt8.ofNat c.toNat=0x22 ↔ c = '"' := ascii_eq (m := '"') hc (by decide)
      have hslash : UInt8.ofNat c.toNat=0x5c ↔ c = '\\' := ascii_eq (m := '\\') hc (by decide)
      have hone : utf8Bytes [c]=[UInt8.ofNat c.toNat] := by
        unfold utf8Bytes
        rw [List.flatMap_singleton,hbytes]
      rw [hbytes,List.singleton_append,compactedBytes,utf8Bytes_append]
      have hkept : (if quoted || UInt8.ofNat c.toNat ≠ 0x20 then [UInt8.ofNat c.toNat] else [])=
          utf8Bytes (if quoted || c ≠ ' ' then [c] else []) := by
        simp only [ne_eq,hblank]
        split
        · exact hone.symm
        · rfl
      rw [hkept]
      simp only [beq_iff_eq,hquote,hslash,apply_ite utf8Bytes,ih,Bool.and_eq_true,decide_eq_true_eq]
    · have hplain : ∀ mark : Char, mark.toNat≤0x7f → c≠mark := by
        rintro mark hm rfl
        omega
      have hblank := hplain ' ' (by decide)
      have hquote := hplain '"' (by decide)
      have hslash := hplain '\\' (by decide)
      rw [compactedBytes_wide hwide String.utf8EncodeChar_ne_nil,ih]
      simp [hblank,hquote,hslash,utf8Bytes]

end Bytes

section Encoding

variable (spell : Float → String) (comma colon : List Char)

mutual
/-- JSON text of a value under two separators. -/
def separated : Json → List Char
  | .null => "null".toList
  | .boolean value => if value then "true".toList else "false".toList
  | .integer value => (toString value).toList
  | .float value => (spell value).toList
  | .string value => quoteText value
  | .array items => '[' :: (separatedItems items ++ [']'])
  | .object members => '\x7b' :: (separatedMembers members ++ ['\x7d'])

/-- Elements under two separators. -/
def separatedItems : List Json → List Char
  | [] => []
  | [only] => separated only
  | first::second::rest => separated first ++ comma ++ separatedItems (second::rest)

/-- Members under two separators. -/
def separatedMembers : List (String × Json) → List Char
  | [] => []
  | [(key,value)] => quoteText key ++ colon ++ separated value
  | (key,value)::second::rest =>
    quoteText key ++ colon ++ separated value ++ comma ++ separatedMembers (second::rest)
end

/-- The compact text of a value. -/
def compactText (value : Json) : List Char := separated spell [','] [':'] value

end Encoding

section Spaced

variable {spell : Float → String}

mutual
/-- The envelope encoding of a finite value has Python's separators. -/
theorem dumpCharacters_separated : ∀ {value : Json}, finite value=true →
    dumpCharacters spell value=.ok (separated spell [',',' '] [':',' '] value)
  | .null,_ => rfl
  | .boolean _,_ => rfl
  | .integer _,_ => rfl
  | .float x,h => by
    rw [finite] at h
    rw [dumpCharacters,if_pos h,separated]
  | .string _,_ => rfl
  | .array items,h => by
    rw [finite] at h
    rw [dumpCharacters,dumpItems_separated h,separated]
    rfl
  | .object members,h => by
    rw [finite] at h
    rw [dumpCharacters,dumpMembers_separated h,separated]
    rfl

/-- Elements of the envelope encoding have Python's separators. -/
theorem dumpItems_separated : ∀ {items : List Json}, finiteItems items=true →
    dumpItems spell items=.ok (separatedItems spell [',',' '] [':',' '] items)
  | [],_ => rfl
  | [only],h => by
    rw [finiteItems,Bool.and_eq_true] at h
    rw [dumpItems,dumpCharacters_separated h.1,separatedItems]
  | first::second::rest,h => by
    rw [finiteItems,Bool.and_eq_true] at h
    rw [dumpItems,dumpCharacters_separated h.1,dumpItems_separated h.2,separatedItems,List.append_assoc]
    rfl

/-- Members of the envelope encoding have Python's separators. -/
theorem dumpMembers_separated : ∀ {members : List (String × Json)}, finiteMembers members=true →
    dumpMembers spell members=.ok (separatedMembers spell [',',' '] [':',' '] members)
  | [],_ => rfl
  | [(key,value)],h => by
    rw [finiteMembers,Bool.and_eq_true] at h
    rw [dumpMembers,dumpCharacters_separated h.1,separatedMembers,List.append_assoc]
    rfl
  | (key,value)::second::rest,h => by
    rw [finiteMembers,Bool.and_eq_true] at h
    rw [dumpMembers,dumpCharacters_separated h.1,dumpMembers_separated h.2,separatedMembers]
    simp only [List.append_assoc]
    rfl
end

end Spaced

section Scan

/-- Outside strings the scan turns a text into another, whatever follows. -/
def Passes (text result : List Char) : Prop :=
  ∀ rest : List Char, compacted false false (text ++ rest)=result ++ compacted false false rest

/-- Texts pass one after the other. -/
theorem Passes.append {text result more longer : List Char} (h : Passes text result) (hmore : Passes more longer) :
    Passes (text ++ more) (result ++ longer) := by
  intro rest
  rw [List.append_assoc,h,hmore,List.append_assoc]

/-- No text passes as no text. -/
theorem passes_nothing : Passes [] [] := by
  intro rest
  rfl

/-- A blank is dropped. -/
theorem passes_blank : Passes [' '] [] := by
  intro rest
  rfl

/-- Text without blanks and quotes stays. -/
theorem passes_plain {text : List Char} (h : ∀ c∈text, c≠ ' ' ∧ c≠ '"') : Passes text text := by
  intro rest
  induction text with
  | nil => rfl
  | cons c tail ih =>
    obtain ⟨hblank,hquote⟩ := h c List.mem_cons_self
    rw [List.cons_append,compacted]
    simp only [Bool.false_or,Bool.false_and,Bool.false_eq_true,if_false,hblank,hquote,ne_eq,not_false_eq_true,
      decide_true,if_true,List.singleton_append]
    rw [ih (fun b hb => h b (List.mem_cons_of_mem c hb)),List.cons_append]

/-- A mark that is neither a blank nor a quote stays. -/
theorem passes_mark {mark : Char} (h : mark≠ ' ' ∧ mark≠ '"') : Passes [mark] [mark] := by
  refine passes_plain (fun c hc => ?_)
  rw [List.mem_singleton.mp hc]
  exact h

/-- A mark and then a blank lose the blank. -/
theorem passes_separator {mark : Char} (h : mark≠ ' ' ∧ mark≠ '"') : Passes [mark,' '] [mark] :=
  (passes_mark h).append passes_blank

/-- Inside a string everything but quotes and backslashes stays. -/
theorem quoted_plain {text : List Char} (h : ∀ c∈text, c≠ '"' ∧ c≠ '\\') (rest : List Char) :
    compacted true false (text ++ rest)=text ++ compacted true false rest := by
  induction text with
  | nil => rfl
  | cons c tail ih =>
    obtain ⟨hquote,hslash⟩ := h c List.mem_cons_self
    rw [List.cons_append,compacted]
    simp only [Bool.true_or,Bool.true_and,Bool.false_eq_true,if_false,if_true,hquote,hslash,decide_false,
      List.singleton_append]
    rw [ih (fun b hb => h b (List.mem_cons_of_mem c hb)),List.cons_append]

/-- Inside a string a backslash and the character behind it stay. -/
theorem quoted_pair (c : Char) (rest : List Char) :
    compacted true false ('\\' :: c::rest)= '\\' :: c::compacted true false rest := by
  simp [compacted]

/-- Hexadecimal digits are neither quotes nor backslashes. -/
theorem hexText_plain (width n : ℕ) : ∀ c∈hexText width n, c≠ '"' ∧ c≠ '\\' := by
  have digit : ∀ m<16, hexDigit m≠ '"' ∧ hexDigit m≠ '\\' := by decide
  induction width generalizing n with
  | zero =>
    intro c hc
    cases hc
  | succ width ih =>
    intro c hc
    rw [hexText,List.mem_append] at hc
    rcases hc with hc | hc
    · exact ih (n/16) c hc
    · rw [List.mem_singleton.mp hc]
      exact digit (n%16) (Nat.mod_lt n (by decide))

/-- Inside a string the escape of a character stays. -/
theorem quoted_escape (c : Char) (rest : List Char) :
    compacted true false (escapeCharacter c ++ rest)=escapeCharacter c ++ compacted true false rest := by
  unfold escapeCharacter
  split
  · exact quoted_pair '"' rest
  next hquote =>
  split
  · exact quoted_pair '\\' rest
  next hslash =>
  split
  · exact quoted_pair 'b' rest
  split
  · exact quoted_pair 'f' rest
  split
  · exact quoted_pair 'n' rest
  split
  · exact quoted_pair 'r' rest
  split
  · exact quoted_pair 't' rest
  split
  · rw [List.cons_append,List.cons_append,quoted_pair,quoted_plain (hexText_plain 4 c.toNat)]
    rfl
  · refine quoted_plain (fun b hb => ?_) rest
    rw [List.mem_singleton.mp hb]
    exact ⟨hquote,hslash⟩

/-- Inside a string every escaped text stays. -/
theorem quoted_text (text rest : List Char) :
    compacted true false (text.flatMap escapeCharacter ++ rest)=
      text.flatMap escapeCharacter ++ compacted true false rest := by
  induction text with
  | nil => rfl
  | cons c tail ih => rw [List.flatMap_cons,List.append_assoc,quoted_escape,ih,List.append_assoc]

/-- A string literal stays and the scan is outside strings behind it. -/
theorem passes_quoted (text : String) : Passes (quoteText text) (quoteText text) := by
  intro rest
  have hopen : ∀ tail : List Char, compacted false false ('"' :: tail)= '"' :: compacted true false tail := by
    intro tail
    rw [compacted]
    simp
  have hclose : ∀ tail : List Char, compacted true false ('"' :: tail)= '"' :: compacted false false tail := by
    intro tail
    rw [compacted]
    simp
  unfold quoteText
  rw [List.cons_append,List.append_assoc,hopen,quoted_text,List.singleton_append,hclose]
  simp only [List.cons_append,List.append_assoc,List.nil_append]

end Scan

section Values

variable {spell : Float → String}

/-- The literal of null has no blank and no quote. -/
theorem passes_null : Passes "null".toList "null".toList := by
  refine passes_plain (fun c hc => ?_)
  have hword : "null".toList=['n','u','l','l'] := rfl
  rw [hword] at hc
  simp only [List.mem_cons,List.not_mem_nil,or_false] at hc
  rcases hc with rfl | rfl | rfl | rfl <;> decide

/-- The literals of truth values have no blank and no quote. -/
theorem passes_boolean (value : Bool) :
    Passes (if value then "true".toList else "false".toList) (if value then "true".toList else "false".toList) := by
  refine passes_plain (fun c hc => ?_)
  have htrue : "true".toList=['t','r','u','e'] := rfl
  have hfalse : "false".toList=['f','a','l','s','e'] := rfl
  rw [htrue,hfalse] at hc
  cases value <;> simp only [if_true,Bool.false_eq_true,if_false,List.mem_cons,List.not_mem_nil,or_false] at hc
  · rcases hc with rfl | rfl | rfl | rfl | rfl <;> decide
  · rcases hc with rfl | rfl | rfl | rfl <;> decide

/-- An integer has no blank and no quote. -/
theorem passes_integer (n : ℤ) : Passes (toString n).toList (toString n).toList := by
  refine passes_plain (fun c hc => ?_)
  rw [YamlScalars.integer_text] at hc
  rcases YamlScalars.signedDigits_characters _ _ c hc with rfl | hdigit
  · decide
  · constructor
    · rintro rfl
      cases hdigit
    · rintro rfl
      cases hdigit

mutual
/-- The scan turns the spaced text of a value into the compact one. -/
theorem passes_value (hspell : ∀ x : Float, x.isFinite=true → ∀ c∈(spell x).toList, c≠ ' ' ∧ c≠ '"') :
    ∀ {value : Json}, finite value=true →
      Passes (separated spell [',',' '] [':',' '] value) (compactText spell value)
  | .null,_ => passes_null
  | .boolean value,_ => by
    cases value with
    | true => exact passes_boolean true
    | false => exact passes_boolean false
  | .integer n,_ => passes_integer n
  | .float x,h => by
    rw [finite] at h
    exact passes_plain (hspell x h)
  | .string text,_ => passes_quoted text
  | .array items,h => by
    rw [finite] at h
    have hopen : Passes ['['] ['['] := passes_mark (by decide)
    have hclose : Passes [']'] [']'] := passes_mark (by decide)
    exact hopen.append ((passes_items hspell h).append hclose)
  | .object members,h => by
    rw [finite] at h
    have hopen : Passes ['\x7b'] ['\x7b'] := passes_mark (by decide)
    have hclose : Passes ['\x7d'] ['\x7d'] := passes_mark (by decide)
    exact hopen.append ((passes_members hspell h).append hclose)

/-- The scan turns spaced elements into compact ones. -/
theorem passes_items (hspell : ∀ x : Float, x.isFinite=true → ∀ c∈(spell x).toList, c≠ ' ' ∧ c≠ '"') :
    ∀ {items : List Json}, finiteItems items=true →
      Passes (separatedItems spell [',',' '] [':',' '] items) (separatedItems spell [','] [':'] items)
  | [],_ => passes_nothing
  | [only],h => by
    rw [finiteItems,Bool.and_eq_true] at h
    exact passes_value hspell h.1
  | first::second::rest,h => by
    rw [finiteItems,Bool.and_eq_true] at h
    have hcomma : Passes [',',' '] [','] := passes_separator (by decide)
    rw [separatedItems,separatedItems]
    exact ((passes_value hspell h.1).append hcomma).append (passes_items hspell h.2)

/-- The scan turns spaced members into compact ones. -/
theorem passes_members (hspell : ∀ x : Float, x.isFinite=true → ∀ c∈(spell x).toList, c≠ ' ' ∧ c≠ '"') :
    ∀ {members : List (String × Json)}, finiteMembers members=true →
      Passes (separatedMembers spell [',',' '] [':',' '] members) (separatedMembers spell [','] [':'] members)
  | [],_ => passes_nothing
  | [(key,value)],h => by
    rw [finiteMembers,Bool.and_eq_true] at h
    have hcolon : Passes [':',' '] [':'] := passes_separator (by decide)
    rw [separatedMembers,separatedMembers]
    exact ((passes_quoted key).append hcolon).append (passes_value hspell h.1)
  | (key,value)::second::rest,h => by
    rw [finiteMembers,Bool.and_eq_true] at h
    have hcolon : Passes [':',' '] [':'] := passes_separator (by decide)
    have hcomma : Passes [',',' '] [','] := passes_separator (by decide)
    have hmember := ((passes_quoted key).append hcolon).append (passes_value hspell h.1)
    rw [separatedMembers,separatedMembers]
    exact (hmember.append hcomma).append (passes_members hspell h.2)
end

/-- Doubles are spelled without blanks and quotes. -/
theorem pythonFloat_plain {x : Float} (h : x.isFinite=true) :
    ∀ c∈(PythonFloat.pythonFloat x).toList, c≠ ' ' ∧ c≠ '"' := by
  intro c hc
  constructor
  · rintro rfl
    rcases PythonFloat.pythonFloat_characters h _ hc with h | h | h | h | h <;> cases h
  · rintro rfl
    rcases PythonFloat.pythonFloat_characters h _ hc with h | h | h | h | h <;> cases h

end Values

section Responses

open PythonFloat

/-- After any calls of the thread's encoder, the scan of a response turns the
envelope text of a finite value into its compact text, in bytes and in
characters, and the response has that text as its body if it is short enough. -/
theorem response_compact {calls : List EncoderCall} (hcalls : ∀ call∈calls, uniqueKeys call.value=true) {value : Json}
    (hu : uniqueKeys value=true) (hf : finite value=true) {L : Library} (hspell : L.spell=pythonFloat) (status : ℕ) :
    ∃ spaced : String,
      (performAll pythonFloat {} (calls ++ [.dumps value])).getLast?=some (.ok spaced) ∧
      compactedBytes false false (utf8Bytes spaced.toList)=utf8Bytes (compactText pythonFloat value) ∧
      compacted false false spaced.toList=compactText pythonFloat value ∧
      response L value status=.ok
        (if kMaxDocumentBytes+65536<(String.ofList (compactText pythonFloat value)).utf8ByteSize then
          L.httpError 503 "resource_exhausted" "JSON response limit exceeded"
        else ⟨status,[("Content-Type","application/json")],String.ofList (compactText pythonFloat value)⟩) := by
  have hdump : dumpJson pythonFloat value=.ok (String.ofList (separated pythonFloat [',',' '] [':',' '] value)) := by
    rw [dumpJson,dumpCharacters_separated hf]
    rfl
  have hscan : compacted false false (separated pythonFloat [',',' '] [':',' '] value)=compactText pythonFloat value := by
    have hpasses := passes_value (fun x hx => pythonFloat_plain hx) hf []
    rw [List.append_nil] at hpasses
    rw [hpasses,compacted,List.append_nil]
  refine ⟨String.ofList (separated pythonFloat [',',' '] [':',' '] value),?_,?_,?_,?_⟩
  · have hall : ∀ call∈calls ++ [.dumps value], uniqueKeys call.value=true := by
      intro call hc
      rcases List.mem_append.mp hc with hc | hc
      · exact hcalls call hc
      · rw [List.mem_singleton.mp hc]
        exact hu
    rw [performAll_plain hall,List.map_append,List.map_singleton,List.getLast?_concat]
    exact congrArg some hdump
  · rw [String.toList_ofList,compactedBytes_utf8,hscan]
  · rw [String.toList_ofList,hscan]
  · unfold response
    rw [hspell,hdump]
    dsimp only [bind,Except.bind]
    rw [String.toList_ofList,hscan]
    by_cases hlong : kMaxDocumentBytes+65536<(String.ofList (compactText pythonFloat value)).utf8ByteSize
    · rw [if_pos hlong,if_pos hlong]
      rfl
    · rw [if_neg hlong,if_neg hlong]
      rfl

/-- A value with blanks, quotes and backslashes in a key and in a string. -/
def quotedDocument : Json := .object [("a \" b",.string " \\ \""),("c",.array [.integer 1,.null])]

/-- A library with Python's spelling of doubles. -/
def spellingLibrary : Library :=
  ⟨pythonFloat,fun status _ message => ⟨status,[],message⟩,fun _ => true,fun _ => .ok .null⟩

/-- The response with the quoted document after a call with it. -/
theorem response_compact_quoted : ∃ spaced : String,
    (performAll pythonFloat {} ([.document quotedDocument] ++ [.dumps quotedDocument])).getLast?=some (.ok spaced) ∧
    compactedBytes false false (utf8Bytes spaced.toList)=utf8Bytes (compactText pythonFloat quotedDocument) ∧
    compacted false false spaced.toList=compactText pythonFloat quotedDocument ∧
    response spellingLibrary quotedDocument 200=.ok
      (if kMaxDocumentBytes+65536<(String.ofList (compactText pythonFloat quotedDocument)).utf8ByteSize then
        spellingLibrary.httpError 503 "resource_exhausted" "JSON response limit exceeded"
      else ⟨200,[("Content-Type","application/json")],String.ofList (compactText pythonFloat quotedDocument)⟩) := by
  refine response_compact (fun call member => ?_) (by decide) (by decide) rfl 200
  rw [List.mem_singleton.mp member]
  decide

end Responses

end Ros1Adapter.SceneCompactText
