import Mathlib.Data.List.Basic
import Mathlib.Data.List.TakeWhile

/-!
# Portable patterns

The pattern of a robot parameter crosses three engines of regular expressions, so
only a small dialect is accepted: anchored atoms with simple quantifiers. Two
nested scanners decide it, and the engine of the generator compiles the pattern at
last.
-/

namespace Ros1Adapter.PortablePatterns

section Scanners

/-- Digits. -/
def isDigit (c : Char) : Bool := decide ('0' ≤ c) && decide (c ≤ '9')

/-- Lower case letters. -/
def isLower (c : Char) : Bool := decide ('a' ≤ c) && decide (c ≤ 'z')

/-- Upper case letters. -/
def isUpper (c : Char) : Bool := decide ('A' ≤ c) && decide (c ≤ 'Z')

/-- Letters and digits. -/
def isAlnum (c : Char) : Bool := isLower c || isUpper c || isDigit c

/-- Characters of a class. -/
def isWord (c : Char) : Bool := isAlnum c || c== '_'

/-- Characters that stand for themselves. -/
def isLiteral (c : Char) : Bool := isAlnum c || ['_','/','-'].contains c

/-- Quantifiers. -/
def isQuantifier (c : Char) : Bool := ['?','*','+'].contains c

/-- Ends of a range of one kind in order. -/
def sameRange (item last : Char) : Bool :=
  ((isDigit item && isDigit last) || (isLower item && isLower last) || (isUpper item && isUpper last)) && decide (item ≤ last)

/-- Scan the content of a class. -/
def scanClass : List Char → Except String Unit
  | [] => .ok ()
  | item::rest =>
    if item = '-' then
      if rest≠[] then .error " contains an ambiguous literal hyphen" else scanClass rest
    else if !isWord item then .error " contains a non-portable character class atom"
    else
      match rest with
      | '-'::last::rest =>
        if !isAlnum last || !sameRange item last then .error " contains an invalid character range" else scanClass rest
      | rest => scanClass rest

/-- Text behind a first character, where it is one of some kind. -/
def dropOne (p : Char → Bool) : List Char → List Char
  | [] => []
  | c::rest => if p c then rest else c::rest

/-- Text behind a quantifier, where there is one. -/
def dropQuantifier (text : List Char) : List Char := dropOne isQuantifier text

/-- Behind a first character there is no more than before. -/
theorem dropOne_length (p : Char → Bool) (text : List Char) : (dropOne p text).length ≤ text.length := by
  cases text with
  | nil => exact Nat.le_refl _
  | cons c rest =>
    have heq : dropOne p (c::rest)=if p c then rest else c::rest := rfl
    rw [heq]
    split
    · exact Nat.le_succ rest.length
    · exact Nat.le_refl _

/-- Texts of a class and behind it. -/
def splitClass (rest : List Char) : Option (List Char × List Char) :=
  match rest.dropWhile (· ≠ ']') with
  | [] => none
  | _::after => some (rest.takeWhile (· ≠ ']'),after)

/-- A class ends before the text does. -/
theorem splitClass_text {rest content after : List Char} (h : splitClass rest=some (content,after)) :
    rest=content ++ ']'::after ∧ ']'∉content := by
  unfold splitClass at h
  split at h
  · cases h
  · rename_i c tail hdrop
    cases h
    have hc : c= ']' := by
      have hhead := List.head?_dropWhile_not (· ≠ ']') rest
      rw [hdrop] at hhead
      simpa using hhead
    subst hc
    refine ⟨?_,fun hin => ?_⟩
    · rw [←hdrop,List.takeWhile_append_dropWhile]
    · have hkept := List.mem_takeWhile_imp hin
      revert hkept
      decide

/-- Scan the atoms of a pattern. -/
def scanBody (body : List Char) : Except String Unit :=
  match body with
  | [] => .ok ()
  | character::rest =>
    if character= '[' then
      match _h : splitClass rest with
      | none => .error " contains an unterminated character class"
      | some (content,after) =>
        if content=[] ∨ content.head?=some '^' then .error " contains an empty or negated character class"
        else do
          scanClass content
          scanBody (dropQuantifier after)
    else if isLiteral character then scanBody (dropQuantifier rest)
    else .error " contains a non-portable regex construct"
  termination_by body.length
  decreasing_by
  · have hlength : (dropQuantifier after).length ≤ after.length := dropOne_length isQuantifier after
    rw [(splitClass_text _h).1,List.length_cons,List.length_append,List.length_cons]
    omega
  · have hlength : (dropQuantifier rest).length ≤ rest.length := dropOne_length isQuantifier rest
    rw [List.length_cons]
    omega

end Scanners

section Engine

/-- What stands last before a position of a pattern. -/
inductive SreItem where
  /-- Nothing. -/
  | start
  /-- An anchor. -/
  | anchor
  /-- One character. -/
  | single
  /-- A repetition. -/
  | repetition
  deriving DecidableEq

/-- Text behind a class whose first members are read. -/
def sreClass (started : Bool) : List Char → Except String (List Char)
  | [] => .error "unterminated character set"
  | c::rest =>
    if c= ']' ∧ started then .ok rest
    else
      match rest with
      | ['-'] => .error "unterminated character set"
      | '-'::last::rest =>
        if last= ']' then .ok rest
        else if last<c then .error "bad character range"
        else sreClass true rest
      | rest => sreClass true rest

/-- Behind a class there is less than before. -/
theorem sreClass_length {started : Bool} {text rest : List Char} (h : sreClass started text=.ok rest) :
    rest.length<text.length := by
  fun_induction sreClass started text with
  | case1 => cases h
  | case2 started c tail hclose =>
    cases h
    exact Nat.lt_succ_self _
  | case3 => cases h
  | case4 started c hopen tail =>
    cases h
    simp only [List.length_cons]
    omega
  | case5 => cases h
  | case6 started c hopen last tail hlast horder ih =>
    have hless := ih h
    simp only [List.length_cons]
    omega
  | case7 started c tail hopen hone htwo ih =>
    have hless := ih h
    simp only [List.length_cons]
    omega

/-- Text behind the mark of a lazy or possessive repetition. -/
def dropMark (text : List Char) : List Char := dropOne (fun c => c== '?' || c== '+') text

/-- Text of a class behind its negation. -/
def dropNegation (text : List Char) : List Char := dropOne (·== '^') text

/-- Compile a pattern without groups, alternatives, bounds and escapes. -/
def sreParse (previous : SreItem) (text : List Char) : Except String Unit :=
  match text with
  | [] => .ok ()
  | c::rest =>
    if c= '^' ∨ c= '$' then sreParse .anchor rest
    else if c= '[' then
      match _h : sreClass false (dropNegation rest) with
      | .error message => .error message
      | .ok after => sreParse .single after
    else if isQuantifier c then
      match previous with
      | .start | .anchor => .error "nothing to repeat"
      | .repetition => .error "multiple repeat"
      | .single => sreParse .repetition (dropMark rest)
    else sreParse .single rest
  termination_by text.length
  decreasing_by
  · exact Nat.lt_succ_self _
  · have hclass := sreClass_length _h
    have hnegation : (dropNegation rest).length ≤ rest.length := dropOne_length _ rest
    rw [List.length_cons]
    omega
  · have hmark : (dropMark rest).length ≤ rest.length := dropOne_length _ rest
    rw [List.length_cons]
    omega
  · exact Nat.lt_succ_self _

/-- Compile a pattern; what is outside the fragment is left to the engine. -/
def reCompile (other : List Char → Except String Unit) (pattern : List Char) : Except String Unit :=
  if pattern.any (fun c => ['\\','(',')','\x7b','\x7d','|'].contains c) then other pattern else sreParse .start pattern

end Engine

section Validation

/-- Longest pattern. -/
def MAX_PARAMETER_PATTERN_LENGTH : ℕ := 256

/-- Accept a pattern of the dialect. -/
def validate_portable_parameter_pattern (other : List Char → Except String Unit) (pattern : List Char) (label : String) :
    Except String (List Char) :=
  if ¬(3 ≤ pattern.length ∧ pattern.length ≤ MAX_PARAMETER_PATTERN_LENGTH) then
    .error (label ++ " must be a 3..256 character string")
  else if ¬(pattern.all (fun c => decide (c.toNat<128)) ∧ pattern.head?=some '^' ∧ pattern.getLast?=some '$') then
    .error (label ++ " must be an anchored ASCII portable regex")
  else
    let body := (pattern.drop 1).dropLast
    if body=[] then .error (label ++ " must contain at least one atom")
    else
      match scanBody body with
      | .error message => .error (label ++ message)
      | .ok () =>
        match reCompile other pattern with
        | .error message => .error (label ++ (" is invalid: " ++ message))
        | .ok () => .ok pattern

end Validation

section Dialect

/-- Content of a class: characters of words and ranges, and a hyphen at the end. -/
inductive ClassText : List Char → Prop
  | nil : ClassText []
  | hyphen : ClassText ['-']
  | word {c : Char} {rest : List Char} (hc : isWord c=true) (hrest : ClassText rest) : ClassText (c::rest)
  | range {item last : Char} {rest : List Char} (hrange : sameRange item last=true) (hrest : ClassText rest) :
      ClassText (item:: '-'::last::rest)

/-- An atom. -/
inductive Atom : List Char → Prop
  | literal {c : Char} (hc : isLiteral c=true) : Atom [c]
  | set {content : List Char} (hne : content≠[]) (hcontent : ClassText content) : Atom ('['::(content ++ [']']))

/-- At most one quantifier. -/
inductive Quantifier : List Char → Prop
  | none : Quantifier []
  | one {c : Char} (hc : isQuantifier c=true) : Quantifier [c]

/-- Atoms with their quantifiers. -/
inductive Atoms : List Char → Prop
  | nil : Atoms []
  | cons {atom quantifier rest : List Char} (hatom : Atom atom) (hquantifier : Quantifier quantifier) (hrest : Atoms rest) :
      Atoms (atom ++ quantifier ++ rest)

/-- Patterns of the dialect. -/
def Portable (pattern : List Char) : Prop :=
  (∀ c∈pattern, c.toNat<128) ∧ 3 ≤ pattern.length ∧ pattern.length ≤ 256 ∧
    ∃ body, body≠[] ∧ Atoms body ∧ pattern= '^'::(body ++ ['$'])

/-- A range is of word characters, and neither end is a hyphen or closes a class. -/
theorem sameRange_word {item last : Char} (h : sameRange item last=true) :
    isAlnum item=true ∧ isAlnum last=true ∧ item ≤ last := by
  unfold sameRange at h
  simp only [Bool.and_eq_true,Bool.or_eq_true,decide_eq_true_eq] at h
  unfold isAlnum
  simp only [Bool.or_eq_true]
  rcases h.1 with (h' | h') | h'
  · exact ⟨Or.inr h'.1,Or.inr h'.2,h.2⟩
  · exact ⟨Or.inl (Or.inl h'.1),Or.inl (Or.inl h'.2),h.2⟩
  · exact ⟨Or.inl (Or.inr h'.1),Or.inl (Or.inr h'.2),h.2⟩

/-- A word character is none of the others. -/
theorem isWord_ne {c d : Char} (h : isWord c=true) (hd : isWord d=false) : c≠d := by
  rintro rfl
  rw [h] at hd
  cases hd

/-- A text of a class that starts with a hyphen is one. -/
theorem ClassText.hyphen_only {rest : List Char} (h : ClassText ('-'::rest)) : rest=[] := by
  cases h with
  | hyphen => rfl
  | word hc hrest => exact absurd hc (by decide)
  | range hrange hrest => exact absurd (sameRange_word hrange).1 (by decide)

/-- The scanner accepts the texts of classes. -/
theorem scanClass_iff (content : List Char) : scanClass content=.ok () ↔ ClassText content := by
  constructor
  · intro h
    fun_induction scanClass content with
    | case1 => exact .nil
    | case2 => cases h
    | case3 rest hrest ih =>
      rw [not_not.mp hrest]
      exact .hyphen
    | case4 => cases h
    | case5 => cases h
    | case6 item hitem hword last rest hlast ih =>
      simp only [Bool.or_eq_true,Bool.not_eq_true',not_or,Bool.not_eq_false] at hlast
      exact .range hlast.2 (ih h)
    | case7 item hitem hword rest hshape ih =>
      have hc : isWord item=true := by simpa using hword
      exact .word hc (ih h)
  · intro h
    induction h with
    | nil | hyphen => rfl
    | @word c rest hc hrest ih =>
      have hhyphen : c≠ '-' := isWord_ne hc (by decide)
      have hkept : ¬(!isWord c)=true := by
        rw [hc]
        decide
      unfold scanClass
      rw [if_neg hhyphen,if_neg hkept]
      split
      · cases hrest.hyphen_only
      · exact ih
    | @range item last rest hrange hrest ih =>
      obtain ⟨hitem,hlast,_⟩ := sameRange_word hrange
      have hword : isWord item=true := by
        unfold isWord
        rw [hitem,Bool.true_or]
      have hhyphen : item≠ '-' := isWord_ne hword (by decide)
      unfold scanClass
      simp only [hhyphen,hword,hlast,hrange,if_false,Bool.not_true,Bool.or_self,Bool.false_eq_true]
      exact ih

/-- A text of a class does not close it. -/
theorem ClassText.open {content : List Char} (h : ClassText content) : ']'∉content := by
  intro hin
  induction h with
  | nil => cases hin
  | hyphen => exact absurd hin (by decide)
  | word hc hrest ih =>
    rcases List.mem_cons.mp hin with heq | hin
    · rw [←heq] at hc
      exact absurd hc (by decide)
    · exact ih hin
  | range hrange hrest ih =>
    obtain ⟨hitem,hlast,_⟩ := sameRange_word hrange
    rcases List.mem_cons.mp hin with heq | hin
    · rw [←heq] at hitem
      exact absurd hitem (by decide)
    rcases List.mem_cons.mp hin with heq | hin
    · exact absurd heq (by decide)
    rcases List.mem_cons.mp hin with heq | hin
    · rw [←heq] at hlast
      exact absurd hlast (by decide)
    · exact ih hin

/-- A text of a class is not negated. -/
theorem ClassText.head {content : List Char} (h : ClassText content) : content.head?≠some '^' := by
  intro hin
  cases h with
  | nil => cases hin
  | hyphen => exact absurd hin (by decide)
  | word hc hrest =>
    rw [Option.some.inj hin] at hc
    exact absurd hc (by decide)
  | range hrange hrest =>
    have hitem := (sameRange_word hrange).1
    rw [Option.some.inj hin] at hitem
    exact absurd hitem (by decide)

/-- A character of one kind is none of some characters of no such kind. -/
theorem kind_avoids {p : Char → Bool} {others : List Char} {c : Char} (h : p c=true) (hothers : others.any p=false) :
    others.contains c=false := by
  cases hin : others.contains c with
  | false => rfl
  | true => exact absurd h (List.any_eq_false.mp hothers c (List.contains_iff_mem.mp hin))

/-- A character that stands for itself is no quantifier. -/
theorem literal_not_quantifier {c : Char} (h : isLiteral c=true) : isQuantifier c=false :=
  kind_avoids h rfl

/-- The rest of atoms does not start with a quantifier. -/
theorem Atoms.head {body : List Char} (h : Atoms body) : ∀ c∈body.head?, isQuantifier c=false := by
  intro c hc
  cases h with
  | nil => cases hc
  | cons hatom hquantifier hrest =>
    cases hatom with
    | @literal d hd =>
      have hsame : d=c := Option.some.inj hc
      rw [hsame] at hd
      exact literal_not_quantifier hd
    | set hne hcontent =>
      have hsame : '['=c := Option.some.inj hc
      rw [←hsame]
      decide

/-- A class splits at its end. -/
theorem splitClass_append {content : List Char} (h : ']'∉content) (rest : List Char) :
    splitClass (content ++ ']'::rest)=some (content,rest) := by
  have hkept : ∀ c∈content, decide (c≠ ']')=true := by
    intro c hc
    rw [decide_eq_true_iff]
    rintro rfl
    exact h hc
  have hend : ¬decide (']'≠ ']')=true := by decide
  unfold splitClass
  rw [List.dropWhile_append_of_pos hkept,List.takeWhile_append_of_pos hkept,List.dropWhile_cons_of_neg (p := fun a => decide (a≠ ']')) hend,
    List.takeWhile_cons_of_neg (p := fun a => decide (a≠ ']')) hend,List.append_nil]

/-- A quantifier is dropped where there is one. -/
theorem dropQuantifier_append {quantifier rest : List Char} (h : Quantifier quantifier)
    (hrest : ∀ c∈rest.head?, isQuantifier c=false) : dropQuantifier (quantifier ++ rest)=rest := by
  cases h with
  | none =>
    cases rest with
    | nil => rfl
    | cons c rest =>
      have heq : dropQuantifier (c::rest)=if isQuantifier c then rest else c::rest := rfl
      rw [List.nil_append,heq,hrest c rfl]
      rfl
  | @one c hc =>
    have heq : dropQuantifier (c::rest)=if isQuantifier c then rest else c::rest := rfl
    rw [List.singleton_append,heq,hc]
    rfl

/-- What is dropped is a quantifier. -/
theorem dropQuantifier_text (text : List Char) : ∃ quantifier, Quantifier quantifier ∧ text=quantifier ++ dropQuantifier text := by
  cases text with
  | nil => exact ⟨[],.none,rfl⟩
  | cons c rest =>
    have heq : dropQuantifier (c::rest)=if isQuantifier c then rest else c::rest := rfl
    cases hc : isQuantifier c with
    | false =>
      rw [hc] at heq
      exact ⟨[],.none,by rw [heq]; rfl⟩
    | true =>
      rw [hc] at heq
      exact ⟨[c],.one hc,by rw [heq]; rfl⟩

/-- What the scanner accepts are atoms with their quantifiers. -/
theorem scanBody_atoms {body : List Char} (h : scanBody body=.ok ()) : Atoms body := by
  fun_induction scanBody body with
  | case1 => exact .nil
  | case2 => cases h
  | case3 => cases h
  | case4 rest content after hsplit hcontent ih =>
    cases hscan : scanClass content with
    | error message =>
      rw [hscan] at h
      cases h
    | ok scanned =>
      rw [hscan] at h
      obtain ⟨quantifier,hquantifier,htext⟩ := dropQuantifier_text after
      have hatom : Atom ('['::(content ++ [']'])) :=
        .set (fun hempty => hcontent (Or.inl hempty)) ((scanClass_iff content).mp hscan)
      have hbody : '['::rest= '['::(content ++ [']']) ++ quantifier ++ dropQuantifier after := by
        rw [(splitClass_text hsplit).1,List.append_assoc ('['::_),←htext]
        simp only [List.cons_append,List.append_assoc,List.nil_append]
      rw [hbody]
      exact .cons hatom hquantifier (ih h)
  | case5 c rest hclass hliteral ih =>
    obtain ⟨quantifier,hquantifier,htext⟩ := dropQuantifier_text rest
    rw [htext]
    exact .cons (.literal hliteral) hquantifier (ih h)
  | case6 => cases h

/-- The scanner accepts atoms with their quantifiers. -/
theorem Atoms.scanned {body : List Char} (h : Atoms body) : scanBody body=.ok () := by
  induction h with
  | nil => rw [scanBody]
  | @cons atom quantifier rest hatom hquantifier hrest ih =>
    have hdrop := dropQuantifier_append hquantifier hrest.head
    cases hatom with
    | @literal c hc =>
      have hclass : c≠ '[' := by
        rintro rfl
        exact absurd hc (by decide)
      rw [List.append_assoc,List.singleton_append,scanBody,if_neg hclass,hc,if_pos rfl,hdrop]
      exact ih
    | @set content hne hcontent =>
      have htext : '['::(content ++ [']']) ++ quantifier ++ rest= '['::(content ++ ']'::(quantifier ++ rest)) := by
        simp only [List.cons_append,List.append_assoc,List.nil_append]
      have hsplit := splitClass_append hcontent.open (quantifier ++ rest)
      have haccepted : ¬(content=[] ∨ content.head?=some '^') := not_or.mpr ⟨hne,hcontent.head⟩
      rw [htext,scanBody,if_pos rfl]
      split
      · rename_i hnone
        rw [hsplit] at hnone
        cases hnone
      · rename_i content' after hsome
        rw [hsplit] at hsome
        cases hsome
        rw [if_neg haccepted,(scanClass_iff content).mpr hcontent,hdrop]
        exact ih

/-- The engine reads a character of a class that starts no range. -/
theorem sreClass_skip {started : Bool} {c : Char} {rest : List Char} (hc : c≠ ']') (hrest : rest.head?≠some '-') :
    sreClass started (c::rest)=sreClass true rest := by
  have hopen : ¬(c= ']' ∧ started=true) := fun h => hc h.1
  rw [sreClass.eq_def]
  simp only
  rw [if_neg hopen]
  split
  · exact absurd rfl hrest
  · exact absurd rfl hrest
  · rfl

/-- The engine reads a class of the dialect up to its end. -/
theorem sreClass_text {content : List Char} (h : ClassText content) {started : Bool} (hstarted : content≠[] ∨ started=true)
    (rest : List Char) : sreClass started (content ++ ']'::rest)=.ok rest := by
  have hclose : ∀ rest : List Char, (']'::rest).head?≠some '-' := fun rest h => absurd (Option.some.inj h) (by decide)
  induction h generalizing started with
  | nil =>
    have hopen : started=true := hstarted.resolve_left (fun h => h rfl)
    rw [List.nil_append,sreClass.eq_def]
    simp only [hopen,and_self,if_true]
  | hyphen =>
    rw [List.singleton_append,sreClass_skip (by decide) (hclose rest),sreClass.eq_def]
    simp only [and_self,if_true]
  | @word c content hc hcontent ih =>
    have hopen : c≠ ']' := isWord_ne hc (by decide)
    cases content with
    | nil =>
      rw [List.singleton_append,sreClass_skip hopen (hclose rest)]
      exact ih (Or.inr rfl)
    | cons d content =>
      by_cases hd : d = '-'
      · subst hd
        rw [hcontent.hyphen_only,sreClass.eq_def]
        simp only [List.cons_append,List.nil_append,hopen,false_and,if_false,if_true]
      · have hstart : (d::content ++ ']'::rest).head?≠some '-' := fun h => hd (Option.some.inj h)
        rw [List.cons_append,sreClass_skip hopen hstart]
        exact ih (Or.inr rfl)
  | @range item last content hrange hcontent ih =>
    obtain ⟨hitem,hlast,horder⟩ := sameRange_word hrange
    have hopen : item≠ ']' := by
      rintro rfl
      exact absurd hitem (by decide)
    have hinside : last≠ ']' := by
      rintro rfl
      exact absurd hlast (by decide)
    rw [sreClass.eq_def]
    simp only [List.cons_append,hopen,false_and,if_false,hinside,Char.not_lt.mpr horder]
    exact ih (Or.inr rfl)

/-- Characters that need neither groups nor alternatives, bounds or escapes. -/
def Plain (c : Char) : Prop := ['\\','(',')','\x7b','\x7d','|'].contains c=false

/-- Characters of classes are plain. -/
theorem ClassText.plain {content : List Char} (h : ClassText content) : ∀ c∈content, Plain c := by
  intro c hin
  induction h with
  | nil => cases hin
  | hyphen =>
    rw [List.mem_singleton.mp hin]
    rfl
  | word hc hrest ih =>
    rcases List.mem_cons.mp hin with rfl | hin
    · exact kind_avoids hc rfl
    · exact ih hin
  | range hrange hrest ih =>
    obtain ⟨hitem,hlast,_⟩ := sameRange_word hrange
    rcases List.mem_cons.mp hin with rfl | hin
    · exact kind_avoids hitem rfl
    rcases List.mem_cons.mp hin with rfl | hin
    · rfl
    rcases List.mem_cons.mp hin with rfl | hin
    · exact kind_avoids hlast rfl
    · exact ih hin

/-- Characters of atoms and quantifiers are plain. -/
theorem Atoms.plain {body : List Char} (h : Atoms body) : ∀ c∈body, Plain c := by
  intro c hin
  induction h with
  | nil => cases hin
  | cons hatom hquantifier hrest ih =>
    rcases List.mem_append.mp hin with hin | hin
    · rcases List.mem_append.mp hin with hin | hin
      · cases hatom with
        | literal hc =>
          rw [List.mem_singleton.mp hin]
          exact kind_avoids hc rfl
        | set hne hcontent =>
          rcases List.mem_cons.mp hin with rfl | hin
          · rfl
          rcases List.mem_append.mp hin with hin | hin
          · exact hcontent.plain c hin
          · rw [List.mem_singleton.mp hin]
            rfl
      · cases hquantifier with
        | none => cases hin
        | one hc =>
          rw [List.mem_singleton.mp hin]
          exact kind_avoids hc rfl
    · exact ih hin

/-- The engine goes on behind one character. -/
theorem sreParse_literal {c : Char} (h : isLiteral c=true) (previous : SreItem) (rest : List Char) :
    sreParse previous (c::rest)=sreParse .single rest := by
  have hother : ['^','$','['].contains c=false := kind_avoids h rfl
  have hquantifier : ¬isQuantifier c=true := by
    rw [literal_not_quantifier h]
    decide
  have hanchor : ¬(c= '^' ∨ c= '$') := by
    rintro (rfl | rfl)
    · cases hother
    · cases hother
  have hclass : c≠ '[' := by
    rintro rfl
    cases hother
  rw [sreParse.eq_def]
  simp only
  rw [if_neg hanchor,if_neg hclass,if_neg hquantifier]

/-- The engine goes on behind a class. -/
theorem sreParse_class {content : List Char} (hne : content≠[]) (h : ClassText content) (previous : SreItem)
    (rest : List Char) : sreParse previous ('['::(content ++ ']'::rest))=sreParse .single rest := by
  have hnegation : dropNegation (content ++ ']'::rest)=content ++ ']'::rest := by
    cases content with
    | nil => exact absurd rfl hne
    | cons c content =>
      have hc : ¬(c== '^')=true := fun heq => h.head (congrArg some (eq_of_beq heq))
      have heq : dropNegation (c::content ++ ']'::rest)=
          if c== '^' then content ++ ']'::rest else c::content ++ ']'::rest := rfl
      rw [heq,if_neg hc]
  have hclass := sreClass_text h (Or.inl hne : content≠[] ∨ false=true) rest
  rw [sreParse.eq_def]
  simp only
  rw [if_neg (by decide),if_pos True.intro]
  split
  · rename_i message herror
    rw [hnegation,hclass] at herror
    cases herror
  · rename_i after hafter
    rw [hnegation,hclass] at hafter
    cases hafter
    rfl

/-- The engine goes on behind a quantifier of one atom. -/
theorem sreParse_quantifier {quantifier rest : List Char} (h : Quantifier quantifier)
    (hhead : ∀ c∈rest.head?, isQuantifier c=false) (hrest : ∀ previous, sreParse previous rest=.ok ()) :
    sreParse .single (quantifier ++ rest)=.ok () := by
  cases h with
  | none => exact hrest .single
  | @one c hc =>
    have hother : ['^','$','['].contains c=false := kind_avoids hc rfl
    have hanchor : ¬(c= '^' ∨ c= '$') := by
      rintro (rfl | rfl)
      · cases hother
      · cases hother
    have hclass : c≠ '[' := by
      rintro rfl
      cases hother
    have hmark : dropMark rest=rest := by
      cases rest with
      | nil => rfl
      | cons d rest =>
        have heq : dropMark (d::rest)=if d== '?' || d== '+' then rest else d::rest := rfl
        have hd : ¬(d== '?' || d== '+')=true := by
          rw [Bool.or_eq_true,beq_iff_eq,beq_iff_eq]
          rintro (rfl | rfl)
          · cases hhead _ rfl
          · cases hhead _ rfl
        rw [heq,if_neg hd]
    rw [List.singleton_append,sreParse.eq_def]
    simp only
    rw [if_neg hanchor,if_neg hclass,if_pos hc,hmark]
    exact hrest .repetition

/-- The engine compiles the patterns of the dialect. -/
theorem sreParse_atoms {body : List Char} (h : Atoms body) (previous : SreItem) :
    sreParse previous (body ++ ['$'])=.ok () := by
  induction h generalizing previous with
  | nil =>
    rw [List.nil_append,sreParse.eq_def]
    simp only
    rw [if_pos (Or.inr True.intro),sreParse.eq_def]
  | @cons atom quantifier rest hatom hquantifier hrest ih =>
    have hhead : ∀ c∈(rest ++ ['$']).head?, isQuantifier c=false := by
      intro c hc
      cases rest with
      | nil =>
        have hdollar : '$'=c := Option.some.inj hc
        rw [←hdollar]
        decide
      | cons d rest => exact hrest.head c hc
    have hbehind := sreParse_quantifier hquantifier hhead ih
    cases hatom with
    | @literal c hc =>
      rw [List.append_assoc,List.append_assoc,List.singleton_append,sreParse_literal hc]
      exact hbehind
    | @set content hne hcontent =>
      have htext : '['::(content ++ [']']) ++ quantifier ++ rest ++ ['$']=
          '['::(content ++ ']'::(quantifier ++ (rest ++ ['$']))) := by
        simp only [List.cons_append,List.append_assoc,List.nil_append]
      rw [htext,sreParse_class hne hcontent]
      exact hbehind

/-- The engine compiles what is in the dialect. -/
theorem Portable.compiled {pattern : List Char} (h : Portable pattern) (other : List Char → Except String Unit) :
    reCompile other pattern=.ok () := by
  obtain ⟨_,_,_,body,_,hatoms,rfl⟩ := h
  have hplain : ¬(('^'::(body ++ ['$'])).any (fun c => ['\\','(',')','\x7b','\x7d','|'].contains c))=true := by
    rw [List.any_eq_true]
    rintro ⟨c,hin,hc⟩
    have hc' : Plain c := by
      rcases List.mem_cons.mp hin with rfl | hin
      · rfl
      rcases List.mem_append.mp hin with hin | hin
      · exact hatoms.plain c hin
      · rw [List.mem_singleton.mp hin]
        rfl
    unfold Plain at hc'
    rw [hc'] at hc
    cases hc
  unfold reCompile
  rw [if_neg hplain,sreParse.eq_def]
  simp only
  rw [if_pos (Or.inl True.intro)]
  exact sreParse_atoms hatoms .anchor

/-- Text between its anchors. -/
theorem anchored_text {pattern : List Char} (hlength : 3 ≤ pattern.length) (hhead : pattern.head?=some '^')
    (hlast : pattern.getLast?=some '$') : pattern= '^'::((pattern.drop 1).dropLast ++ ['$']) := by
  cases pattern with
  | nil => cases hhead
  | cons c rest =>
    have hc : c= '^' := Option.some.inj hhead
    have hne : rest≠[] := by
      rintro rfl
      rw [List.length_singleton] at hlength
      omega
    rw [List.getLast?_cons_of_ne_nil hne] at hlast
    rw [hc,List.drop_one,List.tail_cons,List.dropLast_append_getLast? '$' hlast]

/-- A text is accepted and returned just where it is in the dialect, whatever the
engine does outside of its fragment, and is refused with an error otherwise; the
engine refuses nothing of the dialect. -/
theorem portable_iff (other : List Char → Except String Unit) (pattern : List Char) (label : String) :
    (validate_portable_parameter_pattern other pattern label=.ok pattern ↔ Portable pattern) ∧
    (¬Portable pattern → ∃ message, validate_portable_parameter_pattern other pattern label=.error (label ++ message)) ∧
    (Portable pattern → reCompile other pattern=.ok ()) := by
  have haccepted : Portable pattern → validate_portable_parameter_pattern other pattern label=.ok pattern := by
    intro h
    have hcompiled := h.compiled other
    obtain ⟨hascii,hlow,hhigh,body,hne,hatoms,rfl⟩ := h
    have hbody : (('^'::(body ++ ['$'])).drop 1).dropLast=body := by
      rw [List.drop_one,List.tail_cons,List.dropLast_concat]
    have hanchored : ('^'::(body ++ ['$'])).all (fun c => decide (c.toNat<128))=true ∧
        ('^'::(body ++ ['$'])).head?=some '^' ∧ ('^'::(body ++ ['$'])).getLast?=some '$' := by
      refine ⟨List.all_eq_true.mpr (fun c hc => decide_eq_true_iff.mpr (hascii c hc)),rfl,?_⟩
      rw [←List.cons_append,List.getLast?_concat]
    unfold validate_portable_parameter_pattern
    rw [if_neg (not_not.mpr ⟨hlow,hhigh⟩),if_neg (not_not.mpr hanchored)]
    simp only
    rw [hbody,if_neg hne,hatoms.scanned]
    simp only
    rw [hcompiled]
  have hrefused : ¬Portable pattern →
      ∃ message, validate_portable_parameter_pattern other pattern label=.error (label ++ message) := by
    intro h
    unfold validate_portable_parameter_pattern
    split
    · exact ⟨_,rfl⟩
    rename_i hlength
    split
    · exact ⟨_,rfl⟩
    rename_i hanchored
    simp only
    split
    · exact ⟨_,rfl⟩
    rename_i hne
    cases hscan : scanBody (pattern.drop 1).dropLast with
    | error message => exact ⟨_,rfl⟩
    | ok scanned =>
      exfalso
      rw [not_not] at hlength hanchored
      obtain ⟨hascii,hhead,hlast⟩ := hanchored
      refine h ⟨fun c hc => ?_,hlength.1,hlength.2,_,hne,scanBody_atoms hscan,anchored_text hlength.1 hhead hlast⟩
      exact decide_eq_true_iff.mp (List.all_eq_true.mp hascii c hc)
  refine ⟨⟨fun h => ?_,haccepted⟩,hrefused,fun h => h.compiled other⟩
  by_contra hnot
  obtain ⟨message,herror⟩ := hrefused hnot
  rw [herror] at h
  cases h

end Dialect

end Ros1Adapter.PortablePatterns
