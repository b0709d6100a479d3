import Mathlib.Data.List.Basic

/-!
# Regular expressions

Regular expressions with lookahead, the text that stands for one, and where it
matches: a matcher hands every position it can reach to a continuation.
-/

namespace Ros1Adapter.Regexes

section Expressions

/-- A regular expression. -/
inductive Regex where
  /-- Nothing. -/
  | empty
  /-- One character. -/
  | char (c : Char)
  /-- Any characters. -/
  | anyRun
  /-- One after the other. -/
  | seq (p q : Regex)
  /-- One or the other. -/
  | alt (p q : Regex)
  /-- At most once. -/
  | opt (p : Regex)
  /-- In parentheses. -/
  | group (p : Regex)
  /-- Not what follows. -/
  | notAhead (p : Regex)
  /-- Start of a line. -/
  | lineStart
  /-- End of a line. -/
  | lineEnd
  deriving DecidableEq

/-- Characters that a backslash makes literal. -/
def special (c : Char) : Bool :=
  ['(',')','[',']','\x7b','\x7d','?','*','+','-','|','^','$','\\','.','&','~','#',' ','\t','\n','\r','\x0b','\x0c'].contains c

/-- Text that stands for literal characters. -/
def escape (text : List Char) : List Char := text.flatMap (fun c => if special c then ['\\',c] else [c])

/-- Text of an expression. -/
def Regex.render : Regex → List Char
  | .empty => []
  | .char c => if special c then ['\\',c] else [c]
  | .anyRun => ['.','*']
  | .seq p q => p.render ++ q.render
  | .alt p q => p.render ++ '|'::q.render
  | .opt p => p.render ++ ['?']
  | .group p => '(':: '?':: ':'::(p.render ++ [')'])
  | .notAhead p => '(':: '?':: '!'::(p.render ++ [')'])
  | .lineStart => ['^']
  | .lineEnd => ['$']

/-- Literal characters. -/
def word : List Char → Regex
  | [] => .empty
  | c::rest => .seq (.char c) (word rest)

/-- One of some expressions. -/
def oneOf : List Regex → Regex
  | [] => .empty
  | [p] => p
  | p::q::rest => .alt p (oneOf (q::rest))

/-- Texts with a bar between them. -/
def bars : List (List Char) → List Char
  | [] => []
  | [text] => text
  | text::next::rest => text ++ '|'::bars (next::rest)

/-- The text of literal characters is escaped. -/
theorem word_render (text : List Char) : (word text).render=escape text := by
  induction text with
  | nil => rfl
  | cons c rest ih =>
    unfold word escape
    rw [Regex.render,Regex.render,ih,List.flatMap_cons]
    rfl

/-- The texts of alternatives stand between bars. -/
theorem oneOf_render (ps : List Regex) : (oneOf ps).render=bars (ps.map Regex.render) := by
  induction ps with
  | nil => rfl
  | cons p rest ih =>
    cases rest with
    | nil => rfl
    | cons q rest =>
      unfold oneOf
      rw [Regex.render,ih]
      rfl

end Expressions

section Matching

/-- Try every position behind any characters. -/
def anyTails (k : Option Char → List Char → Bool) : Option Char → List Char → Bool
  | before,[] => k before []
  | before,c::rest => k before (c::rest) || anyTails k (some c) rest

/-- Match from a position, given by the character before it and the characters
behind it. -/
def Regex.run : Regex → Option Char → List Char → (Option Char → List Char → Bool) → Bool
  | .empty,before,rest,k => k before rest
  | .char c,_,rest,k =>
    match rest with
    | [] => false
    | d::rest => d==c && k (some d) rest
  | .anyRun,before,rest,k => anyTails k before rest
  | .seq p q,before,rest,k => p.run before rest (fun before rest => q.run before rest k)
  | .alt p q,before,rest,k => p.run before rest k || q.run before rest k
  | .opt p,before,rest,k => p.run before rest k || k before rest
  | .group p,before,rest,k => p.run before rest k
  | .notAhead p,before,rest,k => !p.run before rest (fun _ _ => true) && k before rest
  | .lineStart,before,rest,k => (before==none || before==some '\n') && k before rest
  | .lineEnd,before,rest,k => (rest==[] || rest.head?==some '\n') && k before rest

/-- Whether an expression matches a text as a whole. -/
def Regex.matchesWhole (p : Regex) (text : List Char) : Bool := p.run none text (fun _ rest => rest.isEmpty)

/-- Last character of a text behind a character. -/
def lastChar (before : Option Char) (text : List Char) : Option Char := text.foldl (fun _ c => some c) before

/-- Literal characters match where they stand. -/
theorem word_run (text : List Char) (before : Option Char) (rest : List Char) (k : Option Char → List Char → Bool) :
    (word text).run before rest k=true ↔ ∃ tail, rest=text ++ tail ∧ k (lastChar before text) tail=true := by
  induction text generalizing before rest with
  | nil =>
    constructor
    · exact fun h => ⟨rest,rfl,h⟩
    · rintro ⟨tail,rfl,h⟩
      exact h
  | cons c text ih =>
    unfold word
    rw [Regex.run]
    cases rest with
    | nil =>
      constructor
      · intro h
        cases h
      · rintro ⟨tail,h,_⟩
        cases h
    | cons d rest =>
      rw [Regex.run]
      simp only [Bool.and_eq_true,beq_iff_eq,ih,List.cons_append,List.cons.injEq]
      constructor
      · rintro ⟨rfl,tail,hrest,htail⟩
        exact ⟨tail,⟨rfl,hrest⟩,htail⟩
      · rintro ⟨tail,⟨rfl,hrest⟩,htail⟩
        exact ⟨rfl,tail,hrest,htail⟩

/-- Alternatives match where one of them does. -/
theorem oneOf_run {ps : List Regex} (hne : ps≠[]) (before : Option Char) (rest : List Char)
    (k : Option Char → List Char → Bool) : (oneOf ps).run before rest k=true ↔ ∃ p∈ps, p.run before rest k=true := by
  induction ps with
  | nil => exact absurd rfl hne
  | cons p others ih =>
    cases others with
    | nil =>
      constructor
      · exact fun h => ⟨p,List.mem_singleton_self p,h⟩
      · rintro ⟨q,hq,h⟩
        rw [List.mem_singleton.mp hq] at h
        exact h
    | cons q others =>
      unfold oneOf
      rw [Regex.run,Bool.or_eq_true,ih (List.cons_ne_nil q others)]
      constructor
      · rintro (h | ⟨x,hx,h⟩)
        · exact ⟨p,List.mem_cons_self,h⟩
        · exact ⟨x,List.mem_cons_of_mem p hx,h⟩
      · rintro ⟨x,hx,h⟩
        rcases List.mem_cons.mp hx with rfl | hx
        · exact Or.inl h
        · exact Or.inr ⟨x,hx,h⟩

/-- Any characters reach every tail. -/
theorem anyTails_of_nil {k : Option Char → List Char → Bool} (rest : List Char) (hk : ∀ before, k before []=true)
    (before : Option Char) : anyTails k before rest=true := by
  induction rest generalizing before with
  | nil => exact hk before
  | cons c rest ih =>
    unfold anyTails
    rw [ih,Bool.or_true]

end Matching

end Ros1Adapter.Regexes
