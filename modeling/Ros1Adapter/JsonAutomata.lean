import Mathlib.Tactic.Common
import Mathlib.Data.List.Basic

/-!
# Tokens, trees and the automaton of JSON

A JSON value is a tree, and its text is a list of tokens. The automaton reads
tokens from left to right and reports a value as soon as its token is read; it
stops at the first token that cannot continue a JSON text. It accepts the
tokens of every tree, so a tree is determined by its tokens and no two scalars
of a JSON text are adjacent.
-/

namespace Ros1Adapter.JsonAutomata

/-- Tokens of JSON; numbers keep their spelling. -/
inductive Token where
  | openArray
  | closeArray
  | openObject
  | closeObject
  | comma
  | colon
  | text (value : String)
  | number (spelled : List Char)
  /-- `null`, or a boolean. -/
  | literal (value : Option Bool)
  deriving DecidableEq

/-- JSON values; numbers keep their spelling. -/
inductive Tree where
  | text (value : String)
  | number (spelled : List Char)
  | literal (value : Option Bool)
  | array (items : List Tree)
  | object (members : List (String × Tree))

/-- What a reader reports. -/
inductive Event where
  | arrayStart
  | arrayEnd
  | objectStart
  | objectEnd
  | key (name : String)
  | number (spelled : List Char)
  /-- A string, a boolean or null. -/
  | scalar
  deriving DecidableEq

section Trees

mutual
/-- Tokens of a value. -/
def Tree.tokens : Tree → List Token
  | .text value => [.text value]
  | .number spelled => [.number spelled]
  | .literal value => [.literal value]
  | .array items => .openArray :: itemTokens true items
  | .object members => .openObject :: memberTokens true members

/-- Tokens of elements with the closing bracket; a comma stands before all but the first. -/
def itemTokens (first : Bool) : List Tree → List Token
  | [] => [.closeArray]
  | item::rest => (if first then [] else [.comma]) ++ (item.tokens ++ itemTokens false rest)

/-- Tokens of members with the closing brace. -/
def memberTokens (first : Bool) : List (String × Tree) → List Token
  | [] => [.closeObject]
  | (name,value)::rest =>
    (if first then [] else [.comma]) ++ (.text name :: .colon :: (value.tokens ++ memberTokens false rest))
end

mutual
/-- Events of a value in input order. -/
def Tree.events : Tree → List Event
  | .text _ => [.scalar]
  | .number spelled => [.number spelled]
  | .literal _ => [.scalar]
  | .array items => .arrayStart :: itemEvents items
  | .object members => .objectStart :: memberEvents members

/-- Events of elements and of the end of their array. -/
def itemEvents : List Tree → List Event
  | [] => [.arrayEnd]
  | item::rest => item.events ++ itemEvents rest

/-- Events of members and of the end of their object. -/
def memberEvents : List (String × Tree) → List Event
  | [] => [.objectEnd]
  | (name,value)::rest => .key name :: (value.events ++ memberEvents rest)
end

mutual
/-- Numbers of a value in input order. -/
def Tree.numbers : Tree → List (List Char)
  | .text _ => []
  | .number spelled => [spelled]
  | .literal _ => []
  | .array items => itemNumbers items
  | .object members => memberNumbers members

/-- Numbers of elements. -/
def itemNumbers : List Tree → List (List Char)
  | [] => []
  | item::rest => item.numbers ++ itemNumbers rest

/-- Numbers of members. -/
def memberNumbers : List (String × Tree) → List (List Char)
  | [] => []
  | (_,value)::rest => value.numbers ++ memberNumbers rest
end

mutual
/-- The value with every number spelled anew. -/
def Tree.respelled (f : List Char → List Char) : Tree → Tree
  | .text value => .text value
  | .number spelled => .number (f spelled)
  | .literal value => .literal value
  | .array items => .array (itemsRespelled f items)
  | .object members => .object (membersRespelled f members)

/-- Elements with every number spelled anew. -/
def itemsRespelled (f : List Char → List Char) : List Tree → List Tree
  | [] => []
  | item::rest => item.respelled f :: itemsRespelled f rest

/-- Members with every number spelled anew. -/
def membersRespelled (f : List Char → List Char) : List (String × Tree) → List (String × Tree)
  | [] => []
  | (name,value)::rest => (name,value.respelled f) :: membersRespelled f rest
end

mutual
/-- No object repeats a key. -/
def Tree.Distinct : Tree → Prop
  | .text _ => True
  | .number _ => True
  | .literal _ => True
  | .array items => ItemsDistinct items
  | .object members => (members.map Prod.fst).Nodup ∧ MembersDistinct members

/-- No object in an element repeats a key. -/
def ItemsDistinct : List Tree → Prop
  | [] => True
  | item::rest => item.Distinct ∧ ItemsDistinct rest

/-- No object in a member repeats a key. -/
def MembersDistinct : List (String × Tree) → Prop
  | [] => True
  | (_,value)::rest => value.Distinct ∧ MembersDistinct rest
end

end Trees

section Automaton

/-- What may come next. -/
inductive Mode where
  /-- A value. -/
  | value
  /-- An element, or the end of an empty array. -/
  | item
  /-- A key, or the end of an empty object. -/
  | field
  /-- A key. -/
  | name
  /-- The colon behind a key. -/
  | mark
  /-- What follows a value. -/
  | after
  deriving DecidableEq

/-- State of the reader. -/
structure State where
  /-- What may come next. -/
  mode : Mode
  /-- Open containers, the innermost first; objects are true. -/
  stack : List Bool
  deriving DecidableEq

/-- Before the first token. -/
def State.start : State := ⟨.value,[]⟩

/-- A value may come next. -/
def State.Awaits (state : State) : Prop := state.mode=.value ∨ state.mode=.item

/-- Read the first token of a value. -/
def readValue (stack : List Bool) : Token → Option (State × List Event)
  | .openArray => some (⟨.item,false::stack⟩,[.arrayStart])
  | .openObject => some (⟨.field,true::stack⟩,[.objectStart])
  | .text _ => some (⟨.after,stack⟩,[.scalar])
  | .number spelled => some (⟨.after,stack⟩,[.number spelled])
  | .literal _ => some (⟨.after,stack⟩,[.scalar])
  | _ => none

/-- Read the end of the innermost container. -/
def readEnd (stack : List Bool) : Token → Option (State × List Event)
  | .closeArray => match stack with
    | false::rest => some (⟨.after,rest⟩,[.arrayEnd])
    | _ => none
  | .closeObject => match stack with
    | true::rest => some (⟨.after,rest⟩,[.objectEnd])
    | _ => none
  | _ => none

/-- Read a key. -/
def readName (stack : List Bool) : Token → Option (State × List Event)
  | .text name => some (⟨.mark,stack⟩,[.key name])
  | _ => none

/-- Read a comma inside a container. -/
def readComma (stack : List Bool) : Token → Option (State × List Event)
  | .comma => match stack with
    | false::_ => some (⟨.value,stack⟩,[])
    | true::_ => some (⟨.name,stack⟩,[])
    | [] => none
  | _ => none

/-- Read one token. -/
def State.read (state : State) (token : Token) : Option (State × List Event) :=
  match state.mode with
  | .value => readValue state.stack token
  | .item => readValue state.stack token <|> readEnd state.stack token
  | .field => readName state.stack token <|> readEnd state.stack token
  | .name => readName state.stack token
  | .mark => if token=.colon then some (⟨.value,state.stack⟩,[]) else none
  | .after => readComma state.stack token <|> readEnd state.stack token

/-- Events up to the first token that cannot come, and the state behind the last one. -/
def State.run (state : State) : List Token → List Event × Option State
  | [] => ([],some state)
  | token::rest =>
    match state.read token with
    | none => ([],none)
    | some (next,events) =>
      let more := next.run rest
      (events ++ more.1,more.2)

/-- Events in front of a run. -/
def before (events : List Event) (result : List Event × Option State) : List Event × Option State :=
  (events ++ result.1,result.2)

/-- Events before events. -/
@[simp] theorem before_before (first second : List Event) (result : List Event × Option State) :
    before first (before second result)=before (first ++ second) result := by
  unfold before
  rw [List.append_assoc]

/-- No events. -/
@[simp] theorem before_nil (result : List Event × Option State) : before [] result=result := rfl

/-- A token that is read. -/
theorem run_read {state next : State} {token : Token} {events : List Event} (h : state.read token=some (next,events))
    (rest : List Token) : state.run (token::rest)=before events (next.run rest) := by
  conv_lhs => unfold State.run
  rw [h]
  rfl

/-- A token that cannot come. -/
theorem run_rejected {state : State} {token : Token} (h : state.read token=none) (rest : List Token) :
    state.run (token::rest)=([],none) := by
  unfold State.run
  rw [h]

/-- A run goes on behind tokens that are read. -/
theorem run_append {state next : State} {tokens : List Token} {events : List Event}
    (h : state.run tokens=(events,some next)) (rest : List Token) :
    state.run (tokens ++ rest)=before events (next.run rest) := by
  induction tokens generalizing state events with
  | nil =>
    cases h
    rfl
  | cons token tokens ih =>
    cases hread : state.read token with
    | none =>
      rw [run_rejected hread] at h
      cases h
    | some result =>
      obtain ⟨middle,first⟩ := result
      rw [run_read hread] at h
      rw [List.cons_append,run_read hread]
      cases hrun : middle.run tokens with
      | mk more last =>
        rw [hrun] at h
        unfold before at h
        obtain ⟨rfl,rfl⟩ := Prod.mk.inj h
        rw [ih hrun,before_before]

end Automaton

section Acceptance

/-- What may come next in an array, before the first element or behind one. -/
def Mode.items : Bool → Mode
  | true => .item
  | false => .after

/-- What may come next in an object, before the first member or behind one. -/
def Mode.members : Bool → Mode
  | true => .field
  | false => .after

mutual
/-- The automaton reads the tokens of a value where a value may come. -/
theorem run_tree (tree : Tree) {state : State} (h : state.Awaits) (rest : List Token) :
    state.run (tree.tokens ++ rest)=before tree.events ((State.mk .after state.stack).run rest) := by
  have hread : ∀ {token result}, readValue state.stack token=some result → state.read token=some result := by
    intro token result hr
    unfold State.read
    rcases h with h | h
    · rw [h]
      exact hr
    · rw [h]
      dsimp only
      rw [hr]
      rfl
  cases tree with
  | text _ | number _ | literal _ => exact run_read (hread rfl) rest
  | array items =>
    have hitems := run_items items true state.stack rest
    unfold Mode.items at hitems
    unfold Tree.tokens Tree.events
    rw [List.cons_append,run_read (hread rfl),hitems]
    exact before_before _ _ _
  | object members =>
    have hmembers := run_members members true state.stack rest
    unfold Mode.members at hmembers
    unfold Tree.tokens Tree.events
    rw [List.cons_append,run_read (hread rfl),hmembers]
    exact before_before _ _ _

/-- The automaton reads elements and the end of their array. -/
theorem run_items (items : List Tree) (first : Bool) (stack : List Bool) (rest : List Token) :
    (State.mk (.items first) (false::stack)).run (itemTokens first items ++ rest)=
      before (itemEvents items) ((State.mk .after stack).run rest) := by
  cases items with
  | nil =>
    have hread : (State.mk (.items first) (false::stack)).read .closeArray=some (⟨.after,stack⟩,[.arrayEnd]) := by
      cases first <;> rfl
    exact run_read hread rest
  | cons item items =>
    have hrest := run_items items false stack rest
    unfold itemTokens itemEvents
    cases first with
    | true =>
      have hitem := @run_tree item ⟨.item,false::stack⟩ (Or.inr rfl) (itemTokens false items ++ rest)
      rw [if_pos rfl,List.nil_append,List.append_assoc]
      exact hitem.trans (by rw [←before_before]; exact congrArg _ hrest)
    | false =>
      have hitem := @run_tree item ⟨.value,false::stack⟩ (Or.inl rfl) (itemTokens false items ++ rest)
      have hcomma : (State.mk (.items false) (false::stack)).read .comma=some (⟨.value,false::stack⟩,[]) := rfl
      rw [if_neg Bool.false_ne_true,List.singleton_append,List.cons_append,run_read hcomma,List.append_assoc,
        before_nil]
      exact hitem.trans (by rw [←before_before]; exact congrArg _ hrest)

/-- The automaton reads members and the end of their object. -/
theorem run_members (members : List (String × Tree)) (first : Bool) (stack : List Bool) (rest : List Token) :
    (State.mk (.members first) (true::stack)).run (memberTokens first members ++ rest)=
      before (memberEvents members) ((State.mk .after stack).run rest) := by
  cases members with
  | nil =>
    have hread : (State.mk (.members first) (true::stack)).read .closeObject=some (⟨.after,stack⟩,[.objectEnd]) := by
      cases first <;> rfl
    exact run_read hread rest
  | cons member members =>
    obtain ⟨name,value⟩ := member
    have hrest := run_members members false stack rest
    have hvalue := @run_tree value ⟨.value,true::stack⟩ (Or.inl rfl) (memberTokens false members ++ rest)
    have hcolon : (State.mk .mark (true::stack)).read .colon=some (⟨.value,true::stack⟩,[]) := rfl
    have hmember : before [.key name] ((State.mk .mark (true::stack)).run
        (.colon :: (value.tokens ++ memberTokens false members) ++ rest))=
        before (.key name :: (value.events ++ memberEvents members)) ((State.mk .after stack).run rest) := by
      rw [List.cons_append,run_read hcolon,List.append_assoc,before_nil,hvalue]
      exact (congrArg (fun result => before [.key name] (before value.events result)) hrest).trans
        (by rw [before_before,before_before]; rfl)
    unfold memberTokens memberEvents
    cases first with
    | true =>
      have hname : (State.mk (.members true) (true::stack)).read (.text name)=some (⟨.mark,true::stack⟩,[.key name]) :=
        rfl
      rw [if_pos rfl,List.nil_append,List.cons_append,run_read hname]
      exact hmember
    | false =>
      have hcomma : (State.mk (.members false) (true::stack)).read .comma=some (⟨.name,true::stack⟩,[]) := rfl
      have hname : (State.mk .name (true::stack)).read (.text name)=some (⟨.mark,true::stack⟩,[.key name]) := rfl
      rw [if_neg Bool.false_ne_true,List.singleton_append,List.cons_append,run_read hcomma,List.cons_append,
        run_read hname,before_nil]
      exact hmember
end

end Acceptance

section Uniqueness

mutual
/-- Tokens of a value end where the value does. -/
theorem tokens_split (tree other : Tree) {rest more : List Token} (h : tree.tokens ++ rest=other.tokens ++ more) :
    tree=other ∧ rest=more := by
  cases tree with
  | text _ | number _ | literal _ =>
    cases other <;> unfold Tree.tokens at h <;> cases h
    exact ⟨rfl,rfl⟩
  | array items =>
    cases other with
    | array others =>
      unfold Tree.tokens at h
      obtain ⟨hitems,hrest⟩ := items_split items others true (List.cons.inj h).2
      exact ⟨congrArg Tree.array hitems,hrest⟩
    | text _ | number _ | literal _ | object _ => unfold Tree.tokens at h; cases h
  | object members =>
    cases other with
    | object others =>
      unfold Tree.tokens at h
      obtain ⟨hmembers,hrest⟩ := members_split members others true (List.cons.inj h).2
      exact ⟨congrArg Tree.object hmembers,hrest⟩
    | text _ | number _ | literal _ | array _ => unfold Tree.tokens at h; cases h

/-- Tokens of elements end where their array does. -/
theorem items_split (items others : List Tree) (first : Bool) {rest more : List Token}
    (h : itemTokens first items ++ rest=itemTokens first others ++ more) : items=others ∧ rest=more := by
  have hhead : ∀ tree : Tree, ∀ tokens more : List Token, tree.tokens ++ tokens≠.closeArray::more := by
    intro tree tokens more heq
    cases tree <;> unfold Tree.tokens at heq <;> cases heq
  cases items with
  | nil =>
    cases others with
    | nil =>
      unfold itemTokens at h
      exact ⟨rfl,(List.cons.inj h).2⟩
    | cons other others =>
      unfold itemTokens at h
      cases first with
      | true =>
        rw [if_pos rfl,List.nil_append,List.append_assoc] at h
        exact absurd h.symm (hhead other _ _)
      | false => cases h
  | cons item items =>
    cases others with
    | nil =>
      unfold itemTokens at h
      cases first with
      | true =>
        rw [if_pos rfl,List.nil_append,List.append_assoc] at h
        exact absurd h (hhead item _ _)
      | false => cases h
    | cons other others =>
      unfold itemTokens at h
      rw [List.append_assoc,List.append_assoc,List.append_assoc,List.append_assoc] at h
      obtain ⟨hitem,hitems⟩ := tokens_split item other (List.append_cancel_left h)
      obtain ⟨hitems,hrest⟩ := items_split items others false hitems
      rw [hitem,hitems]
      exact ⟨rfl,hrest⟩

/-- Tokens of members end where their object does. -/
theorem members_split (members others : List (String × Tree)) (first : Bool) {rest more : List Token}
    (h : memberTokens first members ++ rest=memberTokens first others ++ more) : members=others ∧ rest=more := by
  cases members with
  | nil =>
    cases others with
    | nil =>
      unfold memberTokens at h
      exact ⟨rfl,(List.cons.inj h).2⟩
    | cons other others =>
      unfold memberTokens at h
      cases first <;> cases h
  | cons member members =>
    cases others with
    | nil =>
      unfold memberTokens at h
      cases first <;> cases h
    | cons other others =>
      obtain ⟨name,value⟩ := member
      obtain ⟨otherName,otherValue⟩ := other
      unfold memberTokens at h
      rw [List.append_assoc,List.append_assoc] at h
      have htail := List.append_cancel_left h
      rw [List.cons_append,List.cons_append,List.cons_append,List.cons_append,List.append_assoc,
        List.append_assoc] at htail
      obtain ⟨hname,htail⟩ := List.cons.inj htail
      obtain ⟨hvalue,hmembers⟩ := tokens_split value otherValue (List.cons.inj htail).2
      obtain ⟨hmembers,hrest⟩ := members_split members others false hmembers
      rw [Token.text.inj hname,hvalue,hmembers]
      exact ⟨rfl,hrest⟩
end

end Uniqueness

section Respelling

variable (f : List Char → List Char)

/-- A token with its number spelled anew. -/
def Token.respelled : Token → Token
  | .number spelled => .number (f spelled)
  | token => token

/-- An event with its number spelled anew. -/
def Event.respelled : Event → Event
  | .number spelled => .number (f spelled)
  | event => event

mutual
/-- Tokens of a value spelled anew. -/
theorem respelled_tokens (tree : Tree) : (tree.respelled f).tokens=tree.tokens.map (Token.respelled f) := by
  cases tree with
  | text _ | number _ | literal _ => rfl
  | array items =>
    unfold Tree.respelled Tree.tokens
    rw [List.map_cons,←respelled_itemTokens items true]
    rfl
  | object members =>
    unfold Tree.respelled Tree.tokens
    rw [List.map_cons,←respelled_memberTokens members true]
    rfl

/-- Tokens of elements spelled anew. -/
theorem respelled_itemTokens (items : List Tree) (first : Bool) :
    itemTokens first (itemsRespelled f items)=(itemTokens first items).map (Token.respelled f) := by
  cases items with
  | nil => rfl
  | cons item items =>
    unfold itemsRespelled itemTokens
    rw [List.map_append,List.map_append,←respelled_tokens item,←respelled_itemTokens items false]
    cases first <;> rfl

/-- Tokens of members spelled anew. -/
theorem respelled_memberTokens (members : List (String × Tree)) (first : Bool) :
    memberTokens first (membersRespelled f members)=(memberTokens first members).map (Token.respelled f) := by
  cases members with
  | nil => rfl
  | cons member members =>
    obtain ⟨name,value⟩ := member
    unfold membersRespelled memberTokens
    rw [List.map_append,List.map_cons,List.map_cons,List.map_append,←respelled_tokens value,
      ←respelled_memberTokens members false]
    cases first <;> rfl
end

/-- A comma is one however it is spelled. -/
theorem comma_lift {first : Bool} {tokens : List Token}
    (h : tokens.map (Token.respelled f)=if first then [] else [.comma]) :
    tokens=if first then [] else [.comma] := by
  cases first with
  | true => exact List.map_eq_nil_iff.mp h
  | false =>
    obtain ⟨token,more,rfl,htoken,hmore⟩ := List.map_eq_cons_iff.mp h
    rw [List.map_eq_nil_iff.mp hmore]
    cases token <;> cases htoken
    rfl

mutual
/-- Tokens that are the ones of a value once they are spelled anew are the ones of a value. -/
theorem tokens_lift (other : Tree) {tokens rest : List Token}
    (h : tokens.map (Token.respelled f)=other.tokens ++ rest) :
    ∃ (tree : Tree) (more : List Token), tokens=tree.tokens ++ more ∧ tree.respelled f=other ∧
      more.map (Token.respelled f)=rest := by
  cases other with
  | text value =>
    unfold Tree.tokens at h
    obtain ⟨token,more,rfl,htoken,hmore⟩ := List.map_eq_cons_iff.mp h
    cases token <;> cases htoken
    exact ⟨.text value,more,rfl,rfl,hmore⟩
  | number spelled =>
    unfold Tree.tokens at h
    obtain ⟨token,more,rfl,htoken,hmore⟩ := List.map_eq_cons_iff.mp h
    cases token <;> cases htoken
    rename_i original
    exact ⟨.number original,more,rfl,rfl,hmore⟩
  | literal value =>
    unfold Tree.tokens at h
    obtain ⟨token,more,rfl,htoken,hmore⟩ := List.map_eq_cons_iff.mp h
    cases token <;> cases htoken
    exact ⟨.literal value,more,rfl,rfl,hmore⟩
  | array others =>
    unfold Tree.tokens at h
    obtain ⟨token,tail,rfl,htoken,htail⟩ := List.map_eq_cons_iff.mp h
    cases token <;> cases htoken
    obtain ⟨items,more,rfl,hitems,hmore⟩ := items_lift others true htail
    exact ⟨.array items,more,rfl,congrArg Tree.array hitems,hmore⟩
  | object others =>
    unfold Tree.tokens at h
    obtain ⟨token,tail,rfl,htoken,htail⟩ := List.map_eq_cons_iff.mp h
    cases token <;> cases htoken
    obtain ⟨members,more,rfl,hmembers,hmore⟩ := members_lift others true htail
    exact ⟨.object members,more,rfl,congrArg Tree.object hmembers,hmore⟩

/-- The same for elements. -/
theorem items_lift (others : List Tree) (first : Bool) {tokens rest : List Token}
    (h : tokens.map (Token.respelled f)=itemTokens first others ++ rest) :
    ∃ items more, tokens=itemTokens first items ++ more ∧ itemsRespelled f items=others ∧
      more.map (Token.respelled f)=rest := by
  cases others with
  | nil =>
    unfold itemTokens at h
    obtain ⟨token,more,rfl,htoken,hmore⟩ := List.map_eq_cons_iff.mp h
    cases token <;> cases htoken
    exact ⟨[],more,rfl,rfl,hmore⟩
  | cons other others =>
    unfold itemTokens at h
    rw [List.append_assoc,List.append_assoc] at h
    obtain ⟨comma,tail,rfl,hcomma,htail⟩ := List.map_eq_append_iff.mp h
    obtain ⟨item,middle,rfl,hitem,hmiddle⟩ := tokens_lift other htail
    obtain ⟨items,more,rfl,hitems,hmore⟩ := items_lift others false hmiddle
    refine ⟨item::items,more,?_,?_,hmore⟩
    · have hfirst := comma_lift f hcomma
      rw [itemTokens,hfirst,List.append_assoc,List.append_assoc]
    · unfold itemsRespelled
      rw [hitem,hitems]

/-- The same for members. -/
theorem members_lift (others : List (String × Tree)) (first : Bool) {tokens rest : List Token}
    (h : tokens.map (Token.respelled f)=memberTokens first others ++ rest) :
    ∃ members more, tokens=memberTokens first members ++ more ∧ membersRespelled f members=others ∧
      more.map (Token.respelled f)=rest := by
  cases others with
  | nil =>
    unfold memberTokens at h
    obtain ⟨token,more,rfl,htoken,hmore⟩ := List.map_eq_cons_iff.mp h
    cases token <;> cases htoken
    exact ⟨[],more,rfl,rfl,hmore⟩
  | cons other others =>
    obtain ⟨name,otherValue⟩ := other
    unfold memberTokens at h
    rw [List.append_assoc,List.cons_append,List.cons_append,List.append_assoc] at h
    obtain ⟨comma,tail,rfl,hcomma,htail⟩ := List.map_eq_append_iff.mp h
    obtain ⟨nameToken,tail,rfl,hname,htail⟩ := List.map_eq_cons_iff.mp htail
    obtain ⟨colonToken,tail,rfl,hcolon,hvalueTail⟩ := List.map_eq_cons_iff.mp htail
    cases nameToken <;> cases hname
    cases colonToken <;> cases hcolon
    obtain ⟨value,middle,rfl,hvalue,hmiddle⟩ := tokens_lift otherValue hvalueTail
    obtain ⟨members,more,rfl,hmembers,hmore⟩ := members_lift others false hmiddle
    refine ⟨(name,value)::members,more,?_,?_,hmore⟩
    · have hfirst := comma_lift f hcomma
      rw [memberTokens,hfirst,List.append_assoc,List.cons_append,List.cons_append,List.append_assoc]
    · unfold membersRespelled
      rw [hvalue,hmembers]
end

end Respelling

section Numbers

/-- Numbers among events. -/
def reportedNumbers (events : List Event) : List (List Char) :=
  events.filterMap (fun | .number spelled => some spelled | _ => none)

/-- Numbers among events in two parts. -/
theorem reportedNumbers_append (first second : List Event) :
    reportedNumbers (first ++ second)=reportedNumbers first ++ reportedNumbers second := List.filterMap_append

mutual
/-- Events of a value report its numbers. -/
theorem events_numbers (tree : Tree) : reportedNumbers tree.events=tree.numbers := by
  cases tree with
  | text _ | number _ | literal _ => rfl
  | array items => exact itemEvents_numbers items
  | object members => exact memberEvents_numbers members

/-- Events of elements report their numbers. -/
theorem itemEvents_numbers (items : List Tree) : reportedNumbers (itemEvents items)=itemNumbers items := by
  cases items with
  | nil => rfl
  | cons item items =>
    unfold itemEvents itemNumbers
    rw [reportedNumbers_append,events_numbers item,itemEvents_numbers items]

/-- Events of members report their numbers. -/
theorem memberEvents_numbers (members : List (String × Tree)) :
    reportedNumbers (memberEvents members)=memberNumbers members := by
  cases members with
  | nil => rfl
  | cons member members =>
    obtain ⟨name,value⟩ := member
    have hvalue := reportedNumbers_append value.events (memberEvents members)
    rw [events_numbers value,memberEvents_numbers members] at hvalue
    exact hvalue
end

end Numbers

section Keys

/-- No key is reported twice for one open object. -/
def KeysApart : List (List String) → List Event → Prop
  | _,[] => True
  | opened,event::rest =>
    match event with
    | .objectStart => KeysApart ([]::opened) rest
    | .objectEnd => KeysApart opened.tail rest
    | .key name =>
      match opened with
      | [] => KeysApart [] rest
      | names::outer => name∉names ∧ KeysApart ((name::names)::outer) rest
    | _ => KeysApart opened rest

/-- An object starts without keys. -/
theorem keysApart_start (opened : List (List String)) (rest : List Event) :
    KeysApart opened (.objectStart::rest) ↔ KeysApart ([]::opened) rest := Iff.rfl

/-- A key is none of those before it in its object. -/
theorem keysApart_key (name : String) (names : List String) (opened : List (List String)) (rest : List Event) :
    KeysApart (names::opened) (.key name::rest) ↔ name∉names ∧ KeysApart ((name::names)::opened) rest := Iff.rfl

mutual
/-- The keys that a value reports are apart if no object in it repeats one. -/
theorem keysApart_tree (tree : Tree) (opened : List (List String)) (rest : List Event) :
    KeysApart opened (tree.events ++ rest) ↔ tree.Distinct ∧ KeysApart opened rest := by
  cases tree with
  | text _ | number _ | literal _ => exact (iff_of_eq (true_and _)).symm
  | array items => exact keysApart_items items opened rest
  | object members =>
    have hmembers := keysApart_members members [] opened rest
    unfold Tree.events Tree.Distinct
    rw [List.cons_append,keysApart_start,hmembers]
    simp [and_assoc]

/-- The same for elements. -/
theorem keysApart_items (items : List Tree) (opened : List (List String)) (rest : List Event) :
    KeysApart opened (itemEvents items ++ rest) ↔ ItemsDistinct items ∧ KeysApart opened rest := by
  cases items with
  | nil => exact (iff_of_eq (true_and _)).symm
  | cons item items =>
    unfold itemEvents ItemsDistinct
    rw [List.append_assoc,keysApart_tree item,keysApart_items items,and_assoc]

/-- The same for members, beside the keys that their object has had. -/
theorem keysApart_members (members : List (String × Tree)) (names : List String) (opened : List (List String))
    (rest : List Event) :
    KeysApart (names::opened) (memberEvents members ++ rest) ↔
      (members.map Prod.fst).Nodup ∧ (∀ name∈members.map Prod.fst, name∉names) ∧ MembersDistinct members ∧
        KeysApart opened rest := by
  cases members with
  | nil =>
    unfold memberEvents MembersDistinct
    simp [KeysApart]
  | cons member members =>
    obtain ⟨name,value⟩ := member
    have hrest := keysApart_members members (name::names) opened rest
    unfold memberEvents MembersDistinct
    rw [List.cons_append,List.append_assoc,keysApart_key,keysApart_tree value,hrest,List.map_cons,List.nodup_cons,
      List.forall_mem_cons]
    constructor
    · rintro ⟨hname,hvalue,hnodup,hothers,hdistinct,hbehind⟩
      refine ⟨⟨?_,hnodup⟩,⟨hname,?_⟩,⟨hvalue,hdistinct⟩,hbehind⟩
      · intro hmem
        exact hothers name hmem List.mem_cons_self
      · intro other hmem hnames
        exact hothers other hmem (List.mem_cons_of_mem name hnames)
    · rintro ⟨⟨hfresh,hnodup⟩,⟨hname,hothers⟩,⟨hvalue,hdistinct⟩,hbehind⟩
      refine ⟨hname,hvalue,hnodup,?_,hdistinct,hbehind⟩
      intro other hmem hnames
      rcases List.mem_cons.mp hnames with rfl | hnames
      · exact hfresh hmem
      · exact hothers other hmem hnames
end

end Keys

end Ros1Adapter.JsonAutomata
