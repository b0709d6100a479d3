import Mathlib
import Ros1Adapter.ActionRules
import Ros1Adapter.SceneJsonText

/-!
# Fingerprints of requests

A fingerprint is the JSON text of a value with its members sorted at every
depth. Values with unique keys have equal fingerprints exactly when they have
the same content up to member order. The text of a value decides the value:
strings are quoted, numbers end at the next separator, and integers are spelled
apart from doubles.
-/

namespace Ros1Adapter.SceneFingerprint

open SceneJson SceneJsonText ActionRules

section Content

mutual
/-- Same content up to the order of members, at every depth. -/
def sameContent : Json → Json → Bool
  | .null,.null => true
  | .boolean a,.boolean b => decide (a=b)
  | .integer a,.integer b => decide (a=b)
  | .float a,.float b => decide (a=b)
  | .string a,.string b => decide (a=b)
  | .array a,.array b => sameContents a b
  | .object a,.object b => a.length==b.length && includesMembers a b
  | _,_ => false

/-- Same content element by element. -/
def sameContents : List Json → List Json → Bool
  | [],[] => true
  | a::as,b::bs => sameContent a b && sameContents as bs
  | _,_ => false

/-- Every member has a member of the same content under its key. -/
def includesMembers : List (String × Json) → List (String × Json) → Bool
  | [],_ => true
  | (key,value)::rest,other =>
    (match other.lookup key with
      | some found => sameContent value found
      | none => false) && includesMembers rest other
end

mutual
/-- Objects have unique keys, at every depth, as the object container keeps them. -/
def uniqueKeys : Json → Bool
  | .array items => uniqueItems items
  | .object members => decide (members.map Prod.fst).Nodup && uniqueMembers members
  | _ => true

/-- Unique keys in every element. -/
def uniqueItems : List Json → Bool
  | [] => true
  | item::rest => uniqueKeys item && uniqueItems rest

/-- Unique keys in every member value. -/
def uniqueMembers : List (String × Json) → Bool
  | [] => true
  | (_,value)::rest => uniqueKeys value && uniqueMembers rest
end

/-- Order of members by key. -/
def keyOrder (a b : String × Json) : Prop := a.1≤b.1

instance : DecidableRel keyOrder := fun a b => inferInstanceAs (Decidable (a.1≤b.1))

instance : Std.Total keyOrder := ⟨fun a b => le_total a.1 b.1⟩

instance : IsTrans (String × Json) keyOrder := ⟨fun _ _ _ h h' => le_trans h h'⟩

/-- A member with its value sorted. -/
def sortedMember (m : String × Json) : String × Json := (m.1,sortedFields m.2)

/-- Sorting the values of members keeps the members in order. -/
theorem sortedMembers_map (members : List (String × Json)) :
    sortedMembers members=members.map sortedMember := by
  induction members with
  | nil => rfl
  | cons m rest ih =>
    obtain ⟨key,value⟩ := m
    rw [sortedMembers,ih]
    rfl

/-- Keys survive the sort of the values. -/
theorem keys_sorted (members : List (String × Json)) :
    (members.map sortedMember).map Prod.fst=members.map Prod.fst := by
  rw [List.map_map]
  rfl

/-- A lookup finds a member of a list with unique keys exactly where it stands. -/
theorem lookup_of_mem {κ υ : Type} [BEq κ] [LawfulBEq κ] {members : List (κ × υ)}
    (hn : (members.map Prod.fst).Nodup) {m : κ × υ} (hm : m∈members) : members.lookup m.1=some m.2 := by
  induction members with
  | nil => simp at hm
  | cons first rest ih =>
    obtain ⟨key,value⟩ := first
    rw [List.map_cons,List.nodup_cons] at hn
    rw [List.lookup_cons]
    rcases List.mem_cons.mp hm with rfl | hrest
    · simp
    · have hne : (m.1==key)=false := by
        simp only [beq_eq_false_iff_ne]
        intro he
        exact hn.1 (List.mem_map.mpr ⟨m,hrest,he⟩)
      rw [hne]
      exact ih hn.2 hrest

/-- What a lookup finds is a member. -/
theorem mem_of_lookup {κ υ : Type} [BEq κ] [LawfulBEq κ] {members : List (κ × υ)} {key : κ} {value : υ}
    (h : members.lookup key=some value) : (key,value)∈members := by
  induction members with
  | nil => cases h
  | cons first rest ih =>
    obtain ⟨k,v⟩ := first
    rw [List.lookup_cons] at h
    cases hk : key==k with
    | true =>
      rw [hk] at h
      have hkey : key=k := by simpa using hk
      cases h
      rw [hkey]
      exact List.mem_cons_self ..
    | false =>
      rw [hk] at h
      exact List.mem_cons_of_mem _ (ih h)

/-- Permuted members with unique keys give the same lookups. -/
theorem lookup_perm {κ υ : Type} [BEq κ] [LawfulBEq κ] {first second : List (κ × υ)}
    (hn : (first.map Prod.fst).Nodup) (h : first.Perm second) (key : κ) :
    first.lookup key=second.lookup key := by
  have hs : (second.map Prod.fst).Nodup := (h.map Prod.fst).nodup_iff.mp hn
  cases hl : second.lookup key with
  | some value => exact lookup_of_mem hn (h.mem_iff.mpr (mem_of_lookup hl))
  | none =>
    cases hf : first.lookup key with
    | none => rfl
    | some value =>
      have hm := lookup_of_mem hs (h.mem_iff.mp (mem_of_lookup hf))
      rw [hl] at hm
      cases hm

/-- Members sorted by unique keys are equal exactly when they are permuted. -/
theorem insertionSort_eq_iff {first second : List (String × Json)}
    (hn : (first.map Prod.fst).Nodup) :
    first.insertionSort keyOrder=second.insertionSort keyOrder ↔ first.Perm second := by
  constructor
  · intro h
    have hf := (List.perm_insertionSort keyOrder first).symm
    rw [h] at hf
    exact hf.trans (List.perm_insertionSort keyOrder second)
  · intro h
    have hp : (first.insertionSort keyOrder).Perm (second.insertionSort keyOrder) :=
      ((List.perm_insertionSort keyOrder first).trans h).trans
        (List.perm_insertionSort keyOrder second).symm
    refine hp.eq_of_pairwise ?_ (List.pairwise_insertionSort keyOrder first)
      (List.pairwise_insertionSort keyOrder second)
    intro a b ha hb hab hba
    have ha' := (List.perm_insertionSort keyOrder first).mem_iff.mp ha
    have hb' := h.mem_iff.mpr ((List.perm_insertionSort keyOrder second).mem_iff.mp hb)
    have hkey : a.1=b.1 := le_antisymm hab hba
    have hla := lookup_of_mem hn ha'
    have hlb := lookup_of_mem hn hb'
    rw [hkey,hlb] at hla
    exact Prod.ext hkey (Option.some.inj hla).symm

/-- Permuted sorted members are as many, and each is found under its key. -/
theorem sorted_perm_iff {first second : List (String × Json)} (hf : (first.map Prod.fst).Nodup)
    (hs : (second.map Prod.fst).Nodup) :
    (first.map sortedMember).Perm (second.map sortedMember) ↔
      first.length=second.length ∧ ∀ m∈first, ∃ found, second.lookup m.1=some found ∧
        sortedFields m.2=sortedFields found := by
  constructor
  · intro h
    have hlen := h.length_eq
    rw [List.length_map,List.length_map] at hlen
    refine ⟨hlen,?_⟩
    intro m hm
    have hmem := h.mem_iff.mp (List.mem_map_of_mem hm)
    obtain ⟨n,hn,he⟩ := List.mem_map.mp hmem
    obtain ⟨hkey,hvalue⟩ := Prod.mk.inj he
    have hl := lookup_of_mem hs hn
    rw [hkey] at hl
    exact ⟨n.2,hl,hvalue.symm⟩
  · rintro ⟨hlen,hfound⟩
    have hnodup : (first.map sortedMember).Nodup := by
      refine List.Nodup.of_map Prod.fst ?_
      rw [keys_sorted]
      exact hf
    have hsub : first.map sortedMember⊆second.map sortedMember := by
      intro m hm
      obtain ⟨n,hn,rfl⟩ := List.mem_map.mp hm
      obtain ⟨found,hl,hv⟩ := hfound n hn
      refine List.mem_map.mpr ⟨(n.1,found),mem_of_lookup hl,?_⟩
      unfold sortedMember
      rw [hv]
    refine (List.subperm_of_subset hnodup hsub).perm_of_length_le ?_
    rw [List.length_map,List.length_map]
    exact hlen.ge

/-- Values under a key have unique keys themselves. -/
theorem uniqueMembers_lookup {members : List (String × Json)} (h : uniqueMembers members=true)
    {key : String} {found : Json} (hl : members.lookup key=some found) : uniqueKeys found=true := by
  induction members with
  | nil => cases hl
  | cons m rest ih =>
    obtain ⟨k,v⟩ := m
    simp only [uniqueMembers,Bool.and_eq_true] at h
    rw [List.lookup_cons] at hl
    cases hk : key==k with
    | true =>
      rw [hk] at hl
      cases hl
      exact h.1
    | false =>
      rw [hk] at hl
      exact ih h.2 hl

/-- Sorted objects are equal exactly when their sorted members are. -/
theorem sortedFields_object (members : List (String × Json)) :
    sortedFields (.object members)=.object ((members.map sortedMember).insertionSort keyOrder) := by
  rw [sortedFields,sortedMembers_map]
  rfl

mutual
/-- Sorted values are equal exactly when the values have the same content. -/
theorem sortedFields_eq_iff : ∀ a b : Json, uniqueKeys a=true → uniqueKeys b=true →
    (sortedFields a=sortedFields b ↔ sameContent a b=true)
  | .null,b,_,_ => by cases b <;> simp [sortedFields,sameContent]
  | .boolean _,b,_,_ => by cases b <;> simp [sortedFields,sameContent]
  | .integer _,b,_,_ => by cases b <;> simp [sortedFields,sameContent]
  | .float _,b,_,_ => by cases b <;> simp [sortedFields,sameContent]
  | .string _,b,_,_ => by cases b <;> simp [sortedFields,sameContent]
  | .array as,b,ha,hb => by
    cases b with
    | array bs =>
      rw [uniqueKeys] at ha hb
      simp only [sortedFields,sameContent,Json.array.injEq]
      exact sortedItems_eq_iff as bs ha hb
    | _ => simp [sortedFields,sameContent]
  | .object as,b,ha,hb => by
    cases b with
    | object bs =>
      simp only [uniqueKeys,Bool.and_eq_true,decide_eq_true_eq] at ha hb
      have hkeys : ((as.map sortedMember).map Prod.fst).Nodup := by
        rw [keys_sorted]
        exact ha.1
      rw [sortedFields_object,sortedFields_object,Json.object.injEq,insertionSort_eq_iff hkeys,
        sorted_perm_iff ha.1 hb.1,sameContent,Bool.and_eq_true,beq_iff_eq,
        includesMembers_iff as bs ha.2 hb.2]
    | _ => simp [sortedFields,sameContent]

/-- Sorted arrays are equal exactly when the arrays have the same content. -/
theorem sortedItems_eq_iff : ∀ as bs : List Json, uniqueItems as=true → uniqueItems bs=true →
    (sortedItems as=sortedItems bs ↔ sameContents as bs=true)
  | [],bs,_,_ => by cases bs <;> simp [sortedItems,sameContents]
  | a::as,bs,ha,hb => by
    cases bs with
    | nil => simp [sortedItems,sameContents]
    | cons b bs =>
      simp only [uniqueItems,Bool.and_eq_true] at ha hb
      simp only [sortedItems,sameContents,List.cons.injEq,Bool.and_eq_true]
      rw [sortedFields_eq_iff a b ha.1 hb.1,sortedItems_eq_iff as bs ha.2 hb.2]

/-- Included members have equal sorted values. -/
theorem includesMembers_iff : ∀ as bs : List (String × Json), uniqueMembers as=true →
    uniqueMembers bs=true →
    (includesMembers as bs=true ↔ ∀ m∈as, ∃ found, bs.lookup m.1=some found ∧
      sortedFields m.2=sortedFields found)
  | [],bs,_,_ => by simp [includesMembers]
  | (key,value)::as,bs,ha,hb => by
    simp only [uniqueMembers,Bool.and_eq_true] at ha
    rw [includesMembers,Bool.and_eq_true,includesMembers_iff as bs ha.2 hb,List.forall_mem_cons]
    refine and_congr_left' ?_
    cases hl : bs.lookup key with
    | none => simp
    | some found =>
      have hfound := uniqueMembers_lookup hb hl
      simp only [Option.some.injEq,exists_eq_left']
      exact (sortedFields_eq_iff value found ha.1 hfound).symm
end

/-- A lookup among members with sorted values sorts what it finds. -/
theorem lookup_sortedMember (members : List (String × Json)) (key : String) :
    (members.map sortedMember).lookup key=(members.lookup key).map sortedFields := by
  induction members with
  | nil => rfl
  | cons m rest ih =>
    obtain ⟨k,v⟩ := m
    rw [List.map_cons,List.lookup_cons,List.lookup_cons]
    dsimp only [sortedMember]
    cases key==k with
    | true => rfl
    | false => exact ih

/-- Sorting keeps every member under its key. -/
theorem member_sortedFields {value : Json} (h : uniqueKeys value=true) (key : String) :
    (sortedFields value).member key=(value.member key).map sortedFields := by
  cases value with
  | object members =>
    simp only [uniqueKeys,Bool.and_eq_true,decide_eq_true_eq] at h
    rw [sortedFields_object]
    have hkeys : ((members.map sortedMember).map Prod.fst).Nodup := by
      rw [keys_sorted]
      exact h.1
    have hp := List.perm_insertionSort keyOrder (members.map sortedMember)
    exact (lookup_perm hkeys hp.symm key).symm.trans (lookup_sortedMember members key)
  | _ => rfl

/-- Values of the same content have members of the same content. -/
theorem member_sameContent {a b : Json} (ha : uniqueKeys a=true) (hb : uniqueKeys b=true)
    (h : sameContent a b=true) (key : String) :
    (a.member key).map sortedFields=(b.member key).map sortedFields := by
  have hs := (sortedFields_eq_iff a b ha hb).mpr h
  rw [←member_sortedFields ha,←member_sortedFields hb,hs]

end Content

section Quoting

/-- Character behind a two-character escape. -/
def shortEscape (mark : Char) : Option Char :=
  if mark = '"' then some '"'
  else if mark = '\\' then some '\\'
  else if mark = 'b' then some (Char.ofNat 8)
  else if mark = 'f' then some (Char.ofNat 12)
  else if mark = 'n' then some '\n'
  else if mark = 'r' then some '\r'
  else if mark = 't' then some '\t'
  else none

/-- A character stands for itself, or for a short or a long escape. -/
theorem escapeCharacter_cases (c : Char) :
    (escapeCharacter c=[c] ∧ c ≠ '\\' ∧ c ≠ '"') ∨
      (∃ mark, escapeCharacter c=['\\',mark] ∧ mark ≠ 'u' ∧ shortEscape mark=some c) ∨
      (c.toNat<32 ∧ escapeCharacter c= '\\' :: 'u' :: hexText 4 c.toNat) := by
  have hof : ∀ n, c.toNat=n → c=Char.ofNat n := by
    rintro n rfl
    exact (Char.ofNat_toNat c).symm
  unfold escapeCharacter
  split_ifs with h1 h2 h3 h4 h5 h6 h7 h8
  · exact Or.inr (Or.inl ⟨_,rfl,by decide,by rw [h1]; decide⟩)
  · exact Or.inr (Or.inl ⟨_,rfl,by decide,by rw [h2]; decide⟩)
  · exact Or.inr (Or.inl ⟨_,rfl,by decide,by rw [hof 8 h3]; decide⟩)
  · exact Or.inr (Or.inl ⟨_,rfl,by decide,by rw [hof 12 h4]; decide⟩)
  · exact Or.inr (Or.inl ⟨_,rfl,by decide,by rw [h5]; decide⟩)
  · exact Or.inr (Or.inl ⟨_,rfl,by decide,by rw [h6]; decide⟩)
  · exact Or.inr (Or.inl ⟨_,rfl,by decide,by rw [h7]; decide⟩)
  · exact Or.inr (Or.inr ⟨h8,rfl⟩)
  · exact Or.inl ⟨rfl,h2,h1⟩

/-- Hexadecimal text has its width. -/
theorem hexText_length (width n : ℕ) : (hexText width n).length=width := by
  induction width generalizing n with
  | zero => rfl
  | succ width ih => rw [hexText,List.length_append,ih,List.length_singleton]

/-- Control characters have distinct hexadecimal texts. -/
theorem hexText_control {m n : ℕ} (hm : m<32) (hn : n<32) (h : hexText 4 m=hexText 4 n) : m=n := by
  have hall : ∀ m<32, ∀ n<32, hexText 4 m=hexText 4 n → m=n := by decide +kernel
  exact hall m hm n hn h

/-- Escaped characters can be read back one by one. -/
theorem escapeCharacter_readBack {c d : Char} {s t : List Char}
    (h : escapeCharacter c ++ s=escapeCharacter d ++ t) : c=d ∧ s=t := by
  rcases escapeCharacter_cases c with ⟨hc,hcb,_⟩ | ⟨mark,hc,hcu,hcm⟩ | ⟨hcn,hc⟩ <;>
    rcases escapeCharacter_cases d with ⟨hd,hdb,_⟩ | ⟨mark',hd,hdu,hdm⟩ | ⟨hdn,hd⟩ <;>
    rw [hc,hd] at h <;> simp only [List.cons_append,List.nil_append,List.cons.injEq,true_and] at h
  · exact h
  · exact absurd h.1 hcb
  · exact absurd h.1 hcb
  · exact absurd h.1.symm hdb
  · obtain ⟨rfl,hst⟩ := h
    rw [hcm] at hdm
    exact ⟨Option.some.inj hdm,hst⟩
  · exact absurd h.1 hcu
  · exact absurd h.1.symm hdb
  · exact absurd h.1.symm hdu
  · have hlen : (hexText 4 c.toNat).length=(hexText 4 d.toNat).length := by
      rw [hexText_length,hexText_length]
    obtain ⟨hhex,hst⟩ := List.append_inj h hlen
    have hnat := hexText_control hcn hdn hhex
    exact ⟨Char.toNat_inj.mp hnat,hst⟩

/-- An escaped character never starts with a quote. -/
theorem escapeCharacter_not_quote (c : Char) (s t : List Char) : escapeCharacter c ++ s ≠ '"' :: t := by
  intro h
  rcases escapeCharacter_cases c with ⟨hc,_,hcq⟩ | ⟨mark,hc,_,_⟩ | ⟨_,hc⟩ <;> rw [hc] at h <;>
    simp only [List.cons_append,List.nil_append,List.cons.injEq] at h
  · exact hcq h.1
  · exact absurd h.1 (by decide)
  · exact absurd h.1 (by decide)

/-- The characters of a string literal can be read back up to its closing quote. -/
theorem escaped_readBack {a b : List Char} {s t : List Char}
    (h : a.flatMap escapeCharacter ++ '"' :: s=b.flatMap escapeCharacter ++ '"' :: t) :
    a=b ∧ s=t := by
  induction a generalizing b with
  | nil =>
    cases b with
    | nil => simpa using h
    | cons d ds =>
      rw [List.flatMap_nil,List.nil_append,List.flatMap_cons,List.append_assoc] at h
      exact absurd h.symm (escapeCharacter_not_quote d _ s)
  | cons c cs ih =>
    cases b with
    | nil =>
      rw [List.flatMap_nil,List.nil_append,List.flatMap_cons,List.append_assoc] at h
      exact absurd h (escapeCharacter_not_quote c _ t)
    | cons d ds =>
      rw [List.flatMap_cons,List.flatMap_cons,List.append_assoc,List.append_assoc] at h
      obtain ⟨rfl,hrest⟩ := escapeCharacter_readBack h
      obtain ⟨rfl,hst⟩ := ih hrest
      exact ⟨rfl,hst⟩

/-- A string literal can be read back from any text that it starts. -/
theorem quoteText_readBack {a b : String} {s t : List Char} (h : quoteText a ++ s=quoteText b ++ t) :
    a=b ∧ s=t := by
  unfold quoteText at h
  simp only [List.cons_append,List.append_assoc,List.nil_append,List.cons.injEq,true_and] at h
  obtain ⟨hlist,hst⟩ := escaped_readBack h
  exact ⟨String.toList_injective hlist,hst⟩

end Quoting

section Numbers

/-- Characters of number texts. -/
def isNumberCharacter (c : Char) : Bool := c.isDigit || c == '-' || c == '+' || c == '.' || c == 'e'

/-- What the shortest round-trip spelling of finite doubles guarantees: number
characters only, a point or an exponent in every text, and distinct texts for
distinct values. -/
structure SpellLaws (spell : Float → String) : Prop where
  /-- Number characters only. -/
  numeric : ∀ value : Float, value.isFinite=true → ∀ c∈(spell value).toList, isNumberCharacter c=true
  /-- A point or an exponent. -/
  marked : ∀ value : Float, value.isFinite=true → '.'∈(spell value).toList ∨ 'e'∈(spell value).toList
  /-- Distinct values have distinct texts. -/
  injective : ∀ a b : Float, a.isFinite=true → b.isFinite=true → spell a=spell b → a=b

/-- Characters of an integer are digits after an optional sign. -/
theorem integer_characters (value : Int) :
    ∀ c∈(toString value).toList, c.isDigit=true ∨ c = '-' := by
  have hnat : ∀ (n : ℕ), ∀ c∈(Nat.repr n).toList, c.isDigit=true := by
    intro n c hc
    rw [Nat.repr_eq_ofList_toDigits,String.toList_ofList] at hc
    exact Nat.isDigit_of_mem_toDigits (by decide) (by decide) hc
  intro c hc
  cases value with
  | ofNat n => exact Or.inl (hnat n c hc)
  | negSucc n =>
    have htext : (toString (Int.negSucc n)).toList= '-' :: (Nat.repr (n+1)).toList := by
      show ("-" ++ Nat.repr (n+1)).toList=_
      rw [String.toList_append]
      rfl
    rw [htext] at hc
    rcases List.mem_cons.mp hc with rfl | hrest
    · exact Or.inr rfl
    · exact Or.inl (hnat (n+1) c hrest)

/-- An integer text is not empty. -/
theorem integer_nonempty (value : Int) : (toString value).toList≠[] := by
  cases value with
  | ofNat n =>
    show (Nat.repr n).toList≠[]
    rw [Nat.repr_eq_ofList_toDigits,String.toList_ofList]
    exact Nat.toDigits_ne_nil
  | negSucc n =>
    show ("-" ++ Nat.repr (n+1)).toList≠[]
    rw [String.toList_append]
    simp

/-- A text after a value starts with no number character. -/
def Follows (s : List Char) : Prop := ∀ c, s.head?=some c → isNumberCharacter c=false

/-- Number texts can be read back up to the next separator. -/
theorem number_readBack {a b s t : List Char} (ha : ∀ c∈a, isNumberCharacter c=true)
    (hb : ∀ c∈b, isNumberCharacter c=true) (hs : Follows s) (ht : Follows t) (h : a ++ s=b ++ t) :
    a=b ∧ s=t := by
  induction a generalizing b with
  | nil =>
    cases b with
    | nil => exact ⟨rfl,h⟩
    | cons d ds =>
      have hd := hb d (List.mem_cons_self ..)
      rw [List.nil_append] at h
      rw [hs d (by rw [h]; rfl)] at hd
      cases hd
  | cons c cs ih =>
    have hc := ha c (List.mem_cons_self ..)
    cases b with
    | nil =>
      rw [List.nil_append] at h
      rw [ht c (by rw [←h]; rfl)] at hc
      cases hc
    | cons d ds =>
      simp only [List.cons_append,List.cons.injEq] at h
      obtain ⟨rfl,hst⟩ := ih (fun x hx => ha x (List.mem_cons_of_mem _ hx))
        (fun x hx => hb x (List.mem_cons_of_mem _ hx)) h.2
      exact ⟨by rw [h.1],hst⟩

end Numbers

section Encoding

variable (spell : Float → String)

mutual
/-- Characters of the JSON text of a value whose doubles are finite. -/
def encoded : Json → List Char
  | .null => "null".toList
  | .boolean value => if value then "true".toList else "false".toList
  | .integer value => (toString value).toList
  | .float value => (spell value).toList
  | .string value => quoteText value
  | .array [] => ['[',']']
  | .array (item::rest) => '[' :: (encoded item ++ encodedRest rest)
  | .object [] => ['\x7b','\x7d']
  | .object ((key,value)::rest) =>
    '\x7b' :: (quoteText key ++ ':' :: ' ' :: (encoded value ++ encodedMembers rest))

/-- Further elements and the end of an array. -/
def encodedRest : List Json → List Char
  | [] => [']']
  | item::rest => ',' :: ' ' :: (encoded item ++ encodedRest rest)

/-- Further members and the end of an object. -/
def encodedMembers : List (String × Json) → List Char
  | [] => ['\x7d']
  | (key,value)::rest =>
    ',' :: ' ' :: (quoteText key ++ ':' :: ' ' :: (encoded value ++ encodedMembers rest))
end

mutual
/-- All doubles of a value are finite. -/
def allFinite : Json → Bool
  | .float value => value.isFinite
  | .array items => allFiniteItems items
  | .object members => allFiniteMembers members
  | _ => true

/-- All doubles of an array are finite. -/
def allFiniteItems : List Json → Bool
  | [] => true
  | item::rest => allFinite item && allFiniteItems rest

/-- All doubles of the members are finite. -/
def allFiniteMembers : List (String × Json) → Bool
  | [] => true
  | (_,value)::rest => allFinite value && allFiniteMembers rest
end

/-- Elements and the end of an array. -/
def encodedItems : List Json → List Char
  | [] => [']']
  | item::rest => encoded spell item ++ encodedRest spell rest

/-- Members and the end of an object. -/
def encodedFields : List (String × Json) → List Char
  | [] => ['\x7d']
  | (key,value)::rest =>
    quoteText key ++ ':' :: ' ' :: (encoded spell value ++ encodedMembers spell rest)

/-- An array is its elements between brackets. -/
theorem encoded_array (items : List Json) :
    encoded spell (.array items)= '[' :: encodedItems spell items := by
  cases items <;> rw [encoded] <;> rfl

/-- An object is its members between braces. -/
theorem encoded_object (members : List (String × Json)) :
    encoded spell (.object members)= '\x7b' :: encodedFields spell members := by
  cases members <;> rw [encoded] <;> rfl

mutual
/-- A text that exists spells a value of finite doubles. -/
theorem dumpCharacters_ok : ∀ (value : Json) (characters : List Char),
    dumpCharacters spell value=.ok characters →
    allFinite value=true ∧ characters=encoded spell value
  | .null,_,h => by
    cases h
    exact ⟨rfl,rfl⟩
  | .boolean b,_,h => by
    cases b <;> cases h <;> exact ⟨rfl,rfl⟩
  | .integer n,_,h => by
    cases h
    exact ⟨rfl,rfl⟩
  | .float x,_,h => by
    rw [dumpCharacters] at h
    split at h
    · cases h
      exact ⟨by assumption,rfl⟩
    · cases h
  | .string s,_,h => by
    cases h
    exact ⟨rfl,rfl⟩
  | .array items,_,h => by
    rw [dumpCharacters,except_bind_ok] at h
    obtain ⟨listed,hl,hr⟩ := h
    cases hr
    obtain ⟨hf,he⟩ := dumpItems_ok items listed hl
    refine ⟨by rw [allFinite]; exact hf,?_⟩
    rw [encoded_array,he]
  | .object members,_,h => by
    rw [dumpCharacters,except_bind_ok] at h
    obtain ⟨listed,hl,hr⟩ := h
    cases hr
    obtain ⟨hf,he⟩ := dumpMembers_ok members listed hl
    refine ⟨by rw [allFinite]; exact hf,?_⟩
    rw [encoded_object,he]

/-- The text of elements, closed. -/
theorem dumpItems_ok : ∀ (items : List Json) (listed : List Char), dumpItems spell items=.ok listed →
    allFiniteItems items=true ∧ listed ++ [']']=encodedItems spell items
  | [],listed,h => by
    cases h
    exact ⟨rfl,rfl⟩
  | [item],listed,h => by
    rw [dumpItems] at h
    obtain ⟨hf,rfl⟩ := dumpCharacters_ok item listed h
    refine ⟨?_,by rw [encodedItems,encodedRest]⟩
    rw [allFiniteItems,hf]
    rfl
  | item::second::rest,listed,h => by
    rw [dumpItems,except_bind_ok] at h
    obtain ⟨head,hh,h⟩ := h
    rw [except_bind_ok] at h
    obtain ⟨tail,ht,hr⟩ := h
    cases hr
    obtain ⟨hf,rfl⟩ := dumpCharacters_ok item head hh
    obtain ⟨hfr,he⟩ := dumpItems_ok (second::rest) tail ht
    refine ⟨?_,?_⟩
    · rw [allFiniteItems,hf,hfr]
      rfl
    · rw [encodedItems,encodedRest,List.append_assoc,List.cons_append,List.cons_append,he]
      rfl

/-- The text of members, closed. -/
theorem dumpMembers_ok : ∀ (members : List (String × Json)) (listed : List Char),
    dumpMembers spell members=.ok listed →
    allFiniteMembers members=true ∧ listed ++ ['\x7d']=encodedFields spell members
  | [],listed,h => by
    cases h
    exact ⟨rfl,rfl⟩
  | [(key,value)],listed,h => by
    rw [dumpMembers,except_bind_ok] at h
    obtain ⟨item,hi,hr⟩ := h
    cases hr
    obtain ⟨hf,rfl⟩ := dumpCharacters_ok value item hi
    refine ⟨?_,?_⟩
    · rw [allFiniteMembers,hf]
      rfl
    · rw [encodedFields,encodedMembers,List.append_assoc]
      rfl
  | (key,value)::(key',value')::rest,listed,h => by
    rw [dumpMembers,except_bind_ok] at h
    obtain ⟨item,hi,h⟩ := h
    rw [except_bind_ok] at h
    obtain ⟨tail,ht,hr⟩ := h
    cases hr
    obtain ⟨hf,rfl⟩ := dumpCharacters_ok value item hi
    obtain ⟨hfr,he⟩ := dumpMembers_ok ((key',value')::rest) tail ht
    rw [encodedFields] at he
    refine ⟨?_,?_⟩
    · rw [allFiniteMembers,hf,hfr]
      rfl
    · rw [encodedFields,encodedMembers,←he]
      simp only [List.append_assoc,List.cons_append]
end

/-- Whether a value is a number. -/
def isNumber : Json → Bool
  | .integer _ => true
  | .float _ => true
  | _ => false

/-- First character of every text of a kind other than numbers. -/
def leadCharacter : Json → Char
  | .null => 'n'
  | .boolean value => if value then 't' else 'f'
  | .string _ => '"'
  | .array _ => '['
  | .object _ => '\x7b'
  | _ => '0'

/-- Texts of other kinds than numbers start with the character of their kind. -/
theorem encoded_lead {value : Json} (h : isNumber value=false) :
    ∃ rest, encoded spell value=leadCharacter value::rest := by
  cases value with
  | null | string _ => exact ⟨_,rfl⟩
  | boolean b => cases b <;> exact ⟨_,rfl⟩
  | integer _ | float _ => cases h
  | array items => exact ⟨_,encoded_array spell items⟩
  | object members => exact ⟨_,encoded_object spell members⟩

/-- Kinds other than numbers start with no number character. -/
theorem leadCharacter_separates {value : Json} (h : isNumber value=false) :
    isNumberCharacter (leadCharacter value)=false := by
  cases value with
  | boolean b => cases b <;> decide
  | integer _ | float _ => cases h
  | _ => rfl

variable {spell}

/-- Number texts have number characters only. -/
theorem encoded_number (laws : SpellLaws spell) {value : Json} (h : isNumber value=true)
    (hf : allFinite value=true) :
    (∀ c∈encoded spell value, isNumberCharacter c=true) ∧ encoded spell value≠[] := by
  cases value with
  | integer n =>
    rw [encoded]
    refine ⟨?_,integer_nonempty n⟩
    intro c hc
    unfold isNumberCharacter
    rcases integer_characters n c hc with hd | rfl
    · rw [hd]
      rfl
    · rfl
  | float x =>
    rw [allFinite] at hf
    rw [encoded]
    refine ⟨laws.numeric x hf,?_⟩
    intro hnil
    have hm := laws.marked x hf
    rw [hnil] at hm
    simp at hm
  | _ => cases h

/-- The text of a number decides the number. -/
theorem encoded_number_injective (laws : SpellLaws spell) {a b : Json} (ha : isNumber a=true)
    (hb : isNumber b=true) (hfa : allFinite a=true) (hfb : allFinite b=true)
    (h : encoded spell a=encoded spell b) : a=b := by
  -- An integer text has no point and no exponent.
  have hmixed : ∀ (n : Int) (x : Float), x.isFinite=true → (toString n).toList≠(spell x).toList := by
    intro n x hx he
    have hmark : ∀ c, c∈(spell x).toList → c = '.' ∨ c = 'e' → False := by
      intro c hc hm
      rw [←he] at hc
      rcases integer_characters n c hc with hd | rfl
      · rcases hm with rfl | rfl <;> simp at hd
      · rcases hm with hm | hm <;> simp at hm
    rcases laws.marked x hx with hm | hm
    · exact hmark _ hm (Or.inl rfl)
    · exact hmark _ hm (Or.inr rfl)
  cases a with
  | integer n =>
    cases b with
    | integer m =>
      rw [encoded,encoded] at h
      rw [Int.repr_injective (String.toList_injective h)]
    | float y =>
      rw [encoded,encoded] at h
      rw [allFinite] at hfb
      exact absurd h (hmixed n y hfb)
    | _ => cases hb
  | float x =>
    rw [allFinite] at hfa
    cases b with
    | integer m =>
      rw [encoded,encoded] at h
      exact absurd h.symm (hmixed m x hfa)
    | float y =>
      rw [encoded,encoded] at h
      rw [allFinite] at hfb
      rw [laws.injective x y hfa hfb (String.toList_injective h)]
    | _ => cases hb
  | _ => cases ha

/-- A number text is followed by a separator, so no other kind starts like it. -/
theorem encoded_number_other (laws : SpellLaws spell) {a b : Json} {s t : List Char}
    (ha : isNumber a=true) (hb : isNumber b=false) (hfa : allFinite a=true) :
    encoded spell a ++ s≠encoded spell b ++ t := by
  intro h
  obtain ⟨hall,hne⟩ := encoded_number laws ha hfa
  obtain ⟨rest,hrest⟩ := encoded_lead spell hb
  obtain ⟨c,cs,hc⟩ := List.exists_cons_of_ne_nil hne
  rw [hc,hrest,List.cons_append,List.cons_append,List.cons.injEq] at h
  have hnum := hall c (by rw [hc]; exact List.mem_cons_self ..)
  rw [h.1,leadCharacter_separates hb] at hnum
  cases hnum

/-- Further elements start with a separator or a bracket. -/
theorem encodedRest_follows (items : List Json) (s : List Char) :
    Follows (encodedRest spell items ++ s) := by
  intro c hc
  cases items with
  | nil | cons _ _ =>
    rw [encodedRest] at hc
    cases hc
    decide

/-- Further members start with a separator or a brace. -/
theorem encodedMembers_follows (members : List (String × Json)) (s : List Char) :
    Follows (encodedMembers spell members ++ s) := by
  intro c hc
  cases members with
  | nil =>
    rw [encodedMembers] at hc
    cases hc
    decide
  | cons m rest =>
    obtain ⟨key,value⟩ := m
    rw [encodedMembers] at hc
    cases hc
    decide

/-- Whether two values other than numbers are of one kind; booleans are two kinds. -/
def sameKind : Json → Json → Bool
  | .null,.null => true
  | .boolean a,.boolean b => a==b
  | .string _,.string _ => true
  | .array _,.array _ => true
  | .object _,.object _ => true
  | _,_ => false

/-- Kinds other than numbers are told apart by their first characters. -/
theorem sameKind_of_lead {a b : Json} (ha : isNumber a=false) (hb : isNumber b=false)
    (h : leadCharacter a=leadCharacter b) : sameKind a b=true := by
  cases a with
  | integer _ | float _ => cases ha
  | boolean v =>
    cases b with
    | integer _ | float _ => cases hb
    | boolean u => cases v <;> cases u <;> first | rfl | exact absurd h (by decide)
    | _ => cases v <;> simp [leadCharacter] at h
  | _ =>
    cases b with
    | integer _ | float _ => cases hb
    | boolean u => cases u <;> simp [leadCharacter] at h
    | _ => first | rfl | simp [leadCharacter] at h

/-- Values that start alike are of one kind. -/
theorem sameKind_of_start (laws : SpellLaws spell) {a b : Json} {s t : List Char}
    (ha : isNumber a=false) (hf : allFinite b=true) (h : encoded spell a ++ s=encoded spell b ++ t) :
    sameKind a b=true := by
  cases hb : isNumber b with
  | true => exact absurd h.symm (encoded_number_other laws hb ha hf)
  | false =>
    obtain ⟨rest,hrest⟩ := encoded_lead spell ha
    obtain ⟨rest',hrest'⟩ := encoded_lead spell hb
    rw [hrest,hrest',List.cons_append,List.cons_append,List.cons.injEq] at h
    exact sameKind_of_lead ha hb h.1

/-- Numbers can be read back from their texts. -/
theorem number_case (laws : SpellLaws spell) {a b : Json} {s t : List Char} (hn : isNumber a=true)
    (ha : allFinite a=true) (hb : allFinite b=true) (hs : Follows s) (ht : Follows t)
    (h : encoded spell a ++ s=encoded spell b ++ t) : a=b ∧ s=t := by
  cases hm : isNumber b with
  | false => exact absurd h (encoded_number_other laws hn hm ha)
  | true =>
    obtain ⟨htext,hst⟩ := number_readBack (encoded_number laws hn ha).1 (encoded_number laws hm hb).1 hs ht h
    exact ⟨encoded_number_injective laws hn hm ha hb htext,hst⟩

/-- A value never starts with a closing bracket. -/
theorem encoded_not_bracket (laws : SpellLaws spell) {value : Json} (hf : allFinite value=true)
    (s t : List Char) : encoded spell value ++ s ≠ ']' :: t := by
  intro h
  cases hn : isNumber value with
  | true =>
    obtain ⟨hall,hne⟩ := encoded_number laws hn hf
    obtain ⟨c,cs,hc⟩ := List.exists_cons_of_ne_nil hne
    have hnum := hall c (by rw [hc]; exact List.mem_cons_self ..)
    rw [hc,List.cons_append,List.cons.injEq] at h
    rw [h.1] at hnum
    cases hnum
  | false =>
    obtain ⟨rest,hrest⟩ := encoded_lead spell hn
    rw [hrest,List.cons_append,List.cons.injEq] at h
    cases value with
    | boolean b => cases b <;> exact absurd h.1 (by decide)
    | integer _ | float _ => cases hn
    | _ => simp [leadCharacter] at h

/-- An empty array and one with elements have different texts. -/
theorem array_end_differs (laws : SpellLaws spell) {item : Json} {rest : List Json}
    (hf : allFinite (.array (item::rest))=true) {s t : List Char} :
    encoded spell (.array []) ++ s≠encoded spell (.array (item::rest)) ++ t := by
  rw [allFinite,allFiniteItems,Bool.and_eq_true] at hf
  intro h
  rw [encoded,encoded] at h
  simp only [List.cons_append,List.append_assoc,List.cons.injEq,true_and] at h
  exact encoded_not_bracket laws hf.1 _ _ h.symm

/-- An empty object and one with members have different texts. -/
theorem object_end_differs {m : String × Json} {rest : List (String × Json)} {s t : List Char} :
    encoded spell (.object []) ++ s≠encoded spell (.object (m::rest)) ++ t := by
  obtain ⟨key,value⟩ := m
  intro h
  rw [encoded,encoded] at h
  cases h

mutual
/-- A value can be read back from its text up to the next separator. -/
theorem encoded_readBack (laws : SpellLaws spell) : ∀ (a b : Json) (s t : List Char),
    allFinite a=true → allFinite b=true → Follows s → Follows t →
    encoded spell a ++ s=encoded spell b ++ t → a=b ∧ s=t
  | .integer n,b,s,t,ha,hb,hs,ht,h => number_case laws rfl ha hb hs ht h
  | .float x,b,s,t,ha,hb,hs,ht,h => number_case laws rfl ha hb hs ht h
  | .null,b,s,t,ha,hb,hs,ht,h => by
    have hk := sameKind_of_start laws rfl hb h
    cases b with
    | null => exact ⟨rfl,List.append_cancel_left h⟩
    | _ => cases hk
  | .boolean v,b,s,t,ha,hb,hs,ht,h => by
    have hk := sameKind_of_start laws rfl hb h
    cases b with
    | boolean u =>
      have hv : v=u := by simpa [sameKind] using hk
      subst hv
      exact ⟨rfl,List.append_cancel_left h⟩
    | _ => cases hk
  | .string text,b,s,t,ha,hb,hs,ht,h => by
    have hk := sameKind_of_start laws rfl hb h
    cases b with
    | string other =>
      rw [encoded,encoded] at h
      obtain ⟨rfl,hst⟩ := quoteText_readBack h
      exact ⟨rfl,hst⟩
    | _ => cases hk
  | .array [],b,s,t,ha,hb,hs,ht,h => by
    have hk := sameKind_of_start laws rfl hb h
    cases b with
    | array items =>
      cases items with
      | nil => exact ⟨rfl,List.append_cancel_left h⟩
      | cons item rest => exact absurd h (array_end_differs laws hb)
    | _ => cases hk
  | .array (item::rest),b,s,t,ha,hb,hs,ht,h => by
    have hk := sameKind_of_start laws rfl hb h
    cases b with
    | array items =>
      cases items with
      | nil => exact absurd h.symm (array_end_differs laws ha)
      | cons item' rest' =>
        rw [allFinite,allFiniteItems,Bool.and_eq_true] at ha hb
        rw [encoded,encoded] at h
        simp only [List.cons_append,List.append_assoc,List.cons.injEq,true_and] at h
        obtain ⟨rfl,hrest⟩ := encoded_readBack laws item item' _ _ ha.1 hb.1
          (encodedRest_follows rest s) (encodedRest_follows rest' t) h
        obtain ⟨rfl,hst⟩ := encodedRest_readBack laws rest rest' s t ha.2 hb.2 hrest
        exact ⟨rfl,hst⟩
    | _ => cases hk
  | .object [],b,s,t,ha,hb,hs,ht,h => by
    have hk := sameKind_of_start laws rfl hb h
    cases b with
    | object members =>
      cases members with
      | nil => exact ⟨rfl,List.append_cancel_left h⟩
      | cons m rest => exact absurd h object_end_differs
    | _ => cases hk
  | .object ((key,value)::rest),b,s,t,ha,hb,hs,ht,h => by
    have hk := sameKind_of_start laws rfl hb h
    cases b with
    | object members =>
      cases members with
      | nil => exact absurd h.symm object_end_differs
      | cons m rest' =>
        obtain ⟨key',value'⟩ := m
        rw [allFinite,allFiniteMembers,Bool.and_eq_true] at ha hb
        rw [encoded,encoded] at h
        simp only [List.cons_append,List.append_assoc,List.cons.injEq,true_and] at h
        obtain ⟨rfl,hvalue⟩ := quoteText_readBack h
        simp only [List.cons.injEq,true_and] at hvalue
        obtain ⟨rfl,hrest⟩ := encoded_readBack laws value value' _ _ ha.1 hb.1
          (encodedMembers_follows rest s) (encodedMembers_follows rest' t) hvalue
        obtain ⟨rfl,hst⟩ := encodedMembers_readBack laws rest rest' s t ha.2 hb.2 hrest
        exact ⟨rfl,hst⟩
    | _ => cases hk

/-- Further elements can be read back up to the closing bracket. -/
theorem encodedRest_readBack (laws : SpellLaws spell) : ∀ (as bs : List Json) (s t : List Char),
    allFiniteItems as=true → allFiniteItems bs=true →
    encodedRest spell as ++ s=encodedRest spell bs ++ t → as=bs ∧ s=t
  | [],bs,s,t,ha,hb,h => by
    cases bs with
    | nil => exact ⟨rfl,List.append_cancel_left h⟩
    | cons b bs =>
      rw [encodedRest,encodedRest] at h
      cases h
  | a::as,bs,s,t,ha,hb,h => by
    rw [allFiniteItems,Bool.and_eq_true] at ha
    cases bs with
    | nil =>
      rw [encodedRest,encodedRest] at h
      cases h
    | cons b bs =>
      rw [allFiniteItems,Bool.and_eq_true] at hb
      rw [encodedRest,encodedRest] at h
      simp only [List.cons_append,List.append_assoc,List.cons.injEq,true_and] at h
      obtain ⟨rfl,hrest⟩ := encoded_readBack laws a b _ _ ha.1 hb.1 (encodedRest_follows as s)
        (encodedRest_follows bs t) h
      obtain ⟨rfl,hst⟩ := encodedRest_readBack laws as bs s t ha.2 hb.2 hrest
      exact ⟨rfl,hst⟩

/-- Further members can be read back up to the closing brace. -/
theorem encodedMembers_readBack (laws : SpellLaws spell) : ∀ (as bs : List (String × Json))
    (s t : List Char), allFiniteMembers as=true → allFiniteMembers bs=true →
    encodedMembers spell as ++ s=encodedMembers spell bs ++ t → as=bs ∧ s=t
  | [],bs,s,t,ha,hb,h => by
    cases bs with
    | nil => exact ⟨rfl,List.append_cancel_left h⟩
    | cons b bs =>
      obtain ⟨key,value⟩ := b
      rw [encodedMembers,encodedMembers] at h
      cases h
  | (key,value)::as,bs,s,t,ha,hb,h => by
    rw [allFiniteMembers,Bool.and_eq_true] at ha
    cases bs with
    | nil =>
      rw [encodedMembers,encodedMembers] at h
      cases h
    | cons b bs =>
      obtain ⟨key',value'⟩ := b
      rw [allFiniteMembers,Bool.and_eq_true] at hb
      rw [encodedMembers,encodedMembers] at h
      simp only [List.cons_append,List.append_assoc,List.cons.injEq,true_and] at h
      obtain ⟨rfl,hvalue⟩ := quoteText_readBack h
      simp only [List.cons.injEq,true_and] at hvalue
      obtain ⟨rfl,hrest⟩ := encoded_readBack laws value value' _ _ ha.1 hb.1
        (encodedMembers_follows as s) (encodedMembers_follows bs t) hvalue
      obtain ⟨rfl,hst⟩ := encodedMembers_readBack laws as bs s t ha.2 hb.2 hrest
      exact ⟨rfl,hst⟩
end

/-- A JSON text spells one value. -/
theorem dumpJson_injective (laws : SpellLaws spell) {a b : Json} {text : String}
    (ha : dumpJson spell a=.ok text) (hb : dumpJson spell b=.ok text) : a=b := by
  unfold dumpJson at ha hb
  rw [except_bind_ok] at ha hb
  obtain ⟨first,hfirst,hf⟩ := ha
  obtain ⟨second,hsecond,hs⟩ := hb
  obtain ⟨hfa,rfl⟩ := dumpCharacters_ok spell a first hfirst
  obtain ⟨hfb,rfl⟩ := dumpCharacters_ok spell b second hsecond
  have htexts : String.ofList (encoded spell a)=String.ofList (encoded spell b) :=
    (Except.ok.inj hf).trans (Except.ok.inj hs).symm
  have hlists := congrArg String.toList htexts
  rw [String.toList_ofList,String.toList_ofList] at hlists
  have hempty : Follows [] := by
    intro c hc
    cases hc
  refine (encoded_readBack laws a b [] [] hfa hfb hempty hempty ?_).1
  rw [List.append_nil,List.append_nil]
  exact hlists

/-- Values with one fingerprint have the same content. -/
theorem sameContent_of_fingerprint (laws : SpellLaws spell) {a b : Json} {text : String}
    (hua : uniqueKeys a=true) (hub : uniqueKeys b=true)
    (ha : dumpJson spell (sortedFields a)=.ok text) (hb : dumpJson spell (sortedFields b)=.ok text) :
    sameContent a b=true :=
  (sortedFields_eq_iff a b hua hub).mp (dumpJson_injective laws ha hb)

end Encoding

end Ros1Adapter.SceneFingerprint
