import Mathlib.Data.List.Basic

/-!
# JSON values of the scene adapter

The document model keeps nlohmann values over an insertion-ordered object
container. Both 64-bit integer kinds are one unbounded integer here; doubles
are IEEE 754 values. Equality is the dict equality of the source, which mixes
integers with doubles and ignores member order. Structural equality is the
finer relation behind its text caches.
-/

namespace Ros1Adapter.SceneJson

/-- Kind of a C++ exception that scene commands catch. -/
inductive ErrorKind where
  /-- `SceneError`, raised by validation, hooks and file handling. -/
  | scene
  /-- `std::system_error`, raised by the file system library. -/
  | system
  /-- `std::invalid_argument`. -/
  | invalidArgument
  /-- `Json::exception`, raised by a missing member or a wrong JSON type. -/
  | json
  deriving DecidableEq

/-- A thrown exception with its wire-visible text. -/
structure Error where
  /-- Class of the exception object. -/
  kind : ErrorKind
  /-- Text returned by `what()`. -/
  what : String
  deriving DecidableEq

/-- The exception of a failed validation. -/
def sceneError (what : String) : Error := ⟨.scene,what⟩

/-- The exception of a failed JSON access. -/
def jsonError (what : String) : Error := ⟨.json,what⟩

/-- A JSON value whose objects keep their insertion order. -/
inductive Json where
  | null
  | boolean (value : Bool)
  | integer (value : Int)
  | float (value : Float)
  | string (value : String)
  | array (items : List Json)
  | object (members : List (String × Json))

instance : Inhabited Json := ⟨.null⟩

namespace Json

/-- First member with the given key, as `OrderedObject::find` returns it. -/
def member (value : Json) (key : String) : Option Json :=
  match value with
  | .object members => members.lookup key
  | _ => none

/-- Whether the value is an object with the given key. -/
def contains (value : Json) (key : String) : Bool := (value.member key).isSome

/-- Checked member access; a missing member throws. -/
def atKey (value : Json) (key : String) : Except Error Json :=
  match value.member key with
  | some item => .ok item
  | none => .error (jsonError ("key '" ++ key ++ "' not found"))

/-- Member access with a default for an absent key. -/
def valueOr (value : Json) (key : String) (fallback : Json) : Json :=
  (value.member key).getD fallback

/-- Replace the first member with this key or append a new one. -/
def setMember (key : String) (item : Json) : List (String × Json) → List (String × Json)
  | [] => [(key,item)]
  | (k,v)::rest => if k=key then (k,item)::rest else (k,v)::setMember key item rest

/-- Assignment through `operator[]`; a null value becomes an object first. -/
def set (value : Json) (key : String) (item : Json) : Json :=
  match value with
  | .object members => .object (setMember key item members)
  | .null => .object [(key,item)]
  | other => other

/-- An assigned member is found under its key. -/
theorem lookup_setMember (key : String) (item : Json) (members : List (String × Json)) :
    (setMember key item members).lookup key=some item := by
  induction members with
  | nil => simp [setMember]
  | cons m rest ih =>
    obtain ⟨k,v⟩ := m
    unfold setMember
    by_cases hk : k=key
    · rw [if_pos hk,hk]
      simp
    · rw [if_neg hk,List.lookup_cons]
      have hb : (key==k)=false := by simpa using fun h => hk h.symm
      rw [hb]
      exact ih

/-- An assignment keeps every other member. -/
theorem lookup_setMember_other {key other : String} (h : other≠key) (item : Json)
    (members : List (String × Json)) :
    (setMember key item members).lookup other=members.lookup other := by
  have hb : (other==key)=false := by simpa using h
  induction members with
  | nil => simp [setMember,List.lookup_cons,hb]
  | cons m rest ih =>
    obtain ⟨k,v⟩ := m
    unfold setMember
    by_cases hk : k=key
    · rw [if_pos hk,List.lookup_cons,List.lookup_cons,hk,hb]
    · rw [if_neg hk,List.lookup_cons,List.lookup_cons,ih]

/-- An assigned member of an object is found under its key. -/
theorem member_set {value : Json} {members : List (String × Json)} (hv : value=.object members)
    (key : String) (item : Json) : (value.set key item).member key=some item := by
  subst hv
  exact lookup_setMember key item members

/-- An assignment to an object keeps every other member. -/
theorem member_set_other {value : Json} {members : List (String × Json)} (hv : value=.object members)
    {key other : String} (h : other≠key) (item : Json) :
    (value.set key item).member other=value.member other := by
  subst hv
  exact lookup_setMember_other h item members

/-- Elements of an array value and nothing for any other kind. -/
def items : Json → List Json
  | .array items => items
  | _ => []

/-- Members of an object value in insertion order. -/
def members : Json → List (String × Json)
  | .object members => members
  | _ => []

/-- Number of elements, as nlohmann counts them. -/
def size : Json → ℕ
  | .null => 0
  | .array items => items.length
  | .object members => members.length
  | _ => 1

/-- Text of a string value. -/
def text? : Json → Option String
  | .string value => some value
  | _ => none

/-- Numeric conversion to double; integers round to nearest. -/
def double? : Json → Option Float
  | .integer value => some (Float.ofInt value)
  | .float value => some value
  | _ => none

mutual
/-- Dict equality of JSON values: numbers compare across kinds as doubles and
objects compare without regard to member order. -/
def equal : Json → Json → Bool
  | .null,.null => true
  | .boolean a,.boolean b => a==b
  | .integer a,.integer b => a==b
  | .float a,.float b => a==b
  | .integer a,.float b => Float.ofInt a==b
  | .float a,.integer b => a==Float.ofInt b
  | .string a,.string b => a==b
  | .array a,.array b => equalItems a b
  | .object a,.object b => a.length==b.length && equalMembers a b
  | _,_ => false

/-- Elementwise equality of two arrays. -/
def equalItems : List Json → List Json → Bool
  | [],[] => true
  | a::as,b::bs => equal a b && equalItems as bs
  | _,_ => false

/-- Every member of the left object has an equal member on the right. -/
def equalMembers : List (String × Json) → List (String × Json) → Bool
  | [],_ => true
  | (k,v)::rest,other =>
    (match other.lookup k with
      | some w => equal v w
      | none => false) && equalMembers rest other
end

mutual
/-- Structural identity: same kinds, same order and the same number bits. -/
def same : Json → Json → Bool
  | .null,.null => true
  | .boolean a,.boolean b => decide (a=b)
  | .integer a,.integer b => decide (a=b)
  | .float a,.float b => decide (a=b)
  | .string a,.string b => decide (a=b)
  | .array a,.array b => sameItems a b
  | .object a,.object b => sameMembers a b
  | _,_ => false

/-- Structural identity of two arrays. -/
def sameItems : List Json → List Json → Bool
  | [],[] => true
  | a::as,b::bs => same a b && sameItems as bs
  | _,_ => false

/-- Structural identity of two member lists, order included. -/
def sameMembers : List (String × Json) → List (String × Json) → Bool
  | [],[] => true
  | (k,v)::rest,(l,w)::other => decide (k=l) && same v w && sameMembers rest other
  | _,_ => false
end

mutual
/-- The structural test decides equality of values. -/
theorem same_iff : ∀ a b : Json, same a b=true ↔ a=b
  | .null,b => by cases b <;> simp [same]
  | .boolean _,b => by cases b <;> simp [same]
  | .integer _,b => by cases b <;> simp [same]
  | .float _,b => by cases b <;> simp [same]
  | .string _,b => by cases b <;> simp [same]
  | .array xs,b => by cases b <;> simp [same,sameItems_iff xs]
  | .object ms,b => by cases b <;> simp [same,sameMembers_iff ms]

/-- The structural test decides equality of arrays. -/
theorem sameItems_iff : ∀ as bs : List Json, sameItems as bs=true ↔ as=bs
  | [],bs => by cases bs <;> simp [sameItems]
  | a::as,bs => by
    cases bs with
    | nil => simp [sameItems]
    | cons b bs => simp [sameItems,same_iff a b,sameItems_iff as bs]

/-- The structural test decides equality of member lists. -/
theorem sameMembers_iff : ∀ as bs : List (String × Json), sameMembers as bs=true ↔ as=bs
  | [],bs => by cases bs <;> simp [sameMembers]
  | (k,v)::as,bs => by
    cases bs with
    | nil => simp [sameMembers]
    | cons b bs =>
      obtain ⟨l,w⟩ := b
      simp [sameMembers,same_iff v w,sameMembers_iff as bs,and_assoc]
end

instance : DecidableEq Json := fun a b => decidable_of_iff _ (same_iff a b)

end Json

end Ros1Adapter.SceneJson
