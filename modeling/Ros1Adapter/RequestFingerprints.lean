import Ros1Adapter.PythonFloat
import Ros1Adapter.SceneServicePlaces
import Ros1Adapter.SceneStoreReceipts

/-!
# Fingerprints of requests

A request is identified by the JSON text of its sorted members. Finite requests
have such a text, and two of them have the same text exactly when they differ
in the order of object members only. Numbers keep their kind and doubles the
sign of zero.
-/

namespace Ros1Adapter.RequestFingerprints

open SceneJson SceneJsonText SceneFingerprint SceneService SceneServicePlaces SceneStoreReceipts PythonFloat
open ActionRules

section Requests

/-- A request as the container of the source holds it: keys do not repeat, numbers are finite. -/
structure Request where
  /-- Value. -/
  value : Json
  /-- No object repeats a key. -/
  unique : uniqueKeys value=true
  /-- Every number is finite. -/
  finite : finite value=true

/-- Finite members are finite one by one. -/
theorem finiteMembers_iff (members : List (String × Json)) :
    finiteMembers members=true ↔ ∀ m∈members, finite m.2=true := by
  induction members with
  | nil => simp [finiteMembers]
  | cons m rest ih =>
    obtain ⟨key,value⟩ := m
    rw [finiteMembers,Bool.and_eq_true,ih]
    simp

mutual
/-- Sorting members keeps numbers finite. -/
theorem finite_sortedFields : ∀ value : Json, finite value=true → finite (sortedFields value)=true
  | .null,h => h
  | .boolean _,h => h
  | .integer _,h => h
  | .float _,h => h
  | .string _,h => h
  | .array items,h => by
    rw [sortedFields]
    exact finite_sortedItems items h
  | .object members,h => by
    have hmembers := (finiteMembers_iff members).mp h
    rw [sortedFields_object]
    refine (finiteMembers_iff _).mpr ?_
    intro m hm
    obtain ⟨original,horiginal,rfl⟩ := List.mem_map.mp ((List.perm_insertionSort _ _).subset hm)
    exact finite_sortedMember members h original horiginal

/-- Sorting elements keeps numbers finite. -/
theorem finite_sortedItems : ∀ items : List Json, finiteItems items=true →
    finiteItems (sortedItems items)=true
  | [],_ => rfl
  | item::rest,h => by
    rw [finiteItems,Bool.and_eq_true] at h
    rw [sortedItems,finiteItems,finite_sortedFields item h.1,finite_sortedItems rest h.2]
    rfl

/-- Sorting the value of a member keeps its numbers finite. -/
theorem finite_sortedMember : ∀ members : List (String × Json), finiteMembers members=true →
    ∀ m∈members, finite (sortedMember m).2=true
  | [],_,_,hm => by cases hm
  | (key,value)::rest,h,m,hm => by
    rw [finiteMembers,Bool.and_eq_true] at h
    rcases List.mem_cons.mp hm with rfl | hm
    · exact finite_sortedFields value h.1
    · exact finite_sortedMember rest h.2 m hm
end

/-- The fingerprint of a request. -/
def fingerprint (request : Json) : Except Error String := dumpJson pythonFloat (sortedFields request)

/-- Python's spelling of doubles can be read back. -/
theorem pythonFloat_laws : SpellLaws pythonFloat := by
  refine ⟨?_,fun _ h => pythonFloat_marked h,fun _ _ ha hb h => pythonFloat_injective ha hb h⟩
  intro value h c hc
  unfold isNumberCharacter
  rcases pythonFloat_characters h c hc with hd | rfl | rfl | rfl | rfl
  · simp [hd]
  all_goals decide

end Requests

end Ros1Adapter.RequestFingerprints
