import Ros1Adapter.MemberBatches

/-!
# Failing entries of a batch

An entry that reports an error leaves the registrations of the batch as they
are without it, apart from the lanes in which later members run. A
registration equal to one in place has no effect. Together with the
invariants, this holds after any jobs of the registration thread.
-/

namespace Ros1Adapter.MemberFailures

open ActionRules MemberTable MemberBatches
open RobotControl (MemberIdentity kMaximumRobots)

section Repeated

end Repeated

section Failures

/-- Two tables with the same registrations, whatever lanes their members run in. -/
structure SameTable (s t : Registry) : Prop where
  /-- The same robots with the same registrations. -/
  registrations : ∀ robot, (s.members.lookup robot).map Member.toRegistration=
    (t.members.lookup robot).map Member.toRegistration
  /-- The same namespaces. -/
  namespaces : s.namespaces=t.namespaces
  /-- The same revision. -/
  revision : s.membersRevision=t.membersRevision

/-- Two results of the same kind, with related answers and the same registrations. -/
def Agree {α β : Type} (R : α → β → Prop) (first : EStateM.Result Interruption Registry α)
    (second : EStateM.Result Interruption Registry β) : Prop :=
  match first,second with
  | .ok a s,.ok b t => R a b ∧ SameTable s t
  | .error e s,.error e' t => e=e' ∧ SameTable s t
  | _,_ => False

/-- Sequences agree when their parts do. -/
theorem Agree.bind {α β α' β' : Type} {R : α → β → Prop} {R' : α' → β' → Prop} {first : Registering α}
    {second : Registering β} {next : α → Registering α'} {next' : β → Registering β'} {s t : Registry}
    (h : Agree R (first s) (second t)) (h' : ∀ a b s t, R a b → SameTable s t → Agree R' (next a s) (next' b t)) :
    Agree R' ((first >>= next) s) ((second >>= next') t) := by
  cases left : first s with
  | ok a s' =>
    cases right : second t with
    | ok b t' =>
      rw [left,right] at h
      rw [bind_of_ok left,bind_of_ok right]
      exact h' a b s' t' h.1 h.2
    | error e t' =>
      rw [left,right] at h
      exact h.elim
  | error e s' =>
    cases right : second t with
    | ok b t' =>
      rw [left,right] at h
      exact h.elim
    | error e' t' =>
      rw [left,right] at h
      rw [bind_of_error left,bind_of_error right]
      exact h

/-- The same robots are members. -/
theorem SameTable.keys {s t : Registry} (h : SameTable s t) : s.members.keys=t.members.keys := by
  ext robot
  rw [Finmap.mem_keys,Finmap.mem_keys,← Finmap.lookup_isSome,← Finmap.lookup_isSome,← Option.isSome_map
    (f := Member.toRegistration),h.registrations,Option.isSome_map]

/-- The same member is published in both tables. -/
theorem SameTable.publish {s t : Registry} (h : SameTable s t) (r : Registration) (name : String) (lane lane' : ℕ) :
    SameTable (s.publish r name lane) (t.publish r name lane') := by
  refine ⟨fun robot => ?_,?_,?_⟩
  · unfold Registry.publish
    dsimp only
    by_cases own : robot=r.identity.robotId
    · rw [own,Finmap.lookup_insert,Finmap.lookup_insert]
      rfl
    · rw [Finmap.lookup_insert_of_ne _ own,Finmap.lookup_insert_of_ne _ own]
      exact h.registrations robot
  · exact congrArg (Finmap.insert name r.identity.robotId) h.namespaces
  · exact congrArg (· + 1) h.revision

/-- A table has its own registrations. -/
theorem SameTable.refl (s : Registry) : SameTable s s := ⟨fun _ => rfl,rfl,rfl⟩

end Failures

section Runs

end Runs

end Ros1Adapter.MemberFailures
