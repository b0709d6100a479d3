import Ros1Adapter.MemberTable
import Mathlib.Data.Fintype.Card

/-!
# Batches keep the member table consistent

Whatever batches are registered and removed, the namespaces are exactly those
of the members, the table stays within its capacity, and the revision tells
whether the table changed. Each entry has one of two effects, and what each
entry keeps, a batch keeps.
-/

namespace Ros1Adapter.MemberBatches

open ActionRules MemberTable
open RobotControl (MemberIdentity kMaximumRobots)

section Invariant

/-- Namespace of a member. -/
def space (r : Registration) : Option String := r.configuration.parameters.lookup "namespace"

/-- The table and the namespaces agree. -/
structure Consistent (s : Registry) : Prop where
  /-- The namespaces are those of the members. -/
  owners : ∀ name robot, s.namespaces.lookup name=some robot ↔
    ∃ m, s.members.lookup robot=some m ∧ space m.toRegistration=some name
  /-- The table stays within its capacity. -/
  bounded : s.members.keys.card ≤ kMaximumRobots

/-- The members passed the checks, and are found under their own names. -/
structure Admitted (options : Options) (s : Registry) : Prop where
  /-- A member is found under its name. -/
  named : ∀ robot m, s.members.lookup robot=some m → m.identity.robotId=robot
  /-- A member passed the checks. -/
  passed : ∀ robot m, s.members.lookup robot=some m → ∃ name, checked options false m.toRegistration=.ok name

/-- Two members never share a namespace. -/
theorem Consistent.apart {s : Registry} (h : Consistent s) {robot robot' : String} {m m' : Member} {name : String}
    (found : s.members.lookup robot=some m) (found' : s.members.lookup robot'=some m')
    (same : space m.toRegistration=some name) (same' : space m'.toRegistration=some name) : robot=robot' := by
  have first := (h.owners name robot).mpr ⟨m,found,same⟩
  have second := (h.owners name robot').mpr ⟨m',found',same'⟩
  exact Option.some.inj (first.symm.trans second)

/-- What passes the checks has its namespace, and passes them again as long as the work is not cancelled. -/
theorem checked_ok {options : Options} {cancelled : Bool} {r : Registration} {name : String}
    (h : checked options cancelled r=.ok name) : space r=some name ∧ checked options false r=.ok name := by
  unfold checked at h ⊢
  split at h
  · exact absurd h nofun
  · rw [if_neg Bool.false_ne_true]
    refine ⟨?_,h⟩
    unfold space
    repeat (split at h; exact absurd h nofun)
    · next found _ _ =>
      rw [found,Except.ok.inj h]

/-- Keys after an insertion. -/
theorem card_insert {α : Type} (s : Finmap fun _ : String => α) {key : String} (value : α) (h : s.lookup key=none) :
    (s.insert key value).keys.card=s.keys.card+1 := by
  have absent : key∉s.keys := fun member => Finmap.lookup_eq_none.mp h (Finmap.mem_keys.mp member)
  have keys : (s.insert key value).keys=insert key s.keys := by
    ext other
    rw [Finmap.mem_keys,Finmap.mem_insert,Finset.mem_insert,Finmap.mem_keys]
  rw [keys,Finset.card_insert_of_notMem absent]

/-- Keys after a removal. -/
theorem card_erase {α : Type} (s : Finmap fun _ : String => α) {key : String} {value : α} (h : s.lookup key=some value) :
    s.keys.card=(s.erase key).keys.card+1 := by
  have present : key∈s.keys := Finmap.mem_keys.mpr (Finmap.mem_of_lookup_eq_some h)
  rw [Finmap.keys_erase,Finset.card_erase_add_one present]

/-- Publishing a member whose robot and namespace are free keeps the table consistent. -/
theorem publish_consistent {s : Registry} (h : Consistent s) {r : Registration} {name : String} (lane : ℕ)
    (named : space r=some name) (robot : s.members.lookup r.identity.robotId=none)
    (free : s.namespaces.lookup name=none) (room : s.members.keys.card < kMaximumRobots) :
    Consistent (s.publish r name lane) := by
  constructor
  · intro other owner
    unfold Registry.publish
    dsimp only
    by_cases own : owner=r.identity.robotId
    · rw [own,Finmap.lookup_insert]
      by_cases same : other=name
      · rw [same,Finmap.lookup_insert]
        exact ⟨fun _ => ⟨_,rfl,named⟩,fun _ => rfl⟩
      · rw [Finmap.lookup_insert_of_ne _ same]
        constructor
        · intro before
          have ⟨m,found,_⟩ := (h.owners other r.identity.robotId).mp before
          rw [robot] at found
          exact absurd found nofun
        · rintro ⟨m,found,spaced⟩
          rw [← Option.some.inj found] at spaced
          exact absurd (Option.some.inj (spaced.symm.trans named)) same
    · rw [Finmap.lookup_insert_of_ne _ own]
      by_cases same : other=name
      · rw [same,Finmap.lookup_insert]
        constructor
        · intro new
          exact absurd (Option.some.inj new).symm own
        · intro before
          have taken := (h.owners name owner).mpr before
          rw [free] at taken
          exact absurd taken nofun
      · rw [Finmap.lookup_insert_of_ne _ same]
        exact h.owners other owner
  · unfold Registry.publish
    dsimp only
    rw [card_insert _ _ robot]
    exact room

/-- Taking a member out with its namespace keeps the table consistent. -/
theorem release_consistent {s : Registry} (h : Consistent s) {robot name : String} {m : Member}
    (found : s.members.lookup robot=some m) (named : space m.toRegistration=some name) :
    Consistent (s.release robot name) := by
  have owner := (h.owners name robot).mpr ⟨m,found,named⟩
  constructor
  · intro other who
    unfold Registry.release
    dsimp only
    by_cases own : who=robot
    · rw [own,Finmap.lookup_erase]
      by_cases same : other=name
      · rw [same,Finmap.lookup_erase]
        exact ⟨nofun,fun ⟨_,none_,_⟩ => absurd none_ nofun⟩
      · rw [Finmap.lookup_erase_ne same]
        constructor
        · intro before
          have ⟨m',found',named'⟩ := (h.owners other robot).mp before
          rw [← Option.some.inj (found.symm.trans found')] at named'
          exact absurd (Option.some.inj (named'.symm.trans named)) same
        · exact fun ⟨_,none_,_⟩ => absurd none_ nofun
    · rw [Finmap.lookup_erase_ne own]
      by_cases same : other=name
      · rw [same,Finmap.lookup_erase]
        constructor
        · nofun
        · intro before
          have taken := (h.owners name who).mpr before
          exact absurd (Option.some.inj (taken.symm.trans owner)) own
      · rw [Finmap.lookup_erase_ne same]
        exact h.owners other who
  · have fewer := card_erase s.members found
    have bound := h.bounded
    unfold Registry.release
    dsimp only
    omega

end Invariant

section Entries

/-- What registering an entry does to the table: a lane may be used up, or the member is published at a free place. -/
def ApplyEffect (options : Options) (r : Registration) (s t : Registry) : Prop :=
  (∃ n, t={s with nextLane := n}) ∨
    ∃ name lane n, checked options false r=.ok name ∧ s.members.lookup r.identity.robotId=none ∧
      s.namespaces.lookup name=none ∧ s.members.keys.card < kMaximumRobots ∧
      t=({s with nextLane := n} : Registry).publish r name lane

/-- What removing an entry does to the table: nothing, or a member is taken out with its namespace. -/
def RemoveEffect (identity : MemberIdentity) (s t : Registry) : Prop :=
  t=s ∨ ∃ m name, s.members.lookup identity.robotId=some m ∧ space m.toRegistration=some name ∧
    t=s.release identity.robotId name

end Entries

section Steps

/-- What holds of the table at any time. -/
def Valid (options : Options) (s : Registry) : Prop := Consistent s ∧ Admitted options s

/-- Registrations keep the table valid. -/
theorem ApplyEffect.valid {options : Options} {r : Registration} {s t : Registry} (effect : ApplyEffect options r s t)
    (h : Valid options s) : Valid options t := by
  rcases effect with ⟨n,same⟩ | ⟨name,lane,n,passed,robot,free,room,published⟩
  · rw [same]
    exact ⟨⟨h.1.owners,h.1.bounded⟩,⟨h.2.named,h.2.passed⟩⟩
  · rw [published]
    have before : Consistent ({s with nextLane := n} : Registry) := ⟨h.1.owners,h.1.bounded⟩
    refine ⟨publish_consistent before lane (checked_ok passed).1 robot free room,?_,?_⟩
    · intro other m found
      by_cases own : other=r.identity.robotId
      · rw [own] at found ⊢
        have new : some _=some m := (Finmap.lookup_insert s.members).symm.trans found
        rw [← Option.some.inj new]
      · exact h.2.named other m ((Finmap.lookup_insert_of_ne s.members own).symm.trans found)
    · intro other m found
      by_cases own : other=r.identity.robotId
      · rw [own] at found
        have new : some _=some m := (Finmap.lookup_insert s.members).symm.trans found
        rw [← Option.some.inj new]
        exact ⟨name,passed⟩
      · exact h.2.passed other m ((Finmap.lookup_insert_of_ne s.members own).symm.trans found)

/-- Removals keep the table valid. -/
theorem RemoveEffect.valid {options : Options} {identity : MemberIdentity} {s t : Registry}
    (effect : RemoveEffect identity s t) (h : Valid options s) : Valid options t := by
  rcases effect with same | ⟨m,name,found,named,released⟩
  · rw [same]
    exact h
  · rw [released]
    have kept : ∀ other m', (s.release identity.robotId name).members.lookup other=some m' →
        s.members.lookup other=some m' := by
      intro other m' found'
      have found' : (s.members.erase identity.robotId).lookup other=some m' := found'
      have different : other≠identity.robotId := by
        intro own
        rw [own,Finmap.lookup_erase] at found'
        exact absurd found' nofun
      rwa [Finmap.lookup_erase_ne different] at found'
    refine ⟨release_consistent h.1 found named,?_,?_⟩
    · exact fun other m' found' => h.2.named other m' (kept other m' found')
    · exact fun other m' found' => h.2.passed other m' (kept other m' found')

/-- The revision moved on by the number of members that came or went. -/
def Moved (fewer more : Registry) (before after : Registry) : Prop :=
  ∃ k : ℕ, after.membersRevision.val=(before.membersRevision.val+k)%2^64 ∧
    more.members.keys.card=fewer.members.keys.card+k ∧ (k=0 → after.members=before.members)

/-- Within the capacity, the revision tells whether the table changed. -/
theorem Moved.revision {fewer more before after : Registry} (h : Moved fewer more before after)
    (bound : more.members.keys.card ≤ kMaximumRobots)
    (size : after.members=before.members → fewer.members.keys.card=more.members.keys.card) :
    after.membersRevision≠before.membersRevision ↔ after.members≠before.members := by
  obtain ⟨k,moved,count,still⟩ := h
  have small : k ≤ 256 := by
    unfold kMaximumRobots at bound
    omega
  have stays : after.membersRevision=before.membersRevision ↔ k=0 := by
    have low := before.membersRevision.isLt
    rw [Fin.ext_iff,moved]
    omega
  have same : after.members=before.members ↔ k=0 := by
    constructor
    · intro equal
      have := size equal
      omega
    · exact still
  exact not_congr (stays.trans same.symm)

/-- Registrations add members. -/
theorem ApplyEffect.moved {options : Options} {r : Registration} {s t : Registry} (effect : ApplyEffect options r s t) :
    Moved s t s t := by
  rcases effect with ⟨n,same⟩ | ⟨name,lane,n,_,robot,_,_,published⟩
  · rw [same]
    have low := s.membersRevision.isLt
    refine ⟨0,?_,rfl,fun _ => rfl⟩
    show s.membersRevision.val=_
    omega
  · rw [published]
    refine ⟨1,?_,card_insert s.members _ robot,nofun⟩
    exact Fin.val_add _ _

/-- Removals take members out. -/
theorem RemoveEffect.moved {identity : MemberIdentity} {s t : Registry} (effect : RemoveEffect identity s t) :
    Moved t s s t := by
  rcases effect with same | ⟨m,name,found,_,released⟩
  · rw [same]
    have low := s.membersRevision.isLt
    refine ⟨0,?_,rfl,fun _ => rfl⟩
    omega
  · rw [released]
    refine ⟨1,?_,card_erase s.members found,nofun⟩
    exact Fin.val_add _ _

end Steps

end Ros1Adapter.MemberBatches
