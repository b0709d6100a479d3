import Ros1Adapter.StatusSplit

/-!
# One pass of a status stream

A pass announces the removals, then each member of the table. What it has to
announce is stated over the selection, the table, and what the stream has
seen. A pass that comes to its end has announced exactly that.
-/

namespace Ros1Adapter.StatusPass

open ActionRules RobotControl StatusFrames StatusSplit

variable {Message : Type} {ch : Channel Message}

section Purpose

/-- A stream forgets a robot that is no longer selected or no longer a member under the announced identity. -/
def forgotten (selection : Selection) (table : Table Message) (robot : String) (identity : MemberIdentity) : Bool :=
  !(selection.wants robot identity) || !(table.holds robot identity)

/-- What a stream has seen of the robots that it does not forget. -/
def keptSeen (selection : Selection) (table : Table Message) :
    List (String × MemberIdentity) → (String → Option (String → ℕ)) → String → Option (String → ℕ)
  | [],seen => seen
  | (robot,identity)::rest,seen =>
    keptSeen selection table rest (if forgotten selection table robot identity then Function.update seen robot none else seen)

/-- The removals that a pass has to announce. -/
def removals (selection : Selection) (table : Table Message) (identities : List (String × MemberIdentity)) :
    List (MemberStatus Message) :=
  (identities.filter fun entry => selection.wants entry.1 entry.2 && !(table.holds entry.1 entry.2)).map fun entry =>
    removalOf entry.2

/-- The announcement of one member: its presence, or its unseen messages in order. -/
structure Announced (selection : Selection) (seen : String → Option (String → ℕ)) (entry : String × Member Message)
    (pieces : List (MemberStatus Message)) : Prop where
  /-- Each piece names the member. -/
  identity : ∀ piece∈pieces, piece.identity=entry.2.identity
  /-- No piece announces a removal. -/
  removed : ∀ piece∈pieces, piece.removed=false
  /-- The pieces carry the unseen messages. -/
  messages : pieces.flatMap MemberStatus.messages=(pending selection seen entry.1 entry.2).map fun update => update.2.2
  /-- There is one piece without messages when presence is to be announced, and otherwise none. -/
  presence : pieces.filter (fun piece => piece.messages.isEmpty)=
    if presence selection seen entry.1 then [⟨entry.2.identity,[],false⟩] else []

/-- The versions of a robot's channels advance exactly for the messages written. -/
structure Advanced (selection : Selection) (seen after : String → Option (String → ℕ)) (entry : String × Member Message) :
    Prop where
  /-- A written channel has the version of its message. -/
  written : ∀ update∈pending selection seen entry.1 entry.2, seenVersion after entry.1 update.1=update.2.1
  /-- Another channel keeps its version. -/
  others : ∀ channel, (∀ update∈pending selection seen entry.1 entry.2, update.1≠channel) →
    seenVersion after entry.1 channel=seenVersion seen entry.1 channel

/-- Everything that a pass has to announce fits a frame. -/
structure Within (ch : Channel Message) (selection : Selection) (table : Table Message) (stream : Stream Message) :
    Prop where
  /-- The removals. -/
  removals : ∀ status∈removals selection table stream.identities, statusBytes ch.wire status+16 ≤ ch.limit
  /-- The members whose presence is announced. -/
  presence : ∀ entry∈table.entries, presence selection (keptSeen selection table stream.identities stream.seen) entry.1 →
    ch.wire.identityBytes entry.2.identity+16 ≤ (ch.limit : ℕ)
  /-- The unseen messages. -/
  messages : ∀ entry∈table.entries,
    ∀ update∈pending selection (keptSeen selection table stream.identities stream.seen) entry.1 entry.2,
      ch.wire.identityBytes entry.2.identity+(ch.wire.messageBytes update.2.2+16)+16 ≤ (ch.limit : ℕ)

/-- What a pass has done when it comes to its end. -/
structure Complete (ch : Channel Message) (selection : Selection) (table : Table Message) (stream : Stream Message)
    (p : Pass Message) : Prop where
  /-- No frame exceeds the limit. -/
  frames : ∀ frame∈p.frames, frameBytes ch.wire frame ≤ ch.limit
  /-- The frames carry the removals and the announcement of each member, once. -/
  carried : ∃ announcements, p.frames.flatten=removals selection table stream.identities ++ announcements.flatten ∧
    List.Forall₂ (Announced selection (keptSeen selection table stream.identities stream.seen)) table.entries announcements
  /-- The versions advance exactly for the messages written. -/
  advanced : ∀ entry∈table.entries,
    Advanced selection (keptSeen selection table stream.identities stream.seen) p.stream.seen entry
  /-- Robots outside the table keep what was seen of them, unless they were forgotten. -/
  others : ∀ robot, (∀ entry∈table.entries, entry.1≠robot) →
    p.stream.seen robot=keptSeen selection table stream.identities stream.seen robot

end Purpose

section Removals

end Removals

section Members

/-- Unseen messages depend on the versions seen of the member. -/
theorem pending_congr (selection : Selection) {seen seen' : String → Option (String → ℕ)} {robot : String}
    (h : ∀ channel, seenVersion seen' robot channel=seenVersion seen robot channel) (member : Member Message) :
    pending selection seen' robot member=pending selection seen robot member := by
  unfold pending
  congr 1
  funext entry
  rw [h]

/-- What a member has to announce depends on what was seen of it. -/
theorem presence_congr (selection : Selection) {seen seen' : String → Option (String → ℕ)} {robot : String}
    (h : seen' robot=seen robot) : presence selection seen' robot=presence selection seen robot := by
  unfold presence
  rw [h]

/-- Versions seen of a robot, as they depend on it. -/
theorem seenVersion_congr {seen seen' : String → Option (String → ℕ)} {robot : String} (h : seen' robot=seen robot)
    (channel : String) : seenVersion seen' robot channel=seenVersion seen robot channel := by
  unfold seenVersion
  rw [h]

/-- The announcement of a member depends on what was seen of it. -/
theorem Announced.congr {selection : Selection} {seen seen' : String → Option (String → ℕ)}
    {entry : String × Member Message} {pieces : List (MemberStatus Message)} (h : seen' entry.1=seen entry.1)
    (announced : Announced selection seen' entry pieces) : Announced selection seen entry pieces := by
  refine ⟨announced.identity,announced.removed,?_,?_⟩
  · rw [← pending_congr selection (seenVersion_congr h) entry.2]
    exact announced.messages
  · rw [← presence_congr selection h]
    exact announced.presence

/-- The versions of a member's channels, before and after, are those of its robot. -/
theorem Advanced.congr {selection : Selection} {seen seen' after after' : String → Option (String → ℕ)}
    {entry : String × Member Message} (h : seen' entry.1=seen entry.1) (h' : after' entry.1=after entry.1)
    (advanced : Advanced selection seen' after entry) : Advanced selection seen after' entry := by
  have same := pending_congr selection (seenVersion_congr h) entry.2
  constructor
  · intro update member
    rw [seenVersion_congr h']
    exact advanced.written update (same ▸ member)
  · intro channel none_
    rw [seenVersion_congr h',← seenVersion_congr h]
    exact advanced.others channel (fun update member => none_ update (same ▸ member))

end Members

section Interrupted

/-- Lengths of fields have three values. -/
local instance lengths : NeZero 3 := ⟨by decide⟩

end Interrupted

end Ros1Adapter.StatusPass
