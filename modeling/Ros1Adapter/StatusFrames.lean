import Mathlib
import Ros1Adapter.ActionRules
import Ros1Adapter.RobotControl

/-!
# Status frames

One pass of a status stream announces removed members, members without
telemetry, and the newest message of each selected channel. The announcements
are packed into frames of limited size: a member's messages are gathered into
an update, and updates are gathered into a frame. Sizes are estimated before
something is added, and what is full is written first.
-/

namespace Ros1Adapter.StatusFrames

open ActionRules RobotControl

variable {Message : Type}

/-- Number of bytes of a variable-length integer. -/
def varintBytes (n : ℕ) : ℕ := if n < 128 then 1 else 1+varintBytes (n/128)
termination_by n

/-- Sizes on the wire. A serialized message stays below two gibibytes, and field numbers take at most two bytes. -/
structure Wire (Message : Type) where
  /-- Size of an identity. -/
  identityBytes : MemberIdentity → Fin (2^31)
  /-- Size of a channel's message. -/
  messageBytes : Message → Fin (2^31)
  /-- Field number of an identity in a member's status. -/
  identityTag : Fin 3
  /-- Field number of a message in a member's status. -/
  messagesTag : Fin 3
  /-- Field of the removal flag. -/
  removedBytes : ℕ
  /-- Field number of a member's status in a frame. -/
  membersTag : Fin 3

/-- What a frame says about one member. -/
structure MemberStatus (Message : Type) where
  /-- The member. -/
  identity : MemberIdentity
  /-- Messages of its channels. -/
  messages : List Message
  /-- Whether the member was removed. -/
  removed : Bool
  deriving DecidableEq

/-- Size of a field that holds a message. -/
def fieldBytes (tag size : ℕ) : ℕ := tag+varintBytes size+size

/-- Size of a member's status. -/
def statusBytes (wire : Wire Message) (status : MemberStatus Message) : ℕ :=
  fieldBytes wire.identityTag (wire.identityBytes status.identity)+
    (status.messages.map fun message => fieldBytes wire.messagesTag (wire.messageBytes message)).sum+
    (if status.removed then wire.removedBytes else 0)

/-- Size of a frame. -/
def frameBytes (wire : Wire Message) (frame : List (MemberStatus Message)) : ℕ :=
  (frame.map fun status => fieldBytes wire.membersTag (statusBytes wire status)).sum

/-- A member as the pass sees it: the newest message of each channel with its version. -/
structure Member (Message : Type) where
  /-- Its identity. -/
  identity : MemberIdentity
  /-- The newest messages by channel. -/
  latest : List (String × ℕ × Message)
  /-- Each channel has one. -/
  unique : (latest.map Prod.fst).Nodup

/-- A member that a client selects. -/
structure SelectedMember where
  /-- Its identity. -/
  identity : MemberIdentity
  /-- The selected channels. -/
  channels : List String
  /-- Each is selected once. -/
  unique : channels.Nodup

/-- What a client selects. -/
inductive Selection where
  /-- Every member with every channel. -/
  | all
  /-- Certain members with certain channels. -/
  | chosen (members : List (String × SelectedMember))

/-- The members of one pass, by robot. -/
structure Table (Message : Type) where
  /-- The members. -/
  entries : List (String × Member Message)
  /-- Each robot is there once. -/
  unique : (entries.map Prod.fst).Nodup

/-- What a stream remembers. -/
structure Stream (Message : Type) where
  /-- The frame that is being filled. -/
  sending : List (MemberStatus Message)
  /-- Version of the last message of each channel, by robot. -/
  seen : String → Option (String → ℕ)
  /-- Identities that were announced or selected, by robot. -/
  identities : List (String × MemberIdentity)

/-- A pass that is under way. -/
structure Pass (Message : Type) where
  /-- The stream. -/
  stream : Stream Message
  /-- Frames handed to the writer. -/
  frames : List (List (MemberStatus Message))

/-- Why a stream ends in a pass. -/
inductive Ended where
  /-- A write failed. -/
  | cancelled
  /-- Something does not fit a frame. -/
  | exceeds (what : String)
  deriving DecidableEq

/-- An operation of a pass. -/
abbrev Passing (Message α : Type) : Type := EStateM Ended (Pass Message) α

/-- The parts of the environment that a pass uses. -/
structure Channel (Message : Type) where
  /-- Sizes. -/
  wire : Wire Message
  /-- Largest frame. -/
  limit : Fin (2^64)
  /-- Whether each write succeeds, in order. -/
  answers : ℕ → Bool

/-- Change the stream. -/
def change (f : Stream Message → Stream Message) : Passing Message Unit := modify fun p => {p with stream := f p.stream}

/-- Write a frame. -/
def write (ch : Channel Message) (frame : List (MemberStatus Message)) : Passing Message Bool := do
  let p ← get
  modify fun p => {p with frames := p.frames ++ [frame]}
  pure (ch.answers p.frames.length)

/-- Write the frame that is being filled, unless it is empty. -/
def flush (ch : Channel Message) : Passing Message Bool := do
  let p ← get
  if p.stream.sending=[] then pure true
  else do
    let success ← write ch p.stream.sending
    change fun s => {s with sending := []}
    pure success

/-- Add a status to the frame; a frame that would be too large is written first. -/
def place (ch : Channel Message) (status : MemberStatus Message) : Passing Message Unit := do
  let p ← get
  if ch.limit < frameBytes ch.wire p.stream.sending+statusBytes ch.wire status+16 then
    let success ← flush ch
    if success=false then throw .cancelled
  change fun s => {s with sending := s.sending ++ [status]}

/-- Whether a client still selects an identity. -/
def Selection.wants (selection : Selection) (robot : String) (identity : MemberIdentity) : Bool :=
  match selection with
  | .all => true
  | .chosen members =>
    match members.lookup robot with
    | some wanted => decide (wanted.identity=identity)
    | none => false

/-- Whether an identity is the one of a current member. -/
def Table.holds (table : Table Message) (robot : String) (identity : MemberIdentity) : Bool :=
  match table.entries.lookup robot with
  | some member => decide (member.identity=identity)
  | none => false

/-- The announcement of a removal. -/
def removalOf (identity : MemberIdentity) : MemberStatus Message := ⟨identity,[],true⟩

/-- Put a value under a key of an ordered map. -/
def putOrdered {α : Type} (key : String) (value : α) : List (String × α) → List (String × α)
  | [] => [(key,value)]
  | (k,v)::rest =>
    if k=key then (key,value)::rest
    else if key < k then (key,value)::(k,v)::rest
    else (k,v)::putOrdered key value rest

/-- The channels of a member that a client selects. -/
def Selection.channels (selection : Selection) (robot : String) : List String :=
  match selection with
  | .all => []
  | .chosen members =>
    match members.lookup robot with
    | some wanted => wanted.channels
    | none => []

/-- The newest messages of the selected channels. -/
def Selection.newest (selection : Selection) (robot : String) (member : Member Message) :
    List (String × ℕ × Message) :=
  match selection with
  | .all => member.latest
  | .chosen _ => (selection.channels robot).filterMap fun channel =>
      (member.latest.lookup channel).map fun found => (channel,found)

/-- The version of a channel's message that a stream has seen; none is version zero. -/
def seenVersion (seen : String → Option (String → ℕ)) (robot channel : String) : ℕ :=
  match seen robot with
  | some versions => versions channel
  | none => 0

/-- The messages that a stream has not seen. -/
def pending (selection : Selection) (seen : String → Option (String → ℕ)) (robot : String) (member : Member Message) :
    List (String × ℕ × Message) :=
  (selection.newest robot member).filter fun entry => seenVersion seen robot entry.1≠entry.2.1

/-- Whether a member is to be announced without messages. -/
def presence (selection : Selection) (seen : String → Option (String → ℕ)) (robot : String) : Bool :=
  match selection with
  | .all => false
  | .chosen _ => (selection.channels robot).isEmpty && (seen robot).isNone

/-- Make sure a robot has seen versions. -/
def touch (seen : String → Option (String → ℕ)) (robot : String) : String → Option (String → ℕ) :=
  match seen robot with
  | some _ => seen
  | none => Function.update seen robot (some fun _ => 0)

/-- Remember the version of a channel's message. -/
def mark (seen : String → Option (String → ℕ)) (robot channel : String) (version : ℕ) : String → Option (String → ℕ) :=
  Function.update seen robot (some (Function.update (seenVersion seen robot) channel version))

/-- Add a member's update to the frame when it says something; the answer is whether presence is still to be announced. -/
def appendUpdate (ch : Channel Message) (identity : MemberIdentity) (update : List Message) (present : Bool) :
    Passing Message Bool :=
  if update=[] ∧ present=false then pure present
  else do
    place ch ⟨identity,update,false⟩
    pure false

/-- Gather a member's messages; an update that would be too large is written first. -/
def gather (ch : Channel Message) (robot : String) (identity : MemberIdentity) :
    List Message → Bool → List (String × ℕ × Message) → Passing Message (List Message × Bool)
  | update,present,[] => pure (update,present)
  | update,present,(channel,version,message)::rest => do
    let channelBytes : ℕ := (ch.wire.messageBytes message : ℕ)+16
    if (ch.limit : ℕ) < ch.wire.identityBytes identity+channelBytes+16 then
      throw (.exceeds "native state exceeds response policy")
    let current ← if (ch.limit : ℕ) < statusBytes ch.wire ⟨identity,update,false⟩+channelBytes+16 then do
        let present ← appendUpdate ch identity update present
        let success ← flush ch
        if success=false then throw .cancelled
        pure (([] : List Message),present)
      else pure (update,present)
    change fun s => {s with seen := mark s.seen robot channel version}
    gather ch robot identity (current.1 ++ [message]) current.2 rest

/-- Announce what is new about one member. -/
def announce (ch : Channel Message) (selection : Selection) (robot : String) (member : Member Message) :
    Passing Message Unit := do
  change fun s => {s with identities := putOrdered robot member.identity s.identities}
  let p ← get
  let present := presence selection p.stream.seen robot
  if present then
    if (ch.limit : ℕ) < ch.wire.identityBytes member.identity+16 then
      throw (.exceeds "member identity exceeds response policy")
    change fun s => {s with seen := touch s.seen robot}
  let q ← get
  let updates := pending selection q.stream.seen robot member
  if selection.newest robot member≠[] then change fun s => {s with seen := touch s.seen robot}
  let last ← gather ch robot member.identity [] present updates
  let _ ← appendUpdate ch member.identity last.1 last.2

end Ros1Adapter.StatusFrames
