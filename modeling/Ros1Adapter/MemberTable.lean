import Ros1Adapter.ActionRules
import Ros1Adapter.RobotControl
import Mathlib.Data.Finmap

/-!
# The member table

One thread registers and removes robots in batches. It keeps the members by
robot, the robots by namespace, and a revision that others compare. A native
robot is constructed between the look into the table and the publication, and
what happens there comes from outside. An exception that escapes an entry ends
the batch and the thread.
-/

namespace Ros1Adapter.MemberTable

open ActionRules
open RobotControl (MemberIdentity validIdentity kMaximumRobots)

/-- Largest number of channels of one robot. -/
def kMaximumChannelsPerRobot : ℕ := 32

/-- What a robot is registered with. -/
structure RobotResource where
  /-- Robot. -/
  robotId : String
  /-- Profile. -/
  profileId : String
  /-- Digest of the profile. -/
  profileDigest : String
  /-- Parameters by name. -/
  parameters : Finmap fun _ : String => String
  /-- Channels and whether they are enabled. -/
  channels : List (String × Bool)
  deriving DecidableEq

/-- An entry of a registration batch. -/
structure Registration where
  /-- Member. -/
  identity : MemberIdentity
  /-- Configuration. -/
  configuration : RobotResource
  deriving DecidableEq

/-- A member of the table. -/
structure Member extends Registration where
  /-- Lane that runs its callbacks. -/
  lane : ℕ
  deriving DecidableEq

/-- What the thread keeps. -/
structure Registry where
  /-- Members by robot. -/
  members : Finmap fun _ : String => Member
  /-- Robots by namespace. -/
  namespaces : Finmap fun _ : String => String
  /-- Revision of the table, a number of 64 bits. -/
  membersRevision : Fin (2^64)
  /-- Lane of the next member, before the division by the number of lanes. -/
  nextLane : Fin (2^64)
  deriving DecidableEq

/-- Options of the process. -/
structure Options where
  /-- Target. -/
  targetId : String
  /-- Run. -/
  runId : String
  /-- Master of the process. -/
  rosMasterUri : String
  /-- Address of the host. -/
  rosIp : String
  /-- Number of lanes. -/
  lanes : ℕ

/-- Classes of errors. -/
inductive ErrorClass where
  /-- The entry is wrong. -/
  | rejected
  /-- The table is full. -/
  | resourceExhausted
  /-- The effect is unknown. -/
  | uncertain
  /-- The work was cancelled. -/
  | cancelled
  deriving DecidableEq

/-- An error of an entry. -/
structure ItemError where
  /-- Class. -/
  errorClass : ErrorClass
  /-- Code. -/
  code : String
  /-- Message. -/
  message : String
  deriving DecidableEq

/-- The answer to an entry. -/
structure Item where
  /-- Member. -/
  identity : MemberIdentity
  /-- Error, if there is one. -/
  error : Option ItemError
  deriving DecidableEq

/-- What escapes a batch. -/
inductive Interruption where
  /-- A status source of a new member. -/
  | statusDemand
  /-- The fence or the stop of a removed member. -/
  | stop
  /-- The publications were not flushed. -/
  | flush
  /-- A member has no namespace. -/
  | noNamespace
  deriving DecidableEq

/-- How the construction of a native robot ends. -/
inductive Construction where
  /-- The factory returns, with or without a robot, with an error text, after a budget of master calls; a robot that is not
  wanted is stopped, which may throw. -/
  | returned (native : Bool) (error : String) (budgetFailed stopThrows : Bool)
  /-- Something throws an exception with a text, or something else. -/
  | threw (what : Option String)
  deriving DecidableEq

/-- What happens outside the table while an entry is registered. -/
structure Attempt where
  /-- Whether the work is cancelled, or the server is shut down or not ready, at the start. -/
  cancelled : Bool
  /-- Construction of the native robot. -/
  construction : Construction
  /-- Whether the server is ready at the publication. -/
  ready : Bool
  /-- Whether the status demand of the new member throws. -/
  demandThrows : Bool
  deriving DecidableEq

section Checks

/-- Whether a parameter names another environment than that of the process. -/
def crosses (r : Registration) (name value : String) : Bool :=
  match r.configuration.parameters.lookup name with
  | some other => other≠"" && other≠value
  | none => false

/-- Check an entry before the table is read; the result is the namespace. -/
def checked (options : Options) (cancelled : Bool) (r : Registration) : Except String String :=
  if cancelled then .error "member registration cancelled"
  else if !validIdentity r.identity || r.identity.targetId≠options.targetId || r.configuration.robotId≠r.identity.robotId then
    .error "invalid or cross-target member identity"
  else if r.identity.runId≠options.runId then .error "member belongs to another Run"
  else if kMaximumChannelsPerRobot < r.configuration.channels.length then .error "native channel limit exceeded"
  else
    match r.configuration.parameters.lookup "namespace" with
    | none => .error "native namespace required"
    | some space =>
      if space="" then .error "native namespace required"
      else if crosses r "ros_master_uri" options.rosMasterUri || crosses r "ros_ip" options.rosIp then
        .error "member crosses server ROS environment"
      else .ok space

/-- The error text that a construction leaves, if it leaves one. -/
def Construction.error : Construction → Option String
  | .returned native error budgetFailed _ =>
    if error≠"" then some error
    else if budgetFailed then some "ROS master registration did not complete"
    else if !native then some "native resource creation failed"
    else none
  | .threw (some what) => some ("native resource creation interrupted: "++what)
  | .threw none => some "native resource creation interrupted by an unknown exception"

/-- The class of that error. -/
def Construction.errorClass : Construction → ErrorClass
  | .returned native _ _ stopThrows => if native && stopThrows then .uncertain else .rejected
  | .threw _ => .uncertain

end Checks

section Batches

/-- An operation of the registration thread. -/
abbrev Registering (α : Type) : Type := EStateM Interruption Registry α

/-- An answer with an error. -/
def refuse (identity : MemberIdentity) (errorClass : ErrorClass) (code message : String) : Registering Item :=
  pure ⟨identity,some ⟨errorClass,code,message⟩⟩

/-- Put a member into the table. -/
def Registry.publish (r : Registration) (space : String) (lane : ℕ) (s : Registry) : Registry :=
  {s with
    members := s.members.insert r.identity.robotId ⟨r,lane⟩
    namespaces := s.namespaces.insert space r.identity.robotId
    membersRevision := s.membersRevision+1}

/-- Construct a member whose place in the table is free, and publish it. -/
def construct (options : Options) (r : Registration) (space : String) (attempt : Attempt) : Registering Item := do
  let s ← get
  modify fun s => {s with nextLane := s.nextLane+1}
  match attempt.construction.error with
  | some message => refuse r.identity attempt.construction.errorClass "member-registration-failed" message
  | none =>
    if attempt.ready=false then
      refuse r.identity .rejected "member-registration-failed" "member registration cancelled"
    else do
      modify (Registry.publish r space (s.nextLane%options.lanes))
      if attempt.demandThrows then throw .statusDemand
      pure ⟨r.identity,none⟩

/-- Register one robot. -/
def applyEntry (options : Options) (entry : Registration × Attempt) : Registering Item :=
  match checked options entry.2.cancelled entry.1 with
  | .error message => refuse entry.1.identity .rejected "member-registration-failed" message
  | .ok space => do
    let s ← get
    match s.members.lookup entry.1.identity.robotId with
    | some existing =>
      if existing.identity.connectionEpoch≠entry.1.identity.connectionEpoch then
        refuse entry.1.identity .rejected "member-epoch-conflict" "active member connection epoch conflicts"
      else if existing.configuration≠entry.1.configuration then
        refuse entry.1.identity .rejected "member-configuration-conflict"
          "member is registered with another configuration; remove it first"
      else pure ⟨entry.1.identity,none⟩
    | none =>
      match s.namespaces.lookup space with
      | some owner =>
        refuse entry.1.identity .rejected "namespace-conflict" ("ROS namespace is used by robot "++owner)
      | none =>
        if kMaximumRobots ≤ s.members.keys.card then
          refuse entry.1.identity .resourceExhausted "member-registration-failed" "native robot table capacity exhausted"
        else construct options entry.1 space entry.2

/-- Register a batch. -/
def apply (options : Options) : List (Registration × Attempt) → Registering (List Item)
  | [] => pure []
  | entry::rest => do
    let item ← applyEntry options entry
    let items ← apply options rest
    pure (item::items)

/-- What happens outside the table while an entry is removed. -/
structure Release where
  /-- Whether the work is cancelled. -/
  cancelled : Bool
  /-- Whether the fence or the stop of the member throws. -/
  stopThrows : Bool
  deriving DecidableEq

/-- Take a member out of the table. -/
def Registry.release (robot space : String) (s : Registry) : Registry :=
  {s with
    members := s.members.erase robot
    namespaces := s.namespaces.erase space
    membersRevision := s.membersRevision+1}

/-- Remove one robot; the answer says whether a member was stopped. -/
def removeEntry (entry : MemberIdentity × Release) : Registering (Item × Bool) := do
  if entry.2.cancelled then
    let item ← refuse entry.1 .cancelled "member-removal-cancelled" ""
    pure (item,false)
  else
    let s ← get
    match s.members.lookup entry.1.robotId with
    | none => pure (⟨entry.1,none⟩,false)
    | some found =>
      if found.identity.runId≠entry.1.runId then pure (⟨entry.1,none⟩,false)
      else if found.identity.targetId≠entry.1.targetId then do
        let item ← refuse entry.1 .rejected "member-target-conflict" ""
        pure (item,false)
      else if found.identity.connectionEpoch≠entry.1.connectionEpoch then do
        let item ← refuse entry.1 .rejected "member-epoch-conflict" ""
        pure (item,false)
      else
        match found.configuration.parameters.lookup "namespace" with
        | none => throw .noNamespace
        | some space => do
          modify (Registry.release entry.1.robotId space)
          if entry.2.stopThrows then throw .stop
          pure (⟨entry.1,none⟩,true)

/-- Remove the robots of a batch. -/
def removeAll : List (MemberIdentity × Release) → Registering (List (Item × Bool))
  | [] => pure []
  | entry::rest => do
    let item ← removeEntry entry
    let items ← removeAll rest
    pure (item::items)

/-- Remove a batch; publications are flushed when a member was stopped. -/
def remove (entries : List (MemberIdentity × Release)) (flushed : Bool) : Registering (List Item) := do
  let items ← removeAll entries
  if items.any Prod.snd && !flushed then throw .flush
  pure (items.map Prod.fst)

/-- Take every member out of the table. -/
def closeAllMembers (s : Registry) : Registry :=
  {s with
    members := ∅
    namespaces := ∅
    membersRevision := s.membersRevision+1}

/-- A job of the registration thread. -/
inductive Batch where
  /-- Register robots. -/
  | apply (entries : List (Registration × Attempt))
  /-- Remove robots; publications may be flushed in time. -/
  | remove (entries : List (MemberIdentity × Release)) (flushed : Bool)
  /-- Remove all robots of a draining server. -/
  | closeAll

/-- The registration thread. -/
structure Registrar where
  /-- What it keeps. -/
  registry : Registry
  /-- Whether it still runs. -/
  alive : Bool

/-- Take over the result of a job; an exception ends the thread. -/
def Registrar.after {α : Type} (result : EStateM.Result Interruption Registry α) : Registrar :=
  match result with
  | .ok _ s => ⟨s,true⟩
  | .error _ s => ⟨s,false⟩

/-- Run a job. -/
def Registrar.step (options : Options) (batch : Batch) (t : Registrar) : Registrar :=
  if t.alive=false then t
  else
    match batch with
    | .apply entries => .after (MemberTable.apply options entries t.registry)
    | .remove entries flushed => .after (MemberTable.remove entries flushed t.registry)
    | .closeAll => ⟨closeAllMembers t.registry,true⟩

/-- The thread at the start. -/
def Registrar.start : Registrar := ⟨⟨∅,∅,0,0⟩,true⟩

end Batches

end Ros1Adapter.MemberTable
