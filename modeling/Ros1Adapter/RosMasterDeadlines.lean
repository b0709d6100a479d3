import Mathlib.Data.List.Basic
import Mathlib.Order.Lattice
import Ros1Adapter.AsyncRosServices

/-!
# Deadlines of ROS master calls

A scope on a thread bounds the calls to the ROS master that are made while it is
open. It saves three variables of the thread and puts them back when it closes,
so scopes nest. What the clock reads and what a call gets back is an input.
-/

namespace Ros1Adapter.RosMasterDeadlines

open AsyncRosServices LittleEndian

section Scopes

/-- Reading of the steady clock in nanoseconds, which is past its epoch. -/
structure TimePoint where
  /-- Nanoseconds since the epoch. -/
  ns : ℕ
  /-- The epoch stands for no deadline. -/
  positive : 0<ns

/-- Variables of a thread. -/
structure ThreadState where
  /-- Deadline, where it is not zero. -/
  masterDeadline : ℕ
  /-- Whether a call failed. -/
  masterFailed : Bool
  /-- Whether a scope is open. -/
  masterScopeActive : Bool
  deriving DecidableEq

/-- Variables of a thread that starts. -/
def ThreadState.start : ThreadState := ⟨0,false,false⟩

/-- What a scope saves. -/
structure RosMasterDeadline where
  /-- Deadline before. -/
  previous : ℕ
  /-- Failure before. -/
  previousFailed : Bool
  /-- Activity before. -/
  previousActive : Bool
  deriving DecidableEq

/-- Deadline of a budget in milliseconds. -/
def budgetEnd (now : TimePoint) (budget : ℕ) : ℕ := now.ns+budget*1000000

/-- Open a scope. -/
def RosMasterDeadline.construct (now : TimePoint) (budget : Option ℕ) (t : ThreadState) : RosMasterDeadline × ThreadState :=
  let deadline :=
    match budget with
    | none => t.masterDeadline
    | some budget => if t.masterDeadline≠0 then min (budgetEnd now budget) t.masterDeadline else budgetEnd now budget
  (⟨t.masterDeadline,t.masterFailed,t.masterScopeActive⟩,⟨deadline,false,true⟩)

/-- Close a scope. -/
def RosMasterDeadline.destruct (scope : RosMasterDeadline) (t : ThreadState) : ThreadState :=
  ⟨scope.previous,scope.previousFailed || (scope.previousActive && t.masterFailed),scope.previousActive⟩

end Scopes

section Calls

/-- A value of XML-RPC. -/
inductive XmlRpcValue where
  | int (value : ℤ)
  | array (items : List XmlRpcValue)
  | other

/-- A call to the master. -/
structure MasterCall where
  /-- Method. -/
  method : String
  /-- XML texts of the parameters. -/
  params : List String
  /-- Clock as the deadline is set. -/
  started : TimePoint
  /-- Clock as the deadline is checked. -/
  checked : TimePoint
  /-- What the call gets back if it is sent. -/
  result : Result

/-- Calls that take back a registration. -/
def MasterCall.cleanup (call : MasterCall) : Bool :=
  call.method=="unregisterPublisher" || call.method=="unregisterSubscriber" || call.method=="unregisterService" ||
    call.method=="unsubscribeParam"

/-- Text of a request. -/
def MasterCall.masterXml (call : MasterCall) : String :=
  "<?xml version=\"1.0\"?><methodCall><methodName>" ++ call.method ++ "</methodName><params>" ++
    call.params.foldl (fun text param => text ++ ("<param>" ++ param ++ "</param>")) "" ++ "</params></methodCall>"

/-- What a call comes to. -/
inductive Answer where
  /-- It is given up for a failure before it. -/
  | aborted
  /-- Its deadline is over. -/
  | expired (deadline : ℕ)
  /-- It is sent. -/
  | sent (deadline : ℕ) (masterXml : String) (responsive : Bool) (payload : Option XmlRpcValue)

/-- Deadline that is applied to a call. -/
def Answer.deadline : Answer → Option ℕ
  | .aborted => none
  | .expired deadline => some deadline
  | .sent deadline _ _ _ => some deadline

/-- Whether a result is an answer of the master, and the payload of a success. -/
def readAnswer (fromXml : Bytes → ℕ → Option XmlRpcValue) (result : Result) : Bool × Option XmlRpcValue :=
  if result.outcome≠.response then (false,none)
  else
    match find (ofText "<value>") result.response with
    | none => (false,none)
    | some start =>
      match fromXml result.response start with
      | some (.array [.int code,_,payload]) => (true,if code=1 then some payload else none)
      | _ => (false,none)

/-- Three seconds of a call on its own. -/
def MasterCall.ownEnd (call : MasterCall) : ℕ := call.started.ns+3000000000

/-- Deadline of a call on a thread. -/
def MasterCall.applied (call : MasterCall) (t : ThreadState) : ℕ :=
  if t.masterDeadline≠0 then min call.ownEnd t.masterDeadline else call.ownEnd

/-- Make a call. -/
def execute (fromXml : Bytes → ℕ → Option XmlRpcValue) (call : MasterCall) (t : ThreadState) : Answer × ThreadState :=
  if t.masterScopeActive && t.masterFailed && !call.cleanup then (.aborted,t)
  else
    let deadline := call.applied t
    if deadline ≤ call.checked.ns then (.expired deadline,{ t with masterFailed := true })
    else
      let answer := readAnswer fromXml call.result
      (.sent deadline call.masterXml answer.1 answer.2,{ t with masterFailed := t.masterFailed || !answer.1 })

end Calls

section Runs

/-- What a thread does. -/
inductive Event where
  | construct (now : TimePoint) (budget : Option ℕ)
  | destruct
  | execute (call : MasterCall)

/-- A thread with its open scopes, the innermost first. -/
structure State where
  /-- Variables. -/
  thread : ThreadState
  /-- Open scopes. -/
  scopes : List RosMasterDeadline

/-- A thread that starts. -/
def State.start : State := ⟨.start,[]⟩

variable (fromXml : Bytes → ℕ → Option XmlRpcValue)

/-- One step and what its call comes to; a scope closes after it was opened. -/
def step (s : State) : Event → Option (State × List Answer)
  | .construct now budget =>
    let opened := RosMasterDeadline.construct now budget s.thread
    some (⟨opened.2,opened.1::s.scopes⟩,[])
  | .destruct =>
    match s.scopes with
    | [] => none
    | scope::scopes => some (⟨scope.destruct s.thread,scopes⟩,[])
  | .execute call =>
    let executed := execute fromXml call s.thread
    some (⟨executed.2,s.scopes⟩,[executed.1])

/-- Steps and what their calls come to. -/
def run : State → List Event → Option (State × List Answer)
  | s,[] => some (s,[])
  | s,event::rest => do
    let (s,answers) ← step fromXml s event
    let (s,more) ← run s rest
    return (s,answers ++ more)

end Runs

section Nesting

variable {fromXml : Bytes → ℕ → Option XmlRpcValue}

/-- Saved variables belong to the open scopes: each holds the deadline and the
activity of the scopes around it. -/
def Saved : ℕ → Bool → List RosMasterDeadline → List (Option ℕ) → Prop
  | deadline,active,[],[] => deadline=0 ∧ active=false
  | deadline,active,scope::scopes,own::opens =>
    active=true ∧ (∀ d∈own, 0<d) ∧
      deadline=(match own with
        | none => scope.previous
        | some d => if scope.previous≠0 then min d scope.previous else d) ∧
      Saved scope.previous scope.previousActive scopes opens
  | _,_,_,_ => False

/-- The deadline of a thread bounds a limit as the deadlines of its open scopes do. -/
theorem Saved.limit {deadline : ℕ} {active : Bool} {scopes : List RosMasterDeadline} {opens : List (Option ℕ)}
    (h : Saved deadline active scopes opens) (limit : ℕ) :
    (if deadline≠0 then min limit deadline else limit)=(opens.filterMap id).foldr min limit := by
  induction scopes generalizing deadline active opens with
  | nil =>
    cases opens with
    | nil =>
      rw [h.1]
      rfl
    | cons own opens => exact h.elim
  | cons scope scopes ih =>
    cases opens with
    | nil => exact h.elim
    | cons own opens =>
      obtain ⟨_,hown,hdeadline,hsaved⟩ := h
      have hrest := ih hsaved
      cases own with
      | none =>
        rw [hdeadline]
        exact hrest
      | some d =>
        have hd := hown d rfl
        rw [List.filterMap_cons_some (by rfl),List.foldr_cons,←hrest,hdeadline]
        simp only
        by_cases hprevious : scope.previous=0
        · rw [if_neg (not_not.mpr hprevious),if_neg (not_not.mpr hprevious),if_pos hd.ne',min_comm]
        · have hboth : min d scope.previous≠0 := (lt_min hd (Nat.pos_of_ne_zero hprevious)).ne'
          rw [if_pos hprevious,if_pos hprevious,if_pos hboth,min_left_comm]

/-- Steps after a step. -/
theorem run_cons {s s' : State} {event : Event} {answers : List Answer} (h : step fromXml s event=some (s',answers))
    (rest : List Event) : run fromXml s (event::rest)=(run fromXml s' rest).map (fun last => (last.1,answers ++ last.2)) := by
  rw [run,h]
  cases hrest : run fromXml s' rest with
  | none => simp only [Option.bind_eq_bind,Option.bind_some,hrest,Option.bind_none,Option.map_none]
  | some last =>
    simp only [Option.bind_eq_bind,Option.bind_some,hrest,Option.map_some]
    rfl

/-- Steps after steps. -/
theorem run_append (events : List Event) {s s' : State} {answers : List Answer} (h : run fromXml s events=some (s',answers))
    (more : List Event) : run fromXml s (events ++ more)=(run fromXml s' more).map (fun last => (last.1,answers ++ last.2)) := by
  induction events generalizing s answers with
  | nil =>
    cases h
    exact Option.map_id'.symm
  | cons event rest ih =>
    unfold run at h
    obtain ⟨⟨middle,first⟩,hstep,h⟩ := Option.bind_eq_some_iff.mp h
    obtain ⟨⟨last,others⟩,hrest,hlast⟩ := Option.bind_eq_some_iff.mp h
    cases hlast
    rw [List.cons_append,run_cons hstep,ih hrest,Option.map_map]
    congr 1
    funext last
    exact Prod.ext rfl (List.append_assoc first others last.2).symm

end Nesting

end Ros1Adapter.RosMasterDeadlines
