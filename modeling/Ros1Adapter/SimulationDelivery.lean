import Ros1Adapter.SimulationClient

/-!
# Delivery of scene applications

A scene application is a mutation of the world host, so the worker must not
repeat one that was delivered or whose outcome is unknown. It decides this
from the delivery class of the call that failed last. That call may also be a
wait, a read of a retained result or a later discovery, whose own class says
nothing about the application. When only the application itself is reported
as never sent and the worker does not come back to a key that it had left,
every run applies each key once.
-/

namespace Ros1Adapter.SimulationDelivery

open SceneJson SceneJsonText SceneNode SimulationClient ActionRules

section Issues

/-- Key of a call that applies a scene. -/
def issueOf (x : Exchange) : Option Key :=
  if x.request.method="POST" ∧ x.request.target=applyRoute then
    match x.request.body with
    | some body =>
      match body.member "epoch",body.member "revision" with
      | some (.string epoch),some (.integer revision) => some ⟨x.request.fence,epoch,revision.toNat⟩
      | _,_ => none
    | none => none
  else none

/-- A key is applied again only after calls that were never sent. -/
def DeliveredOnce (calls : List Exchange) : Prop :=
  calls.Pairwise (fun earlier later =>
    ∀ key, issueOf earlier=some key → issueOf later=some key → earlier.answer.notSent=true)

/-- Whether a call repeats an application that may have been delivered. -/
def repeats (earlier later : Exchange) : Bool :=
  (issueOf earlier).isSome && decide (issueOf earlier=issueOf later) && !earlier.answer.notSent

theorem repeats_iff (earlier later : Exchange) : repeats earlier later=false ↔
    ∀ key, issueOf earlier=some key → issueOf later=some key → earlier.answer.notSent=true := by
  unfold repeats
  cases he : issueOf earlier with
  | none => simp
  | some key =>
    by_cases hl : issueOf later=some key
    · simp [hl]
    · simp [hl,Ne.symm hl]

instance (calls : List Exchange) : Decidable (DeliveredOnce calls) :=
  have (earlier later : Exchange) := decidable_of_iff _ (repeats_iff earlier later)
  inferInstanceAs (Decidable (calls.Pairwise _))

/-- Every application of a key so far was never sent. -/
def Unsent (calls : List Exchange) (key : Key) : Prop :=
  ∀ x∈calls, issueOf x=some key → x.answer.notSent=true

/-- A call to another route applies nothing. -/
theorem issueOf_other {x : Exchange} (h : x.request.target≠applyRoute) : issueOf x=none := by
  unfold issueOf
  exact if_neg (fun both => h both.2)

/-- The route of an operation is not the one of an application. -/
theorem operationRoute_ne (requestId rest : String) : operationRoute requestId ++ rest≠applyRoute := by
  intro h
  have chars := congrArg String.toList h
  simp [operationRoute,applyRoute,String.toList_append] at chars

/-- Calls to other routes keep an application unsent. -/
theorem unsent_append {calls rest : List Exchange} {key : Key} (h : Unsent calls key)
    (hr : ∀ y∈rest, y.request.target≠applyRoute) : Unsent (calls ++ rest) key := by
  intro x hx issued
  rcases List.mem_append.mp hx with old | new
  · exact h x old issued
  · rw [issueOf_other (hr x new)] at issued
    cases issued

/-- Calls to other routes keep the delivery order. -/
theorem deliveredOnce_append {calls rest : List Exchange} (h : DeliveredOnce calls)
    (hr : ∀ y∈rest, y.request.target≠applyRoute) : DeliveredOnce (calls ++ rest) := by
  refine List.pairwise_append.mpr ⟨h,?_,?_⟩
  · refine List.pairwise_of_forall_mem_list ?_
    intro earlier he later _ key issued _
    rw [issueOf_other (hr earlier he)] at issued
    cases issued
  · intro earlier _ later hl key _ issued
    rw [issueOf_other (hr later hl)] at issued
    cases issued

/-- An application of a key whose earlier ones were never sent keeps the delivery order. -/
theorem deliveredOnce_issue {calls : List Exchange} {x : Exchange} {key : Key} (h : DeliveredOnce calls)
    (hx : ∀ other, issueOf x=some other → other=key) (hu : Unsent calls key) :
    DeliveredOnce (calls ++ [x]) := by
  refine List.pairwise_append.mpr ⟨h,List.pairwise_singleton _ _,?_⟩
  intro earlier he later hl other first second
  rw [List.mem_singleton.mp hl] at second
  have same := hx other second
  rw [same] at first
  exact hu earlier he first

end Issues

section Calls

variable {p : Peer} {α β : Type}

/-- Nothing but calls to other routes was added. -/
def Extends (before after : Net) : Prop :=
  ∃ added, after.calls=before.calls ++ added ∧ ∀ x∈added, x.request.target≠applyRoute

/-- An exception of a failed call. -/
def remote : Fault → Bool
  | .http _ _ => true
  | .refused _ => false

/-- Only calls to other routes were made, and a failed call was one of them. -/
def Reaches (before : Net) : EStateM.Result Fault Net α → Prop
  | .ok _ after => Extends before after
  | .error fault after => Extends before after ∧ (remote fault=true → before.calls.length<after.calls.length)

/-- An action makes no application. -/
def Harmless (action : Wire α) : Prop := ∀ net, Reaches net (action net)

theorem extends_refl (net : Net) : Extends net net := ⟨[],by simp,by simp⟩

theorem extends_trans {first second third : Net} (h : Extends first second) (g : Extends second third) :
    Extends first third := by
  obtain ⟨a,ha,pa⟩ := h
  obtain ⟨b,hb,pb⟩ := g
  refine ⟨a ++ b,by rw [hb,ha,List.append_assoc],?_⟩
  intro x hx
  rcases List.mem_append.mp hx with old | new
  · exact pa x old
  · exact pb x new

theorem extends_length {before after : Net} (h : Extends before after) :
    before.calls.length ≤ after.calls.length := by
  obtain ⟨added,ha,_⟩ := h
  rw [ha,List.length_append]
  omega

/-- What follows calls to other routes may add more of them. -/
theorem reaches_trans {before middle : Net} {result : EStateM.Result Fault Net α} (h : Extends before middle)
    (g : Reaches middle result) : Reaches before result := by
  cases result with
  | ok a after => exact extends_trans h g
  | error fault after =>
    refine ⟨extends_trans h g.1,fun hr => ?_⟩
    have grown := extends_length h
    have moved := g.2 hr
    omega

theorem harmless_bind {first : Wire α} {second : α → Wire β} (h : Harmless first)
    (g : ∀ a, Harmless (second a)) : Harmless (first >>= second) := by
  intro net
  have head := h net
  cases hf : first net with
  | error fault after =>
    rw [bind_of_error hf]
    rw [hf] at head
    exact head
  | ok a after =>
    rw [bind_of_ok hf]
    rw [hf] at head
    exact reaches_trans head (g a after)

theorem harmless_checked (result : Except Refusal α) : Harmless (checked result) := by
  intro net
  cases result with
  | ok a => exact extends_refl net
  | error refusal => exact ⟨extends_refl net,fun h => by cases h⟩

theorem harmless_newInstanceId : Harmless (newInstanceId p) := fun _ => ⟨[],by simp,by simp⟩

theorem harmless_send {request : Request} (h : request.target≠applyRoute) : Harmless (send p request) := by
  intro net
  have added : ∀ answer, Extends net {net with calls := net.calls ++ [⟨request,answer⟩]} := by
    intro answer
    refine ⟨_,rfl,?_⟩
    intro x hx
    rw [List.mem_singleton.mp hx]
    exact h
  unfold send
  cases p.answer net.calls.length with
  | failed delivery what => exact ⟨added _,fun _ => by simp⟩
  | response status body => exact added _

theorem harmless_call {fence target : String} (h : target≠applyRoute) (value : Json) (method requestId : String) :
    Harmless (call p fence target value method requestId) :=
  harmless_bind (harmless_checked _) fun _ =>
    harmless_bind (harmless_send h) fun _ => harmless_checked _

theorem harmless_waitPending (fence requestId : String) (result : Json) :
    Harmless (waitPending p fence requestId result) := by
  unfold waitPending
  split
  · exact fun net => ⟨extends_refl net,fun h => by cases h⟩
  · split
    · exact harmless_bind harmless_newInstanceId fun _ => harmless_call (operationRoute_ne _ _) _ _ _
    · exact fun net => extends_refl net

theorem harmless_observe (fence requestId : String) : Harmless (observe p fence requestId) := by
  have route : operationRoute requestId≠applyRoute := by
    have := operationRoute_ne requestId ""
    simpa using this
  exact harmless_bind harmless_newInstanceId fun _ =>
    harmless_bind (harmless_call route _ _ _) fun _ => harmless_waitPending _ _ _

/-- The exception that leaves an operation is a failed call when the one inside was. -/
theorem remote_operationFault (requestId : String) (fault : Fault) :
    remote (operationFault requestId fault)=remote fault := by
  cases fault with
  | http delivery what => rfl
  | refused refusal => cases refusal <;> rfl

/-- The end of an operation makes no call. -/
theorem reaches_operation {fence route : String} {value : Json} {method requestId : String} {net : Net}
    (h : Reaches net (settled p fence route (value.set "operation_timeout_ms" (.integer p.timeout))
      method requestId net)) : Reaches net (operation p fence route value method requestId net) := by
  unfold operation
  simp only []
  split
  · next heq =>
    rw [heq] at h
    split
    · exact h
    · exact ⟨h,fun hr => by cases hr⟩
  · next heq =>
    rw [heq] at h
    refine ⟨h.1,?_⟩
    rw [remote_operationFault]
    exact h.2

theorem harmless_operation {fence route : String} (h : route≠applyRoute) (value : Json)
    (method requestId : String) : Harmless (operation p fence route value method requestId) := by
  intro net
  refine reaches_operation ?_
  have head : Harmless (submit p fence route (value.set "operation_timeout_ms" (.integer p.timeout))
      method requestId) :=
    harmless_bind (harmless_call h _ _ _) fun _ => harmless_waitPending _ _ _
  have first := head net
  unfold settled
  split
  · next heq =>
    rw [heq] at first
    exact reaches_trans first.1 (harmless_observe _ _ _)
  · exact first

theorem harmless_moveDesired (instanceId : String) (d : Desired) : Harmless (moveDesired p instanceId d) :=
  harmless_bind harmless_newInstanceId fun _ =>
    harmless_bind (harmless_operation (by decide) _ _ _) fun _ => harmless_checked _

theorem harmless_discover : Harmless (discover p) := by
  have route : describeRoute≠applyRoute := by decide
  exact harmless_bind harmless_newInstanceId fun _ =>
    harmless_bind (harmless_send route) fun _ => harmless_checked _

end Calls

section Applications

variable {p : Peer} {α β : Type}

/-- One request and then calls to other routes were made. -/
def Issued (request : Request) (before after : Net) : Prop :=
  ∃ x rest, after.calls=before.calls ++ x::rest ∧ x.request=request ∧ ∀ y∈rest, y.request.target≠applyRoute

/-- Nothing was sent, or one request and its followers; a failure of the
request itself carries its own delivery class. -/
def Refused (request : Request) (before : Net) (fault : Fault) (after : Net) : Prop :=
  (after.calls=before.calls ∧ remote fault=false) ∨
    ∃ x rest, after.calls=before.calls ++ x::rest ∧ x.request=request ∧
      (∀ y∈rest, y.request.target≠applyRoute) ∧
      ∀ what, fault=.http .notSent what → rest=[] → x.answer.notSent=true

/-- Outcome of an action that issues one request. -/
def Issues (request : Request) (before : Net) : EStateM.Result Fault Net α → Prop
  | .ok _ after => Issued request before after
  | .error fault after => Refused request before fault after

/-- Followers of an issued request. -/
theorem issues_reaches {request : Request} {before middle : Net} {result : EStateM.Result Fault Net α}
    (h : Issued request before middle) (g : Reaches middle result) : Issues request before result := by
  obtain ⟨x,rest,hc,hx,hr⟩ := h
  have longer : ∀ {added : List Exchange}, (∀ y∈added, y.request.target≠applyRoute) →
      ∀ y∈rest ++ added, y.request.target≠applyRoute := by
    intro added pa y hy
    rcases List.mem_append.mp hy with old | new
    · exact hr y old
    · exact pa y new
  cases result with
  | ok a after =>
    obtain ⟨added,ha,pa⟩ := g
    refine ⟨x,rest ++ added,?_,hx,longer pa⟩
    rw [ha,hc,List.append_assoc,List.cons_append]
  | error fault after =>
    obtain ⟨⟨added,ha,pa⟩,moved⟩ := g
    refine Or.inr ⟨x,rest ++ added,?_,hx,longer pa,?_⟩
    · rw [ha,hc,List.append_assoc,List.cons_append]
    · intro what failing none
      have empty : added=[] := (List.append_eq_nil_iff.mp none).2
      have grown := moved (by rw [failing]; rfl)
      rw [ha,empty,List.append_nil] at grown
      omega

/-- The first call of an operation issues its request. -/
theorem call_issues {fence target : String} {value : Json} {method requestId : String} (hm : method≠"GET")
    (net : Net) : Issues ⟨fence,method,target,requestId,some value⟩ net
      (call p fence target value method requestId net) := by
  have body : requestBody p method value=.ok (some value) ∨ ∃ refusal, requestBody p method value=.error refusal := by
    unfold requestBody
    rw [if_neg hm]
    cases lifted (dumpJson p.spell value) with
    | ok text => exact Or.inl rfl
    | error refusal => exact Or.inr ⟨refusal,rfl⟩
  rcases body with encoded | ⟨refusal,refused⟩
  · have head : checked (requestBody p method value) net=.ok (some value) net := by rw [encoded]; rfl
    unfold call
    rw [bind_of_ok head]
    set request : Request := ⟨fence,method,target,requestId,some value⟩
    set after : Net := {net with calls := net.calls ++ [⟨request,p.answer net.calls.length⟩]} with hafter
    cases ha : p.answer net.calls.length with
    | failed delivery what =>
      have sent : send p request net=.error (.http delivery what) after := by
        unfold send
        simp only [ha]
        rw [hafter,ha]
      rw [bind_of_error sent]
      refine Or.inr ⟨⟨request,.failed delivery what⟩,[],by rw [hafter,ha],rfl,by simp,?_⟩
      intro text same _
      cases same
      rfl
    | response status text =>
      have sent : send p request net=.ok (status,text) after := by
        unfold send
        simp only [ha]
        rw [hafter,ha]
      rw [bind_of_ok sent]
      refine issues_reaches ?_ (harmless_checked _ _)
      exact ⟨_,[],rfl,rfl,by simp⟩
  · have head : checked (requestBody p method value) net=.error (.refused refusal) net := by rw [refused]; rfl
    unfold call
    rw [bind_of_error head]
    exact Or.inl ⟨rfl,rfl⟩

/-- A request that was issued stays issued when a later check refuses it. -/
theorem issued_of_refused {request : Request} {before after : Net} {fault : Fault}
    (h : Refused request before fault after) (hr : remote fault=true) : Issued request before after := by
  rcases h with ⟨_,never⟩ | ⟨x,rest,hc,hx,hrest,_⟩
  · rw [never] at hr
    cases hr
  · exact ⟨x,rest,hc,hx,hrest⟩

theorem submit_issues {fence route : String} {payload : Json} {method requestId : String} (hm : method≠"GET")
    (net : Net) : Issues ⟨fence,method,route,requestId,some payload⟩ net
      (submit p fence route payload method requestId net) := by
  have head : Issues ⟨fence,method,route,requestId,some payload⟩ net
      (call p fence route payload method requestId net) := call_issues hm net
  unfold submit
  cases hc : call p fence route payload method requestId net with
  | error fault after =>
    rw [bind_of_error hc]
    rw [hc] at head
    exact head
  | ok result after =>
    rw [bind_of_ok hc]
    rw [hc] at head
    exact issues_reaches head (harmless_waitPending _ _ _ _)

theorem settled_issues {fence route : String} {payload : Json} {method requestId : String} (hm : method≠"GET")
    (net : Net) : Issues ⟨fence,method,route,requestId,some payload⟩ net
      (settled p fence route payload method requestId net) := by
  have head : Issues ⟨fence,method,route,requestId,some payload⟩ net
      (submit p fence route payload method requestId net) := submit_issues hm net
  unfold settled
  split
  · next heq =>
    rw [heq] at head
    exact issues_reaches (issued_of_refused head rfl) (harmless_observe _ _ _)
  · exact head

theorem operation_issues {fence route : String} {value : Json} {method requestId : String} (hm : method≠"GET")
    (net : Net) : Issues ⟨fence,method,route,requestId,some (value.set "operation_timeout_ms" (.integer p.timeout))⟩
      net (operation p fence route value method requestId net) := by
  set payload := value.set "operation_timeout_ms" (.integer p.timeout) with hp
  have head : Issues ⟨fence,method,route,requestId,some payload⟩ net
      (settled p fence route payload method requestId net) := settled_issues hm net
  unfold operation
  simp only [← hp]
  split
  · next heq =>
    rw [heq] at head
    split
    · exact head
    · obtain ⟨x,rest,hc,hx,hr⟩ := head
      exact Or.inr ⟨x,rest,hc,hx,hr,fun _ h => by cases h⟩
  · next heq =>
    rw [heq] at head
    rcases head with ⟨same,none⟩ | ⟨x,rest,hc,hx,hr,hn⟩
    · exact Or.inl ⟨same,by rw [remote_operationFault]; exact none⟩
    · refine Or.inr ⟨x,rest,hc,hx,hr,fun what failing => hn what ?_⟩
      rename_i fault _
      cases fault with
      | http delivery text => exact failing
      | refused refusal => cases refusal <;> cases failing

/-- The request of an application. -/
def applyRequest (p : Peer) (instanceId : String) (d : Desired) (requestId : String) : Request :=
  ⟨instanceId,"POST",applyRoute,requestId,
    some ((applyBody d).set "operation_timeout_ms" (.integer p.timeout))⟩

/-- An application is issued for the key of its desired state. -/
theorem issueOf_applyRequest (instanceId : String) (d : Desired) (requestId : String) (answer : Answer) :
    issueOf ⟨applyRequest p instanceId d requestId,answer⟩=some (d.key instanceId) := by
  simp [issueOf,applyRequest,applyBody,Json.set,Json.setMember,Json.member,List.lookup,Desired.key]

theorem applyDesired_issues (instanceId : String) (d : Desired) (net : Net) :
    Issues (applyRequest p instanceId d (p.identity net.identities)) net (applyDesired p instanceId d net) := by
  set middle : Net := {net with identities := net.identities+1} with hmiddle
  have fresh : newInstanceId p net=.ok (p.identity net.identities) middle := rfl
  have head : Issues (applyRequest p instanceId d (p.identity net.identities)) middle
      (operation p instanceId applyRoute (applyBody d) "POST" (p.identity net.identities) middle) :=
    operation_issues (by decide) middle
  unfold applyDesired
  rw [bind_of_ok fresh]
  cases ho : operation p instanceId applyRoute (applyBody d) "POST" (p.identity net.identities) middle with
  | error fault after =>
    rw [bind_of_error ho]
    rw [ho] at head
    exact head
  | ok native after =>
    rw [bind_of_ok ho]
    rw [ho] at head
    exact issues_reaches head (harmless_checked _ _)

end Applications

section Runs

variable {p : Peer}

/-- The last call was an application. -/
def lastApplies (calls : List Exchange) : Bool :=
  calls.getLast?.any (fun x => decide (x.request.target=applyRoute))

/-- The last of some calls to other routes is no application. -/
theorem lastApplies_append {calls rest : List Exchange} (hn : rest≠[])
    (hr : ∀ y∈rest, y.request.target≠applyRoute) : lastApplies (calls ++ rest)=false := by
  unfold lastApplies
  rw [List.getLast?_append_of_ne_nil _ hn,List.getLast?_eq_some_getLast hn]
  simpa using hr _ (List.getLast_mem hn)

/-- A step that keeps applications apart: the worker does not return to a key
it had left, and while an application is not confirmed the only call that is
reported as never sent is an application. -/
def orderly (c : Client) : Action → Bool
  | .work _ =>
    match c.phase with
    | .deliver d =>
      decide (c.visited.head?=some (d.key c.instanceId)) || decide (d.key c.instanceId∉c.visited)
    | .failed _ (.http .notSent _) => c.applied || c.attempted.isNone || lastApplies c.net.calls
    | _ => true
  | _ => true

/-- State of the applications in an orderly run. -/
structure Sound (c : Client) : Prop where
  /-- Each key is delivered once. -/
  once : DeliveredOnce c.net.calls
  /-- A key that was applied is a visited one. -/
  known : ∀ x∈c.net.calls, ∀ key, issueOf x=some key → key∈c.visited
  /-- The attempted key is the last visited one. -/
  current : ∀ key, c.attempted=some key → c.visited.head?=some key
  /-- Without an attempted key the last visited one was never sent. -/
  forgotten : c.attempted=none → ∀ key, c.visited.head?=some key → Unsent c.net.calls key
  /-- An application that just failed as never sent was never sent before. -/
  failing : ∀ d what key, c.phase=.failed d (.http .notSent what) → c.applied=false →
    c.attempted=some key → lastApplies c.net.calls=true → Unsent c.net.calls key

/-- A step that makes no call and forgets no attempt keeps the state. -/
theorem sound_frame {c c' : Client} (h : Sound c) (hn : c'.net=c.net) (ha : c'.attempted=c.attempted)
    (hv : c'.visited=c.visited) (hp : ∀ d what, c'.phase≠.failed d (.http .notSent what)) : Sound c' where
  once := by rw [hn]; exact h.once
  known := by rw [hn,hv]; exact h.known
  current := by rw [ha,hv]; exact h.current
  forgotten := by rw [ha,hv,hn]; exact h.forgotten
  failing := fun d what _ failed => absurd failed (hp d what)

/-- Calls to other routes keep the state. -/
theorem sound_extends {c c' : Client} (h : Sound c) (hn : Extends c.net c'.net) (ha : c'.attempted=c.attempted)
    (hv : c'.visited=c.visited)
    (hp : ∀ d what, c'.phase=.failed d (.http .notSent what) →
      c'.applied=true ∨ c.net.calls.length<c'.net.calls.length) : Sound c' := by
  obtain ⟨added,hadded,other⟩ := hn
  refine ⟨?_,?_,?_,?_,?_⟩
  · rw [hadded]
    exact deliveredOnce_append h.once other
  · rw [hadded,hv]
    intro x hx key issued
    rcases List.mem_append.mp hx with old | new
    · exact h.known x old key issued
    · rw [issueOf_other (other x new)] at issued
      cases issued
  · rw [ha,hv]
    exact h.current
  · rw [ha,hv,hadded]
    exact fun none key head => unsent_append (h.forgotten none key head) other
  · intro d what key failed unconfirmed _ last
    rcases hp d what failed with confirmed | grown
    · rw [confirmed] at unconfirmed
      cases unconfirmed
    · have nonempty : added≠[] := by
        intro empty
        rw [hadded,empty,List.append_nil] at grown
        omega
      rw [hadded,lastApplies_append nonempty other] at last
      cases last

/-- The key of an application is the last visited one. -/
theorem visiting_head (key : Key) (visited : List Key) : (visiting key visited).head?=some key := by
  unfold visiting
  split
  · next same => exact same
  · rfl

/-- A visited key stays visited. -/
theorem mem_visiting {key other : Key} {visited : List Key} (h : other∈visited) : other∈visiting key visited := by
  unfold visiting
  split
  · exact h
  · exact List.mem_cons_of_mem _ h

/-- In an orderly delivery of a new key every earlier application of it was never sent. -/
theorem unsent_of_orderly {c : Client} {key : Key} (h : Sound c) (hk : c.attempted≠some key)
    (ho : c.visited.head?=some key ∨ key∉c.visited) : Unsent c.net.calls key := by
  rcases ho with head | unknown
  · cases ha : c.attempted with
    | none => exact h.forgotten ha key head
    | some other =>
      have same := h.current other ha
      rw [head] at same
      cases same
      exact absurd ha hk
  · intro x hx issued
    exact absurd (h.known x hx key issued) unknown

/-- An application of a key that was never sent keeps the state. -/
theorem sound_issued {c c' : Client} {key : Key} {x : Exchange} {rest : List Exchange} (h : Sound c)
    (hu : Unsent c.net.calls key) (hc : c'.net.calls=c.net.calls ++ x::rest) (hx : issueOf x=some key)
    (hr : ∀ y∈rest, y.request.target≠applyRoute) (ha : c'.attempted=some key)
    (hv : c'.visited=visiting key c.visited)
    (hp : ∀ d what, c'.phase=.failed d (.http .notSent what) → c'.applied=false → rest=[] →
      x.answer.notSent=true) : Sound c' := by
  have split : c'.net.calls=(c.net.calls ++ [x]) ++ rest := by rw [hc]; simp
  refine ⟨?_,?_,?_,?_,?_⟩
  · rw [split]
    refine deliveredOnce_append (deliveredOnce_issue h.once ?_ hu) hr
    intro other issued
    rw [hx] at issued
    exact (Option.some.inj issued).symm
  · rw [hc,hv]
    intro y hy other issued
    rcases List.mem_append.mp hy with old | new
    · exact mem_visiting (h.known y old other issued)
    · rcases List.mem_cons.mp new with first | later
      · rw [first,hx] at issued
        rw [← Option.some.inj issued]
        exact List.mem_of_head? (visiting_head key c.visited)
      · rw [issueOf_other (hr y later)] at issued
        cases issued
  · intro other attempted
    rw [ha] at attempted
    rw [hv,← Option.some.inj attempted]
    exact visiting_head key c.visited
  · intro none
    rw [ha] at none
    cases none
  · intro d what other failed unconfirmed attempted last
    rw [ha] at attempted
    rw [← Option.some.inj attempted]
    have alone : rest=[] := by
      by_contra nonempty
      rw [split,lastApplies_append nonempty hr] at last
      cases last
    rw [hc,alone]
    intro y hy issued
    rcases List.mem_append.mp hy with old | new
    · exact hu y old issued
    · rw [List.mem_singleton.mp new]
      exact hp d what failed unconfirmed alone

/-- The motion of a confirmed application keeps the state. -/
theorem move_sound {c : Client} (d : Desired) (h : Sound c) (ha : c.applied=true) : Sound (move p d c) := by
  have calls := harmless_moveDesired (p := p) c.instanceId d c.net
  unfold move
  cases hm : moveDesired p c.instanceId d c.net with
  | ok time net =>
    rw [hm] at calls
    exact sound_extends h calls rfl rfl (fun _ _ failed => by cases failed)
  | error fault net =>
    rw [hm] at calls
    exact sound_extends h calls.1 rfl rfl (fun _ _ _ => Or.inl ha)

/-- An orderly application keeps the state. -/
theorem applyThenMove_sound {c : Client} (d : Desired) (h : Sound c)
    (hk : c.attempted≠some (d.key c.instanceId))
    (ho : c.visited.head?=some (d.key c.instanceId) ∨ d.key c.instanceId∉c.visited)
    (hp : ∀ e what, c.phase≠.failed e (.http .notSent what)) :
    Sound (applyThenMove p d (begin (d.key c.instanceId) c)) := by
  have unsent := unsent_of_orderly h hk ho
  have issues := applyDesired_issues (p := p) c.instanceId d c.net
  have instance_eq : (begin (d.key c.instanceId) c).instanceId=c.instanceId := rfl
  have net_eq : (begin (d.key c.instanceId) c).net=c.net := rfl
  unfold applyThenMove
  rw [instance_eq,net_eq]
  cases hd : applyDesired p c.instanceId d c.net with
  | ok done net =>
    rw [hd] at issues
    obtain ⟨x,rest,hc,hx,hr⟩ := issues
    have issued : issueOf x=some (d.key c.instanceId) := by
      have := issueOf_applyRequest (p := p) c.instanceId d (p.identity c.net.identities) x.answer
      rwa [← hx] at this
    refine move_sound d ?_ rfl
    refine sound_issued h unsent hc issued hr rfl rfl ?_
    intro e what failed
    exact absurd failed (hp e what)
  | error fault net =>
    rw [hd] at issues
    rcases issues with ⟨same,none⟩ | ⟨x,rest,hc,hx,hr,hn⟩
    · refine ⟨?_,?_,?_,?_,?_⟩
      · exact same ▸ h.once
      · intro x hx key issued
        have old : x∈c.net.calls := by rw [← same]; exact hx
        exact mem_visiting (h.known x old key issued)
      · intro key attempted
        cases attempted
        exact visiting_head _ _
      · intro none
        cases none
      · intro e what key failed
        cases failed
        cases none
    · have issued : issueOf x=some (d.key c.instanceId) := by
        have := issueOf_applyRequest (p := p) c.instanceId d (p.identity c.net.identities) x.answer
        rwa [← hx] at this
      refine sound_issued h unsent hc issued hr rfl rfl ?_
      intro e what failed _ alone
      cases failed
      exact hn what rfl alone

theorem emit_net (c : Client) (d : Desired) (applied : Bool) (message : String) (time : SceneTime) :
    (emit c d applied message time).net=c.net := by
  unfold emit
  split <;> rfl

theorem emit_attempted (c : Client) (d : Desired) (applied : Bool) (message : String) (time : SceneTime) :
    (emit c d applied message time).attempted=c.attempted := by
  unfold emit
  split <;> rfl

theorem emit_visited (c : Client) (d : Desired) (applied : Bool) (message : String) (time : SceneTime) :
    (emit c d applied message time).visited=c.visited := by
  unfold emit
  split <;> rfl

/-- A refusal keeps the state. -/
theorem refuse_sound {c : Client} (d : Desired) (what : String) (h : Sound c) : Sound (refuse d what c) := by
  unfold refuse
  split
  · exact sound_frame h (emit_net ..) (emit_attempted ..) (emit_visited ..) (fun _ _ failed => by cases failed)
  · exact sound_frame h (emit_net ..) (emit_attempted ..) (emit_visited ..) (fun _ _ failed => by cases failed)

/-- A lost connection keeps the state when the call that was never sent was
the application itself. -/
theorem disconnect_sound {c : Client} (turn : Turn) (d : Desired) (delivery : Delivery) (what : String)
    (h : Sound c) (hp : c.phase=.failed d (.http delivery what)) (ho : orderly c (.work turn)=true) :
    Sound (disconnect p turn d delivery what c) := by
  have frame : Sound {disconnect p turn d delivery what c with attempted := c.attempted} :=
    sound_frame h (emit_net ..) rfl (emit_visited ..) (fun _ _ failed => by cases failed)
  by_cases lost : delivery=.notSent ∧ c.applied=false
  · have none : (disconnect p turn d delivery what c).attempted=none := if_pos lost
    refine ⟨frame.once,frame.known,?_,?_,fun _ _ _ failed => by cases failed⟩
    · intro key attempted
      rw [none] at attempted
      cases attempted
    · intro _ key head
      have visited : c.visited.head?=some key := by
        have same : (disconnect p turn d delivery what c).visited=c.visited := emit_visited ..
        rwa [same] at head
      have calls : (disconnect p turn d delivery what c).net=c.net := emit_net ..
      rw [calls]
      cases ha : c.attempted with
      | none => exact h.forgotten ha key visited
      | some other =>
        have last : lastApplies c.net.calls=true := by
          unfold orderly at ho
          rw [hp,lost.1] at ho
          simpa [lost.2,ha] using ho
        have same : other=key := by
          have current := h.current other ha
          rw [visited] at current
          exact (Option.some.inj current).symm
        rw [← same]
        refine h.failing d what other ?_ lost.2 ha last
        rw [hp,lost.1]
  · have kept : (disconnect p turn d delivery what c).attempted=c.attempted := if_neg lost
    exact sound_frame frame rfl kept rfl (fun _ _ failed => by cases failed)

/-- One orderly step of the worker keeps the state. -/
theorem work_sound {c : Client} (turn : Turn) (h : Sound c) (ho : orderly c (.work turn)=true) :
    Sound (work p turn c) := by
  unfold work
  split
  · exact h
  · unfold readDesired
    split
    · exact sound_frame h rfl rfl rfl (fun _ _ failed => by cases failed)
    · split
      · exact sound_frame h rfl rfl rfl (fun _ _ failed => by cases failed)
      · refine sound_frame h rfl rfl rfl (fun _ _ failed => ?_)
        simp only at failed
        split at failed <;> cases failed
  · exact sound_frame h (emit_net ..) (emit_attempted ..) (emit_visited ..) (fun _ _ failed => by cases failed)
  · unfold choose
    split
    · have calls := harmless_discover (p := p) c.net
      unfold connect
      cases hd : discover p c.net with
      | ok found net =>
        rw [hd] at calls
        exact sound_extends h calls rfl rfl (fun _ _ failed => by cases failed)
      | error fault net =>
        rw [hd] at calls
        refine sound_extends h calls.1 rfl rfl (fun _ _ failed => Or.inr ?_)
        cases failed
        exact calls.2 rfl
    · split
      · exact sound_frame h rfl rfl rfl (fun _ _ failed => by cases failed)
      · exact sound_frame h rfl rfl rfl (fun _ _ failed => by cases failed)
  · unfold capture
    split <;> exact sound_frame h rfl rfl rfl (fun _ _ failed => by cases failed)
  · next d hphase =>
    have order : c.visited.head?=some (d.key c.instanceId) ∨ d.key c.instanceId∉c.visited := by
      unfold orderly at ho
      rw [hphase] at ho
      simpa using ho
    unfold deliver
    split
    · next hk => exact applyThenMove_sound d h hk order (fun _ _ failed => by rw [hphase] at failed; cases failed)
    · split
      · next ha => exact move_sound d h ha
      · exact sound_frame h rfl rfl rfl (fun _ _ failed => by cases failed)
  · exact sound_frame h (emit_net ..) (emit_attempted ..) (emit_visited ..) (fun _ _ failed => by cases failed)
  · next d fault hphase =>
    cases fault with
    | http delivery what => exact disconnect_sound turn d delivery what h hphase ho
    | refused refusal => cases refusal <;> exact refuse_sound d _ h
  · exact sound_frame h rfl rfl rfl (fun _ _ failed => by cases failed)
  · exact sound_frame h (emit_net ..) (emit_attempted ..) (emit_visited ..) (fun _ _ failed => by cases failed)
  · exact sound_frame h rfl rfl rfl (fun _ _ failed => by cases failed)
  · exact h

/-- One orderly step keeps the state. -/
theorem step_sound {c : Client} (action : Action) (h : Sound c) (ho : orderly c action=true) :
    Sound (step p c action) := by
  cases action with
  | update document epoch revision motion =>
    have updated : Sound (update document epoch revision motion c) := by
      unfold update
      split
      · exact h
      · refine ⟨h.once,h.known,h.current,h.forgotten,?_⟩
        intro d what key failed
        have same : c.phase=.failed d (.http .notSent what) := by
          have failed : started c.phase=.failed d (.http .notSent what) := failed
          cases hp : c.phase with
          | idle =>
            rw [hp] at failed
            cases failed
          | _ =>
            rw [hp] at failed
            exact failed
        exact h.failing d what key same
    exact updated
  | take | close => exact ⟨h.once,h.known,h.current,h.forgotten,h.failing⟩
  | work turn => exact work_sound turn h ho

/-- A client that just began. -/
theorem sound_new : Sound {} where
  once := List.Pairwise.nil
  known := fun x hx => by cases hx
  current := fun key attempted => by cases attempted
  forgotten := fun _ key head => by cases head
  failing := fun _ _ _ failed => by cases failed

/-- In every orderly run each key is applied again only after applications
that were never sent. -/
theorem orderly_run_deliveredOnce (p : Peer) (actions : List Action)
    (h : Along (step p) (fun c action => orderly c action=true) {} actions) : DeliveredOnce (run (step p) {} actions).net.calls := by
  have sound : Sound (run (step p) {} actions) :=
    run_invariant (fun _ action hs ho => step_sound action hs ho) sound_new h
  exact sound.once

/-- Body of the description of a ready world host. -/
def readyBody : String :=
  "\x7b\"service\":\"xgc2.simulation\",\"api_version\":\"v1\",\"instance_id\":\"world\",\"ready\":true\x7d"

/-- Body of an operation that was accepted. -/
def acceptedBody : String := "\x7b\"id\":\"1\",\"state\":\"accepted\"\x7d"

/-- Values of the two bodies. -/
def parseBodies (body : String) : Except Error Json :=
  if body=readyBody then
    .ok (.object [("service",.string "xgc2.simulation"),("api_version",.string "v1"),
      ("instance_id",.string "world"),("ready",.boolean true)])
  else if body=acceptedBody then .ok (.object [("id",.string "1"),("state",.string "accepted")])
  else .error (jsonError "parse error")

/-- A world host with given answers; identities are numbers. -/
def samplePeer (answers : List Answer) : Peer where
  answer := fun n => answers.getD n (.failed .outcomeUnknown "Connection lost")
  identity := fun n => toString n
  wellFormed := fun body => body=readyBody || body=acceptedBody
  parseJson := parseBodies
  spell := fun _ => "0.0"
  deliveryName := fun delivery => if delivery=.notSent then "not_sent" else "outcome_unknown"
  target := "fixture"
  timeout := 30000
  watched := true

/-- One update and then steps of the worker. -/
def firstRevision (count : ℕ) : List Action :=
  .update (.object []) "epoch" 1 ⟨false,0,""⟩ :: List.replicate count (.work ⟨true,false,[]⟩)

/-- An accepted application whose wait cannot be sent is applied again. -/
theorem accepted_apply_repeats : ¬∀ (p : Peer) (actions : List Action),
    DeliveredOnce (run (step p) {} actions).net.calls := by
  intro h
  have once := h (samplePeer [.response 200 readyBody,.response 202 acceptedBody,
    .failed .notSent "Cannot connect",.response 200 readyBody]) (firstRevision 10)
  revert once
  decide +kernel

/-- An application that was never sent is applied again in an orderly run. -/
theorem unsent_apply_orderly :
    let p := samplePeer [.response 200 readyBody,.failed .notSent "Cannot connect",.response 200 readyBody]
    Along (step p) (fun c action => orderly c action=true) {} (firstRevision 10) ∧
      ((run (step p) {} (firstRevision 10)).net.calls.filterMap issueOf).length=2 ∧
      DeliveredOnce (run (step p) {} (firstRevision 10)).net.calls := by
  intro p
  have orderly : Along (step p) (fun c action => orderly c action=true) {} (firstRevision 10) := by
    decide +kernel
  exact ⟨orderly,by decide +kernel,orderly_run_deliveredOnce p _ orderly⟩

end Runs

end Ros1Adapter.SimulationDelivery
