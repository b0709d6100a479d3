import Mathlib.Tactic.Common
import Ros1Adapter.SceneService

/-!
# Places of a scene request

A request is at any time in one place: with its handler, in the queue, in the
worker's hands, among the waiters or the released ones, completed, or dropped
after it reported a cancellation. No exception keeps a response from being
built, so no request leaves these places.
-/

namespace Ros1Adapter.SceneServicePlaces

open SceneJson SceneJsonText SceneFiles SceneNode SceneService

section Encoding

mutual
/-- A value of finite numbers has a JSON text. -/
theorem dumpCharacters_finite (spell : Float → String) : ∀ value, finite value=true →
    ∃ text, dumpCharacters spell value=.ok text
  | .null,_ => ⟨_,rfl⟩
  | .boolean _,_ => ⟨_,rfl⟩
  | .integer _,_ => ⟨_,rfl⟩
  | .string _,_ => ⟨_,rfl⟩
  | .float value,h => by
    have number : value.isFinite=true := h
    unfold dumpCharacters
    rw [if_pos number]
    exact ⟨_,rfl⟩
  | .array items,h => by
    obtain ⟨text,listed⟩ := dumpItems_finite spell items h
    unfold dumpCharacters
    rw [listed]
    exact ⟨_,rfl⟩
  | .object members,h => by
    obtain ⟨text,listed⟩ := dumpMembers_finite spell members h
    unfold dumpCharacters
    rw [listed]
    exact ⟨_,rfl⟩

/-- Values of finite numbers have JSON texts. -/
theorem dumpItems_finite (spell : Float → String) : ∀ items, finiteItems items=true →
    ∃ text, dumpItems spell items=.ok text
  | [],_ => ⟨_,rfl⟩
  | [only],h => by
    unfold finiteItems at h
    simp only [Bool.and_eq_true] at h
    obtain ⟨text,encoded⟩ := dumpCharacters_finite spell only h.1
    unfold dumpItems
    exact ⟨text,encoded⟩
  | first::second::rest,h => by
    unfold finiteItems at h
    simp only [Bool.and_eq_true] at h
    obtain ⟨head,encoded⟩ := dumpCharacters_finite spell first h.1
    obtain ⟨tail,listed⟩ := dumpItems_finite spell (second::rest) h.2
    unfold dumpItems
    rw [encoded,listed]
    exact ⟨_,rfl⟩

/-- Members of finite numbers have JSON texts. -/
theorem dumpMembers_finite (spell : Float → String) : ∀ members, finiteMembers members=true →
    ∃ text, dumpMembers spell members=.ok text
  | [],_ => ⟨_,rfl⟩
  | [(key,value)],h => by
    unfold finiteMembers at h
    simp only [Bool.and_eq_true] at h
    obtain ⟨item,encoded⟩ := dumpCharacters_finite spell value h.1
    unfold dumpMembers
    rw [encoded]
    exact ⟨_,rfl⟩
  | (key,value)::second::rest,h => by
    unfold finiteMembers at h
    simp only [Bool.and_eq_true] at h
    obtain ⟨item,encoded⟩ := dumpCharacters_finite spell value h.1
    obtain ⟨tail,listed⟩ := dumpMembers_finite spell (second::rest) h.2
    unfold dumpMembers
    rw [encoded,listed]
    exact ⟨_,rfl⟩
end

variable {L : Library}

/-- A response with a value of finite numbers can be built. -/
theorem response_finite {value : Json} (h : finite value=true) (status : ℕ) : ∃ answer, response L value status=.ok answer := by
  obtain ⟨text,encoded⟩ := dumpCharacters_finite L.spell value h
  unfold response dumpJson
  rw [encoded]
  simp only [bind,Except.bind,pure,Except.pure]
  split <;> exact ⟨_,rfl⟩

/-- An error response can be built. -/
theorem fault_ok (status : ℕ) (code message : String) : ∃ answer, fault L status code message=.ok answer :=
  response_finite rfl status

/-- The worker always has a response. -/
theorem answerOf_ok (profile : Profile) (stopping : Bool) (x : Execution) (request : HttpRequest) :
    ∃ answer, answerOf L profile stopping x request=.ok answer := by
  unfold answerOf
  split
  · exact fault_ok ..
  · split
    · exact ⟨_,rfl⟩
    · exact fault_ok ..
    · exact fault_ok ..

/-- An assigned member keeps the numbers finite. -/
theorem setMember_finite {members : List (String × Json)} (h : finiteMembers members=true) (key : String)
    {value : Json} (hv : finite value=true) : finiteMembers (Json.setMember key value members)=true := by
  induction members with
  | nil =>
    unfold Json.setMember finiteMembers
    rw [hv]
    rfl
  | cons first rest ih =>
    obtain ⟨name,item⟩ := first
    unfold finiteMembers at h
    simp only [Bool.and_eq_true] at h
    unfold Json.setMember
    split
    · unfold finiteMembers
      rw [hv,h.2]
      rfl
    · unfold finiteMembers
      rw [h.1,ih h.2]
      rfl

/-- An updated object keeps the numbers finite. -/
theorem updateMembers_finite {members changes : List (String × Json)} (h : finiteMembers members=true)
    (hc : finiteMembers changes=true) : finiteMembers (updateMembers members changes)=true := by
  induction changes generalizing members with
  | nil => exact h
  | cons first rest ih =>
    obtain ⟨name,item⟩ := first
    unfold finiteMembers at hc
    simp only [Bool.and_eq_true] at hc
    exact ih (setMember_finite h name hc.1) hc.2

/-- A description of finite facts has finite numbers. -/
theorem describeLocked_finite {s : Service} {path target identity : String} (hr : s.reference=referenceOf path target identity)
    (hf : finiteMembers s.facts=true) (facing : Facing) : finite (describeLocked s facing)=true := by
  have facts : finiteMembers (describedFacts s facing)=true := by
    unfold describedFacts
    refine setMember_finite (setMember_finite ?_ _ rfl) _ rfl
    split
    · exact updateMembers_finite hf facing.encodable
    · exact hf
  have reference : finite s.reference=true := by
    rw [hr]
    rfl
  have identified : finite (s.reference.valueOr "instance_id" .null)=true := by
    rw [hr]
    rfl
  have capabilities : finiteItems (capabilitiesOf s.profile)=true := by
    cases s.profile <;> rfl
  simp only [describeLocked,finite,finiteMembers,reference,facts,identified,capabilities,Bool.and_true]

end Encoding

section Places

/-- Requests in the worker's hands. -/
def inHands : WorkerPoint → List ℕ
  | .holding work _ => [work.id]
  | .executing work _ => [work.id]
  | _ => []

/-- Released waiters that are not answered yet. -/
def inRelease : ReadinessPoint → List ℕ
  | .releasing waiters _ => waiters.map (fun w => w.id)
  | _ => []

/-- Requests that wait somewhere in the service. -/
def held (s : Service) : List ℕ :=
  s.replies.map (fun r => r.id) ++ s.queue.map (fun w => w.id) ++ inHands s.worker ++
    s.waiters.map (fun w => w.id) ++ inRelease s.readiness

/-- Requests whose callback was called. -/
def completed (s : Service) : List ℕ := s.completions.map (fun c => c.1)

/-- Number of places that a request is in. -/
def places (s : Service) (id : ℕ) : ℕ := (held s).count id+(completed s).count id+s.dropped.count id

/-- Places add up over the members of the service. -/
theorem places_eq (s : Service) (id : ℕ) : places s id=
    (s.replies.map (fun r => r.id)).count id+(s.queue.map (fun w => w.id)).count id+(inHands s.worker).count id+
      (s.waiters.map (fun w => w.id)).count id+(inRelease s.readiness).count id+(completed s).count id+
      s.dropped.count id := by
  unfold places held
  simp only [List.count_append]

/-- A notification moves no request. -/
theorem notifyAll_places (s : Service) (id : ℕ) : places (notifyAll s) id=places s id := by
  have hands : inHands (notifyAll s).worker=inHands s.worker := by
    unfold notifyAll
    cases s.worker <;> rfl
  have release : inRelease (notifyAll s).readiness=inRelease s.readiness := by
    unfold notifyAll
    cases s.readiness <;> rfl
  rw [places_eq,places_eq,hands,release]
  rfl

/-- A wake-up moves no request. -/
theorem wake_places (worker readiness : Bool) (s : Service) (id : ℕ) : places (wake worker readiness s) id=places s id := by
  have hands : inHands (wake worker readiness s).worker=inHands s.worker := by
    unfold wake
    cases s.worker <;> cases worker <;> rfl
  have release : inRelease (wake worker readiness s).readiness=inRelease s.readiness := by
    unfold wake
    cases s.readiness <;> cases readiness <;> rfl
  rw [places_eq,places_eq,hands,release]
  rfl

/-- Count of a number at the end of a list. -/
theorem count_snoc (l : List ℕ) (n id : ℕ) : (l ++ [n]).count id=l.count id+if n=id then 1 else 0 := by
  rw [List.count_append,List.count_singleton]
  simp only [beq_iff_eq]

/-- A new reply is one new place. -/
theorem reply_places (answer : Except Error HttpResponse) (s : Service) (id : ℕ) :
    places (reply answer s) id=places s id+if s.handed=id then 1 else 0 := by
  rw [places_eq,places_eq]
  unfold reply completed
  simp only [List.map_append,List.map_singleton,count_snoc]
  omega

/-- A completion that built its response is one new place. -/
theorem complete_places {answer : Except Error HttpResponse} (h : ∃ a, answer=.ok a) (n : ℕ) (s : Service) (id : ℕ) :
    places (complete n answer s) id=places s id+if n=id then 1 else 0 := by
  obtain ⟨a,built⟩ := h
  rw [built,places_eq,places_eq]
  unfold completed complete
  simp only [List.map_append,List.map_singleton,count_snoc]
  omega

/-- A handed request is one new place. -/
theorem handle_places (L : Library) (a : Arrival) (s : Service) (id : ℕ) :
    places (handle L a s) id=places s id+(if s.handed=id then 1 else 0) ∧ (handle L a s).handed=s.handed+1 := by
  have replied : ∀ answer, places (reply answer s) id=places s id+(if s.handed=id then 1 else 0) ∧
      (reply answer s).handed=s.handed+1 := fun answer => ⟨reply_places answer s id,rfl⟩
  unfold handle
  split
  · unfold handleDescribe
    split
    · exact replied _
    · split
      · exact replied _
      · refine ⟨?_,rfl⟩
        rw [notifyAll_places,places_eq,places_eq]
        unfold completed
        simp only [List.map_append,List.map_singleton,count_snoc]
        omega
  · split
    · exact replied _
    · split
      · exact replied _
      · unfold handleWork
        split
        · exact replied _
        · split
          · exact replied _
          · refine ⟨?_,rfl⟩
            rw [notifyAll_places,places_eq,places_eq]
            unfold completed
            simp only [List.map_append,List.map_singleton,count_snoc]
            omega

/-- Removing the first reply with a number removes one of its places. -/
theorem eraseReply_count {replies : List Reply} {n : ℕ} {r : Reply} (h : replies.find? (fun r => r.id=n)=some r) (id : ℕ) :
    (replies.map (fun r => r.id)).count id=
      ((replies.eraseP (fun r => r.id=n)).map (fun r => r.id)).count id+if n=id then 1 else 0 := by
  induction replies with
  | nil => cases h
  | cons first rest ih =>
    by_cases found : first.id=n
    · rw [List.eraseP_cons_of_pos (by simpa using found),List.map_cons,List.count_cons,found]
      simp only [beq_iff_eq]
    · rw [List.find?_cons_of_neg (by simpa using found)] at h
      have tail := ih h
      rw [List.eraseP_cons_of_neg (by simpa using found),List.map_cons,List.map_cons,List.count_cons,List.count_cons,tail]
      omega

/-- A delivered reply moves from its handler to the completions. -/
theorem deliverReply_places {s : Service} (h : ∀ r∈s.replies, ∃ a, r.answer=.ok a) (n id : ℕ) :
    places (deliverReply n s) id=places s id := by
  unfold deliverReply
  cases hf : s.replies.find? (fun r => r.id=n) with
  | none => rfl
  | some r =>
    have built := h r (List.mem_of_find?_eq_some hf)
    have erased := eraseReply_count hf id
    simp only
    rw [complete_places built,places_eq,places_eq,erased]
    unfold completed
    simp only
    omega

/-- Released and kept waiters are the waiters. -/
theorem released_count (all : Bool) (clock : ℕ → ℤ) (i : ℕ) (waiters : List Waiter) (id : ℕ) :
    ((released all clock i waiters).1.map (fun w => w.id)).count id+
      ((released all clock i waiters).2.map (fun w => w.id)).count id=(waiters.map (fun w => w.id)).count id := by
  induction waiters generalizing i with
  | nil => rfl
  | cons waiter rest ih =>
    have tail := ih (i+1)
    unfold released
    simp only
    split
    · simp only [List.map_cons,List.count_cons]
      omega
    · simp only [List.map_cons,List.count_cons]
      omega

/-- A step of the worker moves requests between places. -/
theorem stepWorker_places (L : Library) (cancelled : Bool) (x : Execution) (s : Service) (id : ℕ) :
    places (stepWorker L cancelled x s) id=places s id := by
  unfold stepWorker
  split
  · next at_ =>
    unfold takeWork
    split
    · next work rest hq =>
      rw [places_eq,places_eq,hq,at_]
      unfold completed
      simp only [inHands,List.map_cons,List.count_cons,List.count_nil]
      omega
    · rw [places_eq,places_eq,at_]
      unfold completed
      by_cases closed : s.closed=true
      · rw [if_pos closed]
        rfl
      · rw [if_neg closed]
        rfl
  · rfl
  · next work stopping at_ =>
    unfold checkWork
    split
    · rw [places_eq,places_eq,at_]
      unfold completed
      simp only [inHands,count_snoc,List.count_cons,List.count_nil,beq_iff_eq]
      omega
    · rw [places_eq,places_eq,at_]
      rfl
  · next work stopping at_ =>
    rw [complete_places (answerOf_ok ..),places_eq,places_eq,at_]
    unfold completed
    simp only [inHands,List.count_cons,List.count_nil,beq_iff_eq]
    omega
  · rfl

/-- A step of the readiness thread moves requests between places. -/
theorem stepReadiness_places (L : Library) {s : Service}
    (h : ∀ waiters description, s.readiness=.releasing waiters description → finite description=true)
    (clock : ℕ → ℤ) (facing : Facing) (cancelled : Bool) (id : ℕ) :
    places (stepReadiness L clock facing cancelled s) id=places s id := by
  unfold stepReadiness
  split
  · next at_ =>
    unfold scanWaiters
    split
    · rw [places_eq,places_eq,at_]
      unfold completed
      by_cases closed : s.closed=true
      · rw [if_pos closed]
        rfl
      · rw [if_neg closed]
        rfl
    · next waiter rest hw =>
      split
      · rw [places_eq,places_eq,at_]
        rfl
      · have parts := released_count (s.node || s.stopping) clock 1 s.waiters id
        rw [places_eq,places_eq,at_]
        unfold completed
        simp only [inRelease,List.count_nil]
        omega
  · rfl
  · next at_ =>
    split
    · rw [places_eq,places_eq,at_]
      rfl
    · rfl
  · next waiter rest description at_ =>
    unfold answerWaiter
    split
    · rw [places_eq,places_eq,at_]
      unfold completed
      simp only [inRelease,List.map_cons,List.count_cons,count_snoc,beq_iff_eq]
      omega
    · rw [complete_places (response_finite (h _ _ at_) 200),places_eq,places_eq,at_]
      unfold completed
      simp only [inRelease,List.map_cons,List.count_cons,beq_iff_eq]
      omega
  · next at_ =>
    rw [places_eq,places_eq,at_]
    rfl
  · rfl

end Places

section Encodable

variable {L : Library}

/-- Every response that the service is about to build or deliver can be built. -/
structure Encodable (s : Service) : Prop where
  /-- No exception has left the service. -/
  kept : s.escaped=[]
  /-- Handlers hold built responses. -/
  replies : ∀ r∈s.replies, ∃ a, r.answer=.ok a
  /-- The reference is the one of the constructor. -/
  reference : ∃ path target identity, s.reference=referenceOf path target identity
  /-- The facts have a JSON text. -/
  facts : finiteMembers s.facts=true
  /-- The description for released waiters has a JSON text. -/
  described : ∀ waiters description, s.readiness=.releasing waiters description → finite description=true

/-- Descriptions of the service can be built. -/
theorem encodable_describe {s : Service} (h : Encodable s) (facing : Facing) : finite (describeLocked s facing)=true := by
  obtain ⟨path,target,identity,reference⟩ := h.reference
  exact describeLocked_finite reference h.facts facing

/-- A built reply can be delivered. -/
theorem encodable_reply {s : Service} (h : Encodable s) {answer : Except Error HttpResponse} (built : ∃ a, answer=.ok a) :
    Encodable (reply answer s) := by
  refine {h with replies := fun r member => ?_}
  rcases List.mem_append.mp member with old | new
  · exact h.replies r old
  · rw [List.mem_singleton.mp new]
    exact built

/-- A notification changes no response. -/
theorem encodable_notifyAll {s : Service} (h : Encodable s) : Encodable (notifyAll s) := by
  refine ⟨h.kept,h.replies,h.reference,h.facts,?_⟩
  intro waiters description at_
  refine h.described waiters description ?_
  unfold notifyAll at at_
  cases hr : s.readiness with
  | asleep limit =>
    rw [hr] at at_
    cases at_
  | _ =>
    rw [hr] at at_
    exact at_

/-- A handed request gets a response that can be built. -/
theorem encodable_handle {s : Service} (h : Encodable s) (a : Arrival) : Encodable (handle L a s) := by
  unfold handle
  split
  · unfold handleDescribe
    split
    · exact encodable_reply h (fault_ok ..)
    · split
      · exact encodable_reply h (response_finite (encodable_describe h a.facing) 200)
      · exact encodable_notifyAll ⟨h.kept,h.replies,h.reference,h.facts,h.described⟩
  · split
    · exact encodable_reply h (response_finite rfl 200)
    · split
      · exact encodable_reply h (fault_ok ..)
      · unfold handleWork
        split
        · exact encodable_reply h (fault_ok ..)
        · split
          · exact encodable_reply h (fault_ok ..)
          · exact encodable_notifyAll ⟨h.kept,h.replies,h.reference,h.facts,h.described⟩

/-- A completion with a built response leaves no exception. -/
theorem encodable_complete {s : Service} (h : Encodable s) (id : ℕ) {answer : Except Error HttpResponse}
    (built : ∃ a, answer=.ok a) : Encodable (complete id answer s) := by
  obtain ⟨a,same⟩ := built
  rw [same]
  exact ⟨h.kept,h.replies,h.reference,h.facts,h.described⟩

/-- One step of the worker keeps responses buildable. -/
theorem encodable_worker {s : Service} (h : Encodable s) (cancelled : Bool) (x : Execution) :
    Encodable (stepWorker L cancelled x s) := by
  unfold stepWorker
  split
  · unfold takeWork
    split <;> exact ⟨h.kept,h.replies,h.reference,h.facts,h.described⟩
  · exact h
  · unfold checkWork
    split <;> exact ⟨h.kept,h.replies,h.reference,h.facts,h.described⟩
  · refine encodable_complete ?_ _ (answerOf_ok ..)
    exact ⟨h.kept,h.replies,h.reference,h.facts,h.described⟩
  · exact h

/-- One step of the readiness thread keeps responses buildable. -/
theorem encodable_readiness {s : Service} (h : Encodable s) (clock : ℕ → ℤ) (facing : Facing) (cancelled : Bool) :
    Encodable (stepReadiness L clock facing cancelled s) := by
  unfold stepReadiness
  split
  · unfold scanWaiters
    split
    · refine {h with described := fun waiters description at_ => ?_}
      simp only at at_
      by_cases closed : s.closed=true
      · rw [if_pos closed] at at_
        cases at_
      · rw [if_neg closed] at at_
        cases at_
    · split
      · exact {h with described := fun waiters description at_ => by cases at_}
      · refine {h with described := fun waiters description at_ => ?_}
        cases at_
        exact encodable_describe h facing
  · exact h
  · split
    · exact {h with described := fun waiters description at_ => by cases at_}
    · exact h
  · next waiter rest description at_ =>
    have further : ∀ waiters other, ReadinessPoint.releasing rest description=.releasing waiters other →
        finite other=true := by
      intro waiters other same
      cases same
      exact h.described _ _ at_
    unfold answerWaiter
    split
    · exact {h with described := further}
    · refine encodable_complete ?_ _ (response_finite (h.described _ _ at_) 200)
      exact {h with described := further}
  · exact {h with described := fun waiters description at_ => by cases at_}
  · exact h

/-- Members of an object of finite numbers are finite. -/
theorem finite_members {value : Json} {members : List (String × Json)} (hv : value=.object members)
    (h : finite value=true) : finiteMembers members=true := by
  rw [hv] at h
  exact h

/-- Readiness keeps responses buildable. -/
theorem encodable_ready {s : Service} (h : Encodable s) (node : Bool) (facts : Facts) :
    Encodable (afterCall (ready node facts s) s) := by
  unfold ready
  split
  · next members hv =>
    have listed := finite_members hv facts.encodable
    split
    · exact h
    · split
      · exact h
      · split
        · exact h
        · split
          · exact encodable_notifyAll ⟨h.kept,h.replies,h.reference,listed,h.described⟩
          · split
            · exact h
            · exact encodable_notifyAll ⟨h.kept,h.replies,h.reference,listed,h.described⟩
  · exact h

/-- One step keeps responses buildable. -/
theorem encodable_step {s : Service} (h : Encodable s) (action : Action) : Encodable (step L s action) := by
  unfold step
  split
  · exact encodable_handle h _
  · unfold deliverReply
    split
    · exact h
    · next r hf =>
      refine encodable_complete ?_ _ (h.replies r (List.mem_of_find?_eq_some hf))
      exact {h with replies := fun r member => h.replies r (List.mem_of_mem_eraseP member)}
  · exact encodable_worker h _ _
  · exact encodable_readiness h _ _ _
  · next worker readiness =>
    refine {h with described := fun waiters description at_ => h.described waiters description ?_}
    unfold wake at at_
    cases hr : s.readiness with
    | asleep limit =>
      rw [hr] at at_
      cases readiness <;> cases at_
    | _ =>
      rw [hr] at at_
      exact at_
  · exact encodable_ready h _ _
  · next facts current =>
    unfold setFacts
    split
    · next members hv => exact {h with facts := finite_members hv facts.encodable}
    · exact h
  · exact encodable_notifyAll ⟨h.kept,h.replies,h.reference,h.facts,h.described⟩
  · unfold beginClose
    split
    · exact ⟨h.kept,h.replies,h.reference,h.facts,h.described⟩
    · exact h
  · unfold stepCloser
    split
    · exact h
    · exact encodable_notifyAll ⟨h.kept,h.replies,h.reference,h.facts,h.described⟩
    · exact ⟨h.kept,h.replies,h.reference,h.facts,h.described⟩
    · exact h
    · exact ⟨h.kept,h.replies,h.reference,h.facts,h.described⟩
    · exact h

end Encodable

section Counting

variable {L : Library}

/-- Every request handed over so far is in exactly one place. -/
def Counted (s : Service) : Prop := ∀ id, places s id=if id<s.handed then 1 else 0

/-- Number of requests that a step hands over. -/
def arrivals : Action → ℕ
  | .handle _ => 1
  | _ => 0

/-- A call of the owner moves no request. -/
theorem ready_places (node : Bool) (facts : Facts) (s : Service) (id : ℕ) :
    places (afterCall (ready node facts s) s) id=places s id ∧ (afterCall (ready node facts s) s).handed=s.handed := by
  unfold ready
  split
  · split
    · exact ⟨rfl,rfl⟩
    · split
      · exact ⟨rfl,rfl⟩
      · split
        · exact ⟨rfl,rfl⟩
        · split
          · exact ⟨notifyAll_places _ _,rfl⟩
          · split
            · exact ⟨rfl,rfl⟩
            · exact ⟨notifyAll_places _ _,rfl⟩
  · exact ⟨rfl,rfl⟩

/-- Only a handed request is a new place. -/
theorem step_places {s : Service} (h : Encodable s) (action : Action) (id : ℕ) :
    places (step L s action) id=places s id+(if s.handed=id then arrivals action else 0) ∧
      (step L s action).handed=s.handed+arrivals action := by
  have same : ∀ {t : Service}, places t id=places s id → t.handed=s.handed →
      places t id=places s id+(if s.handed=id then 0 else 0) ∧ t.handed=s.handed+0 := by
    intro t moved handed
    rw [ite_self]
    exact ⟨moved,handed⟩
  cases action with
  | handle arrival => exact handle_places L arrival s id
  | deliver n =>
    refine same (deliverReply_places h.replies n id) ?_
    unfold step deliverReply
    simp only
    split
    · rfl
    · unfold complete
      split <;> rfl
  | worker cancelled execution =>
    refine same (stepWorker_places L cancelled execution s id) ?_
    unfold step stepWorker
    simp only
    split
    · unfold takeWork
      split <;> rfl
    · rfl
    · unfold checkWork
      split <;> rfl
    · unfold complete
      split <;> rfl
    · rfl
  | readiness clock facing cancelled =>
    refine same (stepReadiness_places L h.described clock facing cancelled id) ?_
    unfold step stepReadiness
    simp only
    split
    · unfold scanWaiters
      split
      · rfl
      · split <;> rfl
    · rfl
    · split <;> rfl
    · unfold answerWaiter
      split
      · rfl
      · unfold complete
        split <;> rfl
    · rfl
    · rfl
  | wake worker readiness => exact same (wake_places worker readiness s id) rfl
  | ready node facts => exact same (ready_places node facts s id).1 (ready_places node facts s id).2
  | facts facts current =>
    unfold step setFacts
    simp only
    split
    · exact same rfl rfl
    · exact same rfl rfl
  | stopping => exact same (notifyAll_places _ _) rfl
  | close =>
    unfold step beginClose
    simp only
    split
    · exact same rfl rfl
    · exact same rfl rfl
  | closing =>
    unfold step stepCloser
    simp only
    split
    · exact same rfl rfl
    · exact same (notifyAll_places _ _) rfl
    · exact same rfl rfl
    · exact same rfl rfl
    · exact same rfl rfl
    · exact same rfl rfl

/-- One step keeps every request in exactly one place. -/
theorem counted_step {s : Service} (he : Encodable s) (h : Counted s) (action : Action) : Counted (step L s action) := by
  intro id
  obtain ⟨moved,handed⟩ := step_places (L := L) he action id
  have before := h id
  have few : arrivals action ≤ 1 := by
    cases action <;> simp [arrivals]
  rw [moved,handed,before]
  generalize arrivals action=new at few ⊢
  by_cases here : s.handed=id
  · rw [if_pos here,if_neg (by omega)]
    split <;> omega
  · rw [if_neg here]
    split <;> split <;> omega

end Counting

end Ros1Adapter.SceneServicePlaces
