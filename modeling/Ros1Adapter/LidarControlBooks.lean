import Mathlib.Algebra.BigOperators.Group.Finset.Basic
import Mathlib.Algebra.BigOperators.Fin
import Mathlib.Tactic.Common
import Ros1Adapter.LidarControl

/-!
# Receipts and queue of the lidar control host

An accepted slot is queued or in the hands of the lane, so it is not reused
before its operation ended. The callback flag counts the one callback that is
about to be posted, posted or running. A request is in one place: held as a
discovery, kept by a slot, completed, or removed after it reported a
cancellation.
-/

namespace Ros1Adapter.LidarControlBooks

open SceneJson LidarControl

section Requests

/-- Members after a request was counted. -/
def counted (s : Control) : Control := {s with handed := s.handed+1}

/-- A chosen slot holds no accepted operation, unless it has no identity. -/
theorem chooseSlot_some {operations : Slot → Operation} {slots : List Slot} {best : Option (Slot × ℤ)} {index : Slot}
    (h : chooseSlot operations slots best=some index)
    (hb : ∀ b, best=some b → (operations b.1).state≠.accepted) :
    (operations index).id="" ∨ (operations index).state≠.accepted := by
  induction slots generalizing best with
  | nil =>
    unfold chooseSlot at h
    obtain ⟨b,found,same⟩ := Option.map_eq_some_iff.mp h
    rw [← same]
    exact Or.inr (hb b found)
  | cons i rest ih =>
    unfold chooseSlot at h
    split at h
    · next empty =>
      cases h
      exact Or.inl empty
    · split at h
      · next older =>
        refine ih h (fun b found => ?_)
        simp only [Bool.and_eq_true,decide_eq_true_eq] at older
        cases found
        exact older.1
      · exact ih h hb

/-- A slot that is not found has another identity. -/
theorem slotOf_none {s : Control} {id : String} (h : slotOf s id=none) (i : Slot) : (s.operations i).id≠id := by
  have never := List.find?_eq_none.mp h i (List.mem_finRange i)
  simpa using never

/-- What one request does. -/
theorem handle_cases (a : Arrival) (s : Control) :
    (∃ r, handle a s=complete s.handed r (counted s)) ∨
      (∃ t, handle a s={counted s with readyWaiters := s.readyWaiters ++ [⟨s.handed,t⟩]}) ∨
      (∃ i, s.stopping=false ∧ (s.operations i).state=.accepted ∧ handle a s=waitFor a s.handed i (counted s)) ∨
      ∃ c i, s.stopping=false ∧ slotOf s a.requestId=none ∧
        chooseSlot s.operations (List.finRange 128) none=some i ∧ handle a s=accept a s.handed c i (counted s) := by
  unfold handle
  simp only
  split
  · exact Or.inl ⟨_,rfl⟩
  · next running =>
    have running : s.stopping=false := by simpa using running
    cases routing : routed a s.handed {s with handed := s.handed+1} with
    | error what => exact Or.inl ⟨_,rfl⟩
    | ok after =>
      simp only
      unfold routed at routing
      split at routing
      · unfold handleDescribe at routing
        split at routing
        · cases routing
        · split at routing
          · cases routing
            exact Or.inl ⟨_,rfl⟩
          · cases routing
            exact Or.inr (Or.inl ⟨_,rfl⟩)
      · split at routing
        · cases routing
          exact Or.inl ⟨_,rfl⟩
        · split at routing
          · unfold handleOperation at routing
            split at routing
            · cases routing
            · split at routing
              · cases routing
                exact Or.inl ⟨_,rfl⟩
              · next index _ =>
                split at routing
                · next waiting =>
                  cases routing
                  simp only [Bool.and_eq_true,decide_eq_true_eq] at waiting
                  exact Or.inr (Or.inr (Or.inl ⟨index,running,waiting.2,rfl⟩))
                · cases routing
                  exact Or.inl ⟨_,rfl⟩
          · split at routing
            · cases routing
              exact Or.inl ⟨_,rfl⟩
            · unfold handleConfigure at routing
              obtain ⟨c,-,rest⟩ := ActionRules.except_bind_ok.mp routing
              split at rest
              · split at rest
                · cases rest
                  exact Or.inl ⟨_,rfl⟩
                · cases rest
                  exact Or.inl ⟨_,rfl⟩
              · next new =>
                split at rest
                · cases rest
                  exact Or.inl ⟨_,rfl⟩
                · split at rest
                  · cases rest
                    exact Or.inl ⟨_,rfl⟩
                  · split at rest
                    · cases rest
                      exact Or.inl ⟨_,rfl⟩
                    · next index chosen =>
                      cases rest
                      exact Or.inr (Or.inr (Or.inr ⟨c,index,running,new,chosen,rfl⟩))

end Requests

section Finishing

/-- Members that finishing an operation leaves alone. -/
structure SameBooks (s t : Control) : Prop where
  /-- Queue. -/
  pending : t.pending=s.pending
  /-- Lane. -/
  lane : t.lane=s.lane
  /-- Stop flag. -/
  stopping : t.stopping=s.stopping
  /-- Callback flag. -/
  scheduled : t.scheduled=s.scheduled
  /-- Handlers that are about to post. -/
  posters : t.posters=s.posters
  /-- Posted callbacks. -/
  callbacks : t.callbacks=s.callbacks
  /-- Desired revision. -/
  desiredRevision : t.desiredRevision=s.desiredRevision
  /-- Accepted operations. -/
  accepted : t.accepted=s.accepted
  /-- Calls of the owner's callback. -/
  applies : t.applies=s.applies
  /-- Applied configuration. -/
  applied : t.applied=s.applied
  /-- Applied revision. -/
  appliedRevision : t.appliedRevision=s.appliedRevision
  /-- Requests so far. -/
  handed : t.handed=s.handed
  /-- Held discoveries. -/
  readyWaiters : t.readyWaiters=s.readyWaiters
  /-- Removed waiters. -/
  pruned : t.pruned=s.pruned

/-- Finishing several operations leaves the books alone. -/
theorem finishAll_books (failure : String) (now : ℤ) (slots : List Slot) (s : Control) :
    SameBooks s (finishAll failure now slots s) := by
  induction slots generalizing s with
  | nil => exact ⟨rfl,rfl,rfl,rfl,rfl,rfl,rfl,rfl,rfl,rfl,rfl,rfl,rfl,rfl⟩
  | cons index rest ih =>
    have tail := ih (finish index failure now s)
    exact ⟨tail.pending,tail.lane,tail.stopping,tail.scheduled,tail.posters,tail.callbacks,tail.desiredRevision,
      tail.accepted,tail.applies,tail.applied,tail.appliedRevision,tail.handed,tail.readyWaiters,tail.pruned⟩

/-- Finishing an ended operation again changes nothing. -/
theorem finished_twice (op : Operation) (failure : String) (now : ℤ) :
    finished (finished op failure now) failure now=finished op failure now := rfl

/-- Slots after several operations were finished. -/
theorem finishAll_operations (failure : String) (now : ℤ) (slots : List Slot) (s : Control) (i : Slot) :
    (finishAll failure now slots s).operations i=
      if i∈slots then finished (s.operations i) failure now else s.operations i := by
  induction slots generalizing s with
  | nil => rfl
  | cons index rest ih =>
    have tail := ih (finish index failure now s)
    show (finishAll failure now rest (finish index failure now s)).operations i=_
    rw [tail]
    by_cases here : i=index
    · have first : (finish index failure now s).operations i=finished (s.operations i) failure now := by
        rw [here]
        exact Function.update_self ..
      rw [first,if_pos (List.mem_cons.mpr (Or.inl here))]
      split
      · exact finished_twice ..
      · rfl
    · have other : (finish index failure now s).operations i=s.operations i := Function.update_of_ne here ..
      rw [other]
      by_cases later : i∈rest
      · rw [if_pos later,if_pos (List.mem_cons_of_mem _ later)]
      · rw [if_neg later,if_neg (fun member => (List.mem_cons.mp member).elim here later)]

/-- Failed operations add no success. -/
theorem finishAll_succeeded (failure : String) (hf : failure≠"") (now : ℤ) (slots : List Slot) (s : Control) :
    (finishAll failure now slots s).succeeded=s.succeeded := by
  induction slots generalizing s with
  | nil => rfl
  | cons index rest ih =>
    have tail := ih (finish index failure now s)
    have first : (finish index failure now s).succeeded=s.succeeded := if_neg hf
    exact tail.trans first

/-- A finished operation keeps its identity, revision and configuration, and no reply. -/
theorem finished_state (op : Operation) (failure : String) (now : ℤ) :
    (finished op failure now).state≠.accepted ∧ (finished op failure now).state≠.free := by
  unfold finished
  simp only
  split <;> exact ⟨nofun,nofun⟩

end Finishing

section Slots

/-- Replies that a slot keeps. -/
def slotReplies (op : Operation) : List ℕ := op.submit.toList ++ op.waiters

/-- Slots in the hands of the lane. -/
def laneSlots : LanePoint → List Slot
  | .taken index _ _ => [index]
  | .tried index _ _ => [index]
  | _ => []

/-- Slots on their way to their outcome, in the order of their turns. -/
def underway (s : Control) : List Slot := laneSlots s.lane ++ s.pending

/-- Whether the lane is inside `ApplyPending`. -/
def laneRuns : LanePoint → ℕ
  | .idle => 0
  | _ => 1

/-- Slots, queue and callback flag fit together. -/
structure Slots (s : Control) : Prop where
  /-- Only an accepted operation keeps replies. -/
  quiet : ∀ i, (s.operations i).state≠.accepted → slotReplies (s.operations i)=[]
  /-- No slot is under way twice. -/
  once : (underway s).Nodup
  /-- A slot under way is accepted until the host stops. -/
  current : ∀ i∈underway s, s.stopping=false → (s.operations i).state=.accepted
  /-- An accepted slot is under way. -/
  placed : ∀ i, (s.operations i).state=.accepted → i∈underway s
  /-- A host that stops has nothing queued and nothing accepted. -/
  stopped : s.stopping=true → s.pending=[] ∧ ∀ i, (s.operations i).state≠.accepted
  /-- Only a free slot has no identity. -/
  named : ∀ i, (s.operations i).id="" → (s.operations i).state=.free
  /-- No two slots have the same identity. -/
  apart : ∀ i j, (s.operations i).id=(s.operations j).id → (s.operations i).id≠"" → i=j
  /-- The callback flag counts the one callback. -/
  callback : s.posters+s.callbacks+laneRuns s.lane=if s.scheduled then 1 else 0
  /-- A queue has a callback. -/
  awaited : s.pending≠[] → s.scheduled=true

/-- Queue, lane and flags of two states are the same. -/
structure SameTurns (s t : Control) : Prop where
  /-- Queue. -/
  pending : t.pending=s.pending
  /-- Lane. -/
  lane : t.lane=s.lane
  /-- Stop flag. -/
  stopping : t.stopping=s.stopping
  /-- Callback flag. -/
  scheduled : t.scheduled=s.scheduled
  /-- Handlers that are about to post. -/
  posters : t.posters=s.posters
  /-- Posted callbacks. -/
  callbacks : t.callbacks=s.callbacks

/-- Facts about slots hold where states and identities did not change. -/
theorem slots_kinds {s t : Control} (h : Slots s) (ht : SameTurns s t)
    (hk : ∀ j, (t.operations j).state=(s.operations j).state ∧ (t.operations j).id=(s.operations j).id)
    (hq : ∀ j, (s.operations j).state≠.accepted → slotReplies (t.operations j)=[]) : Slots t := by
  have under : underway t=underway s := by
    unfold underway
    rw [ht.pending,ht.lane]
  refine ⟨?_,?_,?_,?_,?_,?_,?_,?_,?_⟩
  · intro j other
    rw [(hk j).1] at other
    exact hq j other
  · rw [under]
    exact h.once
  · intro j member running
    rw [under] at member
    rw [ht.stopping] at running
    rw [(hk j).1]
    exact h.current j member running
  · intro j taken
    rw [(hk j).1] at taken
    rw [under]
    exact h.placed j taken
  · intro stops
    rw [ht.stopping] at stops
    obtain ⟨empty,none⟩ := h.stopped stops
    refine ⟨ht.pending.trans empty,fun j => ?_⟩
    rw [(hk j).1]
    exact none j
  · intro j empty
    rw [(hk j).2] at empty
    rw [(hk j).1]
    exact h.named j empty
  · intro j k same used
    rw [(hk j).2,(hk k).2] at same
    rw [(hk j).2] at used
    exact h.apart j k same used
  · rw [ht.posters,ht.callbacks,ht.lane,ht.scheduled]
    exact h.callback
  · rw [ht.pending,ht.scheduled]
    exact h.awaited

/-- Facts about slots hold where nothing of theirs changed. -/
theorem slots_frame {s t : Control} (h : Slots s) (ht : SameTurns s t) (ho : t.operations=s.operations) : Slots t := by
  refine slots_kinds h ht (fun j => ?_) (fun j other => ?_)
  · rw [ho]
    exact ⟨rfl,rfl⟩
  · rw [ho]
    exact h.quiet j other

/-- A change of the waiters of an accepted operation keeps the slots. -/
theorem slots_waiters {s t : Control} (h : Slots s) (ht : SameTurns s t) {i : Slot}
    (hi : (s.operations i).state=.accepted) {waiters : List ℕ}
    (ho : t.operations=Function.update s.operations i {s.operations i with waiters := waiters}) : Slots t := by
  refine slots_kinds h ht (fun j => ?_) (fun j other => ?_)
  · rw [ho]
    by_cases here : j=i
    · rw [here,Function.update_self]
      exact ⟨rfl,rfl⟩
    · rw [Function.update_of_ne here]
      exact ⟨rfl,rfl⟩
  · have apart : j≠i := by
      intro here
      rw [here] at other
      exact other hi
    rw [ho,Function.update_of_ne apart]
    exact h.quiet j other

/-- An accepted operation takes a slot that is not under way. -/
theorem slots_accept {s : Control} (h : Slots s) (running : s.stopping=false) {a : Arrival} (hn : a.requestId≠"")
    (new : slotOf s a.requestId=none) {i : Slot} (hi : chooseSlot s.operations (List.finRange 128) none=some i)
    (reply : ℕ) (c : Configure) : Slots (accept a reply c i s) := by
  have free : (s.operations i).state≠.accepted := by
    rcases chooseSlot_some hi nofun with empty | other
    · rw [h.named i empty]
      exact nofun
    · exact other
  have away : i∉underway s := fun member => free (h.current i member running)
  have here : (accept a reply c i s).operations i=
      {id := a.requestId, fingerprint := a.body, state := .accepted, enabled := c.enabled,
        revision := s.desiredRevision+1, deadline := a.now+c.budget, submit := some reply} := Function.update_self ..
  have there : ∀ j, j≠i → (accept a reply c i s).operations j=s.operations j := fun j apart => Function.update_of_ne apart ..
  have under : underway (accept a reply c i s)=underway s ++ [i] := (List.append_assoc ..).symm
  refine ⟨?_,?_,?_,?_,?_,?_,?_,?_,?_⟩
  · intro j other
    by_cases same : j=i
    · rw [same,here] at other
      exact absurd rfl other
    · rw [there j same] at other ⊢
      exact h.quiet j other
  · rw [under]
    refine List.nodup_append.mpr ⟨h.once,List.nodup_singleton i,?_⟩
    intro j member k single same
    rw [List.mem_singleton] at single
    rw [same,single] at member
    exact away member
  · intro j member _
    rw [under] at member
    by_cases same : j=i
    · rw [same,here]
    · rw [there j same]
      rcases List.mem_append.mp member with old | single
      · exact h.current j old running
      · exact absurd (List.mem_singleton.mp single) same
  · intro j taken
    rw [under]
    by_cases same : j=i
    · exact List.mem_append.mpr (Or.inr (List.mem_singleton.mpr same))
    · rw [there j same] at taken
      exact List.mem_append.mpr (Or.inl (h.placed j taken))
  · intro stops
    have never : s.stopping=true := stops
    rw [running] at never
    cases never
  · intro j empty
    by_cases same : j=i
    · rw [same,here] at empty
      exact absurd empty hn
    · rw [there j same] at empty ⊢
      exact h.named j empty
  · intro j k same used
    by_cases first : j=i
    · by_cases second : k=i
      · rw [first,second]
      · rw [first,here,there k second] at same
        exact absurd same.symm (slotOf_none new k)
    · by_cases second : k=i
      · rw [second,here,there j first] at same
        exact absurd same (slotOf_none new j)
      · rw [there j first,there k second] at same
        rw [there j first] at used
        exact h.apart j k same used
  · have before := h.callback
    show (if s.scheduled then s.posters else s.posters+1)+s.callbacks+laneRuns s.lane=1
    cases scheduled : s.scheduled with
    | true =>
      rw [scheduled] at before
      exact before
    | false =>
      rw [scheduled] at before
      simp only [Bool.false_eq_true,if_false] at before ⊢
      omega
  · exact fun _ => rfl

/-- One request keeps the slots. -/
theorem slots_handle {s : Control} (h : Slots s) (a : Arrival) (hn : a.requestId≠"") : Slots (handle a s) := by
  have same : SameTurns s (counted s) := ⟨rfl,rfl,rfl,rfl,rfl,rfl⟩
  have base : Slots (counted s) := slots_frame h same rfl
  rcases handle_cases a s with ⟨r,shape⟩ | ⟨t,shape⟩ | ⟨i,running,taken,shape⟩ | ⟨c,i,running,new,chosen,shape⟩
  · rw [shape]
    exact slots_frame h ⟨rfl,rfl,rfl,rfl,rfl,rfl⟩ rfl
  · rw [shape]
    exact slots_frame h ⟨rfl,rfl,rfl,rfl,rfl,rfl⟩ rfl
  · rw [shape]
    unfold waitFor
    simp only
    split
    · exact slots_waiters h ⟨rfl,rfl,rfl,rfl,rfl,rfl⟩ taken rfl
    · exact slots_waiters h ⟨rfl,rfl,rfl,rfl,rfl,rfl⟩ taken rfl
  · rw [shape]
    exact slots_accept base running hn new chosen s.handed c

/-- Slots after some accepted operations were finished. -/
theorem slots_finishAll {s t : Control} (h : Slots s) {failure : String} {now : ℤ} {slots : List Slot}
    (hs : ∀ i∈slots, (s.operations i).state=.accepted)
    (ho : ∀ i, t.operations i=if i∈slots then finished (s.operations i) failure now else s.operations i) :
    (∀ i, (t.operations i).state≠.accepted → slotReplies (t.operations i)=[]) ∧
      (∀ i, (t.operations i).state=.accepted ↔ (s.operations i).state=.accepted ∧ i∉slots) ∧
      (∀ i, (t.operations i).id="" → (t.operations i).state=.free) ∧
      ∀ i j, (t.operations i).id=(t.operations j).id → (t.operations i).id≠"" → i=j := by
  have name : ∀ i, (t.operations i).id=(s.operations i).id := by
    intro i
    rw [ho]
    split <;> rfl
  refine ⟨?_,?_,?_,?_⟩
  · intro i other
    rw [ho] at other ⊢
    by_cases member : i∈slots
    · rw [if_pos member]
      rfl
    · rw [if_neg member] at other ⊢
      exact h.quiet i other
  · intro i
    rw [ho]
    by_cases member : i∈slots
    · rw [if_pos member]
      exact ⟨fun taken => absurd taken (finished_state ..).1,fun both => absurd member both.2⟩
    · rw [if_neg member]
      exact ⟨fun taken => ⟨taken,member⟩,fun both => both.1⟩
  · intro i empty
    rw [name] at empty
    have free := h.named i empty
    have away : i∉slots := by
      intro member
      have taken := hs i member
      rw [free] at taken
      cases taken
    rw [ho,if_neg away]
    exact free
  · intro i j same used
    rw [name,name] at same
    rw [name] at used
    exact h.apart i j same used

/-- A post keeps the slots. -/
theorem slots_post {s : Control} (h : Slots s) (succeeds : Bool) (now : ℤ) : Slots (post succeeds now s) := by
  unfold post
  split
  · exact h
  · next posters some_ =>
    have one := h.callback
    have full : s.scheduled=true := by
      cases scheduled : s.scheduled with
      | true => rfl
      | false =>
        rw [scheduled,some_] at one
        simp only [Bool.false_eq_true,if_false] at one
        omega
    rw [full,if_pos rfl,some_] at one
    split
    · have same : underway s=underway {s with posters := posters, callbacks := s.callbacks+1} := rfl
      refine ⟨h.quiet,?_,?_,?_,h.stopped,h.named,h.apart,?_,h.awaited⟩
      · rw [← same]
        exact h.once
      · rw [← same]
        exact h.current
      · rw [← same]
        exact h.placed
      · show posters+(s.callbacks+1)+laneRuns s.lane=if s.scheduled then 1 else 0
        rw [full,if_pos rfl]
        omega
    · -- The poster holds the only callback, so the lane is idle.
      have idle : laneSlots s.lane=[] := by
        cases lane : s.lane with
        | idle | looping => rfl
        | taken _ _ _ | tried _ _ _ =>
          rw [lane] at one
          simp only [laneRuns] at one
          omega
      have under : underway s=s.pending := by
        unfold underway
        rw [idle,List.nil_append]
      have queued : ∀ i∈s.pending, (s.operations i).state=.accepted := by
        intro i member
        refine h.current i (by rw [under]; exact member) ?_
        cases stops : s.stopping with
        | false => rfl
        | true =>
          rw [(h.stopped stops).1] at member
          cases member
      have books := finishAll_books "internal" now s.pending s
      obtain ⟨quiet,taken,named,apart⟩ :=
        slots_finishAll (t := finishAll "internal" now s.pending s) h queued (finishAll_operations "internal" now s.pending s)
      have empty : underway {finishAll "internal" now s.pending s with pending := [], scheduled := false, posters := posters}=[] := by
        show laneSlots (finishAll "internal" now s.pending s).lane ++ []=[]
        rw [books.lane,idle]
        rfl
      have none : ∀ i, ((finishAll "internal" now s.pending s).operations i).state≠.accepted := by
        intro i accepted
        obtain ⟨before,away⟩ := (taken i).mp accepted
        have member := h.placed i before
        rw [under] at member
        exact away member
      refine ⟨quiet,?_,?_,fun i accepted => absurd accepted (none i),fun _ => ⟨rfl,none⟩,named,apart,?_,fun some_ => absurd rfl some_⟩
      · rw [empty]
        exact List.nodup_nil
      · intro i member
        rw [empty] at member
        cases member
      · show posters+(finishAll "internal" now s.pending s).callbacks+laneRuns (finishAll "internal" now s.pending s).lane=0
        rw [books.callbacks,books.lane]
        omega

/-- A step of the lane keeps the slots. -/
theorem slots_lane {s : Control} (h : Slots s) (now : ℤ) (throws : Bool) : Slots (stepLane now throws s) := by
  have one := h.callback
  unfold stepLane
  split
  · next lane =>
    split
    · exact h
    · next callbacks some_ =>
      have same : underway {s with callbacks := callbacks, lane := .looping}=underway s := by
        unfold underway
        rw [lane]
        rfl
      refine ⟨h.quiet,?_,?_,?_,h.stopped,h.named,h.apart,?_,h.awaited⟩
      · rw [same]
        exact h.once
      · rw [same]
        exact h.current
      · rw [same]
        exact h.placed
      · show s.posters+callbacks+1=if s.scheduled then 1 else 0
        rw [some_,lane] at one
        simp only [laneRuns] at one
        omega
  · next lane =>
    have full : s.scheduled=true := by
      cases scheduled : s.scheduled with
      | true => rfl
      | false =>
        rw [scheduled,lane] at one
        simp only [Bool.false_eq_true,if_false,laneRuns] at one
        omega
    rw [full,lane,if_pos rfl] at one
    simp only [laneRuns] at one
    unfold takeNext
    split
    · next empty =>
      have same : underway {s with scheduled := false, lane := .idle}=underway s := by
        unfold underway
        rw [lane]
        rfl
      refine ⟨h.quiet,?_,?_,?_,h.stopped,h.named,h.apart,?_,fun some_ => absurd empty some_⟩
      · rw [same]
        exact h.once
      · rw [same]
        exact h.current
      · rw [same]
        exact h.placed
      · show s.posters+s.callbacks+0=0
        omega
    · next index rest queue =>
      have running : s.stopping=false := by
        cases stops : s.stopping with
        | false => rfl
        | true =>
          rw [(h.stopped stops).1] at queue
          cases queue
      rw [if_neg (by rw [running]; exact nofun)]
      have same : underway {s with
          pending := rest, applying := true, applyingDeadline := (s.operations index).deadline,
          lane := .taken index (s.operations index).enabled (s.operations index).deadline}=underway s := by
        unfold underway
        rw [lane,queue]
        rfl
      refine ⟨h.quiet,?_,?_,?_,?_,h.named,h.apart,?_,fun _ => full⟩
      · rw [same]
        exact h.once
      · rw [same]
        exact h.current
      · rw [same]
        exact h.placed
      · intro stops
        have never : s.stopping=true := stops
        rw [running] at never
        cases never
      · show s.posters+s.callbacks+1=if s.scheduled then 1 else 0
        rw [full,if_pos rfl]
        omega
  · next index enabled deadline lane =>
    have moved : ∀ failure, underway {s with lane := .tried index enabled failure}=underway s := by
      intro failure
      unfold underway
      rw [lane]
      rfl
    have tried : ∀ failure, Slots {s with lane := .tried index enabled failure} := by
      intro failure
      refine ⟨h.quiet,?_,?_,?_,h.stopped,h.named,h.apart,?_,h.awaited⟩
      · rw [moved]
        exact h.once
      · rw [moved]
        exact h.current
      · rw [moved]
        exact h.placed
      · rw [lane] at one
        exact one
    unfold tryApply
    split
    · exact tried _
    · exact slots_frame (tried _) ⟨rfl,rfl,rfl,rfl,rfl,rfl⟩ rfl
  · next index enabled failure lane =>
    have under : underway s=index::s.pending := by
      unfold underway
      rw [lane]
      rfl
    have once := h.once
    rw [under] at once
    obtain ⟨away,rest⟩ := List.nodup_cons.mp once
    rw [lane] at one
    unfold noteOutcome
    simp only
    by_cases stops : s.stopping=true
    · rw [if_pos stops]
      obtain ⟨empty,none⟩ := h.stopped stops
      refine ⟨h.quiet,rest,?_,fun i taken => absurd taken (none i),h.stopped,h.named,h.apart,one,h.awaited⟩
      intro i member
      have never : i∈s.pending := member
      rw [empty] at never
      cases never
    · rw [if_neg stops]
      have running : s.stopping=false := by simpa using stops
      have mine : (s.operations index).state=.accepted := h.current index (by rw [under]; exact List.mem_cons_self ..) running
      have settled : ∀ t : Control, t.operations=Function.update s.operations index (finished (s.operations index) failure now) →
          t.pending=s.pending → t.lane=.looping → t.stopping=s.stopping → t.scheduled=s.scheduled → t.posters=s.posters →
          t.callbacks=s.callbacks → Slots t := by
        intro t ho hp hl hs hc hn hk
        have shape : ∀ i, t.operations i=if i∈[index] then finished (s.operations i) failure now else s.operations i := by
          intro i
          rw [ho]
          by_cases here : i=index
          · rw [here,Function.update_self,if_pos (List.mem_singleton.mpr rfl)]
          · rw [Function.update_of_ne here,if_neg (fun member => here (List.mem_singleton.mp member))]
        obtain ⟨quiet,taken,named,apart⟩ := slots_finishAll h (fun i member => by rw [List.mem_singleton.mp member]; exact mine) shape
        have left : underway t=s.pending := by
          unfold underway
          rw [hl,hp]
          rfl
        refine ⟨quiet,?_,?_,?_,?_,named,apart,?_,?_⟩
        · rw [left]
          exact rest
        · intro i member _
          rw [left] at member
          have apart_ : i∉[index] := by
            intro here
            rw [List.mem_singleton.mp here] at member
            exact away member
          exact (taken i).mpr ⟨h.current i (by rw [under]; exact List.mem_cons_of_mem _ member) running,apart_⟩
        · intro i accepted
          obtain ⟨before,apart_⟩ := (taken i).mp accepted
          have member := h.placed i before
          rw [under] at member
          rw [left]
          rcases List.mem_cons.mp member with here | later
          · exact absurd (List.mem_singleton.mpr here) apart_
          · exact later
        · intro stops_
          rw [hs,running] at stops_
          cases stops_
        · rw [hn,hk,hl,hc]
          exact one
        · rw [hp,hc]
          exact h.awaited
      split
      · exact settled _ rfl rfl rfl rfl rfl rfl rfl
      · exact settled _ rfl rfl rfl rfl rfl rfl rfl

/-- A stop keeps the slots. -/
theorem slots_stop {s : Control} (h : Slots s) (now : ℤ) (current : List (String × Json)) : Slots (stop now current s) := by
  unfold stop
  split
  · exact h
  · generalize hl : (List.finRange 128).filter (fun i => (s.operations i).state=.accepted)=slots
    have listed : ∀ i∈slots, (s.operations i).state=.accepted := by
      intro i member
      rw [← hl] at member
      simpa using (List.mem_filter.mp member).2
    have books := finishAll_books "unavailable" now slots {s with stopping := true}
    obtain ⟨quiet,taken,named,apart⟩ :=
      slots_finishAll (t := finishAll "unavailable" now slots {s with stopping := true}) h listed
        (finishAll_operations "unavailable" now slots {s with stopping := true})
    have none : ∀ i, ((finishAll "unavailable" now slots {s with stopping := true}).operations i).state≠.accepted := by
      intro i accepted
      obtain ⟨before,away⟩ := (taken i).mp accepted
      have member : i∈slots := by
        rw [← hl]
        exact List.mem_filter.mpr ⟨List.mem_finRange i,by simpa using before⟩
      exact away member
    have once : (laneSlots s.lane).Nodup := (List.nodup_append.mp h.once).1
    refine ⟨quiet,?_,?_,fun i accepted => absurd accepted (none i),fun _ => ⟨rfl,none⟩,named,apart,?_,fun some_ => absurd rfl some_⟩
    · show (laneSlots (finishAll "unavailable" now slots {s with stopping := true}).lane ++ []).Nodup
      rw [books.lane,List.append_nil]
      exact once
    · intro i _ running
      have never : (finishAll "unavailable" now slots {s with stopping := true}).stopping=false := running
      rw [books.stopping] at never
      cases never
    · show (finishAll "unavailable" now slots {s with stopping := true}).posters+
        (finishAll "unavailable" now slots {s with stopping := true}).callbacks+
        laneRuns (finishAll "unavailable" now slots {s with stopping := true}).lane=
        if (finishAll "unavailable" now slots {s with stopping := true}).scheduled then 1 else 0
      rw [books.posters,books.callbacks,books.lane,books.scheduled]
      exact h.callback

/-- Requests carry an identity. -/
def named : Action → Prop
  | .handle arrival => arrival.requestId≠""
  | _ => True

/-- One step keeps the slots. -/
theorem slots_step {s : Control} (h : Slots s) {action : Action} (hn : named action) : Slots (step s action) := by
  cases action with
  | handle arrival => exact slots_handle h arrival hn
  | post succeeds now => exact slots_post h succeeds now
  | lane now throws => exact slots_lane h now throws
  | expire _ _ _ | ready _ | facts _ => exact slots_frame h ⟨rfl,rfl,rfl,rfl,rfl,rfl⟩ rfl
  | stop now current => exact slots_stop h now current

end Slots

section Replies

/-- Replies that the slots keep. -/
def slotCount (operations : Slot → Operation) (id : ℕ) : ℕ := ∑ i, (slotReplies (operations i)).count id

/-- Number of places that a request is in. -/
def places (s : Control) (id : ℕ) : ℕ :=
  slotCount s.operations id+(s.readyWaiters.map (fun w => w.reply)).count id+
    (s.completions.map (fun c => c.1)).count id+s.pruned.count id

/-- A changed slot changes the replies by its own. -/
theorem slotCount_update (operations : Slot → Operation) (i : Slot) (op : Operation) (id : ℕ) :
    slotCount (Function.update operations i op) id+(slotReplies (operations i)).count id=
      slotCount operations id+(slotReplies op).count id := by
  have moved : (fun j => (slotReplies (Function.update operations i op j)).count id)=
      Function.update (fun j => (slotReplies (operations j)).count id) i ((slotReplies op).count id) := by
    funext j
    by_cases here : j=i
    · rw [here,Function.update_self,Function.update_self]
    · rw [Function.update_of_ne here,Function.update_of_ne here]
  unfold slotCount
  rw [moved,Finset.sum_update_of_mem (Finset.mem_univ i),Finset.sdiff_singleton_eq_erase,
    ← Finset.add_sum_erase Finset.univ (fun j => (slotReplies (operations j)).count id) (Finset.mem_univ i)]
  omega

/-- Count of a number at the end of a list. -/
theorem count_last (l : List ℕ) (n id : ℕ) : (l ++ [n]).count id=l.count id+if n=id then 1 else 0 := by
  rw [List.count_append,List.count_singleton]
  simp only [beq_iff_eq]

/-- A completed request is one new place. -/
theorem complete_places (reply : ℕ) (r : Response) (s : Control) (id : ℕ) :
    places (complete reply r s) id=places s id+if reply=id then 1 else 0 := by
  unfold places complete
  simp only [List.map_append,List.map_cons,List.map_nil,count_last]
  omega

/-- A finished operation moves its replies to the completions. -/
theorem finish_places (index : Slot) (failure : String) (now : ℤ) (s : Control) (id : ℕ) :
    places (finish index failure now s) id=places s id := by
  have slot := slotCount_update s.operations index (finished (s.operations index) failure now) id
  have gone : (slotReplies (finished (s.operations index) failure now)).count id=0 := rfl
  have answered : ((s.completions ++ (slotReplies (s.operations index)).map
      (fun reply => (reply,Response.json 200 (receipt (finished (s.operations index) failure now))))).map
      (fun c => c.1)).count id=(s.completions.map (fun c => c.1)).count id+(slotReplies (s.operations index)).count id := by
    rw [List.map_append,List.map_map,List.count_append]
    congr 2
    exact List.map_id _
  unfold places
  show slotCount (Function.update s.operations index (finished (s.operations index) failure now)) id+_+
    ((s.completions ++ (slotReplies (s.operations index)).map
      (fun reply => (reply,Response.json 200 (receipt (finished (s.operations index) failure now))))).map
      (fun c => c.1)).count id+_=_
  rw [answered]
  show slotCount (Function.update s.operations index (finished (s.operations index) failure now)) id+
    (s.readyWaiters.map (fun w => w.reply)).count id+_+s.pruned.count id=_
  omega

/-- Finished operations move their replies to the completions. -/
theorem finishAll_places (failure : String) (now : ℤ) (slots : List Slot) (s : Control) (id : ℕ) :
    places (finishAll failure now slots s) id=places s id := by
  induction slots generalizing s with
  | nil => rfl
  | cons index rest ih => exact (ih (finish index failure now s)).trans (finish_places index failure now s id)

/-- Members without places do not matter. -/
theorem places_frame {s t : Control} (ho : t.operations=s.operations) (hw : t.readyWaiters=s.readyWaiters)
    (hc : t.completions=s.completions) (hp : t.pruned=s.pruned) (id : ℕ) : places t id=places s id := by
  unfold places
  rw [ho,hw,hc,hp]

/-- Kept and removed waiters are the waiters. -/
theorem count_filter_split (l : List ℕ) (q : ℕ → Bool) (id : ℕ) :
    (l.filter q).count id+(l.filter (fun r => !q r)).count id=l.count id := by
  induction l with
  | nil => rfl
  | cons head rest ih =>
    cases hq : q head with
    | true =>
      rw [List.filter_cons_of_pos hq,List.filter_cons_of_neg (by simp [hq]),List.count_cons,List.count_cons]
      omega
    | false =>
      rw [List.filter_cons_of_neg (by simp [hq]),List.filter_cons_of_pos (by simp [hq]),List.count_cons,List.count_cons]
      omega

/-- A wait is one new place; removed waiters only move. -/
theorem waitFor_places (a : Arrival) (reply : ℕ) (index : Slot) (s : Control) (id : ℕ) :
    places (waitFor a reply index s) id=places s id+if reply=id then 1 else 0 := by
  have split_ := count_filter_split (s.operations index).waiters a.cancelled id
  have slot : ∀ waiters, slotCount (Function.update s.operations index {s.operations index with waiters := waiters}) id+
      (s.operations index).waiters.count id=slotCount s.operations id+waiters.count id := by
    intro waiters
    have changed := slotCount_update s.operations index {s.operations index with waiters := waiters} id
    unfold slotReplies at changed
    simp only [List.count_append] at changed ⊢
    omega
  simp only at slot
  unfold waitFor
  simp only
  split
  · rw [complete_places]
    have kept := slot ((s.operations index).waiters.filter (fun r => !a.cancelled r))
    unfold places
    simp only [List.count_append]
    omega
  · have kept := slot ((s.operations index).waiters.filter (fun r => !a.cancelled r) ++ [reply])
    rw [count_last] at kept
    unfold places
    simp only [List.count_append]
    omega

/-- An accepted operation is one new place in a slot without replies. -/
theorem accept_places {s : Control} (h : Slots s) {i : Slot} (hi : chooseSlot s.operations (List.finRange 128) none=some i)
    (a : Arrival) (reply : ℕ) (c : Configure) (id : ℕ) :
    places (accept a reply c i s) id=places s id+if reply=id then 1 else 0 := by
  have free : (s.operations i).state≠.accepted := by
    rcases chooseSlot_some hi nofun with empty | other
    · rw [h.named i empty]
      exact nofun
    · exact other
  have none : (slotReplies (s.operations i)).count id=0 := by
    rw [h.quiet i free]
    rfl
  have slot := slotCount_update s.operations i
    {id := a.requestId, fingerprint := a.body, state := .accepted, enabled := c.enabled,
      revision := s.desiredRevision+1, deadline := a.now+c.budget, submit := some reply} id
  have one : [reply].count id=if reply=id then 1 else 0 := by
    rw [List.count_singleton]
    simp only [beq_iff_eq]
  change _=slotCount s.operations id+[reply].count id at slot
  rw [one,none] at slot
  unfold places accept
  simp only
  omega

/-- Number of requests that a step brings. -/
def arrivals : Action → ℕ
  | .handle _ => 1
  | _ => 0

/-- A request is one new place. -/
theorem handle_places {s : Control} (h : Slots s) (a : Arrival) (id : ℕ) :
    places (handle a s) id=places s id+(if s.handed=id then 1 else 0) ∧ (handle a s).handed=s.handed+1 := by
  have base : places (counted s) id=places s id := rfl
  rcases handle_cases a s with ⟨r,shape⟩ | ⟨t,shape⟩ | ⟨i,running,taken,shape⟩ | ⟨c,i,running,new,chosen,shape⟩
  · rw [shape,complete_places]
    exact ⟨rfl,rfl⟩
  · rw [shape]
    refine ⟨?_,rfl⟩
    unfold places counted
    simp only [List.map_append,List.map_cons,List.map_nil,count_last]
    omega
  · rw [shape,waitFor_places]
    refine ⟨rfl,?_⟩
    unfold waitFor
    simp only
    split <;> rfl
  · have slots : Slots (counted s) := slots_frame h ⟨rfl,rfl,rfl,rfl,rfl,rfl⟩ rfl
    rw [shape,accept_places slots chosen]
    exact ⟨rfl,rfl⟩

/-- Released discoveries move to the completions. -/
theorem expireReady_places (now : ℤ) (cancelled : ℕ → Bool) (current : List (String × Json)) (s : Control) (id : ℕ) :
    places (expireReady now cancelled current s) id=places s id := by
  have parts : ∀ (q : ReadyWaiter → Bool) (l : List ReadyWaiter),
      ((l.filter q).map (fun w => w.reply)).count id+((l.filter (fun w => !q w)).map (fun w => w.reply)).count id=
        (l.map (fun w => w.reply)).count id := by
    intro q l
    induction l with
    | nil => rfl
    | cons head rest ih =>
      cases hq : q head with
      | true =>
        rw [List.filter_cons_of_pos hq,List.filter_cons_of_neg (by simp [hq]),List.map_cons,List.map_cons,List.count_cons,
          List.count_cons]
        omega
      | false =>
        rw [List.filter_cons_of_neg (by simp [hq]),List.filter_cons_of_pos (by simp [hq]),List.map_cons,List.map_cons,
          List.count_cons,List.count_cons]
        omega
  unfold places expireReady
  simp only [List.map_append,List.map_map,List.count_append]
  have whole := parts (fun w => s.ready || s.stopping || decide (w.untilTime ≤ now) || cancelled w.reply) s.readyWaiters
  have same : ((fun c : ℕ × Response => c.1) ∘ fun w : ReadyWaiter => (w.reply,Response.json 200 (describe s current)))=
      fun w => w.reply := rfl
  rw [same]
  omega

/-- A stop moves every kept request to the completions. -/
theorem stop_places (now : ℤ) (current : List (String × Json)) (s : Control) (id : ℕ) :
    places (stop now current s) id=places s id := by
  unfold stop
  split
  · rfl
  · generalize (List.finRange 128).filter (fun i => (s.operations i).state=.accepted)=slots
    have moved := finishAll_places "unavailable" now slots {s with stopping := true} id
    have books := finishAll_books "unavailable" now slots {s with stopping := true}
    have before : places {s with stopping := true} id=places s id := rfl
    generalize finishAll "unavailable" now slots {s with stopping := true}=stopped at moved books
    have same : ((fun c : ℕ × Response => c.1) ∘ fun w : ReadyWaiter => (w.reply,Response.json 200 (describe stopped current)))=
        fun w => w.reply := rfl
    have held : stopped.readyWaiters=s.readyWaiters := books.readyWaiters
    rw [before] at moved
    unfold places at moved ⊢
    simp only [List.map_append,List.map_map,List.count_append,same,List.map_nil,List.count_nil]
    rw [held] at moved
    omega

/-- Only an arriving request is a new place. -/
theorem step_places {s : Control} (h : Slots s) (action : Action) (id : ℕ) :
    places (step s action) id=places s id+(if s.handed=id then arrivals action else 0) ∧
      (step s action).handed=s.handed+arrivals action := by
  have same : ∀ {t : Control}, places t id=places s id → t.handed=s.handed →
      places t id=places s id+(if s.handed=id then 0 else 0) ∧ t.handed=s.handed+0 := by
    intro t moved handed
    rw [ite_self,moved,handed]
    exact ⟨(Nat.add_zero _).symm,(Nat.add_zero _).symm⟩
  cases action with
  | handle arrival => exact handle_places h arrival id
  | post succeeds now =>
    unfold step post
    simp only
    split
    · exact same (places_frame rfl rfl rfl rfl id) rfl
    · split
      · exact same (places_frame rfl rfl rfl rfl id) rfl
      · exact same (finishAll_places "internal" now s.pending s id) (finishAll_books "internal" now s.pending s).handed
  | lane now throws =>
    unfold step stepLane
    simp only
    split
    · split
      · exact same (places_frame rfl rfl rfl rfl id) rfl
      · exact same (places_frame rfl rfl rfl rfl id) rfl
    · unfold takeNext
      split
      · exact same (places_frame rfl rfl rfl rfl id) rfl
      · split
        · exact same (places_frame rfl rfl rfl rfl id) rfl
        · exact same (places_frame rfl rfl rfl rfl id) rfl
    · unfold tryApply
      split
      · exact same (places_frame rfl rfl rfl rfl id) rfl
      · exact same (places_frame rfl rfl rfl rfl id) rfl
    · unfold noteOutcome
      simp only
      split
      · exact same (places_frame rfl rfl rfl rfl id) rfl
      · split
        · exact same (finish_places ..) rfl
        · exact same (finish_places ..) rfl
  | expire now cancelled current => exact same (expireReady_places now cancelled current s id) rfl
  | ready _ | facts _ => exact same (places_frame rfl rfl rfl rfl id) rfl
  | stop now current =>
    refine same (stop_places now current s id) ?_
    unfold step stop
    simp only
    split
    · rfl
    · exact (finishAll_books "unavailable" now _ {s with stopping := true}).handed

end Replies

end Ros1Adapter.LidarControlBooks
