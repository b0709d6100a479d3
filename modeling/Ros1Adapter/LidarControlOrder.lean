import Mathlib.Tactic.Common
import Ros1Adapter.FairRounds
import Ros1Adapter.LidarControlBooks

/-!
# Accepted configurations are applied in order

Revisions number the accepted operations. Slots under way carry rising
revisions that are ahead of every call of the owner's callback, so the calls
come once and in order, and the applied configuration is the one of the last
receipt that reports success.
-/

namespace Ros1Adapter.LidarControlOrder

open SceneJson LidarControl LidarControlBooks ActionRules FairRounds

section Order

/-- Slots whose configuration was not handed to the owner's callback yet. -/
def waiting (s : Control) : List Slot :=
  match s.lane with
  | .taken index _ _ => index::s.pending
  | _ => s.pending

/-- Revision of a slot. -/
def slotRevision (s : Control) (i : Slot) : Revision := ⟨(s.operations i).revision,(s.operations i).enabled⟩

/-- Configuration in the hands of the lane. -/
def LaneHolds (s : Control) : Prop :=
  match s.lane with
  | .taken index enabled _ => enabled=(s.operations index).enabled
  | .tried index enabled _ => enabled=(s.operations index).enabled
  | _ => True

/-- Configuration and revision of the last success, or the first ones. -/
def lastSucceeded (initial : Bool) (succeeded : List Revision) : Revision := succeeded.getLast?.getD ⟨1,initial⟩

/-- Operations under way and calls of the owner's callback are in order. -/
structure Ordered (initial : Bool) (s : Control) : Prop where
  /-- Accepted operations are numbered in order. -/
  numbered : s.accepted.map (fun r => r.number)=List.range' 2 s.accepted.length ∧
    s.desiredRevision=s.accepted.length+1
  /-- Slots under way have rising revisions. -/
  rising : ((underway s).map (fun i => (s.operations i).revision)).Pairwise (fun first later => first<later)
  /-- Slots under way were accepted. -/
  known : ∀ i∈underway s, slotRevision s i∈s.accepted
  /-- The lane holds the configuration of its slot. -/
  lane : LaneHolds s
  /-- Calls of the owner's callback have rising revisions. -/
  calls : s.applies.Pairwise (fun first later => first<later)
  /-- Calls of the owner's callback were accepted. -/
  called : ∀ r∈s.applies, r∈s.accepted.map (fun a => a.number)
  /-- Slots that wait are ahead of every call. -/
  ahead : ∀ r∈s.applies, ∀ i∈waiting s, r<(s.operations i).revision
  /-- The applied configuration is the one of the last success. -/
  latest : (⟨s.appliedRevision,s.applied⟩ : Revision)=lastSucceeded initial s.succeeded

/-- Slots that wait are under way. -/
theorem waiting_underway {s : Control} {i : Slot} (h : i∈waiting s) : i∈underway s := by
  unfold waiting at h
  unfold underway
  split at h
  · next lane =>
    rw [lane]
    exact h
  · exact List.mem_append.mpr (Or.inr h)

/-- Accepted revisions are at most the desired one. -/
theorem accepted_le {initial : Bool} {s : Control} (h : Ordered initial s) {n : ℕ}
    (hn : n∈s.accepted.map (fun r => r.number)) : n ≤ s.desiredRevision := by
  rw [h.numbered.1] at hn
  have bound := (List.mem_range'_1.mp hn).2
  have desired := h.numbered.2
  omega

/-- Slots under way have revisions up to the desired one. -/
theorem underway_le {initial : Bool} {s : Control} (h : Ordered initial s) {i : Slot} (hi : i∈underway s) :
    (s.operations i).revision ≤ s.desiredRevision :=
  accepted_le h (List.mem_map_of_mem (h.known i hi))

/-- What a step that accepts nothing and calls nothing keeps. -/
structure Keeps (s t : Control) : Prop where
  /-- Accepted operations. -/
  accepted : t.accepted=s.accepted
  /-- Desired revision. -/
  desired : t.desiredRevision=s.desiredRevision
  /-- Calls of the owner's callback. -/
  applies : t.applies=s.applies
  /-- Revisions and configurations of the slots. -/
  values : ∀ i, slotRevision t i=slotRevision s i
  /-- Slots under way, of which some may have ended. -/
  underway : (underway t).Sublist (underway s)
  /-- Slots that wait, of which some may have ended. -/
  waiting : ∀ i∈waiting t, i∈waiting s

/-- Order survives a step that accepts nothing and calls nothing. -/
theorem ordered_keeps {initial : Bool} {s t : Control} (h : Ordered initial s) (hk : Keeps s t) (hl : LaneHolds t)
    (ha : (⟨t.appliedRevision,t.applied⟩ : Revision)=lastSucceeded initial t.succeeded) : Ordered initial t := by
  have revision : ∀ i, (t.operations i).revision=(s.operations i).revision :=
    fun i => congrArg Revision.number (hk.values i)
  refine ⟨?_,?_,?_,hl,?_,?_,?_,ha⟩
  · rw [hk.accepted,hk.desired]
    exact h.numbered
  · simp only [revision]
    exact h.rising.sublist (hk.underway.map _)
  · intro i member
    rw [hk.values,hk.accepted]
    exact h.known i (hk.underway.subset member)
  · rw [hk.applies]
    exact h.calls
  · rw [hk.applies,hk.accepted]
    exact h.called
  · intro r called i member
    rw [hk.applies] at called
    rw [revision]
    exact h.ahead r called i (hk.waiting i member)

/-- A step that moves neither queue nor lane keeps the order of slots. -/
theorem keeps_turns {s t : Control} (hp : t.pending=s.pending) (hl : t.lane=s.lane) (ha : t.accepted=s.accepted)
    (hd : t.desiredRevision=s.desiredRevision) (hc : t.applies=s.applies) (hv : ∀ i, slotRevision t i=slotRevision s i) :
    Keeps s t := by
  refine ⟨ha,hd,hc,hv,?_,?_⟩
  · unfold underway
    rw [hp,hl]
  · intro i member
    unfold waiting at member ⊢
    rw [hp,hl] at member
    exact member

/-- The lane keeps its configuration where neither it nor the slots changed. -/
theorem laneHolds_frame {s t : Control} (h : LaneHolds s) (hl : t.lane=s.lane)
    (hv : ∀ i, slotRevision t i=slotRevision s i) : LaneHolds t := by
  have enabled : ∀ i, (t.operations i).enabled=(s.operations i).enabled := fun i => congrArg Revision.enabled (hv i)
  unfold LaneHolds at h ⊢
  rw [hl]
  split
  · next lane =>
    rw [lane] at h
    rw [enabled]
    exact h
  · next lane =>
    rw [lane] at h
    rw [enabled]
    exact h
  · trivial

/-- A change of one slot that keeps its revision and configuration keeps all of them. -/
theorem update_values {s t : Control} {i : Slot} {op : Operation} (ho : t.operations=Function.update s.operations i op)
    (hr : op.revision=(s.operations i).revision) (he : op.enabled=(s.operations i).enabled) (j : Slot) :
    slotRevision t j=slotRevision s j := by
  unfold slotRevision
  rw [ho]
  by_cases here : j=i
  · rw [here,Function.update_self,hr,he]
  · rw [Function.update_of_ne here]

/-- Finishing operations keeps revisions and configurations. -/
theorem finishAll_values (failure : String) (now : ℤ) (slots : List Slot) (s : Control) (i : Slot) :
    slotRevision (finishAll failure now slots s) i=slotRevision s i := by
  unfold slotRevision
  rw [finishAll_operations]
  split <;> rfl

/-- An accepted operation has the next revision. -/
theorem ordered_accept {initial : Bool} {s : Control} (hs : Slots s) (h : Ordered initial s) (running : s.stopping=false)
    {a : Arrival} {i : Slot} (hi : chooseSlot s.operations (List.finRange 128) none=some i) (reply : ℕ) (c : Configure) :
    Ordered initial (accept a reply c i s) := by
  have free : (s.operations i).state≠.accepted := by
    rcases chooseSlot_some hi nofun with empty | other
    · rw [hs.named i empty]
      exact nofun
    · exact other
  have away : ∀ j∈underway s, j≠i := fun j member here => free (by rw [← here]; exact hs.current j member running)
  have under : underway (accept a reply c i s)=underway s ++ [i] := (List.append_assoc ..).symm
  have here : (accept a reply c i s).operations i=
      {id := a.requestId, fingerprint := a.body, state := .accepted, enabled := c.enabled,
        revision := s.desiredRevision+1, deadline := a.now+c.budget, submit := some reply} := Function.update_self ..
  have there : ∀ j∈underway s, (accept a reply c i s).operations j=s.operations j :=
    fun j member => Function.update_of_ne (away j member) ..
  obtain ⟨numbers,desired⟩ := h.numbered
  refine ⟨⟨?_,?_⟩,?_,?_,?_,h.calls,?_,?_,h.latest⟩
  · show (s.accepted ++ [(⟨s.desiredRevision+1,c.enabled⟩ : Revision)]).map (fun r => r.number)=_
    have longer : (accept a reply c i s).accepted.length=s.accepted.length+1 := List.length_append ..
    rw [longer,List.map_append,numbers,List.range'_concat]
    simp only [List.map_cons,List.map_nil,desired]
    congr 2
    omega
  · have longer : (accept a reply c i s).accepted.length=s.accepted.length+1 := List.length_append ..
    rw [longer]
    show s.desiredRevision+1=_
    omega
  · rw [under,List.map_append]
    refine List.pairwise_append.mpr ⟨?_,List.pairwise_singleton ..,?_⟩
    · have same : (underway s).map (fun j => ((accept a reply c i s).operations j).revision)=
          (underway s).map (fun j => (s.operations j).revision) :=
        List.map_congr_left (fun j member => by rw [there j member])
      rw [same]
      exact h.rising
    · intro first old last new
      obtain ⟨j,member,named⟩ := List.mem_map.mp old
      rw [there j member] at named
      rw [List.map_singleton,List.mem_singleton,here] at new
      have bound := underway_le h member
      rw [← named,new]
      simp only
      omega
  · intro j member
    rw [under] at member
    rcases List.mem_append.mp member with old | new
    · have kept : slotRevision (accept a reply c i s) j=slotRevision s j := by
        unfold slotRevision
        rw [there j old]
      rw [kept]
      exact List.mem_append.mpr (Or.inl (h.known j old))
    · rw [List.mem_singleton.mp new]
      have made : slotRevision (accept a reply c i s) i=⟨s.desiredRevision+1,c.enabled⟩ := by
        unfold slotRevision
        rw [here]
      rw [made]
      exact List.mem_append.mpr (Or.inr (List.mem_singleton.mpr rfl))
  · have held := h.lane
    show LaneHolds (accept a reply c i s)
    unfold LaneHolds at held ⊢
    have lane : (accept a reply c i s).lane=s.lane := rfl
    rw [lane]
    split
    · next index enabled deadline at_ =>
      rw [at_] at held
      have member : index∈underway s := by
        unfold underway
        rw [at_]
        exact List.mem_append.mpr (Or.inl (List.mem_singleton.mpr rfl))
      rw [there index member]
      exact held
    · next index enabled failure at_ =>
      rw [at_] at held
      have member : index∈underway s := by
        unfold underway
        rw [at_]
        exact List.mem_append.mpr (Or.inl (List.mem_singleton.mpr rfl))
      rw [there index member]
      exact held
    · trivial
  · intro r called
    show r∈(s.accepted ++ [(⟨s.desiredRevision+1,c.enabled⟩ : Revision)]).map (fun a => a.number)
    rw [List.map_append]
    exact List.mem_append.mpr (Or.inl (h.called r called))
  · intro r called j member
    have bound := accepted_le h (h.called r called)
    have placed : j∈underway s ++ [i] := by
      rw [← under]
      exact waiting_underway member
    rcases List.mem_append.mp placed with old | new
    · have earlier : j∈waiting s := by
        unfold waiting at member ⊢
        have lane : (accept a reply c i s).lane=s.lane := rfl
        have queue : (accept a reply c i s).pending=s.pending ++ [i] := rfl
        rw [lane,queue] at member
        split at member
        · rcases List.mem_cons.mp member with first | later
          · exact List.mem_cons.mpr (Or.inl first)
          · rcases List.mem_append.mp later with kept | last
            · exact List.mem_cons.mpr (Or.inr kept)
            · exact absurd (List.mem_singleton.mp last) (away j old)
        · rcases List.mem_append.mp member with kept | last
          · exact kept
          · exact absurd (List.mem_singleton.mp last) (away j old)
      rw [there j old]
      exact h.ahead r called j earlier
    · rw [List.mem_singleton.mp new,here]
      simp only
      omega

/-- One request keeps the order. -/
theorem ordered_handle {initial : Bool} {s : Control} (hs : Slots s) (h : Ordered initial s) (a : Arrival) :
    Ordered initial (handle a s) := by
  have still : ∀ t : Control, t.pending=s.pending → t.lane=s.lane → t.accepted=s.accepted →
      t.desiredRevision=s.desiredRevision → t.applies=s.applies → (∀ i, slotRevision t i=slotRevision s i) →
      t.applied=s.applied → t.appliedRevision=s.appliedRevision → t.succeeded=s.succeeded → Ordered initial t := by
    intro t hp hl ha hd hc hv happ hrev hsucc
    refine ordered_keeps h (keeps_turns hp hl ha hd hc hv) (laneHolds_frame h.lane hl hv) ?_
    rw [happ,hrev,hsucc]
    exact h.latest
  rcases handle_cases a s with ⟨r,shape⟩ | ⟨t,shape⟩ | ⟨i,running,taken,shape⟩ | ⟨c,i,running,new,chosen,shape⟩
  · rw [shape]
    exact still _ rfl rfl rfl rfl rfl (fun _ => rfl) rfl rfl rfl
  · rw [shape]
    exact still _ rfl rfl rfl rfl rfl (fun _ => rfl) rfl rfl rfl
  · rw [shape]
    unfold waitFor
    simp only
    split
    · exact still _ rfl rfl rfl rfl rfl (update_values rfl rfl rfl) rfl rfl rfl
    · exact still _ rfl rfl rfl rfl rfl (update_values rfl rfl rfl) rfl rfl rfl
  · rw [shape]
    have base : Ordered initial (counted s) := still _ rfl rfl rfl rfl rfl (fun _ => rfl) rfl rfl rfl
    have slots : Slots (counted s) := slots_frame hs ⟨rfl,rfl,rfl,rfl,rfl,rfl⟩ rfl
    exact ordered_accept slots base running chosen s.handed c

/-- A post keeps the order. -/
theorem ordered_post {initial : Bool} {s : Control} (h : Ordered initial s) (succeeds : Bool) (now : ℤ) :
    Ordered initial (post succeeds now s) := by
  unfold post
  split
  · exact h
  · next posters some_ =>
    split
    · exact ordered_keeps h (keeps_turns rfl rfl rfl rfl rfl (fun _ => rfl)) (laneHolds_frame h.lane rfl (fun _ => rfl)) h.latest
    · have books := finishAll_books "internal" now s.pending s
      have values := finishAll_values "internal" now s.pending s
      have successes := finishAll_succeeded "internal" (by decide) now s.pending s
      refine ordered_keeps h ⟨books.accepted,books.desiredRevision,books.applies,values,?_,?_⟩
        (laneHolds_frame h.lane books.lane values) ?_
      · show (laneSlots (finishAll "internal" now s.pending s).lane ++ []).Sublist (laneSlots s.lane ++ s.pending)
        rw [books.lane]
        exact List.Sublist.append_left (List.nil_sublist _) _
      · intro i member
        unfold waiting at member ⊢
        have lane : (finishAll "internal" now s.pending s).lane=s.lane := books.lane
        simp only [lane] at member
        split at member
        · next at_ =>
          rcases List.mem_cons.mp member with first | never
          · exact List.mem_cons.mpr (Or.inl first)
          · cases never
        · cases member
      · show (⟨(finishAll "internal" now s.pending s).appliedRevision,(finishAll "internal" now s.pending s).applied⟩ : Revision)=
          lastSucceeded initial (finishAll "internal" now s.pending s).succeeded
        rw [books.appliedRevision,books.applied,successes]
        exact h.latest

/-- A stop keeps the order. -/
theorem ordered_stop {initial : Bool} {s : Control} (h : Ordered initial s) (now : ℤ) (current : List (String × Json)) :
    Ordered initial (stop now current s) := by
  unfold stop
  split
  · exact h
  · generalize (List.finRange 128).filter (fun i => (s.operations i).state=.accepted)=slots
    have books := finishAll_books "unavailable" now slots {s with stopping := true}
    have values := finishAll_values "unavailable" now slots {s with stopping := true}
    have successes := finishAll_succeeded "unavailable" (by decide) now slots {s with stopping := true}
    generalize finishAll "unavailable" now slots {s with stopping := true}=stopped at books values successes
    have lane : stopped.lane=s.lane := books.lane
    refine ordered_keeps h ⟨books.accepted,books.desiredRevision,books.applies,values,?_,?_⟩
      (laneHolds_frame h.lane lane values) ?_
    · show (laneSlots stopped.lane ++ []).Sublist (laneSlots s.lane ++ s.pending)
      rw [lane]
      exact List.Sublist.append_left (List.nil_sublist _) _
    · intro i member
      unfold waiting at member ⊢
      simp only [lane] at member
      split at member
      · rcases List.mem_cons.mp member with first | never
        · exact List.mem_cons.mpr (Or.inl first)
        · cases never
      · cases member
    · show (⟨stopped.appliedRevision,stopped.applied⟩ : Revision)=lastSucceeded initial stopped.succeeded
      rw [books.appliedRevision,books.applied,successes]
      exact h.latest

/-- The call of the owner's callback comes in order. -/
theorem ordered_call {initial : Bool} {s : Control} (h : Ordered initial s) {index : Slot} {enabled : Bool} {deadline : ℤ}
    (lane : s.lane=.taken index enabled deadline) (failure : String) :
    Ordered initial {s with
      applies := s.applies ++ [(s.operations index).revision], lane := .tried index enabled failure} := by
  have under : underway s=index::s.pending := by
    unfold underway
    rw [lane]
    rfl
  have mine : index∈underway s := by
    rw [under]
    exact List.mem_cons_self ..
  have turn : index∈waiting s := by
    unfold waiting
    rw [lane]
    exact List.mem_cons_self ..
  have same : underway {s with
      applies := s.applies ++ [(s.operations index).revision], lane := .tried index enabled failure}=underway s := by
    rw [under]
    rfl
  have held := h.lane
  unfold LaneHolds at held
  rw [lane] at held
  refine ⟨h.numbered,?_,?_,held,?_,?_,?_,h.latest⟩
  · rw [same]
    exact h.rising
  · intro i member
    rw [same] at member
    exact h.known i member
  · refine List.pairwise_append.mpr ⟨h.calls,List.pairwise_singleton ..,?_⟩
    intro earlier called last new
    rw [List.mem_singleton.mp new]
    exact h.ahead earlier called index turn
  · intro r called
    rcases List.mem_append.mp called with old | new
    · exact h.called r old
    · rw [List.mem_singleton.mp new]
      exact List.mem_map_of_mem (h.known index mine)
  · intro r called i member
    have queued : i∈s.pending := member
    have rising := h.rising
    rw [under] at rising
    rcases List.mem_append.mp called with old | new
    · refine h.ahead r old i ?_
      unfold waiting
      rw [lane]
      exact List.mem_cons_of_mem _ queued
    · rw [List.mem_singleton.mp new]
      exact (List.pairwise_cons.mp rising).1 _ (List.mem_map_of_mem queued)

/-- A step of the lane keeps the order. -/
theorem ordered_lane {initial : Bool} {s : Control} (h : Ordered initial s) (now : ℤ) (throws : Bool) :
    Ordered initial (stepLane now throws s) := by
  unfold stepLane
  split
  · next lane =>
    split
    · exact h
    · refine ordered_keeps h ⟨rfl,rfl,rfl,fun _ => rfl,?_,?_⟩ trivial h.latest
      · unfold underway
        rw [lane]
        exact List.Sublist.refl _
      · intro i member
        unfold waiting
        rw [lane]
        exact member
  · next lane =>
    unfold takeNext
    split
    · refine ordered_keeps h ⟨rfl,rfl,rfl,fun _ => rfl,?_,?_⟩ trivial h.latest
      · unfold underway
        rw [lane]
        exact List.Sublist.refl _
      · intro i member
        unfold waiting
        rw [lane]
        exact member
    · next index rest queue =>
      split
      · refine ordered_keeps h ⟨rfl,rfl,rfl,fun _ => rfl,?_,?_⟩ trivial h.latest
        · unfold underway
          rw [lane]
          exact List.Sublist.refl _
        · intro i member
          unfold waiting
          rw [lane]
          exact member
      · refine ordered_keeps h ⟨rfl,rfl,rfl,fun _ => rfl,?_,?_⟩ rfl h.latest
        · unfold underway
          rw [lane,queue]
          exact List.Sublist.refl _
        · intro i member
          unfold waiting
          rw [lane,queue]
          exact member
  · next index enabled deadline lane =>
    have held := h.lane
    unfold LaneHolds at held
    rw [lane] at held
    unfold tryApply
    split
    · refine ordered_keeps h ⟨rfl,rfl,rfl,fun _ => rfl,?_,?_⟩ held h.latest
      · unfold underway
        rw [lane]
        exact List.Sublist.refl _
      · intro i member
        unfold waiting
        rw [lane]
        exact List.mem_cons_of_mem _ member
    · exact ordered_call h lane _
  · next index enabled failure lane =>
    have held := h.lane
    unfold LaneHolds at held
    rw [lane] at held
    have settled : ∀ t : Control, t.pending=s.pending → t.lane=.looping → t.accepted=s.accepted →
        t.desiredRevision=s.desiredRevision → t.applies=s.applies → (∀ i, slotRevision t i=slotRevision s i) →
        (⟨t.appliedRevision,t.applied⟩ : Revision)=lastSucceeded initial t.succeeded → Ordered initial t := by
      intro t hp hl ha hd hc hv last
      refine ordered_keeps h ⟨ha,hd,hc,hv,?_,?_⟩ ?_ last
      · unfold underway
        rw [hl,hp,lane]
        exact List.sublist_cons_self ..
      · intro i member
        unfold waiting at member ⊢
        rw [hl,hp] at member
        rw [lane]
        exact member
      · unfold LaneHolds
        rw [hl]
        trivial
    unfold noteOutcome
    simp only
    split
    · exact settled _ rfl rfl rfl rfl rfl (fun _ => rfl) h.latest
    · split
      · next success =>
        refine settled _ rfl rfl rfl rfl rfl (update_values rfl rfl rfl) ?_
        show (⟨(s.operations index).revision,enabled⟩ : Revision)=lastSucceeded initial
          (if failure="" then s.succeeded ++ [⟨(s.operations index).revision,(s.operations index).enabled⟩] else s.succeeded)
        rw [if_pos success,held]
        unfold lastSucceeded
        rw [List.getLast?_append]
        rfl
      · next failing =>
        refine settled _ rfl rfl rfl rfl rfl (update_values rfl rfl rfl) ?_
        show (⟨s.appliedRevision,s.applied⟩ : Revision)=lastSucceeded initial
          (if failure="" then s.succeeded ++ [⟨(s.operations index).revision,(s.operations index).enabled⟩] else s.succeeded)
        rw [if_neg failing]
        exact h.latest

/-- One step keeps the order. -/
theorem ordered_step {initial : Bool} {s : Control} (hs : Slots s) (h : Ordered initial s) (action : Action) :
    Ordered initial (step s action) := by
  cases action with
  | handle arrival => exact ordered_handle hs h arrival
  | post succeeds now => exact ordered_post h succeeds now
  | lane now throws => exact ordered_lane h now throws
  | expire _ _ _ | ready _ | facts _ =>
    exact ordered_keeps h (keeps_turns rfl rfl rfl rfl rfl (fun _ => rfl)) (laneHolds_frame h.lane rfl (fun _ => rfl)) h.latest
  | stop now current => exact ordered_stop h now current

end Order

end Ros1Adapter.LidarControlOrder
