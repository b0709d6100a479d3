import Mathlib.Data.List.Perm.Basic
import Mathlib.Data.List.Nodup
import Ros1Adapter.AsyncRosHonesty

/-!
# Runs of asynchronous ROS services

In every order of starts, cancellations and pumps, with completions that start
and cancel calls, every started call is either pending or has had its
completion, once. A pump completes the calls that ended before their
completions are invoked, and a completed result is honest.
-/

namespace Ros1Adapter.AsyncRosRuns

open ActionRules LittleEndian AsyncRosServices AsyncRosPump AsyncRosHonesty

section Accounts

/-- Identity of a start. -/
def startOf : Event → Option ℕ
  | .started id _ => some id
  | .wrote _ _ _ | .received _ _ | .finished _ | .completed _ _ => none

/-- Identity of a completion. -/
def completionOf : Event → Option ℕ
  | .completed id _ => some id
  | .started _ _ | .wrote _ _ _ | .received _ _ | .finished _ => none

/-- Started calls, the newest first. -/
def starts (trace : List Event) : List ℕ := trace.filterMap startOf

/-- Completed calls, the newest first. -/
def completions (trace : List Event) : List ℕ := trace.filterMap completionOf

/-- A pending call as the functions of a call see it. -/
def running (s : Services) (entry : ℕ × Call) : Running := ⟨entry.1,entry.2,s.master,s.trace⟩

/-- What one call does is about it. -/
theorem own_id {id : ℕ} {event : Event} (h : isOwn id event=true) : eventId event=id := by
  cases event with
  | wrote _ _ _ | received _ _ | finished _ => exact beq_iff_eq.mp h
  | started _ _ | completed _ _ => cases h

/-- What one call does starts and completes nothing. -/
theorem own_accounts {id : ℕ} {new : List Event} (h : ∀ event∈new, isOwn id event=true) :
    starts new=[] ∧ completions new=[] := by
  refine ⟨List.filterMap_eq_nil_iff.mpr fun event member => ?_,List.filterMap_eq_nil_iff.mpr fun event member => ?_⟩
  · have own := h event member
    cases event with
    | started i request => cases own
    | wrote _ _ _ | received _ _ | finished _ | completed _ _ => rfl
  · have own := h event member
    cases event with
    | completed i result => cases own
    | started _ _ | wrote _ _ _ | received _ _ | finished _ => rfl

/-- A call stays good while others act. -/
theorem good_others {id : ℕ} {call : Call} {master master' : Option (ℕ × Bytes)} {new trace : List Event}
    (good : Good ⟨id,call,master,trace⟩) (others : ∀ event∈new, eventId event≠id) (silent : Silent (new ++ trace)) :
    Good ⟨id,call,master',new ++ trace⟩ := by
  have sent : ∀ message, sentOf id message (new ++ trace)=sentOf id message trace := fun message => sentOf_others others
  have came : ∀ message, since id message (new ++ trace)=since id message trace := fun message => since_others others
  refine ⟨fun live finished => ?_,fun live => ?_,fun done => ?_,silent⟩
  · rcases List.mem_append.mp finished with here | there
    · exact others _ here rfl
    · exact good.open_ live there
  · have sound := good.sound live
    simp only [Sound,AtMaster,AtService,Quiet,Partly,Wholly,sent,came] at sound ⊢
    exact sound
  · have honest := good.honest done
    simp only [Honest,Answered,sent,came] at honest ⊢
    exact honest

/-- What a result says stays true while others act. -/
theorem honest_others {id : ℕ} {request : Request} {result : Result} {new trace : List Event}
    (honest : Honest id request result trace) (others : ∀ event∈new, eventId event≠id) :
    Honest id request result (new ++ trace) := by
  have sent : ∀ message, sentOf id message (new ++ trace)=sentOf id message trace := fun message => sentOf_others others
  have came : ∀ message, since id message (new ++ trace)=since id message trace := fun message => since_others others
  simp only [Honest,Answered,sent,came] at honest ⊢
  exact honest

/-- Services, and calls that ended and wait for their completions. -/
structure Sane (ended : List (ℕ × Call)) (s : Services) : Prop where
  /-- Every pending call is good. -/
  good : ∀ entry∈s.calls, Good (running s entry)
  /-- Every ended call has an honest result. -/
  results : ∀ entry∈ended, Honest entry.1 entry.2.request entry.2.result s.trace
  /-- Pending calls are in the order of their identities. -/
  ordered : (s.calls.map Prod.fst).Pairwise (·<·)
  /-- Every event is about a call that was started. -/
  seen : ∀ event∈s.trace, eventId event ≤ s.next
  /-- Calls are numbered as they start. -/
  numbered : starts s.trace=(List.range' 1 s.next).reverse
  /-- Every started call is completed, ended or pending. -/
  accounted : (completions s.trace ++ (ended.map Prod.fst ++ s.calls.map Prod.fst)).Perm (starts s.trace)
  /-- A call keeps the request it was started with, and a completed result was honest about it. -/
  asked : ∀ id request, Event.started id request∈s.trace →
    (∀ call, (id,call)∈ended ++ s.calls → call.request=request) ∧
      ∀ result, Event.completed id result∈s.trace → Honest id request result s.trace
  /-- Nothing is written for a finished call. -/
  silent : Silent s.trace

/-- Identities differ. -/
theorem Sane.nodup {ended : List (ℕ × Call)} {s : Services} (sane : Sane ended s) :
    (completions s.trace ++ (ended.map Prod.fst ++ s.calls.map Prod.fst)).Nodup := by
  rw [sane.accounted.nodup_iff,sane.numbered,List.nodup_reverse]
  exact List.nodup_range'

/-- Pending calls have the identities that were given. -/
theorem Sane.bounded {ended : List (ℕ × Call)} {s : Services} (sane : Sane ended s) :
    ∀ id∈completions s.trace ++ (ended.map Prod.fst ++ s.calls.map Prod.fst), id ≤ s.next := by
  intro id member
  have started := sane.accounted.mem_iff.mp member
  rw [sane.numbered,List.mem_reverse,List.mem_range'_1] at started
  omega

/-- Pending calls have their identities to themselves. -/
theorem Sane.apart {ended : List (ℕ × Call)} {s : Services} (sane : Sane ended s) {before after : List (ℕ × Call)}
    {id : ℕ} {call : Call} (shape : s.calls=before ++ (id,call)::after) :
    ∀ entry∈before ++ after, entry.1≠id := by
  have nodup := sane.ordered.imp (fun h => Nat.ne_of_lt h)
  rw [shape,List.map_append,List.map_cons] at nodup
  have parts := List.nodup_append.mp nodup
  intro entry member same
  rcases List.mem_append.mp member with first | second
  · exact parts.2.2 entry.1 (List.mem_map_of_mem first) id (List.mem_cons_self ..) same
  · have present : entry.1∈after.map Prod.fst := List.mem_map_of_mem second
    rw [same] at present
    exact (List.nodup_cons.mp parts.2.1).1 present

end Accounts

section Steps

variable {ended : List (ℕ × Call)} {s : Services}

/-- Advancing a call replaces it where it stands. -/
theorem onCall_shape (sane : Sane ended s) {id : ℕ} {call : Call} (f : Running → Running) (member : (id,call)∈s.calls) :
    ∃ before after, s.calls=before ++ (id,call)::after ∧
      onCall id f s={s with
        calls := before ++ (id,(f (running s (id,call))).call)::after
        master := (f (running s (id,call))).master
        trace := (f (running s (id,call))).trace} := by
  obtain ⟨before,after,shape⟩ := List.append_of_mem member
  have apart := sane.apart shape
  have keep : ∀ (part : List (ℕ × Call)) (change : Call), (∀ entry∈part, entry.1≠id) →
      part.map (fun entry => if entry.1=id then (id,change) else entry)=part := by
    intro part change others
    refine (List.map_congr_left fun entry here => if_neg (others entry here)).trans (List.map_id' part)
  have found : s.calls.lookup id=some call := by
    rw [List.lookup_eq_some_iff]
    refine ⟨before,after,shape,fun entry here => ?_⟩
    exact bne_iff_ne.mpr (Ne.symm (apart entry (List.mem_append_left _ here)))
  refine ⟨before,after,shape,?_⟩
  unfold onCall
  rw [found]
  dsimp only
  rw [shape,List.map_append,List.map_cons,keep before _ (fun e h => apart e (List.mem_append_left _ h)),
    keep after _ (fun e h => apart e (List.mem_append_right _ h)),if_pos rfl]
  rfl

/-- Advancing a call that is not pending does nothing. -/
theorem onCall_absent {id : ℕ} (f : Running → Running) (absent : id∉s.calls.map Prod.fst) : onCall id f s=s := by
  unfold onCall
  cases found : s.calls.lookup id with
  | none => rfl
  | some call =>
    obtain ⟨before,after,shape,_⟩ := List.lookup_eq_some_iff.mp found
    exact absurd (by rw [shape]; simp) absent

/-- The calls stay the same ones, and none starts or completes. -/
structure Advances (s s' : Services) : Prop where
  /-- Pending calls stay. -/
  ids : s'.calls.map Prod.fst=s.calls.map Prod.fst
  /-- No identity is given. -/
  next : s'.next=s.next
  /-- No call completes. -/
  completed : completions s'.trace=completions s.trace

/-- Nothing happened. -/
theorem advances_refl (s : Services) : Advances s s := ⟨rfl,rfl,rfl⟩

/-- Advancing and advancing again. -/
theorem Advances.trans {s s' s'' : Services} (first : Advances s s') (second : Advances s' s'') : Advances s s'' :=
  ⟨second.ids.trans first.ids,second.next.trans first.next,second.completed.trans first.completed⟩

/-- Replacing a pending call by what keeps it good keeps the services sane. -/
theorem replace_sane (sane : Sane ended s) {before after : List (ℕ × Call)} {id : ℕ} {call : Call}
    (shape : s.calls=before ++ (id,call)::after) {y : Running} (kept : Keeps (running s (id,call)) y) :
    Sane ended {s with calls := before ++ (id,y.call)::after,master := y.master,trace := y.trace} ∧
      Advances s {s with calls := before ++ (id,y.call)::after,master := y.master,trace := y.trace} := by
  obtain ⟨i,call',master,trace⟩ := y
  obtain ⟨good,identity,request,new,extended,own⟩ := kept
  obtain rfl : i=id := identity
  obtain rfl : trace=new ++ s.trace := extended
  have request : call'.request=call.request := request
  have own : ∀ event∈new, isOwn i event=true := own
  have apart := sane.apart shape
  have ids : (before ++ (i,call')::after).map Prod.fst=s.calls.map Prod.fst := by
    rw [shape,List.map_append,List.map_append,List.map_cons,List.map_cons]
  have member : (i,call)∈s.calls := by
    rw [shape]
    exact List.mem_append_right _ (List.mem_cons_self ..)
  have pending : i∈s.calls.map Prod.fst := List.mem_map_of_mem member
  obtain ⟨noStart,noCompletion⟩ := own_accounts own
  have about : ∀ event∈new, eventId event=i := fun event here => own_id (own event here)
  have starting : starts (new ++ s.trace)=starts s.trace := by
    rw [starts,List.filterMap_append]
    exact (congrArg (· ++ _) noStart).trans (List.nil_append _)
  have completing : completions (new ++ s.trace)=completions s.trace := by
    rw [completions,List.filterMap_append]
    exact (congrArg (· ++ _) noCompletion).trans (List.nil_append _)
  have silent : Silent (new ++ s.trace) := good.silent
  have elsewhere : ∀ j, j∈completions s.trace ++ ended.map Prod.fst → j≠i := by
    intro j gone equal
    have nodup := sane.nodup
    rw [← List.append_assoc] at nodup
    exact (List.nodup_append.mp nodup).2.2 j gone i pending equal
  have others : ∀ j, j≠i → ∀ event∈new, eventId event≠j := fun j other event here same =>
    other (same.symm.trans (about event here))
  refine ⟨⟨?_,?_,?_,?_,?_,?_,?_,silent⟩,⟨ids,rfl,completing⟩⟩
  · intro entry here
    rcases List.mem_append.mp here with first | rest
    · have old : entry∈s.calls := by
        rw [shape]
        exact List.mem_append_left _ first
      exact good_others (sane.good entry old) (others entry.1 (apart entry (List.mem_append_left _ first))) silent
    · rcases List.mem_cons.mp rest with middle | last
      · rw [middle]
        exact good
      · have old : entry∈s.calls := by
          rw [shape]
          exact List.mem_append_right _ (List.mem_cons_of_mem _ last)
        exact good_others (sane.good entry old) (others entry.1 (apart entry (List.mem_append_right _ last))) silent
  · intro entry here
    exact honest_others (sane.results entry here)
      (others entry.1 (elsewhere entry.1 (List.mem_append_right _ (List.mem_map_of_mem here))))
  · rw [ids]
    exact sane.ordered
  · intro event here
    rcases List.mem_append.mp here with first | second
    · rw [about event first]
      exact sane.bounded i (List.mem_append_right _ (List.mem_append_right _ pending))
    · exact sane.seen event second
  · exact starting.trans sane.numbered
  · rw [starting,completing,ids]
    exact sane.accounted
  · intro j asked started
    have older : Event.started j asked∈s.trace := by
      rcases List.mem_append.mp started with first | second
      · cases own _ first
      · exact second
    obtain ⟨requests,results⟩ := sane.asked j asked older
    refine ⟨fun c here => ?_,fun given completed => ?_⟩
    · rcases List.mem_append.mp here with first | second
      · exact requests c (List.mem_append_left _ first)
      · rcases List.mem_append.mp second with front | back
        · refine requests c (List.mem_append_right _ ?_)
          rw [shape]
          exact List.mem_append_left _ front
        · rcases List.mem_cons.mp back with equal | last
          · obtain ⟨rfl,rfl⟩ := Prod.mk.inj equal
            exact request.trans (requests call (List.mem_append_right _ member))
          · refine requests c (List.mem_append_right _ ?_)
            rw [shape]
            exact List.mem_append_right _ (List.mem_cons_of_mem _ last)
    · have before : Event.completed j given∈s.trace := by
        rcases List.mem_append.mp completed with first | second
        · cases own _ first
        · exact second
      have gone : j∈completions s.trace := List.mem_filterMap.mpr ⟨_,before,rfl⟩
      exact honest_others (results given before) (others j (elsewhere j (List.mem_append_left _ gone)))

/-- Advancing one call by what keeps it good keeps the services sane. -/
theorem onCall_sane (id : ℕ) {f : Running → Running} (keeps : ∀ x, Good x → Keeps x (f x)) (sane : Sane ended s) :
    Sane ended (onCall id f s) ∧ Advances s (onCall id f s) := by
  by_cases pending : id∈s.calls.map Prod.fst
  · obtain ⟨entry,member,same⟩ := List.mem_map.mp pending
    obtain ⟨i,call⟩ := entry
    obtain rfl : i=id := same
    obtain ⟨before,after,shape,result⟩ := onCall_shape sane f member
    rw [result]
    exact replace_sane sane shape (keeps _ (sane.good _ member))
  · rw [onCall_absent f pending]
    exact ⟨sane,advances_refl s⟩

/-- Advancing every call by what keeps it good keeps the services sane. -/
theorem onCalls_sane {f : ℕ → Running → Running} (keeps : ∀ id x, Good x → Keeps x (f id x)) (sane : Sane ended s) :
    Sane ended (onCalls f s) ∧ Advances s (onCalls f s) := by
  unfold onCalls
  generalize s.calls.map Prod.fst=ids
  induction ids generalizing s with
  | nil => exact ⟨sane,advances_refl s⟩
  | cons id rest ih =>
    have first := onCall_sane id (keeps id) sane
    have later := ih first.1
    exact ⟨later.1,first.2.trans later.2⟩

/-- A cancelled call is good. -/
theorem cancel_keeps {x : Running} (good : Good x) : Keeps x (finish .cancelled "local I/O cancelled" [] x) := by
  cases live : x.call.done with
  | true =>
    have same : finish .cancelled "local I/O cancelled" [] x=x := by
      unfold finish
      rw [if_pos live]
    rw [same]
    exact keeps_refl good
  | false => exact fail_keeps good live (by decide) (by decide)

variable (L : Libraries)

/-- Starting a call keeps the services sane and completes nothing. -/
theorem start_sane (request : Request) (idle : Bool) (resolution : Resolution) (sane : Sane ended s) :
    Sane ended (start L request idle resolution s) ∧
      completions (start L request idle resolution s).trace=completions s.trace := by
  have fresh : ∀ event∈s.trace, eventId event≠s.next+1 := by
    intro event member same
    have bound := sane.seen event member
    omega
  have nothing : ∀ message, sentOf (s.next+1) message s.trace=[] := by
    intro message
    have shown : sentOf (s.next+1) message (s.trace ++ [])=[] := sentOf_others fresh
    rw [List.append_nil] at shown
    exact shown
  have silent : Silent (.started (s.next+1) request::s.trace) := by
    refine silent_cons sane.silent ?_
    intro id message bytes wrote
    cases wrote
  have unfinished : Event.finished (s.next+1)∉Event.started (s.next+1) request::s.trace := by
    intro finished
    rcases List.mem_cons.mp finished with here | there
    · cases here
    · exact fresh _ there rfl
  have kept := open_keeps (x := ⟨s.next+1,{request := request},s.master,.started (s.next+1) request::s.trace⟩) L idle
    resolution rfl unfinished silent nothing
  unfold start
  dsimp only
  generalize open_ L request idle resolution _=y at kept ⊢
  obtain ⟨i,call,master,trace⟩ := y
  obtain ⟨good,identity,same,new,extended,own⟩ := kept
  obtain rfl : i=s.next+1 := identity
  have same : call.request=request := same
  have own : ∀ event∈new, isOwn (s.next+1) event=true := own
  have extended : trace=(new ++ [.started (s.next+1) request]) ++ s.trace := by
    rw [List.append_assoc]
    exact extended
  obtain ⟨noStart,noCompletion⟩ := own_accounts own
  have about : ∀ event∈new ++ [.started (s.next+1) request], eventId event=s.next+1 := by
    intro event member
    rcases List.mem_append.mp member with here | there
    · exact own_id (own event here)
    · rw [List.mem_singleton.mp there]
      rfl
  have older : ∀ event∈trace, event∈new ∨ event=.started (s.next+1) request ∨ event∈s.trace := by
    intro event member
    rw [extended] at member
    rcases List.mem_append.mp member with recent | past
    · rcases List.mem_append.mp recent with here | there
      · exact .inl here
      · exact .inr (.inl (List.mem_singleton.mp there))
    · exact .inr (.inr past)
  have starting : starts trace=(s.next+1)::starts s.trace := by
    rw [extended,starts,List.filterMap_append,List.filterMap_append]
    exact congrArg (· ++ _ ++ _) noStart
  have completing : completions trace=completions s.trace := by
    rw [extended,completions,List.filterMap_append,List.filterMap_append]
    exact congrArg (· ++ _ ++ _) noCompletion
  have others : ∀ j, j ≤ s.next → ∀ event∈new ++ [.started (s.next+1) request], eventId event≠j := by
    intro j bound event member is
    have that := about event member
    omega
  have bounded := sane.bounded
  refine ⟨⟨?_,?_,?_,?_,?_,?_,?_,good.silent⟩,completing⟩
  · intro entry member
    rcases List.mem_append.mp member with old | newest
    · have bound := bounded entry.1
        (List.mem_append_right _ (List.mem_append_right _ (List.mem_map_of_mem old)))
      have kept : Good ⟨entry.1,entry.2,master,(new ++ [.started (s.next+1) request]) ++ s.trace⟩ :=
        good_others (sane.good entry old) (others entry.1 bound) (extended ▸ good.silent)
      rw [← extended] at kept
      exact kept
    · rw [List.mem_singleton.mp newest]
      exact good
  · intro entry member
    have bound := bounded entry.1 (List.mem_append_right _ (List.mem_append_left _ (List.mem_map_of_mem member)))
    have kept := honest_others (sane.results entry member) (others entry.1 bound)
    rw [← extended] at kept
    exact kept
  · rw [List.map_append]
    refine List.pairwise_append.mpr ⟨sane.ordered,List.pairwise_singleton _ _,fun a old b newest => ?_⟩
    rw [List.mem_singleton.mp newest]
    exact Nat.lt_succ_of_le (bounded a (List.mem_append_right _ (List.mem_append_right _ old)))
  · intro event member
    rcases older event member with here | here | past
    · exact Nat.le_of_eq (own_id (own event here))
    · rw [here]
      exact Nat.le_refl _
    · exact Nat.le_succ_of_le (sane.seen event past)
  · rw [starting,sane.numbered,List.range'_concat,List.reverse_append,Nat.one_mul,Nat.add_comm 1]
    rfl
  · rw [starting,completing,List.map_append,← List.append_assoc,← List.append_assoc,List.append_assoc (completions s.trace)]
    exact List.perm_append_comm.trans (sane.accounted.cons _)
  · intro j asked started
    rcases older _ started with here | here | past
    · cases own _ here
    · obtain ⟨rfl,rfl⟩ := Event.started.inj here
      refine ⟨fun c member => ?_,fun given completed => ?_⟩
      · rcases List.mem_append.mp member with gone | pending
        · have bound := bounded _ (List.mem_append_right _ (List.mem_append_left _ (List.mem_map_of_mem gone)))
          exact absurd bound (Nat.not_succ_le_self _)
        · rcases List.mem_append.mp pending with old | newest
          · have bound := bounded _ (List.mem_append_right _ (List.mem_append_right _ (List.mem_map_of_mem old)))
            exact absurd bound (Nat.not_succ_le_self _)
          · rw [(Prod.mk.inj (List.mem_singleton.mp newest)).2]
            exact same
      · rcases older _ completed with h | h | past
        · cases own _ h
        · cases h
        · exact absurd rfl (fresh _ past)
    · have bound : j ≤ s.next := sane.seen _ past
      obtain ⟨requests,results⟩ := sane.asked j asked past
      refine ⟨fun c member => ?_,fun given completed => ?_⟩
      · rcases List.mem_append.mp member with gone | pending
        · exact requests c (List.mem_append_left _ gone)
        · rcases List.mem_append.mp pending with old | newest
          · exact requests c (List.mem_append_right _ old)
          · have is := (Prod.mk.inj (List.mem_singleton.mp newest)).1
            omega
      · rcases older _ completed with h | h | before
        · cases own _ h
        · cases h
        · have kept := honest_others (results given before) (others j bound)
          rw [← extended] at kept
          exact kept

/-- Starting or cancelling a call keeps the services sane and completes nothing. -/
theorem operate_sane (operation : Operation) (sane : Sane ended s) :
    Sane ended (operate L s operation) ∧ completions (operate L s operation).trace=completions s.trace := by
  cases operation with
  | start request idle resolution => exact start_sane L request idle resolution sane
  | cancel id =>
    have kept := onCall_sane id (fun _ => cancel_keeps) sane
    exact ⟨kept.1,kept.2.completed⟩

/-- Whatever a completion does keeps the services sane and completes nothing. -/
theorem operates_sane (operations : List Operation) (sane : Sane ended s) :
    Sane ended (operations.foldl (operate L) s) ∧ completions (operations.foldl (operate L) s).trace=completions s.trace := by
  induction operations generalizing s with
  | nil => exact ⟨sane,rfl⟩
  | cons operation rest ih =>
    have first := operate_sane L operation sane
    have later := ih first.1
    exact ⟨later.1,later.2.trans first.2⟩

/-- An ended call whose completion is invoked is accounted for. -/
theorem completed_sane {entry : ℕ × Call} {rest : List (ℕ × Call)} (sane : Sane (entry::rest) s) :
    Sane rest {s with trace := .completed entry.1 entry.2.result::s.trace} := by
  have silent : Silent (.completed entry.1 entry.2.result::s.trace) := by
    refine silent_cons sane.silent ?_
    intro id message bytes wrote
    cases wrote
  have nodup := (List.nodup_append.mp sane.nodup).2.1
  rw [List.map_cons,List.cons_append,List.nodup_cons] at nodup
  refine ⟨?_,fun other member => sane.results other (List.mem_cons_of_mem _ member),sane.ordered,?_,sane.numbered,?_,?_,silent⟩
  · intro other member
    show Good ⟨other.1,other.2,s.master,[.completed entry.1 entry.2.result] ++ s.trace⟩
    refine good_others (sane.good other member) (fun event here same => ?_) silent
    rw [List.mem_singleton.mp here] at same
    have equal : entry.1=other.1 := same
    refine nodup.1 (List.mem_append_right _ ?_)
    rw [equal]
    exact List.mem_map_of_mem member
  · intro event member
    rcases List.mem_cons.mp member with here | past
    · rw [here]
      exact sane.bounded entry.1 (List.mem_append_right _ (List.mem_cons_self ..))
    · exact sane.seen event past
  · exact List.perm_middle.symm.trans sane.accounted
  · intro id request started
    rcases List.mem_cons.mp started with here | past
    · cases here
    · obtain ⟨requests,results⟩ := sane.asked id request past
      refine ⟨fun call member => requests call (List.mem_cons_of_mem _ member),fun result completed => ?_⟩
      rcases List.mem_cons.mp completed with now | before
      · obtain ⟨rfl,rfl⟩ := Event.completed.inj now
        have honest := sane.results entry (List.mem_cons_self ..)
        rw [requests entry.2 (List.mem_cons_self ..)] at honest
        exact honest
      · exact results result before

/-- The completions of ended calls keep the services sane, and complete these calls. -/
theorem invokes_sane (reactions : ℕ → List Operation) (sane : Sane ended s) :
    Sane [] (ended.foldl (invoke L reactions) s) ∧
      completions (ended.foldl (invoke L reactions) s).trace=(ended.map Prod.fst).reverse ++ completions s.trace := by
  induction ended generalizing s with
  | nil => exact ⟨sane,rfl⟩
  | cons entry rest ih =>
    have first := operates_sane L (reactions entry.1) (completed_sane sane)
    have later := ih first.1
    refine ⟨later.1,later.2.trans ?_⟩
    rw [List.map_cons,List.reverse_cons,List.append_assoc]
    exact congrArg (_ ++ ·) first.2

/-- Ended calls leave the pending ones. -/
theorem leave_sane (sane : Sane [] s) :
    Sane (s.calls.filter (fun entry => entry.2.done)) {s with calls := s.calls.filter (fun entry => !entry.2.done)} := by
  have parts : (s.calls.filter (fun entry => entry.2.done) ++ s.calls.filter (fun entry => !entry.2.done)).Perm s.calls :=
    List.filter_append_perm _ _
  refine ⟨?_,?_,?_,sane.seen,sane.numbered,?_,?_,sane.silent⟩
  · intro entry member
    exact sane.good entry (List.mem_of_mem_filter member)
  · intro entry member
    obtain ⟨pending,done⟩ := List.mem_filter.mp member
    exact (sane.good entry pending).honest done
  · exact sane.ordered.sublist (List.filter_sublist.map _)
  · have moved := parts.map Prod.fst
    rw [List.map_append] at moved
    exact (moved.append_left (completions s.trace)).trans sane.accounted
  · intro id request started
    obtain ⟨requests,results⟩ := sane.asked id request started
    exact ⟨fun call member => requests call (parts.mem_iff.mp member),results⟩

/-- The end of a pump keeps the services sane, and completes the ended calls. -/
theorem complete_sane (reactions : ℕ → List Operation) (sane : Sane [] s) :
    Sane [] (complete L reactions s) ∧ completions (complete L reactions s).trace=
      ((s.calls.filter (fun entry => entry.2.done)).map Prod.fst).reverse ++ completions s.trace :=
  invokes_sane L reactions (leave_sane sane)

/-- A pump keeps the services sane up to its completions. -/
theorem pollAll_sane (inputs : Inputs) (sane : Sane [] s) :
    Sane [] (pollAll L inputs s) ∧ Advances s (pollAll L inputs s) := by
  have prepared := onCalls_sane (fun id _ => prepare_keeps inputs.now (inputs.preparation id)) sane
  have polled := onCalls_sane (fun id _ => poll_keeps L (inputs.polled id)) prepared.1
  have swept := onCalls_sane (fun id _ => sweep_keeps (inputs.swept id)) polled.1
  exact ⟨swept.1,prepared.2.trans (polled.2.trans swept.2)⟩

/-- Every action keeps the services sane. -/
theorem step_sane (action : Action) (sane : Sane [] s) : Sane [] (step L s action) := by
  cases action with
  | operate operation => exact (operate_sane L operation sane).1
  | pump inputs => exact (complete_sane L inputs.reactions (pollAll_sane L inputs sane).1).1

/-- Services without calls are sane. -/
theorem empty_sane : Sane [] {} := by
  refine ⟨by simp,by simp,List.Pairwise.nil,by simp,rfl,.nil,by simp,?_⟩
  intro newer older id shape
  exact absurd (congrArg List.length shape) (by simp)

/-- Services after some actions. -/
def run (actions : List Action) : Services := actions.foldl (step L) {}

/-- Every run leads to sane services. -/
theorem run_sane (actions : List Action) : Sane [] (run L actions) := by
  have all : ∀ s, Sane [] s → Sane [] (actions.foldl (step L) s) := by
    induction actions with
    | nil => exact fun _ sane => sane
    | cons action rest ih => exact fun s sane => ih _ (step_sane L action sane)
  exact all {} empty_sane

end Steps

section Pumps

/-- Advancing another call leaves a call alone. -/
theorem onCall_other (f : Running → Running) {s : Services} (sane : Sane [] s) {id other : ℕ} {call : Call} (apart : id≠other)
    (member : (id,call)∈s.calls) : (id,call)∈(onCall other f s).calls := by
  by_cases pending : other∈s.calls.map Prod.fst
  · obtain ⟨⟨i,old⟩,here,same⟩ := List.mem_map.mp pending
    obtain rfl : i=other := same
    obtain ⟨before,after,shape,result⟩ := onCall_shape sane f here
    rw [result]
    rw [shape] at member
    rcases List.mem_append.mp member with first | later
    · exact List.mem_append_left _ first
    · rcases List.mem_cons.mp later with equal | last
      · exact absurd (Prod.mk.inj equal).1 apart
      · exact List.mem_append_right _ (List.mem_cons_of_mem _ last)
  · rw [onCall_absent f pending]
    exact member

/-- Advancing other calls leaves a call alone. -/
theorem onCalls_other {f : ℕ → Running → Running} (keeps : ∀ id x, Good x → Keeps x (f id x)) (ids : List ℕ) {s : Services}
    (sane : Sane [] s) {id : ℕ} {call : Call} (absent : id∉ids) (member : (id,call)∈s.calls) :
    (id,call)∈(ids.foldl (fun s id => onCall id (f id) s) s).calls := by
  induction ids generalizing s with
  | nil => exact member
  | cons other rest ih =>
    rw [List.mem_cons,not_or] at absent
    exact ih (onCall_sane other (keeps other) sane).1 absent.2 (onCall_other (f other) sane absent.1 member)

/-- Advancing every call advances each of them once. -/
theorem onCalls_member {f : ℕ → Running → Running} (keeps : ∀ id x, Good x → Keeps x (f id x)) {s : Services}
    (sane : Sane [] s) {id : ℕ} {call : Call} (member : (id,call)∈s.calls) :
    ∃ x, x.call=call ∧ Good x ∧ (id,(f id x).call)∈(onCalls f s).calls := by
  have present : id∈s.calls.map Prod.fst := List.mem_map_of_mem member
  have nodup : (s.calls.map Prod.fst).Nodup := sane.ordered.imp (fun h => Nat.ne_of_lt h)
  unfold onCalls
  generalize s.calls.map Prod.fst=ids at present nodup
  induction ids generalizing s with
  | nil => cases present
  | cons other rest ih =>
    rw [List.nodup_cons] at nodup
    have first := onCall_sane other (keeps other) sane
    by_cases here : id=other
    · obtain ⟨before,after,shape,result⟩ := onCall_shape sane (f id) member
      refine ⟨running s (id,call),rfl,sane.good _ member,?_⟩
      rw [← here] at first nodup ⊢
      refine onCalls_other keeps rest first.1 nodup.1 ?_
      rw [result]
      exact List.mem_append_right _ (List.mem_cons_self ..)
    · exact ih first.1 (onCall_other (f other) sane here member) ((List.mem_cons.mp present).resolve_left here) nodup.2

variable (L : Libraries)

/-- A pump ends every call whose deadline passed before its last look at it, and keeps ended calls as they are. -/
theorem pollAll_ends (inputs : Inputs) {s : Services} (sane : Sane [] s) {id : ℕ} {call : Call} (member : (id,call)∈s.calls)
    (due : call.done=true ∨ call.request.deadline ≤ (inputs.swept id).1) :
    ∃ ended, (id,ended)∈(pollAll L inputs s).calls ∧ ended.done=true := by
  have prepares : ∀ id x, Good x → Keeps x (prepare inputs.now (inputs.preparation id) x) := fun id _ =>
    prepare_keeps inputs.now (inputs.preparation id)
  have polls : ∀ id x, Good x → Keeps x (poll L (inputs.polled id) x) := fun id _ => poll_keeps L (inputs.polled id)
  have prepared := onCalls_sane prepares sane
  have polled := onCalls_sane polls prepared.1
  obtain ⟨x,rfl,good,there⟩ := onCalls_member prepares sane member
  obtain ⟨y,same,good',there'⟩ := onCalls_member polls prepared.1 there
  obtain ⟨z,same',_,there''⟩ := onCalls_member (fun id _ => sweep_keeps (inputs.swept id)) polled.1 there'
  refine ⟨_,there'',?_⟩
  have request : z.call.request=x.call.request := by
    rw [same',(polls id y good').2.2.1,same,(prepares id x good).2.2.1]
  have ended : x.call.done=true → z.call.done=true := by
    intro done
    have first : prepare inputs.now (inputs.preparation id) x=x := by
      unfold prepare
      rw [if_pos done]
    have second : poll L (inputs.polled id) y=y := by
      unfold poll
      rw [if_pos (by rw [same,first,done])]
    rw [same',second,same,first,done]
  unfold sweep
  split
  · rename_i done
    exact done
  · rename_i open_
    rcases due with done | late
    · exact absurd (ended done) open_
    · rw [if_pos (by rw [request]; exact late)]
      unfold expire finish
      rw [if_neg open_]

/-- In every run each started call is pending or completed, and not both, and no call completes twice. A pump completes just
the calls that ended before it invokes completions, in the order of their starts; all that ended earlier or whose deadline
passed are among them. -/
theorem run_completes (actions : List Action) :
    ((completions (run L actions).trace ++ (run L actions).calls.map Prod.fst).Perm (starts (run L actions).trace) ∧
      (starts (run L actions).trace).Nodup) ∧
    ∀ inputs, ∃ ended : List ℕ,
      completions (pump L inputs (run L actions)).trace=ended.reverse ++ completions (run L actions).trace ∧
        ended.Sublist ((run L actions).calls.map Prod.fst) ∧
        (∀ id, id∈ended ↔ ∃ call, (id,call)∈(pollAll L inputs (run L actions)).calls ∧ call.done=true) ∧
        ∀ id call, (id,call)∈(run L actions).calls →
          call.done=true ∨ call.request.deadline ≤ (inputs.swept id).1 → id∈ended := by
  have sane := run_sane L actions
  refine ⟨⟨sane.accounted,?_⟩,fun inputs => ?_⟩
  · rw [sane.numbered,List.nodup_reverse]
    exact List.nodup_range'
  · have polled := pollAll_sane L inputs sane
    have completed := complete_sane L inputs.reactions polled.1
    have members : ∀ id, id∈((pollAll L inputs (run L actions)).calls.filter (fun entry => entry.2.done)).map Prod.fst ↔
        ∃ call, (id,call)∈(pollAll L inputs (run L actions)).calls ∧ call.done=true := by
      intro id
      constructor
      · intro member
        obtain ⟨⟨i,call⟩,here,same⟩ := List.mem_map.mp member
        obtain rfl : i=id := same
        exact ⟨call,List.mem_filter.mp here⟩
      · intro ⟨call,here,done⟩
        exact List.mem_map.mpr ⟨(id,call),List.mem_filter.mpr ⟨here,done⟩,rfl⟩
    refine ⟨_,completed.2.trans (congrArg _ polled.2.completed),?_,members,fun id call member due => ?_⟩
    · rw [← polled.2.ids]
      exact List.filter_sublist.map _
    · exact (members id).mpr (pollAll_ends L inputs sane member due)

/-- In every run a completed result is honest about the request the call was started with, and nothing is written for a call
that finished. -/
theorem run_honest (actions : List Action) :
    (∀ id request result, Event.started id request∈(run L actions).trace → Event.completed id result∈(run L actions).trace →
      Honest id request result (run L actions).trace) ∧ Silent (run L actions).trace := by
  have sane := run_sane L actions
  exact ⟨fun id request result started => (sane.asked id request started).2 result,sane.silent⟩

/-- Libraries that know one numeric host. -/
def sampleLibraries : Libraries where
  numeric host := if host=ofText "10.0.0.1" then some (.inet,[10,0,0,1]) else none
  fromXml _ _ := .failed
  resolverServers := false

/-- A request of the master. -/
def sampleRequest : Request := ⟨ofText "http://10.0.0.1:3",[],[],[],[],[],ofText "<a/>",9⟩

/-- A pump in which every socket is ready and every connection starts. -/
def samplePump (ready : Ready) : Action :=
  .pump ⟨0,fun _ => ⟨none,fun _ => .started 7⟩,fun _ => ⟨[],some ready⟩,fun _ => (0,none),fun _ => []⟩

/-- A call that connects and is answered; its request and its response are split. -/
def sampleActions : List Action :=
  [.operate (.start sampleRequest false {}),
    samplePump {now := 1},
    samplePump {now := 1,sent := [.accepted 2,.accepted 1000]},
    samplePump {now := 1,received := [.bytes 0x48 (ofText "TTP/1.1 200 OK\r\nContent-Length: 2\r\n\r\n")]},
    samplePump {now := 1,received := [.bytes 5 [6]]}]

/-- In that run the call is answered with the two bytes of the body. -/
theorem run_honest_sample :
    Honest 1 sampleRequest ⟨.response,[5,6],"ROS master response"⟩ (run sampleLibraries sampleActions).trace :=
  (run_honest sampleLibraries sampleActions).1 1 sampleRequest _ (by decide +kernel) (by decide +kernel)

end Pumps

end Ros1Adapter.AsyncRosRuns
