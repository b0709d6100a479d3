import Ros1Adapter.ActionRules
import Ros1Adapter.PublisherRegistry

/-!
# Publish outcomes are honest

However calls interleave, a call that fails with a known outcome has handed no
message over, and a call that succeeds has handed over as many as it was asked
to. The entries count the calls that hold them, and only entries that
something keeps stay in the table.
-/

namespace Ros1Adapter.PublisherOutcomes

open ActionRules PublisherRegistry

section Outcomes

/-- Number of messages that a job asks for. -/
def publishCount : Job → ℕ
  | .publish request => request.publishCount
  | .declare _ => 0

/-- The messages handed over agree with where a call stands. -/
def Honest (c : Call) : Prop :=
  match c.phase with
  | .dispatching index _ => c.handed=index ∧ index ≤ publishCount c.job
  | .pausing index _ | .sending index _ => c.handed=index ∧ index < publishCount c.job
  | .sent index _ => c.handed=index+1 ∧ index < publishCount c.job
  | .completing _ => c.handed=publishCount c.job
  | .finished (.ok (some result)) => c.handed=publishCount c.job ∧ result.publishedCount=c.handed
  | .finished (.ok none) => c.handed=0 ∧ ∃ configuration, c.job=.declare configuration
  | .finished (.error failure) => failure.uncertain=false → c.handed=0
  | _ => c.handed=0

/-- After the dispatch, every check fails with an unknown outcome. -/
theorem continuation_uncertain {w : World} {failure : Failure} (h : requireContinuationAllowed w=some failure) :
    failure.uncertain=true := by
  unfold requireContinuationAllowed at h
  split at h
  · rw [← Option.some.inj h]
    rfl
  · split at h
    · rw [← Option.some.inj h]
      rfl
    · split at h
      · rw [← Option.some.inj h]
        rfl
      · exact absurd h nofun

/-- A call that fails with an unknown outcome is honest. -/
theorem honest_uncertain {job : Job} {failure : Failure} {handed : ℕ} (h : failure.uncertain=true) :
    Honest ⟨job,.finished (.error failure),handed⟩ :=
  fun known => absurd (h.symm.trans known) nofun

/-- A step of a dispatch keeps a call honest. -/
theorem dispatch_honest (w : World) {request : PublishRequest} {phase : Phase} {handed : ℕ}
    (h : Honest ⟨.publish request,phase,handed⟩) : Honest (dispatch w request ⟨.publish request,phase,handed⟩) := by
  unfold dispatch
  cases phase with
  | dispatching index bytes =>
    have same : handed=index := h.1
    have bound : index ≤ request.publishCount := h.2
    dsimp only
    split
    · show handed=request.publishCount
      omega
    · split
      · exact ⟨same,by show index < request.publishCount; omega⟩
      · exact ⟨same,by show index < request.publishCount; omega⟩
  | pausing index bytes =>
    dsimp only
    split
    · exact h
    · unfold Call.continue
      split
      · next failed => exact honest_uncertain (continuation_uncertain failed)
      · exact h
  | sending index bytes =>
    have ⟨same,bound⟩ : handed=index ∧ index < request.publishCount := h
    dsimp only
    split
    · exact honest_uncertain rfl
    · split
      · next failed => exact honest_uncertain (continuation_uncertain failed)
      · cases w.publishThrows with
        | some exception => exact honest_uncertain rfl
        | none => exact ⟨congrArg (· + 1) same,bound⟩
  | sent index bytes =>
    have ⟨same,bound⟩ : handed=index+1 ∧ index < request.publishCount := h
    unfold Call.continue
    dsimp only
    split
    · next failed => exact honest_uncertain (continuation_uncertain failed)
    · exact ⟨same,bound⟩
  | completing bytes =>
    have same : handed=request.publishCount := h
    dsimp only
    cases w.throws with
    | some exception => exact honest_uncertain rfl
    | none => exact ⟨same,same.symm⟩
  | _ => exact h

/-- A step of a call that holds an entry keeps it honest. -/
theorem hold_honest (w : World) {request : PublishRequest} {phase : Phase} {handed entry : ℕ} (publisher : Bool)
    (held : phase.entry=some entry) (h : Honest ⟨.publish request,phase,handed⟩) :
    Honest (hold w request entry publisher ⟨.publish request,phase,handed⟩) := by
  unfold hold
  cases phase with
  | holding _ bytes =>
    dsimp only
    split
    · exact h
    · split
      · exact h
      · exact h
  | waiting _ bytes =>
    unfold Call.continue
    dsimp only
    split
    · split
      · exact h
      · exact h
    · split
      · exact h
      · split
        · exact h
        · exact h
  | ready _ bytes =>
    unfold Call.continue
    dsimp only
    split
    · exact h
    · split
      · exact h
      · exact h
  | _ => exact h

/-- Every step keeps a call honest. -/
theorem advance_honest (settings : Settings) (w : World) {c : Call} (s : Registry) (h : Honest c) :
    Honest (advance settings w c s).2 := by
  obtain ⟨job,phase,handed⟩ := c
  have none_ : ∀ failure, handed=0 → Honest ⟨job,.finished (.error failure),handed⟩ := fun _ none_ _ => none_
  unfold advance
  cases phase with
  | entering =>
    unfold Call.continue
    dsimp only
    split
    · exact none_ _ h
    · exact h
  | loading =>
    dsimp only
    split
    · exact none_ _ h
    · exact h
  | comparing current =>
    dsimp only
    split
    · exact none_ _ h
    · cases job with
      | publish _ | declare _ => exact h
  | preparing =>
    dsimp only
    split
    · exact none_ _ h
    · exact none_ _ h
    · exact h
  | selecting bytes =>
    dsimp only
    split
    · exact none_ _ h
    · cases job with
      | publish request => exact h
      | declare configuration => exact ⟨h,configuration,rfl⟩
  | releasing entry failure => exact none_ _ h
  | committing entry bytes => exact ⟨h,Nat.zero_le _⟩
  | finished outcome => exact h
  | holding _ _ | waiting _ _ | ready _ _ =>
    cases job with
    | publish request => exact hold_honest w _ rfl h
    | declare configuration => exact h
  | dispatching _ _ | pausing _ _ | sending _ _ | sent _ _ | completing _ =>
    cases job with
    | publish request => exact dispatch_honest w h
    | declare configuration => exact h

end Outcomes

section Table

/-- What a step of a call does to what is shared and to its own hold on an entry. -/
inductive Effect (settings : Settings) (w : World) (c : Call) (s : Registry) : Registry → Call → Prop where
  /-- Nothing. -/
  | keeps {next : Call} (job : next.job=c.job) (entry : next.phase.entry=c.phase.entry) : Effect settings w c s s next
  /-- A changed master drops the table. -/
  | drops {next : Call} {current : ℤ} (job : next.job=c.job) (entry : next.phase.entry=none)
      (phase : c.phase=.comparing current) (changed : settings.masterGeneration≠current) :
      Effect settings w c s {s with entries := ∅} next
  /-- An entry is selected. -/
  | takes {next : Call} {t : Registry} {entry : ℕ} (job : next.job=c.job) (before : c.phase.entry=none)
      (selected : select settings w c.job.configuration s=.ok (t,entry)) (after : next.phase.entry=some entry) :
      Effect settings w c s (t.modify entry fun e => {e with activeCalls := e.activeCalls+1}) next
  /-- An entry is declared. -/
  | declares {next : Call} {t : Registry} {entry : ℕ} (job : next.job=c.job) (before : c.phase.entry=none)
      (selected : select settings w c.job.configuration s=.ok (t,entry)) (after : next.phase.entry=none) :
      Effect settings w c s (t.modify entry fun e => {e with declared := true}) next
  /-- An entry is given back. -/
  | gives {next : Call} {entry : ℕ} (committed : Bool) (job : next.job=c.job) (before : c.phase.entry=some entry)
      (after : next.phase.entry=none) : Effect settings w c s (release c.job.configuration.topic entry committed s) next

/-- A step of a call that holds an entry keeps its hold. -/
theorem hold_entry (w : World) (request : PublishRequest) {entry : ℕ} (publisher : Bool) {c : Call}
    (held : c.phase.entry=some entry) :
    (hold w request entry publisher c).job=c.job ∧ (hold w request entry publisher c).phase.entry=some entry := by
  obtain ⟨job,phase,handed⟩ := c
  unfold hold Call.continue
  cases phase with
  | holding _ _ | ready _ _ =>
    dsimp only
    split
    · exact ⟨rfl,rfl⟩
    · split
      · exact ⟨rfl,rfl⟩
      · exact ⟨rfl,rfl⟩
  | waiting _ bytes =>
    dsimp only
    split
    · split
      · exact ⟨rfl,rfl⟩
      · exact ⟨rfl,rfl⟩
    · split
      · exact ⟨rfl,rfl⟩
      · split
        · exact ⟨rfl,rfl⟩
        · exact ⟨rfl,rfl⟩
  | _ => exact ⟨rfl,held⟩

/-- A step of a dispatch holds no entry. -/
theorem dispatch_entry (w : World) (request : PublishRequest) {c : Call} (free : c.phase.entry=none) :
    (dispatch w request c).job=c.job ∧ (dispatch w request c).phase.entry=none := by
  obtain ⟨job,phase,handed⟩ := c
  unfold dispatch Call.continue Call.fail
  cases phase with
  | dispatching _ _ | pausing _ _ =>
    dsimp only
    split
    · exact ⟨rfl,rfl⟩
    · split
      · exact ⟨rfl,rfl⟩
      · exact ⟨rfl,rfl⟩
  | sending index bytes =>
    dsimp only
    split
    · exact ⟨rfl,rfl⟩
    · split
      · exact ⟨rfl,rfl⟩
      · cases w.publishThrows with
        | some _ | none => exact ⟨rfl,rfl⟩
  | sent _ _ | completing _ =>
    dsimp only
    split
    · exact ⟨rfl,rfl⟩
    · exact ⟨rfl,rfl⟩
  | _ => exact ⟨rfl,free⟩

/-- Every step has an effect. -/
theorem advance_effect (settings : Settings) (w : World) (c : Call) (s : Registry) :
    Effect settings w c s (advance settings w c s).1 (advance settings w c s).2 := by
  obtain ⟨job,phase,handed⟩ := c
  have held : ∀ (phase : Phase) (entry : ℕ), phase.entry=some entry → ∀ (request : PublishRequest) (publisher : Bool),
      Effect settings w ⟨.publish request,phase,handed⟩ s s
        (hold w request entry publisher ⟨.publish request,phase,handed⟩) := by
    intro phase entry own request publisher
    have kept := hold_entry w request publisher (c := ⟨.publish request,phase,handed⟩) own
    exact Effect.keeps kept.1 (kept.2.trans own.symm)
  have sent : ∀ phase : Phase, phase.entry=none → ∀ request : PublishRequest,
      Effect settings w ⟨.publish request,phase,handed⟩ s s (dispatch w request ⟨.publish request,phase,handed⟩) := by
    intro phase free request
    have kept := dispatch_entry w request (c := ⟨.publish request,phase,handed⟩) free
    exact Effect.keeps kept.1 (kept.2.trans free.symm)
  unfold advance
  cases phase with
  | entering =>
    unfold Call.continue
    dsimp only
    split
    · exact Effect.keeps rfl rfl
    · exact Effect.keeps rfl rfl
  | loading =>
    dsimp only
    split
    · exact Effect.keeps rfl rfl
    · exact Effect.keeps rfl rfl
  | comparing current =>
    dsimp only
    split
    · next changed => exact Effect.drops rfl rfl rfl changed
    · cases job with
      | publish _ | declare _ => exact Effect.keeps rfl rfl
  | preparing =>
    dsimp only
    split
    · exact Effect.keeps rfl rfl
    · exact Effect.keeps rfl rfl
    · exact Effect.keeps rfl rfl
  | selecting bytes =>
    dsimp only
    split
    · exact Effect.keeps rfl rfl
    · next t entry selected =>
      cases job with
      | publish request => exact Effect.takes rfl rfl selected rfl
      | declare configuration => exact Effect.declares rfl rfl selected rfl
  | releasing entry failure => exact Effect.gives false rfl rfl rfl
  | committing entry bytes => exact Effect.gives true rfl rfl rfl
  | finished outcome => exact Effect.keeps rfl rfl
  | holding entry _ | waiting entry _ | ready entry _ =>
    cases job with
    | publish request => exact held _ entry rfl request (s.store entry).publisher
    | declare configuration => exact Effect.keeps rfl rfl
  | dispatching _ _ | pausing _ _ | sending _ _ | sent _ _ | completing _ =>
    cases job with
    | publish request => exact sent _ rfl request
    | declare configuration => exact Effect.keeps rfl rfl

end Table

section Invariant

/-- Whether a call holds an entry. -/
def holds (entry : ℕ) (c : Call) : Bool := c.phase.entry=some entry

/-- Whether something keeps an entry. -/
def Kept (e : Entry) : Prop := e.nativeDispatchCommitted=true ∨ e.declared=true ∨ 0 < e.activeCalls

/-- The books of a registry and its calls. -/
structure Books (settings : Settings) (s : State) : Prop where
  /-- The calls are honest. -/
  honest : ∀ c∈s.calls, Honest c
  /-- The table stays within its capacity. -/
  bounded : s.registry.entries.keys.card ≤ settings.maximumPublishers
  /-- An entry counts the calls that hold it. -/
  active : ∀ entry, (s.registry.store entry).activeCalls=s.calls.countP (holds entry)
  /-- Only entries that were made are held. -/
  made : ∀ c∈s.calls, ∀ entry, c.phase.entry=some entry → entry < s.registry.count
  /-- Only entries that were made are in the table. -/
  known : ∀ topic entry, s.registry.entries.lookup topic=some entry → entry < s.registry.count
  /-- An entry is in the table under one topic. -/
  single : ∀ topic topic' entry, s.registry.entries.lookup topic=some entry →
    s.registry.entries.lookup topic'=some entry → topic=topic'
  /-- An entry in the table is held for its topic. -/
  topics : ∀ topic entry, s.registry.entries.lookup topic=some entry → ∀ c∈s.calls, c.phase.entry=some entry →
    c.job.configuration.topic=topic

/-- What holds of a registry and its calls between two steps. -/
structure Inv (settings : Settings) (s : State) : Prop extends Books settings s where
  /-- Something keeps each entry in the table. -/
  kept : ∀ topic entry, s.registry.entries.lookup topic=some entry → Kept (s.registry.store entry)

/-- The number of elements with a property after one element is replaced. -/
theorem countP_set {α : Type} (p : α → Bool) {l : List α} {i : ℕ} {a : α} (b : α) (h : l[i]?=some a) :
    (l.set i b).countP p+(if p a then 1 else 0)=l.countP p+(if p b then 1 else 0) := by
  induction l generalizing i with
  | nil => exact absurd h nofun
  | cons head rest ih =>
    cases i with
    | zero =>
      have same : head=a := Option.some.inj h
      rw [List.set_cons_zero,List.countP_cons,List.countP_cons,same]
      omega
    | succ i =>
      have later := ih (i := i) h
      rw [List.set_cons_succ,List.countP_cons,List.countP_cons]
      omega

/-- What is in a list after one element is replaced. -/
theorem mem_set {α : Type} {l : List α} {i : ℕ} {b c : α} (h : c∈l.set i b) : c=b ∨ c∈l :=
  (List.mem_or_eq_of_mem_set h).symm

/-- What a selection gives: the entry of the topic, or a new one in a table with room. -/
theorem select_cases {settings : Settings} {w : World} {configuration : PublisherConfiguration} {s t : Registry}
    {entry : ℕ} (h : select settings w configuration s=.ok (t,entry)) :
    (t=s ∧ s.entries.lookup configuration.topic=some entry) ∨
      s.entries.lookup configuration.topic=none ∧ s.entries.keys.card < settings.maximumPublishers ∧ entry=s.count ∧
        ∃ e : Entry, e.activeCalls=0 ∧ t={s with
          entries := s.entries.insert configuration.topic s.count
          store := Function.update s.store s.count e
          count := s.count+1} := by
  unfold select at h
  cases known : s.entries.lookup configuration.topic with
  | none =>
    rw [known] at h
    dsimp only at h
    split at h
    · exact absurd h nofun
    · next room =>
      split at h
      · exact absurd h nofun
      · have ⟨first,second⟩ := Prod.mk.inj (Except.ok.inj h)
        exact Or.inr ⟨rfl,by omega,second.symm,_,rfl,first.symm⟩
  | some found =>
    rw [known] at h
    dsimp only at h
    split at h
    · exact absurd h nofun
    · have ⟨first,second⟩ := Prod.mk.inj (Except.ok.inj h)
      exact Or.inl ⟨first.symm,congrArg some second⟩

/-- A step of one call keeps the books when the entry it holds and the counts change together. -/
theorem Books.after {settings : Settings} {t t' : Registry} {calls : List Call} {i : ℕ} {c next : Call}
    (h : Books settings ⟨t,calls⟩) (found : calls[i]?=some c) (honest : Honest next) (count : t'.count=t.count)
    (fewer : ∀ topic entry, t'.entries.lookup topic=some entry → t.entries.lookup topic=some entry)
    (card : t'.entries.keys.card ≤ t.entries.keys.card)
    (active : ∀ entry, (t'.store entry).activeCalls+(if holds entry c then 1 else 0)=
      (t.store entry).activeCalls+(if holds entry next then 1 else 0))
    (own : ∀ entry, next.phase.entry=some entry →
      entry < t.count ∧ ∀ topic, t.entries.lookup topic=some entry → next.job.configuration.topic=topic) :
    Books settings ⟨t',calls.set i next⟩ := by
  constructor
  · intro other member
    rcases mem_set member with new | old
    · rw [new]
      exact honest
    · exact h.honest other old
  · exact card.trans h.bounded
  · intro entry
    have counted := countP_set (holds entry) next found
    have before := h.active entry
    have moved := active entry
    dsimp only at before ⊢
    omega
  · intro other member entry held
    rcases mem_set member with new | old
    · rw [new] at held
      exact count ▸ (own entry held).1
    · exact count ▸ h.made other old entry held
  · intro topic entry listed
    exact count ▸ h.known topic entry (fewer topic entry listed)
  · exact fun topic topic' entry listed listed' =>
      h.single topic topic' entry (fewer topic entry listed) (fewer topic' entry listed')
  · intro topic entry listed other member held
    rcases mem_set member with new | old
    · rw [new] at held ⊢
      exact (own entry held).2 topic (fewer topic entry listed)
    · exact h.topics topic entry (fewer topic entry listed) other old held

/-- A selection keeps the books, and finds the topic's entry. -/
theorem select_books {settings : Settings} {w : World} {configuration : PublisherConfiguration} {s t : Registry}
    {calls : List Call} {entry : ℕ} (h : Books settings ⟨s,calls⟩)
    (selected : select settings w configuration s=.ok (t,entry)) :
    Books settings ⟨t,calls⟩ ∧ t.entries.lookup configuration.topic=some entry ∧
      ∀ topic other, t.entries.lookup topic=some other → other≠entry →
        s.entries.lookup topic=some other ∧ t.store other=s.store other := by
  rcases select_cases selected with ⟨same,listed⟩ | ⟨absent,room,new,e,idle,made⟩
  · rw [same]
    exact ⟨h,listed,fun topic other listed _ => ⟨listed,rfl⟩⟩
  · have unheld : ∀ c∈calls, ∀ e, c.phase.entry=some e → e≠s.count := by
      intro c member e held
      have := h.made c member e held
      dsimp only at this
      omega
    have lookup : ∀ topic other, t.entries.lookup topic=some other →
        topic=configuration.topic ∧ other=s.count ∨ topic≠configuration.topic ∧ s.entries.lookup topic=some other := by
      intro topic other listed
      rw [made] at listed
      by_cases same : topic=configuration.topic
      · rw [same] at listed
        dsimp only at listed
        rw [Finmap.lookup_insert] at listed
        exact Or.inl ⟨same,(Option.some.inj listed).symm⟩
      · dsimp only at listed
        rw [Finmap.lookup_insert_of_ne _ same] at listed
        exact Or.inr ⟨same,listed⟩
    have store : ∀ other≠s.count, t.store other=s.store other := by
      intro other different
      rw [made]
      exact Function.update_of_ne different _ _
    have old : ∀ topic other, s.entries.lookup topic=some other → other≠s.count := by
      intro topic other listed
      have := h.known topic other listed
      dsimp only at this
      omega
    refine ⟨⟨h.honest,?_,?_,?_,?_,?_,?_⟩,?_,?_⟩
    · have absent : configuration.topic∉s.entries.keys := fun member =>
        Finmap.lookup_eq_none.mp absent (Finmap.mem_keys.mp member)
      have keys : t.entries.keys=insert configuration.topic s.entries.keys := by
        ext topic
        rw [made,Finmap.mem_keys,Finmap.mem_insert,Finset.mem_insert,Finmap.mem_keys]
      rw [keys,Finset.card_insert_of_notMem absent]
      exact room
    · intro other
      by_cases same : other=s.count
      · have nobody : calls.countP (holds other)=0 := by
          rw [List.countP_eq_zero]
          intro c member held
          exact unheld c member other (of_decide_eq_true held) same
        have fresh : t.store other=e := by
          rw [made,same]
          exact Function.update_self _ _ _
        dsimp only
        rw [nobody,fresh,idle]
      · dsimp only
        rw [store other same]
        exact h.active other
    · intro c member other held
      have low := h.made c member other held
      dsimp only at low ⊢
      rw [made]
      exact Nat.lt_succ_of_lt low
    · intro topic other listed
      have count : t.count=s.count+1 := by rw [made]
      rcases lookup topic other listed with ⟨_,new⟩ | ⟨_,before⟩
      · rw [new,count]
        exact Nat.lt_succ_self _
      · have low := h.known topic other before
        dsimp only at low ⊢
        omega
    · intro topic topic' other listed listed'
      rcases lookup topic other listed with ⟨same,new⟩ | ⟨_,before⟩
      · rcases lookup topic' other listed' with ⟨same',_⟩ | ⟨_,before'⟩
        · rw [same,same']
        · exact absurd new (old topic' other before')
      · rcases lookup topic' other listed' with ⟨_,new'⟩ | ⟨_,before'⟩
        · exact absurd new' (old topic other before)
        · exact h.single topic topic' other before before'
    · intro topic other listed c member held
      rcases lookup topic other listed with ⟨_,new⟩ | ⟨_,before⟩
      · exact absurd new (unheld c member other held)
      · exact h.topics topic other before c member held
    · rw [made,new]
      exact Finmap.lookup_insert _
    · intro topic other listed different
      rw [new] at different
      rcases lookup topic other listed with ⟨_,same⟩ | ⟨_,before⟩
      · exact absurd same different
      · exact ⟨before,store other different⟩

/-- A changed entry, and the others. -/
theorem modify_store (s : Registry) (entry other : ℕ) (f : Entry → Entry) :
    (s.modify entry f).store other=if other=entry then f (s.store entry) else s.store other :=
  Function.update_apply _ _ _ _

/-- What giving an entry back does to the entries. -/
theorem release_store (topic : String) (entry other : ℕ) (committed : Bool) (s : Registry) :
    (release topic entry committed s).store other=
      if other=entry then
        {s.store entry with
          activeCalls := (s.store entry).activeCalls-1
          nativeDispatchCommitted := (s.store entry).nativeDispatchCommitted || committed}
      else s.store other := by
  unfold release
  dsimp only
  split
  · exact Function.update_apply _ _ _ _
  · exact Function.update_apply _ _ _ _

/-- What giving an entry back does to the table: the entry is dropped from its topic when nothing keeps it. -/
theorem release_entries (topic : String) (entry : ℕ) (committed : Bool) (s : Registry) :
    (release topic entry committed s).entries=s.entries ∧
        (s.entries.lookup topic=some entry → Kept ((release topic entry committed s).store entry)) ∨
      (release topic entry committed s).entries=s.entries.erase topic ∧ s.entries.lookup topic=some entry ∧
        ((release topic entry committed s).store entry).activeCalls=0 := by
  have stored : (release topic entry committed s).store entry=_ := release_store topic entry entry committed s
  rw [if_pos rfl] at stored
  rw [stored]
  unfold release Kept
  dsimp only
  rw [modify_store,if_pos rfl]
  dsimp only
  split
  · next gone => exact Or.inr ⟨rfl,gone.1,gone.2.1⟩
  · next stays =>
    refine Or.inl ⟨rfl,fun listed => ?_⟩
    rw [not_and,not_and,not_and] at stays
    by_cases committed_ : ((s.store entry).nativeDispatchCommitted || committed)=true
    · exact Or.inl committed_
    · by_cases declared : (s.store entry).declared=true
      · exact Or.inr (Or.inl declared)
      · refine Or.inr (Or.inr (Nat.pos_of_ne_zero fun idle => ?_))
        exact stays listed idle (Bool.eq_false_of_not_eq_true committed_) (Bool.eq_false_of_not_eq_true declared)

/-- The number of keys of an erased table. -/
theorem card_erase_le {α : Type} (entries : Finmap fun _ : String => α) (topic : String) :
    (entries.erase topic).keys.card ≤ entries.keys.card := by
  rw [Finmap.keys_erase]
  exact Finset.card_erase_le

/-- What an erased table holds. -/
theorem lookup_erase_some {α : Type} {entries : Finmap fun _ : String => α} {topic other : String} {value : α}
    (h : (entries.erase topic).lookup other=some value) : other≠topic ∧ entries.lookup other=some value := by
  have different : other≠topic := by
    intro same
    rw [same,Finmap.lookup_erase] at h
    exact absurd h nofun
  rw [Finmap.lookup_erase_ne different] at h
  exact ⟨different,h⟩

/-- What a call holds, as a number. -/
theorem holds_of_entry {c : Call} {entry : ℕ} (h : c.phase.entry=some entry) (other : ℕ) :
    (if holds other c then 1 else 0)=(if other=entry then 1 else 0) := by
  unfold holds
  rw [h]
  by_cases same : other=entry
  · rw [same,if_pos rfl,if_pos (decide_eq_true rfl)]
  · rw [if_neg same,if_neg]
    intro holds
    exact same (Option.some.inj (of_decide_eq_true holds)).symm

/-- A call without an entry counts for none. -/
theorem holds_of_none {c : Call} (h : c.phase.entry=none) (other : ℕ) : (if holds other c then 1 else 0)=0 := by
  unfold holds
  rw [h,if_neg]
  intro holds
  exact absurd (of_decide_eq_true holds) nofun

/-- The effect of a step keeps what holds of the registry and its calls. -/
theorem effect_inv {settings : Settings} {w : World} {s t : Registry} {calls : List Call} {i : ℕ} {c next : Call}
    (h : Inv settings ⟨s,calls⟩) (found : calls[i]?=some c) (effect : Effect settings w c s t next)
    (honest : Honest next) : Inv settings ⟨t,calls.set i next⟩ := by
  have member : c∈calls := List.mem_of_getElem? found
  cases effect with
  | keeps job entry =>
    refine ⟨h.toBooks.after found honest rfl (fun _ _ listed => listed) le_rfl (fun other => ?_) (fun other held => ?_),
      h.kept⟩
    · unfold holds
      rw [entry]
    · rw [entry] at held
      rw [job]
      exact ⟨h.made c member other held,fun topic listed => h.topics topic other listed c member held⟩
  | drops job entry phase changed =>
    have nothing : ∀ topic other, (∅ : Finmap fun _ : String => ℕ).lookup topic=some other → False := by
      intro topic other listed
      rw [Finmap.lookup_empty] at listed
      exact absurd listed nofun
    have before : c.phase.entry=none := by rw [phase]; rfl
    refine ⟨h.toBooks.after found honest rfl (fun topic other listed => (nothing topic other listed).elim)
      (Nat.zero_le _) (fun other => ?_) (fun other held => ?_),fun topic other listed => (nothing topic other listed).elim⟩
    · rw [holds_of_none before,holds_of_none entry]
    · rw [entry] at held
      exact absurd held nofun
  | @takes _ r entry job before selected after =>
    obtain ⟨books,listed,others⟩ := select_books h.toBooks selected
    refine ⟨books.after found honest rfl (fun _ _ listed => listed) le_rfl (fun other => ?_) (fun other held => ?_),?_⟩
    · rw [holds_of_none before,holds_of_entry after,modify_store]
      split
      · next same => rw [same]
      · rfl
    · rw [after] at held
      rw [← Option.some.inj held,job]
      exact ⟨books.known _ entry listed,fun topic listed' => books.single _ topic entry listed listed'⟩
    · intro topic other listed'
      dsimp only
      rw [modify_store]
      split
      · exact Or.inr (Or.inr (Nat.succ_pos _))
      · next different =>
        have ⟨old,same⟩ := others topic other listed' different
        rw [same]
        exact h.kept topic other old
  | @declares _ r entry job before selected after =>
    obtain ⟨books,listed,others⟩ := select_books h.toBooks selected
    refine ⟨books.after found honest rfl (fun _ _ listed => listed) le_rfl (fun other => ?_) (fun other held => ?_),?_⟩
    · rw [holds_of_none before,holds_of_none after,modify_store]
      split
      · next same => rw [same]
      · rfl
    · rw [after] at held
      exact absurd held nofun
    · intro topic other listed'
      dsimp only
      rw [modify_store]
      split
      · exact Or.inr (Or.inl rfl)
      · next different =>
        have ⟨old,same⟩ := others topic other listed' different
        rw [same]
        exact h.kept topic other old
  | @gives _ entry committed job before after =>
    have counted : 0 < (s.store entry).activeCalls := by
      have number := h.active entry
      dsimp only at number
      rw [number,List.countP_pos_iff]
      exact ⟨c,member,decide_eq_true before⟩
    have fewer : ∀ topic other,
        (release c.job.configuration.topic entry committed s).entries.lookup topic=some other →
          s.entries.lookup topic=some other := by
      intro topic other listed
      rcases release_entries c.job.configuration.topic entry committed s with ⟨same,_⟩ | ⟨erased,_⟩
      · rwa [same] at listed
      · rw [erased] at listed
        exact (lookup_erase_some listed).2
    refine ⟨h.toBooks.after found honest ?_ fewer ?_ (fun other => ?_) (fun other held => ?_),?_⟩
    · unfold release
      dsimp only
      split
      · rfl
      · rfl
    · rcases release_entries c.job.configuration.topic entry committed s with ⟨same,_⟩ | ⟨erased,_⟩
      · rw [same]
      · rw [erased]
        exact card_erase_le _ _
    · rw [holds_of_entry before,holds_of_none after,release_store]
      split
      · next same =>
        rw [same]
        dsimp only
        omega
      · rfl
    · rw [after] at held
      exact absurd held nofun
    · intro topic other listed
      have old := fewer topic other listed
      dsimp only
      by_cases same : other=entry
      · rw [same] at old ⊢
        have own : c.job.configuration.topic=topic := h.topics topic entry old c member before
        rcases release_entries c.job.configuration.topic entry committed s with ⟨_,kept⟩ | ⟨erased,_⟩
        · exact kept (own ▸ old)
        · dsimp only at listed
          rw [erased] at listed
          exact absurd own.symm (lookup_erase_some listed).1
      · rw [release_store,if_neg same]
        exact h.kept topic other old

/-- A new call keeps what holds. -/
theorem begin_inv {settings : Settings} {s : State} (h : Inv settings s) {c : Call} (free : c.phase.entry=none)
    (honest : Honest c) : Inv settings {s with calls := s.calls ++ [c]} := by
  have member : ∀ other∈s.calls ++ [c], other∈s.calls ∨ other=c := by
    intro other present
    rcases List.mem_append.mp present with old | new
    · exact Or.inl old
    · exact Or.inr (List.mem_singleton.mp new)
  refine ⟨⟨?_,h.bounded,?_,?_,h.known,h.single,?_⟩,h.kept⟩
  · intro other present
    rcases member other present with old | new
    · exact h.honest other old
    · rw [new]
      exact honest
  · intro entry
    have silent := holds_of_none free entry
    have single : [c].countP (holds entry)=0 := by
      rw [List.countP_singleton]
      exact silent
    show _=(s.calls ++ [c]).countP (holds entry)
    rw [List.countP_append,single]
    exact h.active entry
  · intro other present entry held
    rcases member other present with old | new
    · exact h.made other old entry held
    · rw [new,free] at held
      exact absurd held nofun
  · intro topic entry listed other present held
    rcases member other present with old | new
    · exact h.topics topic entry listed other old held
    · rw [new,free] at held
      exact absurd held nofun

/-- Every event keeps what holds. -/
theorem step_inv (settings : Settings) (s : State) (event : Event) (h : Inv settings s) :
    Inv settings (s.step settings event) := by
  cases event with
  | publish _ | declare _ => exact begin_inv h rfl rfl
  | clear =>
    have nothing : ∀ topic other, (∅ : Finmap fun _ : String => ℕ).lookup topic=some other → False := by
      intro topic other listed
      rw [Finmap.lookup_empty] at listed
      exact absurd listed nofun
    exact ⟨⟨h.honest,Nat.zero_le _,h.active,h.made,fun _ _ listed => (nothing _ _ listed).elim,
      fun _ _ _ listed => (nothing _ _ listed).elim,fun _ _ listed => (nothing _ _ listed).elim⟩,
      fun _ _ listed => (nothing _ _ listed).elim⟩
  | observe pid =>
    exact ⟨⟨h.honest,h.bounded,h.active,h.made,h.known,h.single,h.topics⟩,h.kept⟩
  | advance call w =>
    unfold State.step
    dsimp only
    split
    · exact h
    · next c found =>
      exact effect_inv h found (advance_effect settings w c s.registry)
        (advance_honest settings w s.registry (h.honest c (List.mem_of_getElem? found)))

end Invariant

section Runs

/-- What holds of a registry and its calls after any events. -/
structure RegistrySound (settings : Settings) (s : State) : Prop where
  /-- A call that fails with a known outcome has handed nothing over. -/
  failed : ∀ c∈s.calls, ∀ failure, c.phase=.finished (.error failure) → failure.uncertain=false → c.handed=0
  /-- A call to publish that succeeds has handed over as many messages as it was asked to. -/
  succeeded : ∀ c∈s.calls, ∀ request result, c.job=.publish request → c.phase=.finished (.ok result) →
    c.handed=request.publishCount ∧ ∃ answer, result=some answer ∧ answer.publishedCount=request.publishCount
  /-- The table stays within its capacity. -/
  bounded : s.registry.entries.keys.card ≤ settings.maximumPublishers
  /-- Every entry, in the table or not, counts the calls between selecting it and giving it back. -/
  active : ∀ entry, (s.registry.store entry).activeCalls=s.calls.countP (holds entry)
  /-- Every entry in the table was committed or declared, or has an active call. -/
  kept : ∀ topic entry, s.registry.entries.lookup topic=some entry → Kept (s.registry.store entry)
  /-- No step of a call drops an entry that another call is using, except the refusal of a changed master. -/
  undisturbed : ∀ i c w j other topic entry, s.calls[i]?=some c → s.calls[j]?=some other → i≠j →
    s.registry.entries.lookup topic=some entry → other.phase.entry=some entry →
    (∀ current, c.phase=.comparing current → settings.masterGeneration=current) →
    (s.step settings (.advance i w)).registry.entries.lookup topic=some entry
  /-- A call whose topic is there with another configuration is refused and changes nothing. -/
  conflict : ∀ i c w bytes entry, s.calls[i]?=some c → c.phase=.selecting bytes →
    s.registry.entries.lookup c.job.configuration.topic=some entry →
    (s.registry.store entry).conflicts c.job.configuration=true →
    s.step settings (.advance i w)={s with
      calls := s.calls.set i (c.fail (permanentError "publisher_configuration_conflict"
        ("topic '"++c.job.configuration.topic++"' is already cached with a different type, latch, or queueSize")))}

/-- A step of a call keeps the entries that other calls use. -/
theorem effect_undisturbed {settings : Settings} {w : World} {s t : Registry} {calls : List Call} {i j : ℕ}
    {c next other : Call} {topic : String} {entry : ℕ} (h : Inv settings ⟨s,calls⟩) (found : calls[i]?=some c)
    (effect : Effect settings w c s t next) (honest : Honest next) (found' : calls[j]?=some other) (apart : i≠j)
    (listed : s.entries.lookup topic=some entry) (held : other.phase.entry=some entry)
    (same : ∀ current, c.phase=.comparing current → settings.masterGeneration=current) :
    t.entries.lookup topic=some entry := by
  have after := effect_inv h found effect honest
  have selected : ∀ {r : Registry} {e : ℕ}, select settings w c.job.configuration s=.ok (r,e) →
      r.entries.lookup topic=some entry := by
    intro r e selected
    rcases select_cases selected with ⟨kept,_⟩ | ⟨absent,_,_,_,_,made⟩
    · rw [kept]
      exact listed
    · have different : topic≠c.job.configuration.topic := by
        intro same
        rw [same,absent] at listed
        exact absurd listed nofun
      rw [made]
      exact (Finmap.lookup_insert_of_ne _ different).trans listed
  cases effect with
  | keeps job entry => exact listed
  | drops job entry phase changed => exact absurd (same _ phase) changed
  | takes _ _ found _ | declares _ _ found _ =>
    have there := selected found
    exact there
  | @gives _ gone committed job before free =>
    rcases release_entries c.job.configuration.topic gone committed s with ⟨kept,_⟩ | ⟨erased,own,idle⟩
    · rw [kept]
      exact listed
    · rw [erased]
      have different : topic≠c.job.configuration.topic := by
        intro equal
        rw [equal,own] at listed
        rw [← Option.some.inj listed] at held
        -- the other call still counts for the entry after the step
        have stays : other∈calls.set i next := by
          have place : (calls.set i next)[j]?=some other := by rw [List.getElem?_set_ne apart,found']
          exact List.mem_of_getElem? place
        have number := after.active gone
        dsimp only at number
        rw [idle] at number
        have positive : 0 < (calls.set i next).countP (holds gone) :=
          List.countP_pos_iff.mpr ⟨other,stays,decide_eq_true held⟩
        omega
      rw [Finmap.lookup_erase_ne different]
      exact listed

/-- A registry without entries and calls satisfies the invariant. -/
theorem start_inv (settings : Settings) : Inv settings (State.start settings) := by
  have nothing : ∀ topic other, (∅ : Finmap fun _ : String => ℕ).lookup topic=some other → False := by
    intro topic other listed
    rw [Finmap.lookup_empty] at listed
    exact absurd listed nofun
  exact ⟨⟨nofun,Nat.zero_le _,fun _ => rfl,nofun,fun _ _ listed => (nothing _ _ listed).elim,
    fun _ _ _ listed => (nothing _ _ listed).elim,fun _ _ _ => nofun⟩,fun _ _ listed => (nothing _ _ listed).elim⟩

/-- Whatever happens, outcomes are honest and the table is consistent. -/
theorem registry_sound (settings : Settings) (events : List Event) :
    RegistrySound settings (run (fun (s : State) event => s.step settings event) (State.start settings) events) := by
  have h : Inv settings (run (fun (s : State) event => s.step settings event) (State.start settings) events) :=
    run_invariant (fun (s : State) event (hs : Inv settings s) _ => step_inv settings s event hs) (start_inv settings)
      (along_true _ _ _)
  generalize run (fun (s : State) event => s.step settings event) (State.start settings) events=s at h
  constructor
  · intro c member failure ended known
    have honest := h.honest c member
    unfold Honest at honest
    rw [ended] at honest
    exact honest known
  · intro c member request result job ended
    have honest := h.honest c member
    unfold Honest at honest
    rw [ended] at honest
    cases result with
    | none =>
      obtain ⟨_,configuration,declared⟩ := honest
      rw [job] at declared
      exact absurd declared nofun
    | some answer =>
      rw [job] at honest
      exact ⟨honest.1,answer,rfl,honest.2.trans honest.1⟩
  · exact h.bounded
  · exact h.active
  · exact h.kept
  · intro i c w j other topic entry found found' apart listed held same
    have step : s.step settings (.advance i w)=
        ⟨(advance settings w c s.registry).1,s.calls.set i (advance settings w c s.registry).2⟩ := by
      unfold State.step
      dsimp only
      rw [found]
    rw [step]
    exact effect_undisturbed h found (advance_effect settings w c s.registry)
      (advance_honest settings w s.registry (h.honest c (List.mem_of_getElem? found))) found' apart listed held same
  · intro i c w bytes entry found phase listed conflicts
    unfold State.step
    dsimp only
    rw [found]
    unfold advance
    dsimp only
    rw [phase]
    dsimp only
    unfold select
    rw [listed]
    dsimp only
    rw [if_pos conflicts]

/-- A request for one message. -/
def sampleRequest (topic : String) : PublishRequest := ⟨⟨topic,"T",false,10⟩,1,0⟩

/-- A world in which everything works. -/
def calm : World := ⟨false,false,none,none,.ok (some 1),.ok true,1,false,true⟩

/-- One call holds an entry, and another has read the number of a changed master. -/
def sharing : State :=
  run (fun (s : State) event => s.step ⟨2,5⟩ event) (State.start ⟨2,5⟩)
    [.publish (sampleRequest "a"),.advance 0 calm,.advance 0 calm,.advance 0 calm,.advance 0 calm,.advance 0 calm,
      .publish (sampleRequest "b"),.advance 1 calm,.observe 7,.advance 1 calm]

/-- The failure of a call that meets a changed master drops an entry that another call is using. -/
theorem changed_master_drops :
    sharing.registry.entries.lookup "a"=some 0 ∧ (sharing.calls[0]?.bind fun c => c.phase.entry)=some 0 ∧
      (sharing.step ⟨2,5⟩ (.advance 1 calm)).registry.entries.lookup "a"=none ∧
      ((sharing.step ⟨2,5⟩ (.advance 1 calm)).calls[1]?.map fun c => c.phase)=
        some (.finished (.error (transientError "ros_master_generation_changed"
          "ROS1 master process generation changed; this Adapter process is bound to the previous master and must be recycled"))) := by
  refine ⟨?_,?_,?_,rfl⟩
  · decide +kernel
  · decide +kernel
  · decide +kernel

end Runs

end Ros1Adapter.PublisherOutcomes
