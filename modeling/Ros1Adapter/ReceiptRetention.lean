import Ros1Adapter.RecencyLists
import Ros1Adapter.SceneStoreReceipts

/-!
# Retention of receipts

The retained receipts are the ones of the most recently recorded or replayed
identities. Refused requests and reads leave the order alone.
-/

namespace Ros1Adapter.ReceiptRetention

open SceneJson SceneFiles SceneStore SceneStoreSteps SceneStoreReceipts SceneFingerprint RecencyLists
  ActionRules

section Uses

variable {σ : Type} (X : Externals) (hooks : Hooks σ)

/-- Identities of the retained receipts, most recent first. -/
def retained (s : Store) : List String := (s.requests.map (fun node => node.2.id)).reverse

/-- Identity that the next eviction removes. -/
def nextEvicted (s : Store) : Option String := (retained s).getLast?

/-- A call of a client: a step of the store or a read of a result. -/
inductive Call where
  /-- A command or another writer. -/
  | step (step : Step)
  /-- `requestResult` of an identity. -/
  | result (id : String)

/-- World after a call. -/
def stepCall (w : World σ) : Call → World σ
  | .step step => stepWorld X hooks w step
  | .result _ => w

/-- Identity that a call records or replays. -/
def used (w : World σ) : Call → Option String
  | .step (.command _ request) =>
    match admission X w.store request with
    | .replay node => some node.2.id
    | .fresh id _ => some id
    | _ => none
  | _ => none

/-- Recorded and replayed identities of a run, newest first. -/
def uses (w : World σ) (past : List String) : List Call → List String
  | [] => past
  | call::rest => uses (stepCall X hooks w call) ((used X w call).toList ++ past) rest

/-- Steps among calls. -/
def stepsOf (calls : List Call) : List Step :=
  calls.filterMap (fun call => match call with
    | .step step => some step
    | .result _ => none)

/-- Receipts that follow a history of uses. -/
structure Retains (s : Store) (past : List String) : Prop where
  /-- Every retained receipt is indexed under its own identity, and nothing else is. -/
  indexed : Indexed s.requests s.requestIds
  /-- Identities are distinct. -/
  distinct : (retained s).Nodup
  /-- The limit is kept. -/
  limited : (retained s).length≤receiptLimit
  /-- The retained identities are the most recently used ones. -/
  order : retained s=(recent past).take receiptLimit
  /-- Only used identities are retained. -/
  known : ∀ id, (s.requestIds id).isSome=true → id∈past
  /-- A used identity is retained while fewer other ones than the limit are used after it. -/
  window : ∀ id∈past, (s.requestIds id).isSome=true ↔ (recent (usesSince id past)).length<receiptLimit

end Uses

section Steps

variable {σ : Type} {X : Externals} {hooks : Hooks σ}

/-- Receipts in the order of a history, with their index. -/
structure Follows (s : Store) (past : List String) : Prop where
  /-- Receipts and index agree. -/
  well : WellIndexed s
  /-- The retained identities are the most recently used ones. -/
  order : retained s=(recent past).take receiptLimit

/-- The order decides which identities are retained. -/
theorem Follows.retains {s : Store} {past : List String} (h : Follows s past) : Retains s past := by
  have hnamed : ∀ id, (s.requestIds id).isSome=true ↔ id∈retained s := by
    intro id
    rw [Option.isSome_iff_exists,retained,List.mem_reverse,List.mem_map]
    constructor
    · rintro ⟨address,hid⟩
      obtain ⟨receipt,hm,heq⟩ := (h.well.indexed.named id address).mp hid
      exact ⟨_,hm,heq⟩
    · rintro ⟨node,hm,heq⟩
      exact ⟨node.1,(h.well.indexed.named id node.1).mpr ⟨node.2,hm,heq⟩⟩
  constructor
  · exact h.well.indexed
  · rw [h.order]
    exact (recent_nodup past).sublist (List.take_sublist ..)
  · rw [h.order]
    exact List.length_take_le ..
  · exact h.order
  · intro id hid
    rw [hnamed,h.order] at hid
    exact mem_recent.mp (List.mem_of_mem_take hid)
  · intro id hid
    rw [hnamed,h.order]
    exact mem_held_iff hid receiptLimit

/-- Eviction drops what exceeds the limit from the old end. -/
theorem evict_requests (requests : List (ℕ × Receipt)) (ids : String → Option ℕ) :
    (evict requests ids).1=requests.drop (requests.length-receiptLimit) := by
  induction requests generalizing ids with
  | nil => rfl
  | cons node rest ih =>
    unfold evict
    split
    · rename_i hlong
      have hcount : (node::rest).length-receiptLimit=(rest.length-receiptLimit)+1 := by
        rw [List.length_cons] at hlong ⊢
        omega
      rw [ih,hcount,List.drop_succ_cons]
    · have hzero : (node::rest).length-receiptLimit=0 := by omega
      rw [hzero,List.drop_zero]

/-- Dropping the excess from one end keeps the limit from the other. -/
theorem reverse_drop_excess {α : Type} (items : List α) (limit : ℕ) :
    (items.drop (items.length-limit)).reverse=items.reverse.take limit := by
  rw [List.reverse_drop]
  rcases Nat.le_total items.length limit with hfew | hmany
  · have hcount : items.length-(items.length-limit)=items.length := by omega
    have hlength : items.reverse.length=items.length := List.length_reverse
    rw [hcount,List.take_of_length_le hlength.le,List.take_of_length_le (hlength.trans_le hfew)]
  · have hcount : items.length-(items.length-limit)=limit := by omega
    rw [hcount]

/-- A recorded receipt stands at the recent end. -/
theorem retained_retain (s : Store) (id fingerprint : String) (result : Json) :
    retained (retain id fingerprint result s)=(id::retained s).take receiptLimit := by
  unfold retained retain
  dsimp only
  rw [evict_requests,←List.map_reverse,reverse_drop_excess,List.reverse_append,List.reverse_singleton,List.map_take,
    List.map_append,List.map_reverse]
  rfl

/-- A replayed receipt moves to the recent end. -/
theorem retained_splice {s : Store} (h : Indexed s.requests s.requestIds) {node : ℕ × Receipt}
    (hm : node∈s.requests) :
    retained (splice s node)=node.2.id::(retained s).filter (· ≠ node.2.id) := by
  have hkeep : s.requests.filter (fun other => other.1≠node.1)=
      s.requests.filter (fun other => other.2.id≠node.2.id) := by
    refine List.filter_congr ?_
    intro other ho
    have hiff : other.1=node.1 ↔ other.2.id=node.2.id := by
      constructor
      · intro haddress
        have hfirst := lookup_of_mem h.distinct ho
        have hsecond := lookup_of_mem h.distinct hm
        rw [haddress,hsecond] at hfirst
        rw [Option.some.inj hfirst]
      · intro hid
        rw [h.unique ho hm hid]
    simp only [ne_eq,hiff]
  unfold retained splice
  dsimp only
  rw [hkeep,List.map_append,List.reverse_append,List.filter_reverse,List.filter_map]
  rfl

/-- A use moves an identity to the recent end and respects the limit. -/
theorem Follows.use {s t : Store} {past : List String} (h : Follows s past) {id : String} (hw : WellIndexed t)
    (ht : retained t=touch receiptLimit id (retained s)) : Follows t (id::past) := by
  refine ⟨hw,?_⟩
  rw [ht,h.order]
  exact touch_recent receiptLimit id past

/-- An identity that is not retained stays when it is filtered out. -/
theorem filter_absent {s : Store} {id : String} (h : id∉retained s) : (retained s).filter (· ≠ id)=retained s := by
  rw [List.filter_eq_self]
  intro other ho
  have hne : other≠id := by
    rintro rfl
    exact h ho
  simpa using hne

/-- Replaying keeps the number of receipts. -/
theorem retained_splice_length {s : Store} (h : Indexed s.requests s.requestIds) {node : ℕ × Receipt}
    (hm : node∈s.requests) : (retained (splice s node)).length=(retained s).length := by
  have hperm := (splice_perm h hm).length_eq
  unfold retained
  rw [List.length_reverse,List.length_reverse,List.length_map,List.length_map,hperm]

/-- A call keeps the receipts in the order of the history. -/
theorem step_follows {w : World σ} {past : List String} (h : Follows w.store past) (call : Call) :
    Follows (stepCall X hooks w call).store ((used X w call).toList ++ past) := by
  cases call with
  | result id => exact h
  | step step =>
    cases step with
    | external path content => exact h
    | command io request =>
      have hwell : WellIndexed (stepWorld X hooks w (.command io request)).store :=
        step_wellIndexed w (.command io request) h.well
      unfold stepCall used
      dsimp only [stepWorld] at hwell ⊢
      unfold command at hwell ⊢
      cases hadmission : admission X w.store request with
      | refused _ | read =>
        rw [resultLocked_store]
        exact h
      | replay node =>
        rw [hadmission] at hwell
        obtain ⟨id,_,hf⟩ := admission_replay hadmission
        have hm := ((findReceipt_iff h.well.indexed).mp hf).1
        have hlength : (retained (splice w.store node)).length≤receiptLimit := by
          rw [retained_splice_length h.well.indexed hm]
          exact h.retains.limited
        refine h.use hwell ?_
        unfold touch
        rw [←retained_splice h.well.indexed hm,List.take_of_length_le hlength]
      | fresh id fingerprint =>
        rw [hadmission] at hwell
        obtain ⟨_,hf,_⟩ := admission_fresh hadmission
        have hreceipts := finished_receipts X hooks io request w
        have habsent : id∉retained w.store := by
          intro hin
          unfold retained at hin
          rw [List.mem_reverse,List.mem_map] at hin
          obtain ⟨node,hm,hid⟩ := hin
          have hfound := (findReceipt_iff h.well.indexed).mpr (⟨hm,hid⟩ : node∈w.store.requests ∧ node.2.id=id)
          rw [hf] at hfound
          cases hfound
        refine h.use hwell ?_
        unfold touch
        rw [filter_absent habsent]
        have hretain := retained_retain (finished X hooks io request w).2.store id fingerprint
          (finished X hooks io request w).1
        have hsame : retained (finished X hooks io request w).2.store=retained w.store := by
          unfold retained
          rw [hreceipts.requests]
        rw [hsame] at hretain
        exact hretain

end Steps

section Runs

variable {σ : Type} {X : Externals} {hooks : Hooks σ}

/-- Calls of a run keep the receipts in the order of the history. -/
theorem run_follows {w : World σ} {past : List String} (h : Follows w.store past) (calls : List Call) :
    Follows (run (stepCall X hooks) w calls).store (uses X hooks w past calls) := by
  induction calls generalizing w past with
  | nil => exact h
  | cons call rest ih => exact ih (step_follows h call)

/-- Reads of results leave no trace in a run. -/
theorem run_steps (w : World σ) (calls : List Call) :
    run (stepCall X hooks) w calls=run (stepWorld X hooks) w (stepsOf calls) := by
  induction calls generalizing w with
  | nil => rfl
  | cons call rest ih =>
    cases call with
    | step step => exact ih (stepWorld X hooks w step)
    | result id => exact ih w

/-- In every run of a constructed store the receipts are those of the most recently recorded or
replayed identities, and reading results changes nothing. -/
theorem run_receipts_recent {arguments : StoreArguments} {files : Files} {client : σ} {w : World σ}
    (h : construct X hooks arguments files client=.ok w) (calls : List Call) :
    Retains (run (stepCall X hooks) w calls).store (uses X hooks w [] calls) ∧
      run (stepCall X hooks) w calls=run (stepWorld X hooks) w (stepsOf calls) ∧
      ∀ id, nextEvicted (run (stepCall X hooks) w (calls ++ [.result id])).store=
        nextEvicted (run (stepCall X hooks) w calls).store := by
  have hopened := construct_opened h
  have hempty : retained w.store=[] := by
    obtain ⟨source,input,given,digests,startedAt,_,_,_,hstore⟩ := hopened.input
    rw [hstore]
    rfl
  have hfollows : Follows w.store [] := ⟨opened_wellIndexed hopened,hempty⟩
  refine ⟨(run_follows hfollows calls).retains,run_steps w calls,?_⟩
  intro id
  have hsteps : stepsOf (calls ++ [.result id])=stepsOf calls := by
    unfold stepsOf
    rw [List.filterMap_append]
    exact List.append_nil _
  rw [run_steps,run_steps,hsteps]

/-- A replacement, a read of its result, an undo and the replacement again. -/
def replayedCalls : List Call :=
  [.step (.command {} (sampleRequest "replace" "a" 1 [("document",emptyRoom)])),.result "a",
    .step (.command {} (sampleRequest "undo" "b" 2 [])),
    .step (.command {} (sampleRequest "replace" "a" 1 [("document",emptyRoom)]))]

/-- The replayed replacement is the most recent receipt of the sample store. -/
theorem run_receipts_recent_replay :
    uses hallExternals acceptingHooks hallWorld [] replayedCalls=["a","b","a"] ∧
      Retains (run (stepCall hallExternals acceptingHooks) hallWorld replayedCalls).store ["a","b","a"] := by
  have hopen : construct hallExternals acceptingHooks hallArguments (filesOf [] [["scenes"]]) ()=.ok hallWorld := rfl
  have huses : uses hallExternals acceptingHooks hallWorld [] replayedCalls=["a","b","a"] := by decide +kernel
  have hretains := (run_receipts_recent hopen replayedCalls).1
  rw [huses] at hretains
  exact ⟨huses,hretains⟩

end Runs

end Ros1Adapter.ReceiptRetention
