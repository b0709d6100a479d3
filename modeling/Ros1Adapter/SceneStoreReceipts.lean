import Ros1Adapter.SceneFingerprint
import Ros1Adapter.SceneStoreApplied
import Ros1Adapter.SceneStoreAtomic

/-!
# Receipts of commands

A receipt node keeps its address and its content until it is evicted, and the
index names exactly the retained nodes. A request that was executed is answered
from its node while the node lives. After eviction the revision that the request
expects has passed, so it is refused.
-/

namespace Ros1Adapter.SceneStoreReceipts

open SceneJson SceneJsonText SceneDocument SceneFiles SceneStore SceneStoreSaving SceneStoreSteps
  SceneStoreApplied SceneStoreAtomic SceneFingerprint ActionRules

section Index

/-- The index names every retained receipt at its own address, and nothing else. -/
structure Indexed (requests : List (ℕ × Receipt)) (ids : String → Option ℕ) : Prop where
  /-- Every node has its own address. -/
  distinct : (requests.map Prod.fst).Nodup
  /-- The index is the map from identities to addresses. -/
  named : ∀ id address, ids id=some address ↔
    ∃ receipt, (address,receipt)∈requests ∧ receipt.id=id

/-- A store between commands: no hook runs, and its receipts are indexed under used addresses. -/
structure WellIndexed (s : Store) : Prop where
  /-- No hook is running. -/
  idle : s.inHook=false
  /-- Receipts and index agree. -/
  indexed : Indexed s.requests s.requestIds
  /-- Addresses of retained receipts have been used. -/
  used : ∀ node∈s.requests, node.1<s.nextNode

/-- Receipts with one identity are one node. -/
theorem Indexed.unique {requests : List (ℕ × Receipt)} {ids : String → Option ℕ}
    (h : Indexed requests ids) {a b : ℕ × Receipt} (ha : a∈requests) (hb : b∈requests)
    (hid : a.2.id=b.2.id) : a=b := by
  have hna := (h.named a.2.id a.1).mpr ⟨a.2,ha,rfl⟩
  have hnb := (h.named b.2.id b.1).mpr ⟨b.2,hb,rfl⟩
  rw [hid,hnb] at hna
  have haddress : b.1=a.1 := Option.some.inj hna
  have hla := lookup_of_mem h.distinct ha
  have hlb := lookup_of_mem h.distinct hb
  rw [haddress,hla] at hlb
  exact Prod.ext haddress.symm (Option.some.inj hlb)

/-- Permuted receipts have the same index. -/
theorem Indexed.perm {requests permuted : List (ℕ × Receipt)} {ids : String → Option ℕ}
    (h : Indexed requests ids) (hp : permuted.Perm requests) : Indexed permuted ids := by
  refine ⟨(hp.map Prod.fst).nodup_iff.mpr h.distinct,?_⟩
  intro id address
  rw [h.named]
  simp only [hp.mem_iff]

/-- Removing the least recent receipt with its identity keeps the agreement. -/
theorem Indexed.tail {node : ℕ × Receipt} {rest : List (ℕ × Receipt)} {ids : String → Option ℕ}
    (h : Indexed (node::rest) ids) :
    Indexed rest (fun id => if id=node.2.id then none else ids id) := by
  have hd := h.distinct
  rw [List.map_cons,List.nodup_cons] at hd
  refine ⟨hd.2,?_⟩
  intro id address
  have hother : ∀ receipt, (address,receipt)∈rest → receipt.id≠node.2.id := by
    intro receipt hm hid
    have he := h.unique (List.mem_cons_of_mem _ hm) (List.mem_cons_self ..) hid
    exact hd.1 (List.mem_map.mpr ⟨(address,receipt),hm,by rw [he]⟩)
  by_cases hi : id=node.2.id
  · rw [if_pos hi]
    simp only [reduceCtorEq,false_iff]
    rintro ⟨receipt,hm,rfl⟩
    exact hother receipt hm hi
  · rw [if_neg hi,h.named]
    constructor
    · rintro ⟨receipt,hm,rfl⟩
      rcases List.mem_cons.mp hm with he | hm
      · exact absurd (by rw [←he]) hi
      · exact ⟨receipt,hm,rfl⟩
    · rintro ⟨receipt,hm,rfl⟩
      exact ⟨receipt,List.mem_cons_of_mem _ hm,rfl⟩

/-- A new receipt under an unused address and an unused identity. -/
theorem Indexed.append {requests : List (ℕ × Receipt)} {ids : String → Option ℕ}
    (h : Indexed requests ids) {address : ℕ} {receipt : Receipt}
    (ha : ∀ node∈requests, node.1≠address) (hi : ids receipt.id=none) :
    Indexed (requests ++ [(address,receipt)])
      (fun other => if other=receipt.id then some address else ids other) := by
  constructor
  · rw [List.map_append,List.map_singleton,List.nodup_append]
    refine ⟨h.distinct,List.nodup_singleton _,?_⟩
    intro a hm b hb
    obtain ⟨node,hn,rfl⟩ := List.mem_map.mp hm
    rw [List.mem_singleton.mp hb]
    exact ha node hn
  · intro id found
    have hfresh : ∀ other, (found,other)∈requests → other.id≠receipt.id := by
      intro other hm hid
      have hn := (h.named other.id found).mpr ⟨other,hm,rfl⟩
      rw [hid,hi] at hn
      cases hn
    simp only [List.mem_append,List.mem_singleton]
    by_cases he : id=receipt.id
    · rw [if_pos he]
      constructor
      · intro hs
        cases hs
        exact ⟨receipt,Or.inr rfl,he.symm⟩
      · rintro ⟨other,hm | hm,hid⟩
        · exact absurd (hid.trans he) (hfresh other hm)
        · cases hm
          rfl
    · rw [if_neg he,h.named]
      constructor
      · rintro ⟨other,hm,hid⟩
        exact ⟨other,Or.inl hm,hid⟩
      · rintro ⟨other,hm | hm,hid⟩
        · exact ⟨other,hm,hid⟩
        · cases hm
          exact absurd hid.symm he

/-- Eviction keeps the most recent receipts. -/
theorem evict_suffix (requests : List (ℕ × Receipt)) (ids : String → Option ℕ) :
    (evict requests ids).1<:+requests := by
  induction requests generalizing ids with
  | nil => exact List.suffix_rfl
  | cons node rest ih =>
    unfold evict
    split
    · exact (ih _).trans (List.suffix_cons node rest)
    · exact List.suffix_rfl

/-- Eviction keeps the agreement. -/
theorem evict_indexed {requests : List (ℕ × Receipt)} {ids : String → Option ℕ}
    (h : Indexed requests ids) : Indexed (evict requests ids).1 (evict requests ids).2 := by
  induction requests generalizing ids with
  | nil => exact h
  | cons node rest ih =>
    unfold evict
    split
    · exact ih h.tail
    · exact h

/-- A retained node is an earlier node or the new one. -/
theorem mem_retain {s : Store} {id fingerprint : String} {result : Json} {node : ℕ × Receipt}
    (h : node∈(retain id fingerprint result s).requests) : node∈s.requests ∨
      node=(s.nextNode,⟨id,fingerprint,receiptMetadata result,s.document⟩) := by
  simpa using (evict_suffix _ _).subset h

/-- A found receipt is retained. -/
theorem findReceipt_mem {s : Store} {id : String} {node : ℕ × Receipt}
    (h : findReceipt s id=some node) : node∈s.requests := by
  unfold findReceipt at h
  split at h
  · cases h
  · rename_i address _
    cases hl : s.requests.lookup address with
    | none =>
      rw [hl] at h
      cases h
    | some receipt =>
      rw [hl] at h
      cases h
      exact mem_of_lookup hl

/-- A lookup of a receipt finds exactly the retained node with that identity. -/
theorem findReceipt_iff {s : Store} (h : Indexed s.requests s.requestIds) {id : String}
    {node : ℕ × Receipt} : findReceipt s id=some node ↔ node∈s.requests ∧ node.2.id=id := by
  unfold findReceipt
  constructor
  · intro hf
    split at hf
    · cases hf
    · rename_i address ha
      cases hl : s.requests.lookup address with
      | none =>
        rw [hl] at hf
        cases hf
      | some receipt =>
        rw [hl] at hf
        cases hf
        obtain ⟨found,hm,hid⟩ := (h.named id address).mp ha
        have hlm := lookup_of_mem h.distinct hm
        rw [hl] at hlm
        cases hlm
        exact ⟨hm,hid⟩
  · rintro ⟨hm,hid⟩
    rw [(h.named id node.1).mpr ⟨node.2,hm,hid⟩]
    dsimp only
    rw [lookup_of_mem h.distinct hm]
    rfl

/-- An identity without a receipt has no index entry. -/
theorem requestIds_of_absent {s : Store} (h : Indexed s.requests s.requestIds) {id : String}
    (hf : findReceipt s id=none) : s.requestIds id=none := by
  cases hi : s.requestIds id with
  | none => rfl
  | some address =>
    obtain ⟨receipt,hm,hid⟩ := (h.named id address).mp hi
    have hs := (findReceipt_iff h).mpr (⟨hm,hid⟩ : (address,receipt)∈s.requests ∧ receipt.id=id)
    rw [hf] at hs
    cases hs

/-- Moving a retained node to the recent end permutes the receipts. -/
theorem splice_perm {s : Store} (h : Indexed s.requests s.requestIds) {node : ℕ × Receipt}
    (hm : node∈s.requests) : (splice s node).requests.Perm s.requests := by
  classical
  have hnodup := List.Nodup.of_map Prod.fst h.distinct
  have hkeep : s.requests.filter (fun other => other.1≠node.1)=s.requests.erase node := by
    rw [List.Nodup.erase_eq_filter hnodup]
    refine List.filter_congr ?_
    intro other ho
    have hiff : other.1=node.1 ↔ other=node := by
      constructor
      · intro he
        have hlo := lookup_of_mem h.distinct ho
        have hln := lookup_of_mem h.distinct hm
        rw [he,hln] at hlo
        exact Prod.ext he (Option.some.inj hlo).symm
      · rintro rfl
        rfl
    by_cases he : other=node
    · simp [he]
    · have hne : other.1≠node.1 := fun hk => he (hiff.mp hk)
      simp [he,hne]
  unfold splice
  dsimp only
  rw [hkeep]
  exact (List.perm_append_singleton _ _).trans (List.perm_cons_erase hm).symm

end Index

section Steps

variable {σ : Type} {X : Externals} {hooks : Hooks σ} {io : CommandIo} {request : Json}

/-- The members that receipts live in are the same. -/
structure SameReceipts (s t : Store) : Prop where
  /-- The reentrancy flag is as before. -/
  inHook : t.inHook=s.inHook
  /-- Same nodes in the same order. -/
  requests : t.requests=s.requests
  /-- Same index. -/
  requestIds : t.requestIds=s.requestIds
  /-- Same next address. -/
  nextNode : t.nextNode=s.nextNode

/-- An operation leaves the receipts alone. -/
theorem progress_receipts {w t : World σ} (h : Progress X hooks io request w t) :
    SameReceipts w.store t.store := by
  refine progress_preserves (P := fun u => SameReceipts w.store u.store) ?_ ?_ h ⟨rfl,rfl,rfl,rfl⟩
  · intro u v hu hq
    have hk := quiet_kept hq
    have hhook := congrArg Store.inHook hk
    have hrequests := congrArg Store.requests hk
    have hids := congrArg Store.requestIds hk
    have hnode := congrArg Store.nextNode hk
    exact ⟨hhook.trans hu.inHook,hrequests.trans hu.requests,hids.trans hu.requestIds,
      hnode.trans hu.nextNode⟩
  · intro u v hu ha
    cases ha with
    | applied hp hh => cases hp <;> exact ⟨hu.inHook,hu.requests,hu.requestIds,hu.nextNode⟩
    | @moved client operation =>
      obtain ⟨playing,elapsed,startedAt,client',hm⟩ := movedWorld_shape hooks operation u client
      rw [hm]
      exact ⟨hu.inHook,hu.requests,hu.requestIds,hu.nextNode⟩

/-- The same receipts are indexed the same way. -/
theorem WellIndexed.same {s t : Store} (h : WellIndexed s) (hs : SameReceipts s t) : WellIndexed t := by
  refine ⟨hs.inHook.trans h.idle,?_,?_⟩
  · rw [hs.requests,hs.requestIds]
    exact h.indexed
  · rw [hs.requests,hs.nextNode]
    exact h.used

/-- Recency does not matter to the index. -/
theorem WellIndexed.splice {s : Store} (h : WellIndexed s) {node : ℕ × Receipt} (hm : node∈s.requests) :
    WellIndexed (splice s node) := by
  have hp := splice_perm h.indexed hm
  refine ⟨h.idle,h.indexed.perm hp,?_⟩
  intro other ho
  exact h.used other (hp.mem_iff.mp ho)

/-- Retaining a receipt under an unused identity keeps the index. -/
theorem WellIndexed.retain {s : Store} (h : WellIndexed s) {id : String} (hi : s.requestIds id=none)
    (fingerprint : String) (result : Json) : WellIndexed (retain id fingerprint result s) := by
  have hunused : ∀ node∈s.requests, node.1≠s.nextNode := fun node hn => (h.used node hn).ne
  let receipt : Receipt := ⟨id,fingerprint,receiptMetadata result,s.document⟩
  have hunnamed : s.requestIds receipt.id=none := hi
  refine ⟨h.idle,evict_indexed (h.indexed.append hunused hunnamed),?_⟩
  intro node hn
  rcases mem_retain hn with ho | rfl
  · exact Nat.lt_succ_of_lt (h.used node ho)
  · exact Nat.lt_succ_self _

/-- What an admitted request has passed. -/
structure Admitted (X : Externals) (s : Store) (request : Json) (id fingerprint : String) : Prop where
  /-- Not issued from a hook. -/
  idle : s.inHook=false
  /-- Known members only. -/
  fields : fields X.spell request requestFields ["operation"]=.ok ()
  /-- Not a read. -/
  writes : operationOf request≠.get
  /-- The request has this identity. -/
  identity : requestIdentity request=.ok id
  /-- The request has this fingerprint. -/
  fingerprint : requestFingerprint X request=.ok fingerprint

/-- A request to execute passed every check, and its identity is unused. -/
theorem admission_fresh {s : Store} {id fingerprint : String}
    (h : admission X s request=.fresh id fingerprint) :
    Admitted X s request id fingerprint ∧ findReceipt s id=none ∧ expectsCurrent s request=true := by
  unfold admission at h
  repeat' split at h
  all_goals cases h
  exact ⟨⟨by simpa using ‹¬s.inHook=true›,‹_›,‹_›,‹_›,‹_›⟩,‹_›,‹_›⟩

/-- A replayed request passed the same checks as the executed one. -/
theorem admission_replay {s : Store} {node : ℕ × Receipt} (h : admission X s request=.replay node) :
    ∃ id, Admitted X s request id node.2.fingerprint ∧ findReceipt s id=some node := by
  unfold admission at h
  repeat' split at h
  all_goals cases h
  rename_i hidle _ hfields hget _ id hid _ fingerprint hfinger _ hfound hsame
  have hprint : node.2.fingerprint=fingerprint := not_not.mp hsame
  rw [←hprint] at hfinger
  exact ⟨id,⟨by simpa using hidle,hfields,hget,hid,hfinger⟩,hfound⟩

/-- The addressed node, while it is retained, has one content. -/
structure Holds (address : ℕ) (receipt : Receipt) (s : Store) : Prop where
  /-- The address has been used. -/
  used : address<s.nextNode
  /-- A retained node under it is this receipt. -/
  content : ∀ found, (address,found)∈s.requests → found=receipt

/-- What runs preserve about receipts: the index, and the content of one node. -/
def Keeps (address : ℕ) (receipt : Receipt) (w : World σ) : Prop :=
  WellIndexed w.store ∧ Holds address receipt w.store

/-- The same receipts hold the same content. -/
theorem Holds.same {address : ℕ} {receipt : Receipt} {s t : Store} (h : Holds address receipt s)
    (hs : SameReceipts s t) : Holds address receipt t := by
  refine ⟨?_,?_⟩
  · rw [hs.nextNode]
    exact h.used
  · rw [hs.requests]
    exact h.content

variable (X hooks io request) in
/-- The store of an operation before its receipt is retained. -/
theorem finished_receipts (w : World σ) :
    SameReceipts w.store (finished X hooks io request w).2.store :=
  progress_receipts (finished_progress X hooks io request w)

/-- An operation that starts with an unused identity leaves it unused. -/
theorem finished_unused {w : World σ} (h : WellIndexed w.store) {id : String}
    (hf : findReceipt w.store id=none) : (finished X hooks io request w).2.store.requestIds id=none := by
  rw [(finished_receipts X hooks io request w).requestIds]
  exact requestIds_of_absent h.indexed hf

/-- Commands keep the index. -/
theorem step_wellIndexed (w : World σ) (step : Step) (h : WellIndexed w.store) :
    WellIndexed (stepWorld X hooks w step).store := by
  cases step with
  | external path content => exact h
  | command io request =>
    dsimp only [stepWorld]
    have ho := command_outcome X hooks io request w
    generalize command X hooks io request w=result at ho
    cases ho with
    | answered success error hfresh =>
      rw [resultLocked_store]
      exact h
    | replayed hreplay =>
      obtain ⟨id,_,hf⟩ := admission_replay hreplay
      exact h.splice ((findReceipt_iff h.indexed).mp hf).1
    | performed hfresh =>
      obtain ⟨_,hf,_⟩ := admission_fresh hfresh
      exact (h.same (finished_receipts X hooks io request w)).retain (finished_unused h hf) _ _

/-- Commands keep the content of a node that exists. -/
theorem step_keeps {address : ℕ} {receipt : Receipt} (w : World σ) (step : Step)
    (h : Keeps address receipt w) : Keeps address receipt (stepWorld X hooks w step) := by
  refine ⟨step_wellIndexed w step h.1,?_⟩
  obtain ⟨hw,hh⟩ := h
  cases step with
  | external path content => exact hh
  | command io request =>
    dsimp only [stepWorld]
    have ho := command_outcome X hooks io request w
    generalize command X hooks io request w=result at ho
    cases ho with
    | answered success error hfresh =>
      rw [resultLocked_store]
      exact hh
    | replayed hreplay =>
      obtain ⟨id,_,hf⟩ := admission_replay hreplay
      have hp := splice_perm hw.indexed ((findReceipt_iff hw.indexed).mp hf).1
      exact ⟨hh.used,fun found hm => hh.content found (hp.mem_iff.mp hm)⟩
    | performed hfresh =>
      have hsame := finished_receipts X hooks io request w
      have hheld := hh.same hsame
      refine ⟨Nat.lt_succ_of_lt hheld.used,?_⟩
      intro found hm
      rcases mem_retain hm with hold | hnew
      · exact hheld.content found hold
      · have haddress := congrArg Prod.fst hnew
        exact absurd haddress hheld.used.ne

/-- A new store has no receipts. -/
theorem opened_wellIndexed {arguments : StoreArguments} {files : Files} {w : World σ}
    (h : Opened X arguments files w) : WellIndexed w.store := by
  obtain ⟨source,input,given,digests,startedAt,_,_,_,hstore⟩ := h.input
  rw [hstore]
  refine ⟨rfl,⟨List.nodup_nil,?_⟩,?_⟩
  · intro id address
    simp [openStore]
  · intro node hn
    cases hn

end Steps

section Revisions

variable {σ : Type} {X : Externals} {hooks : Hooks σ} {io : CommandIo} {request : Json}

/-- An operation never lowers the revision. -/
theorem progress_revision {w t : World σ} (hused : w.store.revision<w.store.nextRevision)
    (h : Progress X hooks io request w t) : w.store.revision≤t.store.revision := by
  have hkeep := progress_preserves
    (P := fun u => u.store.revision<u.store.nextRevision ∧ w.store.revision≤u.store.revision) ?_ ?_ h
    ⟨hused,le_refl _⟩
  · exact hkeep.2
  · rintro u v ⟨hlt,hle⟩ hq
    cases hq with
    | refused => exact ⟨Nat.lt_succ_of_lt hlt,hle⟩
    | _ => exact ⟨hlt,hle⟩
  · rintro u v ⟨hlt,hle⟩ ha
    cases ha with
    | applied hp hh =>
      obtain ⟨_,_,hr,_,_,hn⟩ := proposal_adopts hp u.store.nextRevision
      dsimp only
      rw [hr,hn]
      exact ⟨Nat.lt_succ_self _,hle.trans hlt.le⟩
    | @moved client operation =>
      obtain ⟨playing,elapsed,startedAt,client',hm⟩ := movedWorld_shape hooks operation u client
      rw [hm]
      exact ⟨hlt,hle⟩

variable (X hooks io request) in
/-- A step keeps the revision, or a command that expects it raises it. -/
theorem command_revision {w : World σ} (hused : w.store.revision<w.store.nextRevision) :
    (command X hooks io request w).2.store.revision=w.store.revision ∨
      (expectsCurrent w.store request=true ∧
        w.store.revision<(command X hooks io request w).2.store.revision) := by
  have ho := command_outcome X hooks io request w
  generalize command X hooks io request w=result at ho
  cases ho with
  | answered success error hfresh =>
    rw [resultLocked_store]
    exact Or.inl rfl
  | replayed hreplay => exact Or.inl rfl
  | performed hfresh =>
    obtain ⟨_,_,he⟩ := admission_fresh hfresh
    have hle := progress_revision hused (finished_progress X hooks io request w)
    rcases hle.eq_or_lt with heq | hlt
    · exact Or.inl heq.symm
    · exact Or.inr ⟨he,hlt⟩

/-- Runs never lower the revision. -/
theorem run_revision {w : World σ} (h : Agrees w) (steps : List Step) :
    w.store.revision≤(run (stepWorld X hooks) w steps).store.revision := by
  induction steps generalizing w with
  | nil => exact le_refl _
  | cons step rest ih =>
    refine le_trans ?_ (ih (step_agrees w step h))
    cases step with
    | external path content => exact le_refl _
    | command io request =>
      rcases command_revision X hooks io request h.used with heq | ⟨_,hlt⟩
      · exact heq.ge
      · exact hlt.le

/-- The revision that a request expects. -/
theorem expectsCurrent_revision {s : Store} (h : expectsCurrent s request=true) :
    request.member "expectedRevision"=some (.integer s.revision) := by
  unfold expectsCurrent at h
  rw [Bool.and_eq_true] at h
  obtain ⟨_,hr⟩ := h
  unfold Json.valueOr at hr
  cases hm : request.member "expectedRevision" with
  | none =>
    rw [hm] at hr
    cases hr
  | some value =>
    rw [hm] at hr
    dsimp only [Option.getD_some] at hr
    split at hr
    · rename_i revision
      rw [beq_iff_eq.mp hr]
    · cases hr

end Revisions

section Content

variable {X : Externals} {a b : Json}

/-- Sorting changes no number and no text. -/
theorem sortedFields_scalar {value found : Json} (h : sortedFields value=sortedFields found) :
    (∀ n, value=.integer n → found=.integer n) ∧ (∀ text, value=.string text → found=.string text) := by
  constructor
  · rintro n rfl
    cases found <;> simp_all [sortedFields]
  · rintro text rfl
    cases found <;> simp_all [sortedFields]

/-- Members of the same content, with the default of an absent one. -/
theorem valueOr_sameContent (ha : uniqueKeys a=true) (hb : uniqueKeys b=true)
    (h : sameContent a b=true) (key : String) :
    sortedFields (a.valueOr key .null)=sortedFields (b.valueOr key .null) := by
  have hm := member_sameContent ha hb h key
  unfold Json.valueOr
  cases hka : a.member key <;> cases hkb : b.member key <;> simp_all

/-- Requests of the same content expect the same revision. -/
theorem expectedRevision_sameContent (ha : uniqueKeys a=true) (hb : uniqueKeys b=true)
    (h : sameContent a b=true) {n : ℤ} (hn : a.member "expectedRevision"=some (.integer n)) :
    b.member "expectedRevision"=some (.integer n) := by
  have hm := member_sameContent ha hb h "expectedRevision"
  rw [hn] at hm
  cases hkb : b.member "expectedRevision" with
  | none => simp [hkb] at hm
  | some found =>
    rw [hkb] at hm
    have hs : sortedFields (.integer n)=sortedFields found := Option.some.inj hm
    rw [(sortedFields_scalar hs).1 n rfl]

/-- The field check does not depend on the order of members. -/
theorem fields_sameContent (ha : uniqueKeys a=true) (hb : uniqueKeys b=true)
    (h : sameContent a b=true) {allowed required : List String}
    (hf : fields X.spell a allowed required=.ok ()) : fields X.spell b allowed required=.ok () := by
  have hcontains : ∀ key, b.contains key=a.contains key := by
    intro key
    have hm := congrArg Option.isSome (member_sameContent ha hb h key)
    simpa [Json.contains] using hm.symm
  rw [fields_ok_iff] at hf ⊢
  obtain ⟨⟨members,rfl,hallowed⟩,hrequired⟩ := hf
  refine ⟨?_,fun key hk => (hcontains key).trans (hrequired key hk)⟩
  cases b with
  | object others =>
    refine ⟨others,rfl,?_⟩
    intro m hm
    simp only [uniqueKeys,Bool.and_eq_true,decide_eq_true_eq] at hb
    have hkey := hcontains m.1
    unfold Json.contains Json.member at hkey
    dsimp only at hkey
    rw [lookup_of_mem hb.1 hm] at hkey
    obtain ⟨value,hv⟩ := Option.isSome_iff_exists.mp hkey.symm
    exact hallowed (m.1,value) (mem_of_lookup hv)
  | _ => simp [sameContent] at h

/-- An operation is a read exactly when its text is. -/
theorem ofJson_get_iff (value : Json) : Operation.ofJson value=.get ↔ value=.string "get" := by
  unfold Operation.ofJson
  split <;> simp_all

/-- An identity is the text of its member. -/
theorem requestIdentity_text {request : Json} {id : String} (h : requestIdentity request=.ok id) :
    request.valueOr "requestId" .null=.string id := by
  unfold requestIdentity at h
  split at h
  · rename_i text ht
    split at h
    · cases h
      exact ht
    · cases h
  · cases h

/-- Requests of the same content pass the same checks under the same identity. -/
theorem Admitted.sameContent {s t : Store} {id fingerprint : String}
    (h : Admitted X s a id fingerprint) (hidle : t.inHook=false) (ha : uniqueKeys a=true)
    (hb : uniqueKeys b=true) (hc : sameContent a b=true) : Admitted X t b id fingerprint := by
  refine ⟨hidle,fields_sameContent ha hb hc h.fields,?_,?_,?_⟩
  · intro hget
    apply h.writes
    unfold operationOf at hget ⊢
    rw [ofJson_get_iff] at hget ⊢
    exact (sortedFields_scalar (valueOr_sameContent ha hb hc "operation").symm).2 _ hget
  · have hid := requestIdentity_text h.identity
    have hid' := (sortedFields_scalar (valueOr_sameContent ha hb hc "requestId")).2 _ hid
    have hi := h.identity
    unfold requestIdentity at hi ⊢
    rw [hid']
    rw [hid] at hi
    exact hi
  · have hs := (sortedFields_eq_iff a b ha hb).mpr hc
    have hf := h.fingerprint
    unfold requestFingerprint at hf ⊢
    rw [←hs]
    exact hf

/-- An admitted request whose receipt is retained is replayed. -/
theorem admission_of_receipt {s : Store} {id fingerprint : String} (h : Admitted X s a id fingerprint)
    {node : ℕ × Receipt} (hf : findReceipt s id=some node) (hp : node.2.fingerprint=fingerprint) :
    admission X s a=.replay node := by
  unfold admission
  rw [h.idle,h.fields,h.identity]
  simp only [Bool.false_eq_true,if_false]
  rw [if_neg h.writes,h.fingerprint]
  simp only
  rw [hf]
  simp only
  rw [if_neg (not_not.mpr hp)]

end Content

section Results

variable {σ : Type} {hooks : Hooks σ}

/-- A receipt gives back the result it was made from, member for member. -/
theorem receiptValue_result (success : Bool) (error id fingerprint : String) (w : World σ) :
    receiptValue ⟨id,fingerprint,receiptMetadata (resultLocked hooks success error w).1,
      w.store.document⟩=(resultLocked hooks success error w).1 := by
  cases success <;>
    simp [receiptValue,receiptMetadata,resultLocked,envelopeLocked,statusLocked,Json.set,
      Json.setMember,Json.members]

/-- The result of an operation is the one of the store it leaves. -/
theorem finished_result (X : Externals) (hooks : Hooks σ) (io : CommandIo) (request : Json)
    (w : World σ) (id fingerprint : String) :
    receiptValue ⟨id,fingerprint,receiptMetadata (finished X hooks io request w).1,
      (finished X hooks io request w).2.store.document⟩=(finished X hooks io request w).1 := by
  unfold finished
  split
  · rw [resultLocked_store]
    exact receiptValue_result _ _ _ _ _
  · rw [resultLocked_store]
    exact receiptValue_result _ _ _ _ _

/-- Store, files and trace are the same. -/
structure Unaffected (w t : World σ) : Prop where
  /-- Same members. -/
  store : t.store=w.store
  /-- Same files. -/
  files : t.files=w.files
  /-- No event. -/
  trace : t.trace=w.trace

/-- Computing a result affects only the clock. -/
theorem resultLocked_unaffected (success : Bool) (error : String) (w : World σ) :
    Unaffected w (resultLocked hooks success error w).2 :=
  ⟨resultLocked_store hooks success error w,resultLocked_files success error w,
    resultLocked_trace success error w⟩

end Results

section AtMostOnce

variable {σ : Type}

/-- The world after a command and any further steps. -/
def afterwards (X : Externals) (hooks : Hooks σ) (io : CommandIo) (request : Json) (w : World σ)
    (later : List Step) : World σ :=
  run (stepWorld X hooks) (command X hooks io request w).2 later

/-- The command was executed at `w`, and the receipt it made is retained at `x`. -/
def Retains (X : Externals) (request : Json) (w x : World σ) : Prop :=
  (∃ id fingerprint, admission X w.store request=.fresh id fingerprint) ∧
    w.store.nextNode∈x.store.requests.map Prod.fst

/-- What a second submission `b` after a first submission `a` does. -/
structure AtMostOnce (X : Externals) (hooks : Hooks σ) (io again : CommandIo) (a b : Json)
    (w : World σ) (later : List Step) : Prop where
  /-- A request that changed the revision never changes it again. -/
  once : sameContent a b=true → (command X hooks io a w).2.store.revision≠w.store.revision →
    (command X hooks again b (afterwards X hooks io a w later)).2.store.revision=
      (afterwards X hooks io a w later).store.revision
  /-- A retained request gets its first result again; only recency changes. -/
  stable : sameContent a b=true → Retains X a w (afterwards X hooks io a w later) →
    ∃ requests, requests.Perm (afterwards X hooks io a w later).store.requests ∧
      command X hooks again b (afterwards X hooks io a w later)=
        ((command X hooks io a w).1,
          {afterwards X hooks io a w later with
            store := {(afterwards X hooks io a w later).store with requests := requests}})
  /-- Another content under a retained identity has no effect and fails, unless it is a read. -/
  exclusive : sameContent a b=false → b.member "requestId"=a.member "requestId" →
    Retains X a w (afterwards X hooks io a w later) →
    Unaffected (afterwards X hooks io a w later)
        (command X hooks again b (afterwards X hooks io a w later)).2 ∧
      (operationOf b≠.get →
        (command X hooks again b (afterwards X hooks io a w later)).1.member "success"=
          some (.boolean false))

variable {X : Externals} {hooks : Hooks σ} {io again : CommandIo} {a b : Json} {w : World σ}

/-- The receipt of an executed request, as long as it is retained. -/
theorem retained_receipt (hw : WellIndexed w.store) (later : List Step)
    (h : Retains X a w (afterwards X hooks io a w later)) :
    ∃ id node, WellIndexed (afterwards X hooks io a w later).store ∧
      Admitted X w.store a id node.2.fingerprint ∧
      findReceipt (afterwards X hooks io a w later).store id=some node ∧
      receiptValue node.2=(command X hooks io a w).1 := by
  obtain ⟨⟨id,fingerprint,hfresh⟩,hretained⟩ := h
  have hadmitted := (admission_fresh hfresh).1
  let done := finished X hooks io a w
  let receipt : Receipt := ⟨id,fingerprint,receiptMetadata done.1,done.2.store.document⟩
  have hcommand : command X hooks io a w=
      (done.1,{done.2 with store := retain id fingerprint done.1 done.2.store}) := by
    unfold command
    rw [hfresh]
    rfl
  have hsame : SameReceipts w.store done.2.store := finished_receipts X hooks io a w
  have hkeeps : Keeps w.store.nextNode receipt (command X hooks io a w).2 := by
    refine ⟨step_wellIndexed w (.command io a) hw,?_,?_⟩
    · rw [hcommand]
      show w.store.nextNode<done.2.store.nextNode+1
      rw [hsame.nextNode]
      exact Nat.lt_succ_self _
    · intro found hm
      rw [hcommand] at hm
      rcases mem_retain hm with hold | hnew
      · have hlt := hw.used _ (hsame.requests ▸ hold)
        exact absurd hlt (lt_irrefl _)
      · exact congrArg Prod.snd hnew
  obtain ⟨hwell,hholds⟩ := run_invariant (fun u step hu _ => step_keeps u step hu) hkeeps
    (along_true (stepWorld X hooks) _ later)
  obtain ⟨node,hm,haddress⟩ := List.mem_map.mp hretained
  have hcontent : node.2=receipt := hholds.content node.2 (haddress ▸ hm)
  refine ⟨id,node,hwell,?_,?_,?_⟩
  · rw [hcontent]
    exact hadmitted
  · exact (findReceipt_iff hwell.indexed).mpr ⟨hm,by rw [hcontent]⟩
  · rw [hcontent,hcommand]
    exact finished_result X hooks io a w id fingerprint

/-- The revision that an executed request expected has passed. -/
theorem resubmission_once (ha : uniqueKeys a=true) (hb : uniqueKeys b=true) (hw : Agrees w)
    (later : List Step) (hc : sameContent a b=true)
    (hchanged : (command X hooks io a w).2.store.revision≠w.store.revision) :
    (command X hooks again b (afterwards X hooks io a w later)).2.store.revision=
      (afterwards X hooks io a w later).store.revision := by
  rcases command_revision X hooks io a hw.used with heq | ⟨hexpects,hlt⟩
  · exact absurd heq hchanged
  have hagrees : Agrees (command X hooks io a w).2 := step_agrees w (.command io a) hw
  have hlater : Agrees (afterwards X hooks io a w later) :=
    run_invariant (fun u step hu _ => step_agrees u step hu) hagrees (along_true _ _ later)
  have hle : (command X hooks io a w).2.store.revision≤(afterwards X hooks io a w later).store.revision :=
    run_revision hagrees later
  rcases command_revision X hooks again b hlater.used with heq | ⟨hagain,_⟩
  · exact heq
  · have hfirst := expectedRevision_sameContent ha hb hc (expectsCurrent_revision hexpects)
    rw [expectsCurrent_revision hagain] at hfirst
    have hn : (afterwards X hooks io a w later).store.revision=w.store.revision := by simpa using hfirst
    omega

/-- A retained request of the same content is answered from its receipt. -/
theorem resubmission_stable (ha : uniqueKeys a=true) (hb : uniqueKeys b=true)
    (hw : WellIndexed w.store) (later : List Step) (hc : sameContent a b=true)
    (hr : Retains X a w (afterwards X hooks io a w later)) :
    ∃ requests, requests.Perm (afterwards X hooks io a w later).store.requests ∧
      command X hooks again b (afterwards X hooks io a w later)=
        ((command X hooks io a w).1,
          {afterwards X hooks io a w later with
            store := {(afterwards X hooks io a w later).store with requests := requests}}) := by
  obtain ⟨id,node,hwell,hadmitted,hfound,hvalue⟩ := retained_receipt hw later hr
  have hagain := hadmitted.sameContent hwell.idle ha hb hc
  have hreplay := admission_of_receipt hagain hfound rfl
  have hm := ((findReceipt_iff hwell.indexed).mp hfound).1
  refine ⟨(splice (afterwards X hooks io a w later).store node).requests,
    splice_perm hwell.indexed hm,?_⟩
  unfold command
  rw [hreplay]
  dsimp only
  rw [hvalue]
  rfl

/-- Another content under a retained identity is neither replayed nor executed. -/
theorem resubmission_exclusive (laws : SpellLaws X.spell) (ha : uniqueKeys a=true)
    (hb : uniqueKeys b=true) (hw : WellIndexed w.store) (later : List Step)
    (hc : sameContent a b=false) (hid : b.member "requestId"=a.member "requestId")
    (hr : Retains X a w (afterwards X hooks io a w later)) :
    Unaffected (afterwards X hooks io a w later)
        (command X hooks again b (afterwards X hooks io a w later)).2 ∧
      (operationOf b≠.get →
        (command X hooks again b (afterwards X hooks io a w later)).1.member "success"=
          some (.boolean false)) := by
  obtain ⟨id,node,hwell,hadmitted,hfound,hvalue⟩ := retained_receipt hw later hr
  have hidentity : ∀ {other fingerprint : String},
      Admitted X (afterwards X hooks io a w later).store b other fingerprint → other=id := by
    intro other fingerprint hother
    have htext := requestIdentity_text hadmitted.identity
    have htext' := requestIdentity_text hother.identity
    unfold Json.valueOr at htext htext'
    rw [hid,htext] at htext'
    exact (Json.string.inj htext').symm
  unfold command
  cases hadmission : admission X (afterwards X hooks io a w later).store b with
  | refused error =>
    exact ⟨resultLocked_unaffected false error.what _,fun _ => resultLocked_success _ _ _⟩
  | read =>
    refine ⟨resultLocked_unaffected true "" _,?_⟩
    intro hwrites
    unfold admission at hadmission
    repeat' split at hadmission
    all_goals cases hadmission
  | replay other =>
    obtain ⟨otherId,hother,hfound'⟩ := admission_replay hadmission
    rw [hidentity hother,hfound] at hfound'
    cases hfound'
    have hsame := sameContent_of_fingerprint laws ha hb hadmitted.fingerprint hother.fingerprint
    rw [hc] at hsame
    cases hsame
  | fresh otherId fingerprint =>
    obtain ⟨hother,hnone,_⟩ := admission_fresh hadmission
    rw [hidentity hother,hfound] at hnone
    cases hnone

/-- In every run of a constructed store, with any hooks, system calls and other
writers, a command takes effect at most once, its retained receipt is stable,
and its identity excludes other writes. -/
theorem run_commands_at_most_once (laws : SpellLaws X.spell) {arguments : StoreArguments}
    {files : Files} {client : σ} {w : World σ} (h : construct X hooks arguments files client=.ok w)
    (before later : List Step) (io again : CommandIo) {a b : Json} (ha : uniqueKeys a=true)
    (hb : uniqueKeys b=true) :
    AtMostOnce X hooks io again a b (run (stepWorld X hooks) w before) later := by
  have hopened := construct_opened h
  have hagrees := run_invariant (fun u step hu _ => step_agrees u step hu) (opened_agrees hopened)
    (along_true (stepWorld X hooks) w before)
  have hwell : WellIndexed (run (stepWorld X hooks) w before).store :=
    run_invariant (fun u step hu _ => step_wellIndexed u step hu) (opened_wellIndexed hopened)
      (along_true (stepWorld X hooks) w before)
  exact ⟨resubmission_once ha hb hagrees later,resubmission_stable ha hb hwell later,
    resubmission_exclusive laws ha hb hwell later⟩

/-- Doubles spelled by their bit patterns. -/
def bitSpelling (value : Float) : String := toString (value.toBits.toNat : Int) ++ ".0"

/-- Bit patterns are spelled apart from each other and from integers. -/
theorem bitSpelling_laws : SpellLaws bitSpelling := by
  refine ⟨?_,?_,?_⟩
  · intro value _ c hc
    unfold bitSpelling at hc
    rw [String.toList_append,List.mem_append] at hc
    rcases hc with hc | hc
    · have hchar := integer_characters (value.toBits.toNat : Int) c hc
      unfold isNumberCharacter
      rcases hchar with hd | hd <;> simp [hd]
    · have htail : ".0".toList=['.','0'] := rfl
      rw [htail] at hc
      rcases List.mem_cons.mp hc with rfl | hc
      · rfl
      · rw [List.mem_singleton.mp hc]
        rfl
  · intro value _
    left
    unfold bitSpelling
    rw [String.toList_append,List.mem_append]
    right
    decide
  · intro x y _ _ h
    have hlists := congrArg String.toList h
    simp only [bitSpelling,String.toList_append] at hlists
    have hint := Int.repr_injective (String.toList_injective (List.append_cancel_right hlists))
    have hbits : x.toBits=y.toBits := UInt64.toNat_inj.mp (Int.ofNat.inj hint)
    cases x with
    | ofModel x =>
      cases y with
      | ofModel y =>
        cases x
        cases y
        cases hbits
        rfl

/-- Externals of the sample store with lawful spelling. -/
def bitExternals : Externals := {hallExternals with spell := bitSpelling}

/-- The sample store with lawful spelling. -/
def bitWorld : World Unit := openedSample bitExternals hallArguments (filesOf [] [["scenes"]])

/-- A replaced scene, its retry with permuted members and a foreign use of its identity. -/
theorem run_commands_at_most_once_replace :
    (command bitExternals acceptingHooks {} (sampleRequest "replace" "a" 1 [("document",emptyRoom)])
        bitWorld).2.store.revision≠bitWorld.store.revision ∧
      AtMostOnce bitExternals acceptingHooks {} {}
        (sampleRequest "replace" "a" 1 [("document",emptyRoom)])
        (.object [("document",emptyRoom),("requestId",.string "a"),("operation",.string "replace"),
          ("expectedRevision",.integer 1),("expectedEpoch",.string "e")]) bitWorld
        [.command {} (sampleRequest "undo" "b" 2 [])] ∧
      AtMostOnce bitExternals acceptingHooks {} {}
        (sampleRequest "replace" "a" 1 [("document",emptyRoom)]) (sampleRequest "clear" "a" 3 [])
        bitWorld [.command {} (sampleRequest "undo" "b" 2 [])] := by
  have hopen : construct bitExternals acceptingHooks hallArguments (filesOf [] [["scenes"]]) ()=
    .ok bitWorld := rfl
  refine ⟨by decide +kernel,?_,?_⟩
  · exact run_commands_at_most_once bitSpelling_laws hopen [] _ {} {} (by decide) (by decide)
  · exact run_commands_at_most_once bitSpelling_laws hopen [] _ {} {} (by decide) (by decide)

/-- A read under a retained identity with another content is answered, not refused. -/
theorem retained_identity_read :
    (findReceipt (command hallExternals acceptingHooks {} (sampleRequest "pause" "a" 1 [])
        hallWorld).2.store "a").isSome=true ∧
      sameContent (sampleRequest "pause" "a" 1 []) (sampleRequest "get" "a" 1 [])=false ∧
      (command hallExternals acceptingHooks {} (sampleRequest "get" "a" 1 [])
        (command hallExternals acceptingHooks {} (sampleRequest "pause" "a" 1 [])
          hallWorld).2).1.member "success"=some (.boolean true) := by
  refine ⟨?_,?_,?_⟩ <;> decide +kernel

end AtMostOnce

end Ros1Adapter.SceneStoreReceipts
