import Ros1Adapter.SceneNodeReceipts

/-!
# A submitted request keeps its public value

The public members of a request are kept when its receipt is, and a value that
was returned once is the receipt with these members. While the store retains
the receipt, no other request writes members under its identity and a full
table keeps them, so the request and a read of its result return that value
again.
-/

namespace Ros1Adapter.SceneNodeReplay

open SceneJson SceneDocument SceneFiles SceneFingerprint SceneStore SceneStoreSteps SceneStoreReceipts SceneNode
  SceneProjection SceneValues SceneNodeReceipts SceneStoreValid DoubleSums ActionRules

section Publishing

variable {τ : Type} {X : Externals} {site : Site τ}

/-- A result with the public members of a receipt. -/
def publicAnswer (result : Json) (receipt : PublicReceipt) : Json :=
  (withFields result receipt.fields).set "compiled" receipt.compiled

/-- A result has a document. -/
structure HasDocument (result : Json) : Prop where
  /-- It is an object. -/
  shape : ∃ members, result=.object members
  /-- It names a document. -/
  document : ∃ document, result.member "document"=some document

variable (X site) in
/-- Compilation keeps the definition it returns. -/
theorem compiledFor_value (document : Json) (epoch : String) (revision : ℕ) (c : NodeClient τ) :
    Meets (compiledFor X site document epoch revision) c
      (fun value t => ∃ found, t.compiled=some found ∧ found.value=value) (fun _ _ => True) := by
  unfold compiledFor
  rw [meets_bind,meets_get]
  split
  · next found same =>
    rw [meets_pure]
    exact ⟨found,(Option.filter_eq_some_iff.mp same).1,rfl⟩
  · rw [meets_bind,meets_ofResult]
    refine ⟨fun value _ => ?_,fun _ _ => trivial⟩
    rw [meets_bind,meets_modify,meets_pure]
    exact ⟨_,rfl,rfl⟩

/-- Public members are read back from a result that got them. -/
theorem receiptFields_published {members : List (String × Json)} (c : NodeClient τ) (epoch : String) (revision : ℕ)
    (compiled : Json) :
    receiptFields ((withFields (.object members) (publicFields c epoch revision)).set "compiled" compiled)=
      publicFields c epoch revision := by
  simp [receiptFields,withFields,publicFields,Json.valueOr,Json.member,Json.set,Json.lookup_setMember,
    Json.lookup_setMember_other]

/-- Public members leave the document of a result alone. -/
theorem withFields_document {members : List (String × Json)} (c : NodeClient τ) (epoch : String) (revision : ℕ) :
    (withFields (.object members) (publicFields c epoch revision)).member "document"=
      (Json.object members).member "document" := by
  simp [withFields,publicFields,Json.member,Json.set,Json.lookup_setMember_other]

/-- A published result is the result with the members that can be kept. -/
theorem addPublicView_value {result : Json} (h : HasDocument result) (w : Node τ) :
    Meets (addPublicView X site result) w
      (fun answer t => answer=publicAnswer result ⟨receiptFields answer,(t.client.compiled.map CompiledDefinition.value).getD .null⟩)
      (fun _ _ => True) := by
  obtain ⟨members,shape⟩ := h.shape
  obtain ⟨document,found⟩ := h.document
  subst shape
  unfold addPublicView
  rw [meets_bind,meets_ofResult]
  refine ⟨fun epoch _ => ?_,fun _ _ => trivial⟩
  rw [meets_bind,meets_ofResult]
  refine ⟨fun revision _ => ?_,fun _ _ => trivial⟩
  rw [meets_bind,meets_get]
  unfold withCompiled
  rw [withFields_document,found]
  simp only
  rw [meets_bind]
  have value := compiledFor_value X site document epoch revision w.client
  unfold Meets onClient at *
  cases result : compiledFor X site document epoch revision w.client with
  | error e c => trivial
  | ok compiled c =>
    rw [result] at value
    obtain ⟨definition,kept,same⟩ := value
    show _=publicAnswer _ ⟨_,(c.compiled.map CompiledDefinition.value).getD .null⟩
    rw [receiptFields_published,kept]
    simp only [Option.map_some,Option.getD_some,same]
    rfl

/-- Whether the store retains a result under an identity. -/
def retains (s : Store) (id : String) (result : Json) : Bool :=
  (requestResult s id).any (fun receipt => receipt.equal result)

/-- Everything after the store's part of a command keeps the store; the public
members are kept when the store retains the result. -/
theorem publishResult_spec {result : Json} (h : HasDocument result) (previous : ℕ) (request : Json) (w : Node τ) :
    Meets (publishResult X site previous request result) w
      (fun answer t => ∃ receipt, answer=publicAnswer result receipt ∧ t.store=w.store ∧
        t.client.publicReceipts=if retains w.store (commandId request) result then
          keepReceipt w.store (commandId request) receipt w.client.publicReceipts else w.client.publicReceipts)
      (fun _ t => books t=books w) := by
  unfold publishResult
  rw [meets_bind]
  refine ((synchronize_keeps previous).meets w).mono (fun _ a ha => ?_) (fun _ _ same => same)
  rw [meets_bind]
  refine ((publishCommand_keeps previous request).meets a).mono (fun _ b hb => ?_) (fun _ _ same => same.trans ha)
  have same : books b=books w := hb.trans ha
  rw [meets_bind,meets_get,meets_bind]
  refine (((addPublicView_keeps result).meets b).both (addPublicView_value h b)).mono (fun answer c hc => ?_)
    (fun _ _ kept => kept.1.trans same)
  obtain ⟨kept,value⟩ := hc
  have store : c.store=w.store := congrArg Prod.fst (kept.trans same)
  have receipts : c.client.publicReceipts=w.client.publicReceipts := congrArg Prod.snd (kept.trans same)
  have before : b.store=w.store := congrArg Prod.fst same
  rw [meets_bind]
  unfold retainPublic
  rw [meets_ite]
  have saved : (requestResult b.store (commandId request)).any (fun receipt => receipt.equal result)=
      retains w.store (commandId request) result := by
    rw [before]
    rfl
  rw [saved]
  constructor
  · intro absent
    rw [meets_pure,meets_pure]
    have never : ¬retains w.store (commandId request) result=true := by
      simpa using absent
    refine ⟨_,value,store,?_⟩
    rw [if_neg never]
    exact receipts
  · intro present
    rw [meets_modify,meets_pure]
    have always : retains w.store (commandId request) result=true := by
      simpa using present
    refine ⟨_,value,store,?_⟩
    rw [if_pos always,← store,← receipts]

end Publishing

section Tables

/-- An entry under another identity whose receipt is retained stays. -/
theorem keepReceipt_other {s : Store} {id other : String} (hne : other≠id) (hr : (requestResult s other).isSome=true)
    (receipt : PublicReceipt) (receipts : List (String × PublicReceipt)) :
    (keepReceipt s id receipt receipts).lookup other=receipts.lookup other := by
  have filtered : ∀ (p : String → Bool), p other=true → ∀ entries : List (String × PublicReceipt),
      (entries.filter (fun entry => p entry.1)).lookup other=entries.lookup other := by
    intro p keeps entries
    induction entries with
    | nil => rfl
    | cons entry rest ih =>
      obtain ⟨key,value⟩ := entry
      rw [List.filter_cons]
      by_cases here : other=key
      · subst here
        simp [keeps]
      · have apart : (other==key)=false := by simpa using here
        split
        · rw [List.lookup_cons,List.lookup_cons,apart,ih]
        · rw [List.lookup_cons,apart,ih]
  have apart : (other==id)=false := by simpa using hne
  have inserted : ((id,receipt)::receipts.filter (fun entry => entry.1≠id)).lookup other=receipts.lookup other := by
    rw [List.lookup_cons,apart]
    exact filtered (fun key => decide (key≠id)) (by simpa using hne) receipts
  unfold keepReceipt
  dsimp only
  split
  · rw [filtered (fun key => (requestResult s key).isSome) hr]
    exact inserted
  · exact inserted

/-- A new entry whose receipt is retained is found. -/
theorem keepReceipt_self {s : Store} {id : String} (hr : (requestResult s id).isSome=true) (receipt : PublicReceipt)
    (receipts : List (String × PublicReceipt)) : (keepReceipt s id receipt receipts).lookup id=some receipt := by
  unfold keepReceipt
  dsimp only
  split
  · rw [List.filter_cons,if_pos hr]
    simp
  · simp

/-- A table of public receipts: one entry for each identity, at most the limit. -/
structure Bounded (receipts : List (String × PublicReceipt)) : Prop where
  /-- Identities are distinct. -/
  apart : (receipts.map Prod.fst).Nodup
  /-- Entries are limited. -/
  limit : receipts.length ≤ publicLimit

/-- An insertion passes the limit by one at most. -/
theorem Bounded.inserted {receipts : List (String × PublicReceipt)} (h : Bounded receipts) (id : String)
    (receipt : PublicReceipt) : ((id,receipt)::receipts.filter (fun entry => entry.1≠id)).length ≤ publicLimit+1 := by
  have fewer := List.length_filter_le (fun entry : String × PublicReceipt => decide (entry.1≠id)) receipts
  have limit := h.limit
  simp only [List.length_cons]
  omega

/-- Identities with a result are those of retained receipts. -/
theorem requestResult_mem {s : Store} {id : String} (h : (requestResult s id).isSome=true)
    (hs : Indexed s.requests s.requestIds) : id∈s.requests.map (fun node => node.2.id) := by
  unfold requestResult at h
  rw [Option.isSome_map] at h
  obtain ⟨node,found⟩ := Option.isSome_iff_exists.mp h
  obtain ⟨member,same⟩ := (findReceipt_iff hs).mp found
  exact List.mem_map.mpr ⟨node,member,same⟩

/-- Keeping a public receipt keeps the table bounded. -/
theorem Bounded.keep {receipts : List (String × PublicReceipt)} (h : Bounded receipts) {s : Store}
    (hs : Indexed s.requests s.requestIds) (hl : s.requests.length ≤ receiptLimit) (id : String) (receipt : PublicReceipt) :
    Bounded (keepReceipt s id receipt receipts) := by
  have apart : (((id,receipt)::receipts.filter (fun entry => entry.1≠id)).map Prod.fst).Nodup := by
    rw [List.map_cons,List.nodup_cons]
    constructor
    · intro member
      obtain ⟨entry,here,same⟩ := List.mem_map.mp member
      have other := (List.mem_filter.mp here).2
      simp [same] at other
    · exact h.apart.sublist (List.filter_sublist.map Prod.fst)
  unfold keepReceipt
  dsimp only
  split
  · have pruned : ((((id,receipt)::receipts.filter (fun entry => entry.1≠id)).filter
        (fun entry => (requestResult s entry.1).isSome)).map Prod.fst).Nodup :=
      apart.sublist (List.filter_sublist.map Prod.fst)
    refine ⟨pruned,?_⟩
    have inside : (((id,receipt)::receipts.filter (fun entry => entry.1≠id)).filter
        (fun entry => (requestResult s entry.1).isSome)).map Prod.fst ⊆ s.requests.map (fun node => node.2.id) := by
      intro key member
      obtain ⟨entry,here,same⟩ := List.mem_map.mp member
      rw [← same]
      exact requestResult_mem (List.mem_filter.mp here).2 hs
    have fewer := (List.subperm_of_subset pruned inside).length_le
    rw [List.length_map,List.length_map] at fewer
    exact fewer.trans hl
  · next small => exact ⟨apart,Nat.le_of_not_lt small⟩

/-- Eviction respects the limit. -/
theorem evict_length (requests : List (ℕ × Receipt)) (ids : String → Option ℕ) :
    (evict requests ids).1.length ≤ receiptLimit := by
  induction requests generalizing ids with
  | nil => exact Nat.zero_le _
  | cons node rest ih =>
    unfold evict
    split
    · exact ih _
    · next small => exact Nat.le_of_not_lt small

end Tables

section Commands

variable {σ : Type} {X : Externals} {hooks : Hooks σ} {io : CommandIo} {request : Json}

/-- Results have a document. -/
theorem resultLocked_document (success : Bool) (error : String) (w : World σ) :
    HasDocument (resultLocked hooks success error w).1 := by
  unfold resultLocked envelopeLocked statusLocked
  dsimp only
  split
  · exact ⟨⟨_,rfl⟩,⟨w.store.document,by simp [Json.set,Json.setMember,Json.member,sceneTimeLocked]; split <;> rfl⟩⟩
  · exact ⟨⟨_,rfl⟩,⟨w.store.document,by simp [Json.set,Json.setMember,Json.member,sceneTimeLocked]; split <;> rfl⟩⟩

/-- The result of an operation has a document. -/
theorem finished_document (w : World σ) : HasDocument (finished X hooks io request w).1 := by
  unfold finished
  split
  · exact resultLocked_document _ _ _
  · exact resultLocked_document _ _ _

/-- What the node relies on in its store. -/
structure Orderly (s : Store) : Prop where
  /-- Receipts are indexed. -/
  indexed : WellIndexed s
  /-- Receipts are limited. -/
  limit : s.requests.length ≤ receiptLimit
  /-- Documents, time and receipts equal themselves. -/
  values : SaneStore s
  /-- Receipts have documents. -/
  documents : ∀ node∈s.requests, HasDocument (receiptValue node.2)

/-- Commands keep a store orderly. -/
theorem command_orderly (laws : InputLaws X) (hu : uniqueKeys request=true) {w : World σ} (h : Orderly w.store) :
    Orderly (command X hooks io request w).2.store := by
  have indexed : WellIndexed (command X hooks io request w).2.store := step_wellIndexed w (.command io request) h.indexed
  have values : SaneStore (command X hooks io request w).2.store := command_sane laws hu h.values
  refine ⟨indexed,?_,values,?_⟩
  · have ho := command_outcome X hooks io request w
    generalize command X hooks io request w=result at ho
    cases ho with
    | answered success error _ =>
      rw [resultLocked_store]
      exact h.limit
    | @replayed node replay =>
      obtain ⟨id,-,found⟩ := admission_replay replay
      have perm := splice_perm h.indexed.indexed (findReceipt_mem found)
      rw [perm.length_eq]
      exact h.limit
    | performed _ => exact evict_length _ _
  · have ho := command_outcome X hooks io request w
    generalize command X hooks io request w=result at ho
    cases ho with
    | answered success error _ =>
      rw [resultLocked_store]
      exact h.documents
    | @replayed node replay =>
      obtain ⟨id,-,found⟩ := admission_replay replay
      have perm := splice_perm h.indexed.indexed (findReceipt_mem found)
      exact fun other member => h.documents other (perm.mem_iff.mp member)
    | performed _ =>
      intro node member
      rcases mem_retain member with old | new
      · rw [(finished_receipts X hooks io request w).requests] at old
        exact h.documents node old
      · rw [new,finished_result]
        exact finished_document w

/-- Results of commands equal themselves and have documents. -/
theorem command_result (laws : InputLaws X) (hu : uniqueKeys request=true) {w : World σ} (h : Orderly w.store) :
    sane (command X hooks io request w).1=true ∧ HasDocument (command X hooks io request w).1 := by
  have ho := command_outcome X hooks io request w
  generalize command X hooks io request w=result at ho
  cases ho with
  | answered success error _ => exact ⟨sane_result success error h.values.members,resultLocked_document _ _ _⟩
  | @replayed node replay =>
    obtain ⟨id,-,found⟩ := admission_replay replay
    have member := findReceipt_mem found
    exact ⟨h.values.receipts node member,h.documents node member⟩
  | performed _ =>
    have members : SaneMembers (finished X hooks io request w).2.store :=
      progress_preserves (P := fun u => SaneMembers u.store) (fun _ _ hv hq => quiet_sane hv hq)
        (fun _ _ hv ha => accepted_sane laws hu hv ha) (finished_progress X hooks io request w) h.values.members
    exact ⟨finished_sane members,finished_document w⟩

variable (X hooks io request) in
/-- A retained node whose address was used before the command was retained before. -/
theorem command_old {w : World σ} (h : WellIndexed w.store) {node : ℕ × Receipt} (used : node.1<w.store.nextNode)
    (member : node∈(command X hooks io request w).2.store.requests) : node∈w.store.requests := by
  have ho := command_outcome X hooks io request w
  generalize command X hooks io request w=result at ho member
  cases ho with
  | answered success error _ =>
    rw [resultLocked_store] at member
    exact member
  | @replayed other replay =>
    obtain ⟨id,-,found⟩ := admission_replay replay
    exact (splice_perm h.indexed (findReceipt_mem found)).mem_iff.mp member
  | performed _ =>
    have same := finished_receipts X hooks io request w
    rcases mem_retain member with old | new
    · rw [same.requests] at old
      exact old
    · rw [new,same.nextNode] at used
      exact absurd used (lt_irrefl _)

variable (X hooks io request) in
/-- Commands do not reuse addresses. -/
theorem command_used (w : World σ) : w.store.nextNode ≤ (command X hooks io request w).2.store.nextNode := by
  have ho := command_outcome X hooks io request w
  generalize command X hooks io request w=result at ho
  cases ho with
  | answered success error _ => rw [resultLocked_store]
  | replayed _ => exact le_refl _
  | performed _ =>
    have same := (finished_receipts X hooks io request w).nextNode
    show _ ≤ (finished X hooks io request w).2.store.nextNode+1
    omega

/-- The result under the identity of a retained receipt. -/
theorem requestResult_of_mem {s : Store} (h : WellIndexed s) {node : ℕ × Receipt} (member : node∈s.requests) :
    requestResult s node.2.id=some (receiptValue node.2) := by
  unfold requestResult
  rw [(findReceipt_iff h.indexed).mpr ⟨member,rfl⟩]
  rfl

/-- The identity of an admitted request is the one the node reads. -/
theorem commandId_of_identity {id : String} (h : requestIdentity request=.ok id) : commandId request=id := by
  have text := requestIdentity_text h
  cases request with
  | object members =>
    unfold commandId
    simp only
    rw [text]
    rfl
  | _ => cases text

/-- A request whose receipt is retained after its call got that receipt as its result. -/
theorem command_receipt {w : World σ} (h : WellIndexed w.store) {node : ℕ × Receipt}
    (hr : admission X (command X hooks io request w).2.store request=.replay node) :
    (command X hooks io request w).1=receiptValue node.2 := by
  obtain ⟨id,admitted,found⟩ := admission_replay hr
  unfold command at hr found ⊢
  cases before : admission X w.store request with
  | refused _ | read =>
    rw [before] at hr
    simp only [resultLocked_store] at hr
    rw [before] at hr
    cases hr
  | replay first =>
    rw [before] at found
    obtain ⟨id',admitted',found'⟩ := admission_replay before
    have same : id'=id := Except.ok.inj (admitted'.identity.symm.trans admitted.identity)
    have member := (findReceipt_iff h.indexed).mp found'
    have perm := splice_perm h.indexed member.1
    have indexed : Indexed (splice w.store first).requests (splice w.store first).requestIds := h.indexed.perm perm
    have spliced := (findReceipt_iff indexed).mp found
    have one : first=node := h.indexed.unique member.1 (perm.mem_iff.mp spliced.1)
      (member.2.trans (same.trans spliced.2.symm))
    rw [one]
  | fresh id' fingerprint =>
    rw [before] at found
    obtain ⟨admitted',absent,-⟩ := admission_fresh before
    have same : id'=id := Except.ok.inj (admitted'.identity.symm.trans admitted.identity)
    have receipts := finished_receipts X hooks io request w
    have retained := findReceipt_mem found
    rcases mem_retain retained with old | new
    · change node∈(finished X hooks io request w).2.store.requests at old
      rw [receipts.requests] at old
      have named : node.2.id=id := by
        have after : WellIndexed (command X hooks io request w).2.store := step_wellIndexed w (.command io request) h
        unfold command at after
        rw [before] at after
        exact ((findReceipt_iff after.indexed).mp found).2
      have present := (findReceipt_iff h.indexed).mpr ⟨old,named⟩
      rw [← same,absent] at present
      cases present
    · rw [new]
      exact (finished_result X hooks io request w id' fingerprint).symm

end Commands

section Runs

variable {τ : Type} {X : Externals} {site : Site τ} {io : CommandIo} {request : Json}

/-- A node between steps. -/
structure Aligned (w : Node τ) : Prop where
  /-- The store is orderly. -/
  store : Orderly w.store
  /-- The public receipts are bounded. -/
  table : Bounded w.client.publicReceipts

/-- How a command changes the public receipts: not at all, or it keeps new members
for a result that the store retains and that had none. -/
inductive TableStep (w : Node τ) (id : String) (result : Json) (after : Store) : List (String × PublicReceipt) → Prop
  /-- Unchanged. -/
  | same : TableStep w id result after w.client.publicReceipts
  /-- New members. -/
  | kept (receipt : PublicReceipt)
    (fresh : replayed (requestResult w.store id) result (w.client.publicReceipts.lookup id)=none)
    (saved : retains after id result=true) :
    TableStep w id result after (keepReceipt after id receipt w.client.publicReceipts)

/-- A replayed answer has the members that were found. -/
theorem replayed_answer {retained : Option Json} {result answer : Json} {cached : Option PublicReceipt}
    (h : replayed retained result cached=some answer) : ∃ receipt, cached=some receipt ∧ answer=publicAnswer result receipt := by
  unfold replayed at h
  split at h
  · next kept receipt =>
    split at h
    · exact ⟨receipt,rfl,(Option.some.inj h).symm⟩
    · cases h
  · cases h

/-- A retained result is a result. -/
theorem retains_some {s : Store} {id : String} {result : Json} (h : retains s id result=true) :
    (requestResult s id).isSome=true := by
  unfold retains at h
  cases found : requestResult s id with
  | none =>
    rw [found] at h
    cases h
  | some receipt => rfl

/-- A value of the store is returned with the state it leaves. -/
theorem meets_fromStore {α : Type} (read : Node τ → α × Node τ) (w : Node τ) (returns : α → Node τ → Prop)
    (throws : Error → Node τ → Prop) : Meets (fromStore read) w returns throws ↔ returns (read w).1 (read w).2 := Iff.rfl

variable (site io) in
/-- A command leaves the store's part of it and a table step; what it returns has
the public members that are kept, if the store retains the result. -/
theorem commandValue_spec (laws : InputLaws X) (hu : uniqueKeys request=true) {w : Node τ} (h : Aligned w) :
    Meets (commandValue X site io request) w
      (fun answer t => t.store=(command X (hooks X site) io request w).2.store ∧
        TableStep w (commandId request) (command X (hooks X site) io request w).1 t.store t.client.publicReceipts ∧
        (retains t.store (commandId request) (command X (hooks X site) io request w).1=true →
          ∃ receipt, t.client.publicReceipts.lookup (commandId request)=some receipt ∧
            answer=publicAnswer (command X (hooks X site) io request w).1 receipt))
      (fun _ t => t.store=(command X (hooks X site) io request w).2.store ∧
        TableStep w (commandId request) (command X (hooks X site) io request w).1 t.store t.client.publicReceipts) := by
  have result : HasDocument (command X (hooks X site) io request w).1 := (command_result laws hu h.store).2
  have public_ : (command X (hooks X site) io request w).2.client.publicReceipts=w.client.publicReceipts :=
    command_public io request w
  unfold commandValue
  rw [meets_bind,meets_get,meets_bind,meets_fromStore,meets_bind,meets_get,public_]
  split
  · next answer replay =>
    rw [meets_pure]
    obtain ⟨receipt,cached,shape⟩ := replayed_answer replay
    rw [public_]
    exact ⟨rfl,.same,fun _ => ⟨receipt,cached,shape⟩⟩
  · next fresh =>
    refine (publishResult_spec result _ request _).mono (fun answer t ht => ?_) (fun _ t ht => ?_)
    · obtain ⟨receipt,shape,store,table⟩ := ht
      rw [store,table,public_]
      refine ⟨rfl,?_,fun saved => ⟨receipt,?_,shape⟩⟩
      · split
        · next saved => exact .kept receipt fresh saved
        · exact .same
      · rw [if_pos saved]
        exact keepReceipt_self (retains_some saved) _ _
    · have store : t.store=_ := congrArg Prod.fst ht
      have table : t.client.publicReceipts=_ := congrArg Prod.snd ht
      change t.client.publicReceipts=(command X (hooks X site) io request w).2.client.publicReceipts at table
      rw [table,public_]
      exact ⟨store,.same⟩

/-- Steps of clients that send objects with unique keys, as every parsed request has. -/
def Wellformed : NodeStep → Prop
  | .command _ request _ => uniqueKeys request=true
  | _ => True

variable (X site) in
/-- Every step leaves the store and the table as they are, or it is a command. -/
theorem stepNode_cases (w : Node τ) (step : NodeStep) : books (stepNode X site w step)=books w ∨
    ∃ io request, step=.command io request false ∧ stepNode X site w step=stateOf (commandValue X site io request w) := by
  cases step with
  | command io request expired =>
    cases expired with
    | true => exact Or.inl rfl
    | false => exact Or.inr ⟨io,request,rfl,rfl⟩
  | tick => exact Or.inl (tick_keeps w)
  | envelope => exact Or.inl ((storeEnvelope_keeps.bind (fun result => addPublicView_keeps result)) w)
  | shutdown => exact Or.inl (shutdown_keeps w)
  | assets _ | external _ _ => exact Or.inl rfl

variable (site) in
/-- What a step does to the store and the table of an aligned node. -/
theorem stepNode_books (laws : InputLaws X) {w : Node τ} (h : Aligned w) {step : NodeStep} (hs : Wellformed step) :
    books (stepNode X site w step)=books w ∨
      ∃ io request, uniqueKeys request=true ∧
        (stepNode X site w step).store=(command X (hooks X site) io request w).2.store ∧
        TableStep w (commandId request) (command X (hooks X site) io request w).1
          (command X (hooks X site) io request w).2.store (stepNode X site w step).client.publicReceipts := by
  rcases stepNode_cases X site w step with same | ⟨io,request,shape,result⟩
  · exact Or.inl same
  · refine Or.inr ⟨io,request,?_,?_⟩
    · rw [shape] at hs
      exact hs
    · rw [shape] at hs
      have spec := commandValue_spec site io laws hs h
      rw [result]
      unfold Meets at spec
      cases call : commandValue X site io request w with
      | ok answer t =>
        rw [call] at spec
        obtain ⟨store,table,-⟩ := spec
        rw [store] at table
        exact ⟨store,table⟩
      | error e t =>
        rw [call] at spec
        obtain ⟨store,table⟩ := spec
        rw [store] at table
        exact ⟨store,table⟩

/-- Steps keep a node aligned. -/
theorem step_aligned (laws : InputLaws X) {w : Node τ} (h : Aligned w) {step : NodeStep} (hs : Wellformed step) :
    Aligned (stepNode X site w step) := by
  rcases stepNode_books site laws h hs with same | ⟨io,request,unique,store,table⟩
  · have stores : (stepNode X site w step).store=w.store := congrArg Prod.fst same
    have tables : (stepNode X site w step).client.publicReceipts=w.client.publicReceipts := congrArg Prod.snd same
    exact ⟨stores ▸ h.store,tables ▸ h.table⟩
  · have orderly : Orderly (command X (hooks X site) io request w).2.store := command_orderly laws unique h.store
    refine ⟨store ▸ orderly,?_⟩
    generalize (stepNode X site w step).client.publicReceipts=after at table
    cases table with
    | same => exact h.table
    | kept receipt fresh saved => exact h.table.keep orderly.indexed.indexed orderly.limit _ receipt

/-- An entry stays the same while the node of its receipt is retained. -/
theorem step_entry (laws : InputLaws X) {w : Node τ} (h : Aligned w) {step : NodeStep} (hs : Wellformed step)
    {node : ℕ × Receipt} (used : node.1<w.store.nextNode) (member : node∈(stepNode X site w step).store.requests)
    {receipt : PublicReceipt} (entry : w.client.publicReceipts.lookup node.2.id=some receipt) :
    (stepNode X site w step).client.publicReceipts.lookup node.2.id=some receipt := by
  rcases stepNode_books site laws h hs with same | ⟨io,request,unique,store,table⟩
  · have tables : (stepNode X site w step).client.publicReceipts=w.client.publicReceipts := congrArg Prod.snd same
    rw [tables]
    exact entry
  · rw [store] at member
    have before := command_old X (hooks X site) io request h.store.indexed used member
    have orderly : Orderly (command X (hooks X site) io request w).2.store := command_orderly laws unique h.store
    have retainedAfter := requestResult_of_mem orderly.indexed member
    generalize (stepNode X site w step).client.publicReceipts=after at table
    cases table with
    | same => exact entry
    | kept new fresh saved =>
      by_cases other : node.2.id=commandId request
      · -- the members of this identity would have answered an equal result
        have retainedBefore := requestResult_of_mem h.store.indexed before
        have result : sane (command X (hooks X site) io request w).1=true := (command_result laws unique h.store).1
        have kept := h.store.values.receipts node before
        rw [← other,retainedBefore,entry] at fresh
        rw [← other] at saved
        unfold retains at saved
        rw [retainedAfter] at saved
        have equal := equal_symm _ _ kept result saved
        unfold replayed at fresh
        simp only [equal,if_true] at fresh
        cases fresh
      · have some_ : (requestResult (command X (hooks X site) io request w).2.store node.2.id).isSome=true := by
          rw [retainedAfter]
          rfl
        rw [keepReceipt_other other some_]
        exact entry

/-- An entry stays while the store retains a receipt of its identity. -/
theorem step_retained (laws : InputLaws X) {w : Node τ} (h : Aligned w) {step : NodeStep} (hs : Wellformed step)
    {id : String} (entry : (w.client.publicReceipts.lookup id).isSome=true)
    (retained : (requestResult (stepNode X site w step).store id).isSome=true) :
    ((stepNode X site w step).client.publicReceipts.lookup id).isSome=true := by
  rcases stepNode_books site laws h hs with same | ⟨io,request,unique,store,table⟩
  · have tables : (stepNode X site w step).client.publicReceipts=w.client.publicReceipts := congrArg Prod.snd same
    rw [tables]
    exact entry
  · rw [store] at retained
    generalize (stepNode X site w step).client.publicReceipts=after at table
    cases table with
    | same => exact entry
    | kept new fresh saved =>
      by_cases other : id=commandId request
      · rw [other] at retained ⊢
        rw [keepReceipt_self retained]
        rfl
      · rw [keepReceipt_other other retained]
        exact entry

/-- What later steps keep of a request that was answered: the node of its receipt,
while it is retained, has these public members. -/
structure Answered (node : ℕ × Receipt) (receipt : PublicReceipt) (w : Node τ) : Prop where
  /-- The node is aligned. -/
  aligned : Aligned w
  /-- The address of the receipt was used. -/
  used : node.1<w.store.nextNode
  /-- Its entry is there while the receipt is retained. -/
  entry : node∈w.store.requests → w.client.publicReceipts.lookup node.2.id=some receipt

/-- Steps keep the entry of an answered request. -/
theorem step_answered (laws : InputLaws X) {node : ℕ × Receipt} {receipt : PublicReceipt} {w : Node τ}
    (h : Answered node receipt w) {step : NodeStep} (hs : Wellformed step) :
    Answered node receipt (stepNode X site w step) := by
  refine ⟨step_aligned laws h.aligned hs,?_,fun member => ?_⟩
  · rcases stepNode_books site laws h.aligned hs with same | ⟨io,request,unique,store,table⟩
    · have stores : (stepNode X site w step).store=w.store := congrArg Prod.fst same
      rw [stores]
      exact h.used
    · rw [store]
      exact lt_of_lt_of_le h.used (command_used X (hooks X site) io request w)
  · have before : node∈w.store.requests := by
      rcases stepNode_books site laws h.aligned hs with same | ⟨io,request,unique,store,table⟩
      · have stores : (stepNode X site w step).store=w.store := congrArg Prod.fst same
        rw [stores] at member
        exact member
      · rw [store] at member
        exact command_old X (hooks X site) io request h.aligned.store.indexed h.used member
    exact step_entry laws h.aligned hs h.used member (h.entry before)

/-- A request that returned and whose receipt is retained has its entry, and the
answer is the receipt with the members of the entry. -/
theorem first_answer (laws : InputLaws X) (hu : uniqueKeys request=true) {w t : Node τ} (h : Aligned w) {answer : Json}
    (call : commandValue X site io request w=.ok answer t) {node : ℕ × Receipt}
    (hr : admission X t.store request=.replay node) :
    ∃ receipt, Answered node receipt t ∧ answer=publicAnswer (receiptValue node.2) receipt := by
  obtain ⟨store,table,cached⟩ := (commandValue_spec site io laws hu h).returned call
  have aligned : Aligned t := by
    have step : Aligned (stepNode X site w (.command io request false)) := step_aligned laws h hu
    have after : stepNode X site w (.command io request false)=t := by
      show stateOf (commandValue X site io request w)=t
      rw [call]
      rfl
    rw [after] at step
    exact step
  obtain ⟨id,admitted,found⟩ := admission_replay hr
  obtain ⟨member,named⟩ := (findReceipt_iff aligned.store.indexed.indexed).mp found
  have identity : commandId request=id := commandId_of_identity admitted.identity
  have result : (command X (hooks X site) io request w).1=receiptValue node.2 := by
    rw [store] at hr
    exact command_receipt h.store.indexed hr
  have saved : retains t.store (commandId request) (command X (hooks X site) io request w).1=true := by
    unfold retains
    rw [identity,← named,requestResult_of_mem aligned.store.indexed member,result]
    exact equal_self _ (aligned.store.values.receipts node member)
  obtain ⟨receipt,entry,shape⟩ := cached saved
  refine ⟨receipt,⟨aligned,aligned.store.indexed.used node member,fun _ => ?_⟩,?_⟩
  · rw [named,← identity]
    exact entry
  · rw [← result]
    exact shape

/-- A retained request with its entry is answered from both. -/
theorem later_answer {s : Store} {w : Node τ} {node : ℕ × Receipt} {receipt : PublicReceipt} (h : Answered node receipt w)
    (hr : admission X s request=.replay node) (hid : WellIndexed s) (member : node∈w.store.requests) (again : CommandIo) :
    (∃ t, commandValue X site again request w=.ok (publicAnswer (receiptValue node.2) receipt) t) ∧
      publicRequestResult w (commandId request)=some (publicAnswer (receiptValue node.2) receipt) := by
  obtain ⟨id,admitted,found⟩ := admission_replay hr
  have named := ((findReceipt_iff hid.indexed).mp found).2
  have identity : commandId request=node.2.id := (commandId_of_identity admitted.identity).trans named.symm
  have indexed := h.aligned.store.indexed
  have here : findReceipt w.store id=some node := (findReceipt_iff indexed.indexed).mpr ⟨member,named⟩
  have replay : admission X w.store request=.replay node :=
    admission_of_receipt ⟨indexed.idle,admitted.fields,admitted.writes,admitted.identity,admitted.fingerprint⟩ here rfl
  have retained := requestResult_of_mem indexed member
  have entry := h.entry member
  have done : command X (hooks X site) again request w=(receiptValue node.2,{w with store := splice w.store node}) := by
    unfold command
    rw [replay]
  have equal := equal_self _ (h.aligned.store.values.receipts node member)
  constructor
  · refine ⟨{w with store := splice w.store node},?_⟩
    unfold commandValue
    rw [get_bind]
    have stored : fromStore (command X (hooks X site) again request) w=
        .ok (receiptValue node.2) {w with store := splice w.store node} := by
      unfold fromStore
      rw [done]
    rw [bind_of_ok stored,get_bind]
    simp only [identity,retained,entry,replayed,equal,if_true]
    rfl
  · unfold publicRequestResult
    rw [identity,retained,entry]
    rfl

end Runs

section Stable

variable {τ : Type} {X : Externals} {site : Site τ}

/-- Public receipts are stable from a state on. -/
structure StableReceipts (X : Externals) (site : Site τ) (w : Node τ) : Prop where
  /-- The table keeps its limit. -/
  limit : w.client.publicReceipts.length ≤ 256
  /-- A new entry passes the limit by one at most, before the table is pruned. -/
  inserted : ∀ id receipt, ((id,receipt)::w.client.publicReceipts.filter (fun entry => entry.1≠id)).length ≤ 257
  /-- No step loses an entry whose store receipt is retained. -/
  retained : ∀ step, Wellformed step → ∀ id, (w.client.publicReceipts.lookup id).isSome=true →
    (requestResult (stepNode X site w step).store id).isSome=true →
    ((stepNode X site w step).client.publicReceipts.lookup id).isSome=true
  /-- No step changes an entry whose store receipt stays. -/
  unchanged : ∀ step, Wellformed step → ∀ node∈w.store.requests, node∈(stepNode X site w step).store.requests →
    (stepNode X site w step).client.publicReceipts.lookup node.2.id=w.client.publicReceipts.lookup node.2.id ∨
      w.client.publicReceipts.lookup node.2.id=none
  /-- A request that returned normally and whose receipt the store still retains
  after any later steps returns the same value, and so does a read of its result. -/
  stable : ∀ io request answer t, uniqueKeys request=true → commandValue X site io request w=.ok answer t →
    ∀ node, admission X t.store request=.replay node →
    ∀ later : List NodeStep, (∀ step∈later, Wellformed step) → node∈(run (stepNode X site) t later).store.requests →
    ∀ again, (∃ u, commandValue X site again request (run (stepNode X site) t later)=.ok answer u) ∧
      publicRequestResult (run (stepNode X site) t later) (commandId request)=some answer

/-- Aligned nodes have stable receipts. -/
theorem aligned_stable (laws : InputLaws X) {w : Node τ} (h : Aligned w) : StableReceipts X site w := by
  refine ⟨h.table.limit,h.table.inserted,fun step hs id entry retained => step_retained laws h hs entry retained,?_,?_⟩
  · intro step hs node before after
    cases entry : w.client.publicReceipts.lookup node.2.id with
    | none => exact Or.inr rfl
    | some receipt => exact Or.inl (step_entry laws h hs (h.store.indexed.used node before) after entry)
  · intro io request answer t unique call node replay later wellformed member again
    obtain ⟨receipt,answered,shape⟩ := first_answer laws unique h call replay
    have last : Answered node receipt (run (stepNode X site) t later) :=
      run_invariant (fun u step (hu : Answered node receipt u) (hs : Wellformed step) => step_answered laws hu hs) answered
        (along_of_forall (stepNode X site) t wellformed)
    rw [shape]
    exact later_answer last replay answered.aligned.store.indexed member again

/-- A constructed store with validated input is orderly. -/
theorem opened_orderly (laws : InputLaws X) {σ : Type} {arguments : StoreArguments} {files : Files} {w : World σ}
    (hi : uniqueKeys arguments.initial=true) (h : Opened X arguments files w) : Orderly w.store := by
  obtain ⟨source,input,given,digests,startedAt,opened,document,-,store⟩ := h.input
  have unique : uniqueKeys input=true := by
    have given_ : ∀ {found}, (Except.ok (arguments.source,arguments.initial,arguments.sourceDigest) :
        Except Error (Option Path × Json × Option String))=.ok found → uniqueKeys found.2.1=true := by
      intro found same
      rw [← Except.ok.inj same]
      exact hi
    unfold openInput at opened
    split at opened
    · split at opened
      · simp only [except_bind_ok] at opened
        obtain ⟨loaded,read,same⟩ := opened
        unfold readDocument at read
        simp only [except_bind_ok] at read
        obtain ⟨bytes,-,loads⟩ := read
        have input_ : loaded.1=input := congrArg (fun found => found.2.1) (Except.ok.inj same)
        rw [← input_]
        exact sane_unique _ (sane_loaded laws loads)
      · exact given_ opened
    · exact given_ opened
  have sound : sane w.store.document=true := sane_document laws.math unique document
  refine ⟨opened_wellIndexed h,?_,⟨⟨sound,?_,?_,?_⟩,?_⟩,?_⟩
  all_goals rw [store]
  · exact Nat.zero_le _
  · exact nofun
  · exact nofun
  · exact nonNegative_zero
  · exact nofun
  · exact nofun

/-- A new node is aligned. -/
theorem openNode_aligned (laws : InputLaws X) {arguments : StoreArguments} {files : Files} {client : NodeClient τ}
    (hc : client.publicReceipts=[]) (hi : uniqueKeys arguments.initial=true) {w : Node τ}
    (h : openNode X site arguments files client=.ok w) : Aligned w := by
  unfold openNode at h
  rw [except_bind_ok] at h
  obtain ⟨first,constructed,h⟩ := h
  have orderly := opened_orderly laws hi (construct_opened constructed)
  have public_ : first.client.publicReceipts=[] := by
    unfold construct at constructed
    simp only [except_bind_ok] at constructed
    obtain ⟨input,-,document,-,digests,-,constructed⟩ := constructed
    split at constructed
    · next t called =>
      rw [← Except.ok.inj constructed]
      unfold callHook at called
      simp only at called
      split at called
      · next c applied =>
        have kept := congrArg (fun result => NodeClient.publicReceipts (stateOf result)) applied
        change (stateOf (applyScene X site _ _ _ _)).publicReceipts=_ at kept
        rw [applyScene_keeps] at kept
        have final : t.client=c := by
          cases called
          rfl
        show t.client.publicReceipts=[]
        rw [final]
        exact kept.symm.trans hc
      · cases called
    · cases constructed
  have kept : books (stateOf (start X site first))=books first := start_keeps first
  cases started : start X site first with
  | error e t =>
    rw [started] at h
    cases h
  | ok u t =>
    rw [started] at h kept
    have same : t=w := Except.ok.inj h
    subst same
    have store : t.store=first.store := congrArg Prod.fst kept
    have table : t.client.publicReceipts=first.client.publicReceipts := congrArg Prod.snd kept
    refine ⟨store ▸ orderly,?_⟩
    rw [table,public_]
    exact ⟨List.nodup_nil,Nat.zero_le _⟩

/-- In every run of an opened node, with any profile, simulation, clock, system
calls, other writers and changes of assets, public receipts are stable. -/
theorem run_receipts_stable (laws : InputLaws X) {arguments : StoreArguments} {files : Files} {nameSpace : String}
    {assets : SceneCompile.Assets} {prepared : Option Json} {simulation : τ} {w : Node τ}
    (h : openNode X site arguments files (newClient X nameSpace assets prepared simulation)=.ok w)
    (hi : uniqueKeys arguments.initial=true) {steps : List NodeStep} (hs : ∀ step∈steps, Wellformed step) :
    StableReceipts X site (run (stepNode X site) w steps) := by
  have opened : Aligned w := openNode_aligned laws rfl hi h
  have aligned : Aligned (run (stepNode X site) w steps) :=
    run_invariant (fun t step (ht : Aligned t) (hc : Wellformed step) => step_aligned laws ht hc) opened
      (along_of_forall (stepNode X site) w hs)
  exact aligned_stable laws aligned

/-- The sample externals keep their laws. -/
theorem unitExternals_laws : InputLaws unitExternals := by
  refine ⟨⟨?_,?_⟩,?_⟩
  · intro rotation unit bounded accepted
    rw [show unitExternals.math=unitMath from rfl,unitMath_normalise] at accepted
    rw [← Except.ok.inj accepted]
    exact fun x member => (bounded x member).1
  · intro value result converted
    cases converted
  · intro bytes value parsed
    rw [← Except.ok.inj parsed]
    decide

/-- Surroundings of the sample node: no geometry library and a clock that stands. -/
def hallSite : Site Unit where
  profile := .physical
  resourceRoot := none
  clock := fun _ => 0
  drawing := ⟨fun _ => ⟨0,0⟩,fun _ => .error "Unsupported geometry",fun _ => .error "Unsupported geometry",
    fun _ _ _ => [],fun _ => .error "Unsupported geometry",fun _ => .error "Unsupported geometry",
    fun _ point => point,fun pose _ _ _ => (pose,{},{})⟩
  simulation := ⟨fun _ _ _ _ state => state,fun state => (none,state),fun state => state⟩

/-- Assets of the sample node. -/
def noAssets : SceneCompile.Assets :=
  ⟨fun _ => false,fun _ => false,fun _ => none,fun _ => .missing,fun pose _ => pose⟩

/-- The sample node, which opens. -/
theorem hallNode_opens : (openNode unitExternals hallSite hallArguments (filesOf [] [["scenes"]])
    (newClient unitExternals "hall" noAssets none ())).isOk=true := by
  decide +kernel

/-- The sample node. -/
def hallNode : Node Unit :=
  match openNode unitExternals hallSite hallArguments (filesOf [] [["scenes"]])
    (newClient unitExternals "hall" noAssets none ()) with
  | .ok w => w
  | .error _ => ⟨openStore hallArguments none .null (fun _ => none),filesOf [] [],newClient unitExternals "hall" noAssets none (),[]⟩

/-- A replaced scene is answered once; its value is kept over an undo and a tick,
and the whole run is stable. -/
theorem run_receipts_stable_replace :
    ((publicRequestResult (run (stepNode unitExternals hallSite) hallNode
        [.command {} (sampleRequest "replace" "a" 1 [("document",emptyRoom)]) false,.tick,
          .command {} (sampleRequest "undo" "b" 2 []) false]) "a").map
        (fun value => (value.member "online",(value.member "compiled").isSome))=some (some (.boolean true),true)) ∧
      StableReceipts unitExternals hallSite (run (stepNode unitExternals hallSite) hallNode
        [.command {} (sampleRequest "replace" "a" 1 [("document",emptyRoom)]) false,.tick,
          .command {} (sampleRequest "undo" "b" 2 []) false]) := by
  have opens : openNode unitExternals hallSite hallArguments (filesOf [] [["scenes"]])
      (newClient unitExternals "hall" noAssets none ())=.ok hallNode := by
    have some_ := hallNode_opens
    unfold hallNode
    cases opened : openNode unitExternals hallSite hallArguments (filesOf [] [["scenes"]])
        (newClient unitExternals "hall" noAssets none ()) with
    | ok w => rfl
    | error e =>
      rw [opened] at some_
      cases some_
  refine ⟨by decide +kernel,run_receipts_stable unitExternals_laws opens (by decide) ?_⟩
  intro step member
  simp only [List.mem_cons,List.not_mem_nil,or_false] at member
  rcases member with rfl | rfl | rfl
  · show uniqueKeys _=true
    decide
  · trivial
  · show uniqueKeys _=true
    decide

end Stable

end Ros1Adapter.SceneNodeReplay
