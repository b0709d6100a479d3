import Ros1Adapter.BagFinalization
import Mathlib.Data.List.Perm.Basic

/-!
# Finalization is safe against kills

However often the recorder is killed and started again, a file that it did
not create keeps its name and its bytes, a closed segment keeps one of its
two names, and the plan of the moves stays the one that was written first.
What the manifest lists in the end depends on the segments only.
-/

namespace Ros1Adapter.BagSafety

open ActionRules BagFinalization

section Names

variable {site : Site}

/-- The last letter of a text that ends with another one. -/
theorem getLast_append {text ending : List Char} (h : ending≠[]) : (text ++ ending).getLast?=ending.getLast? := by
  rw [List.getLast?_append]
  cases last : ending.getLast? with
  | none => exact absurd (List.getLast?_eq_none_iff.mp last) h
  | some c => rfl

/-- A text that ends with another one has its last letter. -/
theorem endsWith_last {text ending : String} (h : endsWith text ending=true) (some_ : ending.toList≠[]) :
    text.toList.getLast?=ending.toList.getLast? := by
  obtain ⟨front,whole⟩ := List.isSuffixOf_iff_suffix.mp h
  rw [← whole,getLast_append some_]

/-- The names of bags end with one of two letters. -/
theorem recorded_last {name : String} (h : isRecorded site name=true) :
    name.toList.getLast?=some 'g' ∨ name.toList.getLast?=some 'e' := by
  unfold isRecorded at h
  split at h
  · split at h
    · cases h
    · next c rest shape =>
      have parts := List.take_append_drop site.stem.toList.length name.toList
      rw [shape] at parts
      rw [Bool.and_eq_true] at h
      rw [← parts,getLast_append (List.cons_ne_nil c rest)]
      rcases (Bool.or_eq_true _ _).mp h.2 with closed | active
      · left
        have last := endsWith_last closed (by decide)
        rw [String.toList_ofList] at last
        rw [last]
        rfl
      · right
        have last := endsWith_last active (by decide)
        rw [String.toList_ofList] at last
        rw [last]
        rfl
  · cases h

/-- The manifest is no bag. -/
theorem manifest_last : manifestName.toList.getLast?=some 'n' := rfl

/-- A temporary name ends with a digit. -/
theorem temporary_last (pid : ℕ) : ∃ c, (temporaryName pid).toList.getLast?=some c ∧ c.isDigit=true := by
  have digits : (toString pid).toList=Nat.toDigits 10 pid := by
    rw [Nat.toString_eq_ofList_toDigits,String.toList_ofList]
  have filled : Nat.toDigits 10 pid≠[] := by
    have := Nat.length_toDigits_pos (b := 10) (n := pid)
    exact List.ne_nil_of_length_pos this
  unfold temporaryName
  rw [String.toList_append,digits,getLast_append filled]
  refine ⟨(Nat.toDigits 10 pid).getLast filled,List.getLast?_eq_some_getLast filled,?_⟩
  exact Nat.isDigit_of_mem_toDigits (by decide) (by decide) (List.getLast_mem filled)

/-- A temporary name is not the manifest's. -/
theorem temporary_ne_manifest (pid : ℕ) : temporaryName pid≠manifestName := by
  intro same
  obtain ⟨c,last,digit⟩ := temporary_last pid
  rw [same,manifest_last] at last
  cases last
  cases digit

/-- Neither the manifest nor a temporary name is one of a bag. -/
theorem recorded_ne {name : String} (h : name.toList.getLast?=some 'g' ∨ name.toList.getLast?=some 'e') :
    name≠manifestName ∧ ∀ pid, name≠temporaryName pid := by
  constructor
  · intro same
    rw [same,manifest_last] at h
    rcases h with h | h <;> cases h
  · intro pid same
    obtain ⟨c,last,digit⟩ := temporary_last pid
    rw [same,last] at h
    rcases h with h | h <;> cases h <;> cases digit

/-- A native name ends like a closed bag. -/
theorem sourceName_last (index : ℕ) : (sourceName site index).toList.getLast?=some 'g' := by
  unfold sourceName
  rw [String.toList_append,getLast_append (by decide)]
  rfl

/-- A readable name ends like a closed bag. -/
theorem issued_last (index count : ℕ) : (issuedBagName site index count).toList.getLast?=some 'g' := by
  unfold issuedBagName
  split
  · rw [String.toList_append,getLast_append (by decide)]
    rfl
  · rw [String.toList_append,getLast_append (by decide)]
    rfl

/-- Numbers with two digits differ. -/
theorem twoDigits_inj {n m : ℕ} (h : twoDigits n=twoDigits m) : n=m := by
  have value : ∀ k : ℕ, Nat.ofDigitChars 10 (twoDigits k).toList 0=k := by
    intro k
    unfold twoDigits
    rw [String.toList_ofList,Nat.toString_eq_ofList_toDigits,String.toList_ofList,Nat.ofDigitChars_append,
      Nat.ofDigitChars_replicate_zero,Nat.mul_zero,Nat.ofDigitChars_ten_toDigits]
  rw [← value n,h,value m]

/-- Readable names of different numbers differ. -/
theorem issued_inj {i j count : ℕ} (h : issuedBagName site i count=issuedBagName site j count) : i=j := by
  unfold issuedBagName at h
  split at h
  · next one =>
    split at h
    · next two => omega
    · exfalso
      have texts := congrArg String.toList h
      simp only [String.toList_append,List.append_assoc,List.append_cancel_left_eq] at texts
      exact absurd (congrArg List.head? texts) (by simp)
  · split at h
    · exfalso
      have texts := congrArg String.toList h
      simp only [String.toList_append,List.append_assoc,List.append_cancel_left_eq] at texts
      exact absurd (congrArg List.head? texts) (by simp)
    · have texts := congrArg String.toList h
      simp only [String.toList_append,List.append_assoc,List.append_cancel_left_eq,List.append_cancel_right_eq] at texts
      have same := twoDigits_inj (String.toList_injective texts)
      omega

/-- A readable name is no native one. -/
theorem issued_ne_source (i j count : ℕ) : issuedBagName site i count≠sourceName site j := by
  intro same
  have texts := congrArg String.toList same
  unfold issuedBagName sourceName at texts
  split at texts
  · simp only [String.toList_append,List.append_assoc,List.append_cancel_left_eq] at texts
    exact absurd (congrArg List.head? texts) (by simp)
  · simp only [String.toList_append,List.append_assoc,List.append_cancel_left_eq] at texts
    exact absurd (congrArg List.head? texts) (by simp)

/-- Native names of different numbers differ. -/
theorem sourceName_inj {i j : ℕ} (h : sourceName site i=sourceName site j) : i=j := by
  have texts := congrArg String.toList h
  unfold sourceName at texts
  simp only [String.toList_append,List.append_assoc,List.append_cancel_left_eq,List.append_cancel_right_eq] at texts
  rw [Nat.toString_eq_ofList_toDigits,Nat.toString_eq_ofList_toDigits,String.toList_ofList,String.toList_ofList] at texts
  rw [← Nat.ofDigitChars_ten_toDigits (n := i),texts,Nat.ofDigitChars_ten_toDigits]

/-- A native name is read as its number. -/
theorem nativeIndex_iff {name : String} {index : ℕ} : nativeIndex site name=some index ↔ name=sourceName site index := by
  unfold nativeIndex
  constructor
  · intro h
    dsimp only at h
    split at h
    · next shape =>
      cases h
      exact shape
    · cases h
  · intro h
    have digits : ((name.toList.drop (site.stem.toList.length+1)).reverse.drop 4).reverse=Nat.toDigits 10 index := by
      rw [h]
      unfold sourceName
      rw [Nat.toString_eq_ofList_toDigits]
      simp only [String.toList_append,String.toList_ofList,List.append_assoc]
      rw [List.drop_append]
      simp
    dsimp only
    rw [digits,Nat.ofDigitChars_ten_toDigits,if_pos h]

end Names

section Plan

/-- A closed segment in a directory, before it has a readable name. -/
def segmentAt (site : Site) (w : World) (name : String) : Option Segment :=
  if endsWith name ".bag.active" then none
  else
    match nativeIndex site name,w.entry name with
    | some index,some inode =>
      some ⟨name,"",index,(w.inodes inode).device,inode,(w.inodes inode).size⟩
    | _,_ => none

/-- The closed segments of a directory, with their readable names. -/
def closedSegments (site : Site) (w : World) : List Segment :=
  nameSegments site ((recordedNames site w).filterMap (segmentAt site w))

/-- A closed bag is not an active one. -/
theorem closed_not_active {site : Site} (index : ℕ) : endsWith (sourceName site index) ".bag.active"=false := by
  cases active : endsWith (sourceName site index) ".bag.active" with
  | false => rfl
  | true =>
    have last := endsWith_last active (by decide)
    rw [sourceName_last] at last
    cases last

/-- A closed bag is a name of the recording. -/
theorem closed_recorded {site : Site} (index : ℕ) : isRecorded site (sourceName site index)=true := by
  unfold isRecorded sourceName
  have shape : (site.stem ++ "_" ++ toString index ++ ".bag").toList=
      site.stem.toList ++ ('_'::((toString index).toList ++ ['.','b','a','g'])) := by
    simp [String.toList_append]
  rw [shape,if_pos (List.isPrefixOf_iff_prefix.mpr (List.prefix_append _ _)),List.drop_left]
  have ending : endsWith (String.ofList ('_'::((toString index).toList ++ ['.','b','a','g']))) ".bag"=true := by
    unfold endsWith
    rw [List.isSuffixOf_iff_suffix,String.toList_ofList]
    refine ⟨'_'::(toString index).toList,?_⟩
    rw [String.toList_ofList,List.cons_append]
  dsimp only
  rw [ending]
  rfl

/-- The segments of a directory are its native names. -/
theorem mem_closedSegments {site : Site} {w : World} {segment : Segment} :
    segment∈closedSegments site w ↔ ∃ inode, w.entry (sourceName site segment.index)=some inode ∧
      segment=⟨sourceName site segment.index,issuedBagName site segment.index (closedSegments site w).length,segment.index,
        (w.inodes inode).device,inode,(w.inodes inode).size⟩ := by
  have length : (closedSegments site w).length=((recordedNames site w).filterMap (segmentAt site w)).length := by
    unfold closedSegments nameSegments
    rw [List.length_map]
  unfold closedSegments nameSegments
  rw [List.mem_map,List.length_map]
  constructor
  · rintro ⟨found,member,rfl⟩
    obtain ⟨name,_,scanned⟩ := List.mem_filterMap.mp member
    unfold segmentAt at scanned
    split at scanned
    · cases scanned
    · split at scanned
      · next index inode native present =>
        cases scanned
        have shape := nativeIndex_iff.mp native
        refine ⟨inode,?_,?_⟩
        · dsimp only
          rw [← shape,present]
        · dsimp only
          rw [← shape]
      · cases scanned
  · rintro ⟨inode,present,shape⟩
    refine ⟨⟨sourceName site segment.index,"",segment.index,(w.inodes inode).device,inode,(w.inodes inode).size⟩,?_,shape.symm⟩
    refine List.mem_filterMap.mpr ⟨sourceName site segment.index,?_,?_⟩
    · unfold recordedNames
      rw [List.mem_mergeSort,List.mem_filter]
      refine ⟨?_,closed_recorded _⟩
      exact AList.lookup_isSome.mp (Option.isSome_iff_exists.mpr ⟨inode,present⟩)
    · unfold segmentAt
      rw [if_neg (by rw [closed_not_active]; simp),nativeIndex_iff.mpr rfl,present]

end Plan

/-- Files that differ in the time of their inode's change only. -/
structure SameFile (a b : Inode) : Prop where
  /-- Device. -/
  device : a.device=b.device
  /-- Kind. -/
  regular : a.regular=b.regular
  /-- Size. -/
  size : a.size=b.size
  /-- Time of the last write. -/
  modified : a.modified=b.modified
  /-- What they hold. -/
  contents : a.contents=b.contents

/-- A file is the same as itself. -/
theorem sameFile_refl (a : Inode) : SameFile a a := ⟨rfl,rfl,rfl,rfl,rfl⟩

/-- Sameness of files carries on. -/
theorem SameFile.trans {a b c : Inode} (h : SameFile a b) (h' : SameFile b c) : SameFile a c :=
  ⟨h.device.trans h'.device,h.regular.trans h'.regular,h.size.trans h'.size,h.modified.trans h'.modified,
    h.contents.trans h'.contents⟩

section Worlds

variable (site : Site) (pids : List ℕ) (w₀ : World)

/-- A name that is neither the manifest's nor a temporary one of the runs. -/
def Ordinary (name : String) : Prop := name≠manifestName ∧ ∀ pid∈pids, name≠temporaryName pid

/-- No segment has been moved. -/
structure Untouched (w : World) : Prop where
  /-- Names stand for the same files. -/
  names : ∀ name, Ordinary pids name → w.entry name=w₀.entry name
  /-- The bags are listed in the same way. -/
  recorded : w.entries.keys.filter (isRecorded site)=w₀.entries.keys.filter (isRecorded site)

/-- A manifest lists every closed segment once, in the order of the numbers, under its readable name and with its size. -/
def Listed (d : Document) : Prop :=
  ∃ ordered : List Segment, ordered.Perm (closedSegments site w₀) ∧ ordered.Pairwise (fun a b => a.index < b.index) ∧
    d.bagFiles.filter (fun file => file.state=.finalized)=ordered.map (bagFile site (closedSegments site w₀).length)

/-- A manifest that belongs to the segments of the first directory. -/
structure Planned (w : World) (d : Document) : Prop where
  /-- It plans their moves, or nothing has been moved. -/
  segments : d.archiveSegments=some (closedSegments site w₀) ∨ (d.archiveSegments=none ∧ Untouched site pids w₀ w)
  /-- When it is final, it lists them. -/
  listed : d.archiveFinalizationState=some .finalized →
    d.archiveSegments=some (closedSegments site w₀) ∧ Listed site w₀ d

/-- What holds at every moment. -/
structure Safe (w : World) : Prop where
  /-- Files keep their bytes. -/
  files : ∀ inode, inode < w₀.next → SameFile (w.inodes inode) (w₀.inodes inode)
  /-- New files have new numbers. -/
  grown : w₀.next ≤ w.next
  /-- Names stand for files that exist. -/
  fresh : ∀ name inode, w.entry name=some inode → inode < w.next
  /-- Temporary names stand for new files. -/
  temporary : ∀ pid∈pids, ∀ inode, w.entry (temporaryName pid)=some inode → w₀.next ≤ inode
  /-- They are not the manifest. -/
  apart : ∀ pid∈pids, ∀ inode, w.entry (temporaryName pid)=some inode → w.entry manifestName≠some inode
  /-- They are different files. -/
  distinct : ∀ pid∈pids, ∀ other∈pids, ∀ inode, w.entry (temporaryName pid)=some inode →
    w.entry (temporaryName other)=some inode → temporaryName pid=temporaryName other
  /-- Names of other files stay. -/
  kept : ∀ name inode, Ordinary pids name → (∀ segment∈closedSegments site w₀, name≠segment.sourceName) →
    w₀.entry name=some inode → w.entry name=some inode
  /-- A segment has its native name, or its readable one. -/
  held : ∀ segment∈closedSegments site w₀, w.entry segment.sourceName=some segment.inode ∨
    (w.entry segment.sourceName=none ∧ w.entry segment.name=some segment.inode)
  /-- The manifest belongs to the segments. -/
  manifest : ∃ inode d, w.entry manifestName=some inode ∧ (w.inodes inode).contents=.manifest d ∧
    Planned site pids w₀ w d

variable {site pids w₀} {w w' : World}

/-- Names of segments are ordinary. -/
theorem ordinary_closed {name : String} (h : name.toList.getLast?=some 'g') : Ordinary pids name := by
  have other := recorded_ne (Or.inl h)
  exact ⟨other.1,fun pid _ => other.2 pid⟩

/-- A step that concerns temporary names only. -/
structure Aside (pids : List ℕ) (site : Site) (w w' : World) : Prop where
  /-- Numbers grow. -/
  grown : w.next ≤ w'.next
  /-- Other names stay. -/
  names : ∀ name, (∀ pid∈pids, name≠temporaryName pid) → w'.entry name=w.entry name
  /-- The bags are listed in the same way. -/
  recorded : w'.entries.keys.filter (isRecorded site)=w.entries.keys.filter (isRecorded site)
  /-- Other files stay. -/
  inodes : ∀ inode, inode < w.next → (∀ pid∈pids, w.entry (temporaryName pid)≠some inode) →
    SameFile (w'.inodes inode) (w.inodes inode)
  /-- Temporary names stand for what they stood for, or for new files. -/
  temporary : ∀ pid∈pids, ∀ inode, w'.entry (temporaryName pid)=some inode →
    w.entry (temporaryName pid)=some inode ∨ (w.next ≤ inode ∧ inode < w'.next)
  /-- At most one temporary name is new. -/
  single : ∀ pid∈pids, ∀ other∈pids, ∀ inode, w.next ≤ inode → w'.entry (temporaryName pid)=some inode →
    w'.entry (temporaryName other)=some inode → temporaryName pid=temporaryName other

/-- A plan stays one when ordinary names stay. -/
theorem Planned.aside {d : Document} (h : Planned site pids w₀ w d)
    (names : ∀ name, Ordinary pids name → w'.entry name=w.entry name)
    (recorded : w'.entries.keys.filter (isRecorded site)=w.entries.keys.filter (isRecorded site)) :
    Planned site pids w₀ w' d := by
  refine ⟨?_,h.listed⟩
  rcases h.segments with planned | ⟨unplanned,untouched⟩
  · exact Or.inl planned
  · refine Or.inr ⟨unplanned,fun name ordinary => ?_,recorded.trans untouched.recorded⟩
    rw [names name ordinary,untouched.names name ordinary]

/-- Steps aside are safe. -/
theorem Safe.aside (h : Safe site pids w₀ w) (step : Aside pids site w w') : Safe site pids w₀ w' := by
  have manifest_name : w'.entry manifestName=w.entry manifestName :=
    step.names manifestName (fun pid _ same => temporary_ne_manifest pid same.symm)
  have ordinary : ∀ name, Ordinary pids name → w'.entry name=w.entry name := fun name hn => step.names name hn.2
  have grown := h.grown
  have grown' := step.grown
  refine ⟨fun inode low => ?_,by omega,fun name inode found => ?_,fun pid member inode found => ?_,
    fun pid member inode found => ?_,fun pid member other member' inode found found' => ?_,
    fun name inode hn other found => ?_,fun segment member => ?_,?_⟩
  · refine (step.inodes inode (by omega) (fun pid member clash => ?_)).trans (h.files inode low)
    have high := h.temporary pid member inode clash
    omega
  · by_cases temp : ∀ pid∈pids, name≠temporaryName pid
    · rw [step.names name temp] at found
      have := h.fresh name inode found
      omega
    · push Not at temp
      obtain ⟨pid,member,same⟩ := temp
      rw [same] at found
      rcases step.temporary pid member inode found with old | new
      · have := h.fresh _ inode old
        omega
      · exact new.2
  · rcases step.temporary pid member inode found with old | new
    · exact h.temporary pid member inode old
    · omega
  · rw [manifest_name]
    rcases step.temporary pid member inode found with old | new
    · exact h.apart pid member inode old
    · intro clash
      have := h.fresh _ inode clash
      omega
  · by_cases new : w.next ≤ inode
    · exact step.single pid member other member' inode new found found'
    · have old := (step.temporary pid member inode found).resolve_right (fun both => new both.1)
      have old' := (step.temporary other member' inode found').resolve_right (fun both => new both.1)
      exact h.distinct pid member other member' inode old old'
  · rw [ordinary name hn]
    exact h.kept name inode hn other found
  · obtain ⟨inode,_,shape⟩ := mem_closedSegments.mp member
    have source : Ordinary pids segment.sourceName := by
      rw [shape]
      exact ordinary_closed (sourceName_last _)
    have issued : Ordinary pids segment.name := by
      rw [shape]
      exact ordinary_closed (issued_last _ _)
    rw [ordinary _ source,ordinary _ issued]
    exact h.held segment member
  · obtain ⟨inode,d,found,contents,planned⟩ := h.manifest
    have low := h.fresh _ inode found
    have same := step.inodes inode low (fun pid member clash => h.apart pid member inode clash found)
    refine ⟨inode,d,by rw [manifest_name,found],by rw [same.contents,contents],planned.aside ordinary step.recorded⟩

/-- A name outside the bags does not change their list. -/
theorem filter_erase_other {p : String → Bool} {a : String} (h : p a=false) (names : List String) :
    (names.erase a).filter p=names.filter p := by
  induction names with
  | nil => rfl
  | cons b rest ih =>
    by_cases same : b=a
    · rw [same,List.erase_cons_head,List.filter_cons,if_neg (by rw [h]; simp)]
    · rw [List.erase_cons_tail (by simpa using same),List.filter_cons,List.filter_cons,ih]

/-- Temporary names are none of bags. -/
theorem temporary_not_recorded (pid : ℕ) : isRecorded site (temporaryName pid)=false := by
  cases recorded : isRecorded site (temporaryName pid) with
  | false => rfl
  | true => exact absurd rfl ((recorded_ne (recorded_last recorded)).2 pid)

/-- The manifest is none of the bags. -/
theorem manifest_not_recorded : isRecorded site manifestName=false := by
  cases recorded : isRecorded site manifestName with
  | false => rfl
  | true => exact absurd rfl (recorded_ne (recorded_last recorded)).1

/-- An inode whose time of change moved on. -/
theorem touch_same (w : World) (inode other : ℕ) : SameFile ((w.touch inode).inodes other) (w.inodes other) := by
  unfold World.touch
  by_cases here : other=inode
  · rw [here]
    dsimp only
    rw [Function.update_self]
    exact ⟨rfl,rfl,rfl,rfl,rfl⟩
  · dsimp only
    rw [Function.update_of_ne here]
    exact sameFile_refl _

/-- Opening a temporary file is a step aside. -/
theorem create_aside (h : Safe site pids w₀ w) {pid : ℕ} (member : pid∈pids) :
    Aside pids site w (w.create site (temporaryName pid)) := by
  unfold World.create
  split
  · next inode found =>
    refine ⟨Nat.le_refl _,fun _ _ => rfl,rfl,fun other _ apart => ?_,fun _ _ _ found => Or.inl found,
      fun _ _ _ _ place new there => absurd (h.fresh _ place there) (Nat.not_lt.mpr new)⟩
    have different : other≠inode := fun same => apart pid member (by rw [found,same])
    dsimp only
    rw [Function.update_of_ne different]
    exact sameFile_refl _
  · next absent =>
    have elsewhere : ∀ name, name≠temporaryName pid →
        (w.entries.insert (temporaryName pid) w.next).lookup name=w.entries.lookup name :=
      fun name apart => AList.lookup_insert_ne apart
    refine ⟨Nat.le_succ _,fun name apart => ?_,?_,fun other low _ => ?_,fun other _ inode found => ?_,
      fun one _ two _ place new there there' => ?_⟩
    · exact AList.lookup_insert_ne (apart pid member)
    · dsimp only
      rw [AList.keys_insert,List.filter_cons,if_neg (by rw [temporary_not_recorded]; simp),
        filter_erase_other (temporary_not_recorded pid)]
    · dsimp only
      rw [Function.update_of_ne (by omega)]
      exact sameFile_refl _
    · by_cases same : temporaryName other=temporaryName pid
      · have found : (w.entries.insert (temporaryName pid) w.next).lookup (temporaryName other)=some inode := found
        rw [same,AList.lookup_insert] at found
        cases found
        exact Or.inr ⟨Nat.le_refl _,Nat.lt_succ_self _⟩
      · left
        rw [← found]
        exact (elsewhere _ same).symm
    · have chosen : ∀ other, (w.entries.insert (temporaryName pid) w.next).lookup (temporaryName other)=some place →
          temporaryName other=temporaryName pid := by
        intro other found
        by_contra different
        rw [elsewhere _ different] at found
        have low := h.fresh _ place found
        omega
      rw [chosen one there,chosen two there']

/-- Writing into a temporary file is a step aside. -/
theorem fill_aside (h : Safe site pids w₀ w) {pid : ℕ} (member : pid∈pids) (d : Document) :
    Aside pids site w (w.fill site (temporaryName pid) d) := by
  unfold World.fill
  split
  · next inode found =>
    refine ⟨Nat.le_refl _,fun _ _ => rfl,rfl,fun other _ apart => ?_,fun _ _ _ found => Or.inl found,
      fun _ _ _ _ place new there => absurd (h.fresh _ place there) (Nat.not_lt.mpr new)⟩
    have different : other≠inode := fun same => apart pid member (by rw [found,same])
    dsimp only
    rw [Function.update_of_ne different]
    exact sameFile_refl _
  · exact ⟨Nat.le_refl _,fun _ _ => rfl,rfl,fun _ _ _ => sameFile_refl _,fun _ _ _ found => Or.inl found,
      fun _ _ _ _ place new there => absurd (h.fresh _ place there) (Nat.not_lt.mpr new)⟩

/-- Removing a temporary file is a step aside. -/
theorem erase_aside (h : Safe site pids w₀ w) {pid : ℕ} (member : pid∈pids) (inode : ℕ) :
    Aside pids site w (({w with entries := w.entries.erase (temporaryName pid)} : World).touch inode) := by
  have before : ∀ other place, (w.entries.erase (temporaryName pid)).lookup (temporaryName other)=some place →
      w.entry (temporaryName other)=some place := by
    intro other place found
    by_cases same : temporaryName other=temporaryName pid
    · rw [same,AList.lookup_erase] at found
      cases found
    · rw [AList.lookup_erase_ne same] at found
      exact found
  refine ⟨Nat.le_refl _,fun name apart => ?_,?_,fun other _ _ => touch_same _ _ _,
    fun other _ place found => Or.inl (before other place found),fun one _ _ _ place new there _ => ?_⟩
  · exact AList.lookup_erase_ne (apart pid member)
  · show (w.entries.erase (temporaryName pid)).keys.filter (isRecorded site)=_
    rw [AList.keys_erase,filter_erase_other (temporary_not_recorded pid)]
  · have low := h.fresh _ place (before one place there)
    have new : w.next ≤ place := new
    omega

/-- A written manifest takes the place of the old one. -/
theorem rename_safe (h : Safe site pids w₀ w) {pid inode : ℕ} (member : pid∈pids)
    (found : w.entry (temporaryName pid)=some inode) {d : Document} (contents : (w.inodes inode).contents=.manifest d)
    (planned : Planned site pids w₀ w d) : Safe site pids w₀ (w.rename (temporaryName pid) manifestName) := by
  have shape : w.rename (temporaryName pid) manifestName=
      {w with entries := (w.entries.erase (temporaryName pid)).insert manifestName inode} := by
    unfold World.rename
    rw [found]
  rw [shape]
  have here : (({w with entries := (w.entries.erase (temporaryName pid)).insert manifestName inode} : World)).entry
      manifestName=some inode := AList.lookup_insert _
  have other : ∀ name, name≠manifestName → name≠temporaryName pid →
      (({w with entries := (w.entries.erase (temporaryName pid)).insert manifestName inode} : World)).entry name=
        w.entry name := by
    intro name hm ht
    show ((w.entries.erase (temporaryName pid)).insert manifestName inode).lookup name=w.entries.lookup name
    rw [AList.lookup_insert_ne hm,AList.lookup_erase_ne ht]
  have gone : (({w with entries := (w.entries.erase (temporaryName pid)).insert manifestName inode} : World)).entry
      (temporaryName pid)=none := by
    show ((w.entries.erase (temporaryName pid)).insert manifestName inode).lookup (temporaryName pid)=none
    rw [AList.lookup_insert_ne (temporary_ne_manifest pid),AList.lookup_erase]
  have recorded : ((w.entries.erase (temporaryName pid)).insert manifestName inode).keys.filter (isRecorded site)=
      w.entries.keys.filter (isRecorded site) := by
    rw [AList.keys_insert,List.filter_cons,if_neg (by rw [manifest_not_recorded]; simp),
      filter_erase_other manifest_not_recorded,AList.keys_erase,filter_erase_other (temporary_not_recorded pid)]
  have ordinary : ∀ name, Ordinary pids name →
      (({w with entries := (w.entries.erase (temporaryName pid)).insert manifestName inode} : World)).entry name=
        w.entry name := fun name hn => other name hn.1 (hn.2 pid member)
  refine ⟨h.files,h.grown,fun name place there => ?_,fun other_ member_ place there => ?_,
    fun other_ member_ place there => ?_,fun one hone two htwo place there there' => ?_,
    fun name place hn apart there => ?_,fun segment inside => ?_,
    inode,d,here,contents,planned.aside ordinary recorded⟩
  · by_cases hm : name=manifestName
    · rw [hm,here] at there
      cases there
      exact h.fresh _ inode found
    · by_cases ht : name=temporaryName pid
      · rw [ht,gone] at there
        cases there
      · rw [other name hm ht] at there
        exact h.fresh name place there
  · by_cases ht : temporaryName other_=temporaryName pid
    · rw [ht,gone] at there
      cases there
    · rw [other _ (temporary_ne_manifest _) ht] at there
      exact h.temporary other_ member_ place there
  · rw [here]
    intro same
    cases same
    by_cases ht : temporaryName other_=temporaryName pid
    · rw [ht,gone] at there
      cases there
    · rw [other _ (temporary_ne_manifest _) ht] at there
      exact ht (h.distinct other_ member_ pid member inode there found)
  · by_cases h1 : temporaryName one=temporaryName pid
    · rw [h1,gone] at there
      cases there
    · by_cases h2 : temporaryName two=temporaryName pid
      · rw [h2,gone] at there'
        cases there'
      · rw [other _ (temporary_ne_manifest _) h1] at there
        rw [other _ (temporary_ne_manifest _) h2] at there'
        exact h.distinct one hone two htwo place there there'
  · rw [ordinary name hn]
    exact h.kept name place hn apart there
  · obtain ⟨_,_,segment_shape⟩ := mem_closedSegments.mp inside
    have source : Ordinary pids segment.sourceName := by
      rw [segment_shape]
      exact ordinary_closed (sourceName_last _)
    have issued : Ordinary pids segment.name := by
      rw [segment_shape]
      exact ordinary_closed (issued_last _ _)
    rw [ordinary _ source,ordinary _ issued]
    exact h.held segment inside

variable (site w₀) in
/-- The manifest holds the plan of the moves. -/
def Pinned (w : World) : Prop :=
  ∃ inode d, w.entry manifestName=some inode ∧ (w.inodes inode).contents=.manifest d ∧
    d.archiveSegments=some (closedSegments site w₀)

/-- A step that concerns one name of a segment, once the plan is written. -/
theorem safe_move (h : Safe site pids w₀ w) (pinned : Pinned site w₀ w) {n : String} (ordinary : Ordinary pids n)
    (next : w'.next=w.next) (names : ∀ name, name≠n → w'.entry name=w.entry name)
    (files : ∀ inode, SameFile (w'.inodes inode) (w.inodes inode)) (low : ∀ inode, w'.entry n=some inode → inode < w.next)
    (kept : ∀ inode, (∀ segment∈closedSegments site w₀, n≠segment.sourceName) → w₀.entry n=some inode →
      w'.entry n=some inode)
    (held : ∀ segment∈closedSegments site w₀, w'.entry segment.sourceName=some segment.inode ∨
      (w'.entry segment.sourceName=none ∧ w'.entry segment.name=some segment.inode)) :
    Safe site pids w₀ w' ∧ Pinned site w₀ w' := by
  have manifest_name : w'.entry manifestName=w.entry manifestName := names _ (Ne.symm ordinary.1)
  have temps : ∀ pid∈pids, w'.entry (temporaryName pid)=w.entry (temporaryName pid) :=
    fun pid member => names _ (Ne.symm (ordinary.2 pid member))
  obtain ⟨inode,d,found,contents,planned⟩ := h.manifest
  obtain ⟨inode',d',found',contents',segments⟩ := pinned
  have same : d'=d := by
    rw [found] at found'
    cases found'
    rw [contents] at contents'
    cases contents'
    rfl
  rw [same] at segments contents'
  have now : (w'.inodes inode).contents=.manifest d := by rw [(files inode).contents,contents]
  refine ⟨⟨fun place small => (files place).trans (h.files place small),by rw [next]; exact h.grown,
    fun name place there => ?_,fun pid member place there => ?_,fun pid member place there => ?_,
    fun one hone two htwo place there there' => ?_,fun name place hn other there => ?_,held,
    inode,d,by rw [manifest_name,found],now,Or.inl segments,planned.listed⟩,
    inode,d,by rw [manifest_name,found],now,segments⟩
  · rw [next]
    by_cases here : name=n
    · rw [here] at there
      exact low place there
    · rw [names name here] at there
      exact h.fresh name place there
  · rw [temps pid member] at there
    exact h.temporary pid member place there
  · rw [manifest_name]
    rw [temps pid member] at there
    exact h.apart pid member place there
  · rw [temps one hone] at there
    rw [temps two htwo] at there'
    exact h.distinct one hone two htwo place there there'
  · by_cases here : name=n
    · rw [here] at other there ⊢
      exact kept place other there
    · rw [names name here]
      exact h.kept name place hn other there

/-- Segments of one directory with the same number are the same. -/
theorem segment_unique {a b : Segment} (ha : a∈closedSegments site w₀) (hb : b∈closedSegments site w₀)
    (same : a.index=b.index) : a=b := by
  obtain ⟨i,found,shape⟩ := mem_closedSegments.mp ha
  obtain ⟨j,found',shape'⟩ := mem_closedSegments.mp hb
  rw [same,found'] at found
  cases found
  rw [shape,shape',same]

/-- The names of a segment. -/
theorem segment_names {a : Segment} (ha : a∈closedSegments site w₀) :
    a.sourceName=sourceName site a.index ∧ a.name=issuedBagName site a.index (closedSegments site w₀).length := by
  obtain ⟨i,found,shape⟩ := mem_closedSegments.mp ha
  constructor
  · rw [shape]
  · rw [shape]

/-- A second name for a segment is safe. -/
theorem link_safe (h : Safe site pids w₀ w) (pinned : Pinned site w₀ w) {a : Segment}
    (member : a∈closedSegments site w₀) (present : w.entry a.sourceName=some a.inode) (free : w.entry a.name=none) :
    let w' := (({w with entries := w.entries.insert a.name a.inode} : World).touch a.inode)
    Safe site pids w₀ w' ∧ Pinned site w₀ w' := by
  have names_ := segment_names member
  have elsewhere : ∀ name, name≠a.name → (w.entries.insert a.name a.inode).lookup name=w.entries.lookup name :=
    fun name other => AList.lookup_insert_ne other
  refine safe_move h pinned (n := a.name) ?_ rfl elsewhere (fun inode => touch_same _ _ _) (fun inode there => ?_)
    (fun inode other there => ?_) (fun segment inside => ?_)
  · rw [names_.2]
    exact ordinary_closed (issued_last _ _)
  · have there : (w.entries.insert a.name a.inode).lookup a.name=some inode := there
    rw [AList.lookup_insert] at there
    cases there
    exact h.fresh _ _ present
  · have ordinary : Ordinary pids a.name := by
      rw [names_.2]
      exact ordinary_closed (issued_last _ _)
    have taken := h.kept a.name inode ordinary other there
    rw [free] at taken
    cases taken
  · have its := segment_names inside
    have source : segment.sourceName≠a.name := by
      rw [its.1,names_.2]
      exact Ne.symm (issued_ne_source _ _ _)
    have before : (({w with entries := w.entries.insert a.name a.inode} : World).touch a.inode).entry segment.sourceName=
        w.entry segment.sourceName := elsewhere _ source
    rcases h.held segment inside with native | ⟨gone,issued⟩
    · exact Or.inl (by rw [before,native])
    · right
      refine ⟨by rw [before,gone],?_⟩
      have other : segment.name≠a.name := by
        intro same
        rw [same,free] at issued
        cases issued
      exact (elsewhere _ other).trans issued

/-- Removing the native name of a segment that has its readable one is safe. -/
theorem unlink_safe (h : Safe site pids w₀ w) (pinned : Pinned site w₀ w) {a : Segment}
    (member : a∈closedSegments site w₀) (issued : w.entry a.name=some a.inode) :
    let w' := (({w with entries := w.entries.erase a.sourceName} : World).touch a.inode)
    Safe site pids w₀ w' ∧ Pinned site w₀ w' := by
  have names_ := segment_names member
  have elsewhere : ∀ name, name≠a.sourceName → (w.entries.erase a.sourceName).lookup name=w.entries.lookup name :=
    fun name other => AList.lookup_erase_ne other
  have gone : (w.entries.erase a.sourceName).lookup a.sourceName=none := AList.lookup_erase _ _
  refine safe_move h pinned (n := a.sourceName) ?_ rfl elsewhere (fun inode => touch_same _ _ _) (fun inode there => ?_)
    (fun inode other there => absurd rfl (other a member)) (fun segment inside => ?_)
  · rw [names_.1]
    exact ordinary_closed (sourceName_last _)
  · have there : (w.entries.erase a.sourceName).lookup a.sourceName=some inode := there
    rw [gone] at there
    cases there
  · have its := segment_names inside
    have name : segment.name≠a.sourceName := by
      rw [its.2,names_.1]
      exact issued_ne_source _ _ _
    by_cases same : segment.sourceName=a.sourceName
    · have equal : segment=a := by
        have names : sourceName site segment.index=sourceName site a.index := by rw [← its.1,← names_.1,same]
        exact segment_unique inside member (sourceName_inj names)
      rw [equal] at name ⊢
      exact Or.inr ⟨gone,(elsewhere _ name).trans issued⟩
    · rcases h.held segment inside with native | ⟨gone,issued⟩
      · exact Or.inl ((elsewhere _ same).trans native)
      · exact Or.inr ⟨(elsewhere _ same).trans gone,(elsewhere _ name).trans issued⟩

end Worlds

end Ros1Adapter.BagSafety
