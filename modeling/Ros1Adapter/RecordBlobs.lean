import Ros1Adapter.RecordHistory
import Mathlib.Data.List.Nodup

/-!
# Payloads kept beside a recording

Every payload gets a file of its own, named by the number of payloads before
it. The recorder's account of them (digests, paths, total size) agrees with the
directory as long as nobody else writes there, also when a file could not be
written or was left half written.
-/

namespace Ros1Adapter.RecordBlobs

open ActionRules SceneJson RecordFacts

variable {lib : Library}

section Paths

/-- The path of a payload with a number. -/
def relativePath (label : String) (number : ℕ) (suffix : String) : String :=
  "record-facts/" ++ cleanLabel label ++ "-revision-" ++ sixDigits number ++ cleanSuffix suffix

/-- A list splits in one way at the last place of a letter. -/
theorem split_last {c : Char} {before before' after after' : List Char} (h : c∉after) (h' : c∉after')
    (same : before ++ c::after=before' ++ c::after') : before=before' ∧ after=after' := by
  rcases List.append_eq_append_iff.mp same with ⟨middle,shape,rest⟩ | ⟨middle,shape,rest⟩
  · cases middle with
    | nil =>
      rw [List.append_nil] at shape
      exact ⟨shape.symm,(List.cons.inj rest).2⟩
    | cons first middle =>
      have later : after=middle ++ c::after' := (List.cons.inj rest).2
      exact absurd (by simp [later]) h
  · cases middle with
    | nil =>
      rw [List.append_nil] at shape
      exact ⟨shape,(List.cons.inj rest).2.symm⟩
    | cons first middle =>
      have later : after'=middle ++ c::after := (List.cons.inj rest).2
      exact absurd (by simp [later]) h'

/-- An ending has one dot, in front. -/
theorem cleanSuffix_dot (suffix : String) : ∃ rest, (cleanSuffix suffix).toList=('.')::rest ∧ ('.')∉rest := by
  unfold cleanSuffix
  split
  · next rest shape =>
    split
    · next allowed =>
      refine ⟨rest,shape,fun dot => ?_⟩
      have letter := List.all_eq_true.mp allowed.2.2 _ dot
      cases letter
    · exact ⟨['d','a','t','a'],rfl,by decide⟩
  · exact ⟨['d','a','t','a'],rfl,by decide⟩

/-- The digits of a padded number. -/
theorem sixDigits_toList (n : ℕ) :
    (sixDigits n).toList=List.replicate (6-(Nat.toDigits 10 n).length) ('0') ++ Nat.toDigits 10 n := by
  unfold sixDigits
  rw [String.toList_ofList,Nat.toString_eq_ofList_toDigits,String.toList_ofList]

/-- A padded number has no dash. -/
theorem sixDigits_dash (n : ℕ) : ('-')∉(sixDigits n).toList := by
  rw [sixDigits_toList]
  intro dash
  rcases List.mem_append.mp dash with padding | digit
  · cases (List.mem_replicate.mp padding).2
  · have := Nat.isDigit_of_mem_toDigits (b := 10) (by decide) (by decide) digit
    cases this

/-- Padded numbers differ. -/
theorem sixDigits_inj {n m : ℕ} (h : (sixDigits n).toList=(sixDigits m).toList) : n=m := by
  have value : ∀ k : ℕ, Nat.ofDigitChars 10 (sixDigits k).toList 0=k := by
    intro k
    rw [sixDigits_toList,Nat.ofDigitChars_append,Nat.ofDigitChars_replicate_zero,Nat.mul_zero,
      Nat.ofDigitChars_ten_toDigits]
  rw [← value n,h,value m]

/-- Payloads with different numbers have different paths, whatever their labels and endings. -/
theorem relativePath_number {label label' suffix suffix' : String} {n m : ℕ}
    (h : relativePath label n suffix=relativePath label' m suffix') : n=m := by
  obtain ⟨rest,ending,single⟩ := cleanSuffix_dot suffix
  obtain ⟨rest',ending',single'⟩ := cleanSuffix_dot suffix'
  have texts := congrArg String.toList h
  unfold relativePath at texts
  simp only [String.toList_append,ending,ending'] at texts
  have stems := (split_last single single' texts).1
  have dashed : ∀ label : String, ("record-facts/".toList ++ (cleanLabel label).toList) ++ "-revision-".toList=
      ("record-facts/".toList ++ (cleanLabel label).toList ++ "-revision".toList) ++ ['-'] := by
    intro label
    rw [List.append_assoc _ "-revision".toList]
    rfl
  rw [dashed,dashed,List.append_assoc _ ['-'],List.append_assoc _ ['-']] at stems
  exact sixDigits_inj (split_last (sixDigits_dash n) (sixDigits_dash m) stems).2

end Paths

section Store

/-- Why a payload is not kept. -/
def refusal (lib : Library) (s : State) (disk : Disk) (data : List UInt8) : Option Failure :=
  if maxBytes < data.length then some (valueError "fact-payload-too-large")
  else if lib.sha256 data∉s.storedHashes ∧ maxTotalBytes < s.storedBytes+data.length then
    some (valueError "fact-byte-budget-exhausted")
  else
    match disk.keep data with
    | .error failure => some failure
    | .ok _ => none

/-- The path of a payload: the one it has, or the next number's. -/
def pathOf (lib : Library) (s : State) (data : List UInt8) (label suffix : String) : String :=
  (s.storedPaths.lookup (lib.sha256 data)).getD (relativePath label (s.storedHashes.length+1) suffix)

/-- The account once a payload is kept. -/
def keep (lib : Library) (s : State) (data : List UInt8) (label suffix : String) : State :=
  if lib.sha256 data∈s.storedHashes then s
  else {s with
    storedHashes := lib.sha256 data::s.storedHashes
    storedPaths := (lib.sha256 data,pathOf lib s data label suffix)::s.storedPaths
    storedBytes := s.storedBytes+data.length}

/-- The store refuses and changes nothing, or keeps the payload at its path. -/
theorem store_eq (lib : Library) (disk : Disk) (data : List UInt8) (label suffix : String) (s : State) :
    store lib disk data label suffix s=
      match refusal lib s disk data with
      | some failure => .error failure s
      | none => .ok ⟨pathOf lib s data label suffix,lib.sha256 data,data.length⟩ (keep lib s data label suffix) := by
  unfold store refusal
  by_cases large : maxBytes < data.length
  · rw [if_pos large,if_pos large]
    rfl
  · rw [if_neg large,if_neg large]
    change (if lib.sha256 data∉s.storedHashes ∧ maxTotalBytes < s.storedBytes+data.length then
      (throw (valueError "fact-byte-budget-exhausted") : Observer Content) else _) s=_
    split
    · rfl
    · cases result : disk.keep data with
      | error failure => rfl
      | ok _ =>
        unfold keep
        by_cases known : lib.sha256 data∈s.storedHashes
        · rw [if_pos known]
          simp only [known,not_true_eq_false,if_false]
          rfl
        · rw [if_neg known]
          simp only [known,not_false_eq_true,if_true]
          rfl

end Store

section Directory

/-- Regular files below the recording. -/
abbrev Files : Type := String → Option (List UInt8)

/-- What the file system does with a payload at a path while nobody else writes there, and the files afterwards. -/
inductive Serves (files : Files) (path : String) (data : List UInt8) : Disk → Files → Prop where
  /-- A new file is written. -/
  | created (absent : files path=none) : Serves files path data .created (Function.update files path (some data))
  /-- A file is there and is read. -/
  | existing (found : List UInt8) (there : files path=some found) : Serves files path data (.existing true found) files
  /-- Something else is there. -/
  | special (found : List UInt8) (absent : files path=none) : Serves files path data (.existing false found) files
  /-- The directory is something else. -/
  | notDirectory : Serves files path data .notDirectory files
  /-- A call raises and leaves nothing behind. -/
  | raised (failure : Failure) : Serves files path data (.raised failure) files
  /-- A call raises while a new file is written, and the file cannot be removed. -/
  | remains (failure : Failure) (part : List UInt8) (absent : files path=none) :
    Serves files path data (.raised failure) (Function.update files path (some part))

/-- Files keep their bytes. -/
def Kept (files files' : Files) : Prop := ∀ path data, files path=some data → files' path=some data

/-- A new file changes no other. -/
theorem kept_update {files : Files} {path : String} (absent : files path=none) (data : List UInt8) :
    Kept files (Function.update files path (some data)) := by
  intro other bytes there
  have apart : other≠path := by
    rintro rfl
    rw [absent] at there
    cases there
  rw [Function.update_of_ne apart]
  exact there

/-- The file system changes no file that is there. -/
theorem Serves.kept {files files' : Files} {path : String} {data : List UInt8} {disk : Disk}
    (h : Serves files path data disk files') : Kept files files' := by
  cases h with
  | created absent => exact kept_update absent data
  | existing | special | notDirectory | raised => exact fun _ _ there => there
  | remains _ part absent => exact kept_update absent part

/-- A payload that is kept is what its file holds. -/
theorem Serves.holds {files files' : Files} {path : String} {data : List UInt8} {disk : Disk}
    (h : Serves files path data disk files') (small : data.length ≤ maxBytes) (kept : disk.keep data=.ok ()) :
    files' path=some data ∧ ∀ found, files path=some found → found=data := by
  cases h with
  | created absent =>
    refine ⟨Function.update_self ..,fun found there => ?_⟩
    rw [absent] at there
    cases there
  | existing found there =>
    unfold Disk.keep at kept
    dsimp only at kept
    split at kept
    · cases kept
    · split at kept
      · cases kept
      · next same =>
        rw [not_not] at same
        have whole : found=data := by
          have length := congrArg List.length same
          rw [List.length_take] at length
          rw [← same,List.take_of_length_le (by omega)]
        rw [← whole]
        exact ⟨there,fun other here => by rw [there] at here; exact (Option.some.inj here).symm⟩
  | special | notDirectory | raised | remains => cases kept

/-- The payloads that are kept, newest first. -/
def stored (files : Files) (s : State) : List (List UInt8) := s.storedPaths.filterMap (fun entry => files entry.2)

/-- The account of the payloads agrees with the directory. -/
structure Ledger (lib : Library) (files : Files) (s : State) : Prop where
  /-- Digests and paths go together. -/
  hashes : s.storedHashes=s.storedPaths.map Prod.fst
  /-- Every digest is there once. -/
  digests : (s.storedPaths.map Prod.fst).Nodup
  /-- No two digests share a path. -/
  paths : (s.storedPaths.map Prod.snd).Nodup
  /-- Numbers stay below the next one. -/
  numbered : ∀ entry∈s.storedPaths, ∃ label number suffix, number ≤ s.storedPaths.length ∧
    entry.2=relativePath label number suffix
  /-- Every path has a file with the digest. -/
  filed : ∀ entry∈s.storedPaths, ∃ data, files entry.2=some data ∧ lib.sha256 data=entry.1
  /-- The total is that of the files. -/
  bytes : s.storedBytes=((stored files s).map List.length).sum
  /-- It stays within its bound. -/
  bounded : s.storedBytes ≤ maxTotalBytes

/-- The part of the state that the account is. -/
def books (s : State) : ℕ × List String × List (String × String) := (s.storedBytes,s.storedHashes,s.storedPaths)

/-- States with the same account. -/
theorem books_eq {s t : State} (h : books t=books s) :
    t.storedBytes=s.storedBytes ∧ t.storedHashes=s.storedHashes ∧ t.storedPaths=s.storedPaths :=
  ⟨congrArg (fun b => b.1) h,congrArg (fun b => b.2.1) h,congrArg (fun b => b.2.2) h⟩

/-- The account is all that matters. -/
theorem Ledger.congr {files : Files} {s t : State} (h : Ledger lib files s) (same : books t=books s) :
    Ledger lib files t := by
  obtain ⟨bytes,hashes,paths⟩ := books_eq same
  constructor
  · rw [hashes,paths]
    exact h.hashes
  · rw [paths]
    exact h.digests
  · rw [paths]
    exact h.paths
  · rw [paths]
    exact h.numbered
  · rw [paths]
    exact h.filed
  · unfold stored
    rw [bytes,paths]
    exact h.bytes
  · rw [bytes]
    exact h.bounded

/-- Other files do not matter. -/
theorem Ledger.kept {files files' : Files} {s : State} (h : Ledger lib files s) (kept : Kept files files') :
    Ledger lib files' s := by
  have same : stored files' s=stored files s := by
    refine List.filterMap_congr fun entry listed => ?_
    obtain ⟨data,there,_⟩ := h.filed entry listed
    rw [there,kept _ _ there]
  refine ⟨h.hashes,h.digests,h.paths,h.numbered,fun entry listed => ?_,?_,h.bounded⟩
  · obtain ⟨data,there,digest⟩ := h.filed entry listed
    exact ⟨data,kept _ _ there,digest⟩
  · rw [same]
    exact h.bytes

/-- The digests are those of the payloads. -/
theorem Ledger.stored_digests {files : Files} {s : State} (h : Ledger lib files s) :
    (stored files s).map lib.sha256=s.storedHashes := by
  rw [h.hashes]
  unfold stored
  have filed := h.filed
  revert filed
  induction s.storedPaths with
  | nil => exact fun _ => rfl
  | cons entry rest ih =>
    intro filed
    obtain ⟨data,there,digest⟩ := filed entry (List.mem_cons_self ..)
    have rest := ih (fun other listed => filed other (List.mem_cons_of_mem _ listed))
    rw [List.filterMap_cons,there,List.map_cons,List.map_cons,digest,rest]

/-- Every payload is kept once. -/
theorem Ledger.stored_nodup {files : Files} {s : State} (h : Ledger lib files s) : (stored files s).Nodup := by
  apply List.Nodup.of_map lib.sha256
  rw [h.stored_digests,h.hashes]
  exact h.digests

/-- A content is listed, and its file has the bytes it names. -/
structure Filed (lib : Library) (files : Files) (s : State) (content : Content) : Prop where
  /-- The digest has this path. -/
  listed : (content.sha256,content.relativePath)∈s.storedPaths
  /-- The file is there. -/
  file : ∃ data, files content.relativePath=some data ∧ lib.sha256 data=content.sha256 ∧ data.length=content.sizeBytes

/-- A content stays in its file. -/
theorem Filed.kept {files files' : Files} {s t : State} {content : Content} (h : Filed lib files s content)
    (kept : Kept files files') (listed : ∀ entry∈s.storedPaths, entry∈t.storedPaths) : Filed lib files' t content := by
  obtain ⟨data,there,digest,size⟩ := h.file
  exact ⟨listed _ h.listed,data,kept _ _ there,digest,size⟩

/-- Contents share a path exactly when they share a digest. -/
theorem Ledger.shares {files : Files} {s : State} (h : Ledger lib files s) {c c' : Content} (hc : Filed lib files s c)
    (hc' : Filed lib files s c') : c.sha256=c'.sha256 ↔ c.relativePath=c'.relativePath := by
  constructor
  · intro same
    have pair := List.inj_on_of_nodup_map h.digests hc.listed hc'.listed same
    exact congrArg Prod.snd pair
  · intro same
    have pair := List.inj_on_of_nodup_map h.paths hc.listed hc'.listed same
    exact congrArg Prod.fst pair

/-- What a payload that is not refused has passed. -/
theorem refusal_none {s : State} {disk : Disk} {data : List UInt8} (h : refusal lib s disk data=none) :
    data.length ≤ maxBytes ∧ (lib.sha256 data∈s.storedHashes ∨ s.storedBytes+data.length ≤ maxTotalBytes) ∧
      disk.keep data=.ok () := by
  unfold refusal at h
  split at h
  · cases h
  · next small =>
    split at h
    · cases h
    · next fits =>
      split at h
      · cases h
      · next kept =>
        refine ⟨by omega,?_,kept⟩
        by_cases known : lib.sha256 data∈s.storedHashes
        · exact Or.inl known
        · exact Or.inr (Nat.not_lt.mp fun large => fits ⟨known,large⟩)

/-- The path of a payload that is kept already. -/
theorem Ledger.known {files : Files} {s : State} (h : Ledger lib files s) {data : List UInt8}
    (known : lib.sha256 data∈s.storedHashes) (label suffix : String) :
    (lib.sha256 data,pathOf lib s data label suffix)∈s.storedPaths := by
  unfold pathOf
  cases found : s.storedPaths.lookup (lib.sha256 data) with
  | some path =>
    obtain ⟨before,after,shape,_⟩ := List.lookup_eq_some_iff.mp found
    rw [Option.getD_some,shape]
    simp
  | none =>
    rw [h.hashes] at known
    obtain ⟨entry,listed,digest⟩ := List.mem_map.mp known
    have other := List.lookup_eq_none_iff.mp found entry listed
    simp [digest] at other

/-- The path of a new payload. -/
theorem Ledger.unknown {files : Files} {s : State} (h : Ledger lib files s) {data : List UInt8}
    (unknown : lib.sha256 data∉s.storedHashes) (label suffix : String) :
    pathOf lib s data label suffix=relativePath label (s.storedPaths.length+1) suffix := by
  have absent : s.storedPaths.lookup (lib.sha256 data)=none := by
    rw [List.lookup_eq_none_iff]
    intro entry listed
    rw [bne_iff_ne]
    intro same
    apply unknown
    rw [h.hashes,same]
    exact List.mem_map_of_mem listed
  unfold pathOf
  rw [absent,Option.getD_none,h.hashes,List.length_map]

/-- A payload that is kept goes to its file and to the account. -/
theorem Ledger.keep {files files' : Files} {s : State} (h : Ledger lib files s) {disk : Disk} {data : List UInt8}
    {label suffix : String} (accepted : refusal lib s disk data=none)
    (served : Serves files (pathOf lib s data label suffix) data disk files') :
    Ledger lib files' (keep lib s data label suffix) ∧
      Filed lib files' (RecordBlobs.keep lib s data label suffix)
        ⟨pathOf lib s data label suffix,lib.sha256 data,data.length⟩ ∧
      ∀ entry∈s.storedPaths, entry∈(RecordBlobs.keep lib s data label suffix).storedPaths := by
  obtain ⟨small,fits,kept⟩ := refusal_none accepted
  have holds := (served.holds small kept).1
  have before := h.kept served.kept
  unfold RecordBlobs.keep
  split
  · next known => exact ⟨before,⟨h.known known label suffix,data,holds,rfl,rfl⟩,fun _ listed => listed⟩
  · next unknown =>
    have fresh := h.unknown unknown label suffix
    have room := fits.resolve_left unknown
    refine ⟨?_,⟨List.mem_cons_self ..,data,holds,rfl,rfl⟩,fun _ listed => List.mem_cons_of_mem _ listed⟩
    constructor
    · exact congrArg (List.cons _) h.hashes
    · refine List.nodup_cons.mpr ⟨?_,h.digests⟩
      rw [← h.hashes]
      exact unknown
    · refine List.nodup_cons.mpr ⟨fun listed => ?_,h.paths⟩
      obtain ⟨entry,there,path⟩ := List.mem_map.mp listed
      obtain ⟨label',number,suffix',below,named⟩ := h.numbered entry there
      rw [fresh,named] at path
      have := relativePath_number path
      omega
    · intro entry listed
      rcases List.mem_cons.mp listed with rfl | older
      · exact ⟨label,_,suffix,Nat.le_refl _,fresh⟩
      · obtain ⟨label',number,suffix',below,named⟩ := h.numbered entry older
        exact ⟨label',number,suffix',Nat.le_succ_of_le below,named⟩
    · intro entry listed
      rcases List.mem_cons.mp listed with rfl | older
      · exact ⟨data,holds,rfl⟩
      · exact before.filed entry older
    · show s.storedBytes+data.length=((List.filterMap (fun entry => files' entry.2)
        ((lib.sha256 data,pathOf lib s data label suffix)::s.storedPaths)).map List.length).sum
      have total := before.bytes
      unfold stored at total
      rw [List.filterMap_cons,holds,List.map_cons,List.sum_cons,total]
      omega
    · exact room

end Directory

end Ros1Adapter.RecordBlobs
