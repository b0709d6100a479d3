import Ros1Adapter.RecordAccounts
import Mathlib.Data.List.Destutter
import Mathlib.Data.Set.Function

/-!
# Samples are recorded when they change

The recorder looks at its declared files and parameters again and again. For
each of them it records the outcomes that differ from the one before, be it a
content or a reason why there is none.
-/

namespace Ros1Adapter.RecordSnapshots

open ActionRules SceneJson RecordFacts RecordHistory RecordBlobs RecordAccounts

variable {lib : Library}

section Changes

variable {α : Type} [DecidableEq α]

/-- One more value changes the list without repetitions exactly when it differs from the last one. -/
theorem destutter_concat (values : List α) (a : α) :
    (values ++ [a]).destutter (· ≠ ·)=
      values.destutter (· ≠ ·) ++ (if values.getLast?=some a then [] else [a]) := by
  cases values with
  | nil => rfl
  | cons first rest =>
    rw [List.cons_append,List.destutter_cons',List.destutter_cons']
    induction rest generalizing first with
    | nil =>
      by_cases same : first=a
      · simp [same]
      · simp [same]
    | cons next rest ih =>
      rw [List.cons_append,List.getLast?_cons_cons]
      by_cases same : first=next
      · subst same
        rw [List.destutter'_cons_neg _ (by simp),List.destutter'_cons_neg _ (by simp)]
        exact ih first
      · rw [List.destutter'_cons_pos _ same,List.destutter'_cons_pos _ same,ih next,List.cons_append]

end Changes

section Entries

/-- What a fact says of a source. -/
inductive Entry where
  /-- Its content, by digest. -/
  | content (digest : String)
  /-- Why there is none. -/
  | missing (reason : String)
  deriving DecidableEq

/-- The digest of a content. -/
def Entry.digest? : Entry → Option String
  | .content digest => some digest
  | .missing _ => none

/-- The reason of an absence. -/
def Entry.reason? : Entry → Option String
  | .content _ => none
  | .missing reason => some reason

/-- What a fact says of one source. -/
def entryAt (key : String × String) (event : Event) : Option Entry :=
  match event.body with
  | .producer _ => none
  | .snapshot kind source _ content _ => if (kind,source)=key then some (.content content.sha256) else none
  | .unavailable kind source _ reason => if (kind,source)=key then some (.missing reason) else none

/-- What the facts say of one source, in order. -/
def entriesOf (key : String × String) (events : List Event) : List Entry := events.filterMap (entryAt key)

end Entries

section Frames

variable {keys : String × String → Prop}

/-- A step that neither records nor forgets anything about some sources. -/
structure Beside (keys : String × String → Prop) (s t : State) : Prop where
  /-- No fact about them is added. -/
  entries : ∀ key, keys key → entriesOf key t.events=entriesOf key s.events
  /-- Their last contents stay. -/
  observed : ∀ key, keys key → t.observed key=s.observed key
  /-- Their last reasons stay. -/
  missing : ∀ key, keys key → t.missing key=s.missing key
  /-- Waiting messages stay. -/
  messages : t.messages=s.messages
  /-- Nothing dropped comes back. -/
  dropped : s.dropped ≤ t.dropped

/-- No step at all. -/
theorem beside_refl (s : State) : Beside keys s s := ⟨fun _ _ => rfl,fun _ _ => rfl,fun _ _ => rfl,rfl,Nat.le_refl _⟩

/-- One step after another. -/
theorem Beside.trans {s t u : State} (h : Beside keys s t) (h' : Beside keys t u) : Beside keys s u :=
  ⟨fun key k => (h'.entries key k).trans (h.entries key k),fun key k => (h'.observed key k).trans (h.observed key k),
    fun key k => (h'.missing key k).trans (h.missing key k),h'.messages.trans h.messages,h.dropped.trans h'.dropped⟩

/-- A payload that is kept is no fact yet. -/
theorem keep_beside (lib : Library) (s : State) (data : List UInt8) (label suffix : String) :
    Beside keys s (keep lib s data label suffix) := by
  obtain ⟨hashes,paths,bytes,shape⟩ := keep_eq lib s data label suffix
  rw [shape]
  exact ⟨fun _ _ => rfl,fun _ _ => rfl,fun _ _ => rfl,rfl,Nat.le_refl _⟩

/-- Keeping a payload records nothing. -/
theorem store_beside (lib : Library) (disk : Disk) (data : List UInt8) (label suffix : String) (s : State) :
    Advances (Beside keys) (store lib disk data label suffix) s := by
  unfold Advances
  rw [store_eq]
  split
  · exact beside_refl s
  · exact keep_beside lib s data label suffix

/-- A fact about another source is added. -/
theorem append_beside {s t : State} {body : Body} {place : Option ℕ}
    (h : ∀ key, keys key → entryAt key ⟨s.events.length,body⟩=none) (added : s.append body=(t,place)) :
    Beside keys s t := by
  unfold State.append at added
  split at added
  · cases added
    exact beside_refl s
  · split at added
    · cases added
      exact ⟨fun _ _ => rfl,fun _ _ => rfl,fun _ _ => rfl,rfl,Nat.le_succ _⟩
    · cases added
      refine ⟨fun key k => ?_,fun _ _ => rfl,fun _ _ => rfl,rfl,Nat.le_refl _⟩
      show List.filterMap (entryAt key) (s.events ++ [⟨s.events.length,body⟩])=_
      rw [List.filterMap_append,List.filterMap_cons,h key k,List.filterMap_nil,List.append_nil]
      rfl

/-- A missing source does not concern the others. -/
theorem unavailable_beside (s : State) {kind source : String} (reason : String) (clock : Json)
    (h : ¬keys (kind,source)) : Beside keys s (s.unavailable kind source reason clock) := by
  have apart : ∀ key, keys key → key≠(kind,source) := by
    rintro key k rfl
    exact h k
  unfold State.unavailable
  split
  · exact beside_refl s
  · have other : ∀ key, keys key → entryAt key ⟨s.events.length,.unavailable kind source clock reason⟩=none :=
      fun key k => if_neg (apart key k).symm
    split
    · next added => exact append_beside other added
    · next added =>
      have here := append_beside other added
      refine here.trans ⟨fun _ _ => rfl,fun key k => ?_,fun key k => ?_,rfl,Nat.le_refl _⟩
      · exact Function.update_of_ne (apart key k) ..
      · exact Function.update_of_ne (apart key k) ..

/-- A content of a source does not concern the others. -/
theorem snapshot_beside {s t : State} {kind source validity : String} {observed : Json} {content : Content}
    {place : Option ℕ} (h : ¬keys (kind,source))
    (added : s.append (.snapshot kind source observed content validity)=(t,place)) : Beside keys s t := by
  have apart : ∀ key, keys key → (kind,source)≠key := by
    rintro key k rfl
    exact h k
  refine append_beside ?_ added
  exact fun key k => if_neg (apart key k)

/-- A sample of a source does not concern the others. -/
theorem observation_beside (lib : Library) (disk : Disk) {kind source : String} (value observed : Json)
    (h : ¬keys (kind,source)) (s : State) :
    Advances (Beside keys) (observation lib disk kind source value observed) s := by
  unfold observation
  cases lib.encoded value with
  | error failure => exact advances_throw (beside_refl s) failure
  | ok data =>
    refine advances_get_bind (advances_ite (fun _ => advances_pure (beside_refl s) ()) fun _ => ?_)
    refine Advances.bind (R := Beside keys) Beside.trans (store_beside lib disk data _ _ s) fun content t _ => advances_modify ?_
    split
    · next added => exact snapshot_beside h added
    · next added =>
      refine (snapshot_beside h added).trans ⟨fun _ _ => rfl,fun key k => ?_,fun _ _ => rfl,rfl,Nat.le_refl _⟩
      refine Function.update_of_ne ?_ ..
      rintro rfl
      exact h k

/-- A report is no sample. -/
theorem record_beside (s : State) (message : Message) (content : Content) (observed : Json)
    (previous : Option (ℕ × Report)) : Beside keys s (s.record message content observed previous) := by
  unfold State.record
  split
  · next added => exact append_beside (fun _ _ => rfl) added
  · next t place added =>
    refine (append_beside (fun _ _ => rfl) added).trans ⟨fun key _ => ?_,fun _ _ => rfl,fun _ _ => rfl,rfl,Nat.le_refl _⟩
    exact filterMap_settle (fun _ _ _ => rfl) t.events place message previous

/-- A text from the fact topic is no sample. -/
theorem producer_beside (lib : Library) (disk : Disk) (text : String) (observed : Json) (s : State) :
    Advances (Beside keys) (producer lib disk text observed) s := by
  unfold producer
  cases readMessage lib text with
  | error failure => exact advances_throw (beside_refl s) failure
  | ok message =>
    change Advances (Beside keys)
      (store lib disk text.toUTF8.data.toList ("application-" ++ message.key.kind) ".json" >>= _) s
    refine Advances.bind (R := Beside keys) Beside.trans (store_beside lib disk _ _ _ s) fun content t _ => advances_get_bind ?_
    split
    · refine advances_ite (fun _ => advances_pure (beside_refl t) ()) fun _ => ?_
      refine advances_ite (fun _ => advances_throw (beside_refl t) _) fun _ => ?_
      exact advances_modify (record_beside t ..)
    · exact advances_modify (record_beside t ..)

/-- A file does not concern the others. -/
theorem file_beside (lib : Library) (read : FileRead) (disk : Disk) {kind source : String} (suffix : String)
    (clock : Json) (h : ¬keys (kind,source)) (s : State) :
    Beside keys s (file lib read disk kind source suffix clock s) := by
  unfold file
  split
  · exact unavailable_beside s _ clock h
  · next data _ =>
    dsimp only
    split
    · exact beside_refl s
    · have kept : Advances (Beside keys) (store lib disk data (kind ++ "-" ++ source) suffix) s := store_beside lib disk ..
      unfold Advances at kept
      split
      · next result =>
        rw [result] at kept
        exact kept.trans (unavailable_beside _ _ clock h)
      · next content t result =>
        rw [result] at kept
        split
        · next added => exact kept.trans (snapshot_beside h added)
        · next added =>
          refine (kept.trans (snapshot_beside h added)).trans
            ⟨fun _ _ => rfl,fun key k => ?_,fun key k => ?_,rfl,Nat.le_refl _⟩
          · refine Function.update_of_ne ?_ ..
            rintro rfl
            exact h k
          · refine Function.update_of_ne ?_ ..
            rintro rfl
            exact h k

/-- A parameter does not concern the others. -/
theorem parameter_beside (lib : Library) (read : ParameterRead) (disk : Disk) {name : String} (clock : Json)
    (h : ¬keys ("parameter",name)) (s : State) : Beside keys s (parameter lib read disk name clock s) := by
  unfold parameter
  split
  · exact unavailable_beside s _ clock h
  · exact unavailable_beside s _ clock h
  · next value =>
    have sampled : Advances (Beside keys) (observation lib disk "parameter" name value clock) s :=
      observation_beside lib disk value clock h s
    unfold Advances at sampled
    split
    · next result =>
      rw [result] at sampled
      refine sampled.trans ⟨fun _ _ => rfl,fun _ _ => rfl,fun key k => ?_,rfl,Nat.le_refl _⟩
      refine Function.update_of_ne ?_ ..
      rintro rfl
      exact h k
    · next result =>
      rw [result] at sampled
      exact sampled.trans (unavailable_beside _ _ clock h)

end Frames

section Outcomes

/-- What one look at a source gave. -/
inductive Outcome where
  /-- Its content. -/
  | seen (data : List UInt8)
  /-- Why there is none. -/
  | missing (reason : String)
  deriving DecidableEq

/-- What a fact about an outcome says. -/
def Outcome.entry (lib : Library) : Outcome → Entry
  | .seen data => .content (lib.sha256 data)
  | .missing reason => .missing reason

/-- The outcome once a content was read. A content that is not the last one has to be kept, and one that is refused
is missing for that reason. -/
def keptOutcome (lib : Library) (disk : Disk) (key : String × String) (data : List UInt8) (reason : Failure → String)
    (s : State) : Outcome :=
  if s.observed key=some (lib.sha256 data) then .seen data
  else
    match refusal lib s disk data with
    | some failure => .missing (reason failure)
    | none => .seen data

/-- The outcome of a look at a file. -/
def fileOutcome (lib : Library) (read : FileRead) (disk : Disk) (kind source : String) (s : State) : Outcome :=
  match read.data with
  | .error reason => .missing reason
  | .ok data => keptOutcome lib disk (kind,source) data reasonOf s

/-- The outcome of a look at a parameter. -/
def parameterOutcome (lib : Library) (read : ParameterRead) (disk : Disk) (name : String) (s : State) : Outcome :=
  match read with
  | .raised type => .missing type
  | .unset => .missing "parameter-unavailable"
  | .found value =>
    match lib.encoded value with
    | .error failure => .missing failure.type
    | .ok data => keptOutcome lib disk ("parameter",name) data Failure.type s

/-- The source that an action looks at, and the outcome. -/
def look (lib : Library) (s : State) : Action → Option ((String × String) × Outcome)
  | .file read disk kind source _ _ => some ((kind,source),fileOutcome lib read disk kind source s)
  | .parameter read disk name _ => some (("parameter",name),parameterOutcome lib read disk name s)
  | _ => none

/-- The last entry of a source is what the state remembers. -/
def Recalls (s : State) (key : String × String) (last : Option Entry) : Prop :=
  s.observed key=last.bind Entry.digest? ∧ s.missing key=last.bind Entry.reason?

/-- The remembered content. -/
theorem Recalls.content_iff {s : State} {key : String × String} {last : Option Entry} (h : Recalls s key last)
    (digest : String) : s.observed key=some digest ↔ last=some (.content digest) := by
  rw [h.1]
  cases last with
  | none => simp
  | some entry => cases entry <;> simp [Entry.digest?]

/-- The remembered reason. -/
theorem Recalls.missing_iff {s : State} {key : String × String} {last : Option Entry} (h : Recalls s key last)
    (reason : String) : s.missing key=some reason ↔ last=some (.missing reason) := by
  rw [h.2]
  cases last with
  | none => simp
  | some entry => cases entry <;> simp [Entry.reason?]

/-- An entry that differs from the last one is recorded, and is remembered. -/
structure Noted (key : String × String) (last : Option Entry) (entry : Entry) (s t : State) : Prop where
  /-- It is recorded unless it repeats. -/
  entries : entriesOf key t.events=entriesOf key s.events ++ (if last=some entry then [] else [entry])
  /-- It is remembered. -/
  recalls : Recalls t key (some entry)

/-- A repeated entry needs no step. -/
theorem noted_same {s : State} {key : String × String} {last : Option Entry} {entry : Entry} (h : Recalls s key last)
    (same : last=some entry) : Noted key last entry s s := by
  rw [same] at h ⊢
  exact ⟨by rw [if_pos rfl,List.append_nil],h⟩

/-- A fact is dropped, or it follows the others. -/
theorem append_cases {s t : State} {body : Body} {place : Option ℕ} (unsealed : s.isSealed=false)
    (added : s.append body=(t,place)) :
    (place=none ∧ t.dropped=s.dropped+1) ∨ (∃ n, place=some n) ∧
      t={s.withEvents (s.events ++ [⟨s.events.length,body⟩]) with revision := s.revision+1} := by
  unfold State.append at added
  rw [if_neg (by rw [unsealed]; exact Bool.false_ne_true)] at added
  split at added
  · cases added
    exact Or.inl ⟨rfl,rfl⟩
  · cases added
    exact Or.inr ⟨⟨_,rfl⟩,rfl⟩

/-- A fact about a source follows the others about it. -/
theorem entries_append {s : State} {key : String × String} {body : Body} {entry : Entry}
    (h : entryAt key ⟨s.events.length,body⟩=some entry) :
    entriesOf key (s.events ++ [⟨s.events.length,body⟩])=entriesOf key s.events ++ [entry] := by
  unfold entriesOf
  rw [List.filterMap_append,List.filterMap_cons,h,List.filterMap_nil]

/-- A missing source is noted. -/
theorem unavailable_noted {s : State} {kind source : String} {last : Option Entry} (unsealed : s.isSealed=false)
    (h : Recalls s (kind,source) last) (reason : String) (clock : Json)
    (undropped : (s.unavailable kind source reason clock).dropped=s.dropped) :
    Noted (kind,source) last (.missing reason) s (s.unavailable kind source reason clock) := by
  unfold State.unavailable at undropped ⊢
  split
  · next same => exact noted_same h ((h.missing_iff reason).mp same)
  · next other =>
    rw [if_neg other] at undropped
    have new : last≠some (.missing reason) := fun same => other ((h.missing_iff reason).mpr same)
    split
    · next t added =>
      rw [added] at undropped
      rcases append_cases unsealed added with ⟨_,full⟩ | ⟨⟨n,place⟩,_⟩
      · dsimp only at undropped
        omega
      · cases place
    · next t n added =>
      rcases append_cases unsealed added with ⟨place,_⟩ | ⟨_,shape⟩
      · cases place
      · refine ⟨?_,?_,?_⟩
        · rw [if_neg new,shape]
          exact entries_append (if_pos rfl)
        · exact Function.update_self ..
        · exact Function.update_self ..

/-- A content that was kept is noted. -/
theorem snapshot_noted {s u : State} {kind source validity : String} {data : List UInt8} {last : Option Entry}
    {observed : Json} {content : Content} {place : Option ℕ} {label suffix : String} (unsealed : s.isSealed=false)
    (new : last≠some (.content (lib.sha256 data))) (named : content.sha256=lib.sha256 data)
    (added : (keep lib s data label suffix).append (.snapshot kind source observed content validity)=(u,place))
    (undropped : u.dropped=s.dropped) :
    place≠none ∧ Noted (kind,source) last (.content (lib.sha256 data)) s {u with
      observed := Function.update u.observed (kind,source) (some (lib.sha256 data))
      missing := Function.update u.missing (kind,source) none} := by
  obtain ⟨hashes,paths,bytes,shape⟩ := keep_eq lib s data label suffix
  have open_ : (keep lib s data label suffix).isSealed=false := by
    rw [shape]
    exact unsealed
  rcases append_cases open_ added with ⟨_,full⟩ | ⟨⟨n,found⟩,result⟩
  · rw [shape] at full
    dsimp only at full
    omega
  · refine ⟨by rw [found]; exact Option.some_ne_none n,?_,?_,?_⟩
    · rw [if_neg new,result,shape,← named]
      exact entries_append (if_pos rfl)
    · exact Function.update_self ..
    · exact Function.update_self ..

/-- The state of a file's source follows its outcome. -/
theorem file_noted {s : State} {kind source : String} {last : Option Entry} (unsealed : s.isSealed=false)
    (h : Recalls s (kind,source) last) (read : FileRead) (disk : Disk) (suffix : String) (clock : Json)
    (undropped : (file lib read disk kind source suffix clock s).dropped=s.dropped) :
    Noted (kind,source) last ((fileOutcome lib read disk kind source s).entry lib) s
      (file lib read disk kind source suffix clock s) := by
  unfold file fileOutcome at *
  cases result : read.data with
  | error reason =>
    rw [result] at undropped
    exact unavailable_noted unsealed h reason clock undropped
  | ok data =>
    rw [result] at undropped
    dsimp only at undropped ⊢
    unfold keptOutcome
    by_cases known : s.observed (kind,source)=some (lib.sha256 data)
    · rw [if_pos known,if_pos known]
      exact noted_same h ((h.content_iff _).mp known)
    · rw [if_neg known,store_eq] at undropped
      rw [if_neg known,if_neg known,store_eq]
      have new : last≠some (.content (lib.sha256 data)) := fun same => known ((h.content_iff _).mpr same)
      cases refused : refusal lib s disk data with
      | some failure =>
        rw [refused] at undropped
        exact unavailable_noted unsealed h _ clock undropped
      | none =>
        rw [refused] at undropped
        dsimp only at undropped ⊢
        split
        · next u added =>
          rw [added] at undropped
          exact absurd rfl (snapshot_noted unsealed new rfl added undropped).1
        · next u n added =>
          rw [added] at undropped
          exact (snapshot_noted unsealed new rfl added undropped).2

/-- The state of a parameter's source follows its outcome. -/
theorem parameter_noted {s : State} {name : String} {last : Option Entry} (unsealed : s.isSealed=false)
    (h : Recalls s ("parameter",name) last) (read : ParameterRead) (disk : Disk) (clock : Json)
    (undropped : (parameter lib read disk name clock s).dropped=s.dropped) :
    Noted ("parameter",name) last ((parameterOutcome lib read disk name s).entry lib) s
      (parameter lib read disk name clock s) := by
  unfold parameter parameterOutcome at *
  cases read with
  | raised type => exact unavailable_noted unsealed h type clock undropped
  | unset => exact unavailable_noted unsealed h _ clock undropped
  | found value =>
    dsimp only at undropped ⊢
    rw [observation_eq] at undropped ⊢
    cases encoded : lib.encoded value with
    | error failure =>
      rw [encoded] at undropped
      exact unavailable_noted unsealed h _ clock undropped
    | ok data =>
      rw [encoded] at undropped
      dsimp only at undropped ⊢
      unfold keptOutcome
      by_cases known : s.observed ("parameter",name)=some (lib.sha256 data)
      · rw [if_pos known,if_pos known]
        have repeated := (h.content_iff _).mp known
        refine ⟨?_,known,Function.update_self ..⟩
        show _=entriesOf ("parameter",name) s.events ++ (if last=some (.content (lib.sha256 data)) then [] else _)
        rw [if_pos repeated,List.append_nil]
        rfl
      · rw [if_neg known] at undropped
        rw [if_neg known,if_neg known]
        have new : last≠some (.content (lib.sha256 data)) := fun same => known ((h.content_iff _).mpr same)
        cases refused : refusal lib s disk data with
        | some failure =>
          rw [refused] at undropped
          exact unavailable_noted unsealed h _ clock undropped
        | none =>
          rw [refused] at undropped
          dsimp only at undropped ⊢
          cases added : (keep lib s data ("parameter" ++ "-" ++ name) ".json").append (.snapshot "parameter" name clock
              ⟨pathOf lib s data ("parameter" ++ "-" ++ name) ".json",lib.sha256 data,data.length⟩
              "observation-only; between-sample changes are unknown") with
          | mk u place =>
            rw [added] at undropped
            cases place with
            | none => exact absurd rfl (snapshot_noted unsealed new rfl added undropped).1
            | some n => exact (snapshot_noted unsealed new rfl added undropped).2

end Outcomes

section Runs

/-- The kinds of facts about declared files and parameters. -/
def polledKinds : List String := ["calibration-file","algorithm-file","parameter"]

/-- A message that is no sample of a declared source. -/
def Foreign : Queued → Prop
  | .observation kind _ _ _ => kind∉polledKinds
  | _ => True

/-- An action as the recorder takes it: files have their two kinds, and messages concern other sources. -/
def Declared : Action → Prop
  | .enqueue message => Foreign message
  | .file _ _ kind _ _ _ => kind="calibration-file" ∨ kind="algorithm-file"
  | _ => True

/-- The look of an action. Once the facts are sealed nothing is observed. -/
def lookAt (lib : Library) (s : State) (action : Action) : List ((String × String) × Outcome) :=
  if s.isSealed then [] else (look lib s action).toList

/-- The looks of a run, in order. -/
def looks (lib : Library) : State → List Action → List ((String × String) × Outcome)
  | _,[] => []
  | s,action::rest => lookAt lib s action ++ looks lib (step lib s action) rest

/-- The outcomes for one source. -/
def outcomesOf (key : String × String) (looks : List ((String × String) × Outcome)) : List Outcome :=
  looks.filterMap (fun looked => if looked.1=key then some looked.2 else none)

/-- Messages that the queue has no place for, which are counted as dropped too. -/
def refusedAt (s : State) : Action → ℕ
  | .enqueue _ => if s.closed=false ∧ maxMessages ≤ s.messages.length then 1 else 0
  | _ => 0

/-- The number of such messages in a run. -/
def refused (lib : Library) : State → List Action → ℕ
  | _,[] => 0
  | s,action::rest => refusedAt s action+refused lib (step lib s action) rest

/-- A message concerns no polled source. -/
theorem process_beside (lib : Library) (disk : Disk) (clock : Json) {s : State} (h : ∀ message∈s.messages, Foreign message) :
    ∃ messages, (∀ message∈messages, Foreign message) ∧
      Beside (fun key => key.1∈polledKinds) {s with messages := messages} (processMessage lib disk clock s) := by
  unfold processMessage
  split
  · exact ⟨s.messages,h,beside_refl s⟩
  · next message rest waiting =>
    rw [waiting] at h
    refine ⟨rest,fun other listed => h other (List.mem_cons_of_mem _ listed),?_⟩
    have observer : ∀ source : String, ¬(("observer",source) : String × String).1∈polledKinds := by
      intro source
      show "observer"∉polledKinds
      decide
    have handled : Advances (Beside (fun key => key.1∈polledKinds)) (handle lib disk clock message)
        {s with messages := rest} := by
      cases message with
      | producer source text observed => exact producer_beside lib disk text observed _
      | unavailable source reason => exact advances_modify (unavailable_beside _ reason clock (observer source))
      | observation kind source value observed =>
        have foreign : ¬((kind,source) : String × String).1∈polledKinds := h _ (List.mem_cons_self ..)
        exact observation_beside lib disk value observed foreign _
    unfold Advances at handled
    split
    · next result =>
      rw [result] at handled
      exact handled
    · next failure t result =>
      rw [result] at handled
      exact handled.trans (unavailable_beside _ _ clock (observer _))

/-- An action concerns at most the source that it looks at. -/
theorem step_beside (lib : Library) {s : State} {action : Action} (declared : Declared action)
    (h : ∀ message∈s.messages, Foreign message) :
    ∃ messages, (∀ message∈messages, Foreign message) ∧
      Beside (fun key => key.1∈polledKinds ∧ ∀ source outcome, look lib s action=some (source,outcome) → source≠key)
        {s with messages := messages} (step lib s action) := by
  cases action with
  | enqueue message =>
    show ∃ messages, _ ∧ Beside _ _ (enqueue s message)
    unfold enqueue
    split
    · exact ⟨s.messages,h,beside_refl s⟩
    · split
      · refine ⟨s.messages ++ [message],fun other listed => ?_,beside_refl _⟩
        rcases List.mem_append.mp listed with before | new
        · exact h other before
        · rw [List.mem_singleton.mp new]
          exact declared
      · exact ⟨s.messages,h,fun _ _ => rfl,fun _ _ => rfl,fun _ _ => rfl,rfl,Nat.le_succ _⟩
  | process disk clock =>
    obtain ⟨messages,foreign,beside⟩ := process_beside lib disk clock h
    exact ⟨messages,foreign,fun key k => beside.entries key k.1,fun key k => beside.observed key k.1,
      fun key k => beside.missing key k.1,beside.messages,beside.dropped⟩
  | file read disk kind source suffix clock =>
    exact ⟨s.messages,h,file_beside lib read disk suffix clock (fun k => k.2 _ _ rfl rfl) s⟩
  | parameter read disk name clock =>
    exact ⟨s.messages,h,parameter_beside lib read disk clock (fun k => k.2 _ _ rfl rfl) s⟩
  | pollFailed type clock =>
    refine ⟨s.messages,h,unavailable_beside s type clock fun k => ?_⟩
    exact absurd k.1 (by decide)
  | snapshot =>
    refine ⟨s.messages,h,?_⟩
    show Beside _ s (snapshot s)
    unfold snapshot
    split
    · exact beside_refl s
    · exact ⟨fun _ _ => rfl,fun _ _ => rfl,fun _ _ => rfl,rfl,Nat.le_refl _⟩
  | close => exact ⟨s.messages,h,fun _ _ => rfl,fun _ _ => rfl,fun _ _ => rfl,rfl,Nat.le_refl _⟩
  | sealed clock stillRunning =>
    refine ⟨s.messages,h,?_⟩
    show Beside _ s (sealFacts clock stillRunning s)
    unfold sealFacts snapshot
    split <;> exact ⟨fun _ _ => rfl,fun _ _ => rfl,fun _ _ => rfl,rfl,Nat.le_refl _⟩

/-- Waiting messages stay foreign. -/
theorem step_foreign (lib : Library) {s : State} {action : Action} (declared : Declared action)
    (h : ∀ message∈s.messages, Foreign message) : ∀ message∈(step lib s action).messages, Foreign message := by
  obtain ⟨messages,foreign,beside⟩ := step_beside lib declared h
  rw [beside.messages]
  exact foreign

/-- Every message without a place is counted. -/
theorem step_dropped (lib : Library) {s : State} {action : Action} (declared : Declared action)
    (h : ∀ message∈s.messages, Foreign message) : s.dropped+refusedAt s action ≤ (step lib s action).dropped := by
  have beside : s.dropped ≤ (step lib s action).dropped := by
    obtain ⟨messages,_,beside⟩ := step_beside lib declared h
    exact beside.dropped
  cases action with
  | enqueue message =>
    show s.dropped+(if s.closed=false ∧ maxMessages ≤ s.messages.length then 1 else 0) ≤ _
    split
    · next full =>
      show _ ≤ (enqueue s message).dropped
      unfold enqueue
      rw [if_neg (by rw [full.1]; exact Bool.false_ne_true),if_neg (Nat.not_lt.mpr full.2)]
    · exact beside
  | _ => exact beside

/-- Every message without a place in a run is counted. -/
theorem run_dropped (lib : Library) {s : State} {actions : List Action} (declared : ∀ action∈actions, Declared action)
    (h : ∀ message∈s.messages, Foreign message) : s.dropped+refused lib s actions ≤ (run (step lib) s actions).dropped := by
  induction actions generalizing s with
  | nil => exact Nat.le_refl _
  | cons action rest ih =>
    have here := declared action (List.mem_cons_self ..)
    have first := step_dropped lib here h
    have later := ih (fun other listed => declared other (List.mem_cons_of_mem _ listed)) (step_foreign lib here h)
    rw [run_cons]
    unfold refused
    omega

/-- The facts about a source are its outcomes so far without repetitions. -/
structure Tracks (lib : Library) (key : String × String) (past : List Outcome) (s : State) : Prop where
  /-- Each change is a fact. -/
  entries : entriesOf key s.events=(past.map (Outcome.entry lib)).destutter (· ≠ ·)
  /-- The last outcome is remembered until the facts are sealed. -/
  recalls : s.isSealed=false → Recalls s key (past.map (Outcome.entry lib)).getLast?

/-- A look at a source is noted. -/
theorem look_noted {s : State} {action : Action} {key : String × String} {outcome : Outcome} {last : Option Entry}
    (unsealed : s.isSealed=false) (h : Recalls s key last) (looked : look lib s action=some (key,outcome))
    (undropped : (step lib s action).dropped=s.dropped) : Noted key last (outcome.entry lib) s (step lib s action) := by
  cases action with
  | file read disk kind source suffix clock =>
    cases looked
    exact file_noted unsealed h read disk suffix clock undropped
  | parameter read disk name clock =>
    cases looked
    exact parameter_noted unsealed h read disk clock undropped
  | _ => cases looked

/-- A step that drops no fact keeps track of a source. -/
theorem step_tracks {s : State} {action : Action} {key : String × String} {past : List Outcome}
    (polled : key.1∈polledKinds) (declared : Declared action) (foreign : ∀ message∈s.messages, Foreign message)
    (undropped : (step lib s action).dropped=s.dropped+refusedAt s action) (h : Tracks lib key past s) :
    Tracks lib key (past ++ outcomesOf key (lookAt lib s action)) (step lib s action) := by
  unfold lookAt
  cases state : s.isSealed with
  | true =>
    obtain ⟨events,_,isSealed⟩ := step_sealed lib state action
    rw [if_pos rfl]
    show Tracks lib key (past ++ []) _
    rw [List.append_nil]
    refine ⟨?_,fun unsealed => ?_⟩
    · rw [events]
      exact h.entries
    · rw [isSealed] at unsealed
      cases unsealed
  | false =>
    rw [if_neg Bool.false_ne_true]
    have recalls := h.recalls state
    have elsewhere : (∀ source outcome, look lib s action=some (source,outcome) → source≠key) →
        Tracks lib key past (step lib s action) := by
      intro apart
      obtain ⟨messages,_,beside⟩ := step_beside lib declared foreign
      refine ⟨(beside.entries key ⟨polled,apart⟩).trans h.entries,fun _ => ⟨?_,?_⟩⟩
      · exact (beside.observed key ⟨polled,apart⟩).trans recalls.1
      · exact (beside.missing key ⟨polled,apart⟩).trans recalls.2
    cases looked : look lib s action with
    | none =>
      show Tracks lib key (past ++ []) _
      rw [List.append_nil]
      refine elsewhere fun source outcome found => ?_
      rw [looked] at found
      cases found
    | some pair =>
      obtain ⟨source,outcome⟩ := pair
      by_cases here : source=key
      · subst here
        have single : outcomesOf source (some (source,outcome)).toList=[outcome] := by
          simp [outcomesOf]
        rw [single]
        have accepted : refusedAt s action=0 := by
          cases action with
          | enqueue => cases looked
          | _ => rfl
        have noted := look_noted state recalls looked (by omega)
        refine ⟨?_,fun _ => ?_⟩
        · rw [noted.entries,h.entries,List.map_append,List.map_singleton,destutter_concat]
        · rw [List.map_append,List.map_singleton,List.getLast?_concat]
          exact noted.recalls
      · have single : outcomesOf key (some (source,outcome)).toList=[] := by
          simp [outcomesOf,here]
        rw [single,List.append_nil]
        refine elsewhere fun other outcome' found => ?_
        rw [looked] at found
        cases found
        exact here

/-- A run that drops no fact keeps track of a source. -/
theorem run_tracks {s : State} {actions : List Action} {key : String × String} {past : List Outcome}
    (polled : key.1∈polledKinds) (declared : ∀ action∈actions, Declared action)
    (foreign : ∀ message∈s.messages, Foreign message)
    (undropped : (run (step lib) s actions).dropped=s.dropped+refused lib s actions) (h : Tracks lib key past s) :
    Tracks lib key (past ++ outcomesOf key (looks lib s actions)) (run (step lib) s actions) := by
  induction actions generalizing s past with
  | nil =>
    show Tracks lib key (past ++ []) s
    rw [List.append_nil]
    exact h
  | cons action rest ih =>
    have here := declared action (List.mem_cons_self ..)
    have others : ∀ other∈rest, Declared other := fun other listed => declared other (List.mem_cons_of_mem _ listed)
    have first := step_dropped lib here foreign
    have later := run_dropped lib others (step_foreign lib here foreign)
    rw [run_cons] at undropped ⊢
    unfold refused at undropped
    have tracks := step_tracks polled here foreign (by omega) h
    have split : outcomesOf key (looks lib s (action::rest))=
        outcomesOf key (lookAt lib s action) ++ outcomesOf key (looks lib (step lib s action) rest) :=
      List.filterMap_append
    rw [split,← List.append_assoc]
    exact ih others (step_foreign lib here foreign) (by omega) tracks

/-- The facts about declared sources are their changes, and the payloads agree with the account. -/
structure Faithful (lib : Library) (seen : String × String → List Outcome) (unplaced : ℕ) (files : Files) (s : State) :
    Prop where
  /-- As long as no fact is dropped, the facts about a source are its outcomes without consecutive repetitions. -/
  changes : s.dropped=unplaced → ∀ key : String × String, key.1∈polledKinds →
    entriesOf key s.events=((seen key).destutter (· ≠ ·)).map (Outcome.entry lib)
  /-- Every content names a file with its digest and size. -/
  contents : ∀ content∈contentsOf s.events, ∃ data, files content.relativePath=some data ∧
    lib.sha256 data=content.sha256 ∧ data.length=content.sizeBytes
  /-- Contents share a path exactly when they share a digest. -/
  paths : ∀ c∈contentsOf s.events, ∀ c'∈contentsOf s.events, c.sha256=c'.sha256 ↔ c.relativePath=c'.relativePath
  /-- The payloads of the account are distinct, and their digests are the known ones. -/
  distinct : (stored files s).Nodup ∧ (stored files s).map lib.sha256=s.storedHashes
  /-- The total is the sum of their sizes, and stays within its bound. -/
  bytes : s.storedBytes=((stored files s).map List.length).sum ∧ s.storedBytes ≤ maxTotalBytes
  /-- A store that fails changes nothing. -/
  failed : ∀ disk data label suffix failure t, store lib disk data label suffix s=.error failure t → t=s

/-- Repetitions of contents are those of their digests. -/
theorem entries_destutter {seen : List Outcome} (collisions : Set.InjOn lib.sha256 {data | .seen data∈seen}) :
    (seen.destutter (· ≠ ·)).map (Outcome.entry lib)=(seen.map (Outcome.entry lib)).destutter (· ≠ ·) := by
  refine List.map_destutter fun a listed b listed' => ?_
  cases a with
  | seen data =>
    cases b with
    | seen data' =>
      have same := collisions.eq_iff listed listed'
      simp only [Outcome.entry,ne_eq,Outcome.seen.injEq,Entry.content.injEq,same]
    | missing reason => simp [Outcome.entry]
  | missing reason =>
    cases b with
    | seen _ | missing _ => simp [Outcome.entry]

/-- The facts of every recording are faithful, as long as the contents of a source have different digests and nobody
else writes to the directory. -/
theorem run_snapshots (lib : Library) (clock : Json) (actions : List Action) (declared : ∀ action∈actions, Declared action)
    (collisions : ∀ key, Set.InjOn lib.sha256 {data | .seen data∈outcomesOf key (looks lib (newFacts clock) actions)})
    (files files' : Files) (lives : Lives lib (newFacts clock) files actions files') :
    Faithful lib (fun key => outcomesOf key (looks lib (newFacts clock) actions)) (refused lib (newFacts clock) actions) files'
      (run (step lib) (newFacts clock) actions) := by
  obtain ⟨ledger,filed⟩ := run_accounted (newFacts_accounted lib files clock) lives
  refine ⟨fun undropped key polled => ?_,fun content named => (filed content named).file,fun c hc c' hc' => ?_,
    ⟨ledger.stored_nodup,ledger.stored_digests⟩,⟨ledger.bytes,ledger.bounded⟩,?_⟩
  · have foreign : ∀ message∈(newFacts clock).messages, Foreign message := by
      intro message waiting
      cases waiting
    have start : Tracks lib key [] (newFacts clock) := ⟨rfl,fun _ => ⟨rfl,rfl⟩⟩
    have tracks := run_tracks polled declared foreign (by rw [undropped]; exact (Nat.zero_add _).symm) start
    rw [tracks.entries,List.nil_append]
    exact (entries_destutter (collisions key)).symm
  · exact ledger.shares (filed c hc) (filed c' hc')
  · intro disk data label suffix failure t failed
    rw [store_eq] at failed
    split at failed
    · cases failed
      rfl
    · cases failed

end Runs

section Sample

/-- The library functions on one file and one number. -/
def sampleLibrary : Library where
  loads := fun _ _ _ => .error ⟨"JSONDecodeError","Expecting value: line 1 column 1 (char 0)"⟩
  encoded := fun _ => .ok [49]
  sha256 := fun data =>
    if data=[49] then "6b86b273ff34fce19d6b804eff5a3f5747ada4eaa22f1d49c01e52ddb7875b4b"
    else "4bf5122f344554c53bde2ebb8cd2b7e3d1600ad631c385a5d7cce23c7785459a"

/-- A look at a calibration file of one byte. -/
def sampleLook (read : FileRead) (disk : Disk) : Action := .file read disk "calibration-file" "camera" ".yaml" .null

/-- A calibration file is there, is missing, is back, and stays; then a parameter is there. -/
def sampleRun : List Action :=
  [sampleLook (.opened true 1 [1] false) .created,sampleLook (.raised "FileNotFoundError") .created,
    sampleLook (.opened true 1 [1] false) (.existing true [1]),sampleLook (.opened true 1 [1] false) .notDirectory,
    .parameter (.found (.integer 1)) .created "/rate" .null]

/-- The file of the calibration. -/
def calibrationPath : String := "record-facts/calibration-file-camera-revision-000001.yaml"

/-- The file of the parameter. -/
def ratePath : String := "record-facts/parameter-rate-revision-000002.json"

/-- The files of the run. -/
theorem sampleRun_lives : Lives sampleLibrary (newFacts .null) (fun _ => none) sampleRun
    (Function.update (Function.update (fun _ => none) calibrationPath (some [1])) ratePath (some [49])) := by
  let filed : Files := Function.update (fun _ => none) calibrationPath (some [1])
  refine ⟨filed,⟨fun _ => ?_,fun far => ?_⟩,filed,rfl,filed,⟨fun _ => ?_,fun far => ?_⟩,filed,rfl,
    Function.update filed ratePath (some [49]),⟨fun _ => ?_,fun far => ?_⟩,rfl⟩
  · exact Serves.created rfl
  · exact absurd ⟨by decide +kernel,Or.inr (by decide +kernel)⟩ far
  · exact Serves.existing [1] (by decide +kernel)
  · exact absurd ⟨by decide +kernel,Or.inl (by decide +kernel)⟩ far
  · exact Serves.created (by decide +kernel)
  · exact absurd ⟨by decide +kernel,Or.inr (by decide +kernel)⟩ far

/-- The run's facts are faithful. -/
theorem run_snapshots_sample : (∀ action∈sampleRun, Declared action) ∧
    Faithful sampleLibrary (fun key => outcomesOf key (looks sampleLibrary (newFacts .null) sampleRun)) 0
      (Function.update (Function.update (fun _ => none) calibrationPath (some [1])) ratePath (some [49]))
      (run (step sampleLibrary) (newFacts .null) sampleRun) ∧
    entriesOf ("calibration-file","camera") (run (step sampleLibrary) (newFacts .null) sampleRun).events=
      [.content "4bf5122f344554c53bde2ebb8cd2b7e3d1600ad631c385a5d7cce23c7785459a",.missing "FileNotFoundError",
        .content "4bf5122f344554c53bde2ebb8cd2b7e3d1600ad631c385a5d7cce23c7785459a"] := by
  have declared : ∀ action∈sampleRun, Declared action := by
    simp [sampleRun,sampleLook,Declared]
  have looked : looks sampleLibrary (newFacts .null) sampleRun=
      [(("calibration-file","camera"),.seen [1]),(("calibration-file","camera"),.missing "FileNotFoundError"),
        (("calibration-file","camera"),.seen [1]),(("calibration-file","camera"),.seen [1]),
        (("parameter","/rate"),.seen [49])] := by
    decide +kernel
  have collisions : ∀ key, Set.InjOn sampleLibrary.sha256
      {data | .seen data∈outcomesOf key (looks sampleLibrary (newFacts .null) sampleRun)} := by
    have contents : ∀ key, ∀ data, .seen data∈outcomesOf key (looks sampleLibrary (newFacts .null) sampleRun) →
        data=[1] ∨ data=[49] := by
      intro key data seen
      obtain ⟨pair,listed,chosen⟩ := List.mem_filterMap.mp seen
      rw [looked] at listed
      simp only [List.mem_cons,List.not_mem_nil,or_false] at listed
      rcases listed with rfl | rfl | rfl | rfl | rfl <;> split at chosen <;> simp_all
    intro key a ha b hb same
    rcases contents key a ha with rfl | rfl <;> rcases contents key b hb with rfl | rfl
    · rfl
    · exact absurd same (by decide +kernel)
    · exact absurd same (by decide +kernel)
    · rfl
  exact ⟨declared,run_snapshots sampleLibrary .null sampleRun declared collisions _ _ sampleRun_lives,by decide +kernel⟩

end Sample

end Ros1Adapter.RecordSnapshots
