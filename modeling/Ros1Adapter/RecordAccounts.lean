import Ros1Adapter.RecordBlobs

/-!
# Contents that facts name are on disk

Every action of the recorder hands at most one payload to the store. The
contents that facts name, the account of the payloads and the directory agree
after every run.
-/

namespace Ros1Adapter.RecordAccounts

open ActionRules SceneJson RecordFacts RecordBlobs

variable {lib : Library}

section Contents

/-- The content that a fact names. -/
def contentAt (event : Event) : Option Content :=
  match event.body with
  | .producer report => some report.content
  | .snapshot _ _ _ content _ => some content
  | .unavailable .. => none

/-- The contents that the facts name. -/
def contentsOf (events : List Event) : List Content := events.filterMap contentAt

variable {β : Type} {f : Event → Option β}

/-- A change of one report does not matter to what does not read it. -/
theorem filterMap_edit {edit : Report → Report}
    (h : ∀ ordinal report, f ⟨ordinal,.producer (edit report)⟩=f ⟨ordinal,.producer report⟩) (events : List Event)
    (place : ℕ) : (editReport events place edit).filterMap f=events.filterMap f := by
  unfold editReport
  induction events generalizing place with
  | nil => rw [List.modify_nil]
  | cons event rest ih =>
    cases place with
    | zero =>
      rw [List.modify_zero_cons,List.filterMap_cons,List.filterMap_cons]
      obtain ⟨ordinal,body⟩ := event
      cases body with
      | producer report =>
        dsimp only
        rw [h]
      | snapshot | unavailable => rfl
    | succ place => rw [List.modify_succ_cons,List.filterMap_cons,List.filterMap_cons,ih]

/-- Validities do not matter to what does not read them. -/
theorem filterMap_settle (h : ∀ ordinal report validity,
      f ⟨ordinal,.producer {report with validity := validity}⟩=f ⟨ordinal,.producer report⟩)
    (events : List Event) (place : ℕ) (message : Message) (previous : Option (ℕ × Report)) :
    (settle events place message previous).filterMap f=events.filterMap f := by
  have ended : (endPrevious events message previous).filterMap f=events.filterMap f := by
    unfold endPrevious
    split
    · split
      · exact filterMap_edit (fun ordinal report => h ordinal report _) _ _
      · rfl
    · rfl
  unfold settle
  split
  · rw [filterMap_edit (fun ordinal report => h ordinal report none),ended]
  · exact ended

end Contents

section Requests

/-- A payload to be kept. -/
structure Request where
  /-- What the file system will do. -/
  disk : Disk
  /-- The payload. -/
  data : List UInt8
  /-- Its label. -/
  label : String
  /-- Its ending. -/
  suffix : String

/-- A sample has to be kept unless it is the last one. -/
def sampleRequest (lib : Library) (s : State) (disk : Disk) (kind source : String) (value : Json) : Option Request :=
  match lib.encoded value with
  | .error _ => none
  | .ok data =>
    if s.observed (kind,source)=some (lib.sha256 data) then none else some ⟨disk,data,kind ++ "-" ++ source,".json"⟩

/-- The payload that an action hands to the store. -/
def request (lib : Library) (s : State) : Action → Option Request
  | .process disk _ =>
    match s.messages with
    | .producer _ text _::_ =>
      match readMessage lib text with
      | .error _ => none
      | .ok message => some ⟨disk,text.toUTF8.data.toList,"application-" ++ message.key.kind,".json"⟩
    | .observation kind source value _::_ => sampleRequest lib s disk kind source value
    | _ => none
  | .file read disk kind source suffix _ =>
    match read.data with
    | .error _ => none
    | .ok data =>
      if s.observed (kind,source)=some (lib.sha256 data) then none else some ⟨disk,data,kind ++ "-" ++ source,suffix⟩
  | .parameter (.found value) disk name _ => sampleRequest lib s disk "parameter" name value
  | _ => none

/-- The account and the contents that facts name, after a step: they stay, or the payload was kept. -/
def Stored (lib : Library) (s : State) (asked : Option Request) (t : State) : Prop :=
  (books t=books s ∧ contentsOf t.events=contentsOf s.events) ∨
  ∃ r, asked=some r ∧ refusal lib s r.disk r.data=none ∧ books t=books (keep lib s r.data r.label r.suffix) ∧
    (contentsOf t.events=contentsOf s.events ∨
      contentsOf t.events=contentsOf s.events ++
        [⟨pathOf lib s r.data r.label r.suffix,lib.sha256 r.data,r.data.length⟩])

/-- A payload that is kept changes the account alone. -/
theorem keep_eq (lib : Library) (s : State) (data : List UInt8) (label suffix : String) :
    ∃ hashes paths bytes, keep lib s data label suffix=
      {s with storedHashes := hashes,storedPaths := paths,storedBytes := bytes} := by
  unfold keep
  split
  · exact ⟨s.storedHashes,s.storedPaths,s.storedBytes,rfl⟩
  · exact ⟨_,_,_,rfl⟩

/-- A sample in full. -/
theorem observation_eq (lib : Library) (disk : Disk) (kind source : String) (value observed : Json) (s : State) :
    observation lib disk kind source value observed s=
      match lib.encoded value with
      | .error failure => .error failure s
      | .ok data =>
        if s.observed (kind,source)=some (lib.sha256 data) then .ok () s
        else
          match refusal lib s disk data with
          | some failure => .error failure s
          | none =>
            match (keep lib s data (kind ++ "-" ++ source) ".json").append (.snapshot kind source observed
              ⟨pathOf lib s data (kind ++ "-" ++ source) ".json",lib.sha256 data,data.length⟩
              "observation-only; between-sample changes are unknown") with
            | (t,none) => .ok () t
            | (t,some _) =>
              .ok () {t with observed := Function.update t.observed (kind,source) (some (lib.sha256 data))} := by
  unfold observation
  cases lib.encoded value with
  | error failure => rfl
  | ok data =>
    change (if s.observed (kind,source)=some (lib.sha256 data) then (pure () : Observer Unit) else _) s=_
    dsimp only
    split
    · rfl
    · have stored := store_eq lib disk data (kind ++ "-" ++ source) ".json" s
      cases refused : refusal lib s disk data with
      | some failure =>
        rw [refused] at stored
        rw [bind_of_error stored]
      | none =>
        rw [refused] at stored
        rw [bind_of_ok stored]
        change EStateM.Result.ok () _=_
        dsimp only
        split <;> simp only [*]

/-- Adding a fact keeps the account. -/
theorem append_account {s t : State} {body : Body} {place : Option ℕ} (added : s.append body=(t,place)) :
    books t=books s ∧ (contentsOf t.events=contentsOf s.events ∨
      contentsOf t.events=contentsOf s.events ++ (contentAt ⟨s.events.length,body⟩).toList) := by
  unfold State.append at added
  split at added
  · cases added
    exact ⟨rfl,Or.inl rfl⟩
  · split at added
    · cases added
      exact ⟨rfl,Or.inl rfl⟩
    · cases added
      refine ⟨rfl,Or.inr ?_⟩
      show List.filterMap contentAt (s.events ++ [⟨s.events.length,body⟩])=_
      rw [List.filterMap_append,List.filterMap_cons,List.filterMap_nil]
      cases contentAt ⟨s.events.length,body⟩ <;> rfl

/-- A missing source names no content. -/
theorem unavailable_account (s : State) (kind source reason : String) (clock : Json) :
    books (s.unavailable kind source reason clock)=books s ∧
      contentsOf (s.unavailable kind source reason clock).events=contentsOf s.events := by
  unfold State.unavailable
  split
  · exact ⟨rfl,rfl⟩
  · have none_ : ∀ {t : State} {place : Option ℕ}, s.append (.unavailable kind source clock reason)=(t,place) →
        books t=books s ∧ contentsOf t.events=contentsOf s.events := by
      intro t place added
      obtain ⟨books_,same | more⟩ := append_account added
      · exact ⟨books_,same⟩
      · exact ⟨books_,more.trans (List.append_nil _)⟩
    split
    · next added => exact none_ added
    · next added =>
      have same := none_ added
      exact ⟨same.1,same.2⟩

/-- A missing source after a payload. -/
theorem Stored.unavailable {s t : State} {asked : Option Request} (h : Stored lib s asked t)
    (kind source reason : String) (clock : Json) : Stored lib s asked (t.unavailable kind source reason clock) := by
  obtain ⟨books_,contents⟩ := unavailable_account t kind source reason clock
  rcases h with ⟨same,none_⟩ | ⟨r,known,accepted,kept,added⟩
  · exact Or.inl ⟨books_.trans same,contents.trans none_⟩
  · refine Or.inr ⟨r,known,accepted,books_.trans kept,?_⟩
    rw [contents]
    exact added

/-- No payload. -/
theorem stored_same (lib : Library) (s : State) (asked : Option Request) : Stored lib s asked s := Or.inl ⟨rfl,rfl⟩

/-- A payload without a fact. -/
theorem stored_keep {s : State} (r : Request) (accepted : refusal lib s r.disk r.data=none) :
    Stored lib s (some r) (keep lib s r.data r.label r.suffix) := by
  refine Or.inr ⟨r,rfl,accepted,rfl,Or.inl ?_⟩
  obtain ⟨hashes,paths,bytes,shape⟩ := keep_eq lib s r.data r.label r.suffix
  rw [shape]
  rfl

/-- A payload with its fact. -/
theorem stored_append {s t u : State} {r : Request} {body : Body} {place : Option ℕ}
    (accepted : refusal lib s r.disk r.data=none)
    (added : (keep lib s r.data r.label r.suffix).append body=(t,place))
    (named : ∀ ordinal, contentAt ⟨ordinal,body⟩=
      some ⟨pathOf lib s r.data r.label r.suffix,lib.sha256 r.data,r.data.length⟩)
    (same : books u=books t) (contents : contentsOf u.events=contentsOf t.events) : Stored lib s (some r) u := by
  have before : contentsOf (keep lib s r.data r.label r.suffix).events=contentsOf s.events := by
    obtain ⟨hashes,paths,bytes,shape⟩ := keep_eq lib s r.data r.label r.suffix
    rw [shape]
    rfl
  obtain ⟨books_,listed⟩ := append_account added
  rw [before,named] at listed
  refine Or.inr ⟨r,rfl,accepted,same.trans books_,?_⟩
  rw [contents]
  exact listed

/-- A sample keeps at most its payload. -/
theorem observation_stored (lib : Library) (disk : Disk) (kind source : String) (value observed : Json) (s : State) :
    Stored lib s (sampleRequest lib s disk kind source value)
      (stateOf (observation lib disk kind source value observed s)) := by
  rw [observation_eq]
  unfold sampleRequest
  cases lib.encoded value with
  | error failure => exact stored_same ..
  | ok data =>
    dsimp only
    split
    · exact stored_same ..
    · cases accepted : refusal lib s disk data with
      | some failure => exact stored_same ..
      | none =>
        dsimp only
        split
        · next added =>
          exact stored_append (r := ⟨disk,data,kind ++ "-" ++ source,".json"⟩) accepted added (fun _ => rfl) rfl rfl
        · next added =>
          exact stored_append (r := ⟨disk,data,kind ++ "-" ++ source,".json"⟩) accepted added (fun _ => rfl) rfl rfl

/-- A report is recorded with its content. -/
theorem record_stored {s : State} {r : Request} (accepted : refusal lib s r.disk r.data=none) (message : Message)
    (observed : Json) (previous : Option (ℕ × Report)) :
    Stored lib s (some r) ((keep lib s r.data r.label r.suffix).record message
      ⟨pathOf lib s r.data r.label r.suffix,lib.sha256 r.data,r.data.length⟩ observed previous) := by
  unfold State.record
  split
  · next added => exact stored_append accepted added (fun _ => rfl) rfl rfl
  · next t place added =>
    refine stored_append accepted added (fun _ => rfl) rfl ?_
    exact filterMap_settle (fun _ _ _ => rfl) t.events place message previous

/-- A text from the fact topic keeps at most itself. -/
theorem producer_stored (lib : Library) (disk : Disk) (text : String) (observed : Json) (s : State) :
    Stored lib s (match readMessage lib text with
      | .error _ => none
      | .ok message => some ⟨disk,text.toUTF8.data.toList,"application-" ++ message.key.kind,".json"⟩)
      (stateOf (producer lib disk text observed s)) := by
  unfold producer
  cases readMessage lib text with
  | error failure => exact stored_same ..
  | ok message =>
    have stored := store_eq lib disk text.toUTF8.data.toList ("application-" ++ message.key.kind) ".json" s
    change Stored lib s _ (stateOf ((store lib disk text.toUTF8.data.toList ("application-" ++ message.key.kind) ".json"
      >>= _) s))
    cases accepted : refusal lib s disk text.toUTF8.data.toList with
    | some failure =>
      rw [accepted] at stored
      rw [bind_of_error stored]
      exact stored_same ..
    | none =>
      rw [accepted] at stored
      rw [bind_of_ok stored,get_bind]
      let r : Request := ⟨disk,text.toUTF8.data.toList,"application-" ++ message.key.kind,".json"⟩
      have accepted' : refusal lib s r.disk r.data=none := accepted
      dsimp only
      cases (keep lib s text.toUTF8.data.toList ("application-" ++ message.key.kind) ".json").previous message.key with
      | none => exact record_stored accepted' message observed none
      | some pair =>
        obtain ⟨place,before⟩ := pair
        by_cases repeated : message.sequence=before.sequence ∧
            lib.sha256 text.toUTF8.data.toList=before.content.sha256
        · dsimp only
          rw [if_pos repeated]
          exact stored_keep r accepted'
        · by_cases stale : message.sequence ≤ before.sequence
          · dsimp only
            rw [if_neg repeated,if_pos stale]
            exact stored_keep r accepted'
          · dsimp only
            rw [if_neg repeated,if_neg stale]
            exact record_stored accepted' message observed (some (place,before))

/-- A file keeps at most its bytes. -/
theorem file_stored (lib : Library) (read : FileRead) (disk : Disk) (kind source suffix : String) (clock : Json)
    (s : State) : Stored lib s (request lib s (.file read disk kind source suffix clock))
      (file lib read disk kind source suffix clock s) := by
  unfold file request
  dsimp only
  cases read.data with
  | error reason => exact (stored_same lib s none).unavailable ..
  | ok data =>
    dsimp only
    split
    · exact stored_same ..
    · rw [store_eq]
      cases accepted : refusal lib s disk data with
      | some failure => exact (stored_same lib s _).unavailable ..
      | none =>
        dsimp only
        split
        · next added =>
          exact stored_append (r := ⟨disk,data,kind ++ "-" ++ source,suffix⟩) accepted added (fun _ => rfl) rfl rfl
        · next added =>
          exact stored_append (r := ⟨disk,data,kind ++ "-" ++ source,suffix⟩) accepted added (fun _ => rfl) rfl rfl

/-- A parameter keeps at most its value. -/
theorem parameter_stored (lib : Library) (read : ParameterRead) (disk : Disk) (name : String) (clock : Json)
    (s : State) : Stored lib s (request lib s (.parameter read disk name clock))
      (parameter lib read disk name clock s) := by
  unfold parameter
  cases read with
  | raised _ | unset => exact (stored_same lib s none).unavailable ..
  | found value =>
    have kept := observation_stored lib disk "parameter" name value clock s
    show Stored lib s (sampleRequest lib s disk "parameter" name value) _
    dsimp only
    split
    · next result =>
      rw [result] at kept
      exact kept
    · next result =>
      rw [result] at kept
      exact Stored.unavailable kept ..

/-- Waiting messages do not matter to the account. -/
theorem stored_messages {s t : State} {asked : Option Request} {messages : List Queued}
    (h : Stored lib {s with messages := messages} asked t) : Stored lib s asked t := by
  rcases h with same | ⟨r,known,accepted,kept,added⟩
  · exact Or.inl same
  · refine Or.inr ⟨r,known,accepted,kept.trans ?_,added⟩
    unfold keep
    split <;> rfl

/-- An exception while a message is worked on names no content. -/
theorem handled_stored {disk : Disk} {clock : Json} {s : State} {message : Queued} {rest : List Queued}
    {asked : Option Request} (waiting : s.messages=message::rest)
    (kept : Stored lib {s with messages := rest} asked (stateOf (handle lib disk clock message {s with messages := rest}))) :
    Stored lib s asked (processMessage lib disk clock s) := by
  unfold processMessage
  rw [waiting]
  dsimp only
  split
  · next result =>
    rw [result] at kept
    exact stored_messages kept
  · next result =>
    rw [result] at kept
    exact (stored_messages kept).unavailable ..

/-- A message keeps at most one payload. -/
theorem process_stored (lib : Library) (disk : Disk) (clock : Json) (s : State) :
    Stored lib s (request lib s (.process disk clock)) (processMessage lib disk clock s) := by
  unfold request
  cases waiting : s.messages with
  | nil =>
    unfold processMessage
    rw [waiting]
    exact stored_same ..
  | cons message rest =>
    apply handled_stored waiting
    cases message with
    | producer source text observed => exact producer_stored lib disk text observed {s with messages := rest}
    | unavailable source reason => exact (stored_same lib {s with messages := rest} none).unavailable ..
    | observation kind source value observed =>
      exact observation_stored lib disk kind source value observed {s with messages := rest}

/-- Every action keeps at most the payload it hands to the store. -/
theorem step_stored (lib : Library) (s : State) (action : Action) :
    Stored lib s (request lib s action) (step lib s action) := by
  cases action with
  | enqueue message =>
    show Stored lib s none (enqueue s message)
    unfold enqueue
    split
    · exact stored_same ..
    · split <;> exact Or.inl ⟨rfl,rfl⟩
  | process disk clock => exact process_stored lib disk clock s
  | file read disk kind source suffix clock => exact file_stored lib read disk kind source suffix clock s
  | parameter read disk name clock => exact parameter_stored lib read disk name clock s
  | pollFailed type clock => exact (stored_same lib s none).unavailable ..
  | snapshot =>
    show Stored lib s none (snapshot s)
    unfold snapshot
    split <;> exact Or.inl ⟨rfl,rfl⟩
  | close => exact Or.inl ⟨rfl,rfl⟩
  | sealed clock stillRunning =>
    show Stored lib s none (sealFacts clock stillRunning s)
    unfold sealFacts snapshot
    split <;> exact Or.inl ⟨rfl,rfl⟩

end Requests

section Directories

/-- A payload within the bounds reaches the file system. -/
def Reaches (lib : Library) (s : State) (data : List UInt8) : Prop :=
  data.length ≤ maxBytes ∧ (lib.sha256 data∈s.storedHashes ∨ s.storedBytes+data.length ≤ maxTotalBytes)

/-- The files before and after an action. -/
def Moves (lib : Library) (s : State) (action : Action) (files files' : Files) : Prop :=
  match request lib s action with
  | none => files'=files
  | some r =>
    (Reaches lib s r.data → Serves files (pathOf lib s r.data r.label r.suffix) r.data r.disk files') ∧
      (¬Reaches lib s r.data → files'=files)

/-- The files before and after a run. -/
def Lives (lib : Library) : State → Files → List Action → Files → Prop
  | _,files,[],files' => files'=files
  | s,files,action::rest,files' => ∃ middle, Moves lib s action files middle ∧ Lives lib (step lib s action) middle rest files'

/-- No action changes a file that is there. -/
theorem Moves.kept {s : State} {action : Action} {files files' : Files} (h : Moves lib s action files files') :
    Kept files files' := by
  unfold Moves at h
  split at h
  · rw [h]
    exact fun _ _ there => there
  · next r _ =>
    by_cases reaches : Reaches lib s r.data
    · exact (h.1 reaches).kept
    · rw [h.2 reaches]
      exact fun _ _ there => there

/-- The account and the contents that facts name agree with the directory. -/
structure Accounted (lib : Library) (files : Files) (s : State) : Prop where
  /-- The account agrees. -/
  ledger : Ledger lib files s
  /-- Every content has its file. -/
  filed : ∀ content∈contentsOf s.events, Filed lib files s content

/-- An action keeps the agreement. -/
theorem step_accounted {s : State} {action : Action} {files files' : Files} (h : Accounted lib files s)
    (moves : Moves lib s action files files') : Accounted lib files' (step lib s action) := by
  have older : ∀ {t : State}, (∀ entry∈s.storedPaths, entry∈t.storedPaths) → ∀ content∈contentsOf s.events,
      Filed lib files' t content := fun listed content named => (h.filed content named).kept moves.kept listed
  rcases step_stored lib s action with ⟨same,contents⟩ | ⟨r,asked,accepted,same,contents⟩
  · refine ⟨(h.ledger.kept moves.kept).congr same,fun content named => ?_⟩
    rw [contents] at named
    exact older (fun entry listed => by rw [(books_eq same).2.2]; exact listed) content named
  · have reaches : Reaches lib s r.data := ⟨(refusal_none accepted).1,(refusal_none accepted).2.1⟩
    have served : Serves files (pathOf lib s r.data r.label r.suffix) r.data r.disk files' := by
      unfold Moves at moves
      rw [asked] at moves
      exact moves.1 reaches
    obtain ⟨ledger,filed,listed⟩ := h.ledger.keep accepted served
    have paths := (books_eq same).2.2
    have listed' : ∀ entry∈s.storedPaths, entry∈(step lib s action).storedPaths := by
      rw [paths]
      exact listed
    refine ⟨ledger.congr same,fun content named => ?_⟩
    rcases contents with contents | contents
    · rw [contents] at named
      exact older listed' content named
    · rw [contents] at named
      rcases List.mem_append.mp named with before | new
      · exact older listed' content before
      · rw [List.mem_singleton.mp new]
        exact filed.kept (fun _ _ there => there) (fun entry there => by rw [paths]; exact there)

/-- A run keeps the agreement. -/
theorem run_accounted {s : State} {files files' : Files} (h : Accounted lib files s) {actions : List Action}
    (lives : Lives lib s files actions files') : Accounted lib files' (run (step lib) s actions) := by
  induction actions generalizing s files with
  | nil =>
    rw [show files'=files from lives]
    exact h
  | cons action rest ih =>
    obtain ⟨middle,moves,lives⟩ := lives
    rw [run_cons]
    exact ih (step_accounted h moves) lives

/-- The account of a new observer is empty. -/
theorem newFacts_accounted (lib : Library) (files : Files) (clock : Json) : Accounted lib files (newFacts clock) := by
  refine ⟨⟨rfl,List.nodup_nil,List.nodup_nil,?_,?_,rfl,Nat.zero_le _⟩,?_⟩
  · intro entry listed
    cases listed
  · intro entry listed
    cases listed
  · intro content named
    cases named

end Directories

end Ros1Adapter.RecordAccounts
