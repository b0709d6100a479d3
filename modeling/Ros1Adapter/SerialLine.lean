import Ros1Adapter.ActionRules

/-!
# A line of commands for one executor

Commands wait in a bounded queue, one is taken at a time, started and
executed, and the executor completes it later. A result that is not known
latches the line. The history of a line shows the order of its commands, that
no two executions overlap and what the latch lets through.
-/

namespace Ros1Adapter.SerialLine

open ActionRules (append_split)

variable {κ ρ : Type}

/-- What happens on a line. -/
inductive LineEvent (κ ρ : Type) where
  /-- A command joined the queue. -/
  | admitted (command : κ)
  /-- The executor was called with a command, a safe one or not. -/
  | executed (command : κ) (safe : Bool)
  /-- The executor completed a command. -/
  | completed (command : κ) (result : ρ)

/-- A command on its way to the executor. -/
structure Taken (κ : Type) where
  /-- Command. -/
  command : κ
  /-- The latch lets it through. -/
  safe : Bool
  /-- It was started. -/
  started : Bool

/-- A line of commands. -/
structure Line (κ ρ : Type) where
  /-- Waiting commands. -/
  queue : List κ := []
  /-- Command on its way. -/
  current : Option (Taken κ) := none
  /-- A command was started and has not landed. -/
  busy : Bool := false
  /-- The executor has a command. -/
  outstanding : Bool := false
  /-- The started command. -/
  active : Option κ := none
  /-- A result is not known. -/
  uncertain : Bool := false
  /-- No executor any more. -/
  ended : Bool := false
  /-- No new commands. -/
  closed : Bool := true
  /-- History. -/
  log : List (LineEvent κ ρ) := []

section Histories

/-- Commands that joined the queue, in order. -/
def admittedOf (log : List (LineEvent κ ρ)) : List κ :=
  log.filterMap (fun | .admitted c => some c | _ => none)

/-- Commands that the executor was called with, in order. -/
def executedOf (log : List (LineEvent κ ρ)) : List κ :=
  log.filterMap (fun | .executed c _ => some c | _ => none)

variable [DecidableEq κ]

/-- The first command that was executed and not completed, after one more event. -/
def pendingAfter (pending : Option κ) : LineEvent κ ρ → Option κ
  | .admitted _ => pending
  | .executed c _ => pending.or (some c)
  | .completed c _ => if pending=some c then none else pending

/-- The first command that was executed and not completed. -/
def pendingOf (log : List (LineEvent κ ρ)) : Option κ := log.foldl pendingAfter none

/-- Every execution found no other pending. -/
def Alone (log : List (LineEvent κ ρ)) : Prop :=
  ∀ before c safe rest, log=before ++ .executed c safe::rest → pendingOf before=none

/-- After a result that is not known only safe commands are executed. -/
def Latched (unknown : ρ → Prop) (log : List (LineEvent κ ρ)) : Prop :=
  ∀ before c result mid d safe rest,
    log=before ++ .completed c result::(mid ++ .executed d safe::rest) → unknown result → safe=true

theorem pendingOf_append (log : List (LineEvent κ ρ)) (event : LineEvent κ ρ) :
    pendingOf (log ++ [event])=pendingAfter (pendingOf log) event := by
  unfold pendingOf
  rw [List.foldl_append]
  rfl

/-- A command stays pending until it is completed. -/
theorem pending_stays {c : κ} {pending : Option κ} {mid : List (LineEvent κ ρ)} (h : pending=some c)
    (hm : ∀ result, .completed c result∉mid) : mid.foldl pendingAfter pending=some c := by
  induction mid generalizing pending with
  | nil => exact h
  | cons event rest ih =>
    rw [List.foldl_cons]
    refine ih ?_ (fun result mem => hm result (List.mem_cons_of_mem _ mem))
    rw [h]
    cases event with
    | admitted _ | executed _ _ => rfl
    | completed d result =>
      have other : c≠d := by
        intro equal
        rw [equal] at hm
        exact hm result (List.mem_cons_self ..)
      exact if_neg (fun equal => other (Option.some.inj equal))

/-- Between two executions the first is completed. -/
theorem alone_completed {log before mid rest : List (LineEvent κ ρ)} {c d : κ} {safe safe' : Bool} (h : Alone log)
    (hl : log=before ++ .executed c safe::(mid ++ .executed d safe'::rest)) : ∃ result, .completed c result∈mid := by
  by_contra never
  have first := h before c safe _ hl
  have second := h (before ++ .executed c safe::mid) d safe' rest (by rw [hl]; simp)
  have pending : pendingOf (before ++ .executed c safe::mid)=some c := by
    unfold pendingOf
    rw [List.foldl_append,List.foldl_cons]
    refine pending_stays ?_ (fun result mem => never ⟨result,mem⟩)
    show (pendingOf before).or (some c)=some c
    rw [first]
    rfl
  rw [pending] at second
  cases second

theorem alone_other {log : List (LineEvent κ ρ)} {event : LineEvent κ ρ} (h : Alone log)
    (he : ∀ c safe, event≠.executed c safe) : Alone (log ++ [event]) := by
  intro before c safe rest split_
  rcases append_split split_ with ⟨_,_,same⟩ | ⟨rest',_,old⟩
  · exact absurd same.symm (he c safe)
  · exact h before c safe rest' old

theorem alone_executed {log : List (LineEvent κ ρ)} {c : κ} {safe : Bool} (h : Alone log) (hp : pendingOf log=none) :
    Alone (log ++ [.executed c safe]) := by
  intro before d safe' rest split_
  rcases append_split split_ with ⟨_,all,_⟩ | ⟨rest',_,old⟩
  · rw [all]
    exact hp
  · exact h before d safe' rest' old

omit [DecidableEq κ] in
theorem latched_append {unknown : ρ → Prop} {log : List (LineEvent κ ρ)} {event : LineEvent κ ρ} (h : Latched unknown log)
    (he : ∀ d safe, event=.executed d safe → (∃ c result, .completed c result∈log ∧ unknown result) → safe=true) :
    Latched unknown (log ++ [event]) := by
  intro before c result mid d safe rest split_ hu
  have shape : log ++ [event]=(before ++ .completed c result::mid) ++ .executed d safe::rest := by
    rw [split_]
    simp
  rcases append_split shape with ⟨_,all,same⟩ | ⟨rest',_,old⟩
  · refine he d safe same.symm ⟨c,result,?_,hu⟩
    rw [← all]
    exact List.mem_append_right _ (List.mem_cons_self ..)
  · refine h before c result mid d safe rest' ?_ hu
    rw [old]
    simp

end Histories

section Moves

/-- What can happen to a line with room for `limit` commands. -/
inductive Move (limit : ℕ) (unknown : ρ → Prop) : Line κ ρ → Line κ ρ → Prop
  /-- A command joins the queue. -/
  | join (l : Line κ ρ) (c : κ) (open_ : l.closed=false) (room : l.queue.length<limit) :
      Move limit unknown l {l with queue := l.queue ++ [c], log := l.log ++ [.admitted c]}
  /-- Waiting commands leave. -/
  | drop (l : Line κ ρ) (rest : List κ) (fewer : rest.Sublist l.queue) : Move limit unknown l {l with queue := rest}
  /-- The first command is taken. -/
  | take (l : Line κ ρ) (c : κ) (rest : List κ) (safe : Bool) (first : l.queue=c::rest) (alone : l.current=none)
      (free : l.busy=false) (lives : l.ended=false) (latch : l.uncertain=true → safe=true) :
      Move limit unknown l {l with queue := rest, current := some ⟨c,safe,false⟩}
  /-- The taken command is given up. -/
  | abandon (l : Line κ ρ) (c : κ) (safe : Bool) (taken : l.current=some ⟨c,safe,false⟩) :
      Move limit unknown l {l with current := none}
  /-- The taken command is started. -/
  | start (l : Line κ ρ) (c : κ) (safe : Bool) (taken : l.current=some ⟨c,safe,false⟩) :
      Move limit unknown l {l with current := some ⟨c,safe,true⟩, busy := true, active := some c}
  /-- The executor is called. -/
  | execute (l : Line κ ρ) (c : κ) (safe : Bool) (taken : l.current=some ⟨c,safe,true⟩) :
      Move limit unknown l {l with current := none, outstanding := true, log := l.log ++ [.executed c safe]}
  /-- The executor completes. -/
  | complete (l : Line κ ρ) (c : κ) (result : ρ) (uncertain : Bool) (active : l.active=some c)
      (has : l.outstanding=true) (lives : l.ended=false)
      (latch : uncertain=true ↔ l.uncertain=true ∨ unknown result) :
      Move limit unknown l {l with
        active := none, outstanding := false, uncertain := uncertain, log := l.log ++ [.completed c result]}
  /-- The completion ends. -/
  | land (l : Line κ ρ) (completed : l.outstanding=false) (gone : l.active=none) :
      Move limit unknown l {l with busy := false}
  /-- The executor goes. -/
  | leave (l : Line κ ρ) (alone : l.current=none) : Move limit unknown l {l with ended := true}
  /-- The started command is given up without an executor. -/
  | settle (l : Line κ ρ) (finished : l.ended=true) : Move limit unknown l {l with active := none, busy := false}
  /-- The line is closed. -/
  | close (l : Line κ ρ) : Move limit unknown l {l with closed := true}

variable [DecidableEq κ] {limit : ℕ} {unknown : ρ → Prop} {l l' : Line κ ρ}

/-- What holds of every line. -/
structure Orderly (limit : ℕ) (unknown : ρ → Prop) (l : Line κ ρ) : Prop where
  /-- The queue is bounded. -/
  short : l.queue.length ≤ limit
  /-- Commands are executed, taken and waiting in the order in which they joined. -/
  order : (executedOf l.log ++ (l.current.toList.map Taken.command ++ l.queue)).Sublist (admittedOf l.log)
  /-- Executions do not overlap. -/
  alone : Alone l.log
  /-- The latch holds. -/
  latched : Latched unknown l.log
  /-- A pending command is the active one. -/
  pending : l.ended=false → ∀ c, pendingOf l.log=some c → l.outstanding=true ∧ l.active=some c
  /-- A command of the executor keeps the line busy. -/
  busy : l.ended=false → l.outstanding=true → l.busy=true
  /-- A command on its way has the line for itself. -/
  taken : ∀ t, l.current=some t → l.ended=false ∧ l.outstanding=false ∧ (l.uncertain=true → t.safe=true) ∧
    (t.started=false → l.busy=false) ∧ (t.started=true → l.busy=true ∧ l.active=some t.command)
  /-- The latch remembers every result that is not known. -/
  remembered : (∃ c result, .completed c result∈l.log ∧ unknown result) → l.uncertain=true

theorem admittedOf_append (log extra : List (LineEvent κ ρ)) :
    admittedOf (log ++ extra)=admittedOf log ++ admittedOf extra := List.filterMap_append ..

theorem executedOf_append (log extra : List (LineEvent κ ρ)) :
    executedOf (log ++ extra)=executedOf log ++ executedOf extra := List.filterMap_append ..

/-- An event that is no result that is not known needs no latch. -/
theorem remembered_append {log : List (LineEvent κ ρ)} {event : LineEvent κ ρ}
    (he : ∀ c result, event=.completed c result → ¬unknown result)
    (h : ∃ c result, .completed c result∈log ++ [event] ∧ unknown result) :
    ∃ c result, .completed c result∈log ∧ unknown result := by
  obtain ⟨c,result,mem,hu⟩ := h
  rcases List.mem_append.mp mem with old | new
  · exact ⟨c,result,old,hu⟩
  · exact absurd hu (he c result (List.mem_singleton.mp new).symm)

/-- Every move keeps a line orderly. -/
theorem move_orderly (h : Orderly limit unknown l) (hm : Move limit unknown l l') : Orderly limit unknown l' := by
  cases hm with
  | join c open_ room =>
    refine ⟨?_,?_,alone_other h.alone (fun _ _ never => by cases never),
      latched_append h.latched (fun _ _ never => by cases never),?_,h.busy,h.taken,
      fun found => h.remembered (remembered_append (fun _ _ never => by cases never) found)⟩
    · have longer : (l.queue ++ [c]).length=l.queue.length+1 := by simp
      show (l.queue ++ [c]).length ≤ limit
      omega
    · show (executedOf (l.log ++ [LineEvent.admitted c]) ++ (l.current.toList.map Taken.command ++ (l.queue ++ [c]))).Sublist
        (admittedOf (l.log ++ [LineEvent.admitted c]))
      rw [executedOf_append,admittedOf_append]
      have both := List.Sublist.append h.order (List.Sublist.refl [c])
      simpa [executedOf,admittedOf] using both
    · intro lives d found
      have same : pendingOf (l.log ++ [LineEvent.admitted c])=pendingOf l.log := pendingOf_append ..
      rw [same] at found
      exact h.pending lives d found
  | drop rest fewer =>
    refine ⟨Nat.le_trans fewer.length_le h.short,?_,h.alone,h.latched,h.pending,h.busy,h.taken,h.remembered⟩
    have kept := List.Sublist.append (List.Sublist.refl (l.current.toList.map Taken.command)) fewer
    exact (List.Sublist.append (List.Sublist.refl (executedOf l.log)) kept).trans h.order
  | take c rest safe first alone free lives latch =>
    have room := h.short
    have order := h.order
    rw [first] at room order
    rw [alone] at order
    refine ⟨?_,order,h.alone,h.latched,h.pending,h.busy,?_,h.remembered⟩
    · rw [List.length_cons] at room
      show rest.length ≤ limit
      omega
    · intro t same
      cases same
      have quiet : l.outstanding=false := by
        cases has : l.outstanding with
        | false => rfl
        | true => exact absurd (h.busy lives has) (by rw [free]; exact Bool.false_ne_true)
      exact ⟨lives,quiet,latch,(fun _ => free),(fun never => by cases never)⟩
  | abandon c safe taken =>
    refine ⟨h.short,?_,h.alone,h.latched,h.pending,h.busy,(fun _ never => by cases never),h.remembered⟩
    have order := h.order
    rw [taken] at order
    have fewer : l.queue.Sublist (c::l.queue) := List.sublist_cons_self ..
    exact (List.Sublist.append (List.Sublist.refl (executedOf l.log)) fewer).trans order
  | start c safe taken =>
    obtain ⟨lives,quiet,latch,_,_⟩ := h.taken _ taken
    have order := h.order
    rw [taken] at order
    refine ⟨h.short,order,h.alone,h.latched,?_,fun _ _ => rfl,?_,h.remembered⟩
    · intro _ d found
      have has := (h.pending lives d found).1
      rw [quiet] at has
      cases has
    · intro t same
      cases same
      exact ⟨lives,quiet,latch,(fun never => by cases never),(fun _ => ⟨rfl,rfl⟩)⟩
  | execute c safe taken =>
    obtain ⟨lives,quiet,latch,_,started⟩ := h.taken _ taken
    have none_ : pendingOf l.log=none := by
      cases found : pendingOf l.log with
      | none => rfl
      | some d =>
        have has := (h.pending lives d found).1
        rw [quiet] at has
        cases has
    have pending : pendingOf (l.log ++ [LineEvent.executed c safe])=some c := by
      rw [pendingOf_append,none_]
      rfl
    refine ⟨h.short,?_,alone_executed h.alone none_,latched_append h.latched ?_,?_,fun _ _ => (started rfl).1,
      (fun _ never => by cases never),fun found => h.remembered (remembered_append (fun _ _ never => by cases never) found)⟩
    · have order := h.order
      rw [taken] at order
      show (executedOf (l.log ++ [LineEvent.executed c safe]) ++ ([] ++ l.queue)).Sublist (admittedOf (l.log ++ [LineEvent.executed c safe]))
      rw [executedOf_append,admittedOf_append]
      simpa [executedOf,admittedOf] using order
    · intro d safe' same found
      cases same
      exact latch (h.remembered found)
    · intro _ d found
      rw [pending] at found
      cases found
      exact ⟨rfl,(started rfl).2⟩
  | complete c result uncertain active has lives latch =>
    have alone : l.current=none := by
      cases found : l.current with
      | none => rfl
      | some t =>
        have quiet := (h.taken t found).2.1
        rw [has] at quiet
        cases quiet
    have pending : pendingOf (l.log ++ [LineEvent.completed c result])=none := by
      rw [pendingOf_append]
      cases found : pendingOf l.log with
      | none => simp [pendingAfter]
      | some d =>
        have same := (h.pending lives d found).2
        rw [active] at same
        cases same
        exact if_pos rfl
    refine ⟨h.short,?_,alone_other h.alone (fun _ _ never => by cases never),
      latched_append h.latched (fun _ _ never => by cases never),?_,(fun _ never => by cases never),?_,?_⟩
    · show (executedOf (l.log ++ [LineEvent.completed c result]) ++ _).Sublist (admittedOf (l.log ++ [LineEvent.completed c result]))
      rw [executedOf_append,admittedOf_append]
      have order := h.order
      simpa [executedOf,admittedOf] using order
    · intro _ d found
      rw [pending] at found
      cases found
    · intro t found
      have same : l.current=some t := found
      rw [alone] at same
      cases same
    · rintro ⟨d,other,mem,hu⟩
      refine latch.mpr ?_
      rcases List.mem_append.mp mem with old | new
      · exact Or.inl (h.remembered ⟨d,other,old,hu⟩)
      · cases List.mem_singleton.mp new
        exact Or.inr hu
  | land completed gone =>
    refine ⟨h.short,h.order,h.alone,h.latched,h.pending,?_,?_,h.remembered⟩
    · intro _ has
      rw [completed] at has
      cases has
    · intro t same
      obtain ⟨lives,quiet,latch,_,started⟩ := h.taken t same
      refine ⟨lives,quiet,latch,fun _ => rfl,fun began => ?_⟩
      have active := (started began).2
      rw [gone] at active
      cases active
  | leave alone =>
    refine ⟨h.short,h.order,h.alone,h.latched,(fun never => by cases never),(fun never => by cases never),?_,h.remembered⟩
    intro t same
    have found : l.current=some t := same
    rw [alone] at found
    cases found
  | settle finished =>
    refine ⟨h.short,h.order,h.alone,h.latched,?_,?_,?_,h.remembered⟩
    · intro lives
      rw [finished] at lives
      cases lives
    · intro lives
      rw [finished] at lives
      cases lives
    · intro t same
      have lives := (h.taken t same).1
      rw [finished] at lives
      cases lives
  | close => exact ⟨h.short,h.order,h.alone,h.latched,h.pending,h.busy,h.taken,h.remembered⟩

/-- A new line is orderly. -/
theorem new_orderly (limit : ℕ) (unknown : ρ → Prop) (ended closed : Bool) :
    Orderly limit unknown ({ended := ended, closed := closed} : Line κ ρ) where
  short := Nat.zero_le _
  order := List.Sublist.refl _
  alone := fun before _ _ _ never => by
    have lengths := congrArg List.length never
    simp at lengths
  latched := fun before _ _ _ _ _ _ never => by
    have lengths := congrArg List.length never
    simp at lengths
  pending := fun _ _ never => by cases never
  busy := fun _ never => by cases never
  taken := fun _ never => by cases never
  remembered := fun ⟨_,_,never,_⟩ => by cases never

omit [DecidableEq κ] in
/-- A closed line without commands stays one. -/
theorem move_blank {ended : Bool} (hm : Move limit unknown ({ended := ended} : Line κ ρ) l') :
    ∃ ended', l'={ended := ended'} := by
  cases hm with
  | join c open_ room => cases open_
  | drop rest fewer =>
    have none_ : rest=[] := List.sublist_nil.mp fewer
    rw [none_]
    exact ⟨ended,rfl⟩
  | take c rest safe first alone free lives latch => cases first
  | abandon _ _ taken | start _ _ taken | execute _ _ taken => cases taken
  | complete c result uncertain active has lives latch => cases active
  | land _ _ | settle _ | close => exact ⟨ended,rfl⟩
  | leave alone => exact ⟨true,rfl⟩

end Moves

end Ros1Adapter.SerialLine
