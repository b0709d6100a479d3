import Mathlib.Logic.Relation
import Ros1Adapter.RobotOutcomes
import Ros1Adapter.SerialLine

/-!
# Order of the commands of one robot

The commands of a member form a line: what the scheduler, the native I/O and
the registration thread do to one member are moves of its line, or nothing.
So its commands are executed one at a time and in the order of their
admission, and an unknown result latches the member.
-/

namespace Ros1Adapter.RobotOrder

open RobotCommands RobotOutcomes SerialLine ActionRules
open RobotControl (MemberIdentity NativeRobot ExecuteRequest)

section Lines

/-- The command of a member that is on its way, and whether it was started. -/
def taken (m : ℕ) : Loop → Option (ℕ × Bool)
  | .admission i c _ _ => if i=m then some (c,false) else none
  | .starting i c _ _ => if i=m then some (c,true) else none
  | _ => none

/-- The latch lets a command through. -/
def safeCall (s : Server) (m c : ℕ) : Bool := (s.slots m).native.isSafetyOperation (s.calls c).request.operation

/-- What an event says about the line of a member. -/
def lineEvent (m : ℕ) : Event → Option (LineEvent ℕ OperationEvent)
  | .admitted i c => if i=m then some (.admitted c) else none
  | .executed i c safe => if i=m then some (.executed c safe) else none
  | .completed i c event => if i=m then some (.completed c event) else none
  | _ => none

/-- The line of a member. -/
def lineOf (m : ℕ) (s : Server) : Line ℕ OperationEvent where
  queue := (s.slots m).commands
  current := (taken m s.loop).map (fun t => ⟨t.1,safeCall s m t.1,t.2⟩)
  busy := (s.slots m).inFlight
  outstanding := (s.slots m).outstanding
  active := (s.slots m).activeCall
  uncertain := (s.slots m).uncertain
  ended := !nativeIo s
  closed := (s.slots m).closing
  log := s.log.filterMap (lineEvent m)

/-- The result of a command is not known. -/
def unknownResult (event : OperationEvent) : Prop := event.phase=.uncertain

/-- The line of a member moves, or stays. -/
def Moves (m : ℕ) (s s' : Server) : Prop :=
  Relation.ReflTransGen (Move kMaximumCommandsPerRobot unknownResult) (lineOf m s) (lineOf m s')

/-- A step that moves lines and adds no member. -/
structure LineStep (s s' : Server) : Prop where
  /-- No new member. -/
  count : s'.memberCount=s.memberCount
  /-- The lines move. -/
  moves : ∀ m, Moves m s s'

variable {s s' : Server} {m i c : ℕ}

theorem moves_same (h : lineOf m s'=lineOf m s) : Moves m s s' := by
  unfold Moves
  rw [h]

theorem moves_one (h : Move kMaximumCommandsPerRobot unknownResult (lineOf m s) (lineOf m s')) : Moves m s s' :=
  Relation.ReflTransGen.single h

theorem moves_trans {s'' : Server} (h : Moves m s s') (g : Moves m s' s'') : Moves m s s'' :=
  Relation.ReflTransGen.trans h g

theorem lineStep_trans {s'' : Server} (h : LineStep s s') (g : LineStep s' s'') : LineStep s s'' :=
  ⟨g.count.trans h.count,fun m => moves_trans (h.moves m) (g.moves m)⟩

theorem lineStep_same (hn : s'.memberCount=s.memberCount) (h : ∀ m, lineOf m s'=lineOf m s) : LineStep s s' :=
  ⟨hn,fun m => moves_same (h m)⟩

/-- The line of a member does not see what happens to another. -/
theorem line_setSlot_other {change : Slot → Slot} (h : m≠i) : lineOf m (s.setSlot i change)=lineOf m s := by
  have same : (s.setSlot i change).slots m=s.slots m := Function.update_of_ne h ..
  unfold lineOf safeCall
  rw [same]
  rfl

/-- The line of a changed member. -/
theorem line_setSlot_self {change : Slot → Slot} (h : (change (s.slots m)).native=(s.slots m).native) :
    lineOf m (s.setSlot m change)={lineOf m s with
      queue := (change (s.slots m)).commands, busy := (change (s.slots m)).inFlight,
      outstanding := (change (s.slots m)).outstanding, active := (change (s.slots m)).activeCall,
      uncertain := (change (s.slots m)).uncertain, closed := (change (s.slots m)).closing} := by
  have same : (s.setSlot m change).slots m=change (s.slots m) := Function.update_self ..
  unfold lineOf safeCall
  rw [same,h]
  rfl

/-- A line sees neither the native mutex nor the stop of the native robot. -/
theorem line_acquire (thread : Thread) : lineOf m (s.acquire i thread)=lineOf m s := by
  by_cases h : m=i
  · rw [← h]
    exact line_setSlot_self rfl
  · exact line_setSlot_other h

theorem line_unlock : lineOf m (s.unlock i)=lineOf m s := by
  by_cases h : m=i
  · rw [← h]
    exact line_setSlot_self rfl
  · exact line_setSlot_other h

/-- A line does not see the outcomes and places of calls. -/
theorem line_setCall {change : Call → Call} (h : (change (s.calls c)).request=(s.calls c).request) :
    lineOf m (s.setCall c change)=lineOf m s := by
  have requests : ∀ d, ((s.setCall c change).calls d).request=(s.calls d).request := by
    intro d
    by_cases hd : d=c
    · have same : (s.setCall c change).calls c=change (s.calls c) := Function.update_self ..
      rw [hd,same,h]
    · have same : (s.setCall c change).calls d=s.calls d := Function.update_of_ne hd ..
      rw [same]
  have safes : ∀ d, safeCall (s.setCall c change) m d=safeCall s m d := by
    intro d
    unfold safeCall
    rw [requests d]
    rfl
  unfold lineOf
  simp only [safes]
  rfl

theorem finish_request (call : Call) (outcome : Outcome) : (call.finish outcome).request=call.request := by
  unfold Call.finish
  split
  · rfl
  · rfl

theorem line_refuse (event : OperationEvent) : lineOf m (refuse c event s)=lineOf m s :=
  line_setCall (finish_request _ _)

theorem line_logged {event : Event} (h : lineEvent m event=none) : lineOf m (s.logged event)=lineOf m s := by
  have same : (s.log ++ [event]).filterMap (lineEvent m)=s.log.filterMap (lineEvent m) := by
    rw [List.filterMap_append,List.filterMap_cons_none h,List.filterMap_nil,List.append_nil]
  show {lineOf m s with log := (s.log ++ [event]).filterMap (lineEvent m)}=lineOf m s
  rw [same]
  rfl

/-- An event of a member extends the history of its line. -/
theorem line_logged_own {event : Event} {own : LineEvent ℕ OperationEvent} (h : lineEvent m event=some own) :
    lineOf m (s.logged event)={lineOf m s with log := (lineOf m s).log ++ [own]} := by
  have longer : (s.log ++ [event]).filterMap (lineEvent m)=s.log.filterMap (lineEvent m) ++ [own] := by
    rw [List.filterMap_append,List.filterMap_cons_some h,List.filterMap_nil]
  show {lineOf m s with log := (s.log ++ [event]).filterMap (lineEvent m)}=_
  rw [longer]
  rfl

/-- The scheduler moves between two points without a command. -/
theorem line_goto {loop : Loop} (ht : taken m s.loop=none) (hio : nativeIo s=true) (ht' : taken m loop=none)
    (hio' : nativeIo (s.goto loop)=true) : lineOf m (s.goto loop)=lineOf m s := by
  unfold lineOf
  rw [hio,hio',ht]
  show Line.mk _ ((taken m loop).map _) _ _ _ _ _ _ _=_
  rw [ht']
  rfl

/-- A command of the member is on its way. -/
theorem line_goto_own {loop : Loop} {started : Bool} (hio : nativeIo s=true) (ht : taken m loop=some (c,started))
    (hio' : nativeIo (s.goto loop)=true) :
    lineOf m (s.goto loop)={lineOf m s with current := some ⟨c,safeCall s m c,started⟩} := by
  unfold lineOf
  rw [hio,hio']
  show Line.mk _ ((taken m loop).map _) _ _ _ _ _ _ _=_
  rw [ht]
  rfl

end Lines

section Scheduler

variable {s : Server} {m i c : ℕ}

/-- The scheduler runs and has no command on its way. -/
def between : Loop → Bool
  | .admission _ _ _ _ => false
  | .starting _ _ _ _ => false
  | .settling _ => false
  | .done => false
  | _ => true

theorem between_taken {loop : Loop} (h : between loop=true) (m : ℕ) : taken m loop=none := by
  cases loop with
  | admission _ _ _ _ | starting _ _ _ _ => cases h
  | _ => rfl

theorem between_io (h : between s.loop=true) : nativeIo s=true := by
  unfold nativeIo
  split
  · next hl =>
    rw [hl] at h
    cases h
  · next hl =>
    rw [hl] at h
    cases h
  · rfl

theorem line_between {loop : Loop} (h : between s.loop=true) (hp : between loop=true) (m : ℕ) :
    lineOf m (s.goto loop)=lineOf m s :=
  line_goto (between_taken h m) (between_io h) (between_taken hp m) (between_io hp)

/-- A queue is emptied. -/
theorem clearCommands_line (i : ℕ) (event : OperationEvent) (s : Server) : LineStep s (clearCommands i event s) := by
  obtain ⟨calls,same⟩ := clearCommands_frame i event s
  have requests : ∀ (cs : List ℕ) (t : Server) (m : ℕ),
      lineOf m (cs.foldl (fun s c => refuse c event s) t)=lineOf m t := by
    intro cs
    induction cs with
    | nil => exact fun _ _ => rfl
    | cons c rest ih => exact fun t m => (ih (refuse c event t) m).trans (line_refuse event)
  refine ⟨by rw [same]; rfl,fun m => ?_⟩
  have refused := requests (s.slots i).commands s m
  by_cases h : m=i
  · refine moves_one ?_
    have slots : (((s.slots i).commands.foldl (fun s c => refuse c event s) s).slots i)=s.slots i := by
      obtain ⟨calls',same'⟩ := refuse_fold_frame event (s.slots i).commands s
      rw [same']
    rw [h] at refused ⊢
    have cleared : lineOf i (clearCommands i event s)={lineOf i s with queue := []} := by
      unfold clearCommands
      rw [line_setSlot_self rfl,refused,slots]
      rfl
    rw [cleared]
    exact Move.drop _ [] (List.nil_sublist _)
  · refine moves_same ?_
    unfold clearCommands
    rw [line_setSlot_other h,refused]

theorem enqueue_line (c : ℕ) (found : Option ℕ) (s : Server) : LineStep s (enqueue c found s) := by
  have refused : ∀ event, LineStep s (refuse c event s) := fun event => lineStep_same rfl (fun _ => line_refuse event)
  unfold enqueue
  split
  · exact refused _
  · next i =>
    split
    · exact refused _
    · next closed =>
      split
      · exact refused _
      · next room =>
        have closing : (s.slots i).closing=false := by
          cases hc : (s.slots i).closing with
          | false => rfl
          | true =>
            rw [hc] at closed
            exact absurd rfl closed
        let queued := (s.setSlot i (fun slot => {slot with commands := slot.commands ++ [c]})).setCall c
          (fun call => {call with place := .queued i})
        have call : ∀ m, lineOf m queued=
            lineOf m (s.setSlot i (fun slot => {slot with commands := slot.commands ++ [c]})) := fun m => line_setCall rfl
        refine ⟨rfl,fun m => ?_⟩
        by_cases h : m=i
        · refine moves_one ?_
          have event : lineEvent i (.admitted i c)=some (.admitted c) := if_pos rfl
          have after : lineOf i (queued.logged (.admitted i c))=
              {lineOf i s with
                queue := (lineOf i s).queue ++ [c], log := (lineOf i s).log ++ [.admitted c]} := by
            rw [line_logged_own event,call i,line_setSlot_self rfl]
            rfl
          rw [h,after]
          exact Move.join _ c closing (Nat.lt_of_not_le room)
        · refine moves_same ?_
          have event : lineEvent m (.admitted i c)=none := if_neg (fun equal => h equal.symm)
          have logged : lineOf m (queued.logged (.admitted i c))=lineOf m queued := line_logged event
          exact logged.trans ((call m).trans (line_setSlot_other h))

theorem takeCommand_line {left : List ℕ} {due : Bool} (choice : Choice) (hl : s.loop=.ready i left due) :
    LineStep s (takeCommand i left due choice s) := by
  have here : between s.loop=true := by rw [hl]; rfl
  have skipped : LineStep s (s.goto (.serve left due)) := lineStep_same rfl (line_between here rfl)
  unfold takeCommand
  simp only []
  split
  · exact skipped
  · next guards =>
    split
    · exact skipped
    · next c rest hq =>
      have popped : LineStep s (s.setSlot i (fun slot => {slot with commands := rest})) := by
        refine ⟨rfl,fun m => ?_⟩
        by_cases h : m=i
        · refine moves_one ?_
          have after : lineOf i (s.setSlot i (fun slot => {slot with commands := rest}))={lineOf i s with queue := rest} :=
            line_setSlot_self rfl
          have fewer : rest.Sublist (lineOf i s).queue := by
            show rest.Sublist (s.slots i).commands
            rw [hq]
            exact List.sublist_cons_self c rest
          rw [h,after]
          exact Move.drop _ rest fewer
        · exact moves_same (line_setSlot_other h)
      have moved : ∀ t : Server, (∀ m, lineOf m t=lineOf m (s.setSlot i (fun slot => {slot with commands := rest}))) →
          t.loop=s.loop → t.memberCount=s.memberCount → ∀ loop, between loop=true → LineStep s (t.goto loop) := by
        intro t lines hloop hcount loop hp
        have still : between t.loop=true := by rw [hloop]; exact here
        refine ⟨hcount,fun m => ?_⟩
        have same := (line_between still hp m).trans (lines m)
        exact moves_trans (popped.moves m) (moves_same same)
      split
      · have lost : ∀ m, lineOf m ((s.setSlot i (fun slot => {slot with commands := rest})).setCall c
            (fun call => {call with place := .dropped}))=
              lineOf m (s.setSlot i (fun slot => {slot with commands := rest})) := fun m => line_setCall rfl
        have failing := moved _ lost rfl rfl (.failing []) rfl
        exact lineStep_trans failing (lineStep_same rfl (fun _ => rfl))
      · unfold pop
        simp only []
        split
        · exact moved _ (fun m => line_refuse _) rfl rfl _ rfl
        · next passes =>
          have free : (s.slots i).inFlight=false := by
            cases busy : (s.slots i).inFlight with
            | false => rfl
            | true =>
              rw [busy] at guards
              simp at guards
          have latch : (s.slots i).uncertain=true → safeCall s i c=true := by
            intro uncertain
            unfold popRefusal at passes
            unfold safeCall
            rw [uncertain] at passes
            cases safe : (s.slots i).native.isSafetyOperation (s.calls c).request.operation with
            | true => rfl
            | false =>
              rw [safe] at passes
              simp only [Bool.not_false,Bool.and_self,if_true] at passes
              split at passes
              · cases passes
              · cases passes
          let u := s.setSlot i (fun slot => {slot with commands := rest})
          let t := (u.setCall c (fun call => {call with place := .dispatching})).acquire i .scheduler
          have lines : ∀ m, lineOf m t=lineOf m u := fun m => (line_acquire .scheduler).trans (line_setCall rfl)
          have io : nativeIo t=true := between_io here
          refine ⟨rfl,fun m => ?_⟩
          by_cases h : m=i
          · refine moves_one ?_
            have safes : safeCall t i c=safeCall s i c := by
              have slot : t.slots i={s.slots i with commands := rest, lock := some .scheduler} := by
                simp [t,u,Server.acquire,Server.setSlot,Server.setCall]
              have call : t.calls c={s.calls c with place := .dispatching} := Function.update_self ..
              unfold safeCall
              rw [slot,call]
            have own : taken i (.admission i c left due)=some (c,false) := if_pos rfl
            have after : lineOf i (t.goto (.admission i c left due))=
                {lineOf i s with queue := rest, current := some ⟨c,safeCall s i c,false⟩} := by
              rw [line_goto_own io own rfl,safes,lines i,line_setSlot_self rfl]
              rfl
            have alone : (lineOf i s).current=none := by
              show (taken i s.loop).map _=none
              rw [between_taken here i]
              rfl
            have lives : (lineOf i s).ended=false := by
              show (!nativeIo s)=false
              rw [between_io here]
              rfl
            rw [h]
            show Move _ _ (lineOf i s) (lineOf i (t.goto (.admission i c left due)))
            rw [after]
            exact Move.take _ c rest _ hq alone free lives latch
          · refine moves_same ?_
            have other : taken m (.admission i c left due)=none := if_neg (fun equal => h equal.symm)
            have same : lineOf m (t.goto (.admission i c left due))=lineOf m t :=
              line_goto (between_taken here m) io other rfl
            exact same.trans ((lines m).trans (line_setSlot_other h))

theorem decideControl_line {left : List ℕ} {due : Bool} (choice : Choice) (hl : s.loop=.admission i c left due) :
    LineStep s (decideControl i c left due choice s) := by
  have io : nativeIo s=true := by
    unfold nativeIo
    rw [hl]
  have own : taken i s.loop=some (c,false) := by
    rw [hl]
    exact if_pos rfl
  have others : ∀ m, m≠i → taken m s.loop=none := by
    intro m h
    rw [hl]
    exact if_neg (fun equal => h equal.symm)
  have current : (lineOf i s).current=some ⟨c,safeCall s i c,false⟩ := by
    show (taken i s.loop).map _=_
    rw [own]
    rfl
  have lives : (lineOf i s).ended=false := by
    show (!nativeIo s)=false
    rw [io]
    rfl
  have given : ∀ t : Server, (∀ m, lineOf m t=lineOf m s) → t.loop=s.loop → t.memberCount=s.memberCount →
      ∀ loop, between loop=true → LineStep s (t.goto loop) := by
    intro t lines hloop hcount loop hp
    have still : nativeIo t=true := by
      unfold nativeIo at io ⊢
      rw [hloop]
      exact io
    refine ⟨hcount,fun m => ?_⟩
    by_cases h : m=i
    · refine moves_one ?_
      have after : lineOf i (t.goto loop)={lineOf i s with current := none} := by
        have shape : lineOf i (t.goto loop)={lineOf i t with
            current := (taken i loop).map (fun x => ⟨x.1,safeCall t i x.1,x.2⟩), ended := !nativeIo (t.goto loop)} := rfl
        rw [shape,between_taken hp i,between_io (s := t.goto loop) hp,lines i]
        show {lineOf i s with current := none, ended := false}={lineOf i s with current := none}
        rw [← lives]
      rw [h,after]
      exact Move.abandon _ c _ current
    · refine moves_same ?_
      have free : taken m t.loop=none := by
        rw [hloop]
        exact others m h
      exact (line_goto free still (between_taken hp m) (between_io hp)).trans (lines m)
  unfold decideControl
  simp only []
  split
  · have lost : ∀ m, lineOf m ((s.unlock i).setCall c (fun call => {call with place := .dropped}))=lineOf m s := by
      intro m
      have call : lineOf m ((s.unlock i).setCall c (fun call => {call with place := .dropped}))=lineOf m (s.unlock i) :=
        line_setCall rfl
      exact call.trans line_unlock
    have failing := given _ lost rfl rfl (.failing []) rfl
    exact lineStep_trans failing (lineStep_same rfl (fun _ => rfl))
  · split
    · exact given _ (fun m => line_unlock.trans (line_refuse _)) rfl rfl _ rfl
    · exact given _ (fun m => line_unlock.trans (line_refuse _)) rfl rfl _ rfl
    · let t := (s.setControl (RobotControl.dispatch i (s.calls c).request choice.now)).setSlot i
        (fun slot => {slot with inFlight := true, activeCall := some c})
      have still : nativeIo t=true := io
      refine ⟨rfl,fun m => ?_⟩
      by_cases h : m=i
      · refine moves_one ?_
        have safes : safeCall t i c=safeCall s i c := by
          have slot : t.slots i={s.slots i with inFlight := true, activeCall := some c} := Function.update_self ..
          unfold safeCall
          rw [slot]
          rfl
        have started : taken i (.starting i c left due)=some (c,true) := if_pos rfl
        have slots : lineOf i t={lineOf i s with busy := true, active := some c} := line_setSlot_self rfl
        have after : lineOf i (t.goto (.starting i c left due))=
            {lineOf i s with current := some ⟨c,safeCall s i c,true⟩, busy := true, active := some c} := by
          rw [line_goto_own still started rfl,safes,slots]
        rw [h]
        show Move _ _ (lineOf i s) (lineOf i (t.goto (.starting i c left due)))
        rw [after]
        exact Move.start _ c _ current
      · refine moves_same ?_
        have other : taken m (.starting i c left due)=none := if_neg (fun equal => h equal.symm)
        have same : lineOf m (t.goto (.starting i c left due))=lineOf m t := line_goto (others m h) still other rfl
        have slots : lineOf m t=lineOf m s := line_setSlot_other h
        exact same.trans slots

theorem callNative_line {left : List ℕ} {due : Bool} (hl : s.loop=.starting i c left due) :
    LineStep s (callNative i c left due s) := by
  have io : nativeIo s=true := by
    unfold nativeIo
    rw [hl]
  let t := ((s.setControl (RobotControl.execute i)).setSlot i (fun slot => {slot with outstanding := true})).setCall c
    (fun call => {call with place := .invoked})
  have calls : ∀ m, lineOf m t=
      lineOf m ((s.setControl (RobotControl.execute i)).setSlot i (fun slot => {slot with outstanding := true})) :=
    fun m => line_setCall rfl
  have shape : ∀ m, lineOf m ((t.logged (.executed i c (safeCall s i c))).goto (.executing i left due))=
      {lineOf m (t.logged (.executed i c (safeCall s i c))) with current := none, ended := !nativeIo s} := by
    intro m
    rw [io]
    rfl
  refine ⟨rfl,fun m => ?_⟩
  show Moves m s ((t.logged (.executed i c (safeCall s i c))).goto (.executing i left due))
  by_cases h : m=i
  · refine moves_one ?_
    have own : taken i s.loop=some (c,true) := by
      rw [hl]
      exact if_pos rfl
    have current : (lineOf i s).current=some ⟨c,safeCall s i c,true⟩ := by
      show (taken i s.loop).map _=_
      rw [own]
      rfl
    have event : lineEvent i (.executed i c (safeCall s i c))=some (.executed c (safeCall s i c)) := if_pos rfl
    have slots : lineOf i ((s.setControl (RobotControl.execute i)).setSlot i
        (fun slot => {slot with outstanding := true}))={lineOf i s with outstanding := true} := line_setSlot_self rfl
    rw [h,shape i,line_logged_own event,calls i,slots]
    exact Move.execute _ c _ current
  · refine moves_same ?_
    have free : taken m s.loop=none := by
      rw [hl]
      exact if_neg (fun equal => h equal.symm)
    have event : lineEvent m (.executed i c (safeCall s i c))=none := if_neg (fun equal => h equal.symm)
    have slots : lineOf m ((s.setControl (RobotControl.execute i)).setSlot i
        (fun slot => {slot with outstanding := true}))=lineOf m s := line_setSlot_other h
    have current : (lineOf m s).current=none := by
      show (taken m s.loop).map _=none
      rw [free]
      rfl
    rw [shape m,line_logged event,calls m,slots,← current]
    rfl

/-- The active command of a member is settled once the native I/O is gone. -/
theorem settle_line (i : ℕ) (event : OperationEvent) (hio : nativeIo s=false) : LineStep s (settle i event s) := by
  have ended : LineStep s (s.setSlot i (fun slot => {slot with activeCall := none, inFlight := false})) := by
    refine ⟨rfl,fun m => ?_⟩
    by_cases h : m=i
    · refine moves_one ?_
      have slots : lineOf i (s.setSlot i (fun slot => {slot with activeCall := none, inFlight := false}))=
          {lineOf i s with active := none, busy := false} := line_setSlot_self rfl
      have outside : (lineOf i s).ended=true := by
        show (!nativeIo s)=true
        rw [hio]
        rfl
      rw [h,slots]
      exact Move.settle _ outside
    · exact moves_same (line_setSlot_other h)
  unfold settle
  simp only []
  split
  · next c _ =>
    refine lineStep_trans ended (lineStep_same rfl (fun m => ?_))
    have answered : lineOf m ((s.setSlot i (fun slot => {slot with activeCall := none, inFlight := false})).setCall c
        (fun call => call.finish (.server event)))=
          lineOf m (s.setSlot i (fun slot => {slot with activeCall := none, inFlight := false})) :=
      line_setCall (finish_request _ _)
    exact answered
  · exact ended

/-- The native I/O goes. -/
theorem line_leave {loop : Loop} (h : between s.loop=true) (hp : ∀ m, taken m loop=none)
    (hio : ∀ t : Server, nativeIo (t.goto loop)=false) : LineStep s (s.goto loop) := by
  refine ⟨rfl,fun m => moves_one ?_⟩
  have alone : (lineOf m s).current=none := by
    show (taken m s.loop).map _=none
    rw [between_taken h m]
    rfl
  have after : lineOf m (s.goto loop)={lineOf m s with ended := true} := by
    have shape : lineOf m (s.goto loop)={lineOf m s with
        current := (taken m loop).map (fun x => ⟨x.1,safeCall s m x.1,x.2⟩), ended := !nativeIo (s.goto loop)} := rfl
    rw [shape,hp m,hio s]
    show {lineOf m s with current := none, ended := true}={lineOf m s with ended := true}
    rw [← alone]
  rw [after]
  exact Move.leave _ alone

theorem schedule_line (choice : Choice) (s : Server) : LineStep s (schedule choice s) := by
  have moved : ∀ (t : Server) (loop : Loop), (∀ m, lineOf m t=lineOf m s) → between s.loop=true →
      t.memberCount=s.memberCount → t.loop=s.loop → between loop=true → LineStep s (t.goto loop) := by
    intro t loop lines hp hcount hloop hp'
    have still : between t.loop=true := by rw [hloop]; exact hp
    exact lineStep_same hcount (fun m => (line_between still hp' m).trans (lines m))
  have left_ : ∀ (t : Server) (left : List ℕ) (fence : Bool), (∀ m, lineOf m t=lineOf m s) → between s.loop=true →
      t.memberCount=s.memberCount → t.loop=s.loop → LineStep s (leaveLoop left fence t) := by
    intro t left fence lines hp hcount hloop
    exact lineStep_trans (moved t (.failing left) lines hp hcount hloop rfl) (lineStep_same rfl (fun _ => rfl))
  have cleared : ∀ i event, between s.loop=true → ∀ loop, between loop=true →
      LineStep s ((clearCommands i event s).goto loop) := by
    intro i event hp loop hp'
    have clear := clearCommands_line i event s
    have still : between (clearCommands i event s).loop=true := by
      obtain ⟨calls,same⟩ := clearCommands_frame i event s
      rw [same]
      exact hp
    exact lineStep_trans clear (lineStep_same rfl (line_between still hp'))
  unfold schedule
  split
  · next hl =>
    have here : between s.loop=true := by rw [hl]; rfl
    split
    · exact left_ s _ _ (fun _ => rfl) here rfl rfl
    · exact moved ({s with jobs := [], fence := none}) _ (fun _ => rfl) here rfl rfl (by rfl)
  · next hl =>
    have here : between s.loop=true := by rw [hl]; rfl
    split
    · exact moved _ _ (fun _ => line_refuse serverStopped) here rfl rfl (by rfl)
    · exact moved s _ (fun _ => rfl) here rfl rfl (by rfl)
  · next hl => exact moved s _ (fun _ => rfl) (by rw [hl]; rfl) rfl rfl (by rfl)
  · next hl => exact moved s _ (fun _ => rfl) (by rw [hl]; rfl) rfl rfl (by rfl)
  · next c found left fence hl =>
    have here : between s.loop=true := by rw [hl]; rfl
    split
    · exact left_ _ _ _ (fun _ => line_refuse admissionInterrupted) here rfl rfl
    · have queued := enqueue_line c found s
      have still : between (enqueue c found s).loop=true := by
        have same : (enqueue c found s).loop=s.loop := by
          unfold enqueue
          split
          · rfl
          · split
            · rfl
            · split
              · rfl
              · rfl
        rw [same]
        exact here
      exact lineStep_trans queued (lineStep_same rfl (line_between still rfl))
  · next hl =>
    have here : between s.loop=true := by rw [hl]; rfl
    split
    · exact left_ s _ _ (fun _ => rfl) here rfl rfl
    · exact cleared _ _ here _ rfl
  · next hl =>
    have here : between s.loop=true := by rw [hl]; rfl
    split
    · exact left_ s _ _ (fun _ => rfl) here rfl rfl
    · exact moved ({s with barrier := some true}) _ (fun _ => rfl) here rfl rfl (by rfl)
  · next hl =>
    have here : between s.loop=true := by rw [hl]; rfl
    let members := (refreshed s).filter (fun m => !((s.slots m).closing && !(s.slots m).inFlight))
    exact moved ({s with snapshot := members, seen := some s.membersRevision}) _ (fun _ => rfl) here rfl rfl (by rfl)
  · next hl =>
    have here : between s.loop=true := by rw [hl]; rfl
    split
    · exact left_ s _ _ (fun _ => rfl) here rfl rfl
    · split
      · exact moved s _ (fun _ => rfl) here rfl rfl (by rfl)
      · exact moved s _ (fun _ => rfl) here rfl rfl (by rfl)
  · next hl =>
    have here : between s.loop=true := by rw [hl]; rfl
    split
    · exact left_ s _ _ (fun _ => rfl) here rfl rfl
    · exact moved s _ (fun _ => rfl) here rfl rfl (by rfl)
  · next hl =>
    have here : between s.loop=true := by rw [hl]; rfl
    split
    · exact moved _ _ (fun _ => line_acquire .scheduler) here rfl rfl (by rfl)
    · exact moved s _ (fun _ => rfl) here rfl rfl (by rfl)
  · next i left due hl =>
    have here : between s.loop=true := by rw [hl]; rfl
    split
    · exact left_ _ _ _ (fun _ => line_unlock) here rfl rfl
    · split
      · exact moved s _ (fun _ => rfl) here rfl rfl (by rfl)
      · have logged : ∀ m, lineOf m ((s.setControl (RobotControl.watch i choice.now)).logged (.coreSilent i))=lineOf m s :=
          fun m => line_logged rfl
        exact moved _ _ logged here rfl rfl (by rfl)
  · next hl =>
    have here : between s.loop=true := by rw [hl]; rfl
    split
    · exact left_ _ _ _ (fun _ => line_unlock) here rfl rfl
    · exact moved (s.setControl (RobotControl.coreSilent choice.released)) _ (fun _ => rfl) here rfl rfl (by rfl)
  · next hl => exact moved _ _ (fun _ => line_logged (by rfl)) (by rw [hl]; rfl) rfl rfl (by rfl)
  · next hl =>
    have here : between s.loop=true := by rw [hl]; rfl
    split
    · exact left_ _ _ _ (fun _ => line_unlock) here rfl rfl
    · exact moved _ _ (fun _ => line_unlock) here rfl rfl (by rfl)
  · next hl => exact takeCommand_line choice hl
  · next hl => exact decideControl_line choice hl
  · next hl => exact callNative_line hl
  · next hl =>
    have here : between s.loop=true := by rw [hl]; rfl
    split
    · exact left_ _ _ _ (fun _ => line_unlock) here rfl rfl
    · exact moved _ _ (fun _ => line_unlock) here rfl rfl (by rfl)
  · next hl => exact moved _ _ (fun _ => line_refuse serverStopped) (by rw [hl]; rfl) rfl rfl (by rfl)
  · next hl => exact moved s _ (fun _ => rfl) (by rw [hl]; rfl) rfl rfl (by rfl)
  · next hl =>
    have here : between s.loop=true := by rw [hl]; rfl
    split
    · exact lineStep_trans (line_leave here (fun _ => rfl) (fun _ => rfl)) (lineStep_same rfl (fun _ => rfl))
    · exact cleared _ _ here _ rfl
  · next hl => exact moved s _ (fun _ => rfl) (by rw [hl]; rfl) rfl rfl (by rfl)
  · next hl =>
    have here : between s.loop=true := by rw [hl]; rfl
    exact lineStep_trans (line_leave here (fun _ => rfl) (fun _ => rfl)) (lineStep_same rfl (fun _ => rfl))
  · next i left hl =>
    have outside : nativeIo s=false := by
      unfold nativeIo
      rw [hl]
    have settled := settle_line i nativeOwnerExited outside
    refine lineStep_trans settled (lineStep_same rfl (fun m => ?_))
    obtain ⟨calls,same⟩ := settle_frame i nativeOwnerExited s
    have loop : (settle i nativeOwnerExited s).loop=.settling (i::left) := by
      rw [same]
      exact hl
    unfold lineOf nativeIo
    rw [loop]
    rfl
  · next hl =>
    refine lineStep_same rfl (fun m => ?_)
    unfold lineOf nativeIo
    rw [hl]
    rfl
  · exact lineStep_same rfl (fun _ => rfl)

end Scheduler

section Threads

variable {s : Server} {m i c : ℕ}

theorem completeNative_line (i : ℕ) (event : OperationEvent) (s : Server) : LineStep s (completeNative i event s) := by
  unfold completeNative
  split
  · next c active =>
    split
    · exact lineStep_same rfl (fun _ => rfl)
    · next guards =>
      have io : nativeIo s=true := by
        cases io : nativeIo s with
        | true => rfl
        | false =>
          rw [io] at guards
          simp at guards
      have has : (s.slots i).outstanding=true := by
        cases has : (s.slots i).outstanding with
        | true => rfl
        | false =>
          rw [has] at guards
          simp at guards
      let ended := (s.setControl (RobotControl.complete i (decide (event.phase=.succeeded) && event.error.isNone))).setSlot i
        (fun slot => {slot with
          activeCall := none, outstanding := false,
          uncertain := slot.uncertain || decide (event.phase=.uncertain)})
      have answered : ∀ m, lineOf m (ended.setCall c (fun call => call.finish (.native event)))=lineOf m ended :=
        fun m => line_setCall (finish_request _ _)
      refine ⟨rfl,fun m => ?_⟩
      show Moves m s ((ended.setCall c (fun call => call.finish (.native event))).logged (.completed i c event))
      by_cases h : m=i
      · refine moves_one ?_
        have own : lineEvent i (.completed i c event)=some (.completed c event) := if_pos rfl
        have slots : lineOf i ended={lineOf i s with
            active := none, outstanding := false,
            uncertain := (s.slots i).uncertain || decide (event.phase=.uncertain)} := line_setSlot_self rfl
        have lives : (lineOf i s).ended=false := by
          show (!nativeIo s)=false
          rw [io]
          rfl
        have latch : ((s.slots i).uncertain || decide (event.phase=.uncertain))=true ↔
            (lineOf i s).uncertain=true ∨ unknownResult event := by
          rw [Bool.or_eq_true,decide_eq_true_iff]
          rfl
        rw [h,line_logged_own own,answered i,slots]
        exact Move.complete _ c event _ active has lives latch
      · refine moves_same ?_
        have other : lineEvent m (.completed i c event)=none := if_neg (fun equal => h equal.symm)
        have slots : lineOf m ended=lineOf m s := line_setSlot_other h
        rw [line_logged other,answered m,slots]
  · exact lineStep_same rfl (fun _ => rfl)

theorem land_line (i : ℕ) (s : Server) : LineStep s (land i s) := by
  unfold land
  split
  · exact lineStep_same rfl (fun _ => rfl)
  · next guards =>
    have completed : (s.slots i).outstanding=false := by
      cases has : (s.slots i).outstanding with
      | false => rfl
      | true =>
        rw [has] at guards
        simp at guards
    have gone : (s.slots i).activeCall=none := by
      cases active : (s.slots i).activeCall with
      | none => rfl
      | some c =>
        rw [active] at guards
        simp at guards
    refine ⟨rfl,fun m => ?_⟩
    by_cases h : m=i
    · refine moves_one ?_
      have slots : lineOf i (s.setSlot i (fun slot => {slot with inFlight := false}))={lineOf i s with busy := false} :=
        line_setSlot_self rfl
      rw [h,slots]
      exact Move.land _ completed gone
    · exact moves_same (line_setSlot_other h)

theorem takeOut_line (i : ℕ) (s : Server) : LineStep s (takeOut s i) := by
  refine ⟨rfl,fun m => ?_⟩
  have frame : lineOf m (takeOut s i)=lineOf m (s.setSlot i (fun slot => {slot with closing := true})) := rfl
  unfold Moves
  rw [frame]
  by_cases h : m=i
  · have slots : lineOf i (s.setSlot i (fun slot => {slot with closing := true}))={lineOf i s with closed := true} :=
      line_setSlot_self rfl
    rw [h,slots]
    exact Relation.ReflTransGen.single (Move.close _)
  · rw [line_setSlot_other h]

theorem takeOut_all_line (members : List ℕ) (s : Server) : LineStep s (members.foldl takeOut s) := by
  induction members generalizing s with
  | nil => exact lineStep_same rfl (fun _ => rfl)
  | cons i rest ih => exact lineStep_trans (takeOut_line i s) (ih (takeOut s i))

/-- What a gone scheduler left is settled. -/
theorem settleDead_line (members : List ℕ) (hio : nativeIo s=false) : LineStep s (members.foldl settleDead s) := by
  induction members generalizing s with
  | nil => exact lineStep_same rfl (fun _ => rfl)
  | cons i rest ih =>
    have settled := settle_line i nativeSchedulerExited hio
    have cleared := clearCommands_line i schedulerExited (settle i nativeSchedulerExited s)
    have still : nativeIo (settleDead s i)=false := by
      obtain ⟨calls,same⟩ := settle_frame i nativeSchedulerExited s
      obtain ⟨calls',same'⟩ := clearCommands_frame i schedulerExited (settle i nativeSchedulerExited s)
      unfold settleDead
      rw [same',same]
      exact hio
    exact lineStep_trans (lineStep_trans settled cleared) (ih still)

theorem register_line (throws : Bool) (h : ∀ identity native, s.registrar≠.publishing identity native) :
    LineStep s (register throws s) := by
  have turned : ∀ registrar, LineStep s (s.turn registrar) := fun _ => lineStep_same rfl (fun _ => rfl)
  have failed : ∀ members drain, LineStep s (fenceFailed members drain s) := by
    intro members drain
    unfold fenceFailed
    split
    · exact turned _
    · exact turned _
  unfold register
  split
  · exact lineStep_same rfl (fun _ => rfl)
  · next identity native hr => exact absurd hr (h identity native)
  · exact turned _
  · split
    · exact turned _
    · next dead =>
      have outside : nativeIo s=false := by
        unfold alive at dead
        unfold nativeIo
        split at dead
        · next hl => rw [hl]
        · exact absurd rfl dead
      exact lineStep_trans (settleDead_line _ outside) (lineStep_same rfl (fun _ => rfl))
  · split
    · exact lineStep_same rfl (fun _ => rfl)
    · exact failed _ _
  · split
    · exact turned _
    · exact failed _ _
    · split
      · exact lineStep_same rfl (fun _ => rfl)
      · exact lineStep_same rfl (fun _ => rfl)
  · split
    · exact turned _
    · exact lineStep_same rfl (fun _ => rfl)
  · exact turned _
  · split
    · exact lineStep_same rfl (fun _ => rfl)
    · split
      · exact turned _
      · exact lineStep_same rfl (fun m => (line_logged (by rfl)).trans (line_acquire .registration))
  · next i left drain _ =>
    split
    · exact lineStep_same rfl (fun m => line_unlock)
    · have stopped : ∀ m, lineOf m (s.setSlot i (fun slot => {slot with nativeStopped := true}))=lineOf m s := by
        intro m
        by_cases h : m=i
        · rw [h]
          exact line_setSlot_self rfl
        · exact line_setSlot_other h
      exact lineStep_same rfl (fun m => (line_logged (by rfl)).trans (line_unlock.trans (stopped m)))
  · exact lineStep_same rfl (fun _ => rfl)
  · exact lineStep_same rfl (fun _ => rfl)

end Threads

section Runs

variable {s s' : Server} {m c : ℕ}

/-- The lines of all members are orderly, and members that do not exist yet have empty ones. -/
structure Lines (s : Server) : Prop where
  /-- Every call is where its place says. -/
  placed : Placed s
  /-- Every line is orderly. -/
  orderly : ∀ m, Orderly kMaximumCommandsPerRobot unknownResult (lineOf m s)
  /-- Members that do not exist yet. -/
  unborn : ∀ m, s.memberCount ≤ m → ∃ ended, lineOf m s={ended := ended}

theorem moves_orderly {l l' : Line ℕ OperationEvent} (h : Orderly kMaximumCommandsPerRobot unknownResult l)
    (hm : Relation.ReflTransGen (Move kMaximumCommandsPerRobot unknownResult) l l') :
    Orderly kMaximumCommandsPerRobot unknownResult l' := by
  induction hm with
  | refl => exact h
  | tail _ last ih => exact move_orderly ih last

theorem moves_blank {l l' : Line ℕ OperationEvent} (h : ∃ ended, l={ended := ended})
    (hm : Relation.ReflTransGen (Move kMaximumCommandsPerRobot unknownResult) l l') : ∃ ended, l'={ended := ended} := by
  induction hm with
  | refl => exact h
  | tail _ last ih =>
    obtain ⟨ended,same⟩ := ih
    rw [same] at last
    exact move_blank last

/-- A command on its way to a member is the one in the hands of the scheduler. -/
theorem taken_handed {loop : Loop} {t : ℕ × Bool} (h : taken m loop=some t) : handedCall loop=some t.1 := by
  cases loop with
  | admission i c left due =>
    have own : (if i=m then some (c,false) else none)=some t := h
    split at own
    · cases own
      rfl
    · cases own
  | starting i c left due =>
    have own : (if i=m then some (c,true) else none)=some t := h
    split at own
    · cases own
      rfl
    · cases own
  | _ => cases h

theorem lines_step (h : Lines s) (hp : Placed s') (hl : LineStep s s') : Lines s' := by
  refine ⟨hp,fun m => moves_orderly (h.orderly m) (hl.moves m),fun m hm => ?_⟩
  rw [hl.count] at hm
  exact moves_blank (h.unborn m hm) (hl.moves m)

theorem publish_lines (identity : MemberIdentity) (native : NativeRobot) (h : Lines s) :
    Lines (publish identity native s) := by
  have others : ∀ m, m≠s.memberCount → lineOf m (publish identity native s)=lineOf m s := by
    intro m hm
    have same : (publish identity native s).slots m=s.slots m := Function.update_of_ne hm ..
    unfold lineOf safeCall
    rw [same]
    rfl
  refine ⟨publish_placed identity native h.placed,fun m => ?_,fun m hm => ?_⟩
  · by_cases hm : m=s.memberCount
    · obtain ⟨ended,blank⟩ := h.unborn m (by omega)
      have same : (publish identity native s).slots m={identity := identity, native := native, closing := false} := by
        rw [hm]
        exact Function.update_self ..
      have free : taken m s.loop=none := by
        have current := congrArg Line.current blank
        exact Option.map_eq_none_iff.mp current
      have log : s.log.filterMap (lineEvent m)=[] := congrArg Line.log blank
      have new : lineOf m (publish identity native s)={ended := !nativeIo s, closed := false} := by
        unfold lineOf
        rw [same]
        show Line.mk _ ((taken m s.loop).map _) _ _ _ _ _ _ (s.log.filterMap (lineEvent m))=_
        rw [free,log]
        rfl
      rw [new]
      exact new_orderly _ _ _ _
    · rw [others m hm]
      exact h.orderly m
  · have later : s.memberCount+1 ≤ m := hm
    rw [others m (by omega)]
    exact h.unborn m (by omega)

theorem step_lines (site : RobotControl.Site) (s : Server) (action : Action) (h : Lines s) : Lines (step site s action) := by
  have placed := step_placed site s action h.placed
  have still : (∀ m, lineOf m (step site s action)=lineOf m s) →
      (step site s action).memberCount=s.memberCount → Lines (step site s action) :=
    fun lines count => lines_step h placed (lineStep_same count lines)
  cases action with
  | post request =>
    have same : (∀ m, lineOf m (postCommand request s)=lineOf m s) ∧ (postCommand request s).memberCount=s.memberCount := by
      unfold postCommand
      split
      · exact ⟨fun _ => rfl,rfl⟩
      · refine ⟨fun m => ?_,rfl⟩
        -- The new call is not the one on its way.
        cases found : taken m s.loop with
        | none =>
          unfold lineOf
          show Line.mk _ ((taken m s.loop).map _) _ _ _ _ _ _ _=_
          rw [found]
          rfl
        | some t =>
          have handed : handedCall s.loop=some t.1 := taken_handed found
          have older : t.1≠s.callCount := Nat.ne_of_lt (h.placed.handed t.1 handed).2
          unfold lineOf
          show Line.mk _ ((taken m s.loop).map _) _ _ _ _ _ _ _=_
          rw [found]
          simp only [Option.map_some]
          unfold safeCall
          simp only [Function.update_of_ne older]
          rfl
    exact still same.1 same.2
  | cancel c => exact still (fun m => line_setCall rfl) rfl
  | control input =>
    have same : (∀ m, lineOf m (step site s (.control input))=lineOf m s) ∧
        (step site s (.control input)).memberCount=s.memberCount := by
      unfold step
      simp only []
      split
      · exact ⟨fun _ => rfl,rfl⟩
      · exact ⟨fun _ => rfl,rfl⟩
    exact still same.1 same.2
  | retireCall r =>
    have same : (∀ m, lineOf m (retireCall r s)=lineOf m s) ∧ (retireCall r s).memberCount=s.memberCount := by
      unfold retireCall
      split
      · exact ⟨fun _ => rfl,rfl⟩
      · split
        · exact ⟨fun _ => rfl,rfl⟩
        · split
          · exact ⟨fun _ => rfl,rfl⟩
          · exact ⟨fun m => (line_logged (by rfl)).trans (line_acquire (.rpc r)),rfl⟩
    exact still same.1 same.2
  | retireReturn r success =>
    have same : (∀ m, lineOf m (retireReturn r success s)=lineOf m s) ∧
        (retireReturn r success s).memberCount=s.memberCount := by
      unfold retireReturn
      split
      · exact ⟨fun _ => rfl,rfl⟩
      · split
        · exact ⟨fun m => line_unlock,rfl⟩
        · exact ⟨fun _ => rfl,rfl⟩
    exact still same.1 same.2
  | lifecycle site =>
    have same : (∀ m, lineOf m (lifecycle site s)=lineOf m s) ∧ (lifecycle site s).memberCount=s.memberCount := by
      cases site with
      | stop =>
        unfold lifecycle
        simp only []
        split
        · exact ⟨fun _ => rfl,rfl⟩
        · split
          · exact ⟨fun _ => rfl,rfl⟩
          · exact ⟨fun _ => rfl,rfl⟩
          · exact ⟨fun _ => rfl,rfl⟩
      | shutdown => exact ⟨fun _ => rfl,rfl⟩
      | _ =>
        unfold lifecycle
        simp only []
        split
        · exact ⟨fun _ => rfl,rfl⟩
        · exact ⟨fun _ => rfl,rfl⟩
    exact still same.1 same.2
  | schedule choice => exact lines_step h placed (schedule_line choice s)
  | complete m event => exact lines_step h placed (completeNative_line m event s)
  | land m => exact lines_step h placed (land_line m s)
  | apply identity native =>
    have same : (∀ m, lineOf m (applyMember identity native s)=lineOf m s) ∧
        (applyMember identity native s).memberCount=s.memberCount := by
      unfold applyMember
      split
      · split
        · exact ⟨fun _ => rfl,rfl⟩
        · exact ⟨fun _ => rfl,rfl⟩
      · exact ⟨fun _ => rfl,rfl⟩
    exact still same.1 same.2
  | remove m =>
    have moved : LineStep s (removeMember m s) := by
      unfold removeMember
      split
      · split
        · exact lineStep_same rfl (fun _ => rfl)
        · exact lineStep_trans (takeOut_line m s) (lineStep_same rfl (fun _ => rfl))
      · exact lineStep_same rfl (fun _ => rfl)
    exact lines_step h placed moved
  | closeAll =>
    have moved : LineStep s (closeAllMembers s) := by
      unfold closeAllMembers
      split
      · split
        · exact lineStep_same rfl (fun _ => rfl)
        · exact lineStep_trans (takeOut_all_line _ s) (lineStep_same rfl (fun _ => rfl))
      · exact lineStep_same rfl (fun _ => rfl)
    exact lines_step h placed moved
  | register throws =>
    by_cases publishing : ∃ identity native, s.registrar=.publishing identity native
    · obtain ⟨identity,native,hr⟩ := publishing
      have published : register throws s=publish identity native s := by
        unfold register
        rw [hr]
      show Lines (register throws s)
      rw [published]
      exact publish_lines identity native h
    · refine lines_step h placed (register_line throws (fun identity native hr => publishing ⟨identity,native,hr⟩))

theorem initial_lines : Lines {} where
  placed := initial_placed
  orderly := fun _ => new_orderly _ _ _ _
  unborn := fun _ _ => ⟨false,rfl⟩

theorem run_lines (site : RobotControl.Site) (actions : List Action) : Lines (run (step site) {} actions) :=
  run_invariant (fun s action h _ => step_lines site s action h) initial_lines (along_true _ _ actions)

/-- Commands that were queued at a member, in order. -/
def admittedTo (m : ℕ) (log : List Event) : List ℕ :=
  log.filterMap (fun | .admitted i c => if i=m then some c else none | _ => none)

/-- Commands that the native robot of a member was called with, in order. -/
def executedOn (m : ℕ) (log : List Event) : List ℕ :=
  log.filterMap (fun | .executed i c _ => if i=m then some c else none | _ => none)

/-- Commands of a member are executed in order, one at a time and under the latch. -/
structure CommandOrder (s : Server) (m : ℕ) : Prop where
  /-- At most 32 commands are queued. -/
  short : (s.slots m).commands.length ≤ 32
  /-- A command is queued once. -/
  once : (admittedTo m s.log).Nodup
  /-- Commands are executed in the order of their admission. -/
  order : (executedOn m s.log).Sublist (admittedTo m s.log)
  /-- Between two executions the native robot completed the first. -/
  alone : ∀ before c safe mid d safe' rest,
    s.log=before ++ .executed m c safe::(mid ++ .executed m d safe'::rest) → ∃ event, .completed m c event∈mid
  /-- After an unknown result only safety operations are executed. -/
  latch : ∀ before c event mid d safe rest,
    s.log=before ++ .completed m c event::(mid ++ .executed m d safe::rest) → event.phase=.uncertain → safe=true

theorem admittedTo_line (m : ℕ) (log : List Event) : admittedTo m log=admittedOf (log.filterMap (lineEvent m)) := by
  unfold admittedTo admittedOf
  rw [List.filterMap_filterMap]
  refine List.filterMap_congr (fun event _ => ?_)
  cases event with
  | admitted i _ | executed i _ _ | completed i _ _ => by_cases h : i=m <;> simp [lineEvent,h]
  | _ => rfl

theorem executedOn_line (m : ℕ) (log : List Event) : executedOn m log=executedOf (log.filterMap (lineEvent m)) := by
  unfold executedOn executedOf
  rw [List.filterMap_filterMap]
  refine List.filterMap_congr (fun event _ => ?_)
  cases event with
  | admitted i _ | executed i _ _ | completed i _ _ => by_cases h : i=m <;> simp [lineEvent,h]
  | _ => rfl

/-- The commands of one member are among those of all. -/
theorem admittedTo_sublist (m : ℕ) (log : List Event) : (admittedTo m log).Sublist (admittedCalls log) := by
  induction log with
  | nil => exact List.Sublist.refl _
  | cons event rest ih =>
    cases event with
    | admitted i c =>
      by_cases h : i=m
      · have own : admittedTo m (.admitted i c::rest)=c::admittedTo m rest := by simp [admittedTo,h]
        rw [own]
        exact List.Sublist.cons_cons c ih
      · have other : admittedTo m (.admitted i c::rest)=admittedTo m rest := by simp [admittedTo,h]
        rw [other]
        exact List.Sublist.cons c ih
    | _ => exact ih

/-- A completion in the history of a line is one in the history of the server. -/
theorem completed_line {log : List Event} {event : OperationEvent}
    (h : LineEvent.completed c event∈log.filterMap (lineEvent m)) : .completed m c event∈log := by
  obtain ⟨own,mem,same⟩ := List.mem_filterMap.mp h
  cases own with
  | completed i d result =>
    have shape : (if i=m then some (LineEvent.completed d result) else none)=some (.completed c event) := same
    split at shape
    · next equal =>
      cases shape
      rwa [equal] at mem
    · cases shape
  | admitted i d =>
    have shape : (if i=m then some (LineEvent.admitted d) else none)=some (.completed c event) := same
    split at shape
    · cases shape
    · cases shape
  | executed i d safe =>
    have shape : (if i=m then some (LineEvent.executed d safe) else none)=some (.completed c event) := same
    split at shape
    · cases shape
    · cases shape
  | _ => cases same

/-- In every run the commands of every member are executed one at a time, in
the order of their admission, with at most 32 queued, and after an unknown
result only safety operations are executed on the member. -/
theorem run_commands_ordered (site : RobotControl.Site) (actions : List Action) (m : ℕ) :
    CommandOrder (run (step site) {} actions) m := by
  have lines := run_lines site actions
  have line := lines.orderly m
  have executedEvent : ∀ c safe, lineEvent m (.executed m c safe)=some (.executed c safe) := fun _ _ => if_pos rfl
  have completedEvent : ∀ c event, lineEvent m (.completed m c event)=some (.completed c event) := fun _ _ => if_pos rfl
  refine ⟨line.short,?_,?_,?_,?_⟩
  · have once := (List.nodup_append.mp lines.placed.arrivedOnce).1
    exact once.sublist (admittedTo_sublist m _)
  · rw [admittedTo_line,executedOn_line]
    exact (List.sublist_append_left _ _).trans line.order
  · intro before c safe mid d safe' rest split_
    have log : (lineOf m (run (step site) {} actions)).log=before.filterMap (lineEvent m) ++
        .executed c safe::(mid.filterMap (lineEvent m) ++ .executed d safe'::rest.filterMap (lineEvent m)) := by
      show (run (step site) {} actions).log.filterMap (lineEvent m)=_
      rw [split_,List.filterMap_append,List.filterMap_cons_some (executedEvent c safe),List.filterMap_append,
        List.filterMap_cons_some (executedEvent d safe')]
    obtain ⟨event,mem⟩ := alone_completed line.alone log
    exact ⟨event,completed_line mem⟩
  · intro before c event mid d safe rest split_ uncertain
    have log : (lineOf m (run (step site) {} actions)).log=before.filterMap (lineEvent m) ++
        .completed c event::(mid.filterMap (lineEvent m) ++ .executed d safe::rest.filterMap (lineEvent m)) := by
      show (run (step site) {} actions).log.filterMap (lineEvent m)=_
      rw [split_,List.filterMap_append,List.filterMap_cons_some (completedEvent c event),List.filterMap_append,
        List.filterMap_cons_some (executedEvent d safe)]
    exact line.latched _ c event _ d safe _ log uncertain

end Runs

end Ros1Adapter.RobotOrder
