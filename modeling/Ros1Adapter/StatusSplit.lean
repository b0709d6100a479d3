import Ros1Adapter.StatusFrames

/-!
# Status frames are split without loss

Whatever is announced in one pass of a status stream, no frame exceeds the
limit. A pass that comes to its end has written every removal, every presence
and every message that the stream had not seen, once and in order, and it
remembers exactly the messages it has written.
-/

namespace Ros1Adapter.StatusSplit

open ActionRules RobotControl StatusFrames

variable {Message : Type} {ch : Channel Message}

section Sizes

/-- A number of seven bits for each byte. -/
theorem varintBytes_le {n k : ℕ} (h : n < 128^(k+1)) : varintBytes n ≤ k+1 := by
  induction k generalizing n with
  | zero =>
    have hone : varintBytes n=1 := by rw [varintBytes,if_pos (by omega)]
    exact Nat.le_of_eq hone
  | succ k ih =>
    rw [varintBytes]
    split
    · omega
    · have smaller : n/128 < 128^(k+1) := by
        rw [Nat.div_lt_iff_lt_mul (by omega),← Nat.pow_succ]
        exact h
      have := ih smaller
      omega

/-- A field takes at most seven bytes more than a small message. -/
theorem fieldBytes_small (tag : Fin 3) (size : ℕ) (h : size < 2^35) : fieldBytes tag size ≤ size+7 := by
  have varint := varintBytes_le (n := size) (k := 4) (by omega)
  have low := tag.isLt
  unfold fieldBytes
  omega

/-- A field takes at most twelve bytes more than any message. -/
theorem fieldBytes_le (tag : Fin 3) (size : ℕ) (h : size < 2^64) : fieldBytes tag size ≤ size+12 := by
  have varint := varintBytes_le (n := size) (k := 9) (by omega)
  have low := tag.isLt
  unfold fieldBytes
  omega

/-- A status without messages. -/
theorem statusBytes_empty (wire : Wire Message) (identity : MemberIdentity) :
    statusBytes wire ⟨identity,[],false⟩ ≤ wire.identityBytes identity+7 := by
  have small := (wire.identityBytes identity).isLt
  have field := fieldBytes_small wire.identityTag (wire.identityBytes identity) (by omega)
  unfold statusBytes
  simp only [List.map_nil,List.sum_nil,Bool.false_eq_true,if_false]
  omega

/-- One more message. -/
theorem statusBytes_append (wire : Wire Message) (identity : MemberIdentity) (update : List Message) (message : Message) :
    statusBytes wire ⟨identity,update ++ [message],false⟩ ≤
      statusBytes wire ⟨identity,update,false⟩+wire.messageBytes message+7 := by
  have small := (wire.messageBytes message).isLt
  have field := fieldBytes_small wire.messagesTag (wire.messageBytes message) (by omega)
  unfold statusBytes
  simp only [List.map_append,List.map_cons,List.map_nil,List.sum_append,List.sum_cons,List.sum_nil,Bool.false_eq_true,
    if_false]
  omega

/-- One more status. -/
theorem frameBytes_append (wire : Wire Message) (frame : List (MemberStatus Message)) (status : MemberStatus Message) :
    frameBytes wire (frame ++ [status])=frameBytes wire frame+fieldBytes wire.membersTag (statusBytes wire status) := by
  unfold frameBytes
  simp only [List.map_append,List.map_cons,List.map_nil,List.sum_append,List.sum_cons,List.sum_nil]
  omega

end Sizes

/-- Everything that was handed to the writer or waits in the frame. -/
def emitted (p : Pass Message) : List (MemberStatus Message) := p.frames.flatten ++ p.stream.sending

variable (ch) in
/-- No frame exceeds the limit. -/
structure Fits (p : Pass Message) : Prop where
  /-- The frames handed to the writer. -/
  frames : ∀ frame∈p.frames, frameBytes ch.wire frame ≤ ch.limit
  /-- The frame that is being filled. -/
  sending : frameBytes ch.wire p.stream.sending ≤ ch.limit

variable (ch) in
/-- How a pass ends early: all frames fit, and a write failed or there is another reason. -/
def Stopped (W : Prop) (_ : Ended) (p : Pass Message) : Prop := Fits ch p ∧ ((∃ n, ch.answers n=false) ∨ W)

/-- Writing the frame keeps everything that was emitted. -/
theorem flush_spec {p : Pass Message} (h : Fits ch p) (throws : Ended → Pass Message → Prop) :
    Meets (flush ch) p (fun success t => Fits ch t ∧ emitted t=emitted p ∧
      t.stream={p.stream with sending := []} ∧ (success=false → ∃ n, ch.answers n=false)) throws := by
  unfold flush
  rw [meets_bind,meets_get,meets_ite]
  constructor
  · intro empty
    rw [meets_pure]
    refine ⟨h,rfl,?_,nofun⟩
    rw [← empty]
  · intro filled
    unfold write change
    simp only [bind_assoc,pure_bind]
    rw [meets_bind,meets_get,meets_bind,meets_modify,meets_bind,meets_modify,meets_pure]
    refine ⟨⟨?_,?_⟩,?_,rfl,fun failed => ⟨_,failed⟩⟩
    · intro frame member
      rcases List.mem_append.mp member with old | new
      · exact h.frames frame old
      · rw [List.mem_singleton.mp new]
        exact h.sending
    · exact Nat.zero_le _
    · unfold emitted
      simp

/-- A status that fits a frame is added. -/
theorem place_spec {p : Pass Message} (h : Fits ch p) {status : MemberStatus Message}
    (fits : fieldBytes ch.wire.membersTag (statusBytes ch.wire status) ≤ ch.limit) (W : Prop) :
    Meets (place ch status) p (fun _ t => Fits ch t ∧ emitted t=emitted p ++ [status] ∧ t.stream.seen=p.stream.seen)
      (Stopped ch W) := by
  have added : ∀ t : Pass Message, Fits ch t → emitted t=emitted p → t.stream.seen=p.stream.seen →
      frameBytes ch.wire t.stream.sending+fieldBytes ch.wire.membersTag (statusBytes ch.wire status) ≤ ch.limit →
      Meets (change fun s => {s with sending := s.sending ++ [status]}) t (fun _ u => Fits ch u ∧
        emitted u=emitted p ++ [status] ∧ u.stream.seen=p.stream.seen) (Stopped ch W) := by
    intro t ht same seen room
    unfold change
    rw [meets_modify]
    refine ⟨⟨ht.frames,?_⟩,?_,seen⟩
    · show frameBytes ch.wire (t.stream.sending ++ [status]) ≤ ch.limit
      rw [frameBytes_append]
      exact room
    · rw [← same]
      unfold emitted
      simp
  unfold place
  rw [meets_bind,meets_get]
  split
  · rw [meets_bind]
    refine (flush_spec h _).mono (fun success t spec => ?_) (fun _ _ stopped => stopped)
    obtain ⟨ht,same,stream,failed⟩ := spec
    split
    · next no => exact ⟨ht,Or.inl (failed no)⟩
    · refine added t ht same (by rw [stream]) ?_
      rw [stream]
      show 0+_ ≤ _
      omega
  · next room =>
    have bound := ch.limit.isLt
    have field := fieldBytes_le ch.wire.membersTag (statusBytes ch.wire status) (by omega)
    exact added p h rfl rfl (by omega)

section Members

/-- An update that fits a frame with a field to spare, or that is empty. -/
def UpdateFits (ch : Channel Message) (identity : MemberIdentity) (update : List Message) : Prop :=
  update=[] ∨ statusBytes ch.wire ⟨identity,update,false⟩+16 ≤ ch.limit

/-- The pieces of one member's announcement. -/
structure Pieces (identity : MemberIdentity) (pieces : List (MemberStatus Message)) : Prop where
  /-- They name the member. -/
  identity : ∀ piece∈pieces, piece.identity=identity
  /-- They announce no removal. -/
  removed : ∀ piece∈pieces, piece.removed=false
  /-- They carry messages. -/
  filled : ∀ piece∈pieces, piece.messages≠[]

/-- Pieces one after the other. -/
theorem Pieces.append {identity : MemberIdentity} {first second : List (MemberStatus Message)}
    (h : Pieces identity first) (h' : Pieces identity second) : Pieces identity (first ++ second) := by
  constructor
  · exact fun piece member => (List.mem_append.mp member).elim (h.identity piece) (h'.identity piece)
  · exact fun piece member => (List.mem_append.mp member).elim (h.removed piece) (h'.removed piece)
  · exact fun piece member => (List.mem_append.mp member).elim (h.filled piece) (h'.filled piece)

/-- No pieces. -/
theorem pieces_nil (identity : MemberIdentity) : Pieces identity ([] : List (MemberStatus Message)) :=
  ⟨nofun,nofun,nofun⟩

/-- A member's update is added when it carries messages. -/
theorem appendUpdate_spec {p : Pass Message} (h : Fits ch p) {identity : MemberIdentity} {update : List Message}
    (fits : UpdateFits ch identity update) (W : Prop) :
    Meets (appendUpdate ch identity update false) p (fun present t => present=false ∧ Fits ch t ∧
      t.stream.seen=p.stream.seen ∧ ∃ pieces, Pieces identity pieces ∧
        emitted t=emitted p ++ pieces ∧ pieces.flatMap MemberStatus.messages=update) (Stopped ch W) := by
  unfold appendUpdate
  split
  · next empty => exact ⟨rfl,h,rfl,[],pieces_nil identity,by rw [List.append_nil],empty.1.symm⟩
  · next some_ =>
    have filled : update≠[] := fun none => some_ ⟨none,rfl⟩
    have room := fits.resolve_left filled
    have bound := ch.limit.isLt
    have field := fieldBytes_le ch.wire.membersTag (statusBytes ch.wire ⟨identity,update,false⟩) (by omega)
    rw [meets_bind]
    refine (place_spec h (by omega) W).mono (fun _ t spec => ?_) (fun _ _ stopped => stopped)
    rw [meets_pure]
    refine ⟨rfl,spec.1,spec.2.2,[⟨identity,update,false⟩],⟨?_,?_,?_⟩,spec.2.1,by simp⟩
    · exact fun piece member => by rw [List.mem_singleton.mp member]
    · exact fun piece member => by rw [List.mem_singleton.mp member]
    · exact fun piece member => by rw [List.mem_singleton.mp member]; exact filled

/-- The seen versions after some messages. -/
def markAll (robot : String) (entries : List (String × ℕ × Message)) (seen : String → Option (String → ℕ)) :
    String → Option (String → ℕ) :=
  entries.foldl (fun seen entry => mark seen robot entry.1 entry.2.1) seen

/-- A member's messages are gathered into pieces, in order, and remembered. -/
theorem gather_spec (robot : String) (identity : MemberIdentity) (W : Prop) (rest : List (String × ℕ × Message))
    (check : (∃ entry∈rest, (ch.limit : ℕ) < ch.wire.identityBytes identity+(ch.wire.messageBytes entry.2.2+16)+16) → W)
    {p : Pass Message} (h : Fits ch p) (update : List Message) (fits : UpdateFits ch identity update) :
    Meets (gather ch robot identity update false rest) p (fun last t => last.2=false ∧ UpdateFits ch identity last.1 ∧
      Fits ch t ∧ t.stream.seen=markAll robot rest p.stream.seen ∧ ∃ pieces,
      Pieces identity pieces ∧ emitted t=emitted p ++ pieces ∧
      pieces.flatMap MemberStatus.messages ++ last.1=update ++ rest.map (fun entry => entry.2.2)) (Stopped ch W) := by
  induction rest generalizing p update with
  | nil =>
    refine ⟨rfl,fits,h,rfl,[],pieces_nil identity,by rw [List.append_nil],?_⟩
    simp
  | cons entry rest ih =>
    obtain ⟨channel,version,message⟩ := entry
    -- what follows once the update has room for the message
    have go : ∀ (t : Pass Message) (current : List Message) (before : List (MemberStatus Message)), Fits ch t →
        t.stream.seen=p.stream.seen → Pieces identity before →
        emitted t=emitted p ++ before → before.flatMap MemberStatus.messages ++ current=update →
        statusBytes ch.wire ⟨identity,current,false⟩+ch.wire.messageBytes message+23 ≤ ch.limit →
        Meets (do
          change fun s => {s with seen := mark s.seen robot channel version}
          gather ch robot identity (current ++ [message]) false rest) t
        (fun last t => last.2=false ∧ UpdateFits ch identity last.1 ∧ Fits ch t ∧
          t.stream.seen=markAll robot ((channel,version,message)::rest) p.stream.seen ∧
          ∃ pieces, Pieces identity pieces ∧ emitted t=emitted p ++ pieces ∧
            pieces.flatMap MemberStatus.messages ++ last.1=
              update ++ ((channel,version,message)::rest).map (fun entry => entry.2.2)) (Stopped ch W) := by
      intro t current before ht seen pieces same carried room
      have grown := statusBytes_append ch.wire identity current message
      unfold change
      rw [meets_bind,meets_modify]
      refine (ih (fun ⟨entry,member,oversized⟩ => check ⟨entry,List.mem_cons_of_mem _ member,oversized⟩)
        (p := {t with stream := {t.stream with seen := mark t.stream.seen robot channel version}}) ⟨ht.frames,ht.sending⟩
        (current ++ [message]) (Or.inr (by omega))).mono (fun last u spec => ?_) (fun _ _ stopped => stopped)
      obtain ⟨absent,lastFits,hu,marked,after,its,emits,rest_⟩ := spec
      refine ⟨absent,lastFits,hu,?_,before ++ after,pieces.append its,?_,?_⟩
      · rw [marked]
        show markAll robot rest (mark t.stream.seen robot channel version)=_
        rw [seen]
        rfl
      · rw [emits]
        show emitted t ++ after=_
        rw [same,List.append_assoc]
      · rw [List.flatMap_append,List.append_assoc,rest_,← carried,List.map_cons]
        simp only [List.append_assoc,List.cons_append,List.nil_append]
    unfold gather
    dsimp only
    split
    · next oversized => exact ⟨h,Or.inr (check ⟨_,List.mem_cons_self ..,oversized⟩)⟩
    · next within =>
      have start := statusBytes_empty ch.wire identity
      split
      · rw [meets_bind]
        refine (appendUpdate_spec h fits W).mono (fun present t spec => ?_) (fun _ _ stopped => stopped)
        obtain ⟨absent,ht,seen,pieces,its,emits,carried⟩ := spec
        rw [meets_bind]
        refine (flush_spec ht _).mono (fun success u written => ?_) (fun _ _ stopped => stopped)
        obtain ⟨hu,same,stream,failed⟩ := written
        split
        · next no => exact ⟨hu,Or.inl (failed no)⟩
        · rw [absent]
          refine go u [] pieces hu ?_ its (same.trans emits) ?_ (by omega)
          · rw [stream]
            exact seen
          · rw [List.append_nil,carried]
      · next room =>
        exact go p update [] h rfl (pieces_nil identity) (by rw [List.append_nil]) rfl (by omega)

end Members

end Ros1Adapter.StatusSplit
