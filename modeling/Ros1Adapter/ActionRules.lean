import Mathlib.Data.List.Basic

/-!
# Rules for actions that keep their state when they throw

An action returns or throws, and its state changes survive either exit. A
contract gives one postcondition for each exit. Contracts compose along
sequencing, so each action is specified once and its callers use only the
specification. Runs fold a step function over a list of inputs.
-/

namespace Ros1Adapter.ActionRules

variable {ε σ α β : Type}

/-- The state an action leaves behind on either exit. -/
def stateOf : EStateM.Result ε σ α → σ
  | .ok _ s => s
  | .error _ s => s

/-- Both exits of an action started in `s` satisfy their postcondition. -/
def Meets (action : EStateM ε σ α) (s : σ) (returns : α → σ → Prop) (throws : ε → σ → Prop) : Prop :=
  match action s with
  | .ok a t => returns a t
  | .error e t => throws e t

/-- A pure action returns at once. -/
theorem meets_pure (a : α) (s : σ) (returns : α → σ → Prop) (throws : ε → σ → Prop) :
    Meets (pure a : EStateM ε σ α) s returns throws ↔ returns a s := Iff.rfl

/-- A throw exits at once. -/
theorem meets_throw (e : ε) (s : σ) (returns : α → σ → Prop) (throws : ε → σ → Prop) :
    Meets (throw e : EStateM ε σ α) s returns throws ↔ throws e s := Iff.rfl

/-- Sequencing passes the first result to the second action. -/
theorem meets_bind (first : EStateM ε σ α) (second : α → EStateM ε σ β) (s : σ)
    (returns : β → σ → Prop) (throws : ε → σ → Prop) :
    Meets (first >>= second) s returns throws ↔
      Meets first s (fun a t => Meets (second a) t returns throws) throws := by
  unfold Meets
  show (match EStateM.bind first second s with
    | .ok a t => returns a t
    | .error e t => throws e t) ↔ _
  unfold EStateM.bind
  cases first s <;> rfl

/-- A sequence continues after a first action that returns. -/
theorem bind_of_ok {first : EStateM ε σ α} {second : α → EStateM ε σ β} {s t : σ} {a : α}
    (h : first s=.ok a t) : (first >>= second) s=second a t := by
  show EStateM.bind first second s=second a t
  unfold EStateM.bind
  rw [h]

/-- A sequence ends with a first action that throws. -/
theorem bind_of_error {first : EStateM ε σ α} {second : α → EStateM ε σ β} {s t : σ} {e : ε}
    (h : first s=.error e t) : (first >>= second) s=.error e t := by
  show EStateM.bind first second s=.error e t
  unfold EStateM.bind
  rw [h]

/-- A sequence that begins by reading the state continues with it. -/
theorem get_bind (next : σ → EStateM ε σ β) (s : σ) : ((get : EStateM ε σ σ) >>= next) s=next s s := rfl

/-- Reading the state leaves it unchanged. -/
theorem meets_get (s : σ) (returns : σ → σ → Prop) (throws : ε → σ → Prop) :
    Meets (get : EStateM ε σ σ) s returns throws ↔ returns s s := Iff.rfl

/-- An update returns with the updated state. -/
theorem meets_modify (f : σ → σ) (s : σ) (returns : Unit → σ → Prop) (throws : ε → σ → Prop) :
    Meets (modify f : EStateM ε σ Unit) s returns throws ↔ returns () (f s) := Iff.rfl

/-- Weaken both postconditions of a contract. -/
theorem Meets.mono {action : EStateM ε σ α} {s : σ} {returns returns' : α → σ → Prop}
    {throws throws' : ε → σ → Prop} (h : Meets action s returns throws)
    (hr : ∀ a t, returns a t → returns' a t) (ht : ∀ e t, throws e t → throws' e t) :
    Meets action s returns' throws' := by
  unfold Meets at h ⊢
  cases hx : action s with
  | ok a t => rw [hx] at h; exact hr a t h
  | error e t => rw [hx] at h; exact ht e t h

/-- Sequencing: the second action starts where the first one's postcondition holds. -/
theorem Meets.bind {first : EStateM ε σ α} {second : α → EStateM ε σ β} {s : σ} {middle : α → σ → Prop}
    {returns : β → σ → Prop} {throws : ε → σ → Prop} (hf : Meets first s middle throws)
    (hs : ∀ a t, middle a t → Meets (second a) t returns throws) : Meets (first >>= second) s returns throws :=
  (meets_bind first second s returns throws).mpr (hf.mono hs (fun _ _ h => h))

/-- Two contracts of one action hold together. -/
theorem Meets.both {action : EStateM ε σ α} {s : σ} {returns returns' : α → σ → Prop}
    {throws throws' : ε → σ → Prop} (h : Meets action s returns throws)
    (h' : Meets action s returns' throws') :
    Meets action s (fun a t => returns a t ∧ returns' a t) (fun e t => throws e t ∧ throws' e t) := by
  unfold Meets at h h' ⊢
  cases hx : action s with
  | ok _ _ | error _ _ => rw [hx] at h h'; exact ⟨h,h'⟩

/-- Postconditions that always hold. -/
theorem meets_always (action : EStateM ε σ α) (s : σ) {returns : α → σ → Prop} {throws : ε → σ → Prop}
    (hr : ∀ a t, returns a t) (ht : ∀ e t, throws e t) : Meets action s returns throws := by
  unfold Meets
  cases action s with
  | ok a t => exact hr a t
  | error e t => exact ht e t

/-- A contract applied to a known return. -/
theorem Meets.returned {action : EStateM ε σ α} {s t : σ} {a : α} {returns : α → σ → Prop}
    {throws : ε → σ → Prop} (h : Meets action s returns throws) (hx : action s=.ok a t) :
    returns a t := by
  unfold Meets at h
  rw [hx] at h
  exact h

/-- A contract applied to a known throw. -/
theorem Meets.thrown {action : EStateM ε σ α} {s t : σ} {e : ε} {returns : α → σ → Prop}
    {throws : ε → σ → Prop} (h : Meets action s returns throws) (hx : action s=.error e t) :
    throws e t := by
  unfold Meets at h
  rw [hx] at h
  exact h

/-- A postcondition of both exits holds of the state left behind. -/
theorem Meets.state {action : EStateM ε σ α} {s : σ} {P : σ → Prop}
    (h : Meets action s (fun _ t => P t) (fun _ t => P t)) : P (stateOf (action s)) := by
  unfold Meets at h
  cases hx : action s with
  | ok _ _ | error _ _ => rw [hx] at h; exact h

/-- A sequence of results succeeds exactly when both parts do. -/
theorem except_bind_ok {first : Except ε α} {second : α → Except ε β} {b : β} :
    (first >>= second)=.ok b ↔ ∃ a, first=.ok a ∧ second a=.ok b := by
  cases first with
  | error _ | ok _ => simp [bind,Except.bind]

/-- A result without effects, as an action. -/
def ofResult (result : Except ε α) : EStateM ε σ α :=
  match result with
  | .ok a => pure a
  | .error e => throw e

/-- A pure computation keeps the state on both exits. -/
theorem meets_ofResult (result : Except ε α) (s : σ) (returns : α → σ → Prop)
    (throws : ε → σ → Prop) :
    Meets (ofResult result) s returns throws ↔
      (∀ a, result=.ok a → returns a s) ∧ (∀ e, result=.error e → throws e s) := by
  cases result with
  | ok a => simp [ofResult,meets_pure]
  | error e => simp [ofResult,meets_throw]

/-- A branch meets a contract when the branch it takes does. -/
theorem meets_ite (condition : Prop) [Decidable condition] (first second : EStateM ε σ α) (s : σ)
    (returns : α → σ → Prop) (throws : ε → σ → Prop) :
    Meets (if condition then first else second) s returns throws ↔
      (condition → Meets first s returns throws) ∧ (¬condition → Meets second s returns throws) := by
  by_cases h : condition <;> simp [h]

section Frames

variable {φ : Type} {view : σ → φ}

/-- An action leaves a view of the state as it is, on either exit. -/
def Preserves (view : σ → φ) (action : EStateM ε σ α) : Prop := ∀ s, view (stateOf (action s))=view s

/-- A frame as a contract. -/
theorem Preserves.meets {action : EStateM ε σ α} (h : Preserves view action) (s : σ) :
    Meets action s (fun _ t => view t=view s) (fun _ t => view t=view s) := by
  have kept := h s
  unfold Meets
  cases result : action s with
  | ok _ _ | error _ _ =>
    rw [result] at kept
    exact kept

/-- A pure action changes nothing. -/
theorem preserves_pure (view : σ → φ) (a : α) : Preserves view (pure a : EStateM ε σ α) := fun _ => rfl

/-- A throw changes nothing. -/
theorem preserves_throw (view : σ → φ) (e : ε) : Preserves view (throw e : EStateM ε σ α) := fun _ => rfl

/-- Reading changes nothing. -/
theorem preserves_get (view : σ → φ) : Preserves view (get : EStateM ε σ σ) := fun _ => rfl

/-- An update outside the view. -/
theorem preserves_modify {f : σ → σ} (h : ∀ s, view (f s)=view s) : Preserves view (modify f : EStateM ε σ Unit) := h

/-- A pure computation changes nothing. -/
theorem preserves_ofResult (view : σ → φ) (result : Except ε α) : Preserves view (ofResult result : EStateM ε σ α) := by
  cases result with
  | ok a => exact preserves_pure view a
  | error e => exact preserves_throw view e

/-- Sequencing of actions that leave a view as it is. -/
theorem Preserves.bind {first : EStateM ε σ α} {second : α → EStateM ε σ β} (hf : Preserves view first)
    (hs : ∀ a, Preserves view (second a)) : Preserves view (first >>= second) := by
  intro s
  have before := hf s
  cases result : first s with
  | ok a t =>
    rw [result] at before
    rw [bind_of_ok result,hs a t]
    exact before
  | error e t =>
    rw [result] at before
    rw [bind_of_error result]
    exact before

/-- Sequencing after an update outside the view. -/
theorem preserves_modify_bind {f : σ → σ} {second : PUnit → EStateM ε σ β} (h : ∀ s, view (f s)=view s)
    (hs : ∀ u, Preserves view (second u)) : Preserves view (modify f >>= second) :=
  (preserves_modify h).bind hs

/-- A branch leaves a view as it is when both sides do. -/
theorem preserves_ite {condition : Prop} [Decidable condition] {first second : EStateM ε σ α}
    (hf : Preserves view first) (hs : Preserves view second) : Preserves view (if condition then first else second) := by
  split
  · exact hf
  · exact hs

end Frames

section Relations

variable {R : σ → σ → Prop} {s : σ}

/-- Both exits of an action started in `s` are related to `s`. -/
def Advances (R : σ → σ → Prop) (action : EStateM ε σ α) (s : σ) : Prop := R s (stateOf (action s))

/-- A pure action stays. -/
theorem advances_pure (hr : R s s) (a : α) : Advances R (pure a : EStateM ε σ α) s := hr

/-- A throw stays. -/
theorem advances_throw (hr : R s s) (e : ε) : Advances R (throw e : EStateM ε σ α) s := hr

/-- An update moves to the updated state. -/
theorem advances_modify {f : σ → σ} (h : R s (f s)) : Advances R (modify f : EStateM ε σ Unit) s := h

/-- A sequence that begins by reading the state continues with it. -/
theorem advances_get_bind {next : σ → EStateM ε σ β} (h : Advances R (next s) s) :
    Advances R ((get : EStateM ε σ σ) >>= next) s := h

/-- Sequencing under a transitive relation. -/
theorem Advances.bind (ht : ∀ {s t u}, R s t → R t u → R s u) {first : EStateM ε σ α} {second : α → EStateM ε σ β}
    (hf : Advances R first s) (hs : ∀ a t, first s=.ok a t → Advances R (second a) t) :
    Advances R (first >>= second) s := by
  unfold Advances at hf ⊢
  cases result : first s with
  | ok a t =>
    rw [result] at hf
    rw [bind_of_ok result]
    exact ht hf (hs a t result)
  | error e t =>
    rw [result] at hf
    rw [bind_of_error result]
    exact hf

/-- A branch advances when the side taken does. -/
theorem advances_ite {condition : Prop} [Decidable condition] {first second : EStateM ε σ α}
    (hf : condition → Advances R first s) (hs : ¬condition → Advances R second s) :
    Advances R (if condition then first else second) s := by
  split
  · rename_i taken
    exact hf taken
  · rename_i refused
    exact hs refused

end Relations

section Runs

variable {ι : Type}

/-- State after a list of inputs. -/
def run (step : σ → ι → σ) (s : σ) (inputs : List ι) : σ := inputs.foldl step s

/-- Every input of a run meets a condition in the state it is applied to. -/
def Along (step : σ → ι → σ) (condition : σ → ι → Prop) : σ → List ι → Prop
  | _,[] => True
  | s,input::rest => condition s input ∧ Along step condition (step s input) rest

/-- A condition that can be decided can be decided along a run. -/
instance decidableAlong (step : σ → ι → σ) (condition : σ → ι → Prop) [∀ s input, Decidable (condition s input)] :
    ∀ s inputs, Decidable (Along step condition s inputs)
  | _,[] => inferInstanceAs (Decidable True)
  | s,input::rest =>
    have := decidableAlong step condition (step s input) rest
    inferInstanceAs (Decidable (condition s input ∧ Along step condition (step s input) rest))

/-- A run takes its first input first. -/
theorem run_cons (step : σ → ι → σ) (s : σ) (input : ι) (rest : List ι) :
    run step s (input::rest)=run step (step s input) rest := rfl

/-- A run over two lists is one run after the other. -/
theorem run_append (step : σ → ι → σ) (s : σ) (first second : List ι) :
    run step s (first ++ second)=run step (run step s first) second := by
  simp [run]

/-- An invariant that conditional steps preserve holds after every run of such steps. -/
theorem run_invariant {step : σ → ι → σ} {condition : σ → ι → Prop} {invariant : σ → Prop}
    (hstep : ∀ s input, invariant s → condition s input → invariant (step s input))
    {s : σ} (hs : invariant s) {inputs : List ι} (ha : Along step condition s inputs) :
    invariant (run step s inputs) := by
  induction inputs generalizing s with
  | nil => exact hs
  | cons input rest ih =>
    rw [run_cons]
    exact ih (hstep s input hs ha.1) ha.2

/-- A condition on inputs alone holds along a run when every input meets it. -/
theorem along_of_forall (step : σ → ι → σ) {condition : ι → Prop} (s : σ) {inputs : List ι}
    (h : ∀ input∈inputs, condition input) : Along step (fun _ input => condition input) s inputs := by
  induction inputs generalizing s with
  | nil => trivial
  | cons input rest ih =>
    exact ⟨h input (List.mem_cons_self ..),ih _ (fun i hi => h i (List.mem_cons_of_mem _ hi))⟩

/-- The empty condition holds along every run. -/
theorem along_true (step : σ → ι → σ) (s : σ) (inputs : List ι) :
    Along step (fun _ _ => True) s inputs :=
  along_of_forall step s (fun _ _ => trivial)

/-- The last element of a list is the one a split names, or it belongs to the rest. -/
theorem append_split {log before after : List α} {event first : α}
    (h : log ++ [event]=before ++ first::after) :
    (after=[] ∧ before=log ∧ first=event) ∨ ∃ rest, after=rest ++ [event] ∧ log=before ++ first::rest := by
  rcases List.eq_nil_or_concat after with none | ⟨rest,last,some⟩
  · rw [none] at h
    have same := List.append_inj' h rfl
    exact Or.inl ⟨none,same.1.symm,(List.cons.inj same.2).1.symm⟩
  · rw [some,List.concat_eq_append] at h
    have shape : before ++ first::(rest ++ [last])=(before ++ first::rest) ++ [last] := by simp
    rw [shape] at h
    have same := List.append_inj' h rfl
    have event_ := (List.cons.inj same.2).1
    exact Or.inr ⟨rest,by rw [some,List.concat_eq_append,event_],same.1⟩

end Runs

end Ros1Adapter.ActionRules
