import Ros1Adapter.ActionRules

/-!
# Two runs side by side

Two results agree when both succeed with related values or both fail with the
same error. Two actions are coupled when they exit the same way, and what they
return and leave behind is related.
-/

namespace Ros1Adapter.CoupledRuns

open ActionRules

section Results

variable {ε α β γ δ : Type}

/-- Both succeed with related values, or both fail with one error. -/
def Agrees (related : α → β → Prop) : Except ε α → Except ε β → Prop
  | .ok a,.ok b => related a b
  | .error e,.error f => e=f
  | _,_ => False

/-- A result agrees with itself. -/
theorem Agrees.refl {related : α → α → Prop} (h : ∀ a, related a a) (result : Except ε α) :
    Agrees related result result := by
  cases result with
  | ok a => exact h a
  | error e => exact rfl

/-- A weaker relation of the values, which may use that both were returned. -/
theorem Agrees.mono {related weaker : α → β → Prop} {first : Except ε α} {second : Except ε β}
    (h : Agrees related first second)
    (hw : ∀ a b, first=.ok a → second=.ok b → related a b → weaker a b) : Agrees weaker first second := by
  cases first with
  | ok a =>
    cases second with
    | ok b => exact hw a b rfl rfl h
    | error e => exact h.elim
  | error e =>
    cases second with
    | ok b => exact h.elim
    | error f => exact h

/-- Sequences agree when their parts do. -/
theorem Agrees.bind {related : α → β → Prop} {after : γ → δ → Prop} {first : Except ε α} {second : Except ε β}
    {f : α → Except ε γ} {g : β → Except ε δ} (h : Agrees related first second)
    (hs : ∀ a b, first=.ok a → second=.ok b → related a b → Agrees after (f a) (g b)) :
    Agrees after (first >>= f) (second >>= g) := by
  cases first with
  | ok a =>
    cases second with
    | ok b => exact hs a b rfl rfl h
    | error e => exact h.elim
  | error e =>
    cases second with
    | ok b => exact h.elim
    | error f => exact h

/-- The same result first. -/
theorem Agrees.same {after : γ → δ → Prop} {first : Except ε α} {f : α → Except ε γ} {g : α → Except ε δ}
    (hs : ∀ a, first=.ok a → Agrees after (f a) (g a)) : Agrees after (first >>= f) (first >>= g) :=
  (Agrees.refl (fun _ => rfl : ∀ a : α, (fun a b => a=b) a a) first).bind (fun a b ha _ hab => by
    subst hab
    exact hs a ha)

/-- Two results that agree with a third agree with each other. -/
theorem Agrees.common {left : α → γ → Prop} {right : β → γ → Prop} {first : Except ε α} {second : Except ε β}
    {third : Except ε γ} (h : Agrees left first third) (h' : Agrees right second third) :
    Agrees (fun a b => ∃ c, left a c ∧ right b c) first second := by
  cases third with
  | ok c =>
    cases first with
    | ok a =>
      cases second with
      | ok b => exact ⟨c,h,h'⟩
      | error e => exact h'.elim
    | error e => exact h.elim
  | error f =>
    cases first with
    | ok a => exact h.elim
    | error e =>
      cases second with
      | ok b => exact h'.elim
      | error e' => exact h.trans h'.symm

end Results

section Actions

variable {ε σ α β : Type}

/-- Both actions exit the same way with related results and states. -/
def Couples (first second : EStateM ε σ α) (s t : σ) (returns : α → σ → α → σ → Prop) (throws : σ → σ → Prop) :
    Prop :=
  match first s,second t with
  | .ok a u,.ok b v => returns a u b v
  | .error e u,.error f v => e=f ∧ throws u v
  | _,_ => False

/-- Weaker relations. -/
theorem Couples.mono {first second : EStateM ε σ α} {s t : σ} {returns returns' : α → σ → α → σ → Prop}
    {throws throws' : σ → σ → Prop} (h : Couples first second s t returns throws)
    (hr : ∀ a u b v, returns a u b v → returns' a u b v) (ht : ∀ u v, throws u v → throws' u v) :
    Couples first second s t returns' throws' := by
  unfold Couples at h ⊢
  cases hf : first s with
  | ok a u =>
    cases hs : second t with
    | ok b v =>
      rw [hf,hs] at h
      exact hr a u b v h
    | error e v =>
      rw [hf,hs] at h
      exact h
  | error e u =>
    cases hs : second t with
    | ok b v =>
      rw [hf,hs] at h
      exact h
    | error f v =>
      rw [hf,hs] at h
      exact ⟨h.1,ht u v h.2⟩

/-- Sequences are coupled when their parts are. -/
theorem Couples.bind {first second : EStateM ε σ α} {f g : α → EStateM ε σ β} {s t : σ}
    {middle : α → σ → α → σ → Prop} {returns : β → σ → β → σ → Prop} {throws : σ → σ → Prop}
    (h : Couples first second s t middle throws)
    (hs : ∀ a u b v, middle a u b v → Couples (f a) (g b) u v returns throws) :
    Couples (first >>= f) (second >>= g) s t returns throws := by
  unfold Couples at h
  cases hf : first s with
  | ok a u =>
    cases hg : second t with
    | ok b v =>
      rw [hf,hg] at h
      have hnext := hs a u b v h
      unfold Couples at hnext ⊢
      rw [bind_of_ok hf,bind_of_ok hg]
      exact hnext
    | error e v =>
      rw [hf,hg] at h
      exact h.elim
  | error e u =>
    cases hg : second t with
    | ok b v =>
      rw [hf,hg] at h
      exact h.elim
    | error f v =>
      rw [hf,hg] at h
      unfold Couples
      rw [bind_of_error hf,bind_of_error hg]
      exact h

/-- Reading both states. -/
theorem couples_get_bind {next other : σ → EStateM ε σ α} {s t : σ} {returns : α → σ → α → σ → Prop}
    {throws : σ → σ → Prop} (h : Couples (next s) (other t) s t returns throws) :
    Couples (get >>= next) (get >>= other) s t returns throws := by
  unfold Couples at h ⊢
  rw [get_bind,get_bind]
  exact h

/-- Updates of both states. -/
theorem couples_modify (f g : σ → σ) (s t : σ) (throws : σ → σ → Prop) :
    Couples (modify f : EStateM ε σ PUnit) (modify g) s t (fun _ u _ v => u=f s ∧ v=g t) throws := ⟨rfl,rfl⟩

/-- Results without effects. -/
theorem couples_ofResult {first second : Except ε α} {s t : σ} {related : α → α → Prop} {throws : σ → σ → Prop}
    (h : Agrees related first second) (ht : throws s t) :
    Couples (ofResult first) (ofResult second) s t
      (fun a u b v => u=s ∧ v=t ∧ first=.ok a ∧ second=.ok b ∧ related a b) throws := by
  cases first with
  | ok a =>
    cases second with
    | ok b => exact ⟨rfl,rfl,rfl,rfl,h⟩
    | error e => exact h.elim
  | error e =>
    cases second with
    | ok b => exact h.elim
    | error f => exact ⟨h,ht⟩

end Actions

end Ros1Adapter.CoupledRuns
