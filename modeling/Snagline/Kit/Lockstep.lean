import Mathlib.Data.List.Forall2
import Snagline.Kit.Prog

/-!
# Two runs side by side

A script fixes, statement by statement, what the surroundings do; a run that has used up
its script is cut off. Two programs are coupled if they go through the same statements
wherever their surroundings do the like of each other.
-/

namespace Snagline.Kit.Prog

variable {S : Type} {R : S → Type} {φ E α β γ δ σ W : Type}
variable (exec : W → (s : S) → σ → σ × Except φ (R s))

def play : Prog S R φ E α → List W → σ → σ × Option (Except E α)
  | .ret a, _, st => (st, some (.ok a))
  | .fail e, _, st => (st, some (.error e))
  | .call _ _, [], st => (st, none)
  | .call s k, w :: ws, st => play (k (exec w s st).2) ws (exec w s st).1

variable (like : W → W → Prop) (P : σ → σ → Prop)

def Coupled (Q : α → β → Prop) : Prog S R φ E α → Prog S R φ E β → σ → σ → Prop
  | .ret a, .ret b, st, st' => P st st' ∧ Q a b
  | .call s k, .call s' k', st, st' => P st st' ∧ ∀ w w', like w w' →
      Coupled Q (k (exec w s st).2) (k' (exec w' s' st').2) (exec w s st).1 (exec w' s' st').1
  | _, _, _, _ => False

variable {exec like P} {Q : α → β → Prop} {Q' : γ → δ → Prop}

theorem Coupled.bind {p : Prog S R φ E α} {p' : Prog S R φ E β} {f : α → Prog S R φ E γ}
    {f' : β → Prog S R φ E δ} {st st' : σ} (hp : Coupled exec like P Q p p' st st')
    (hf : ∀ a b st st', P st st' → Q a b → Coupled exec like P Q' (f a) (f' b) st st') :
    Coupled exec like P Q' (p >>= f) (p' >>= f') st st' := by
  induction p generalizing p' st st' with
  | ret a =>
    cases p' with
    | ret b => exact hf a b st st' hp.1 hp.2
    | fail | call => exact absurd hp id
  | fail =>
    cases p' with
    | ret | fail | call => exact absurd hp id
  | call s k ih =>
    cases p' with
    | ret | fail => exact absurd hp id
    | call s' k' => exact ⟨hp.1, fun w w' hw => ih _ (hp.2 w w' hw)⟩

theorem Coupled.play {p : Prog S R φ E α} {p' : Prog S R φ E β} {ws ws' : List W} {st st' : σ}
    (hp : Coupled exec like P Q p p' st st') (hws : List.Forall₂ like ws ws') :
    P (play exec p ws st).1 (play exec p' ws' st').1 := by
  induction p generalizing p' ws ws' st st' with
  | ret =>
    cases p' with
    | ret b => exact hp.1
    | fail | call => exact absurd hp id
  | fail =>
    cases p' with
    | ret | fail | call => exact absurd hp id
  | call s k ih =>
    cases p' with
    | ret | fail => exact absurd hp id
    | call s' k' =>
      cases hws with
      | nil => exact hp.1
      | cons hw hws =>
        have hrest := ih _ (hp.2 _ _ hw) hws
        exact hrest

end Snagline.Kit.Prog
