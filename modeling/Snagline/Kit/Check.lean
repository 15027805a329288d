import Mathlib.Data.List.Basic
import Mathlib.Tactic.Basic

/-!
# Sequential checks

A check is a value of `Except ε Unit`; a validation is a chain of checks and
lookups in the `Except` monad. The lemmas below peel a successful chain one
link at a time, so that no proof has to unfold a bind.
-/

namespace Snagline.Kit

variable {ε α β : Type}

section
variable {P : ε → Prop} {f : α → Except ε β} {ε' : Type} (e : ε)

/-- One guard: `e` is the error of the failing branch. -/
def ensure (b : Bool) (e : ε) : Except ε Unit := if b then .ok () else .error e

/-- A lookup whose absence is the error `e`. -/
def orFail (x : Option α) (e : ε) : Except ε α :=
  match x with
  | none => .error e
  | some a => .ok a

@[simp] theorem ensure_eq_ok {b : Bool} {e : ε} {u : Unit} : ensure b e = .ok u ↔ b = true := by
  cases b <;> simp [ensure]

@[simp] theorem ensure_true : ensure true e = .ok () := rfl

@[simp] theorem ensure_false : ensure false e = .error e := rfl

@[simp] theorem orFail_eq_ok {x : Option α} {e : ε} {a : α} : orFail x e = .ok a ↔ x = some a := by
  cases x <;> simp [orFail]

theorem bind_eq_ok {x : Except ε α} {b : β} :
    (x >>= f) = .ok b ↔ ∃ a, x = .ok a ∧ f a = .ok b := by
  cases x with
  | error | ok => simp [bind, Except.bind]

theorem ensure_bind_eq_ok {b : Bool} {e : ε} {f : Unit → Except ε β} {r : β} :
    (ensure b e >>= f) = .ok r ↔ b = true ∧ f () = .ok r := by
  cases b <;> simp [ensure, bind, Except.bind]

theorem orFail_bind_eq_ok {x : Option α} {e : ε} {r : β} :
    (orFail x e >>= f) = .ok r ↔ ∃ a, x = some a ∧ f a = .ok r := by
  cases x <;> simp [orFail, bind, Except.bind]

@[simp] theorem ok_bind (a : α) (f : α → Except ε β) : (Except.ok a >>= f) = f a := rfl

@[simp] theorem error_bind (f : α → Except ε β) : (Except.error e >>= f) = .error e := rfl

@[simp] theorem mapError_ok (f : ε → ε') (a : α) :
    (Except.ok a : Except ε α).mapError f = .ok a := rfl

theorem mapError_eq_ok {f : ε → ε'} {x : Except ε α} {a : α} :
    x.mapError f = .ok a ↔ x = .ok a := by
  cases x <;> simp [Except.mapError]

def Fails (P : ε → Prop) (x : Except ε α) : Prop := ∀ e, x = .error e → P e

theorem fails_pure {P : ε → Prop} {a : α} : Fails P (pure a : Except ε α) := fun _ h => nomatch h

theorem fails_bind {x : Except ε α} (hx : Fails P x)
    (hf : ∀ a, Fails P (f a)) : Fails P (x >>= f) := by
  intro e h
  cases x with
  | error =>
    cases h
    exact hx e rfl
  | ok a => exact hf a e h

theorem fails_ensure {e : ε} (he : P e) (b : Bool) : Fails P (ensure b e) := by
  intro e' h
  cases b with
  | true => cases h
  | false =>
    cases h
    exact he

theorem fails_orFail {e : ε} (he : P e) (x : Option α) : Fails P (orFail x e) := by
  intro e' h
  cases x with
  | some => cases h
  | none =>
    cases h
    exact he

theorem fails_mapError {P : ε' → Prop} {f : ε → ε'} (hf : ∀ e, P (f e))
    (x : Except ε α) : Fails P (x.mapError f) := by
  intro e h
  cases x with
  | ok => cases h
  | error cause =>
    cases h
    exact hf cause

theorem forM_eq_ok {xs : List α} {f : α → Except ε Unit} {u : Unit} :
    xs.forM f = .ok u ↔ ∀ a ∈ xs, f a = .ok () := by
  induction xs with
  | nil => simp [List.forM, pure, Except.pure]
  | cons a as ih =>
    rw [show (a :: as).forM f = (f a >>= fun _ => as.forM f) from rfl, bind_eq_ok]
    simp only [ih, List.mem_cons, forall_eq_or_imp]
    constructor
    · rintro ⟨_, ha, has⟩
      exact ⟨ha, has⟩
    · rintro ⟨ha, has⟩
      exact ⟨(), ha, has⟩

theorem mapM_eq_ok {xs : List α} {g : α → β} (h : ∀ a ∈ xs, f a = .ok (g a)) :
    xs.mapM f = .ok (xs.map g) := by
  induction xs with
  | nil => rfl
  | cons a as ih =>
    rw [List.mapM_cons, h a List.mem_cons_self, ih fun b hb => h b (List.mem_cons_of_mem _ hb)]
    rfl

end

end Snagline.Kit
