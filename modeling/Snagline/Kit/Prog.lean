import Mathlib.Tactic.Basic

/-!
# Transaction bodies as programs

A body issues statements one at a time and looks at each reply before the next.
`Prog` is the tree of everything it may do: `S` are the statements, `R s` the
reply to `s`, `φ` the failure of a statement, `E` the body's own errors. The
same tree is executed against a database in one go (`run`), or taken apart
statement by statement when several bodies interleave.
-/

namespace Snagline.Kit

inductive Prog (S : Type) (R : S → Type) (φ E α : Type) where
  | ret (a : α)
  | fail (e : E)
  | call (s : S) (k : Except φ (R s) → Prog S R φ E α)

namespace Prog

variable {S : Type} {R : S → Type} {φ E α β σ : Type}

def bind : Prog S R φ E α → (α → Prog S R φ E β) → Prog S R φ E β
  | .ret a, f => f a
  | .fail e, _ => .fail e
  | .call s k, f => .call s fun r => (k r).bind f

instance : Monad (Prog S R φ E) where
  pure := .ret
  bind := bind

/-- One statement; its failure ends the body with `wrap` of the failure. -/
def stmt (s : S) (wrap : φ → E) : Prog S R φ E (R s) :=
  .call s fun
    | .ok r => .ret r
    | .error f => .fail (wrap f)

/-- A body that stops with `e` unless `b` holds. -/
def require (b : Bool) (e : E) : Prog S R φ E Unit := if b then .ret () else .fail e

/-! ### Execution in one go -/

/-- Statements executed against a state. A failed statement changes nothing and
the body continues with the failure as its reply. -/
def run (exec : (s : S) → σ → Except φ (R s × σ)) : Prog S R φ E α → σ → Except E (α × σ)
  | .ret a, db => .ok (a, db)
  | .fail e, _ => .error e
  | .call s k, db =>
    match exec s db with
    | .ok (r, db') => run exec (k (.ok r)) db'
    | .error f => run exec (k (.error f)) db

variable (exec : (s : S) → σ → Except φ (R s × σ))

@[simp] theorem run_pure (a : α) (db : σ) :
    run exec (pure a : Prog S R φ E α) db = .ok (a, db) := rfl

@[simp] theorem run_fail (e : E) (db : σ) :
    run exec (.fail e : Prog S R φ E α) db = .error e := rfl

theorem run_bind (p : Prog S R φ E α) (f : α → Prog S R φ E β) (db : σ) :
    run exec (p >>= f) db =
      match run exec p db with
      | .ok (a, db') => run exec (f a) db'
      | .error e => .error e := by
  induction p generalizing db with
  | ret | fail => rfl
  | call s k ih =>
    show run exec (.call s fun r => (k r).bind f) db = _
    simp only [run]
    cases exec s db with
    | ok r => exact ih (.ok r.1) r.2
    | error e => exact ih (.error e) db

theorem run_bind_eq_ok (p : Prog S R φ E α) (f : α → Prog S R φ E β) (db : σ) (r : β × σ) :
    run exec (p >>= f) db = .ok r ↔
      ∃ a db', run exec p db = .ok (a, db') ∧ run exec (f a) db' = .ok r := by
  rw [run_bind]
  cases h : run exec p db with
  | error => simp
  | ok x =>
    obtain ⟨a, db'⟩ := x
    constructor
    · intro hr
      exact ⟨a, db', rfl, hr⟩
    · rintro ⟨a', db'', he, hr⟩
      cases he
      exact hr

@[simp] theorem run_stmt_eq_ok (s : S) (wrap : φ → E) (db : σ) (r : R s × σ) :
    run exec (stmt s wrap : Prog S R φ E (R s)) db = .ok r ↔ exec s db = .ok r := by
  unfold stmt run
  cases h : exec s db with
  | ok | error => simp [run]

@[simp] theorem run_require_eq_ok (b : Bool) (e : E) (db : σ) (r : Unit × σ) :
    run exec (require b e : Prog S R φ E Unit) db = .ok r ↔ b = true ∧ r = ((), db) := by
  cases b with
  | false => simp [require]
  | true =>
    constructor
    · intro h
      exact ⟨rfl, (Except.ok.inj h).symm⟩
    · rintro ⟨-, rfl⟩
      rfl

/-! ### Execution that keeps its effects

A body that is no transaction leaves what it has done when it fails. -/

section Drive
variable (perform : (s : S) → σ → σ × Except φ (R s))

def drive : Prog S R φ E α → σ → σ × Except E α
  | .ret a, st => (st, .ok a)
  | .fail e, st => (st, .error e)
  | .call s k, st => drive (k (perform s st).2) (perform s st).1

theorem drive_bind (p : Prog S R φ E α) (f : α → Prog S R φ E β) (st : σ) :
    drive perform (p >>= f) st =
      match drive perform p st with
      | (st', .ok a) => drive perform (f a) st'
      | (st', .error e) => (st', .error e) := by
  induction p generalizing st with
  | ret | fail => rfl
  | call s k ih => exact ih _ _

theorem drive_bind_eq_ok (p : Prog S R φ E α) (f : α → Prog S R φ E β) (st st' : σ) (b : β) :
    drive perform (p >>= f) st = (st', .ok b) ↔
      ∃ a mid, drive perform p st = (mid, .ok a) ∧ drive perform (f a) mid = (st', .ok b) := by
  rw [drive_bind]
  obtain ⟨mid, r⟩ := drive perform p st
  cases r with
  | error => simp
  | ok a =>
    constructor
    · intro h
      exact ⟨a, mid, rfl, h⟩
    · rintro ⟨a', mid', he, h⟩
      cases he
      exact h

theorem drive_stmt (s : S) (wrap : φ → E) (st : σ) :
    drive perform (stmt s wrap : Prog S R φ E (R s)) st =
      ((perform s st).1, (perform s st).2.mapError wrap) := by
  show drive perform (Prog.stmt s wrap) st = _
  unfold stmt drive
  cases (perform s st).2 with
  | ok | error => rfl

theorem drive_require (b : Bool) (e : E) (st : σ) :
    drive perform (require b e : Prog S R φ E Unit) st = (st, if b then .ok () else .error e) := by
  cases b with
  | false | true => rfl

theorem drive_stmt_eq_ok (s : S) (wrap : φ → E) (st st' : σ) (r : R s) :
    drive perform (stmt s wrap : Prog S R φ E (R s)) st = (st', .ok r) ↔
      perform s st = (st', .ok r) := by
  rw [drive_stmt]
  obtain ⟨mid, x⟩ := perform s st
  cases x with
  | ok x =>
    show (mid, Except.ok x) = (st', Except.ok r) ↔ (mid, Except.ok x) = (st', Except.ok r)
    simp
  | error f =>
    show (mid, Except.error (wrap f)) = (st', Except.ok r) ↔ (mid, Except.error f) = (st', Except.ok r)
    simp

theorem drive_require_eq_ok (b : Bool) (e : E) (st st' : σ) (u : Unit) :
    drive perform (require b e : Prog S R φ E Unit) st = (st', .ok u) ↔ b = true ∧ st' = st := by
  rw [drive_require]
  cases b with
  | false => simp
  | true => simp [eq_comm]

end Drive

end Prog

end Snagline.Kit
