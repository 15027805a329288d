import Snagline.Authority.Store

/-!
# Serializable transactions (store.go:46-52, 114-119, 197-203, 558-584)

A commit call is up to three attempts of one transaction. What the server and
the network may do to an attempt is its `Attempt` record: refuse to begin, fail
any statement, fail the rollback, and fail or lose the commit. Attempts of
different calls are serializable, so a history is a list of attempts in the
order they take effect; those of one call need not be adjacent in it.
-/

namespace Snagline.Authority
open Kit Ssp

def transactionAttempts : ℕ := 3

/-- `lost` is a commit that took effect although the client saw an error. -/
inductive CommitFate where
  | done
  | failed (state : SqlState)
  | lost
  deriving DecidableEq

/-- The environment of one attempt. `faults` lists, statement by statement, the
failure the server injects. `nextval` counts what the identity column has given
out before: a revision is positive, and aborted attempts leave gaps. -/
structure Attempt where
  begins : Option SqlState := none
  faults : List (Option SqlState) := []
  nextval : ℕ
  rollback : Option SqlState := none
  commit : CommitFate := .done
  deriving DecidableEq

structure World where
  db : Database
  faults : List (Option SqlState)
  revision : ℤ

def World.exec (s : Sql) (w : World) : Except SqlState (s.Reply × World) :=
  match w.faults.head?.join with
  | some f => .error f
  | none => (s.exec w.revision w.db).map fun r => (r.1, ⟨r.2, w.faults.tail, w.revision⟩)

inductive CallError where
  | store (e : StoreError)
  | beginFailed (label : EntityKind) (state : SqlState)
  | commitFailed (label : EntityKind) (state : SqlState)
  | commitLost (label : EntityKind)
  | exhausted (label : EntityKind)
  deriving DecidableEq

/-- `retryable`. -/
def StoreError.retryable : StoreError → Bool
  | .retryTransaction => true
  | .sql _ state => state == .serializationFailure
  | _ => false

inductive Ending where
  | again
  | finished (result : Except CallError CommitReceipt)

def Ending.ofResult (result : Except StoreError CommitReceipt) : Ending :=
  .finished (result.mapError .store)

/-- One round of the loop in `transaction`. -/
def attempt (label : EntityKind) (body : Body (Except StoreError CommitReceipt)) (env : Attempt)
    (db : Database) : Database × Ending :=
  match env.begins with
  | some f => (db, .finished (.error (.beginFailed label f)))
  | none =>
    match Prog.run World.exec body ⟨db, env.faults, env.nextval + 1⟩ with
    | .error e =>
      if e.retryable || env.rollback == some .serializationFailure then (db, .again)
      else (db, .finished (.error (.store e)))
    | .ok (result, w) =>
      match env.commit with
      | .done => (w.db, .ofResult result)
      | .lost => (w.db, .finished (.error (.commitLost label)))
      | .failed f =>
        if f = .serializationFailure then (db, .again)
        else (db, .finished (.error (.commitFailed label f)))

/-! ### Calls and histories -/

inductive Call where
  | case (request : CommitCaseRequest)
  | advice (request : CommitAdviceRequest)
  | registry (request : CommitRegistryRequest)
  deriving DecidableEq

def Call.label : Call → EntityKind
  | .case _ => .case
  | .advice _ => .advice
  | .registry _ => .registry

def Call.validate : Call → Except StoreError Unit
  | .case r => r.validate
  | .advice r => r.validate
  | .registry r => r.validate

variable (store : Store)

def Store.body : Call → Body (Except StoreError CommitReceipt)
  | .case r => store.commitCase r
  | .advice r => store.commitAdvice r
  | .registry r => store.commitRegistry r

structure Event where
  call : Call
  env : Attempt
  deriving DecidableEq

variable (db : Database)

def Store.step (e : Event) : Database :=
  match e.call.validate with
  | .error _ => db
  | .ok _ => (attempt e.call.label (store.body e.call) e.env db).1

def Store.run (events : List Event) : Database :=
  events.foldl store.step db

structure Round where
  others : List Event
  env : Attempt

/-- The loop of `transaction` over its rounds. -/
def Store.rounds (store : Store) (c : Call) :
    List Round → Database → Database × Except CallError CommitReceipt
  | [], db => (db, .error (.exhausted c.label))
  | round :: rest, db =>
    match attempt c.label (store.body c) round.env (store.run db round.others) with
    | (db', .finished result) => (db', result)
    | (db', .again) => store.rounds c rest db'

def Store.commit (c : Call) (rounds : Fin transactionAttempts → Round) (db : Database) :
    Database × Except CallError CommitReceipt :=
  match c.validate with
  | .error e => (db, .error (.store e))
  | .ok _ => store.rounds c (List.ofFn rounds) db

/-! ### What an attempt can do -/

theorem attempt_db (label : EntityKind) (body : Body (Except StoreError CommitReceipt))
    (env : Attempt) (db : Database) :
    (attempt label body env db).1 = db ∨
      ∃ result w, Prog.run World.exec body ⟨db, env.faults, env.nextval + 1⟩ = .ok (result, w) ∧
        (attempt label body env db).1 = w.db := by
  unfold attempt
  cases env.begins with
  | some => exact Or.inl rfl
  | none =>
    cases hrun : Prog.run World.exec body ⟨db, env.faults, env.nextval + 1⟩ with
    | error e =>
      left
      simp only
      split <;> rfl
    | ok r =>
      obtain ⟨result, w⟩ := r
      cases env.commit with
      | done | lost => exact Or.inr ⟨result, w, rfl, rfl⟩
      | failed f =>
        left
        simp only
        split <;> rfl

@[simp] theorem run_nil : store.run db [] = db := rfl

@[simp] theorem run_cons (e : Event) (es : List Event) :
    store.run db (e :: es) = store.run (store.step db e) es := rfl

theorem run_append (es es' : List Event) :
    store.run db (es ++ es') = store.run (store.run db es) es' := List.foldl_append

theorem run_invariant (P : Database → Prop) (hstep : ∀ db e, P db → P (store.step db e))
    (db : Database) (es : List Event) (h : P db) : P (store.run db es) := by
  induction es generalizing db with
  | nil => exact h
  | cons e es ih => exact ih (store.step db e) (hstep db e h)

end Snagline.Authority
