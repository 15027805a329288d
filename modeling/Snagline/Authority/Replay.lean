import Snagline.Authority.Invariants

/-!
# Exact replay and conflict (store.go:46-74, 114-159, 675-717)

A request that names a row already there is answered from the row, with one
SELECT: with the original receipt if it is the request of that row, with an
error if it is not. Neither touches a table, whatever happened in between. The
expiry is compared as the request gives it with what a TIMESTAMPTZ kept of it,
so CommitCase recognises its own request only when the expiry is a whole number
of microseconds.
-/

namespace Snagline.Authority
open Kit Ssp

/-! ### Attempts that answer from a row, attempts that refuse -/

def CallError.Infrastructure : CallError → Prop
  | .store (.sql _ _) => True
  | .store _ => False
  | _ => True

structure Attempt.Clean (env : Attempt) : Prop where
  begins : env.begins = none
  faults : ∀ f ∈ env.faults, f = none
  commit : env.commit = .done

variable (body : Body (Except StoreError CommitReceipt))

/-- The body consists of one read, and answers `receipt` if that succeeds. -/
def Answers (operation : Operation) (receipt : CommitReceipt) (db : Database) : Prop :=
  ∀ faults revision, Prog.run World.exec body ⟨db, faults, revision⟩ =
    match faults.head?.join with
    | some f => .error (.sql operation f)
    | none => .ok (.ok receipt, ⟨db, faults.tail, revision⟩)

def Refuses (db : Database) : Prop :=
  ∀ faults revision, ∃ e, Prog.run World.exec body ⟨db, faults, revision⟩ = .error e

/-- The attempt leaves the tables alone, and a result it ends the call with
satisfies `P`. -/
def Settles (P : Except CallError CommitReceipt → Prop) (a : Database × Ending) (db : Database) :
    Prop :=
  a.1 = db ∧ ∀ result, a.2 = .finished result → P result

theorem settles_again (P : Except CallError CommitReceipt → Prop) (db : Database) :
    Settles P (db, .again) db :=
  ⟨rfl, fun _ h => nomatch h⟩

theorem settles_finished {P : Except CallError CommitReceipt → Prop}
    {result : Except CallError CommitReceipt} (h : P result) (db : Database) :
    Settles P (db, .finished result) db := by
  refine ⟨rfl, ?_⟩
  intro other hother
  cases hother
  exact h

/-- The body only reads: the server fails it, or it answers `receipt`. -/
def Reads (receipt : CommitReceipt) (db : Database) : Prop :=
  ∀ faults revision,
    (∃ operation f, some f ∈ faults ∧
      Prog.run World.exec body ⟨db, faults, revision⟩ = .error (.sql operation f)) ∨
    ∃ rest, Prog.run World.exec body ⟨db, faults, revision⟩ = .ok (.ok receipt, ⟨db, rest, revision⟩)

theorem mem_of_head_join {α : Type} {xs : List (Option α)} {x : α} (h : xs.head?.join = some x) :
    some x ∈ xs := by
  cases xs with
  | nil => cases h
  | cons y =>
    have hy : y = some x := h
    rw [hy]
    exact List.mem_cons_self

theorem Answers.reads {body : Body (Except StoreError CommitReceipt)} {operation : Operation}
    {receipt : CommitReceipt} {db : Database} (h : Answers body operation receipt db) :
    Reads body receipt db := by
  intro faults revision
  rw [h faults revision]
  cases hfault : faults.head?.join with
  | some f => exact Or.inl ⟨operation, f, mem_of_head_join hfault, rfl⟩
  | none => exact Or.inr ⟨faults.tail, rfl⟩

theorem attempt_reads (label : EntityKind) {body : Body (Except StoreError CommitReceipt)}
    {receipt : CommitReceipt} {db : Database} (env : Attempt) (h : Reads body receipt db) :
    Settles (fun result => result = .ok receipt ∨ ∃ e, result = .error e ∧ e.Infrastructure)
      (attempt label body env db) db := by
  unfold attempt
  cases env.begins with
  | some => exact settles_finished (Or.inr ⟨_, rfl, trivial⟩) db
  | none =>
    rcases h env.faults (env.nextval + 1) with ⟨operation, f, -, hrun⟩ | ⟨rest, hrun⟩
    · simp only [hrun]
      split
      · exact settles_again _ db
      · exact settles_finished (Or.inr ⟨_, rfl, trivial⟩) db
    · simp only [hrun]
      cases env.commit with
      | done => exact settles_finished (Or.inl rfl) db
      | lost => exact settles_finished (Or.inr ⟨_, rfl, trivial⟩) db
      | failed f =>
        simp only
        split
        · exact settles_again _ db
        · exact settles_finished (Or.inr ⟨_, rfl, trivial⟩) db

theorem attempt_reads_clean (label : EntityKind) {body : Body (Except StoreError CommitReceipt)}
    {receipt : CommitReceipt} {db : Database} {env : Attempt} (h : Reads body receipt db)
    (hclean : env.Clean) : attempt label body env db = (db, .finished (.ok receipt)) := by
  unfold attempt
  rcases h env.faults (env.nextval + 1) with ⟨operation, f, hfault, -⟩ | ⟨rest, hrun⟩
  · cases hclean.faults _ hfault
  · simp only [hclean.begins, hrun, hclean.commit]
    rfl

theorem attempt_refuses (label : EntityKind) {body : Body (Except StoreError CommitReceipt)}
    {db : Database} (env : Attempt) (h : Refuses body db) :
    Settles (fun result => ∃ e, result = .error e) (attempt label body env db) db := by
  unfold attempt
  cases env.begins with
  | some => exact settles_finished ⟨_, rfl⟩ db
  | none =>
    obtain ⟨e, he⟩ := h env.faults (env.nextval + 1)
    simp only [he]
    split
    · exact settles_again _ db
    · exact settles_finished ⟨_, rfl⟩ db

/-! ### Whole calls -/

-- the loop only ever sees tables that the other calls left
theorem rounds_settle (store : Store) (c : Call) (P : Except CallError CommitReceipt → Prop)
    (hexhausted : P (.error (.exhausted c.label))) (rounds : List Round) (db : Database)
    (h : ∀ others env, Settles P (attempt c.label (store.body c) env (store.run db others))
      (store.run db others)) :
    (∃ n, (store.rounds c rounds db).1 = store.run db ((rounds.take n).flatMap Round.others)) ∧
      P (store.rounds c rounds db).2 := by
  induction rounds generalizing db with
  | nil => exact ⟨⟨0, rfl⟩, hexhausted⟩
  | cons round rest ih =>
    obtain ⟨hdb, hresult⟩ := h round.others round.env
    unfold Store.rounds
    cases ha : attempt c.label (store.body c) round.env (store.run db round.others) with
    | mk db' ending =>
      rw [ha] at hdb hresult
      simp only at hdb hresult
      subst hdb
      cases ending with
      | finished result => exact ⟨⟨1, by simp⟩, hresult result rfl⟩
      | again =>
        have hrest : ∀ others env, Settles P
            (attempt c.label (store.body c) env (store.run (store.run db round.others) others))
            (store.run (store.run db round.others) others) := by
          intro others env
          rw [← run_append]
          exact h (round.others ++ others) env
        obtain ⟨⟨n, hn⟩, hP⟩ := ih (store.run db round.others) hrest
        refine ⟨⟨n + 1, ?_⟩, hP⟩
        rw [List.take_succ_cons, List.flatMap_cons, run_append]
        exact hn

def firstRound : Fin transactionAttempts := ⟨0, by decide⟩

/-- The tables a call leaves are those the other calls left between its
attempts. -/
def Store.Untouched (store : Store) (c : Call) (db : Database) : Prop :=
  ∀ rounds, ∃ n, (store.commit c rounds db).1 =
    store.run db (((List.ofFn rounds).take n).flatMap Round.others)

/-- The call is answered with `receipt`, unless the server or the connection
fails, and changes nothing. -/
structure Store.Replays (store : Store) (c : Call) (receipt : CommitReceipt) (db : Database) :
    Prop where
  untouched : store.Untouched c db
  outcome : ∀ rounds, (store.commit c rounds db).2 = .ok receipt ∨
    ∃ e, (store.commit c rounds db).2 = .error e ∧ e.Infrastructure
  clean : ∀ rounds, (rounds firstRound).env.Clean → (store.commit c rounds db).2 = .ok receipt

structure Store.Rejects (store : Store) (c : Call) (db : Database) : Prop where
  untouched : store.Untouched c db
  outcome : ∀ rounds, ∃ e, (store.commit c rounds db).2 = .error e

theorem commit_valid (store : Store) {c : Call} (hvalid : c.validate = .ok ())
    (rounds : Fin transactionAttempts → Round) (db : Database) :
    store.commit c rounds db = store.rounds c (List.ofFn rounds) db := by
  unfold Store.commit
  rw [hvalid]

-- a clean first attempt ends the call
theorem commit_clean (store : Store) (c : Call) (receipt : CommitReceipt) (db : Database)
    (hvalid : c.validate = .ok ()) (rounds : Fin transactionAttempts → Round)
    (h : Reads (store.body c) receipt (store.run db (rounds firstRound).others))
    (hclean : (rounds firstRound).env.Clean) :
    store.commit c rounds db = (store.run db (rounds firstRound).others, .ok receipt) := by
  have hattempt := attempt_reads_clean c.label h hclean
  have hfirst : List.ofFn rounds = rounds firstRound :: List.ofFn fun i : Fin 2 => rounds i.succ :=
    List.ofFn_succ
  rw [commit_valid store hvalid, hfirst]
  unfold Store.rounds
  rw [hattempt]

theorem replays_of_answers (store : Store) (c : Call) (operation : Operation)
    (receipt : CommitReceipt) (db : Database) (hvalid : c.validate = .ok ())
    (h : ∀ others, Answers (store.body c) operation receipt (store.run db others)) :
    store.Replays c receipt db := by
  have hsettle := fun rounds : Fin transactionAttempts → Round =>
    rounds_settle store c _ (Or.inr ⟨_, rfl, trivial⟩) (List.ofFn rounds) db fun others env =>
      attempt_reads c.label env (h others).reads
  refine ⟨?_, ?_, ?_⟩
  · intro rounds
    rw [commit_valid store hvalid]
    exact (hsettle rounds).1
  · intro rounds
    rw [commit_valid store hvalid]
    exact (hsettle rounds).2
  · intro rounds hclean
    rw [commit_clean store c receipt db hvalid rounds (h _).reads hclean]

theorem rejects_of_refuses {store : Store} {c : Call} {db : Database}
    (h : ∀ others, Refuses (store.body c) (store.run db others)) : store.Rejects c db := by
  have hsettle := fun rounds : Fin transactionAttempts → Round =>
    rounds_settle store c _ ⟨_, rfl⟩ (List.ofFn rounds) db fun others env =>
      attempt_refuses c.label env (h others)
  cases hvalid : c.validate with
  | error e =>
    have hcommit : ∀ rounds, store.commit c rounds db = (db, .error (.store e)) := by
      intro rounds
      unfold Store.commit
      rw [hvalid]
    refine ⟨fun rounds => ⟨0, ?_⟩, fun rounds => ⟨.store e, ?_⟩⟩
    · rw [hcommit]
      rfl
    · rw [hcommit]
  | ok =>
    refine ⟨fun rounds => ?_, fun rounds => ?_⟩
    · rw [commit_valid store hvalid]
      exact (hsettle rounds).1
    · rw [commit_valid store hvalid]
      exact (hsettle rounds).2

/-! ### The row a request finds -/

section
variable (store : Store) {α : Type} (t : Time)

theorem timestamptz_eq_self : timestamptz t = t ↔ WholeMicros t := by
  unfold timestamptz WholeMicros
  constructor
  · intro h
    exact ⟨t / 1000, by rw [mul_comm]; exact h.symm⟩
  · intro h
    exact Int.ediv_mul_cancel h

theorem wholeMicros_timestamptz : WholeMicros (timestamptz t) :=
  ⟨t / 1000, mul_comm _ _⟩

theorem CommitCaseRequest.matches_row (r : CommitCaseRequest) (revision : ℤ) :
    r.matches (r.row revision) = true ↔ WholeMicros r.expiresAt := by
  rw [← timestamptz_eq_self]
  simp [CommitCaseRequest.matches, CommitCaseRequest.row]

theorem CommitAdviceRequest.matches_row (r : CommitAdviceRequest) (c : CaseRow)
    (sequence revision : ℤ) : r.matches (r.row c sequence revision) = true := by
  simp [CommitAdviceRequest.matches, CommitAdviceRequest.row]

def Store.receiptOfCase (store : Store) (row : CaseRow) : CommitReceipt :=
  store.receipt row.commitRevision row.envelopeID row.commitment

def Store.receiptOfAdvice (store : Store) (row : AdviceRow) : CommitReceipt :=
  store.receipt row.commitRevision row.envelopeID row.commitment

-- one read in front: its failure ends the body, its reply decides the rest
theorem run_read_first (s : Sql) (value : Database → s.Reply)
    (hread : ∀ revision db, s.exec revision db = .ok (value db, db))
    (wrap : SqlState → StoreError) (f : s.Reply → Body α) (db : Database)
    (faults : List (Option SqlState)) (revision : ℤ) :
    Prog.run World.exec (query s wrap >>= f) ⟨db, faults, revision⟩ =
      match faults.head?.join with
      | some e => .error (wrap e)
      | none => Prog.run World.exec (f (value db)) ⟨db, faults.tail, revision⟩ := by
  rw [Prog.run_bind]
  unfold query Prog.stmt
  simp only [Prog.run, World.exec]
  cases faults.head?.join with
  | some => rfl
  | none =>
    simp only [hread]
    rfl

theorem run_require_first (e : StoreError) (f : Unit → Body α) (w : World) :
    Prog.run World.exec (Prog.require true e >>= f) w = Prog.run World.exec (f ()) w :=
  rfl

theorem withAuthority_pos (revision : ℤ) (envelopeID commitment : Bytes)
    (h : 0 < revision) : store.withAuthority ⟨[], revision, envelopeID, commitment⟩ =
      store.receipt revision envelopeID commitment := by
  unfold Store.withAuthority Store.receipt
  rw [if_pos h]

theorem commitCase_answers (r : CommitCaseRequest) (row : CaseRow) (db : Database)
    (hfound : Table.find CaseRow.key (r.tenantID, r.caseID) db.cases = some row)
    (hmatch : r.matches row = true) (hpos : 0 < row.commitRevision) :
    Answers (store.commitCase r) .resolveCase (store.receiptOfCase row) db := by
  intro faults revision
  unfold Store.commitCase existingCase
  rw [Prog.run_bind, run_read_first (.selectCase r.tenantID r.caseID)
    (fun db => Table.find CaseRow.key (r.tenantID, r.caseID) db.cases) (fun _ _ => rfl)]
  cases faults.head?.join with
  | some => rfl
  | none =>
    simp only [hfound, hmatch]
    show Except.ok (Except.ok (store.withAuthority _), _) = _
    rw [withAuthority_pos store _ _ _ hpos]
    rfl

theorem commitAdvice_answers (r : CommitAdviceRequest) (row : AdviceRow)
    (db : Database)
    (hfound : Table.find AdviceRow.key (r.tenantID, r.caseID) db.advice = some row)
    (hmatch : r.matches row = true) (hpos : 0 < row.commitRevision) :
    Answers (store.commitAdvice r) .resolveFinalAdvice (store.receiptOfAdvice row) db := by
  intro faults revision
  unfold Store.commitAdvice existingAdvice
  rw [Prog.run_bind, run_read_first (.selectAdvice r.tenantID r.caseID)
    (fun db => Table.find AdviceRow.key (r.tenantID, r.caseID) db.advice) (fun _ _ => rfl)]
  cases faults.head?.join with
  | some => rfl
  | none =>
    simp only [hfound, hmatch, if_true]
    show Except.ok (Except.ok (store.withAuthority _), _) = _
    rw [withAuthority_pos store _ _ _ hpos]
    rfl

def Store.receiptOfRegistry (store : Store) (row : RegistryRow) : CommitReceipt :=
  store.receipt row.commitRevision row.envelopeID row.commitment

-- the head, then the row of its revision
theorem commitRegistry_reads (r : CommitRegistryRequest) (head : HeadRow)
    (row : RegistryRow) (db : Database) (hlive : LiveHead db r.tenantID head)
    (hsame : r.revision = head.latestRevision)
    (hfound : Table.find RegistryRow.key (r.tenantID, r.revision) db.registries = some row)
    (hmatch : r.matches row = true) (hpos : 0 < row.commitRevision) :
    Reads (store.commitRegistry r) (store.receiptOfRegistry row) db := by
  intro faults revision
  unfold Store.commitRegistry registryHeadForUpdate
  rw [run_read_first (.selectHeadForUpdate r.tenantID)
    (fun db => Table.find HeadRow.tenantID r.tenantID db.heads) (fun _ _ => rfl)]
  cases hfirst : faults.head?.join with
  | some f => exact Or.inl ⟨_, f, mem_of_head_join hfirst, rfl⟩
  | none =>
    have hnot : ¬ r.revision < head.latestRevision := by omega
    simp only [hlive.found, hlive.live, Bool.not_false, if_neg hnot, if_pos hsame]
    rw [run_require_first, Prog.run_bind]
    unfold existingRegistry
    rw [run_read_first (.selectRegistry r.tenantID r.revision)
      (fun db => Table.find RegistryRow.key (r.tenantID, r.revision) db.registries)
      (fun _ _ => rfl)]
    cases hsecond : faults.tail.head?.join with
    | some f =>
      exact Or.inl ⟨_, f, List.mem_of_mem_tail (mem_of_head_join hsecond), rfl⟩
    | none =>
      refine Or.inr ⟨faults.tail.tail, ?_⟩
      simp only [hfound, hmatch, if_true]
      show Except.ok (Except.ok (store.withAuthority _), _) = _
      rw [withAuthority_pos store _ _ _ hpos]
      rfl

-- a body that cannot succeed is rolled back
theorem refuses_of_ne_ok (body : Body (Except StoreError CommitReceipt)) (db : Database)
    (h : ∀ faults revision result w',
      Prog.run World.exec body ⟨db, faults, revision⟩ ≠ .ok (result, w')) : Refuses body db := by
  intro faults revision
  cases hrun : Prog.run World.exec body ⟨db, faults, revision⟩ with
  | error e => exact ⟨e, rfl⟩
  | ok x => exact absurd hrun (h faults revision x.1 x.2)

theorem commitCase_refuses (r : CommitCaseRequest) (row : CaseRow) (db : Database)
    (hfound : Table.find CaseRow.key (r.tenantID, r.caseID) db.cases = some row)
    (hmatch : ¬ r.matches row = true) : Refuses (store.commitCase r) db := by
  apply refuses_of_ne_ok
  intro faults revision result w' hrun
  rcases commitCase_run hrun with ⟨other, hother, hexact, -⟩ | ⟨hfree, -⟩
  · rw [hfound] at hother
    cases hother
    exact hmatch hexact
  · rw [hfound] at hfree
    cases hfree

theorem commitAdvice_refuses (r : CommitAdviceRequest) (row : AdviceRow)
    (db : Database)
    (hfound : Table.find AdviceRow.key (r.tenantID, r.caseID) db.advice = some row)
    (hmatch : ¬ r.matches row = true) : Refuses (store.commitAdvice r) db := by
  apply refuses_of_ne_ok
  intro faults revision result w' hrun
  rcases commitAdvice_run hrun with ⟨other, hother, hexact, -⟩ | ⟨hfree, -⟩
  · rw [hfound] at hother
    cases hother
    exact hmatch hexact
  · rw [hfound] at hfree
    cases hfree

end

/-! ### What a committed request left behind -/

structure Stored (db : Database) : Prop where
  caseRevision : ∀ c ∈ db.cases, 0 < c.commitRevision
  caseExpiry : ∀ c ∈ db.cases, WholeMicros c.expiresAt
  adviceRevision : ∀ a ∈ db.advice, 0 < a.commitRevision

theorem Stored.change {db db' : Database} {c : Call} (h : Stored db) (hchange : Change db c db') :
    Stored db' := by
  cases hchange with
  | none => exact h
  | case r revision written valid free head live binds positive =>
    refine ⟨?_, ?_, ?_⟩
    · rw [written.cases]
      intro c hc
      rcases List.mem_append.mp hc with hold | hnew
      · exact h.caseRevision c hold
      · rw [List.mem_singleton.mp hnew]
        exact positive
    · rw [written.cases]
      intro c hc
      rcases List.mem_append.mp hc with hold | hnew
      · exact h.caseExpiry c hold
      · rw [List.mem_singleton.mp hnew]
        exact wholeMicros_timestamptz r.expiresAt
    · rw [written.advice]
      exact h.adviceRevision
  | advice r c revision written valid free head live found binds positive =>
    refine ⟨?_, ?_, ?_⟩
    · rw [written.cases]
      exact h.caseRevision
    · rw [written.cases]
      exact h.caseExpiry
    · rw [written.advice]
      intro a ha
      rcases List.mem_append.mp ha with hold | hnew
      · exact h.adviceRevision a hold
      · rw [List.mem_singleton.mp hnew]
        exact positive
  | registry r revision written =>
    exact ⟨written.cases ▸ h.caseRevision, written.cases ▸ h.caseExpiry,
      written.advice ▸ h.adviceRevision⟩
  | halted => exact ⟨h.caseRevision, h.caseExpiry, h.adviceRevision⟩

def Settled (db : Database) : Prop := Consistent db ∧ Stored db

theorem Settled.run {db : Database} (h : Settled db) (store : Store) (es : List Event) :
    Settled (store.run db es) :=
  run_invariant store Settled (fun db e h =>
    ⟨h.1.change (step_change store db e), h.2.change (step_change store db e)⟩) db es h

theorem settled_empty : Settled {} := ⟨consistent_empty, by simp, by simp, by simp⟩

theorem Settled.find_case {db : Database} (h : Settled db) (store : Store) {row : CaseRow}
    (hrow : row ∈ db.cases) (es : List Event) :
    Table.find CaseRow.key row.key (store.run db es).cases = some row :=
  (h.run store es).1.oneCase.find_mem ((run_grows store db es).cases.subset hrow)

theorem Settled.find_advice {db : Database} (h : Settled db) (store : Store) {row : AdviceRow}
    (hrow : row ∈ db.advice) (es : List Event) :
    Table.find AdviceRow.key row.key (store.run db es).advice = some row :=
  (h.run store es).1.oneAdvice.find_mem ((run_grows store db es).advice.subset hrow)

/-- The receipt with which the attempt took effect, whether or not the client
got to see it. -/
def Store.committed (store : Store) (db : Database) (e : Event) : Option CommitReceipt :=
  match e.call.validate, e.env.begins,
    Prog.run World.exec (store.body e.call) ⟨db, e.env.faults, e.env.nextval + 1⟩,
    e.env.commit with
  | .ok _, none, .ok (.ok receipt, _), .done => some receipt
  | .ok _, none, .ok (.ok receipt, _), .lost => some receipt
  | _, _, _, _ => none

theorem committed_eq_some {store : Store} {db : Database} {e : Event} {receipt : CommitReceipt}
    (h : store.committed db e = some receipt) :
    e.call.validate = .ok () ∧ ∃ w,
      Prog.run World.exec (store.body e.call) ⟨db, e.env.faults, e.env.nextval + 1⟩ =
        .ok (.ok receipt, w) ∧ store.step db e = w.db := by
  unfold Store.committed at h
  split at h
  · rename_i u receipt' w hvalid hbegins hrun hcommit
    cases h
    refine ⟨hvalid, w, hrun, ?_⟩
    unfold Store.step attempt
    simp only [hvalid, hbegins, hrun, hcommit]
  · rename_i u receipt' w hvalid hbegins hrun hcommit
    cases h
    refine ⟨hvalid, w, hrun, ?_⟩
    unfold Store.step attempt
    simp only [hvalid, hbegins, hrun, hcommit]
  · cases h

theorem committed_case {store : Store} {db : Database} {e : Event} {r : CommitCaseRequest}
    {receipt : CommitReceipt} (hsettled : Settled db) (hcall : e.call = .case r)
    (h : store.committed db e = some receipt) :
    r.validate = .ok () ∧ ∃ row ∈ (store.step db e).cases, row.key = (r.tenantID, r.caseID) ∧
      receipt = store.receiptOfCase row ∧ (r.matches row = true ↔ WholeMicros r.expiresAt) := by
  obtain ⟨hvalid, w, hrun, hdb⟩ := committed_eq_some h
  rw [hcall] at hvalid hrun
  refine ⟨hvalid, ?_⟩
  rw [hdb]
  rcases commitCase_run hrun with ⟨row, hfound, hmatch, hsame, hreceipt⟩ |
    ⟨-, -, hwritten, hreceipt⟩
  · obtain ⟨hmem, hkey⟩ := Table.find_eq_some hfound
    refine ⟨row, hsame ▸ hmem, hkey, ?_, ?_⟩
    · cases hreceipt
      exact withAuthority_pos store _ _ _ (hsettled.2.caseRevision row hmem)
    · -- it matches the expiry of a stored row, which is whole
      have hexpiry : row.expiresAt = r.expiresAt := by
        simp only [CommitCaseRequest.matches, Bool.and_eq_true, beq_iff_eq] at hmatch
        exact hmatch.2
      exact ⟨fun _ => hexpiry ▸ hsettled.2.caseExpiry row hmem, fun _ => hmatch⟩
  · cases hreceipt
    refine ⟨r.row (e.env.nextval + 1), ?_, rfl, rfl, r.matches_row _⟩
    rw [hwritten.cases]
    simp

theorem committed_advice {store : Store} {db : Database} {e : Event} {r : CommitAdviceRequest}
    {receipt : CommitReceipt} (hsettled : Settled db) (hcall : e.call = .advice r)
    (h : store.committed db e = some receipt) :
    r.validate = .ok () ∧ ∃ row ∈ (store.step db e).advice, row.key = (r.tenantID, r.caseID) ∧
      receipt = store.receiptOfAdvice row ∧ r.matches row = true := by
  obtain ⟨hvalid, w, hrun, hdb⟩ := committed_eq_some h
  rw [hcall] at hvalid hrun
  refine ⟨hvalid, ?_⟩
  rw [hdb]
  rcases commitAdvice_run hrun with ⟨row, hfound, hmatch, hsame, hreceipt⟩ |
    ⟨-, -, c, -, -, hwritten, hreceipt⟩
  · obtain ⟨hmem, hkey⟩ := Table.find_eq_some hfound
    refine ⟨row, hsame ▸ hmem, hkey, ?_, hmatch⟩
    cases hreceipt
    exact withAuthority_pos store _ _ _ (hsettled.2.adviceRevision row hmem)
  · cases hreceipt
    refine ⟨r.row c (nextSequence db c.log) (e.env.nextval + 1), ?_, rfl, rfl, r.matches_row c _ _⟩
    rw [hwritten.advice]
    simp

/-! ### Replay and conflict over whole histories -/

section
variable {r : CommitAdviceRequest} {db : Database} {row : AdviceRow}

/-- The request differs from the row in raw bytes, commitment, envelope
identifier or a registry coordinate. -/
def CommitCaseRequest.DiffersFrom (r : CommitCaseRequest) (row : CaseRow) : Prop :=
  r.raw ≠ row.raw ∨ r.commitment ≠ row.commitment ∨ r.envelopeID ≠ row.envelopeID ∨
    r.routingEpoch ≠ row.routingEpoch ∨ r.registryRevision ≠ row.registryRevision ∨
    r.registryHash ≠ row.registryHash

def CommitAdviceRequest.DiffersFrom (r : CommitAdviceRequest) (row : AdviceRow) : Prop :=
  r.raw ≠ row.raw ∨ r.commitment ≠ row.commitment ∨ r.envelopeID ≠ row.envelopeID ∨
    r.routingEpoch ≠ row.routingEpoch ∨ r.registryRevision ≠ row.registryRevision ∨
    r.registryHash ≠ row.registryHash

theorem CommitCaseRequest.DiffersFrom.not_matches {r : CommitCaseRequest} {row : CaseRow}
    (h : r.DiffersFrom row) : ¬ r.matches row = true := by
  intro hmatch
  simp only [CommitCaseRequest.matches, Bool.and_eq_true, beq_iff_eq] at hmatch
  unfold CommitCaseRequest.DiffersFrom at h
  simp_all

theorem CommitAdviceRequest.DiffersFrom.not_matches
    (h : r.DiffersFrom row) : ¬ r.matches row = true := by
  intro hmatch
  simp only [CommitAdviceRequest.matches, Bool.and_eq_true, beq_iff_eq] at hmatch
  unfold CommitAdviceRequest.DiffersFrom at h
  simp_all

theorem Settled.replays_case (h : Settled db) (store : Store)
    {r : CommitCaseRequest} {row : CaseRow} (hrow : row ∈ db.cases)
    (hkey : row.key = (r.tenantID, r.caseID)) (hmatch : r.matches row = true)
    (hvalid : r.validate = .ok ()) : store.Replays (.case r) (store.receiptOfCase row) db :=
  replays_of_answers store (.case r) .resolveCase _ db hvalid fun others =>
    commitCase_answers store r row _ (hkey ▸ h.find_case store hrow others) hmatch
      (h.2.caseRevision row hrow)

theorem Settled.replays_advice (h : Settled db) (store : Store) (hrow : row ∈ db.advice)
    (hkey : row.key = (r.tenantID, r.caseID)) (hmatch : r.matches row = true)
    (hvalid : r.validate = .ok ()) : store.Replays (.advice r) (store.receiptOfAdvice row) db :=
  replays_of_answers store (.advice r) .resolveFinalAdvice _ db hvalid fun others =>
    commitAdvice_answers store r row _ (hkey ▸ h.find_advice store hrow others) hmatch
      (h.2.adviceRevision row hrow)

theorem Settled.rejects_case (h : Settled db) (store : Store)
    {r : CommitCaseRequest} {row : CaseRow} (hrow : row ∈ db.cases)
    (hkey : row.key = (r.tenantID, r.caseID)) (hmatch : ¬ r.matches row = true) :
    store.Rejects (.case r) db :=
  rejects_of_refuses fun others =>
    commitCase_refuses store r row _ (hkey ▸ h.find_case store hrow others) hmatch

theorem Settled.rejects_advice (h : Settled db) (store : Store) (hrow : row ∈ db.advice)
    (hkey : row.key = (r.tenantID, r.caseID)) (hmatch : ¬ r.matches row = true) :
    store.Rejects (.advice r) db :=
  rejects_of_refuses fun others =>
    commitAdvice_refuses store r row _ (hkey ▸ h.find_advice store hrow others) hmatch

/-- Exact replay and conflict. Once an attempt has taken effect with a receipt,
the same CommitAdvice request, and the same CommitCase request if its expiry is
a whole number of microseconds, gets that receipt at every later point and
changes nothing; with any other expiry CommitCase refuses its own request. A
request for a case identifier in use that is not the request of the row there is
refused and changes nothing. -/
theorem store_replay_and_conflict (store : Store) (es later : List Event) (e : Event) :
    let db := store.run {} es
    let db' := store.run (store.step db e) later
    (∀ r receipt, e.call = .case r → store.committed db e = some receipt →
      (WholeMicros r.expiresAt → store.Replays (.case r) receipt db') ∧
      (¬ WholeMicros r.expiresAt → store.Rejects (.case r) db')) ∧
    (∀ r receipt, e.call = .advice r → store.committed db e = some receipt →
      store.Replays (.advice r) receipt db') ∧
    (∀ (r : CommitCaseRequest), ∀ row ∈ db'.cases, row.key = (r.tenantID, r.caseID) →
      r.DiffersFrom row → store.Rejects (.case r) db') ∧
    (∀ (r : CommitAdviceRequest), ∀ row ∈ db'.advice, row.key = (r.tenantID, r.caseID) →
      r.DiffersFrom row → store.Rejects (.advice r) db') := by
  intro db db'
  have hdb : Settled db := settled_empty.run store es
  have hstep : Settled (store.step db e) := hdb.run store [e]
  have hdb' : Settled db' := hstep.run store later
  have hgrows := run_grows store (store.step db e) later
  refine ⟨?_, ?_, ?_, ?_⟩
  · intro r receipt hcall hcommitted
    obtain ⟨hvalid, row, hrow, hkey, rfl, hmatch⟩ :=
      committed_case hdb hcall hcommitted
    have hlater : row ∈ db'.cases := hgrows.cases.subset hrow
    constructor
    · intro hmicros
      exact hdb'.replays_case store hlater hkey (hmatch.mpr hmicros) hvalid
    · intro hmicros
      exact hdb'.rejects_case store hlater hkey fun h => hmicros (hmatch.mp h)
  · intro r receipt hcall hcommitted
    obtain ⟨hvalid, row, hrow, hkey, rfl, hmatch⟩ :=
      committed_advice hdb hcall hcommitted
    have hlater : row ∈ db'.advice := hgrows.advice.subset hrow
    exact hdb'.replays_advice store hlater hkey hmatch hvalid
  · intro r row hrow hkey hdiffers
    exact hdb'.rejects_case store hrow hkey hdiffers.not_matches
  · intro r row hrow hkey hdiffers
    exact hdb'.rejects_advice store hrow hkey hdiffers.not_matches

end

/-! ### A request that does not recognise itself -/

namespace Sample

-- the digest only has to tell the outbox identifiers apart
def store : Store := ⟨[97], by decide, id⟩

def commitment (digit : UInt8) : Bytes :=
  [115, 104, 97, 50, 53, 54, 58] ++ List.replicate 64 digit

def registryRequest : CommitRegistryRequest where
  tenantID := [116]
  revision := 1
  envelopeID := [114]
  commitment := commitment 49
  raw := [123, 125]
  routingEpoch := 1
  previousCommitment := []
  edges := some ⟨[([101], ⟨[112], 1⟩)], by simp⟩
  authenticatedPrincipalID := []
  authenticatedEdgeID := []
  decision := []

def caseRequest (expiresAt : Time) : CommitCaseRequest where
  tenantID := [116]
  caseID := [99]
  envelopeID := [100]
  commitment := commitment 50
  raw := [123, 125]
  domain := [118]
  issuerEdgeID := [101]
  issuerEdgeGeneration := 1
  routingEpoch := 1
  registryRevision := 1
  registryHash := commitment 49
  expiresAt := expiresAt
  authenticatedPrincipalID := []
  authenticatedEdgeID := []
  decision := []

def adoption : Event := ⟨.registry registryRequest, { nextval := 0 }⟩
def admission (expiresAt : Time) : Event := ⟨.case (caseRequest expiresAt), { nextval := 1 }⟩
def receipt : CommitReceipt := ⟨[97], 2, [100], commitment 50⟩
def quiet : Fin transactionAttempts → Round := fun _ => ⟨[], { nextval := 2 }⟩

end Sample

/-- One nanosecond past a microsecond: the request commits, and its exact replay
is a conflict. -/
theorem replay_submicrosecond :
    let db := Sample.store.run {} [Sample.adoption]
    let e := Sample.admission 1001
    Sample.store.committed db e = some Sample.receipt ∧
      (Sample.store.commit e.call Sample.quiet (Sample.store.step db e)).2 =
        .error (.store .conflictingCase) := by
  decide +kernel

/-- With a whole microsecond the replay gets the receipt, and the same request
with other bytes is refused. -/
theorem store_replay_and_conflict_sample :
    let db := Sample.store.run {} [Sample.adoption]
    let e := Sample.admission 1000
    let db' := Sample.store.run (Sample.store.step db e) []
    Sample.store.Replays e.call Sample.receipt db' ∧
      Sample.store.Rejects (.case { Sample.caseRequest 1000 with raw := [91, 93] }) db' := by
  intro db e db'
  have h := store_replay_and_conflict Sample.store [Sample.adoption] [] e
  have hcommitted : Sample.store.committed db e = some Sample.receipt := by decide +kernel
  refine ⟨(h.1 _ _ rfl hcommitted).1 (by decide), ?_⟩
  have hrow : (Sample.caseRequest 1000).row 2 ∈ db'.cases := by decide +kernel
  exact h.2.2.1 _ _ hrow rfl (Or.inl (by decide))

end Snagline.Authority
