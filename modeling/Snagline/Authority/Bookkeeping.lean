import Snagline.Authority.Ledger

/-!
# The rows of one revision, and of none

A transaction that commits draws one revision and writes all its rows under it:
the fact, its delivery, its audit row and its announcements. What an attempt
reports as failed wrote nothing, but for the three contradictions that halt a
registry head on purpose.
-/

namespace Snagline.Authority
open Kit Ssp

structure Writes where
  cases : List CaseRow
  advice : List AdviceRow
  registries : List RegistryRow
  deliveries : List DeliveryRow
  audit : List AuditRow
  outbox : List OutboxRow
  deriving DecidableEq

namespace Writes

def empty : Writes := ⟨[], [], [], [], [], []⟩

instance : Append Writes where
  append a b := ⟨a.cases ++ b.cases, a.advice ++ b.advice, a.registries ++ b.registries,
    a.deliveries ++ b.deliveries, a.audit ++ b.audit, a.outbox ++ b.outbox⟩

def under (w : Writes) (revision : ℤ) : Writes where
  cases := w.cases.filter fun r => r.commitRevision = revision
  advice := w.advice.filter fun r => r.commitRevision = revision
  registries := w.registries.filter fun r => r.commitRevision = revision
  deliveries := w.deliveries.filter fun r => r.authorityRevision = revision
  audit := w.audit.filter fun r => r.authorityRevision = revision
  outbox := w.outbox.filter fun r => r.authorityRevision = revision

theorem append_empty (a : Writes) : a ++ empty = a := by
  show (⟨a.cases ++ [], a.advice ++ [], a.registries ++ [], a.deliveries ++ [], a.audit ++ [],
    a.outbox ++ []⟩ : Writes) = a
  simp only [List.append_nil]

theorem empty_append (a : Writes) : empty ++ a = a := rfl

theorem under_append (a b : Writes) (revision : ℤ) :
    (a ++ b).under revision = a.under revision ++ b.under revision := by
  show (⟨(a.cases ++ b.cases).filter _, (a.advice ++ b.advice).filter _,
    (a.registries ++ b.registries).filter _, (a.deliveries ++ b.deliveries).filter _,
    (a.audit ++ b.audit).filter _, (a.outbox ++ b.outbox).filter _⟩ : Writes) = _
  simp only [List.filter_append]
  rfl

structure Dated (w : Writes) (revision : ℤ) : Prop where
  own : w.under revision = w
  other : ∀ k, k ≠ revision → w.under k = empty

end Writes

def Database.writes (db : Database) : Writes :=
  ⟨db.cases, db.advice, db.registries, db.deliveries, db.audit, db.outbox⟩

def Database.under (db : Database) (revision : ℤ) : Writes := db.writes.under revision

structure AuditRow.Records (a : AuditRow) (kind : EntityKind)
    (tenantID entityID commitment : Bytes) : Prop where
  tenant : a.tenantID = tenantID
  kind : a.entityKind = kind
  entity : a.entityID = entityID
  commitment : a.commitment = commitment

def OutboxRow.Announces (o : OutboxRow) (kind : EntityKind) (tenantID entityID raw : Bytes)
    (d : DestinationKind × Bytes) : Prop :=
  o = announce (fun _ => o.outboxID) tenantID kind entityID raw o.authorityRevision d

inductive Writes.Complete : Writes → Prop where
  | case (c : CaseRow) (n : ℤ) (a : AuditRow) (domain edge : OutboxRow)
      (audited : a.Records .case c.tenantID c.caseID c.commitment)
      (dispatched : domain.Announces .case c.tenantID c.caseID c.raw (.domainDispatch, c.domain))
      (delivered : edge.Announces .case c.tenantID c.caseID c.raw
        (.edgeDelivery, edgeKey c.issuerEdgeID c.issuerEdgeGeneration)) :
      Complete ⟨[c], [], [], [(Fact.case c).delivery n], [a], [domain, edge]⟩
  | advice (r : AdviceRow) (n : ℤ) (a : AuditRow) (edge : OutboxRow)
      (audited : a.Records .advice r.tenantID r.caseID r.commitment)
      (delivered : edge.Announces .advice r.tenantID r.caseID r.raw
        (.edgeDelivery, edgeKey r.targetEdgeID r.targetEdgeGeneration)) :
      Complete ⟨[], [r], [], [(Fact.advice r).delivery n], [a], [edge]⟩
  | registry (r : RegistryRow) (a : AuditRow)
      (audited : a.Records .registry r.tenantID r.envelopeID r.commitment) :
      Complete ⟨[], [], [r], [], [a], []⟩

structure Booked (db : Database) : Prop where
  committed : ∀ revision ∈ db.revisions, (db.under revision).Complete
  unused : ∀ revision, revision ∉ db.revisions → db.under revision = .empty

theorem booked_empty : Booked {} where
  committed := by simp
  unused := fun _ _ => rfl

/-! ### One attempt -/

section
variable {revision : ℤ} {a : AuditRow} {db db' : Database} {d : DeliveryRow}

theorem Booked.extend (h : Booked db)
    (hunused : revision ∉ db.revisions) (hrevisions : db'.revisions = db.revisions ++ [revision])
    {new : Writes} (hwrites : db'.writes = db.writes ++ new) (hcomplete : new.Complete)
    (hdated : new.Dated revision) : Booked db' := by
  have hunder : ∀ k, db'.under k = db.under k ++ new.under k := by
    intro k
    unfold Database.under
    rw [hwrites, Writes.under_append]
  constructor
  · intro k hk
    rw [hrevisions, List.mem_append, List.mem_singleton] at hk
    by_cases hsame : k = revision
    · rw [hsame, hunder, h.unused revision hunused, hdated.own, Writes.empty_append]
      exact hcomplete
    · rw [hunder, hdated.other k hsame, Writes.append_empty]
      exact h.committed k (hk.resolve_right hsame)
  · intro k hk
    rw [hrevisions, List.mem_append, List.mem_singleton, not_or] at hk
    rw [hunder, hdated.other k hk.2, Writes.append_empty]
    exact h.unused k hk.1

theorem dated_case {c : CaseRow} {domain edge : OutboxRow} (hc : c.commitRevision = revision)
    (hd : d.authorityRevision = revision)
    (ha : a.authorityRevision = revision) (hdomain : domain.authorityRevision = revision)
    (hedge : edge.authorityRevision = revision) :
    Writes.Dated ⟨[c], [], [], [d], [a], [domain, edge]⟩ revision := by
  constructor
  · simp [Writes.under, hc, hd, ha, hdomain, hedge]
  · intro k hk
    simp [Writes.under, Writes.empty, hc, hd, ha, hdomain, hedge, hk.symm]

theorem dated_advice {r : AdviceRow} {edge : OutboxRow} (hr : r.commitRevision = revision)
    (hd : d.authorityRevision = revision)
    (ha : a.authorityRevision = revision) (hedge : edge.authorityRevision = revision) :
    Writes.Dated ⟨[], [r], [], [d], [a], [edge]⟩ revision := by
  constructor
  · simp [Writes.under, hr, hd, ha, hedge]
  · intro k hk
    simp [Writes.under, Writes.empty, hr, hd, ha, hedge, hk.symm]

theorem dated_registry {r : RegistryRow}
    (hr : r.commitRevision = revision) (ha : a.authorityRevision = revision) :
    Writes.Dated ⟨[], [], [r], [], [a], []⟩ revision := by
  constructor
  · simp [Writes.under, hr, ha]
  · intro k hk
    simp [Writes.under, Writes.empty, hr, ha, hk.symm]

theorem Booked.change {c : Call} (h : Booked db) (hchange : Change db c db') :
    Booked db' := by
  cases hchange with
  | none => exact h
  | case r revision written =>
    obtain ⟨id, houtbox⟩ := written.outbox
    let domain := announce id r.tenantID .case r.caseID r.raw revision (.domainDispatch, r.domain)
    let edge := announce id r.tenantID .case r.caseID r.raw revision
      (.edgeDelivery, edgeKey r.issuerEdgeID r.issuerEdgeGeneration)
    have hwrites : db'.writes = db.writes ++ ⟨[r.row revision], [], [],
        [(Fact.case (r.row revision)).delivery (nextSequence db r.log)], [r.audit revision],
        [domain, edge]⟩ := by
      unfold Database.writes
      rw [written.cases, written.advice, written.registries, written.deliveries, written.audit,
        houtbox]
      show _ = (⟨_, db.advice ++ [], db.registries ++ [], _, _, _⟩ : Writes)
      simp only [List.append_nil]
      rfl
    exact h.extend written.unused written.revisions hwrites
      (.case _ _ _ domain edge ⟨rfl, rfl, rfl, rfl⟩ rfl rfl) (dated_case rfl rfl rfl rfl rfl)
  | advice r c revision written =>
    obtain ⟨id, houtbox⟩ := written.outbox
    let edge := announce id r.tenantID .advice r.caseID r.raw revision
      (.edgeDelivery, edgeKey c.issuerEdgeID c.issuerEdgeGeneration)
    have hwrites : db'.writes = db.writes ++ ⟨[], [r.row c (nextSequence db c.log) revision], [],
        [(Fact.advice (r.row c (nextSequence db c.log) revision)).delivery (nextSequence db c.log)],
        [r.audit revision], [edge]⟩ := by
      unfold Database.writes
      rw [written.cases, written.advice, written.registries, written.deliveries, written.audit,
        houtbox]
      show _ = (⟨db.cases ++ [], _, db.registries ++ [], _, _, _⟩ : Writes)
      simp only [List.append_nil]
      rfl
    exact h.extend written.unused written.revisions hwrites
      (.advice _ _ _ edge ⟨rfl, rfl, rfl, rfl⟩ rfl) (dated_advice rfl rfl rfl rfl)
  | registry r revision written =>
    have hwrites : db'.writes = db.writes ++ ⟨[], [], [r.row revision], [], [r.audit revision], []⟩ := by
      unfold Database.writes
      rw [written.cases, written.advice, written.registries, written.deliveries, written.audit,
        written.outbox]
      show _ = (⟨db.cases ++ [], db.advice ++ [], _, db.deliveries ++ [], _, db.outbox ++ []⟩ :
        Writes)
      simp only [List.append_nil]
    exact h.extend written.unused written.revisions hwrites (.registry _ _ ⟨rfl, rfl, rfl, rfl⟩)
      (dated_registry rfl rfl)
  | halted => exact ⟨h.committed, h.unused⟩

theorem reachable_booked (store : Store) (es : List Event) : Booked (store.run {} es) :=
  run_invariant store Booked (fun db e h => h.change (step_change store db e)) {} es booked_empty

end

/-! ### Calls that report an error -/

/-- A committed body whose result is an error: a registry that contradicts the
live head, which is halted for it. -/
inductive Halted (c : Call) (e : StoreError) (db db' : Database) : Prop where
  | intro (r : CommitRegistryRequest) (head : HeadRow) (reason : Bytes) (call : c = .registry r)
      (live : LiveHead db r.tenantID head) (contradicts : r.Halts head db reason e)
      (stopped : db' = db.halt r.tenantID reason)

theorem body_error {store : Store} {c : Call} {w w' : World} {e : StoreError}
    (h : Prog.run World.exec (store.body c) w = .ok (.error e, w')) : Halted c e w.db w'.db := by
  cases c with
  | case =>
    rcases commitCase_run h with ⟨_, -, -, -, hresult⟩ | ⟨-, -, -, hresult⟩
    · cases hresult
    · cases hresult
  | advice =>
    rcases commitAdvice_run h with ⟨_, -, -, -, hresult⟩ |
      ⟨-, -, _, -, -, -, hresult⟩
    · cases hresult
    · cases hresult
  | registry r =>
    rcases commitRegistry_run h with ⟨-, _, hresult⟩ |
      ⟨head, reason, e', hlive, hhalts, hstopped, hresult⟩ | ⟨_, -, -, -, _, hresult⟩
    · cases hresult
    · cases hresult
      exact ⟨r, head, reason, rfl, hlive, hhalts, hstopped⟩
    · cases hresult

/-- An attempt that does not end the call well changed nothing, unless it
committed the halt of a head. -/
def Spared (c : Call) (db : Database) : Database × Ending → Prop
  | (db', .again) => db' = db
  | (_, .finished (.ok _)) => True
  | (db', .finished (.error e)) => db' = db ∨ ∃ cause, e = .store cause ∧ Halted c cause db db'

theorem attempt_spared (store : Store) (c : Call) {env : Attempt} (db : Database)
    (hlost : env.commit ≠ .lost) : Spared c db (attempt c.label (store.body c) env db) := by
  unfold attempt
  cases env.begins with
  | some => exact Or.inl rfl
  | none =>
    cases hrun : Prog.run World.exec (store.body c) ⟨db, env.faults, env.nextval + 1⟩ with
    | error e =>
      dsimp only
      split
      · rfl
      · exact Or.inl rfl
    | ok x =>
      obtain ⟨result, w⟩ := x
      cases hcommit : env.commit with
      | lost => exact absurd hcommit hlost
      | failed f =>
        dsimp only
        split
        · rfl
        · exact Or.inl rfl
      | done =>
        cases result with
        | ok receipt => trivial
        | error cause => exact Or.inr ⟨cause, rfl, body_error hrun⟩

/-- The calls of others that took effect during the first `k` rounds. -/
def interleaved (rounds : List Round) (k : ℕ) : List Event := (rounds.take k).flatMap Round.others

theorem rounds_error (store : Store) (c : Call) (rounds : List Round)
    (hlost : ∀ round ∈ rounds, round.env.commit ≠ .lost) (db : Database) (e : CallError)
    (h : (store.rounds c rounds db).2 = .error e) :
    ∃ k, (store.rounds c rounds db).1 = store.run db (interleaved rounds k) ∨
      ∃ cause, e = .store cause ∧
        Halted c cause (store.run db (interleaved rounds k)) (store.rounds c rounds db).1 := by
  induction rounds generalizing db with
  | nil => exact ⟨0, Or.inl rfl⟩
  | cons round rest ih =>
    have hattempt := attempt_spared store c (store.run db round.others)
      (hlost round List.mem_cons_self)
    have hone : interleaved (round :: rest) 1 = round.others := by simp [interleaved]
    unfold Store.rounds at h ⊢
    cases hends : attempt c.label (store.body c) round.env (store.run db round.others) with
    | mk db' ending =>
      rw [hends] at hattempt h
      cases ending with
      | finished result =>
        cases result with
        | ok receipt => cases h
        | error e' =>
          cases h
          refine ⟨1, ?_⟩
          rw [hone]
          exact hattempt
      | again =>
        -- nothing happened in this round but the calls of others
        have hsame : db' = store.run db round.others := hattempt
        obtain ⟨k, hrest⟩ := ih (fun r hr => hlost r (List.mem_cons_of_mem _ hr)) db' h
        have hnext : store.run db' (interleaved rest k) =
            store.run db (interleaved (round :: rest) (k + 1)) := by
          rw [hsame, ← run_append]
          simp [interleaved]
        rw [hnext] at hrest
        exact ⟨k + 1, hrest⟩

/-- Every revision in a reachable state has all the rows of one admission and no
others. A call that returns an error, and whose commits are not lost, leaves the
tables as the calls of others left them, but for the halt of a head it
contradicts. -/
theorem authority_bookkeeping (store : Store) (es : List Event) :
    let db := store.run {} es
    (∀ revision ∈ db.revisions, (db.under revision).Complete) ∧
    (∀ revision, revision ∉ db.revisions → db.under revision = .empty) ∧
    (∀ c rounds, (∀ i, (rounds i).env.commit ≠ .lost) → ∀ e,
      (store.commit c rounds db).2 = .error e →
      ∃ k, (store.commit c rounds db).1 = store.run db (interleaved (List.ofFn rounds) k) ∨
        ∃ cause, e = .store cause ∧ Halted c cause
          (store.run db (interleaved (List.ofFn rounds) k)) (store.commit c rounds db).1) := by
  intro db
  have hbooked := reachable_booked store es
  refine ⟨hbooked.committed, hbooked.unused, ?_⟩
  intro c rounds hlost e herror
  unfold Store.commit at herror ⊢
  cases hvalid : c.validate with
  | error => exact ⟨0, Or.inl rfl⟩
  | ok =>
    rw [hvalid] at herror
    refine rounds_error store c (List.ofFn rounds) ?_ db e herror
    intro round hround
    obtain ⟨i, rfl⟩ := (List.mem_ofFn' _ _).mp hround
    exact hlost i

end Snagline.Authority
