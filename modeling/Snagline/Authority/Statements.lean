import Snagline.Authority.Schema
import Snagline.Kit.Check

/-!
# Statements of the authority store (store.go:79-806, 0001_authority.up.sql)

Every SQL statement a commit transaction issues, its reply, and its effect on
the tables. An INSERT is checked in the order the server does: CHECK
constraints, then unique indexes, then foreign keys.
-/

namespace Snagline.Authority
open Kit Ssp

/-- `validCommitment` (authority.go:286), which is also the CHECK pattern
`^sha256:[0-9a-f]{64}$`. -/
def validCommitment (value : Bytes) : Bool :=
  value.length == 71 && value.take 7 == [115, 104, 97, 50, 53, 54, 58] &&
    (value.drop 7).all isLowerHex

inductive SqlState where
  | uniqueViolation
  | serializationFailure
  | foreignKeyViolation
  | checkViolation
  | outOfRange
  | other
  deriving DecidableEq

def timestamptz (t : Time) : Time := t / 1000 * 1000

inductive Sql where
  | selectCase (tenantID caseID : Bytes)
  | selectAdvice (tenantID caseID : Bytes)
  | selectRegistry (tenantID : Bytes) (revision : ℤ)
  | selectHeadForUpdate (tenantID : Bytes)
  | selectHighWaterForUpdate (tenantID edgeID : Bytes)
  | caseExists (tenantID envelopeID commitment : Bytes)
  | adviceExists (tenantID envelopeID commitment : Bytes)
  | registryExists (tenantID envelopeID commitment : Bytes)
  | insertRevision
  | insertCase (row : CaseRow)
  | insertAdvice (row : AdviceRow)
  | insertRegistry (row : RegistryRow)
  | insertHead (tenantID : Bytes) (revision : ℤ) (commitment : Bytes) (routingEpoch : ℤ)
  | updateHead (tenantID : Bytes) (revision : ℤ) (commitment : Bytes) (routingEpoch : ℤ)
  | haltHead (tenantID reason : Bytes)
  | upsertHighWater (row : HighWaterRow)
  | nextDeliverySequence (tenantID edgeID : Bytes) (generation : ℤ)
  | insertDelivery (row : DeliveryRow)
  | insertAudit (row : AuditRow)
  | insertOutbox (row : OutboxRow)
  deriving DecidableEq

@[reducible] def Sql.Reply : Sql → Type
  | .selectCase .. => Option CaseRow
  | .selectAdvice .. => Option AdviceRow
  | .selectRegistry .. => Option RegistryRow
  | .selectHeadForUpdate .. => Option HeadRow
  | .selectHighWaterForUpdate .. => Option HighWaterRow
  | .caseExists .. | .adviceExists .. | .registryExists .. => Bool
  | .insertRevision => ℤ
  | .nextDeliverySequence .. => ℤ
  | .haltHead .. => ℕ
  | _ => Unit

/-! ### Inserts -/

def insertCase (row : CaseRow) (db : Database) : Except SqlState Database := do
  ensure (0 < row.issuerEdgeGeneration && 0 ≤ row.routingEpoch && 0 ≤ row.registryRevision &&
    !row.raw.isEmpty && validCommitment row.commitment && validCommitment row.registryHash)
    .checkViolation
  ensure (!Table.clash CaseRow.key row db.cases && !Table.clash CaseRow.envelopeKey row db.cases &&
    !Table.clash CaseRow.commitmentKey row db.cases) .uniqueViolation
  ensure (db.revisions.contains row.commitRevision) .foreignKeyViolation
  pure { db with cases := db.cases ++ [row] }

def insertAdvice (row : AdviceRow) (db : Database) : Except SqlState Database := do
  ensure (0 ≤ row.routingEpoch && 0 ≤ row.registryRevision && 0 < row.targetEdgeGeneration &&
    0 < row.deliverySequence && !row.raw.isEmpty && validCommitment row.caseCommitment &&
    validCommitment row.commitment && validCommitment row.registryHash) .checkViolation
  ensure (!Table.clash AdviceRow.key row db.advice &&
    !Table.clash AdviceRow.envelopeKey row db.advice &&
    !Table.clash AdviceRow.commitmentKey row db.advice) .uniqueViolation
  ensure (db.revisions.contains row.commitRevision &&
    (Table.find CaseRow.key row.key db.cases).isSome) .foreignKeyViolation
  pure { db with advice := db.advice ++ [row] }

def insertRegistry (row : RegistryRow) (db : Database) : Except SqlState Database := do
  ensure (0 < row.registryRevision && 0 ≤ row.routingEpoch && !row.raw.isEmpty &&
    validCommitment row.commitment && row.previousCommitment.all validCommitment) .checkViolation
  ensure (!Table.clash RegistryRow.key row db.registries &&
    !Table.clash RegistryRow.envelopeKey row db.registries &&
    !Table.clash RegistryRow.commitmentKey row db.registries) .uniqueViolation
  ensure (db.revisions.contains row.commitRevision) .foreignKeyViolation
  pure { db with registries := db.registries ++ [row] }

def insertDelivery (row : DeliveryRow) (db : Database) : Except SqlState Database := do
  ensure (0 < row.edgeGeneration && 0 < row.deliverySequence && row.deliveryKind != .registry &&
    !row.raw.isEmpty && validCommitment row.commitment) .checkViolation
  ensure (!Table.clash DeliveryRow.key row db.deliveries &&
    !Table.clash DeliveryRow.envelopeKey row db.deliveries) .uniqueViolation
  ensure (db.revisions.contains row.authorityRevision) .foreignKeyViolation
  pure { db with deliveries := db.deliveries ++ [row] }

def insertAudit (row : AuditRow) (db : Database) : Except SqlState Database := do
  ensure (validCommitment row.commitment) .checkViolation
  ensure (!Table.clash AuditRow.authorityRevision row db.audit) .uniqueViolation
  ensure (db.revisions.contains row.authorityRevision) .foreignKeyViolation
  pure { db with audit := db.audit ++ [row] }

def insertOutbox (row : OutboxRow) (db : Database) : Except SqlState Database := do
  ensure (row.eventKind != .registry && !row.raw.isEmpty) .checkViolation
  ensure (!Table.clash OutboxRow.outboxID row db.outbox &&
    !Table.clash OutboxRow.destination row db.outbox) .uniqueViolation
  ensure (db.revisions.contains row.authorityRevision) .foreignKeyViolation
  pure { db with outbox := db.outbox ++ [row] }

/-! ### Heads, high water and sequences -/

def HeadRow.advanced (revision : ℤ) (commitment : Bytes) (routingEpoch : ℤ) (h : HeadRow) :
    HeadRow :=
  { h with latestRevision := revision, latestCommitment := commitment, routingEpoch }

def headChecks (revision : ℤ) (commitment : Bytes) (routingEpoch : ℤ) : Bool :=
  0 < revision && validCommitment commitment && 0 ≤ routingEpoch

def insertHead (tenantID : Bytes) (revision : ℤ) (commitment : Bytes) (routingEpoch : ℤ)
    (db : Database) : Except SqlState Database := do
  ensure (headChecks revision commitment routingEpoch) .checkViolation
  let row : HeadRow := ⟨tenantID, revision, commitment, routingEpoch, false, []⟩
  ensure (!Table.clash HeadRow.tenantID row db.heads) .uniqueViolation
  pure { db with heads := db.heads ++ [row] }

/-- The constraint is checked on the rewritten row, so an update that matches no
row cannot fail. -/
def updateHead (tenantID : Bytes) (revision : ℤ) (commitment : Bytes) (routingEpoch : ℤ)
    (db : Database) : Except SqlState Database := do
  ensure (headChecks revision commitment routingEpoch ||
    (Table.find HeadRow.tenantID tenantID db.heads).isNone) .checkViolation
  let advance := HeadRow.advanced revision commitment routingEpoch
  pure { db with heads := Table.update HeadRow.tenantID tenantID advance db.heads }

def haltHead (tenantID reason : Bytes) (db : Database) : ℕ × Database :=
  let halt (h : HeadRow) : HeadRow := { h with halted := true, haltReason := reason }
  ((db.heads.filter fun h => h.tenantID == tenantID).length,
    { db with heads := Table.update HeadRow.tenantID tenantID halt db.heads })

def upsertHighWater (row : HighWaterRow) (db : Database) : Except SqlState Database := do
  ensure (!row.principalID.isEmpty && 0 < row.highestGeneration &&
    0 < row.lastSeenRegistryRevision) .checkViolation
  pure { db with highWater := Table.upsert HighWaterRow.key row (fun _ => row) db.highWater }

def nextDeliverySequence (tenantID edgeID : Bytes) (generation : ℤ) (db : Database) :
    Except SqlState (ℤ × Database) := do
  ensure (0 < generation) .checkViolation
  let key := (tenantID, edgeID, generation)
  match Table.find SequenceRow.key key db.sequences with
  | none =>
    pure (1, { db with sequences := db.sequences ++ [⟨tenantID, edgeID, generation, 2⟩] })
  | some row =>
    ensure (row.nextSequence + 1 < 2 ^ 63) .outOfRange
    let advance (r : SequenceRow) : SequenceRow := { r with nextSequence := r.nextSequence + 1 }
    pure (row.nextSequence,
      { db with sequences := Table.update SequenceRow.key key advance db.sequences })

/-- The identity column supplies `revision`; the primary key refuses a value
that is already there. -/
def insertRevision (revision : ℤ) (db : Database) : Except SqlState (ℤ × Database) := do
  ensure (!db.revisions.contains revision) .uniqueViolation
  pure (revision, { db with revisions := db.revisions ++ [revision] })

/-! ### Execution -/

/-- A row of `rows` in `tenant` carries the envelope identifier or the commitment. -/
def carries {ρ : Type} (envelopeKey commitmentKey : ρ → Bytes × Bytes)
    (tenantID envelopeID commitment : Bytes) (rows : List ρ) : Bool :=
  rows.any fun r => envelopeKey r == (tenantID, envelopeID) ||
    commitmentKey r == (tenantID, commitment)

def written (x : Except SqlState Database) : Except SqlState (Unit × Database) :=
  x.map fun db => ((), db)

/-- One statement on the tables; `revision` is what the identity column would
supply next. -/
def Sql.exec (revision : ℤ) : (s : Sql) → Database → Except SqlState (s.Reply × Database)
  | .selectCase t c, db => .ok (Table.find CaseRow.key (t, c) db.cases, db)
  | .selectAdvice t c, db => .ok (Table.find AdviceRow.key (t, c) db.advice, db)
  | .selectRegistry t r, db => .ok (Table.find RegistryRow.key (t, r) db.registries, db)
  | .selectHeadForUpdate t, db => .ok (Table.find HeadRow.tenantID t db.heads, db)
  | .selectHighWaterForUpdate t e, db => .ok (Table.find HighWaterRow.key (t, e) db.highWater, db)
  | .caseExists t e c, db =>
    .ok (carries CaseRow.envelopeKey CaseRow.commitmentKey t e c db.cases, db)
  | .adviceExists t e c, db =>
    .ok (carries AdviceRow.envelopeKey AdviceRow.commitmentKey t e c db.advice, db)
  | .registryExists t e c, db =>
    .ok (carries RegistryRow.envelopeKey RegistryRow.commitmentKey t e c db.registries, db)
  | .insertRevision, db => Authority.insertRevision revision db
  | .insertCase row, db => written (Authority.insertCase row db)
  | .insertAdvice row, db => written (Authority.insertAdvice row db)
  | .insertRegistry row, db => written (Authority.insertRegistry row db)
  | .insertHead t r c e, db => written (Authority.insertHead t r c e db)
  | .updateHead t r c e, db => written (Authority.updateHead t r c e db)
  | .haltHead t reason, db => .ok (Authority.haltHead t reason db)
  | .upsertHighWater row, db => written (Authority.upsertHighWater row db)
  | .nextDeliverySequence t e g, db => Authority.nextDeliverySequence t e g db
  | .insertDelivery row, db => written (Authority.insertDelivery row db)
  | .insertAudit row, db => written (Authority.insertAudit row db)
  | .insertOutbox row, db => written (Authority.insertOutbox row db)

end Snagline.Authority
