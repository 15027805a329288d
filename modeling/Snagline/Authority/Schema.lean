import Snagline.Kit.Table
import Snagline.Ssp.Timestamp

/-!
# Authority tables (0001_authority.up.sql)

One structure per table, and the database as the list of rows of each. The
columns left out are those no transaction reads: the `committed_at`,
`recorded_at` and `updated_at` stamps, the audit identity, and the outbox lease
columns, which only the publisher touches.
-/

namespace Snagline.Authority
open Kit Ssp

inductive EntityKind where
  | case | advice | registry
  deriving DecidableEq

inductive DestinationKind where
  | domainDispatch | edgeDelivery
  deriving DecidableEq

structure CaseRow where
  tenantID : Bytes
  caseID : Bytes
  envelopeID : Bytes
  commitment : Bytes
  raw : Bytes
  domain : Bytes
  issuerEdgeID : Bytes
  issuerEdgeGeneration : ℤ
  routingEpoch : ℤ
  registryRevision : ℤ
  registryHash : Bytes
  expiresAt : Time
  commitRevision : ℤ
  deriving DecidableEq

structure AdviceRow where
  tenantID : Bytes
  caseID : Bytes
  envelopeID : Bytes
  caseCommitment : Bytes
  commitment : Bytes
  raw : Bytes
  routingEpoch : ℤ
  registryRevision : ℤ
  registryHash : Bytes
  targetEdgeID : Bytes
  targetEdgeGeneration : ℤ
  deliverySequence : ℤ
  commitRevision : ℤ
  deriving DecidableEq

structure SequenceRow where
  tenantID : Bytes
  edgeID : Bytes
  edgeGeneration : ℤ
  nextSequence : ℤ
  deriving DecidableEq

structure DeliveryRow where
  tenantID : Bytes
  edgeID : Bytes
  edgeGeneration : ℤ
  deliverySequence : ℤ
  deliveryKind : EntityKind
  caseID : Bytes
  envelopeID : Bytes
  commitment : Bytes
  raw : Bytes
  authorityRevision : ℤ
  deriving DecidableEq

structure HeadRow where
  tenantID : Bytes
  latestRevision : ℤ
  latestCommitment : Bytes
  routingEpoch : ℤ
  halted : Bool
  haltReason : Bytes
  deriving DecidableEq

structure HighWaterRow where
  tenantID : Bytes
  edgeID : Bytes
  principalID : Bytes
  highestGeneration : ℤ
  lastSeenRegistryRevision : ℤ
  deriving DecidableEq

structure RegistryRow where
  tenantID : Bytes
  registryRevision : ℤ
  envelopeID : Bytes
  commitment : Bytes
  raw : Bytes
  routingEpoch : ℤ
  previousCommitment : Option Bytes
  commitRevision : ℤ
  deriving DecidableEq

structure AuditRow where
  tenantID : Bytes
  entityKind : EntityKind
  entityID : Bytes
  commitment : Bytes
  authenticatedPrincipalID : Option Bytes
  authenticatedEdgeID : Option Bytes
  decision : Option Bytes
  authorityRevision : ℤ
  deriving DecidableEq

structure OutboxRow where
  outboxID : Bytes
  tenantID : Bytes
  eventKind : EntityKind
  entityID : Bytes
  destinationKind : DestinationKind
  destinationKey : Bytes
  raw : Bytes
  authorityRevision : ℤ
  deriving DecidableEq

structure Database where
  revisions : List ℤ := []
  cases : List CaseRow := []
  advice : List AdviceRow := []
  sequences : List SequenceRow := []
  deliveries : List DeliveryRow := []
  heads : List HeadRow := []
  highWater : List HighWaterRow := []
  registries : List RegistryRow := []
  audit : List AuditRow := []
  outbox : List OutboxRow := []
  deriving DecidableEq

/-! ### Keys -/

def CaseRow.key (r : CaseRow) : Bytes × Bytes := (r.tenantID, r.caseID)
def CaseRow.envelopeKey (r : CaseRow) : Bytes × Bytes := (r.tenantID, r.envelopeID)
def CaseRow.commitmentKey (r : CaseRow) : Bytes × Bytes := (r.tenantID, r.commitment)
def AdviceRow.key (r : AdviceRow) : Bytes × Bytes := (r.tenantID, r.caseID)
def AdviceRow.envelopeKey (r : AdviceRow) : Bytes × Bytes := (r.tenantID, r.envelopeID)
def AdviceRow.commitmentKey (r : AdviceRow) : Bytes × Bytes := (r.tenantID, r.commitment)
def SequenceRow.key (r : SequenceRow) : Bytes × Bytes × ℤ := (r.tenantID, r.edgeID, r.edgeGeneration)
def DeliveryRow.log (r : DeliveryRow) : Bytes × Bytes × ℤ := (r.tenantID, r.edgeID, r.edgeGeneration)
def DeliveryRow.key (r : DeliveryRow) : (Bytes × Bytes × ℤ) × ℤ := (r.log, r.deliverySequence)
def DeliveryRow.envelopeKey (r : DeliveryRow) : Bytes × Bytes := (r.tenantID, r.envelopeID)
def HighWaterRow.key (r : HighWaterRow) : Bytes × Bytes := (r.tenantID, r.edgeID)
def RegistryRow.key (r : RegistryRow) : Bytes × ℤ := (r.tenantID, r.registryRevision)
def RegistryRow.envelopeKey (r : RegistryRow) : Bytes × Bytes := (r.tenantID, r.envelopeID)
def RegistryRow.commitmentKey (r : RegistryRow) : Bytes × Bytes := (r.tenantID, r.commitment)
def OutboxRow.destination (r : OutboxRow) : Bytes × ℤ × DestinationKind × Bytes :=
  (r.tenantID, r.authorityRevision, r.destinationKind, r.destinationKey)

end Snagline.Authority
