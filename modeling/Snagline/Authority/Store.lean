import Snagline.Authority.Statements
import Snagline.Kit.Prog

/-!
# Commit transactions (authority.go:51-297, store.go:46-349, 586-806)

The requests with their validation, and the bodies of CommitCase, CommitAdvice
and CommitRegistry as programs over the statements. A body that returns lets
its transaction commit, whether with a receipt or with an error the source
commits on purpose; a body that fails is rolled back.
-/

namespace Snagline.Authority
open Kit Ssp

/-! ### Requests -/

structure CommitReceipt where
  authorityID : Bytes
  revision : ℤ
  envelopeID : Bytes
  commitment : Bytes
  deriving DecidableEq

structure CommitCaseRequest where
  tenantID : Bytes
  caseID : Bytes
  envelopeID : Bytes
  commitment : Bytes
  raw : Bytes
  domain : Bytes
  issuerEdgeID : Bytes
  issuerEdgeGeneration : ℤ
  routingEpoch : ℤ
  registryRevision : ℤ
  registryHash : Bytes
  expiresAt : Time
  authenticatedPrincipalID : Bytes
  authenticatedEdgeID : Bytes
  decision : Bytes
  deriving DecidableEq

structure CommitAdviceRequest where
  tenantID : Bytes
  caseID : Bytes
  envelopeID : Bytes
  caseCommitment : Bytes
  commitment : Bytes
  raw : Bytes
  routingEpoch : ℤ
  registryRevision : ℤ
  registryHash : Bytes
  authenticatedPrincipalID : Bytes
  authenticatedEdgeID : Bytes
  decision : Bytes
  deriving DecidableEq

structure RegistryEdge where
  principalID : Bytes
  generation : ℤ
  deriving DecidableEq

/-- A map from edge identifiers, listed in the order `sort.Strings` gives its keys. -/
structure EdgeMap where
  entries : List (Bytes × RegistryEdge)
  ordered : entries.Pairwise fun a b => a.1 < b.1
  deriving DecidableEq

structure CommitRegistryRequest where
  tenantID : Bytes
  revision : ℤ
  envelopeID : Bytes
  commitment : Bytes
  raw : Bytes
  routingEpoch : ℤ
  previousCommitment : Bytes
  /-- `none` is the nil map. -/
  edges : Option EdgeMap
  authenticatedPrincipalID : Bytes
  authenticatedEdgeID : Bytes
  decision : Bytes
  deriving DecidableEq

inductive InvalidRequest where
  | incompleteCase | incompleteAdvice | incompleteRegistry | invalidEdge
  deriving DecidableEq

inductive Operation where
  | resolveCase | resolveFinalAdvice | resolveRegistry | lockRegistryHead | lockCommittedCase
  | lockHighWater | collision | allocateRevision | allocateSequence | insertCase
  | insertFinalAdvice | insertRegistry | updateHead | haltHead | advanceHighWater
  | writeDelivery | writeAudit | writeOutbox (destination : DestinationKind)
  deriving DecidableEq

inductive StoreError where
  | invalidRequest (detail : InvalidRequest)
  | conflictingCase
  | caseNotFound
  | caseBinding
  | finalAdviceAlreadySet
  | conflictingRegistry
  | registryRevisionSequence
  | registryEquivocation
  | registryRollback
  | registryHalted
  | registryBinding
  | edgeGenerationRollback
  | registryNotFound
  | headDisappeared
  | headWithoutRegistry
  | retryTransaction
  | sql (operation : Operation) (state : SqlState)
  deriving DecidableEq

def validText (value : Bytes) : Bool := !blank value

def CommitCaseRequest.validate (r : CommitCaseRequest) : Except StoreError Unit :=
  ensure (validText r.tenantID && validText r.caseID && validText r.envelopeID &&
    validCommitment r.commitment && !r.raw.isEmpty && validText r.domain &&
    validText r.issuerEdgeID && 0 < r.issuerEdgeGeneration && 0 ≤ r.routingEpoch &&
    0 ≤ r.registryRevision && validCommitment r.registryHash && r.expiresAt != zeroTime)
    (.invalidRequest .incompleteCase)

variable (r : CommitAdviceRequest)

def CommitAdviceRequest.validate : Except StoreError Unit :=
  ensure (validText r.tenantID && validText r.caseID && validText r.envelopeID &&
    validCommitment r.caseCommitment && validCommitment r.commitment && !r.raw.isEmpty &&
    0 ≤ r.routingEpoch && 0 ≤ r.registryRevision && validCommitment r.registryHash)
    (.invalidRequest .incompleteAdvice)

def CommitRegistryRequest.validate (r : CommitRegistryRequest) : Except StoreError Unit := do
  ensure (validText r.tenantID && 0 < r.revision && validText r.envelopeID &&
    validCommitment r.commitment && !r.raw.isEmpty && 0 ≤ r.routingEpoch &&
    (r.previousCommitment.isEmpty || validCommitment r.previousCommitment) && r.edges.isSome)
    (.invalidRequest .incompleteRegistry)
  ensure (r.edges.all fun m => m.entries.all fun e =>
    validText e.1 && validText e.2.principalID && 0 < e.2.generation)
    (.invalidRequest .invalidEdge)

/-! ### Shared steps -/

abbrev Body := Prog Sql Sql.Reply SqlState StoreError

def query (s : Sql) (wrap : SqlState → StoreError) : Body s.Reply := Prog.stmt s wrap

/-- A unique violation on a fact's own insert sends the transaction round again. -/
def orRetry (operation : Operation) (state : SqlState) : StoreError :=
  if state = .uniqueViolation then .retryTransaction else .sql operation state

structure Store where
  authorityID : Bytes
  named : blank authorityID = false
  sha256 : Bytes → Bytes

variable (store : Store)

def Store.receipt (revision : ℤ) (envelopeID commitment : Bytes) : CommitReceipt :=
  ⟨store.authorityID, revision, envelopeID, commitment⟩

def Store.withAuthority (receipt : CommitReceipt) : CommitReceipt :=
  if 0 < receipt.revision then { receipt with authorityID := store.authorityID } else receipt

def nullableText (value : Bytes) : Option Bytes := if value.isEmpty then none else some value

def EntityKind.text : EntityKind → Bytes
  | .case => Kit.text "case"
  | .advice => Kit.text "advice"
  | .registry => Kit.text "registry"

def DestinationKind.text : DestinationKind → Bytes
  | .domainDispatch => Kit.text "domain_dispatch"
  | .edgeDelivery => Kit.text "edge_delivery"

def Store.deterministicOutboxID (parts : List Bytes) : Bytes :=
  Kit.text "sha256:" ++ hexEncode (store.sha256
    (parts.flatMap fun value => decimalNat value.length ++ 58 :: value))

def edgeKey (edgeID : Bytes) (generation : ℤ) : Bytes := edgeID ++ 64 :: decimal generation
def allocateRevision : Body ℤ := query .insertRevision (.sql .allocateRevision)

def allocateDeliverySequence (tenantID edgeID : Bytes) (generation : ℤ) : Body ℤ :=
  query (.nextDeliverySequence tenantID edgeID generation) (.sql .allocateSequence)

def insertEdgeDelivery (row : DeliveryRow) : Body Unit :=
  query (.insertDelivery row) (.sql .writeDelivery)

def recordAudit (tenantID : Bytes) (kind : EntityKind)
    (entityID commitment principalID edgeID decision : Bytes) (revision : ℤ) : Body Unit :=
  query (.insertAudit ⟨tenantID, kind, entityID, commitment, nullableText principalID,
    nullableText edgeID, nullableText decision, revision⟩) (.sql .writeAudit)

/-- The loop of `insertOutbox` over its destinations. -/
def Store.insertOutbox (store : Store) (tenantID : Bytes) (eventKind : EntityKind)
    (entityID raw : Bytes) (revision : ℤ) : List (DestinationKind × Bytes) → Body Unit
  | [] => pure ()
  | (kind, key) :: rest => do
    let id := store.deterministicOutboxID
      [tenantID, eventKind.text, entityID, decimal revision, kind.text, key]
    query (.insertOutbox ⟨id, tenantID, eventKind, entityID, kind, key, raw, revision⟩)
      (.sql (.writeOutbox kind))
    store.insertOutbox tenantID eventKind entityID raw revision rest

def registryHeadForUpdate (tenantID : Bytes) : Body (Option HeadRow) :=
  query (.selectHeadForUpdate tenantID) (.sql .lockRegistryHead)

def liveHead (tenantID : Bytes) : Body HeadRow := do
  match ← registryHeadForUpdate tenantID with
  | none => .fail .registryNotFound
  | some head =>
    Prog.require (!head.halted) .registryHalted
    pure head

/-! ### CommitCase -/

def CommitCaseRequest.matches (r : CommitCaseRequest) (row : CaseRow) : Bool :=
  row.envelopeID == r.envelopeID && row.commitment == r.commitment && row.raw == r.raw &&
    row.domain == r.domain && row.issuerEdgeID == r.issuerEdgeID &&
    row.issuerEdgeGeneration == r.issuerEdgeGeneration && row.routingEpoch == r.routingEpoch &&
    row.registryRevision == r.registryRevision && row.registryHash == r.registryHash &&
    row.expiresAt == r.expiresAt

def existingCase (r : CommitCaseRequest) : Body (Option CommitReceipt) := do
  match ← query (.selectCase r.tenantID r.caseID) (.sql .resolveCase) with
  | none => pure none
  | some row =>
    Prog.require (r.matches row) .conflictingCase
    pure (some ⟨[], row.commitRevision, row.envelopeID, row.commitment⟩)

def CommitCaseRequest.row (r : CommitCaseRequest) (revision : ℤ) : CaseRow :=
  ⟨r.tenantID, r.caseID, r.envelopeID, r.commitment, r.raw, r.domain, r.issuerEdgeID,
    r.issuerEdgeGeneration, r.routingEpoch, r.registryRevision, r.registryHash,
    timestamptz r.expiresAt, revision⟩

def Store.writeCase (r : CommitCaseRequest) : Body CommitReceipt := do
  let revision ← allocateRevision
  query (.insertCase (r.row revision)) (orRetry .insertCase)
  let sequence ← allocateDeliverySequence r.tenantID r.issuerEdgeID r.issuerEdgeGeneration
  insertEdgeDelivery ⟨r.tenantID, r.issuerEdgeID, r.issuerEdgeGeneration, sequence, .case,
    r.caseID, r.envelopeID, r.commitment, r.raw, revision⟩
  recordAudit r.tenantID .case r.caseID r.commitment r.authenticatedPrincipalID
    r.authenticatedEdgeID r.decision revision
  store.insertOutbox r.tenantID .case r.caseID r.raw revision
    [(.domainDispatch, r.domain), (.edgeDelivery, edgeKey r.issuerEdgeID r.issuerEdgeGeneration)]
  pure (store.receipt revision r.envelopeID r.commitment)

def Store.commitCase (r : CommitCaseRequest) : Body (Except StoreError CommitReceipt) := do
  match ← existingCase r with
  | some receipt => pure (.ok (store.withAuthority receipt))
  | none =>
    let head ← liveHead r.tenantID
    Prog.require (head.latestRevision == r.registryRevision &&
      head.latestCommitment == r.registryHash && head.routingEpoch == r.routingEpoch)
      .registryBinding
    let collision ← query (.caseExists r.tenantID r.envelopeID r.commitment) (.sql .collision)
    Prog.require (!collision) .conflictingCase
    let receipt ← store.writeCase r
    pure (.ok receipt)

/-! ### CommitAdvice -/

def CommitAdviceRequest.matches (row : AdviceRow) : Bool :=
  row.envelopeID == r.envelopeID && row.caseCommitment == r.caseCommitment &&
    row.commitment == r.commitment && row.raw == r.raw && row.routingEpoch == r.routingEpoch &&
    row.registryRevision == r.registryRevision && row.registryHash == r.registryHash

/-- What `existingAdvice` found; a different final advice is reported only after
the head has been looked at. -/
inductive ExistingAdvice where
  | absent
  | exact (receipt : CommitReceipt)
  | different

def existingAdvice : Body ExistingAdvice := do
  match ← query (.selectAdvice r.tenantID r.caseID) (.sql .resolveFinalAdvice) with
  | none => pure .absent
  | some row =>
    if r.matches row then pure (.exact ⟨[], row.commitRevision, row.envelopeID, row.commitment⟩)
    else pure .different

def CommitAdviceRequest.binds (case : CaseRow) : Bool :=
  r.caseCommitment == case.commitment && r.routingEpoch == case.routingEpoch &&
    r.registryRevision == case.registryRevision && r.registryHash == case.registryHash

def CommitAdviceRequest.row (case : CaseRow) (sequence revision : ℤ) : AdviceRow :=
  ⟨r.tenantID, r.caseID, r.envelopeID, r.caseCommitment, r.commitment, r.raw, r.routingEpoch,
    r.registryRevision, r.registryHash, case.issuerEdgeID, case.issuerEdgeGeneration, sequence,
    revision⟩

/-- Here the delivery sequence is taken before the revision, in CommitCase after it. -/
def Store.writeAdvice (r : CommitAdviceRequest) (case : CaseRow) : Body CommitReceipt := do
  let sequence ← allocateDeliverySequence r.tenantID case.issuerEdgeID case.issuerEdgeGeneration
  let revision ← allocateRevision
  query (.insertAdvice (r.row case sequence revision)) (orRetry .insertFinalAdvice)
  insertEdgeDelivery ⟨r.tenantID, case.issuerEdgeID, case.issuerEdgeGeneration, sequence, .advice,
    r.caseID, r.envelopeID, r.commitment, r.raw, revision⟩
  recordAudit r.tenantID .advice r.caseID r.commitment r.authenticatedPrincipalID
    r.authenticatedEdgeID r.decision revision
  store.insertOutbox r.tenantID .advice r.caseID r.raw revision
    [(.edgeDelivery, edgeKey case.issuerEdgeID case.issuerEdgeGeneration)]
  pure (store.receipt revision r.envelopeID r.commitment)

def Store.admitAdvice (r : CommitAdviceRequest) : Body CommitReceipt := do
  match ← query (.selectCase r.tenantID r.caseID) (.sql .lockCommittedCase) with
  | none => .fail .caseNotFound
  | some case =>
    Prog.require (r.binds case) .caseBinding
    let collision ← query (.adviceExists r.tenantID r.envelopeID r.commitment) (.sql .collision)
    Prog.require (!collision) .finalAdviceAlreadySet
    store.writeAdvice r case

def Store.commitAdvice (r : CommitAdviceRequest) : Body (Except StoreError CommitReceipt) := do
  match ← existingAdvice r with
  | .exact receipt => pure (.ok (store.withAuthority receipt))
  | .different =>
    let _ ← liveHead r.tenantID
    .fail .finalAdviceAlreadySet
  | .absent =>
    let _ ← liveHead r.tenantID
    let receipt ← store.admitAdvice r
    pure (.ok receipt)

/-! ### CommitRegistry -/

/-- Marks the head halted; the transaction then commits with `e` as its result. -/
def haltRegistryHead (tenantID reason : Bytes) (e : StoreError) :
    Body (Except StoreError CommitReceipt) := do
  let affected ← query (.haltHead tenantID reason) (.sql .haltHead)
  Prog.require (affected == 1) .headDisappeared
  pure (.error e)

def CommitRegistryRequest.matches (r : CommitRegistryRequest) (row : RegistryRow) : Bool :=
  row.envelopeID == r.envelopeID && row.commitment == r.commitment && row.raw == r.raw &&
    row.routingEpoch == r.routingEpoch && row.previousCommitment.getD [] == r.previousCommitment

def existingRegistry (r : CommitRegistryRequest) : Body (Option CommitReceipt) := do
  match ← query (.selectRegistry r.tenantID r.revision) (.sql .resolveRegistry) with
  | none => .fail .headWithoutRegistry
  | some row =>
    if r.matches row then pure (some ⟨[], row.commitRevision, row.envelopeID, row.commitment⟩)
    else pure none

/-- A known edge may keep its generation only if the current head still lists it
under the same principal; otherwise the generation must grow. -/
def admitsEdge (head : Option HeadRow) (edge : RegistryEdge) (known : Option HighWaterRow) : Bool :=
  match known with
  | none => true
  | some row =>
    row.highestGeneration < edge.generation ||
      (edge.generation == row.highestGeneration &&
        head.any (fun h => row.lastSeenRegistryRevision == h.latestRevision) &&
        row.principalID == edge.principalID)

def enforceEdgeGenerationHighWater (r : CommitRegistryRequest) (head : Option HeadRow) :
    List (Bytes × RegistryEdge) → Body Unit
  | [] => pure ()
  | (edgeID, edge) :: rest => do
    let known ← query (.selectHighWaterForUpdate r.tenantID edgeID) (.sql .lockHighWater)
    Prog.require (admitsEdge head edge known) .edgeGenerationRollback
    query (.upsertHighWater ⟨r.tenantID, edgeID, edge.principalID, edge.generation, r.revision⟩)
      (.sql .advanceHighWater)
    enforceEdgeGenerationHighWater r head rest

def writeHead (r : CommitRegistryRequest) : Option HeadRow → Body Unit
  | some _ =>
    query (.updateHead r.tenantID r.revision r.commitment r.routingEpoch) (orRetry .updateHead)
  | none =>
    query (.insertHead r.tenantID r.revision r.commitment r.routingEpoch) (orRetry .updateHead)

def Store.writeRegistry (r : CommitRegistryRequest) (head : Option HeadRow) :
    Body CommitReceipt := do
  let collision ← query (.registryExists r.tenantID r.envelopeID r.commitment) (.sql .collision)
  Prog.require (!collision) .conflictingRegistry
  enforceEdgeGenerationHighWater r head ((r.edges.map fun m => m.entries).getD [])
  let revision ← allocateRevision
  query (.insertRegistry ⟨r.tenantID, r.revision, r.envelopeID, r.commitment, r.raw,
    r.routingEpoch, nullableText r.previousCommitment, revision⟩) (orRetry .insertRegistry)
  writeHead r head
  recordAudit r.tenantID .registry r.envelopeID r.commitment r.authenticatedPrincipalID
    r.authenticatedEdgeID r.decision revision
  pure (store.receipt revision r.envelopeID r.commitment)

def registryHaltPredecessorMismatch : Bytes := Kit.text "predecessor commitment mismatch"
def registryHaltSameRevisionConflict : Bytes := Kit.text "same-revision conflicting evidence"
def registryHaltRevisionRollback : Bytes := Kit.text "registry revision rollback"

def Store.commitRegistry (r : CommitRegistryRequest) : Body (Except StoreError CommitReceipt) := do
  match ← registryHeadForUpdate r.tenantID with
  | none =>
    Prog.require r.previousCommitment.isEmpty .registryEquivocation
    let receipt ← store.writeRegistry r none
    pure (.ok receipt)
  | some head =>
    Prog.require (!head.halted) .registryHalted
    if r.revision < head.latestRevision then
      haltRegistryHead r.tenantID registryHaltRevisionRollback .registryRollback
    else if r.revision = head.latestRevision then
      match ← existingRegistry r with
      | some receipt => pure (.ok (store.withAuthority receipt))
      | none => haltRegistryHead r.tenantID registryHaltSameRevisionConflict .registryEquivocation
    else do
      Prog.require (r.revision == head.latestRevision + 1) .registryRevisionSequence
      if r.previousCommitment = head.latestCommitment then do
        let receipt ← store.writeRegistry r (some head)
        pure (.ok receipt)
      else haltRegistryHead r.tenantID registryHaltPredecessorMismatch .registryEquivocation

end Snagline.Authority
