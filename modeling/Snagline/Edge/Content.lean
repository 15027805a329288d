import Snagline.Control.Service
import Snagline.Edge.Verifier

/-!
# What a delivery says (sspedge/authority_verifier.go:71-118, 146-470)

The edge verifies a delivery with the evidence it reads back from the authority,
every check at the instant the envelope was emitted. A read that fails for any
reason but the absence of the row is a transient failure.
-/

namespace Snagline.Edge
open Kit Json Ssp Registry Delivery Authority

/-- The errors of an evidence read that `Verify` tells apart. -/
inductive EvidenceError where
  | caseNotFound | registryNotFound | unavailable
  deriving DecidableEq

structure ProjectionAuthority where
  listEdgeDeliveries : DeliverySource
  resolveCase : Bytes → Bytes → Except EvidenceError Authority.CaseRow
  resolveRegistry : Bytes → ℤ → Bytes → Except EvidenceError RegistryRow

/-- A verifier `NewAuthorityVerifier` accepted. -/
structure AuthorityVerifier where
  tenant : Bytes
  tenantNamed : blank tenant = false
  authority : ProjectionAuthority
  trust : Trust
  primitives : Primitives

def permanent (reason : String) : VerificationError := .permanent (text reason)

structure VerifiedCaseBody where
  domain : Bytes
  issuerEdgeID : Bytes
  issuerEdgeGeneration : ℤ
  summary : Bytes
  publicSummary : Bytes
  contextManifest : Bytes
  deriving DecidableEq

def decodeVerifiedCaseBody (raw : Bytes) : Option VerifiedCaseBody := do
  let ms ← structMembers (← unmarshal raw)
  some ⟨← fieldString ms (text "domain"), ← fieldString ms (text "issuer_edge_id"),
    ← fieldInt64 ms (text "issuer_edge_generation"), ← fieldString ms (text "summary"),
    ← fieldString ms (text "public_summary"), ← fieldString ms (text "context_manifest")⟩

structure VerifiedAdviceBody where
  caseCommitment : Bytes
  words : Bytes
  publicSummary : Bytes
  deriving DecidableEq

def decodeVerifiedAdviceBody (raw : Bytes) : Option VerifiedAdviceBody := do
  let ms ← structMembers (← unmarshal raw)
  some ⟨← fieldString ms (text "case_commitment"), ← fieldString ms (text "text"),
    ← fieldString ms (text "public_summary")⟩

/-! ### The registry -/

namespace AuthorityVerifier

variable (v : AuthorityVerifier)

/-- The record must be the one asked for and root-verify at `instant`. -/
def verifyRegistryRecord (record : RegistryRow) (revision : ℤ) (commitment : Bytes)
    (routingEpoch : ℤ) (instant : Time) : Except VerificationError Snapshot := do
  ensure (record.tenantID == v.tenant && record.registryRevision == revision &&
    record.commitment == commitment && record.routingEpoch == routingEpoch &&
    !record.envelopeID.isEmpty && !record.raw.isEmpty && 0 < record.commitRevision)
    (permanent "registry_authority_mismatch")
  let snapshot ← (v.trust.verify v.primitives record.raw instant).mapError fun _ =>
    permanent "invalid_registry_proof"
  let header ← (readHeader record.raw).mapError fun _ => permanent "registry_authority_mismatch"
  ensure (header.schema == .registry && header.id == record.envelopeID &&
    header.registryRevision == record.registryRevision &&
    header.routingEpoch == record.routingEpoch && snapshot.commitment == record.commitment &&
    snapshot.revision == record.registryRevision && snapshot.routingEpoch == record.routingEpoch &&
    !snapshot.expired instant && snapshot.checkBinding revision commitment)
    (permanent "registry_authority_mismatch")
  pure snapshot

def resolveRegistry (header : EnvelopeHeader) (instant : Time) :
    Except VerificationError (RegistryRow × Snapshot) := do
  let record ← (v.authority.resolveRegistry v.tenant header.registryRevision
    header.registryHash).mapError fun e =>
      if e = .registryNotFound then permanent "registry_not_found" else .transient
  let snapshot ← v.verifyRegistryRecord record header.registryRevision header.registryHash
    header.routingEpoch instant
  pure (record, snapshot)

end AuthorityVerifier

/-! ### The signature and the issuer -/

/-- The key of a snapshot is a verifying key by construction, so the source's
`invalid_signing_key` cannot occur. -/
def verifyRegisteredEnvelope (p : Primitives) (raw : Bytes) (header : EnvelopeHeader)
    (snapshot : Snapshot) (usage : KeyUsage) (emittedAt : Time) :
    Except VerificationError (KeyRecord × Envelope) := do
  let key ← orFail (snapshot.key header.authorKeyID) (permanent "unauthorized_signing_key")
  ensure (key.usage == usage && key.usable emittedAt) (permanent "unauthorized_signing_key")
  let envelope ← (p.verify raw [(header.authorKeyID, key.publicKey)] emittedAt).mapError fun _ =>
    permanent "invalid_signature"
  let actualEmission ← orFail (parseTimestamp envelope.emittedAt)
    (permanent "unauthorized_signing_key")
  ensure (actualEmission == emittedAt && key.usable actualEmission)
    (permanent "unauthorized_signing_key")
  pure (key, envelope)

def authorizesIssuer (snapshot : Snapshot) (authorKeyID : Bytes) (key : KeyRecord)
    (body : VerifiedCaseBody) (routingEpoch : ℤ) : Bool :=
  match snapshot.edge body.issuerEdgeID with
  | none => false
  | some edge =>
    match snapshot.principal edge.principalID, snapshot.domain body.domain with
    | some principal, some route =>
      edge.generation == body.issuerEdgeGeneration && key.principalID == edge.principalID &&
        principal.sspKeyIDs.contains authorKeyID &&
        principal.edgeIDs.contains body.issuerEdgeID &&
        snapshot.authorizesCaseIssuerGeneration body.domain body.issuerEdgeID
          body.issuerEdgeGeneration &&
        route.families.contains Ssp.Family.case.schema &&
        snapshot.machineAcceptableEpoch body.domain routingEpoch
    | _, _ => false

def authorizeCase (snapshot : Snapshot) (header : EnvelopeHeader) (key : KeyRecord)
    (envelope : Envelope) : Except VerificationError VerifiedCaseBody := do
  let body ← orFail (decodeVerifiedCaseBody envelope.body) (permanent "invalid_case_body")
  ensure (authorizesIssuer snapshot header.authorKeyID key body envelope.routingEpoch)
    (permanent "unauthorized_case")
  pure body

def authorizesDispatcher (snapshot : Snapshot) (authorKeyID : Bytes) (key : KeyRecord)
    (domain : Bytes) (routingEpoch : ℤ) : Bool :=
  match snapshot.domain domain with
  | none => false
  | some route =>
    match snapshot.principal route.dispatcherPrincipalID with
    | none => false
    | some principal =>
      key.principalID == route.dispatcherPrincipalID &&
        principal.sspKeyIDs.contains authorKeyID &&
        route.families.contains Ssp.Family.advice.schema &&
        snapshot.machineAcceptableEpoch domain routingEpoch

/-! ### A case delivery -/

def validateAuthorityCaseRecord (record : Authority.CaseRow) (tenant : Bytes) (envelope : Envelope)
    (body : VerifiedCaseBody) (commitment raw : Bytes) (expiresAt : Time) :
    Except VerificationError Unit :=
  ensure (record.tenantID == tenant && record.caseID == envelope.caseID &&
    record.envelopeID == envelope.id && record.commitment == commitment && record.raw == raw &&
    record.domain == body.domain && record.issuerEdgeID == body.issuerEdgeID &&
    record.issuerEdgeGeneration == body.issuerEdgeGeneration &&
    record.routingEpoch == envelope.routingEpoch &&
    record.registryRevision == envelope.registryRevision &&
    record.registryHash == envelope.registryHash && record.expiresAt == expiresAt &&
    0 < record.commitRevision) (permanent "case_authority_mismatch")

def caseProjection (sha256 : Bytes → Bytes) (envelope : Envelope) (body : VerifiedCaseBody)
    (commitment : Bytes) (expiresAt : Time) : VerifiedProjection :=
  let case : Case :=
    ⟨envelope.caseID, body.issuerEdgeID, body.domain, body.summary, body.contextManifest,
      body.issuerEdgeGeneration, .domain, routingToken sha256 body.domain,
      edgeRoutingToken sha256 body.issuerEdgeID body.issuerEdgeGeneration, envelope.routingEpoch,
      envelope.registryRevision, envelope.registryHash, expiresAt⟩
  ⟨envelope.id, commitment, .case, some case, none⟩

namespace AuthorityVerifier

variable (v : AuthorityVerifier)

def resolveCase (caseID commitment : Bytes) : Except VerificationError Authority.CaseRow :=
  (v.authority.resolveCase caseID commitment).mapError fun e =>
    if e = .caseNotFound then permanent "case_not_found" else .transient

def verifyCaseDelivery (d : JournalDelivery) (header : EnvelopeHeader) (commitment : Bytes)
    (snapshot : Snapshot) (emittedAt : Time) : Except VerificationError VerifiedProjection := do
  let (key, envelope) ← verifyRegisteredEnvelope v.primitives d.raw header snapshot .edge emittedAt
  let body ← authorizeCase snapshot header key envelope
  ensure (envelope.schema == .case && body.issuerEdgeID == d.edgeID &&
    body.issuerEdgeGeneration == d.edgeGeneration) (permanent "delivery_identity_mismatch")
  let record ← v.resolveCase envelope.caseID commitment
  let expiresAt ← orFail (parseTimestamp envelope.expiresAt) (permanent "invalid_case_expiry")
  validateAuthorityCaseRecord record v.tenant envelope body commitment d.raw expiresAt
  pure (caseProjection v.primitives.sha256 envelope body commitment expiresAt)

/-! ### An advice delivery -/

def verifyCommittedCase (record : Authority.CaseRow) (registryRecord : RegistryRow) :
    Except VerificationError (Envelope × VerifiedCaseBody) := do
  let header ← (readHeader record.raw).mapError fun _ => permanent "invalid_committed_case"
  ensure (header.schema == .case) (permanent "invalid_committed_case")
  let emittedAt ← orFail (parseTimestamp header.emittedAt) (permanent "invalid_committed_case")
  let snapshot ← v.verifyRegistryRecord registryRecord header.registryRevision header.registryHash
    header.routingEpoch emittedAt
  let (key, envelope) ← verifyRegisteredEnvelope v.primitives record.raw header snapshot .edge
    emittedAt
  let body ← authorizeCase snapshot header key envelope
  let actualCommitment ← (v.primitives.envelopeCommitment record.raw emittedAt).mapError fun _ =>
    permanent "invalid_committed_case"
  let expiresAt ← orFail (parseTimestamp envelope.expiresAt) (permanent "invalid_committed_case")
  validateAuthorityCaseRecord record v.tenant envelope body actualCommitment record.raw expiresAt
  pure (envelope, body)

end AuthorityVerifier

def adviceProjection (sha256 : Bytes → Bytes) (envelope : Envelope) (body : VerifiedAdviceBody)
    (record : Authority.CaseRow) (commitment : Bytes) (expiresAt : Time) : VerifiedProjection :=
  let advice : Advice :=
    ⟨envelope.id, envelope.caseID, record.commitment, body.words, record.issuerEdgeID, .edge,
      edgeRoutingToken sha256 record.issuerEdgeID record.issuerEdgeGeneration,
      record.issuerEdgeGeneration, record.routingEpoch, record.registryRevision,
      record.registryHash, expiresAt⟩
  ⟨envelope.id, commitment, .advice, none, some advice⟩

def bindsExactly (envelope : Envelope) (body : VerifiedAdviceBody) (record : Authority.CaseRow)
    (caseEnvelope : Envelope) (d : JournalDelivery) : Bool :=
  body.caseCommitment == record.commitment && envelope.caseID == record.caseID &&
    envelope.routingEpoch == record.routingEpoch &&
    envelope.registryRevision == record.registryRevision &&
    envelope.registryHash == record.registryHash && caseEnvelope.caseID == envelope.caseID &&
    record.issuerEdgeID == d.edgeID && record.issuerEdgeGeneration == d.edgeGeneration

namespace AuthorityVerifier

variable (v : AuthorityVerifier)

def verifyAdviceDelivery (d : JournalDelivery) (header : EnvelopeHeader) (commitment : Bytes)
    (registryRecord : RegistryRow) (snapshot : Snapshot) (emittedAt : Time) :
    Except VerificationError VerifiedProjection := do
  let (key, envelope) ← verifyRegisteredEnvelope v.primitives d.raw header snapshot .advice emittedAt
  ensure (envelope.schema == .advice) (permanent "unsupported_family")
  let body ← orFail (decodeVerifiedAdviceBody envelope.body) (permanent "invalid_advice_body")
  let record ← v.resolveCase envelope.caseID body.caseCommitment
  let (caseEnvelope, caseBody) ← v.verifyCommittedCase record registryRecord
  ensure (authorizesDispatcher snapshot header.authorKeyID key caseBody.domain
    envelope.routingEpoch) (permanent "unauthorized_advice")
  ensure (bindsExactly envelope body record caseEnvelope d)
    (permanent "advice_case_binding_mismatch")
  let expiresAt ← orFail (parseTimestamp envelope.expiresAt) (permanent "invalid_advice_expiry")
  pure (adviceProjection v.primitives.sha256 envelope body record commitment expiresAt)

/-! ### Verify -/

def deliveryKind : Ssp.Family → EntityKind
  | .advice => .advice
  | .case | .registry => .case

/-- `Verify` of the delivery the authority has at this sequence. -/
def content (d : JournalDelivery) (authorityDelivery : EdgeDelivery) :
    Except VerificationError VerifiedProjection := do
  let header ← (readHeader d.raw).mapError fun _ => permanent "malformed_envelope"
  ensure (header.schema != .registry) (permanent "unsupported_family")
  let emittedAt ← orFail (parseTimestamp header.emittedAt) (permanent "invalid_emission_time")
  let commitment ← (v.primitives.envelopeCommitment d.raw emittedAt).mapError fun _ =>
    permanent "invalid_envelope"
  ensure (authorityDelivery.kind == deliveryKind header.schema &&
    authorityDelivery.caseID == header.caseID && authorityDelivery.envelopeID == header.id &&
    authorityDelivery.commitment == commitment && 0 < authorityDelivery.authorityRevision)
    (permanent "authority_delivery_mismatch")
  let (record, snapshot) ← v.resolveRegistry header emittedAt
  match header.schema with
  | .advice => v.verifyAdviceDelivery d header commitment record snapshot emittedAt
  | .case | .registry => v.verifyCaseDelivery d header commitment snapshot emittedAt

def verify (d : JournalDelivery) : Except VerificationError VerifiedProjection :=
  verifyExact v.tenant v.authority.listEdgeDeliveries v.content d

end AuthorityVerifier

end Snagline.Edge
