import Snagline.Authority.Lookup
import Snagline.Registry.Verifier

/-!
# Admission (controlapi/service.go)

SubmitRegistry and Submit up to the commit request they hand to the authority,
and the two evidence reads. A call reads the clock several times; `Clock` lists
its readings in order. The authority rows a call reads are immutable, so they
are read here from one state of the tables.
-/

namespace Snagline.Control
open Kit Json Ssp Registry Authority

structure WorkloadIdentity where
  principalID : Bytes
  edgeID : Bytes
  edgeGeneration : ℤ
  deriving DecidableEq

abbrev Clock := ℕ → Time

inductive Cause where
  | header (cause : Refusal)
  | family (family : Family)
  | root (cause : RootError)
  | envelope (cause : VerifyError)
  | body
  | expiry
  deriving DecidableEq

inductive ServiceError where
  | unauthorized
  | rejected (operation : Bytes) (cause : Cause)
  | expiredInput
  | invalidCaseBinding
  | resolve (cause : ReadError)
  | rootVerify (cause : RootError)
  deriving DecidableEq

/-- A service `New` accepted. -/
structure Service where
  tenant : Bytes
  tenantNamed : blank tenant = false
  trust : Trust
  registryPublisherPrincipalID : Bytes
  publisherNamed : blank registryPublisherPrincipalID = false
  primitives : Primitives

/-! ### Envelopes of a registered key -/

inductive RegisteredError where
  | unauthorized
  | envelope (cause : VerifyError)
  deriving DecidableEq

/-- `classifySSPError`. -/
def RegisteredError.classify (operation : Bytes) : RegisteredError → ServiceError
  | .unauthorized => .unauthorized
  | .envelope cause =>
    if cause.isExpired then .expiredInput
    else if cause.isInvalid then .rejected operation (.envelope cause)
    else .unauthorized

def RegisteredError.isExpired : RegisteredError → Bool
  | .unauthorized => false
  | .envelope cause => cause.isExpired

/-- `verifyRegisteredEnvelope`: the key must be usable now and at emission. -/
def verifyRegisteredEnvelope (p : Primitives) (raw : Bytes) (header : EnvelopeHeader)
    (snapshot : Snapshot) (usage : KeyUsage) (now : Time) :
    Except RegisteredError (KeyRecord × Envelope) := do
  let key ← orFail (snapshot.key header.authorKeyID) .unauthorized
  ensure (key.usage == usage && key.usable now) .unauthorized
  let verified ← (p.verify raw [(header.authorKeyID, key.publicKey)] now).mapError .envelope
  let emitted ← orFail (parseTimestamp verified.emittedAt) .unauthorized
  ensure (key.usable emitted) .unauthorized
  pure (key, verified)

structure CaseBody where
  domain : Bytes
  issuerEdgeID : Bytes
  issuerEdgeGeneration : ℤ
  deriving DecidableEq

def decodeCaseBody (raw : Bytes) : Option CaseBody := do
  let ms ← structMembers (← unmarshal raw)
  some ⟨← fieldString ms (text "domain"), ← fieldString ms (text "issuer_edge_id"),
    ← fieldInt64 ms (text "issuer_edge_generation")⟩

/-- `adviceBody`. -/
def decodeCaseCommitment (raw : Bytes) : Option Bytes := do
  let ms ← structMembers (← unmarshal raw)
  fieldString ms (text "case_commitment")

/-! ### SubmitRegistry -/

section
variable {e : Bytes × RegistryEdge} {entries : List (Bytes × RegistryEdge)} {id : Bytes}
  {edge : RegistryEdge}

def setEdge (id : Bytes) (edge : RegistryEdge) :
    List (Bytes × RegistryEdge) → List (Bytes × RegistryEdge)
  | [] => [(id, edge)]
  | e :: rest =>
    if id < e.1 then (id, edge) :: e :: rest
    else if id = e.1 then (id, edge) :: rest
    else e :: setEdge id edge rest

theorem mem_setEdge (h : e ∈ setEdge id edge entries) : e = (id, edge) ∨ e ∈ entries := by
  induction entries with
  | nil => exact Or.inl (List.mem_singleton.mp h)
  | cons x rest ih =>
    unfold setEdge at h
    split at h
    · exact List.mem_cons.mp h
    · split at h
      · rcases List.mem_cons.mp h with hnew | hold
        · exact Or.inl hnew
        · exact Or.inr (List.mem_cons_of_mem _ hold)
      · rcases List.mem_cons.mp h with rfl | hin
        · exact Or.inr List.mem_cons_self
        · rcases ih hin with hnew | hold
          · exact Or.inl hnew
          · exact Or.inr (List.mem_cons_of_mem _ hold)

theorem setEdge_ordered (id : Bytes) (edge : RegistryEdge) (entries : List (Bytes × RegistryEdge))
    (h : entries.Pairwise fun a b => a.1 < b.1) :
    (setEdge id edge entries).Pairwise fun a b => a.1 < b.1 := by
  induction entries with
  | nil => exact List.pairwise_singleton _ _
  | cons x rest ih =>
    obtain ⟨hx, hrest⟩ := List.pairwise_cons.mp h
    unfold setEdge
    split
    · rename_i hlt
      refine List.pairwise_cons.mpr ⟨?_, h⟩
      intro e he
      rcases List.mem_cons.mp he with rfl | he
      · exact hlt
      · exact List.lt_trans hlt (hx e he)
    · rename_i hnlt
      split
      · rename_i heq
        refine List.pairwise_cons.mpr ⟨?_, hrest⟩
        intro e he
        rw [heq]
        exact hx e he
      · rename_i hne
        have hgt : x.1 < id := Std.lt_of_le_of_ne hnlt (fun h => hne h.symm)
        refine List.pairwise_cons.mpr ⟨?_, ih hrest⟩
        intro e he
        rcases mem_setEdge he with rfl | he
        · exact hgt
        · exact hx e he

def noEdges : EdgeMap := ⟨[], .nil⟩

def edgeMap : List EdgeEntry → EdgeMap → EdgeMap
  | [], m => m
  | e :: rest, m =>
    let edge : RegistryEdge := ⟨e.principalID, e.generation⟩
    edgeMap rest ⟨setEdge e.edgeID edge m.entries, setEdge_ordered _ _ _ m.ordered⟩

theorem setEdge_own (id : Bytes) (edge : RegistryEdge) (entries : List (Bytes × RegistryEdge)) :
    (id, edge) ∈ setEdge id edge entries := by
  induction entries with
  | nil => exact List.mem_cons_self
  | cons x rest ih =>
    unfold setEdge
    split
    · exact List.mem_cons_self
    · split
      · exact List.mem_cons_self
      · exact List.mem_cons_of_mem _ ih

theorem setEdge_other (he : e ∈ entries) (hne : e.1 ≠ id) :
    e ∈ setEdge id edge entries := by
  induction entries with
  | nil => cases he
  | cons x rest ih =>
    unfold setEdge
    split
    · exact List.mem_cons_of_mem _ he
    · split
      · rename_i hsame
        rcases List.mem_cons.mp he with rfl | he
        · exact absurd hsame.symm hne
        · exact List.mem_cons_of_mem _ he
      · rcases List.mem_cons.mp he with rfl | he
        · exact List.mem_cons_self
        · exact List.mem_cons_of_mem _ (ih he)

theorem edgeMap_keeps (edges : List EdgeEntry) (m : EdgeMap)
    (he : e ∈ m.entries) (hother : ∀ x ∈ edges, x.edgeID ≠ e.1) : e ∈ (edgeMap edges m).entries := by
  induction edges generalizing m with
  | nil => exact he
  | cons x rest ih =>
    have hne : e.1 ≠ x.edgeID := fun h => hother x List.mem_cons_self h.symm
    exact ih _ (setEdge_other he hne) (fun y hy => hother y (List.mem_cons_of_mem _ hy))

theorem edgeMap_entry {edges : List EdgeEntry} {e : EdgeEntry}
    (h : entry EdgeEntry.edgeID id edges = some e) (m : EdgeMap) :
    (id, ⟨e.principalID, e.generation⟩) ∈ (edgeMap edges m).entries := by
  induction edges generalizing m with
  | nil => cases h
  | cons x rest ih =>
    unfold entry at h
    rw [List.reverse_cons, Table.find_append] at h
    cases hrest : Table.find EdgeEntry.edgeID id rest.reverse with
    | some y =>
      rw [hrest] at h
      cases h
      exact ih hrest _
    | none =>
      rw [hrest, Option.none_or] at h
      split at h
      · rename_i hid
        cases h
        subst hid
        refine edgeMap_keeps rest _ (setEdge_own _ _ _) ?_
        intro y hy
        exact Table.find_eq_none.mp hrest y (List.mem_reverse.mpr hy)
      · cases h

end

namespace Service

def submitRegistry (s : Service) (workload : WorkloadIdentity) (raw : Bytes) (clock : Clock) :
    Except ServiceError Call := do
  ensure (workload.principalID == s.registryPublisherPrincipalID && workload.edgeID.isEmpty &&
    workload.edgeGeneration == 0) .unauthorized
  let header ← (readHeader raw).mapError fun e => .rejected (text "read registry header") (.header e)
  ensure (header.schema == .registry) (.rejected (text "registry family") (.family header.schema))
  let snapshot ← (s.trust.verify s.primitives raw (clock 0)).mapError fun e =>
    if e.isExpired then .expiredInput
    else if e.isInvalid then .rejected (text "verify registry") (.root e)
    else .unauthorized
  ensure (snapshot.revision == header.registryRevision &&
    snapshot.routingEpoch == header.routingEpoch && !snapshot.expired (clock 1)) .expiredInput
  pure (.registry ⟨s.tenant, snapshot.revision, header.id, snapshot.commitment, raw,
    snapshot.routingEpoch, snapshot.previousCommitment, some (edgeMap snapshot.edges noEdges),
    workload.principalID, [], text "verified_registry_admission"⟩)

/-! ### Submit -/

def resolveRegistry (s : Service) (header : EnvelopeHeader) (clock : Clock) (db : Database) :
    Except ServiceError Snapshot := do
  let record ← (Authority.resolveRegistry s.tenant header.registryRevision header.registryHash
    db).mapError .resolve
  let snapshot ← (s.trust.verify s.primitives record.raw (clock 0)).mapError fun e =>
    if e.isExpired then .expiredInput else .rootVerify e
  ensure (record.registryRevision == header.registryRevision &&
    record.commitment == header.registryHash && snapshot.commitment == record.commitment &&
    snapshot.revision == record.registryRevision && snapshot.routingEpoch == record.routingEpoch &&
    !snapshot.expired (clock 1) &&
    snapshot.checkBinding header.registryRevision header.registryHash) .expiredInput
  pure snapshot

end Service

def authorizesCase (snapshot : Snapshot) (workload : WorkloadIdentity) (authorKeyID : Bytes)
    (key : KeyRecord) (body : CaseBody) (routingEpoch : ℤ) : Bool :=
  match snapshot.edge body.issuerEdgeID with
  | none => false
  | some edge =>
    match snapshot.principal edge.principalID, snapshot.domain body.domain with
    | some principal, some route =>
      workload.principalID != [] && workload.edgeID != [] && 0 < workload.edgeGeneration &&
        workload.edgeID == body.issuerEdgeID &&
        workload.edgeGeneration == body.issuerEdgeGeneration &&
        edge.generation == body.issuerEdgeGeneration &&
        workload.principalID == edge.principalID && key.principalID == edge.principalID &&
        principal.sspKeyIDs.contains authorKeyID &&
        snapshot.authorizesCaseIssuerGeneration body.domain body.issuerEdgeID
          body.issuerEdgeGeneration &&
        route.families.contains Family.case.schema &&
        snapshot.machineAcceptableEpoch body.domain routingEpoch
    | _, _ => false

def authorizesAdvice (snapshot : Snapshot) (workload : WorkloadIdentity) (authorKeyID : Bytes)
    (key : KeyRecord) (domain : Bytes) (routingEpoch : ℤ) : Bool :=
  match snapshot.domain domain with
  | none => false
  | some route =>
    match snapshot.principal route.dispatcherPrincipalID with
    | none => false
    | some principal =>
      workload.principalID != [] && workload.principalID == route.dispatcherPrincipalID &&
        workload.edgeID.isEmpty && workload.edgeGeneration == 0 &&
        key.principalID == route.dispatcherPrincipalID &&
        principal.sspKeyIDs.contains authorKeyID &&
        route.families.contains Family.advice.schema &&
        snapshot.machineAcceptableEpoch domain routingEpoch

/-- `committedCase`, reduced to its record: domain and commitment are the record's. -/
abbrev CommittedCase := CaseRow

namespace Service

variable (s : Service) (workload : WorkloadIdentity)

def submitCase (raw : Bytes) (header : EnvelopeHeader) (snapshot : Snapshot) (clock : Clock) :
    Except ServiceError Call := do
  let (key, verified) ← (verifyRegisteredEnvelope s.primitives raw header snapshot .edge
    (clock 2)).mapError (RegisteredError.classify (text "verify case"))
  ensure (verified.schema == .case)
    (.rejected (text "verify case family") (.family verified.schema))
  ensure (key.principalID != []) .unauthorized
  let body ← orFail (decodeCaseBody verified.body) (.rejected (text "decode verified case") .body)
  ensure (authorizesCase snapshot workload header.authorKeyID key body verified.routingEpoch)
    .unauthorized
  let commitment ← (s.primitives.envelopeCommitment raw (clock 3)).mapError fun e =>
    .rejected (text "calculate case commitment") (.envelope e)
  let expiresAt ← orFail (parseTimestamp verified.expiresAt)
    (.rejected (text "parse case expiry") .expiry)
  pure (.case ⟨s.tenant, verified.caseID, verified.id, commitment, raw, body.domain,
    body.issuerEdgeID, body.issuerEdgeGeneration, verified.routingEpoch,
    verified.registryRevision, verified.registryHash, expiresAt, workload.principalID,
    workload.edgeID, text "verified_case_admission"⟩)

/-- The committed case an advice or a reader names, verified again at the
current time against the registry it is bound to. -/
def findCommittedCase (caseID commitment : Bytes) (header : EnvelopeHeader) (snapshot : Snapshot)
    (clock : Clock) (db : Database) : Except ServiceError CommittedCase := do
  let fact ← (Authority.resolveCase s.tenant caseID commitment db).mapError .resolve
  let caseHeader ← (readHeader fact.raw).mapError fun _ => .invalidCaseBinding
  ensure (caseHeader.registryRevision == header.registryRevision &&
    caseHeader.registryHash == header.registryHash &&
    caseHeader.routingEpoch == header.routingEpoch) .invalidCaseBinding
  let (key, verified) ← (verifyRegisteredEnvelope s.primitives fact.raw caseHeader snapshot .edge
    (clock 2)).mapError fun e => if e.isExpired then .expiredInput else .invalidCaseBinding
  ensure (verified.schema == .case && key.principalID != []) .invalidCaseBinding
  let actual ← (s.primitives.envelopeCommitment fact.raw (clock 3)).mapError fun _ =>
    .invalidCaseBinding
  ensure (actual == fact.commitment) .invalidCaseBinding
  let body ← orFail (decodeCaseBody verified.body) .invalidCaseBinding
  ensure (verified.caseID == caseID && body.domain != [] && body.domain == fact.domain)
    .invalidCaseBinding
  pure fact

/-- The binding hint is decoded loosely from bytes that passed ReadHeader, which
have no member but the envelope's own; it is the body of the strict decoding. -/
def submitAdvice (raw : Bytes) (header : EnvelopeHeader) (snapshot : Snapshot) (clock : Clock)
    (db : Database) : Except ServiceError Call := do
  let untrusted ← (decodeStrictEnvelope raw).mapError fun e =>
    .rejected (text "decode advice binding hint") (.header e)
  let hint ← orFail (decodeCaseCommitment untrusted.body)
    (.rejected (text "decode advice binding hint body") .body)
  let committed ← s.findCommittedCase header.caseID hint header snapshot clock db
  let (key, verified) ← (verifyRegisteredEnvelope s.primitives raw header snapshot .advice
    (clock 4)).mapError (RegisteredError.classify (text "verify advice"))
  ensure (verified.schema == .advice)
    (.rejected (text "verify advice family") (.family verified.schema))
  ensure (key.principalID != []) .unauthorized
  ensure (authorizesAdvice snapshot workload header.authorKeyID key committed.domain
    header.routingEpoch) .unauthorized
  let caseCommitment ← orFail (decodeCaseCommitment verified.body)
    (.rejected (text "decode verified advice") .body)
  ensure (caseCommitment == committed.commitment) .invalidCaseBinding
  let commitment ← (s.primitives.envelopeCommitment raw (clock 5)).mapError fun e =>
    .rejected (text "calculate advice commitment") (.envelope e)
  pure (.advice ⟨s.tenant, verified.caseID, verified.id, committed.commitment, commitment, raw,
    verified.routingEpoch, verified.registryRevision, verified.registryHash,
    workload.principalID, [], text "verified_advice_admission"⟩)

def submit (raw : Bytes) (clock : Clock) (db : Database) : Except ServiceError Call := do
  let header ← (readHeader raw).mapError fun e => .rejected (text "read envelope header") (.header e)
  ensure (header.schema != .registry) (.rejected (text "envelope family") (.family header.schema))
  let snapshot ← s.resolveRegistry header clock db
  match header.schema with
  | .advice => s.submitAdvice workload raw header snapshot clock db
  | .case | .registry => s.submitCase workload raw header snapshot clock

/-! ### Evidence reads -/

def mayRead (snapshot : Snapshot) (workload : WorkloadIdentity) (record : CaseRow) : Bool :=
  let dispatcher := (snapshot.domain record.domain).any fun route =>
    workload.principalID != [] && workload.principalID == route.dispatcherPrincipalID &&
      workload.edgeID.isEmpty && workload.edgeGeneration == 0
  let edge := (snapshot.edge record.issuerEdgeID).any fun target =>
    workload.principalID != [] && workload.principalID == target.principalID &&
      workload.edgeID == record.issuerEdgeID &&
      workload.edgeGeneration == record.issuerEdgeGeneration &&
      target.generation == record.issuerEdgeGeneration
  dispatcher || edge

/-- `ResolveCase`. -/
def resolveCase (caseID commitment : Bytes) (clock : Clock) (db : Database) :
    Except ServiceError CaseRow := do
  let record ← (Authority.resolveCase s.tenant caseID commitment db).mapError .resolve
  let header ← (readHeader record.raw).mapError fun _ => .invalidCaseBinding
  ensure (header.schema == .case) .invalidCaseBinding
  let snapshot ← s.resolveRegistry header clock db
  let committed ← s.findCommittedCase caseID commitment header snapshot clock db
  ensure (mayRead snapshot workload committed) .unauthorized
  pure committed

/-- `ResolveRegistry`: verified at its own emission, so its age does not matter. -/
def resolveRegistryEvidence (revision : ℤ) (commitment : Bytes) (db : Database) :
    Except ServiceError RegistryRow := do
  ensure (workload.principalID != [] && workload.edgeID != [] && 0 < workload.edgeGeneration)
    .unauthorized
  let record ← (Authority.resolveRegistry s.tenant revision commitment db).mapError .resolve
  let header ← (readHeader record.raw).mapError fun _ => .invalidCaseBinding
  ensure (header.schema == .registry) .invalidCaseBinding
  let emitted ← orFail (parseTimestamp header.emittedAt) .invalidCaseBinding
  let snapshot ← (s.trust.verify s.primitives record.raw emitted).mapError .rootVerify
  ensure ((snapshot.edge workload.edgeID).any (fun edge =>
      edge.principalID == workload.principalID && edge.generation == workload.edgeGeneration) &&
    record.tenantID == s.tenant && record.registryRevision == revision &&
    record.registryRevision == snapshot.revision && record.routingEpoch == snapshot.routingEpoch &&
    record.commitment == commitment && snapshot.commitment == commitment) .unauthorized
  pure record

end Service

end Snagline.Control
