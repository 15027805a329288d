import Snagline.Control.Runs

/-!
# Authorization of everything that is committed

For every run of the control service, each committed case and advice is covered
by the registry it names: signed by a listed key of the right usage, owned by the
principal that may issue it, under the route and epoch of its domain.
-/

namespace Snagline.Control
open Kit Ssp Registry Authority

/-! ### The two authorization checks -/

/-- What a registry must list for a case to be issued under it. -/
structure IssuerGrant (snapshot : Snapshot) (authorKeyID : Bytes) (key : KeyRecord)
    (body : CaseBody) (routingEpoch : ℤ) (edge : EdgeEntry) (principal : PrincipalEntry)
    (route : DomainEntry) : Prop where
  edgeListed : snapshot.edge body.issuerEdgeID = some edge
  principalListed : snapshot.principal edge.principalID = some principal
  routeListed : snapshot.domain body.domain = some route
  edgeNamed : body.issuerEdgeID ≠ []
  positive : 0 < body.issuerEdgeGeneration
  generation : edge.generation = body.issuerEdgeGeneration
  owner : key.principalID = edge.principalID
  holds : authorKeyID ∈ principal.sspKeyIDs
  issuer : body.issuerEdgeID ∈ route.issuerEdgeIDs
  family : Family.case.schema ∈ route.families
  epoch : route.routingEpoch = routingEpoch

/-- The conditions of `authorizesCase` with the entries it looked up. -/
structure CaseGrant (snapshot : Snapshot) (workload : WorkloadIdentity) (authorKeyID : Bytes)
    (key : KeyRecord) (body : CaseBody) (routingEpoch : ℤ) (edge : EdgeEntry)
    (principal : PrincipalEntry) (route : DomainEntry) : Prop extends
    IssuerGrant snapshot authorKeyID key body routingEpoch edge principal route where
  identity : workload = ⟨edge.principalID, body.issuerEdgeID, body.issuerEdgeGeneration⟩
  principalNamed : edge.principalID ≠ []

section
variable {snapshot : Snapshot} {authorKeyID : Bytes} {key : KeyRecord} {body : CaseBody}
  {routingEpoch : ℤ} {edge : EdgeEntry} {principal : PrincipalEntry} {route : DomainEntry}
theorem issuerGrant_iff :
    IssuerGrant snapshot authorKeyID key body routingEpoch edge principal route ↔
      snapshot.edge body.issuerEdgeID = some edge ∧
      snapshot.principal edge.principalID = some principal ∧
      snapshot.domain body.domain = some route ∧ edge.generation = body.issuerEdgeGeneration ∧
      key.principalID = edge.principalID ∧ authorKeyID ∈ principal.sspKeyIDs ∧
      snapshot.authorizesCaseIssuerGeneration body.domain body.issuerEdgeID
        body.issuerEdgeGeneration = true ∧
      Family.case.schema ∈ route.families ∧
      snapshot.machineAcceptableEpoch body.domain routingEpoch = true := by
  rw [Snapshot.authorizesCaseIssuerGeneration_eq_true, Snapshot.machineAcceptableEpoch_eq_true]
  constructor
  · intro h
    exact ⟨h.edgeListed, h.principalListed, h.routeListed, h.generation, h.owner, h.holds,
      ⟨h.positive, ⟨route, h.routeListed, h.edgeNamed, h.issuer⟩, edge, h.edgeListed, h.generation⟩,
      h.family, route, h.routeListed, h.epoch⟩
  · rintro ⟨hedge, hprincipal, hroute, hgeneration, howner, hholds,
      ⟨hpositive, ⟨_, hroute', hnamed, hissuer⟩, -⟩, hfamily, _, hroute'', hepoch⟩
    cases hroute.symm.trans hroute'
    cases hroute.symm.trans hroute''
    exact ⟨hedge, hprincipal, hroute, hnamed, hpositive, hgeneration, howner, hholds, hissuer, hfamily,
      hepoch⟩

theorem authorizesCase_eq_true {workload : WorkloadIdentity} :
    authorizesCase snapshot workload authorKeyID key body routingEpoch = true ↔
      ∃ edge principal route,
        CaseGrant snapshot workload authorKeyID key body routingEpoch edge principal route := by
  rw [Snapshot.looksUp_iff (b := authorizesCase ..) rfl]
  refine exists₃_congr fun edge principal route => ?_
  have hgrant := @issuerGrant_iff snapshot authorKeyID key body routingEpoch edge principal route
  obtain ⟨p, e, g⟩ := workload
  simp only [Bool.and_eq_true, bne_iff_ne, ne_eq, beq_iff_eq, decide_eq_true_eq,
    List.contains_iff_mem]
  constructor
  · rintro ⟨hedge, hprincipal, hroute, h⟩
    obtain ⟨rfl, rfl, rfl⟩ : e = body.issuerEdgeID ∧ g = body.issuerEdgeGeneration ∧
      p = edge.principalID := by tauto
    exact ⟨hgrant.mpr (by tauto), rfl, by tauto⟩
  · rintro ⟨h, hidentity, hnamed⟩
    cases hidentity
    have hedge := h.edgeNamed
    have hpositive := h.positive
    tauto
end

structure DispatcherGrant (snapshot : Snapshot) (authorKeyID : Bytes) (key : KeyRecord)
    (domain : Bytes) (routingEpoch : ℤ) (route : DomainEntry) (principal : PrincipalEntry) :
    Prop where
  routeListed : snapshot.domain domain = some route
  principalListed : snapshot.principal route.dispatcherPrincipalID = some principal
  owner : key.principalID = route.dispatcherPrincipalID
  holds : authorKeyID ∈ principal.sspKeyIDs
  family : Family.advice.schema ∈ route.families
  epoch : route.routingEpoch = routingEpoch

/-- The conditions of `authorizesAdvice` with the entries it looked up. -/
structure AdviceGrant (snapshot : Snapshot) (workload : WorkloadIdentity) (authorKeyID : Bytes)
    (key : KeyRecord) (domain : Bytes) (routingEpoch : ℤ) (route : DomainEntry)
    (principal : PrincipalEntry) : Prop extends
    DispatcherGrant snapshot authorKeyID key domain routingEpoch route principal where
  identity : workload = ⟨route.dispatcherPrincipalID, [], 0⟩
  principalNamed : route.dispatcherPrincipalID ≠ []

section
variable {snapshot : Snapshot} {authorKeyID : Bytes} {key : KeyRecord} {domain : Bytes}
  {routingEpoch : ℤ}

theorem dispatcherGrant_iff {route : DomainEntry} {principal : PrincipalEntry} :
    DispatcherGrant snapshot authorKeyID key domain routingEpoch route principal ↔
      snapshot.domain domain = some route ∧
      snapshot.principal route.dispatcherPrincipalID = some principal ∧
      key.principalID = route.dispatcherPrincipalID ∧ authorKeyID ∈ principal.sspKeyIDs ∧
      Family.advice.schema ∈ route.families ∧
      snapshot.machineAcceptableEpoch domain routingEpoch = true := by
  rw [Snapshot.machineAcceptableEpoch_eq_true]
  constructor
  · intro h
    exact ⟨h.routeListed, h.principalListed, h.owner, h.holds, h.family, route, h.routeListed, h.epoch⟩
  · rintro ⟨hroute, hprincipal, howner, hholds, hfamily, _, hroute', hepoch⟩
    cases hroute.symm.trans hroute'
    exact ⟨hroute, hprincipal, howner, hholds, hfamily, hepoch⟩

theorem authorizesAdvice_eq_true {workload : WorkloadIdentity} :
    authorizesAdvice snapshot workload authorKeyID key domain routingEpoch = true ↔
      ∃ route principal,
        AdviceGrant snapshot workload authorKeyID key domain routingEpoch route principal := by
  rw [Snapshot.dispatches_iff (b := authorizesAdvice ..) rfl]
  refine exists₂_congr fun route principal => ?_
  have hgrant := @dispatcherGrant_iff snapshot authorKeyID key domain routingEpoch route principal
  obtain ⟨p, e, g⟩ := workload
  simp only [Bool.and_eq_true, bne_iff_ne, ne_eq, beq_iff_eq, List.contains_iff_mem,
    List.isEmpty_iff]
  constructor
  · rintro ⟨hroute, hprincipal, h⟩
    obtain ⟨rfl, rfl, rfl⟩ : p = route.dispatcherPrincipalID ∧ e = [] ∧ g = 0 := by tauto
    exact ⟨hgrant.mpr (by tauto), rfl, by tauto⟩
  · rintro ⟨h, hidentity, hnamed⟩
    cases hidentity
    tauto

end

/-! ### Committed rows -/

section
variable {workload : WorkloadIdentity} {s : Service} {db : Database} {row : AdviceRow}
  {clock : Clock}

structure RootedRegistry (s : Service) (db : Database) (tenantID : Bytes) (revision : ℤ)
    (hash : Bytes) where
  record : RegistryRow
  root : Envelope
  snapshot : Snapshot
  committed : record ∈ db.registries
  recordKey : record.key = (tenantID, revision)
  recordHash : record.commitment = hash
  rooted : s.trust.Rooted s.primitives record.raw root snapshot
  snapshotRevision : snapshot.revision = revision
  snapshotHash : snapshot.commitment = hash

/-- The bytes verify, at the admission time `now`, under a key the snapshot lists
with the usage, usable then and at the signed emission time. -/
structure SignedUnder (s : Service) (snapshot : Snapshot) (usage : KeyUsage) (raw : Bytes)
    (now : Time) where
  envelope : Envelope
  key : KeyRecord
  emitted : Time
  listed : snapshot.key envelope.authorKeyID = some key
  usage : key.usage = usage
  verified : s.primitives.verify raw [(envelope.authorKeyID, key.publicKey)] now = .ok envelope
  emission : parseTimestamp envelope.emittedAt = some emitted
  usableAtEmission : key.usable emitted = true
  usableAtAdmission : key.usable now = true

def AuditedAs (db : Database) (kind : EntityKind) (tenantID entityID commitment : Bytes)
    (revision : ℤ) (principalID : Bytes) (edgeID : Option Bytes) : Prop :=
  ∃ a ∈ db.audit, a.tenantID = tenantID ∧ a.entityKind = kind ∧ a.entityID = entityID ∧
    a.commitment = commitment ∧ a.authorityRevision = revision ∧
    a.authenticatedPrincipalID = some principalID ∧ a.authenticatedEdgeID = edgeID

/-- Everything that stands behind a committed case, admitted by a call of
`workload` that read the clock `now`. -/
structure CaseAuthorization (s : Service) (db : Database) (row : CaseRow)
    (workload : WorkloadIdentity) (now : Time) where
  registry : RootedRegistry s db row.tenantID row.registryRevision row.registryHash
  signature : SignedUnder s registry.snapshot .edge row.raw now
  edge : EdgeEntry
  route : DomainEntry
  content : decodeCaseBody signature.envelope.body =
    some ⟨row.domain, row.issuerEdgeID, row.issuerEdgeGeneration⟩
  issuerEdge : registry.snapshot.edge row.issuerEdgeID = some edge
  generation : edge.generation = row.issuerEdgeGeneration
  owner : signature.key.principalID = edge.principalID
  domain : registry.snapshot.domain row.domain = some route
  issuer : row.issuerEdgeID ∈ route.issuerEdgeIDs
  epoch : route.routingEpoch = row.routingEpoch
  identity : workload = ⟨edge.principalID, row.issuerEdgeID, row.issuerEdgeGeneration⟩
  audited : AuditedAs db .case row.tenantID row.caseID row.commitment row.commitRevision
    edge.principalID (some row.issuerEdgeID)

/-- The same for a committed advice: its key belongs to the dispatcher of the
bound case's domain in the same registry, and the workload has no edge. -/
structure AdviceAuthorization (s : Service) (db : Database) (row : AdviceRow)
    (workload : WorkloadIdentity) (now : Time) where
  registry : RootedRegistry s db row.tenantID row.registryRevision row.registryHash
  signature : SignedUnder s registry.snapshot .advice row.raw now
  case : CaseRow
  route : DomainEntry
  bound : case ∈ db.cases
  binds : row.BindsCase case
  content : decodeCaseCommitment signature.envelope.body = some case.commitment
  domain : registry.snapshot.domain case.domain = some route
  owner : signature.key.principalID = route.dispatcherPrincipalID
  epoch : route.routingEpoch = row.routingEpoch
  identity : workload = ⟨route.dispatcherPrincipalID, [], 0⟩
  audited : AuditedAs db .advice row.tenantID row.caseID row.commitment row.commitRevision
    route.dispatcherPrincipalID none

def RegistryEvidence.rootedRegistry {s : Service} {tenantID : Bytes} {revision revision' : ℤ}
    {hash hash' : Bytes} {db : Database} (r : RegistryEvidence s revision hash db)
    (htenant : tenantID = s.tenant) (hrevision : revision' = revision) (hhash : hash' = hash) :
    RootedRegistry s db tenantID revision' hash' :=
  have hfound := resolveRegistry_ok r.found
  ⟨r.record, r.root, r.snapshot, hfound.1, by rw [htenant, hrevision]; exact hfound.2.1,
    hhash ▸ hfound.2.2, r.rooted, hrevision ▸ r.revision, hhash ▸ r.commitment⟩

theorem Registered.signedUnder {raw : Bytes} {snapshot : Snapshot} {usage : KeyUsage}
    {key : KeyRecord} {e : Envelope} {now : Time}
    (h : Registered s.primitives raw snapshot usage key e) (hcurrent : SignatureCurrent key e now) :
    ∃ signature : SignedUnder s snapshot usage raw now,
      signature.envelope = e ∧ signature.key = key := by
  obtain ⟨emitted, hemitted, hearly⟩ := h.emission
  exact ⟨⟨e, key, emitted, h.listed, h.usage,
    (Ssp.verify_eq_ok _ _ _ _ _).mpr ⟨h.authentic, hcurrent.live⟩, hemitted, hearly,
    hcurrent.usable⟩, rfl, rfl⟩

theorem nullableText_eq_some {value : Bytes}
    (h : value ≠ []) : nullableText value = some value := by
  simp [nullableText, h]

theorem CaseEvidence.authorization {row : CaseRow} (ev : CaseEvidence s workload row.raw db)
    (hcurrent : ev.Current clock) (hrow : row = ev.request.row row.commitRevision)
    (haudit : ev.request.audit row.commitRevision ∈ db.audit) :
    Nonempty (CaseAuthorization s db row workload (clock 2)) := by
  obtain ⟨edge, principal, route, hgrant⟩ := authorizesCase_eq_true.mp
    ev.checked.authorized
  obtain ⟨signature, henvelope, hkey⟩ := ev.checked.signed.signedUnder hcurrent.signature
  -- every column of the row is a field of the request
  have htenant : row.tenantID = s.tenant := congrArg CaseRow.tenantID hrow
  have hcase : row.caseID = ev.envelope.caseID := congrArg CaseRow.caseID hrow
  have hcommitment : row.commitment = ev.commitment := congrArg CaseRow.commitment hrow
  have hdomain : row.domain = ev.body.domain := congrArg CaseRow.domain hrow
  have hedge : row.issuerEdgeID = ev.body.issuerEdgeID := congrArg CaseRow.issuerEdgeID hrow
  have hgeneration : row.issuerEdgeGeneration = ev.body.issuerEdgeGeneration :=
    congrArg CaseRow.issuerEdgeGeneration hrow
  have hepoch : row.routingEpoch = ev.envelope.routingEpoch := congrArg CaseRow.routingEpoch hrow
  have hrevision : row.registryRevision = ev.envelope.registryRevision :=
    congrArg CaseRow.registryRevision hrow
  have hhash : row.registryHash = ev.envelope.registryHash := congrArg CaseRow.registryHash hrow
  exact ⟨{
    registry := ev.registry.rootedRegistry htenant hrevision hhash
    signature := signature
    edge := edge
    route := route
    content := by rw [henvelope, hdomain, hedge, hgeneration]; exact ev.checked.decoded
    issuerEdge := by rw [hedge]; exact hgrant.edgeListed
    generation := by rw [hgeneration]; exact hgrant.generation
    owner := by rw [hkey]; exact hgrant.owner
    domain := by rw [hdomain]; exact hgrant.routeListed
    issuer := by rw [hedge]; exact hgrant.issuer
    epoch := by rw [hepoch]; exact hgrant.epoch
    identity := by rw [hedge, hgeneration]; exact hgrant.identity
    audited := by
      refine ⟨_, haudit, htenant.symm, rfl, hcase.symm, hcommitment.symm, rfl, ?_, ?_⟩
      · show nullableText workload.principalID = some edge.principalID
        rw [hgrant.identity]
        exact nullableText_eq_some hgrant.principalNamed
      · show nullableText workload.edgeID = some row.issuerEdgeID
        rw [hgrant.identity, hedge]
        exact nullableText_eq_some hgrant.edgeNamed }⟩

theorem AdviceEvidence.bindsCase (ev : AdviceEvidence s workload row.raw db) (hdb : Consistent db)
    (hmem : row ∈ db.advice)
    (hrow : row = ev.request.row ev.fact row.deliverySequence row.commitRevision) :
    ev.fact ∈ db.cases ∧ row.BindsCase ev.fact := by
  obtain ⟨hfact, hkey, -⟩ := resolveCase_ok ev.caseChecked.found
  obtain ⟨c, hc, hbinds⟩ := hdb.binds row hmem
  have hrowKey : row.key = (s.tenant, ev.envelope.caseID) := congrArg AdviceRow.key hrow
  have hsame : c = ev.fact :=
    hdb.oneCase.eq_of_key hc hfact (hbinds.key.symm.trans (hrowKey.trans hkey.symm))
  subst hsame
  exact ⟨hfact, hbinds⟩

theorem AdviceEvidence.authorization (ev : AdviceEvidence s workload row.raw db)
    (hcurrent : ev.Current clock) (hdb : Consistent db) (hmem : row ∈ db.advice)
    (hrow : row = ev.request.row ev.fact row.deliverySequence row.commitRevision)
    (haudit : ev.request.audit row.commitRevision ∈ db.audit) :
    Nonempty (AdviceAuthorization s db row workload (clock 4)) := by
  obtain ⟨route, principal, hgrant⟩ := authorizesAdvice_eq_true.mp
    ev.checked.authorized
  obtain ⟨signature, henvelope, hkey⟩ := ev.checked.signed.signedUnder hcurrent.signature
  obtain ⟨hfact, hbinds⟩ := ev.bindsCase hdb hmem hrow
  have htenant : row.tenantID = s.tenant := congrArg AdviceRow.tenantID hrow
  have hcase : row.caseID = ev.envelope.caseID := congrArg AdviceRow.caseID hrow
  have hcommitment : row.commitment = ev.commitment := congrArg AdviceRow.commitment hrow
  have hepoch : row.routingEpoch = ev.envelope.routingEpoch := congrArg AdviceRow.routingEpoch hrow
  have hrevision : row.registryRevision = ev.envelope.registryRevision :=
    congrArg AdviceRow.registryRevision hrow
  have hhash : row.registryHash = ev.envelope.registryHash := congrArg AdviceRow.registryHash hrow
  exact ⟨{
    registry := ev.registry.rootedRegistry htenant hrevision hhash
    signature := signature
    case := ev.fact
    route := route
    bound := hfact
    binds := hbinds
    content := by rw [henvelope]; exact ev.checked.binds
    domain := hgrant.routeListed
    owner := by rw [hkey]; exact hgrant.owner
    epoch := by rw [hepoch]; exact hgrant.epoch
    identity := hgrant.identity
    audited := by
      refine ⟨_, haudit, htenant.symm, rfl, hcase.symm, hcommitment.symm, rfl, ?_, rfl⟩
      show nullableText workload.principalID = some route.dispatcherPrincipalID
      rw [hgrant.identity]
      exact nullableText_eq_some hgrant.principalNamed }⟩

/-- Authorization soundness. After any run of SubmitRegistry and Submit calls,
every committed case and every committed advice was submitted, with exactly its
bytes, by a call of the run, and is authorized by the registry it names at the
time of that call. -/
theorem admission_authorized (d : Deployment) (events : List Event) :
    let db := (d.run {} events).db
    (∀ row ∈ db.cases, ∃ workload clock, Event.submit workload row.raw clock ∈ events ∧
      Nonempty (CaseAuthorization d.service db row workload (clock 2))) ∧
    (∀ row ∈ db.advice, ∃ workload clock, Event.submit workload row.raw clock ∈ events ∧
      Nonempty (AdviceAuthorization d.service db row workload (clock 4))) := by
  intro db
  have h := run_accounted d events
  constructor
  · intro row hrow
    cases h.cases row hrow with
    | intro workload clock made ev current valid committed audited =>
      exact ⟨workload, clock, made, ev.authorization current committed audited⟩
  · intro row hrow
    cases h.advice row hrow with
    | intro workload clock made ev current valid committed audited =>
      exact ⟨workload, clock, made,
        ev.authorization current h.consistent hrow committed audited⟩

end

end Snagline.Control
