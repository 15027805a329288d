import Snagline.Control.Authorization
import Snagline.Edge.Content

/-!
# What the edge makes of admitted bytes

Admission and the edge run the same checks at different instants: the service at
its clock, the edge at the signed emission. Whatever does not look at a clock
carries over from one to the other. What is left is the registry, which the edge
wants live at the emission of the envelope.
-/

namespace Snagline.Edge
open Kit Json Ssp Registry Control Authority

def pinned (s : Service) (authority : ProjectionAuthority) : AuthorityVerifier :=
  ⟨s.tenant, s.tenantNamed, authority, s.trust, s.primitives⟩

/-! ### The registry -/

theorem decodeStrictEnvelope_ne_nil {raw : Bytes} {e : Envelope}
    (h : decodeStrictEnvelope raw = .ok e) : raw ≠ [] := by
  intro hnil
  have hempty : decodeStrictEnvelope [] = .error .rootNotObject := rfl
  rw [hnil, hempty] at h
  cases h

structure RegistryProof (s : Service) (record : RegistryRow) (root : Envelope)
    (snapshot : Snapshot) : Prop where
  rooted : s.trust.Rooted s.primitives record.raw root snapshot
  tenant : record.tenantID = s.tenant
  id : root.id = record.envelopeID
  revision : root.registryRevision = record.registryRevision
  epoch : root.routingEpoch = record.routingEpoch
  snapshotRevision : snapshot.revision = record.registryRevision
  snapshotEpoch : snapshot.routingEpoch = record.routingEpoch
  commitment : snapshot.commitment = record.commitment
  committed : 0 < record.commitRevision

theorem registryProof_of_origin {s : Service} {past : List Control.Event}
    {row : RegistryRow}
    (h : RegistryOrigin s past row) (hpos : 0 < row.commitRevision) :
    ∃ root snapshot, RegistryProof s row root snapshot := by
  cases h with
  | intro workload clock made root snapshot checked committed =>
    have hid : row.envelopeID = root.id := congrArg RegistryRow.envelopeID committed
    have hrevision : row.registryRevision = snapshot.revision :=
      congrArg RegistryRow.registryRevision committed
    have hepoch : row.routingEpoch = snapshot.routingEpoch :=
      congrArg RegistryRow.routingEpoch committed
    exact ⟨root, snapshot,
      { rooted := checked.rooted
        tenant := congrArg RegistryRow.tenantID committed
        id := hid.symm
        revision := checked.revision.symm.trans hrevision.symm
        epoch := checked.epoch.symm.trans hepoch.symm
        snapshotRevision := hrevision.symm
        snapshotEpoch := hepoch.symm
        commitment := (congrArg RegistryRow.commitment committed).symm
        committed := hpos }⟩

section
variable {s : Service} {record : RegistryRow} {root : Envelope} {snapshot : Snapshot}
  (h : RegistryProof s record root snapshot) (authority : ProjectionAuthority) {instant : Time}
include h

theorem RegistryProof.metadata :
    (record.tenantID == s.tenant && record.registryRevision == record.registryRevision &&
      record.commitment == record.commitment && record.routingEpoch == record.routingEpoch &&
      !record.envelopeID.isEmpty && !record.raw.isEmpty && 0 < record.commitRevision) = true := by
  have hid : record.envelopeID ≠ [] := h.id ▸ h.rooted.authentic.sound.id_ne_nil
  have hraw : record.raw ≠ [] := decodeStrictEnvelope_ne_nil h.rooted.authentic.decoded
  simp [h.tenant, h.committed, hid, hraw]

theorem verifyRegistryRecord_live (hlive : root.LiveAt instant) :
    (pinned s authority).verifyRegistryRecord record record.registryRevision record.commitment
      record.routingEpoch instant = .ok snapshot := by
  have hverify : s.trust.verify s.primitives record.raw instant = .ok snapshot :=
    (Trust.verify_eq_ok _ _ _ _ _).mpr ⟨root, h.rooted, hlive⟩
  have hheader := h.rooted.authentic.header
  have hchecks : (root.header.schema == .registry && root.header.id == record.envelopeID &&
      root.header.registryRevision == record.registryRevision &&
      root.header.routingEpoch == record.routingEpoch && snapshot.commitment == record.commitment &&
      snapshot.revision == record.registryRevision &&
      snapshot.routingEpoch == record.routingEpoch && !snapshot.expired instant &&
      snapshot.checkBinding record.registryRevision record.commitment) = true := by
    simp [Envelope.header, h.rooted.family, h.id, h.revision, h.epoch, h.commitment,
      h.snapshotRevision, h.snapshotEpoch, h.rooted.not_expired hlive, Snapshot.checkBinding]
  unfold AuthorityVerifier.verifyRegistryRecord pinned
  simp only [h.metadata, hverify, hheader, hchecks, ensure_true, ok_bind, Except.mapError]
  rfl

theorem verifyRegistryRecord_stale (hstale : ¬ root.LiveAt instant) :
    (pinned s authority).verifyRegistryRecord record record.registryRevision record.commitment
      record.routingEpoch instant = .error (permanent "invalid_registry_proof") := by
  cases hverify : s.trust.verify s.primitives record.raw instant with
  | ok =>
    -- the bytes have one reading, and it is not live
    obtain ⟨e, hrooted, hlive⟩ := (Trust.verify_eq_ok _ _ _ _ _).mp hverify
    rw [(h.rooted.unique hrooted).1] at hstale
    exact absurd hlive hstale
  | error =>
    unfold AuthorityVerifier.verifyRegistryRecord pinned
    simp only [h.metadata, hverify, ensure_true, ok_bind, Except.mapError, error_bind]

end

/-! ### The envelope at its emission -/

theorem liveAt_emission {e : Envelope} {now emitted : Time} (h : e.LiveAt now)
    (hemitted : parseTimestamp e.emittedAt = some emitted) : e.LiveAt emitted := by
  obtain ⟨emitted', expires, hemitted', hexpires, hpast, hfuture⟩ := h
  rw [hemitted] at hemitted'
  cases hemitted'
  exact ⟨emitted, expires, hemitted, hexpires, le_refl _, lt_of_le_of_lt hpast hfuture⟩

theorem verifyRegisteredEnvelope_emission {p : Primitives} {raw : Bytes} {snapshot : Snapshot}
    {usage : KeyUsage} {key : KeyRecord} {e : Envelope} {emitted : Time}
    (h : Registered p raw snapshot usage key e)
    (hemitted : parseTimestamp e.emittedAt = some emitted) (hlive : e.LiveAt emitted) :
    verifyRegisteredEnvelope p raw e.header snapshot usage emitted = .ok (key, e) := by
  have husable : key.usable emitted = true := by
    obtain ⟨emitted', hemitted', husable⟩ := h.emission
    rw [hemitted] at hemitted'
    cases hemitted'
    exact husable
  have hlisted : snapshot.key e.header.authorKeyID = some key := h.listed
  have hverify : p.verify raw [(e.header.authorKeyID, key.publicKey)] emitted = .ok e :=
    (Ssp.verify_eq_ok _ _ _ _ _).mpr ⟨h.authentic, hlive⟩
  unfold verifyRegisteredEnvelope
  simp only [hlisted, hverify, h.usage, husable, hemitted, orFail, ok_bind, Except.mapError,
    beq_self_eq_true, Bool.and_self, ensure_true]
  rfl

/-! ### Bodies -/

def VerifiedCaseBody.short (b : VerifiedCaseBody) : CaseBody :=
  ⟨b.domain, b.issuerEdgeID, b.issuerEdgeGeneration⟩

theorem decodeVerifiedCaseBody_eq {e : Envelope} {body : CaseBody} (hsound : e.Sound)
    (hfamily : e.schema = .case) (hbody : decodeCaseBody e.body = some body) :
    ∃ b, decodeVerifiedCaseBody e.body = some b ∧ b.short = body := by
  obtain ⟨ms, hms, hvalid⟩ := hsound.caseBody hfamily
  unfold validateCaseBody at hvalid
  simp only [bind_eq_ok] at hvalid
  obtain ⟨_, hexact, _, -, _, -, _, -, _, -, summary, hsummary, publicSummary, hpublic, manifest,
    hmanifest, -⟩ := hvalid
  have hmembers := requireExactMembers_ok hexact
  have hfield : ∀ name s, name ∈ caseBodyMembers →
      requiredString ms name (bodyLabel .case) = .ok s → fieldString ms name = some s :=
    fun name s hname h => requiredString_field hmembers caseBodyMembers_fold hname h
  have hfirst := hfield _ _ (by simp [caseBodyMembers]) hsummary
  have hsecond := hfield _ _ (by simp [caseBodyMembers]) hpublic
  have hthird := hfield _ _ (by simp [caseBodyMembers]) hmanifest
  unfold decodeCaseBody at hbody
  simp only [hms, structMembers, Option.bind_eq_bind, Option.bind_some,
    Option.bind_eq_some_iff] at hbody
  obtain ⟨domain, hdomain, edge, hedge, generation, hgeneration, hbody⟩ := hbody
  cases hbody
  refine ⟨⟨domain, edge, generation, summary, publicSummary, manifest⟩, ?_, rfl⟩
  unfold decodeVerifiedCaseBody
  simp only [hms, structMembers, hdomain, hedge, hgeneration, hfirst, hsecond, hthird,
    Option.bind_eq_bind, Option.bind_some]

theorem decodeVerifiedAdviceBody_eq {e : Envelope} {commitment : Bytes} (hsound : e.Sound)
    (hfamily : e.schema = .advice) (hbody : decodeCaseCommitment e.body = some commitment) :
    ∃ b, decodeVerifiedAdviceBody e.body = some b ∧ b.caseCommitment = commitment := by
  obtain ⟨ms, hms, hvalid⟩ := hsound.adviceBody hfamily
  unfold validateAdviceBody at hvalid
  simp only [bind_eq_ok] at hvalid
  obtain ⟨_, hexact, _, -, words, hwords, publicSummary, hpublic, -⟩ := hvalid
  have hmembers := requireExactMembers_ok hexact
  have hfield : ∀ name s, name ∈ adviceBodyMembers →
      requiredString ms name (bodyLabel .advice) = .ok s → fieldString ms name = some s :=
    fun name s hname h => requiredString_field hmembers adviceBodyMembers_fold hname h
  have hfirst := hfield _ _ (by simp [adviceBodyMembers]) hwords
  have hsecond := hfield _ _ (by simp [adviceBodyMembers]) hpublic
  unfold decodeCaseCommitment at hbody
  simp only [hms, structMembers, Option.bind_eq_bind, Option.bind_some] at hbody
  refine ⟨⟨commitment, words, publicSummary⟩, ?_, rfl⟩
  unfold decodeVerifiedAdviceBody
  simp only [hms, structMembers, hbody, hfirst, hsecond, Option.bind_eq_bind, Option.bind_some]

/-! ### Issuer and dispatcher -/

section
variable {workload : WorkloadIdentity} {snapshot : Snapshot} {authorKeyID domain : Bytes}
  {key : KeyRecord} {epoch : ℤ}

theorem authorizesIssuer_iff (body : VerifiedCaseBody) :
    authorizesIssuer snapshot authorKeyID key body epoch = true ↔
      ∃ edge principal route,
        IssuerGrant snapshot authorKeyID key body.short epoch edge principal route ∧
        body.issuerEdgeID ∈ principal.edgeIDs := by
  rw [Snapshot.looksUp_iff (b := authorizesIssuer ..) rfl]
  refine exists₃_congr fun edge principal route => ?_
  simp only [issuerGrant_iff, Bool.and_eq_true, beq_iff_eq, List.contains_iff_mem,
    VerifiedCaseBody.short]
  tauto

-- the one check admission leaves out, that the owner claims the edge, is the registry's own
theorem authorizesIssuer_of_grant {body : VerifiedCaseBody}
    {root : Envelope} {commitment : Bytes} (hroot : decodeRegistry root commitment = .ok snapshot)
    (h : authorizesCase snapshot workload authorKeyID key body.short epoch = true) :
    authorizesIssuer snapshot authorKeyID key body epoch = true := by
  obtain ⟨edge, principal, route, grant⟩ := authorizesCase_eq_true.mp h
  have hclaims := decodeRegistry_edge hroot grant.edgeListed grant.principalListed
  exact (authorizesIssuer_iff body).mpr
    ⟨edge, principal, route, grant.toIssuerGrant, List.contains_iff_mem.mp hclaims⟩

theorem authorizesDispatcher_iff :
    authorizesDispatcher snapshot authorKeyID key domain epoch = true ↔
      ∃ route principal,
        DispatcherGrant snapshot authorKeyID key domain epoch route principal := by
  rw [Snapshot.dispatches_iff (b := authorizesDispatcher ..) rfl]
  refine exists₂_congr fun route principal => ?_
  simp only [dispatcherGrant_iff, Bool.and_eq_true, beq_iff_eq, List.contains_iff_mem]
  tauto

theorem authorizesDispatcher_of_grant
    (h : authorizesAdvice snapshot workload authorKeyID key domain epoch = true) :
    authorizesDispatcher snapshot authorKeyID key domain epoch = true := by
  obtain ⟨route, principal, grant⟩ := authorizesAdvice_eq_true.mp h
  exact authorizesDispatcher_iff.mpr ⟨route, principal, grant.toDispatcherGrant⟩

end

end Snagline.Edge
