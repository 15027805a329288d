import Snagline.Edge.Evidence

/-!
# Deliveries of committed rows

The verifier's outcome on the authority's own delivery of a committed case or
advice, for any authority that answers the reads. Every check passes but two: the
registry must be live at the emission of the envelope, and the case must come
back from its read.
-/

namespace Snagline.Edge
open Kit Json Ssp Registry Control Authority

/-! ### Committed cases -/

section
variable {db : Authority.Database} {past : List Control.Event} {s : Service} {revision : ℤ}

theorem registryProof_of_evidence {hash : Bytes} {r : RegistryEvidence s revision hash db}
    (horigin : RegistryOrigin s past r.record) (hpos : 0 < r.record.commitRevision) :
    RegistryProof s r.record r.root r.snapshot := by
  obtain ⟨root, snapshot, hproof⟩ := registryProof_of_origin horigin hpos
  obtain ⟨hroot, hsnapshot⟩ := hproof.rooted.unique r.rooted
  subst hroot hsnapshot
  exact hproof

/-- The row of a case, the evidence it was admitted with, and the registry row
that evidence rests on. -/
structure CaseProof {s : Service} {workload : WorkloadIdentity} {row : Authority.CaseRow}
    {db : Authority.Database} (ev : CaseEvidence s workload row.raw db) : Prop where
  committed : row = ev.request.row row.commitRevision
  valid : ev.request.validate = .ok ()
  lived : ∃ now, ev.envelope.LiveAt now
  registry : RegistryProof s ev.registry.record ev.registry.root ev.registry.snapshot
  epoch : ev.registry.record.routingEpoch = ev.envelope.routingEpoch
  positive : 0 < row.commitRevision

theorem RegistryEvidence.record_key {hash : Bytes} (r : RegistryEvidence s revision hash db) :
    r.record.key = (s.tenant, revision) ∧ r.record.commitment = hash :=
  (resolveRegistry_ok r.found).2

theorem record_unique {revision revision' : ℤ} {hash hash' : Bytes}
    (r : RegistryEvidence s revision hash db)
    (r' : RegistryEvidence s revision' hash' db) (hrevision : revision = revision')
    (hhash : hash = hash') : r.record = r'.record := by
  subst hrevision hhash
  rw [r.unique r']

theorem caseProof_of_run {d : Deployment} {st : Control.State}
    (h : Accounted d past st) {row : Authority.CaseRow} (hrow : row ∈ st.db.cases)
    {workload : WorkloadIdentity} {clock : Clock} {ev : CaseEvidence d.service workload row.raw st.db}
    (hcurrent : ev.Current clock) (hvalid : ev.request.validate = .ok ())
    (hcommitted : row = ev.request.row row.commitRevision) : CaseProof ev := by
  have hbacked := h.backed
  have hmem := (resolveRegistry_ok ev.registry.found).1
  obtain ⟨r, hr, hkey, -, hepoch⟩ := hbacked.cases row hrow
  -- the registry row that backs the case is the one the evidence found
  have htenant : row.tenantID = d.service.tenant := congrArg Authority.CaseRow.tenantID hcommitted
  have hrevision : row.registryRevision = ev.envelope.registryRevision :=
    congrArg Authority.CaseRow.registryRevision hcommitted
  have hsame : r = ev.registry.record := by
    apply hbacked.oneRegistry.eq_of_key hr hmem
    rw [hkey, htenant, hrevision]
    exact (RegistryEvidence.record_key ev.registry).1.symm
  rw [hsame] at hepoch
  refine ⟨hcommitted, hvalid, ⟨_, hcurrent.commitment⟩, ?_, ?_, h.settled.2.caseRevision row hrow⟩
  · exact registryProof_of_evidence (h.registries _ hmem) (hbacked.registryRevision _ hmem)
  · exact hepoch.trans (congrArg Authority.CaseRow.routingEpoch hcommitted)

structure Carried (j : JournalDelivery) (d : Authority.DeliveryRow) : Prop where
  identity : j.identity = d.log
  sequence : j.deliverySeq = d.deliverySequence
  raw : j.raw = d.raw

structure NamesRegistry (header : EnvelopeHeader) (record : RegistryRow) : Prop where
  revision : header.registryRevision = record.registryRevision
  hash : header.registryHash = record.commitment
  epoch : header.routingEpoch = record.routingEpoch

end

section
variable {s : Service} {record : RegistryRow} {root : Envelope} {snapshot : Snapshot}
  (hproof : RegistryProof s record root snapshot) {header : EnvelopeHeader}
  (hnames : NamesRegistry header record) {authority : ProjectionAuthority}
  (hread : authority.resolveRegistry s.tenant header.registryRevision header.registryHash =
    .ok record) {instant : Time}
include hproof hnames hread

theorem resolveRegistry_live (hlive : root.LiveAt instant) :
    (pinned s authority).resolveRegistry header instant = .ok (record, snapshot) := by
  have hverify := verifyRegistryRecord_live hproof authority hlive
  rw [← hnames.revision, ← hnames.hash, ← hnames.epoch] at hverify
  have hread' : (pinned s authority).authority.resolveRegistry (pinned s authority).tenant
      header.registryRevision header.registryHash = .ok record := hread
  unfold AuthorityVerifier.resolveRegistry
  simp only [hread', hverify, Except.mapError, ok_bind]
  rfl

theorem resolveRegistry_stale (hstale : ¬ root.LiveAt instant) :
    (pinned s authority).resolveRegistry header instant =
      .error (permanent "invalid_registry_proof") := by
  have hverify := verifyRegistryRecord_stale hproof authority hstale
  rw [← hnames.revision, ← hnames.hash, ← hnames.epoch] at hverify
  have hread' : (pinned s authority).authority.resolveRegistry (pinned s authority).tenant
      header.registryRevision header.registryHash = .ok record := hread
  unfold AuthorityVerifier.resolveRegistry
  simp only [hread', hverify, Except.mapError, ok_bind, error_bind]

end

section
variable {s : Service} {authority : ProjectionAuthority} {caseID commitment : Bytes}

theorem resolveCase_found {row : Authority.CaseRow}
    (h : authority.resolveCase caseID commitment = .ok row) :
    (pinned s authority).resolveCase caseID commitment = .ok row := by
  unfold AuthorityVerifier.resolveCase pinned
  rw [h]
  rfl

theorem resolveCase_waiting (h : authority.resolveCase caseID commitment = .error .unavailable) :
    (pinned s authority).resolveCase caseID commitment = .error .transient := by
  unfold AuthorityVerifier.resolveCase pinned
  rw [h]
  rfl

end

theorem CaseProof.names {s : Service} {workload : WorkloadIdentity} {row : Authority.CaseRow}
    {db : Authority.Database} {ev : CaseEvidence s workload row.raw db} (h : CaseProof ev) :
    NamesRegistry ev.envelope.header ev.registry.record where
  revision := (congrArg Prod.snd (RegistryEvidence.record_key ev.registry).1).symm
  hash := (RegistryEvidence.record_key ev.registry).2.symm
  epoch := h.epoch.symm

/-! ### The delivery of a case -/

section
variable {s : Service} {workload : WorkloadIdentity} {row : Authority.CaseRow}
  {db : Authority.Database} {ev : CaseEvidence s workload row.raw db} (h : CaseProof ev)
include h

theorem CaseProof.authorizeCase_ok :
    ∃ body, decodeVerifiedCaseBody ev.envelope.body = some body ∧ body.short = ev.body ∧
      authorizeCase ev.registry.snapshot ev.envelope.header ev.key ev.envelope = .ok body := by
  have hsound := ev.checked.signed.authentic.sound
  obtain ⟨body, hdecode, hshort⟩ :=
    decodeVerifiedCaseBody_eq hsound ev.checked.family ev.checked.decoded
  have hauthorized := ev.checked.authorized
  rw [← hshort] at hauthorized
  have hissuer := authorizesIssuer_of_grant h.registry.rooted.decoded hauthorized
  have hissuer' : authorizesIssuer ev.registry.snapshot ev.envelope.header.authorKeyID ev.key body
      ev.envelope.routingEpoch = true := hissuer
  refine ⟨body, hdecode, hshort, ?_⟩
  unfold authorizeCase
  simp only [hdecode, hissuer', orFail, ok_bind, ensure_true]
  rfl

theorem CaseProof.record_matches {body : VerifiedCaseBody} (hbody : body.short = ev.body) :
    validateAuthorityCaseRecord row s.tenant ev.envelope body row.commitment row.raw ev.expiresAt =
      .ok () := by
  have hdomain : body.domain = ev.body.domain := congrArg CaseBody.domain hbody
  have hedge : body.issuerEdgeID = ev.body.issuerEdgeID := congrArg CaseBody.issuerEdgeID hbody
  have hgeneration : body.issuerEdgeGeneration = ev.body.issuerEdgeGeneration :=
    congrArg CaseBody.issuerEdgeGeneration hbody
  -- the expiry survived the column
  have hexpiry : row.expiresAt = ev.expiresAt := by
    have hmicros : WholeMicros ev.expiresAt :=
      parseTimestamp_micros ev.checked.expiry
    exact (congrArg Authority.CaseRow.expiresAt h.committed).trans
      ((timestamptz_eq_self _).mpr hmicros)
  have htenant : row.tenantID = s.tenant := congrArg Authority.CaseRow.tenantID h.committed
  have hcase : row.caseID = ev.envelope.caseID := congrArg Authority.CaseRow.caseID h.committed
  have hid : row.envelopeID = ev.envelope.id := congrArg Authority.CaseRow.envelopeID h.committed
  have hrowDomain : row.domain = ev.body.domain := congrArg Authority.CaseRow.domain h.committed
  have hrowEdge : row.issuerEdgeID = ev.body.issuerEdgeID :=
    congrArg Authority.CaseRow.issuerEdgeID h.committed
  have hrowGeneration : row.issuerEdgeGeneration = ev.body.issuerEdgeGeneration :=
    congrArg Authority.CaseRow.issuerEdgeGeneration h.committed
  have hepoch : row.routingEpoch = ev.envelope.routingEpoch :=
    congrArg Authority.CaseRow.routingEpoch h.committed
  have hrevision : row.registryRevision = ev.envelope.registryRevision :=
    congrArg Authority.CaseRow.registryRevision h.committed
  have hhash : row.registryHash = ev.envelope.registryHash :=
    congrArg Authority.CaseRow.registryHash h.committed
  unfold validateAuthorityCaseRecord
  simp [htenant, hcase, hid, hrowDomain, hdomain, hrowEdge, hedge, hrowGeneration, hgeneration,
    hepoch, hrevision, hhash, hexpiry, h.positive]

variable {emitted : Time} (hemitted : parseTimestamp ev.envelope.emittedAt = some emitted)
include hemitted

section
variable (authority : ProjectionAuthority) {j : JournalDelivery} {n : ℤ}

theorem CaseProof.live_at_emission : ev.envelope.LiveAt emitted := by
  obtain ⟨now, hnow⟩ := h.lived
  exact liveAt_emission hnow hemitted

theorem CaseProof.commitment_at_emission :
    s.primitives.envelopeCommitment row.raw emitted = .ok row.commitment := by
  have hcommitment : row.commitment = ev.commitment :=
    congrArg Authority.CaseRow.commitment h.committed
  rw [hcommitment]
  exact envelopeCommitment_eq_ok.mpr
    ⟨⟨ev.envelope, ev.checked.signed.authentic.decoded, ev.checked.signed.authentic.sound,
      h.live_at_emission hemitted⟩, ev.checked.committed⟩

theorem CaseProof.content_eq {authority : ProjectionAuthority}
    (hj : Carried j ((Authority.Fact.case row).delivery n)) :
    (pinned s authority).content j ((Authority.Fact.case row).delivery n).delivery =
      ((pinned s authority).resolveRegistry ev.envelope.header emitted >>= fun r =>
        (pinned s authority).verifyCaseDelivery j ev.envelope.header row.commitment r.2
          emitted) := by
  have hraw : j.raw = row.raw := hj.raw
  have hheader := ev.checked.signed.authentic.header
  have hschema : ev.envelope.header.schema = .case := ev.checked.family
  have hemit : parseTimestamp ev.envelope.header.emittedAt = some emitted := hemitted
  have hcommitment : (pinned s authority).primitives.envelopeCommitment row.raw emitted =
      .ok row.commitment := h.commitment_at_emission hemitted
  have hcase : row.caseID = ev.envelope.header.caseID :=
    congrArg Authority.CaseRow.caseID h.committed
  have hid : row.envelopeID = ev.envelope.header.id :=
    congrArg Authority.CaseRow.envelopeID h.committed
  unfold AuthorityVerifier.content
  simp only [hraw, hheader, hschema, hemit, hcommitment, Except.mapError, ok_bind, orFail,
    Authority.Fact.delivery, Authority.DeliveryRow.delivery, AuthorityVerifier.deliveryKind, hcase,
    hid, h.positive, bne, beq_self_eq_true, Bool.and_self, decide_true, ensure_true]
  rfl

theorem CaseProof.verifyCaseDelivery_eq (hj : Carried j ((Authority.Fact.case row).delivery n)) :
    ∃ body, decodeVerifiedCaseBody ev.envelope.body = some body ∧ body.short = ev.body ∧
      (pinned s authority).verifyCaseDelivery j ev.envelope.header row.commitment
        ev.registry.snapshot emitted =
      ((pinned s authority).resolveCase row.caseID row.commitment >>= fun record => do
        validateAuthorityCaseRecord record s.tenant ev.envelope body row.commitment row.raw
          ev.expiresAt
        pure (caseProjection s.primitives.sha256 ev.envelope body row.commitment ev.expiresAt)) := by
  obtain ⟨body, hdecode, hshort, hauthorized⟩ := h.authorizeCase_ok
  refine ⟨body, hdecode, hshort, ?_⟩
  have hraw : j.raw = row.raw := hj.raw
  have hsigned := verifyRegisteredEnvelope_emission ev.checked.signed hemitted
    (h.live_at_emission hemitted)
  have hedge : body.issuerEdgeID = j.edgeID := by
    have hlog : j.edgeID = row.issuerEdgeID := congrArg (fun k => k.2.1) hj.identity
    rw [hlog, congrArg Authority.CaseRow.issuerEdgeID h.committed]
    exact congrArg CaseBody.issuerEdgeID hshort
  have hgeneration : body.issuerEdgeGeneration = j.edgeGeneration := by
    have hlog : j.edgeGeneration = row.issuerEdgeGeneration :=
      congrArg (fun k => k.2.2) hj.identity
    rw [hlog, congrArg Authority.CaseRow.issuerEdgeGeneration h.committed]
    exact congrArg CaseBody.issuerEdgeGeneration hshort
  have hcase : ev.envelope.caseID = row.caseID :=
    (congrArg Authority.CaseRow.caseID h.committed).symm
  unfold AuthorityVerifier.verifyCaseDelivery
  simp only [pinned, hraw, hsigned, hauthorized, ok_bind, ev.checked.family, hedge, hgeneration,
    hcase, ev.checked.expiry, beq_self_eq_true, Bool.and_self, ensure_true, orFail]

theorem CaseProof.verifyCommittedCase_live
    (hlive : ev.registry.root.LiveAt emitted) :
    ∃ body, body.short = ev.body ∧
      (pinned s authority).verifyCommittedCase row ev.registry.record =
        .ok (ev.envelope, body) := by
  obtain ⟨body, -, hshort, hauthorized⟩ := h.authorizeCase_ok
  refine ⟨body, hshort, ?_⟩
  have hheader := ev.checked.signed.authentic.header
  have hschema : ev.envelope.header.schema = .case := ev.checked.family
  have hemit : parseTimestamp ev.envelope.header.emittedAt = some emitted := hemitted
  have hregistry := verifyRegistryRecord_live h.registry authority hlive
  rw [← h.names.revision, ← h.names.hash, ← h.names.epoch] at hregistry
  have hsigned : verifyRegisteredEnvelope (pinned s authority).primitives row.raw ev.envelope.header
      ev.registry.snapshot .edge emitted = .ok (ev.key, ev.envelope) :=
    verifyRegisteredEnvelope_emission ev.checked.signed hemitted (h.live_at_emission hemitted)
  have hcommitment : (pinned s authority).primitives.envelopeCommitment row.raw emitted =
      .ok row.commitment := h.commitment_at_emission hemitted
  have hmatches : validateAuthorityCaseRecord row (pinned s authority).tenant ev.envelope body
      row.commitment row.raw ev.expiresAt = .ok () := h.record_matches hshort
  unfold AuthorityVerifier.verifyCommittedCase
  simp only [hheader, hschema, hemit, hregistry, hsigned, hauthorized, hcommitment, hmatches,
    ev.checked.expiry, Except.mapError, orFail, ok_bind, beq_self_eq_true, ensure_true]
  rfl

theorem CaseProof.verifyCommittedCase_stale
    (hstale : ¬ ev.registry.root.LiveAt emitted) :
    (pinned s authority).verifyCommittedCase row ev.registry.record =
      .error (permanent "invalid_registry_proof") := by
  have hheader := ev.checked.signed.authentic.header
  have hschema : ev.envelope.header.schema = .case := ev.checked.family
  have hemit : parseTimestamp ev.envelope.header.emittedAt = some emitted := hemitted
  have hregistry := verifyRegistryRecord_stale h.registry authority hstale
  rw [← h.names.revision, ← h.names.hash, ← h.names.epoch] at hregistry
  unfold AuthorityVerifier.verifyCommittedCase
  simp only [hheader, hschema, hemit, hregistry, Except.mapError, orFail, ok_bind, error_bind,
    beq_self_eq_true, ensure_true]

end

variable {authority : ProjectionAuthority}
  (hread : authority.resolveRegistry s.tenant ev.envelope.registryRevision
    ev.envelope.registryHash = .ok ev.registry.record)
  {j : JournalDelivery} {n : ℤ} (hj : Carried j ((Authority.Fact.case row).delivery n))
include hread hj

theorem CaseProof.content_stale (hstale : ¬ ev.registry.root.LiveAt emitted) :
    (pinned s authority).content j ((Authority.Fact.case row).delivery n).delivery =
      .error (permanent "invalid_registry_proof") := by
  rw [h.content_eq hemitted hj, resolveRegistry_stale h.registry h.names hread hstale]
  rfl

theorem CaseProof.content_accepted (hlive : ev.registry.root.LiveAt emitted)
    (hcase : authority.resolveCase row.caseID row.commitment = .ok row) :
    ∃ body, decodeVerifiedCaseBody ev.envelope.body = some body ∧ body.short = ev.body ∧
      (pinned s authority).content j ((Authority.Fact.case row).delivery n).delivery =
        .ok (caseProjection s.primitives.sha256 ev.envelope body row.commitment ev.expiresAt) := by
  obtain ⟨body, hdecode, hshort, hverify⟩ := h.verifyCaseDelivery_eq hemitted authority hj
  have hresolve := resolveCase_found (s := s) hcase
  refine ⟨body, hdecode, hshort, ?_⟩
  rw [h.content_eq hemitted hj, resolveRegistry_live h.registry h.names hread hlive, ok_bind,
    hverify, hresolve, ok_bind, h.record_matches hshort]
  rfl

theorem CaseProof.content_waiting (hlive : ev.registry.root.LiveAt emitted)
    (hcase : authority.resolveCase row.caseID row.commitment = .error .unavailable) :
    (pinned s authority).content j ((Authority.Fact.case row).delivery n).delivery =
      .error .transient := by
  obtain ⟨body, -, -, hverify⟩ := h.verifyCaseDelivery_eq hemitted authority hj
  have hresolve := resolveCase_waiting (s := s) hcase
  rw [h.content_eq hemitted hj, resolveRegistry_live h.registry h.names hread hlive, ok_bind,
    hverify, hresolve]
  rfl

end

/-! ### Committed advice -/

structure AdviceProof {s : Service} {workload : WorkloadIdentity} {row : Authority.AdviceRow}
    {db : Authority.Database} (ev : AdviceEvidence s workload row.raw db) : Prop where
  committed : row = ev.request.row ev.fact row.deliverySequence row.commitRevision
  lived : ∃ now, ev.envelope.LiveAt now
  registry : RegistryProof s ev.registry.record ev.registry.root ev.registry.snapshot
  epoch : ev.registry.record.routingEpoch = ev.envelope.routingEpoch
  positive : 0 < row.commitRevision
  case : ∃ issuer, ∃ caseEv : CaseEvidence s issuer ev.fact.raw db,
    CaseProof caseEv ∧ caseEv.envelope = ev.case ∧ caseEv.body = ev.caseBody ∧
      caseEv.registry.record = ev.registry.record ∧ caseEv.registry.root = ev.registry.root

theorem adviceProof_of_run {d : Deployment} {past : List Control.Event} {st : Control.State}
    (h : Accounted d past st) {row : Authority.AdviceRow} (hrow : row ∈ st.db.advice)
    {workload : WorkloadIdentity} {clock : Clock}
    {ev : AdviceEvidence d.service workload row.raw st.db} (hcurrent : ev.Current clock)
    (hcommitted : row = ev.request.row ev.fact row.deliverySequence row.commitRevision) :
    AdviceProof ev := by
  obtain ⟨hfact, -, -⟩ := resolveCase_ok ev.caseChecked.found
  have hmem := (resolveRegistry_ok ev.registry.found).1
  have hproof := registryProof_of_evidence (h.registries _ hmem)
    (h.backed.registryRevision _ hmem)
  cases h.cases ev.fact hfact with
  | intro issuer clock' made caseEv current valid committed =>
    have hcase := caseProof_of_run h hfact current valid committed
    have henvelope : caseEv.envelope = ev.case :=
      Except.ok.inj (caseEv.checked.signed.authentic.decoded.symm.trans
        ev.caseChecked.signed.authentic.decoded)
    have hbody : caseEv.body = ev.caseBody := by
      have hdecoded := caseEv.checked.decoded
      rw [henvelope, ev.caseChecked.decoded] at hdecoded
      exact (Option.some.inj hdecoded).symm
    -- the case names the registry the advice names
    have hrevision : caseEv.envelope.registryRevision = ev.envelope.registryRevision := by
      rw [henvelope]
      exact ev.caseChecked.revision
    have hhash : caseEv.envelope.registryHash = ev.envelope.registryHash := by
      rw [henvelope]
      exact ev.caseChecked.hash
    have hrecord := record_unique caseEv.registry ev.registry hrevision hhash
    have hroot : caseEv.registry.root = ev.registry.root := by
      have hrooted := caseEv.registry.rooted
      rw [hrecord] at hrooted
      exact (hrooted.unique ev.registry.rooted).1
    have hepoch : ev.registry.record.routingEpoch = ev.envelope.routingEpoch := by
      have hcaseEpoch := hcase.epoch
      rw [hrecord, henvelope] at hcaseEpoch
      exact hcaseEpoch.trans ev.caseChecked.epoch
    exact ⟨hcommitted, ⟨_, hcurrent.commitment⟩, hproof, hepoch,
      h.settled.2.adviceRevision row hrow, issuer, caseEv, hcase, henvelope, hbody, hrecord, hroot⟩

section
variable {s : Service} {workload : WorkloadIdentity} {row : Authority.AdviceRow}
  {db : Authority.Database} {ev : AdviceEvidence s workload row.raw db} (h : AdviceProof ev)
include h

theorem AdviceProof.names : NamesRegistry ev.envelope.header ev.registry.record where
  revision := (congrArg Prod.snd (RegistryEvidence.record_key ev.registry).1).symm
  hash := (RegistryEvidence.record_key ev.registry).2.symm
  epoch := h.epoch.symm

variable {emitted : Time} (hemitted : parseTimestamp ev.envelope.emittedAt = some emitted)
include hemitted

theorem AdviceProof.live_at_emission : ev.envelope.LiveAt emitted := by
  obtain ⟨now, hnow⟩ := h.lived
  exact liveAt_emission hnow hemitted

theorem AdviceProof.content_eq {authority : ProjectionAuthority} {j : JournalDelivery} {n : ℤ}
    (hj : Carried j ((Authority.Fact.advice row).delivery n)) :
    (pinned s authority).content j ((Authority.Fact.advice row).delivery n).delivery =
      ((pinned s authority).resolveRegistry ev.envelope.header emitted >>= fun r =>
        (pinned s authority).verifyAdviceDelivery j ev.envelope.header row.commitment r.1 r.2
          emitted) := by
  have hraw : j.raw = row.raw := hj.raw
  have hheader := ev.checked.signed.authentic.header
  have hschema : ev.envelope.header.schema = .advice := ev.checked.family
  have hemit : parseTimestamp ev.envelope.header.emittedAt = some emitted := hemitted
  have hcommitment : (pinned s authority).primitives.envelopeCommitment row.raw emitted =
      .ok row.commitment := by
    have hrow : row.commitment = ev.commitment :=
      congrArg Authority.AdviceRow.commitment h.committed
    rw [hrow]
    exact envelopeCommitment_eq_ok.mpr
      ⟨⟨ev.envelope, ev.checked.signed.authentic.decoded, ev.checked.signed.authentic.sound,
        h.live_at_emission hemitted⟩, ev.checked.committed⟩
  have hcase : row.caseID = ev.envelope.header.caseID :=
    congrArg Authority.AdviceRow.caseID h.committed
  have hid : row.envelopeID = ev.envelope.header.id :=
    congrArg Authority.AdviceRow.envelopeID h.committed
  unfold AuthorityVerifier.content
  simp only [hraw, hheader, hschema, hemit, hcommitment, Except.mapError, ok_bind, orFail,
    Authority.Fact.delivery, Authority.DeliveryRow.delivery, AuthorityVerifier.deliveryKind, hcase,
    hid, h.positive, bne, beq_self_eq_true, Bool.and_self, decide_true, ensure_true]
  rfl

theorem AdviceProof.verifyAdviceDelivery_eq (authority : ProjectionAuthority) {j : JournalDelivery}
    {n : ℤ} (hj : Carried j ((Authority.Fact.advice row).delivery n)) :
    ∃ body, decodeVerifiedAdviceBody ev.envelope.body = some body ∧
      body.caseCommitment = row.caseCommitment ∧
      (pinned s authority).verifyAdviceDelivery j ev.envelope.header row.commitment
        ev.registry.record ev.registry.snapshot emitted =
      ((pinned s authority).resolveCase row.caseID row.caseCommitment >>= fun record => do
        let (caseEnvelope, caseBody) ← (pinned s authority).verifyCommittedCase record
          ev.registry.record
        ensure (authorizesDispatcher ev.registry.snapshot ev.envelope.authorKeyID ev.key
          caseBody.domain ev.envelope.routingEpoch) (permanent "unauthorized_advice")
        ensure (bindsExactly ev.envelope body record caseEnvelope j)
          (permanent "advice_case_binding_mismatch")
        let expiresAt ← orFail (parseTimestamp ev.envelope.expiresAt)
          (permanent "invalid_advice_expiry")
        pure (adviceProjection s.primitives.sha256 ev.envelope body record row.commitment
          expiresAt)) := by
  have hsound := ev.checked.signed.authentic.sound
  obtain ⟨body, hdecode, hbinds⟩ :=
    decodeVerifiedAdviceBody_eq hsound ev.checked.family ev.checked.binds
  have hcommitment : row.caseCommitment = ev.fact.commitment :=
    congrArg Authority.AdviceRow.caseCommitment h.committed
  refine ⟨body, hdecode, hbinds.trans hcommitment.symm, ?_⟩
  have hraw : j.raw = row.raw := hj.raw
  have hsigned := verifyRegisteredEnvelope_emission ev.checked.signed hemitted
    (h.live_at_emission hemitted)
  have hcase : ev.envelope.caseID = row.caseID :=
    (congrArg Authority.AdviceRow.caseID h.committed).symm
  have hname : body.caseCommitment = row.caseCommitment := hbinds.trans hcommitment.symm
  unfold AuthorityVerifier.verifyAdviceDelivery
  simp only [pinned, hraw, hsigned, ok_bind, ev.checked.family, hdecode, hcase, hname,
    beq_self_eq_true, ensure_true, orFail]
  rfl

variable {authority : ProjectionAuthority}
  (hread : authority.resolveRegistry s.tenant ev.envelope.registryRevision
    ev.envelope.registryHash = .ok ev.registry.record)
  {j : JournalDelivery} {n : ℤ} (hj : Carried j ((Authority.Fact.advice row).delivery n))
include hread hj

theorem AdviceProof.content_stale (hstale : ¬ ev.registry.root.LiveAt emitted) :
    (pinned s authority).content j ((Authority.Fact.advice row).delivery n).delivery =
      .error (permanent "invalid_registry_proof") := by
  rw [h.content_eq hemitted hj, resolveRegistry_stale h.registry h.names hread hstale]
  rfl

theorem AdviceProof.content_waiting (hlive : ev.registry.root.LiveAt emitted)
    (hcase : authority.resolveCase row.caseID row.caseCommitment = .error .unavailable) :
    (pinned s authority).content j ((Authority.Fact.advice row).delivery n).delivery =
      .error .transient := by
  obtain ⟨body, -, -, hverify⟩ := h.verifyAdviceDelivery_eq hemitted authority hj
  have hresolve := resolveCase_waiting (s := s) hcase
  rw [h.content_eq hemitted hj, resolveRegistry_live h.registry h.names hread hlive, ok_bind,
    hverify, hresolve]
  rfl

variable (hlive : ev.registry.root.LiveAt emitted)
  (hcase : authority.resolveCase row.caseID row.caseCommitment = .ok ev.fact)
  {caseEmitted : Time} (hcaseEmitted : parseTimestamp ev.case.emittedAt = some caseEmitted)
include hlive hcase hcaseEmitted

-- the case is verified against the same registry row, at its own emission
theorem AdviceProof.content_unproved (hstale : ¬ ev.registry.root.LiveAt caseEmitted) :
    (pinned s authority).content j ((Authority.Fact.advice row).delivery n).delivery =
      .error (permanent "invalid_registry_proof") := by
  obtain ⟨body, -, -, hverify⟩ := h.verifyAdviceDelivery_eq hemitted authority hj
  obtain ⟨issuer, caseEv, hproof, henvelope, -, hrecord, hroot⟩ := h.case
  have hresolve := resolveCase_found (s := s) hcase
  have hcommitted : (pinned s authority).verifyCommittedCase ev.fact ev.registry.record =
      .error (permanent "invalid_registry_proof") := by
    have hemission : parseTimestamp caseEv.envelope.emittedAt = some caseEmitted := by
      rw [henvelope]
      exact hcaseEmitted
    rw [← hroot] at hstale
    rw [← hrecord]
    exact hproof.verifyCommittedCase_stale hemission authority hstale
  rw [h.content_eq hemitted hj, resolveRegistry_live h.registry h.names hread hlive, ok_bind,
    hverify, hresolve, ok_bind, hcommitted]
  rfl

theorem AdviceProof.content_accepted (hcaseLive : ev.registry.root.LiveAt caseEmitted) :
    ∃ body expiresAt, decodeVerifiedAdviceBody ev.envelope.body = some body ∧
      body.caseCommitment = row.caseCommitment ∧
      parseTimestamp ev.envelope.expiresAt = some expiresAt ∧
      (pinned s authority).content j ((Authority.Fact.advice row).delivery n).delivery =
        .ok (adviceProjection s.primitives.sha256 ev.envelope body ev.fact row.commitment
          expiresAt) := by
  obtain ⟨body, hdecode, hname, hverify⟩ := h.verifyAdviceDelivery_eq hemitted authority hj
  obtain ⟨issuer, caseEv, hproof, henvelope, hcaseBody, hrecord, hroot⟩ := h.case
  obtain ⟨_, expires, -, hexpires, -, -⟩ := h.live_at_emission hemitted
  refine ⟨body, expires, hdecode, hname, hexpires, ?_⟩
  have hresolve := resolveCase_found (s := s) hcase
  obtain ⟨caseBody, hshort, hcommitted⟩ :
      ∃ caseBody : VerifiedCaseBody, caseBody.short = ev.caseBody ∧
        (pinned s authority).verifyCommittedCase ev.fact ev.registry.record =
          .ok (ev.case, caseBody) := by
    have hemission : parseTimestamp caseEv.envelope.emittedAt = some caseEmitted := by
      rw [henvelope]
      exact hcaseEmitted
    rw [← hroot] at hcaseLive
    rw [← hrecord, ← henvelope, ← hcaseBody]
    exact hproof.verifyCommittedCase_live hemission authority hcaseLive
  have hdomain : caseBody.domain = ev.fact.domain :=
    (congrArg CaseBody.domain hshort).trans ev.caseChecked.domain
  have hdispatcher : authorizesDispatcher ev.registry.snapshot ev.envelope.authorKeyID ev.key
      caseBody.domain ev.envelope.routingEpoch = true := by
    rw [hdomain]
    exact authorizesDispatcher_of_grant ev.checked.authorized
  have hexact : bindsExactly ev.envelope body ev.fact ev.case j = true := by
    have hcommitment : row.caseCommitment = ev.fact.commitment :=
      congrArg Authority.AdviceRow.caseCommitment h.committed
    have hcaseID : ev.fact.caseID = ev.envelope.caseID :=
      congrArg Prod.snd (resolveCase_ok ev.caseChecked.found).2.1
    have hepoch : ev.fact.routingEpoch = ev.envelope.routingEpoch :=
      (congrArg Authority.CaseRow.routingEpoch hproof.committed).trans
        ((congrArg Envelope.routingEpoch henvelope).trans ev.caseChecked.epoch)
    have hrevision : ev.fact.registryRevision = ev.envelope.registryRevision :=
      (congrArg Authority.CaseRow.registryRevision hproof.committed).trans
        ((congrArg Envelope.registryRevision henvelope).trans ev.caseChecked.revision)
    have hhash : ev.fact.registryHash = ev.envelope.registryHash :=
      (congrArg Authority.CaseRow.registryHash hproof.committed).trans
        ((congrArg Envelope.registryHash henvelope).trans ev.caseChecked.hash)
    have hedge : j.edgeID = ev.fact.issuerEdgeID :=
      (congrArg (fun k => k.2.1) hj.identity).trans
        (congrArg Authority.AdviceRow.targetEdgeID h.committed)
    have hgeneration : j.edgeGeneration = ev.fact.issuerEdgeGeneration :=
      (congrArg (fun k => k.2.2) hj.identity).trans
        (congrArg Authority.AdviceRow.targetEdgeGeneration h.committed)
    unfold bindsExactly
    simp [hname, hcommitment, hcaseID, hepoch, hrevision, hhash, hedge, hgeneration,
      ev.caseChecked.caseID]
  rw [h.content_eq hemitted hj, resolveRegistry_live h.registry h.names hread hlive, ok_bind,
    hverify, hresolve, ok_bind, hcommitted]
  simp only [ok_bind, hdispatcher, hexact, hexpires, ensure_true, orFail]
  rfl

end

end Snagline.Edge
