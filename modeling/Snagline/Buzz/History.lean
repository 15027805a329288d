import Snagline.Buzz.Roots
import Snagline.Edge.Lasting

/-!
# Verification of committed bytes (collab/buzz/authority_verifier.go)

The projector verifies a fact long after it was admitted, under the registry the fact
names and at the instants the bytes were signed for. No clock is read, so neither the
number of registries accepted since nor the expiry of anything matters. What admission
checked at its own clock has to imply every check made here.
-/

namespace Snagline.Buzz
open Kit Ssp Registry Authority Json Control

/-! ### The verifier -/

inductive CommittedError where
  | header (cause : Refusal)
  | unsupportedFamily
  | resolveRegistry (cause : ReadError)
  | registryTime
  | rootVerify (cause : RootError)
  | registryConflict
  | emissionTime
  | signer
  | verifyBytes (cause : VerifyError)
  | caseBody
  | caseAuthorization
  | adviceBody
  | resolveCase (cause : ReadError)
  | caseTime
  | caseEvidence
  | caseBinding
  | caseSigner
  | caseInvalid
  | caseDomain
  | adviceAuthorization

structure AuthorityVerifier where
  tenant : Bytes
  tenantNamed : blank tenant = false
  trust : Trust
  primitives : Primitives

def signedEmissionTime (raw : Bytes) : Option Time := do
  let ms ← structMembers (← unmarshal raw)
  parseTimestamp (← fieldString ms (text "emitted_at"))

def authorizesProjected (snapshot : Snapshot) (key : KeyRecord) (envelope : Envelope)
    (body : CaseBody) : Bool :=
  match snapshot.edge body.issuerEdgeID with
  | none => false
  | some edge =>
    match snapshot.principal edge.principalID, snapshot.domain body.domain with
    | some principal, some route =>
      0 < body.issuerEdgeGeneration && edge.generation == body.issuerEdgeGeneration &&
        key.principalID == edge.principalID && principal.sspKeyIDs.contains envelope.authorKeyID &&
        snapshot.authorizesCaseIssuerGeneration body.domain body.issuerEdgeID
          body.issuerEdgeGeneration &&
        route.families.contains Family.case.schema &&
        snapshot.machineAcceptableEpoch body.domain envelope.routingEpoch
    | _, _ => false

def authorizeProjectedCase (snapshot : Snapshot) (key : KeyRecord) (envelope : Envelope) :
    Except CommittedError Unit := do
  let body ← orFail (decodeCaseBody envelope.body) .caseBody
  ensure (authorizesProjected snapshot key envelope body) .caseAuthorization

namespace AuthorityVerifier

variable (v : AuthorityVerifier)

def resolveRegistry (header : EnvelopeHeader) (db : Database) :
    Except CommittedError Snapshot := do
  let record ← (Authority.resolveRegistry v.tenant header.registryRevision header.registryHash
    db).mapError .resolveRegistry
  let emittedAt ← orFail (signedEmissionTime record.raw) .registryTime
  let snapshot ← (v.trust.verify v.primitives record.raw emittedAt).mapError .rootVerify
  ensure (record.tenantID == v.tenant && record.registryRevision == header.registryRevision &&
    record.commitment == header.registryHash && record.commitment == snapshot.commitment &&
    record.routingEpoch == snapshot.routingEpoch && snapshot.revision == record.registryRevision &&
    snapshot.checkBinding header.registryRevision header.registryHash) .registryConflict
  pure snapshot

def bindsCase (record : CaseRow) (caseHeader : EnvelopeHeader) (envelope : Envelope) : Bool :=
  record.tenantID == v.tenant && record.caseID == envelope.caseID &&
    record.registryRevision == envelope.registryRevision &&
    record.registryHash == envelope.registryHash && record.routingEpoch == envelope.routingEpoch &&
    caseHeader.registryRevision == envelope.registryRevision &&
    caseHeader.registryHash == envelope.registryHash && caseHeader.routingEpoch == envelope.routingEpoch

def authorizeProjectedAdvice (snapshot : Snapshot) (key : KeyRecord) (envelope : Envelope)
    (db : Database) : Except CommittedError Unit := do
  let commitment ← orFail (decodeCaseCommitment envelope.body) .adviceBody
  ensure (commitment != []) .adviceBody
  let record ← (Authority.resolveCase v.tenant envelope.caseID commitment db).mapError .resolveCase
  let caseEmission ← orFail (signedEmissionTime record.raw) .caseTime
  let caseCommitment ← (v.primitives.envelopeCommitment record.raw caseEmission).mapError fun _ =>
    .caseEvidence
  ensure (caseCommitment == record.commitment) .caseEvidence
  let caseHeader ← (readHeader record.raw).mapError fun _ => .caseBinding
  ensure (v.bindsCase record caseHeader envelope) .caseBinding
  let caseKey ← orFail (snapshot.key caseHeader.authorKeyID) .caseSigner
  ensure (caseKey.usage == .edge && caseKey.usable caseEmission) .caseSigner
  let caseEnvelope ← (v.primitives.verify record.raw [(caseHeader.authorKeyID, caseKey.publicKey)]
    caseEmission).mapError fun _ => .caseInvalid
  (authorizeProjectedCase snapshot caseKey caseEnvelope).mapError fun _ => .caseInvalid
  let caseBody ← orFail (decodeCaseBody caseEnvelope.body) .caseDomain
  ensure (caseBody.domain == record.domain) .caseDomain
  ensure (Edge.authorizesDispatcher snapshot envelope.authorKeyID key caseBody.domain
    envelope.routingEpoch) .adviceAuthorization

def verifyCommitted (raw : Bytes) (db : Database) : Except CommittedError Envelope := do
  let header ← (readHeader raw).mapError .header
  ensure (header.schema == .case || header.schema == .advice) .unsupportedFamily
  let snapshot ← v.resolveRegistry header db
  let emittedAt ← orFail (signedEmissionTime raw) .emissionTime
  let key ← orFail (snapshot.key header.authorKeyID) .signer
  ensure (key.usage == (if header.schema = .advice then .advice else .edge) && key.usable emittedAt)
    .signer
  let envelope ← (v.primitives.verify raw [(header.authorKeyID, key.publicKey)]
    emittedAt).mapError .verifyBytes
  match envelope.schema with
  | .case => authorizeProjectedCase snapshot key envelope
  | .advice => v.authorizeProjectedAdvice snapshot key envelope db
  | .registry => pure ()
  pure envelope

end AuthorityVerifier

/-! ### Emission times -/

theorem caseMembers_fold : ∀ a ∈ envelopeCommonRequiredMembers ++ caseMembers,
    ∀ b ∈ envelopeCommonRequiredMembers ++ caseMembers, foldName a = foldName b → a = b := by
  decide +kernel

theorem requiredMembers_fold {family : Family} : ∀ a ∈ requiredMembers family,
    ∀ b ∈ requiredMembers family, foldName a = foldName b → a = b := by
  cases family with
  | registry =>
    intro a ha b hb
    exact caseMembers_fold a (List.mem_append_left _ ha) b (List.mem_append_left _ hb)
  | case | advice => exact caseMembers_fold

theorem signedEmissionTime_eq {raw : Bytes} {e : Envelope} (h : decodeStrictEnvelope raw = .ok e) :
    signedEmissionTime raw = parseTimestamp e.emittedAt := by
  unfold decodeStrictEnvelope at h
  simp only [bind_eq_ok] at h
  obtain ⟨_, -, ms, hms, schema, -, family, -, _, -, _, hexact, _, -, _, -, _, -, emittedAt, hemitted, _, -,
    _, -, _, -, _, -, _, -, _, -, he⟩ := h
  cases he
  have hfield := requiredString_field (requireExactMembers_ok hexact) requiredMembers_fold
    (List.mem_of_elem_eq_true (by cases family <;> decide +kernel)) hemitted
  unfold signedEmissionTime
  simp only [exactObject_ok hms, structMembers, Option.bind_eq_bind, Option.bind_some, hfield]

/-! ### Signatures at their emission -/

structure Attested (p : Primitives) (raw : Bytes) (key : KeyRecord) (e : Envelope) (emitted : Time) :
    Prop where
  time : signedEmissionTime raw = some emitted
  usable : key.usable emitted = true
  live : e.LiveAt emitted
  verified : p.verify raw [(e.authorKeyID, key.publicKey)] emitted = .ok e

theorem attested_of_registered {p : Primitives} {raw : Bytes} {snapshot : Snapshot}
    {usage : KeyUsage} {key : KeyRecord} {e : Envelope}
    (h : Registered p raw snapshot usage key e) (hlived : ∃ now, e.LiveAt now) :
    ∃ emitted, Attested p raw key e emitted := by
  obtain ⟨emitted, hemitted, husable⟩ := h.emission
  obtain ⟨now, hnow⟩ := hlived
  have hlive := Edge.liveAt_emission hnow hemitted
  exact ⟨emitted, (signedEmissionTime_eq h.authentic.decoded).trans hemitted, husable, hlive,
    (Ssp.verify_eq_ok _ _ _ _ _).mpr ⟨h.authentic, hlive⟩⟩

/-! ### The registry -/

def AuthorityVerifier.ofService (s : Service) : AuthorityVerifier :=
  ⟨s.tenant, s.tenantNamed, s.trust, s.primitives⟩

theorem resolveRegistry_history {s : Service} {header : EnvelopeHeader} {revision : ℤ}
    {hash : Bytes} {db : Database} {r : RegistryEvidence s revision hash db}
    (hnames : header.registryRevision = revision ∧ header.registryHash = hash)
    (hproof : Edge.RegistryProof s r.record r.root r.snapshot)
    (hlived : ∃ now, r.root.LiveAt now) :
    (AuthorityVerifier.ofService s).resolveRegistry header db = .ok r.snapshot := by
  obtain ⟨rfl, rfl⟩ := hnames
  obtain ⟨now, hnow⟩ := hlived
  obtain ⟨emitted, -, hemitted, -, -, -⟩ := id hnow
  have htime : signedEmissionTime r.record.raw = some emitted :=
    (signedEmissionTime_eq r.rooted.authentic.decoded).trans hemitted
  have hverify : s.trust.verify s.primitives r.record.raw emitted = .ok r.snapshot :=
    (Trust.verify_eq_ok _ _ _ _ _).mpr ⟨r.root, r.rooted, Edge.liveAt_emission hnow hemitted⟩
  obtain ⟨hkey, hcommitment⟩ := Edge.RegistryEvidence.record_key r
  have hrevision : r.record.registryRevision = header.registryRevision := congrArg Prod.snd hkey
  unfold AuthorityVerifier.resolveRegistry
  simp only [AuthorityVerifier.ofService, r.found, htime, hverify, Except.mapError, orFail, ok_bind]
  simp [hproof.tenant, hrevision, hcommitment, r.commitment, r.revision, r.epoch,
    Snapshot.checkBinding]

/-- What `verifyCommitted` checks of both families, before the authorization of its own. -/
theorem verifyCommitted_registered {s : Service} {raw : Bytes} {db : Database} {snapshot : Snapshot}
    {usage : KeyUsage} {key : KeyRecord} {e : Envelope}
    (hsigned : Registered s.primitives raw snapshot usage key e) (hlived : ∃ now, e.LiveAt now)
    (hregistry : (AuthorityVerifier.ofService s).resolveRegistry e.header db = .ok snapshot)
    (hfamily : e.schema = .case ∧ usage = .edge ∧ authorizeProjectedCase snapshot key e = .ok () ∨
      e.schema = .advice ∧ usage = .advice ∧
        (AuthorityVerifier.ofService s).authorizeProjectedAdvice snapshot key e db = .ok ()) :
    (AuthorityVerifier.ofService s).verifyCommitted raw db = .ok e := by
  obtain ⟨emitted, hattested⟩ := attested_of_registered hsigned hlived
  have hheader := hsigned.authentic.header
  have hkey : snapshot.key e.header.authorKeyID = some key := hsigned.listed
  have hverify : (AuthorityVerifier.ofService s).primitives.verify raw
      [(e.header.authorKeyID, key.publicKey)] emitted = .ok e := hattested.verified
  unfold AuthorityVerifier.verifyCommitted
  rcases hfamily with ⟨hschema, rfl, hauthorized⟩ | ⟨hschema, rfl, hauthorized⟩ <;>
  · have hsame : e.header.schema = e.schema := rfl
    simp only [hheader, hsame, hschema, hregistry, hattested.time, hkey, hattested.usable, hverify,
      hsigned.usage, hauthorized, Except.mapError, orFail, ok_bind]
    rfl

/-! ### Cases -/

section
variable {workload : WorkloadIdentity} {db : Database} {s : Service}

theorem authorizesProjected_iff {snapshot : Snapshot} {key : KeyRecord} (envelope : Envelope)
    (body : CaseBody) :
    authorizesProjected snapshot key envelope body = true ↔
      ∃ edge principal route,
        IssuerGrant snapshot envelope.authorKeyID key body envelope.routingEpoch edge principal
          route := by
  rw [Snapshot.looksUp_iff (b := authorizesProjected ..) rfl]
  refine exists₃_congr fun edge principal route => ?_
  have hpositive := @IssuerGrant.positive snapshot envelope.authorKeyID key body
    envelope.routingEpoch edge principal route
  simp only [issuerGrant_iff, Bool.and_eq_true, beq_iff_eq, decide_eq_true_eq,
    List.contains_iff_mem] at hpositive ⊢
  tauto

-- admission asks for the workload on top of what the projector asks for
theorem authorizeProjectedCase_history
    {raw : Bytes} (ev : CaseEvidence s workload raw db) :
    authorizeProjectedCase ev.registry.snapshot ev.key ev.envelope = .ok () := by
  obtain ⟨edge, principal, route, grant⟩ := authorizesCase_eq_true.mp ev.checked.authorized
  have hauthorized := (authorizesProjected_iff ev.envelope ev.body).mpr
    ⟨edge, principal, route, grant.toIssuerGrant⟩
  unfold authorizeProjectedCase
  simp only [ev.checked.decoded, hauthorized, orFail, ok_bind, ensure_true]

theorem verifyCommitted_case
    {row : CaseRow}
    {ev : CaseEvidence s workload row.raw db} (h : Edge.CaseProof ev) (hlived : ∃ now, ev.registry.root.LiveAt now) :
    (AuthorityVerifier.ofService s).verifyCommitted row.raw db = .ok ev.envelope :=
  verifyCommitted_registered ev.checked.signed h.lived
    (resolveRegistry_history ⟨rfl, rfl⟩ h.registry hlived)
    (.inl ⟨ev.checked.family, rfl, authorizeProjectedCase_history ev⟩)

end

/-! ### Advice -/

theorem resolveCase_commitment {tenantID caseID commitment : Bytes} {db : Database}
    {row : CaseRow} (h : Authority.resolveCase tenantID caseID commitment db = .ok row) :
    commitment ≠ [] := by
  unfold Authority.resolveCase at h
  obtain ⟨hvalid, -⟩ := ensure_bind_eq_ok.mp h
  simp only [Bool.and_eq_true] at hvalid
  exact ne_nil_of_validCommitment hvalid.2

section
variable {s : Service} {workload : WorkloadIdentity} {row : AdviceRow}
  {db : Database} {ev : AdviceEvidence s workload row.raw db}
  (h : Edge.AdviceProof ev)
include h

theorem bindsCase_history :
    (AuthorityVerifier.ofService s).bindsCase ev.fact ev.case.header ev.envelope = true := by
  obtain ⟨issuer, caseEv, hcase, henvelope, -⟩ := h.case
  have hkey := (resolveCase_ok ev.caseChecked.found).2.1
  have htenant : ev.fact.tenantID = s.tenant := congrArg Prod.fst hkey
  have hcaseID : ev.fact.caseID = ev.envelope.caseID := congrArg Prod.snd hkey
  have hcaseRevision : ev.case.header.registryRevision = ev.envelope.registryRevision :=
    ev.caseChecked.revision
  have hcaseHash : ev.case.header.registryHash = ev.envelope.registryHash := ev.caseChecked.hash
  have hcaseEpoch : ev.case.header.routingEpoch = ev.envelope.routingEpoch := ev.caseChecked.epoch
  have hrevision : ev.fact.registryRevision = ev.envelope.registryRevision :=
    (congrArg CaseRow.registryRevision hcase.committed).trans
      ((congrArg Envelope.registryRevision henvelope).trans hcaseRevision)
  have hhash : ev.fact.registryHash = ev.envelope.registryHash :=
    (congrArg CaseRow.registryHash hcase.committed).trans
      ((congrArg Envelope.registryHash henvelope).trans hcaseHash)
  have hepoch : ev.fact.routingEpoch = ev.envelope.routingEpoch :=
    (congrArg CaseRow.routingEpoch hcase.committed).trans
      ((congrArg Envelope.routingEpoch henvelope).trans hcaseEpoch)
  unfold AuthorityVerifier.bindsCase
  simp [AuthorityVerifier.ofService, htenant, hcaseID, hrevision, hhash, hepoch, hcaseRevision,
    hcaseHash, hcaseEpoch]

theorem authorizeProjectedAdvice_history :
    (AuthorityVerifier.ofService s).authorizeProjectedAdvice ev.registry.snapshot ev.key ev.envelope
      db = .ok () := by
  obtain ⟨issuer, caseEv, hcase, henvelope, hbody, hrecord, -⟩ := h.case
  obtain ⟨emitted, hattested⟩ := attested_of_registered ev.caseChecked.signed
    (henvelope ▸ hcase.lived)
  have hnonempty : (ev.fact.commitment != []) = true :=
    bne_iff_ne.mpr (resolveCase_commitment ev.caseChecked.found)
  have hheader := ev.caseChecked.signed.authentic.header
  have hcommitment : s.primitives.envelopeCommitment ev.fact.raw emitted = .ok ev.fact.commitment :=
    envelopeCommitment_eq_ok.mpr ⟨⟨ev.case, ev.caseChecked.signed.authentic.decoded,
      ev.caseChecked.signed.authentic.sound, hattested.live⟩, ev.caseChecked.committed⟩
  have hkey : ev.registry.snapshot.key ev.case.header.authorKeyID = some ev.caseKey :=
    ev.caseChecked.signed.listed
  have hverify : s.primitives.verify ev.fact.raw
      [(ev.case.header.authorKeyID, ev.caseKey.publicKey)] emitted = .ok ev.case :=
    hattested.verified
  -- the case was admitted under the registry of the advice, by the key found again here
  have hprojected : authorizeProjectedCase ev.registry.snapshot ev.caseKey ev.case = .ok () := by
    have hrooted := caseEv.registry.rooted
    rw [hrecord] at hrooted
    have hsnapshot := (hrooted.unique ev.registry.rooted).2
    have hsigned := caseEv.checked.signed
    rw [hsnapshot, henvelope] at hsigned
    rw [← hsnapshot, ← henvelope, ← hsigned.key_unique ev.caseChecked.signed]
    exact authorizeProjectedCase_history caseEv
  have hdispatcher := Edge.authorizesDispatcher_of_grant ev.checked.authorized
  rw [← ev.caseChecked.domain] at hdispatcher
  have hbinds : (AuthorityVerifier.ofService s).bindsCase ev.fact ev.case.header ev.envelope =
      true := bindsCase_history h
  unfold AuthorityVerifier.authorizeProjectedAdvice
  simp only [ev.checked.binds, hnonempty, AuthorityVerifier.ofService, ev.caseChecked.found,
    hattested.time, hcommitment, hheader, hkey, ev.caseChecked.signed.usage, hattested.usable, hverify,
    hprojected, ev.caseChecked.decoded, Except.mapError, orFail, ok_bind, ensure_true,
    beq_self_eq_true, Bool.and_self] at hbinds ⊢
  simp only [hbinds, ev.caseChecked.domain, beq_self_eq_true, ensure_true, ok_bind]
  rw [← ev.caseChecked.domain, hdispatcher]
  rfl

theorem verifyCommitted_advice (hlived : ∃ now, ev.registry.root.LiveAt now) :
    (AuthorityVerifier.ofService s).verifyCommitted row.raw db = .ok ev.envelope :=
  verifyCommitted_registered ev.checked.signed h.lived
    (resolveRegistry_history ⟨rfl, rfl⟩ h.registry hlived)
    (.inr ⟨ev.checked.family, rfl, authorizeProjectedAdvice_history h⟩)

end

/-! ### Every run -/

/-- Whatever the service ever committed verifies in every later state of the authority, and
what comes back is the strict reading of the committed bytes, under the recorded name. -/
theorem history_verifies (d : Deployment) (events later : List Control.Event) :
    let db := (d.run {} events).db
    let verify := fun raw =>
      (AuthorityVerifier.ofService d.service).verifyCommitted raw (d.run {} (events ++ later)).db
    (∀ row ∈ db.cases, ∃ e, verify row.raw = .ok e ∧ Verified row.raw e ∧
      e.schema = .case ∧ e.id = row.envelopeID ∧ e.caseID = row.caseID) ∧
    (∀ row ∈ db.advice, ∃ e, verify row.raw = .ok e ∧ Verified row.raw e ∧
      e.schema = .advice ∧ e.id = row.envelopeID ∧ e.caseID = row.caseID) := by
  intro db verify
  have hrun := run_accounted d events
  have hgrows := d.run_later events later
  constructor
  · intro row hrow
    cases hrun.cases row hrow with
    | intro workload clock made ev current valid committed =>
      have hproof := Edge.caseProof_of_run hrun hrow current valid committed
      have hauthentic := ev.checked.signed.authentic
      exact ⟨ev.envelope,
        verifyCommitted_case (hproof.later hgrows) ⟨_, current.registry.live⟩,
        ⟨hauthentic.decoded, hauthentic.sound⟩, ev.checked.family,
        (congrArg CaseRow.envelopeID committed).symm,
        (congrArg CaseRow.caseID committed).symm⟩
  · intro row hrow
    cases hrun.advice row hrow with
    | intro workload clock made ev current valid committed =>
      have hproof := Edge.adviceProof_of_run hrun hrow current committed
      have hauthentic := ev.checked.signed.authentic
      exact ⟨ev.envelope,
        verifyCommitted_advice (hproof.later hgrows) ⟨_, current.registry.live⟩,
        ⟨hauthentic.decoded, hauthentic.sound⟩, ev.checked.family,
        (congrArg AdviceRow.envelopeID committed).symm,
        (congrArg AdviceRow.caseID committed).symm⟩

example :
    let raw := Control.Sample.case "2026-01-01T00:00:06Z"
    ((AuthorityVerifier.ofService Control.Sample.service).verifyCommitted raw
      (Control.Sample.deployment.run {} (Control.Sample.events raw)).db).isOk = true := by
  decide +kernel

end Snagline.Buzz
