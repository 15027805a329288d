import Snagline.Control.Service

/-!
# What a successful admission says

Each function of the service is split into the evidence it finds, which the
bytes and the tables determine, and the moment it is found at. Evidence is a
structure that carries the checks it passed; `Current` says that the clock of
the call falls where they want it.
-/

namespace Snagline.Control
open Kit Ssp Registry Authority

theorem readHeader_eq_ok {raw : Bytes} {header : EnvelopeHeader} :
    readHeader raw = .ok header ↔ ∃ e, decodeStrictEnvelope raw = .ok e ∧ header = e.header := by
  unfold readHeader
  rw [bind_eq_ok]
  constructor
  · rintro ⟨e, hdecode, h⟩
    cases h
    exact ⟨e, hdecode, rfl⟩
  · rintro ⟨e, hdecode, rfl⟩
    exact ⟨e, hdecode, rfl⟩

/-! ### A registered signature -/

/-- The envelope is signed by a key the snapshot lists, and which was usable
when it was emitted. -/
structure Registered (p : Primitives) (raw : Bytes) (snapshot : Snapshot) (usage : KeyUsage)
    (key : KeyRecord) (e : Envelope) : Prop where
  listed : snapshot.key e.authorKeyID = some key
  usage : key.usage = usage
  authentic : p.Authentic raw [(e.authorKeyID, key.publicKey)] e
  emission : ∃ emitted, parseTimestamp e.emittedAt = some emitted ∧ key.usable emitted = true

structure SignatureCurrent (key : KeyRecord) (e : Envelope) (now : Time) : Prop where
  usable : key.usable now = true
  live : e.LiveAt now

theorem verifyRegisteredEnvelope_eq_ok {p : Primitives} {raw : Bytes} {e : Envelope}
    (hdecode : decodeStrictEnvelope raw = .ok e) (snapshot : Snapshot) (usage : KeyUsage)
    (now : Time) (key : KeyRecord) (e' : Envelope) :
    verifyRegisteredEnvelope p raw e.header snapshot usage now = .ok (key, e') ↔
      e' = e ∧ Registered p raw snapshot usage key e ∧ SignatureCurrent key e now := by
  unfold verifyRegisteredEnvelope
  simp only [bind_eq_ok, orFail_eq_ok, ensure_eq_ok, mapError_eq_ok, verify_eq_ok,
    Bool.and_eq_true, beq_iff_eq]
  constructor
  · rintro ⟨key', hlisted, _, ⟨husage, husable⟩, e'', ⟨hauthentic, hlive⟩, emitted, hemitted, _,
      hearly, h⟩
    have hsame : e'' = e := by
      have hd := hauthentic.decoded
      rw [hdecode] at hd
      exact (Except.ok.inj hd).symm
    subst hsame
    cases h
    exact ⟨rfl, ⟨hlisted, husage, hauthentic, emitted, hemitted, hearly⟩, husable, hlive⟩
  · rintro ⟨rfl, ⟨hlisted, husage, hauthentic, emitted, hemitted, hearly⟩, husable, hlive⟩
    exact ⟨key, hlisted, (), ⟨husage, husable⟩, e', ⟨hauthentic, hlive⟩, emitted, hemitted, (),
      hearly, rfl⟩

theorem Registered.key_unique {p : Primitives} {raw : Bytes} {snapshot : Snapshot}
    {usage : KeyUsage} {key key' : KeyRecord} {e : Envelope}
    (h : Registered p raw snapshot usage key e) (h' : Registered p raw snapshot usage key' e) :
    key = key' := by
  have hlisted := h.listed
  rw [h'.listed] at hlisted
  exact (Option.some.inj hlisted).symm

/-! ### The bound registry -/

variable (s : Service)

structure RegistryEvidence (revision : ℤ) (hash : Bytes) (db : Database) where
  record : RegistryRow
  root : Envelope
  snapshot : Snapshot
  found : Authority.resolveRegistry s.tenant revision hash db = .ok record
  rooted : s.trust.Rooted s.primitives record.raw root snapshot
  commitment : snapshot.commitment = hash
  revision : snapshot.revision = revision
  epoch : snapshot.routingEpoch = record.routingEpoch

structure RegistryEvidence.Current {s : Service} {revision : ℤ} {hash : Bytes} {db : Database}
    (r : RegistryEvidence s revision hash db) (clock : Clock) : Prop where
  live : r.root.LiveAt (clock 0)
  unexpired : r.snapshot.expired (clock 1) = false

theorem Service.resolveRegistry_eq_ok (header : EnvelopeHeader) (clock : Clock) (db : Database)
    (snapshot : Snapshot) : s.resolveRegistry header clock db = .ok snapshot ↔
    ∃ r : RegistryEvidence s header.registryRevision header.registryHash db,
        r.Current clock ∧ snapshot = r.snapshot := by
  unfold Service.resolveRegistry
  simp only [bind_eq_ok, mapError_eq_ok, Trust.verify_eq_ok, ensure_eq_ok, Bool.and_eq_true,
    beq_iff_eq, Bool.not_eq_true', Snapshot.checkBinding]
  constructor
  · rintro ⟨record, hfound, snapshot', ⟨root, hrooted, hlive⟩, _,
      ⟨⟨⟨⟨⟨⟨-, -⟩, -⟩, -⟩, hepoch⟩, hunexpired⟩, hrevision, hhash⟩, h⟩
    cases h
    exact ⟨⟨record, root, snapshot, hfound, hrooted, hhash.symm, hrevision.symm, hepoch⟩,
      ⟨hlive, hunexpired⟩, rfl⟩
  · rintro ⟨r, hcurrent, rfl⟩
    obtain ⟨-, hkey, hcommitment⟩ := resolveRegistry_ok r.found
    have hrow : r.record.registryRevision = header.registryRevision := congrArg Prod.snd hkey
    exact ⟨r.record, r.found, r.snapshot, ⟨r.root, r.rooted, hcurrent.live⟩, (),
      ⟨⟨⟨⟨⟨⟨hrow, hcommitment⟩, r.commitment.trans hcommitment.symm⟩,
        r.revision.trans hrow.symm⟩, r.epoch⟩, hcurrent.unexpired⟩,
        r.revision.symm, r.commitment.symm⟩, rfl⟩

/-! ### Admission of a case -/

variable (workload : WorkloadIdentity) (raw : Bytes)

/-- What `submitCase` checks under a snapshot, apart from the clock. -/
structure CaseChecked (snapshot : Snapshot) (key : KeyRecord) (e : Envelope) (body : CaseBody)
    (commitment : Bytes) (expiresAt : Time) : Prop where
  family : e.schema = .case
  signed : Registered s.primitives raw snapshot .edge key e
  owned : key.principalID ≠ []
  decoded : decodeCaseBody e.body = some body
  authorized : authorizesCase snapshot workload e.authorKeyID key body e.routingEpoch = true
  committed : s.primitives.commitmentOf raw = .ok commitment
  expiry : parseTimestamp e.expiresAt = some expiresAt

def Service.caseRequest (e : Envelope) (body : CaseBody) (commitment : Bytes) (expiresAt : Time) :
    CommitCaseRequest :=
  ⟨s.tenant, e.caseID, e.id, commitment, raw, body.domain, body.issuerEdgeID,
    body.issuerEdgeGeneration, e.routingEpoch, e.registryRevision, e.registryHash, expiresAt,
    workload.principalID, workload.edgeID, text "verified_case_admission"⟩

theorem Service.submitCase_eq_ok {raw : Bytes} {e : Envelope}
    (hdecode : decodeStrictEnvelope raw = .ok e) (s : Service) (workload : WorkloadIdentity)
    (snapshot : Snapshot) (clock : Clock) (call : Call) :
    s.submitCase workload raw e.header snapshot clock = .ok call ↔
      ∃ key body commitment expiresAt,
        CaseChecked s workload raw snapshot key e body commitment expiresAt ∧
        SignatureCurrent key e (clock 2) ∧ e.LiveAt (clock 3) ∧
        call = .case (s.caseRequest workload raw e body commitment expiresAt) := by
  unfold Service.submitCase
  simp only [bind_eq_ok, orFail_eq_ok, ensure_eq_ok, mapError_eq_ok, Prod.exists, beq_iff_eq,
    bne_iff_ne, ne_eq, verifyRegisteredEnvelope_eq_ok hdecode, envelopeCommitment_eq_ok]
  constructor
  · rintro ⟨key, _, ⟨rfl, hsigned, hcurrent⟩, _, hfamily, _, howned, body, hbody, _, hauthorized,
      commitment, ⟨⟨e', hdecode', -, hlive⟩, hcommitted⟩, expiresAt, hexpiry, h⟩
    rw [hdecode] at hdecode'
    cases hdecode'
    cases h
    exact ⟨key, body, commitment, expiresAt,
      ⟨hfamily, hsigned, howned, hbody, hauthorized, hcommitted, hexpiry⟩, hcurrent, hlive, rfl⟩
  · rintro ⟨key, body, commitment, expiresAt, h, hcurrent, hlive, rfl⟩
    exact ⟨key, e, ⟨rfl, h.signed, hcurrent⟩, (), h.family, (), h.owned, body, h.decoded, (),
      h.authorized, commitment,
      ⟨⟨e, hdecode, h.signed.authentic.sound, hlive⟩, h.committed⟩, expiresAt, h.expiry, rfl⟩

structure CaseEvidence (db : Database) where
  envelope : Envelope
  registry : RegistryEvidence s envelope.registryRevision envelope.registryHash db
  key : KeyRecord
  body : CaseBody
  commitment : Bytes
  expiresAt : Time
  checked : CaseChecked s workload raw registry.snapshot key envelope body commitment expiresAt

namespace CaseEvidence

variable {s : Service} {workload : WorkloadIdentity} {raw : Bytes} {db : Database}

def request (ev : CaseEvidence s workload raw db) : CommitCaseRequest :=
  s.caseRequest workload raw ev.envelope ev.body ev.commitment ev.expiresAt

structure Current (ev : CaseEvidence s workload raw db) (clock : Clock) : Prop where
  registry : ev.registry.Current clock
  signature : SignatureCurrent ev.key ev.envelope (clock 2)
  commitment : ev.envelope.LiveAt (clock 3)

end CaseEvidence

/-! ### The committed case of an advice -/

/-- What `findCommittedCase` checks, apart from the clock, for a caller that
binds the given revision, hash and epoch. -/
structure CommittedChecked (caseID commitment : Bytes) (header : EnvelopeHeader)
    (snapshot : Snapshot) (db : Database) (fact : CaseRow) (key : KeyRecord) (e : Envelope)
    (body : CaseBody) : Prop where
  found : Authority.resolveCase s.tenant caseID commitment db = .ok fact
  revision : e.registryRevision = header.registryRevision
  hash : e.registryHash = header.registryHash
  epoch : e.routingEpoch = header.routingEpoch
  family : e.schema = .case
  signed : Registered s.primitives fact.raw snapshot .edge key e
  owned : key.principalID ≠ []
  committed : s.primitives.commitmentOf fact.raw = .ok fact.commitment
  decoded : decodeCaseBody e.body = some body
  caseID : e.caseID = caseID
  named : body.domain ≠ []
  domain : body.domain = fact.domain

structure CommittedCurrent (key : KeyRecord) (e : Envelope) (clock : Clock) : Prop where
  signature : SignatureCurrent key e (clock 2)
  commitment : e.LiveAt (clock 3)

theorem Service.findCommittedCase_eq_ok (caseID commitment : Bytes) (header : EnvelopeHeader)
    (snapshot : Snapshot) (clock : Clock) (db : Database) (fact : CaseRow) :
    s.findCommittedCase caseID commitment header snapshot clock db = .ok fact ↔
      ∃ key e body, CommittedChecked s caseID commitment header snapshot db fact key e body ∧
        CommittedCurrent key e clock := by
  unfold Service.findCommittedCase
  simp only [bind_eq_ok, orFail_eq_ok, ensure_eq_ok, mapError_eq_ok, readHeader_eq_ok,
    Bool.and_eq_true, beq_iff_eq, bne_iff_ne, ne_eq, envelopeCommitment_eq_ok]
  constructor
  · rintro ⟨row, hfound, _, ⟨e, hdecode, rfl⟩, _, ⟨⟨hrevision, hhash⟩, hepoch⟩, ⟨key, e'⟩, hverify,
      _, ⟨hfamily, howned⟩, actual, ⟨⟨e'', hdecode', -, hlive⟩, hcommitted⟩, _, hactual, body, hbody,
      _, ⟨⟨hcase, hnamed⟩, hdomain⟩, h⟩
    obtain ⟨rfl, hsigned, hcurrent⟩ := (verifyRegisteredEnvelope_eq_ok hdecode _ _ _ _ _).mp hverify
    rw [hdecode] at hdecode'
    cases hdecode'
    cases h
    exact ⟨key, e', body, ⟨hfound, hrevision, hhash, hepoch, hfamily, hsigned, howned,
      hactual ▸ hcommitted, hbody, hcase, hnamed, hdomain⟩, hcurrent, hlive⟩
  · rintro ⟨key, e, body, h, hcurrent⟩
    have hdecode := h.signed.authentic.decoded
    exact ⟨fact, h.found, e.header, ⟨e, hdecode, rfl⟩, (), ⟨⟨h.revision, h.hash⟩, h.epoch⟩, (key, e),
      (verifyRegisteredEnvelope_eq_ok hdecode _ _ _ _ _).mpr ⟨rfl, h.signed, hcurrent.signature⟩,
      (), ⟨h.family, h.owned⟩, fact.commitment,
      ⟨⟨e, hdecode, h.signed.authentic.sound, hcurrent.commitment⟩, h.committed⟩, (), rfl, body,
      h.decoded, (), ⟨⟨h.caseID, h.named⟩, h.domain⟩, rfl⟩

/-! ### Admission of an advice -/

/-- What `submitAdvice` checks under a snapshot, apart from the clock. -/
structure AdviceChecked (snapshot : Snapshot) (fact : CaseRow) (key : KeyRecord) (e : Envelope)
    (commitment : Bytes) : Prop where
  family : e.schema = .advice
  signed : Registered s.primitives raw snapshot .advice key e
  owned : key.principalID ≠ []
  binds : decodeCaseCommitment e.body = some fact.commitment
  authorized : authorizesAdvice snapshot workload e.authorKeyID key fact.domain
    e.routingEpoch = true
  committed : s.primitives.commitmentOf raw = .ok commitment

def Service.adviceRequest (e : Envelope) (fact : CaseRow) (commitment : Bytes) :
    CommitAdviceRequest :=
  ⟨s.tenant, e.caseID, e.id, fact.commitment, commitment, raw, e.routingEpoch, e.registryRevision,
    e.registryHash, workload.principalID, [], text "verified_advice_admission"⟩

theorem Service.submitAdvice_eq_ok {raw : Bytes} {e : Envelope}
    (hdecode : decodeStrictEnvelope raw = .ok e) (s : Service) (workload : WorkloadIdentity)
    (snapshot : Snapshot) (clock : Clock) (db : Database) (call : Call) :
    s.submitAdvice workload raw e.header snapshot clock db = .ok call ↔
      ∃ fact caseKey case body key commitment,
        CommittedChecked s e.caseID fact.commitment e.header snapshot db fact caseKey case body ∧
        CommittedCurrent caseKey case clock ∧
        AdviceChecked s workload raw snapshot fact key e commitment ∧
        SignatureCurrent key e (clock 4) ∧ e.LiveAt (clock 5) ∧
        call = .advice (s.adviceRequest workload raw e fact commitment) := by
  unfold Service.submitAdvice
  simp only [bind_eq_ok, orFail_eq_ok, ensure_eq_ok, mapError_eq_ok, Prod.exists, beq_iff_eq,
    bne_iff_ne, ne_eq, verifyRegisteredEnvelope_eq_ok hdecode, envelopeCommitment_eq_ok,
    Service.findCommittedCase_eq_ok]
  constructor
  · rintro ⟨u, hu, hint, hhint, fact, ⟨caseKey, case, body, hfact, hcaseCurrent⟩, key, _,
      ⟨rfl, hsigned, hcurrent⟩, _, hfamily, _, howned, _, hauthorized, bound, hbound, _, hbinds,
      commitment, ⟨⟨e', hdecode', -, hlive⟩, hcommitted⟩, h⟩
    rw [hdecode] at hu hdecode'
    cases hu
    cases hdecode'
    cases h
    have hsame : hint = bound := by
      rw [hhint] at hbound
      exact Option.some.inj hbound
    subst hsame
    subst hbinds
    exact ⟨fact, caseKey, case, body, key, commitment, hfact, hcaseCurrent,
      ⟨hfamily, hsigned, howned, hbound, hauthorized, hcommitted⟩, hcurrent, hlive, rfl⟩
  · rintro ⟨fact, caseKey, case, body, key, commitment, hfact, hcaseCurrent, h, hcurrent, hlive, rfl⟩
    exact ⟨e, hdecode, fact.commitment, h.binds, fact, ⟨caseKey, case, body, hfact, hcaseCurrent⟩,
      key, e, ⟨rfl, h.signed, hcurrent⟩, (), h.family, (), h.owned, (), h.authorized,
      fact.commitment, h.binds, (), rfl, commitment,
      ⟨⟨e, hdecode, h.signed.authentic.sound, hlive⟩, h.committed⟩, rfl⟩

structure AdviceEvidence (db : Database) where
  envelope : Envelope
  registry : RegistryEvidence s envelope.registryRevision envelope.registryHash db
  fact : CaseRow
  caseKey : KeyRecord
  case : Envelope
  caseBody : CaseBody
  key : KeyRecord
  commitment : Bytes
  caseChecked : CommittedChecked s envelope.caseID fact.commitment envelope.header
    registry.snapshot db fact caseKey case caseBody
  checked : AdviceChecked s workload raw registry.snapshot fact key envelope commitment

namespace AdviceEvidence

variable {s : Service} {workload : WorkloadIdentity} {raw : Bytes} {db : Database}

def request (ev : AdviceEvidence s workload raw db) : CommitAdviceRequest :=
  s.adviceRequest workload raw ev.envelope ev.fact ev.commitment

structure Current (ev : AdviceEvidence s workload raw db) (clock : Clock) : Prop where
  registry : ev.registry.Current clock
  case : CommittedCurrent ev.caseKey ev.case clock
  signature : SignatureCurrent ev.key ev.envelope (clock 4)
  commitment : ev.envelope.LiveAt (clock 5)

end AdviceEvidence

/-! ### Submit -/

theorem Service.submit_eq_ok (clock : Clock) (db : Database) (call : Call) :
    s.submit workload raw clock db = .ok call ↔
    (∃ ev : CaseEvidence s workload raw db, ev.Current clock ∧ call = .case ev.request) ∨
      (∃ ev : AdviceEvidence s workload raw db, ev.Current clock ∧ call = .advice ev.request) := by
  unfold Service.submit
  simp only [bind_eq_ok, ensure_eq_ok, mapError_eq_ok, readHeader_eq_ok,
    Service.resolveRegistry_eq_ok, bne_iff_ne, ne_eq]
  constructor
  · rintro ⟨_, ⟨e, hdecode, rfl⟩, _, hfamily, _, ⟨r, hr, rfl⟩, h⟩
    cases hschema : e.schema with
    | registry => exact absurd hschema hfamily
    | case =>
      simp only [Envelope.header, hschema] at h
      obtain ⟨key, body, commitment, expiresAt, hchecked, hcurrent, hlive, rfl⟩ :=
        (Service.submitCase_eq_ok hdecode s workload r.snapshot clock call).mp h
      exact Or.inl ⟨⟨e, r, key, body, commitment, expiresAt, hchecked⟩, ⟨hr, hcurrent, hlive⟩, rfl⟩
    | advice =>
      simp only [Envelope.header, hschema] at h
      obtain ⟨fact, caseKey, case, body, key, commitment, hfact, hcase, hchecked, hcurrent, hlive,
        rfl⟩ := (Service.submitAdvice_eq_ok hdecode s workload r.snapshot clock db call).mp h
      exact Or.inr ⟨⟨e, r, fact, caseKey, case, body, key, commitment, hfact, hchecked⟩,
        ⟨hr, hcase, hcurrent, hlive⟩, rfl⟩
  · rintro (⟨ev, hcurrent, rfl⟩ | ⟨ev, hcurrent, rfl⟩)
    · have hdecode := ev.checked.signed.authentic.decoded
      have hschema := ev.checked.family
      refine ⟨ev.envelope.header, ⟨ev.envelope, hdecode, rfl⟩, (), ?_, ev.registry.snapshot,
        ⟨ev.registry, hcurrent.registry, rfl⟩, ?_⟩
      · simp [Envelope.header, hschema]
      · simp only [Envelope.header, hschema]
        exact (Service.submitCase_eq_ok hdecode s workload ev.registry.snapshot clock _).mpr
          ⟨ev.key, ev.body, ev.commitment, ev.expiresAt, ev.checked, hcurrent.signature,
            hcurrent.commitment, rfl⟩
    · have hdecode := ev.checked.signed.authentic.decoded
      have hschema := ev.checked.family
      refine ⟨ev.envelope.header, ⟨ev.envelope, hdecode, rfl⟩, (), ?_, ev.registry.snapshot,
        ⟨ev.registry, hcurrent.registry, rfl⟩, ?_⟩
      · simp [Envelope.header, hschema]
      · simp only [Envelope.header, hschema]
        exact (Service.submitAdvice_eq_ok hdecode s workload ev.registry.snapshot clock db _).mpr
          ⟨ev.fact, ev.caseKey, ev.case, ev.caseBody, ev.key, ev.commitment, ev.caseChecked,
            hcurrent.case, ev.checked, hcurrent.signature, hcurrent.commitment, rfl⟩

/-! ### Evidence is unique

The bytes and the tables determine it, so a later call that finds evidence finds
the same. -/

section
variable {db : Database} {workload : WorkloadIdentity} {s : Service} {raw : Bytes}

theorem RegistryEvidence.unique {revision : ℤ} {hash : Bytes}
    (r r' : RegistryEvidence s revision hash db) : r = r' := by
  obtain ⟨record, root, snapshot, found, rooted, -, -, -⟩ := r
  obtain ⟨record', root', snapshot', found', rooted', -, -, -⟩ := r'
  have hrecord : record = record' := Except.ok.inj (found.symm.trans found')
  subst hrecord
  obtain ⟨rfl, rfl⟩ := rooted.unique rooted'
  rfl

theorem CaseEvidence.unique (ev ev' : CaseEvidence s workload raw db) : ev = ev' := by
  obtain ⟨e, registry, key, body, commitment, expiresAt, h⟩ := ev
  obtain ⟨e', registry', key', body', commitment', expiresAt', h'⟩ := ev'
  have he : e = e' :=
    Except.ok.inj (h.signed.authentic.decoded.symm.trans h'.signed.authentic.decoded)
  subst he
  have hregistry : registry = registry' := registry.unique registry'
  subst hregistry
  have hkey : key = key' := h.signed.key_unique h'.signed
  have hbody : body = body' := Option.some.inj (h.decoded.symm.trans h'.decoded)
  have hcommitment : commitment = commitment' :=
    Except.ok.inj (h.committed.symm.trans h'.committed)
  have hexpiry : expiresAt = expiresAt' := Option.some.inj (h.expiry.symm.trans h'.expiry)
  subst hkey hbody hcommitment hexpiry
  rfl

theorem AdviceEvidence.unique (ev ev' : AdviceEvidence s workload raw db) : ev = ev' := by
  obtain ⟨e, registry, fact, caseKey, case, caseBody, key, commitment, hcase, h⟩ := ev
  obtain ⟨e', registry', fact', caseKey', case', caseBody', key', commitment', hcase', h'⟩ := ev'
  have he : e = e' :=
    Except.ok.inj (h.signed.authentic.decoded.symm.trans h'.signed.authentic.decoded)
  subst he
  have hregistry : registry = registry' := registry.unique registry'
  subst hregistry
  -- the advice names the commitment, and the commitment the row
  have hnamed : fact.commitment = fact'.commitment := Option.some.inj (h.binds.symm.trans h'.binds)
  have hfact : fact = fact' := by
    have hfound := hcase.found
    rw [hnamed] at hfound
    exact Except.ok.inj (hfound.symm.trans hcase'.found)
  subst hfact
  have hcaseEnvelope : case = case' :=
    Except.ok.inj (hcase.signed.authentic.decoded.symm.trans hcase'.signed.authentic.decoded)
  subst hcaseEnvelope
  have hcaseKey : caseKey = caseKey' := hcase.signed.key_unique hcase'.signed
  have hcaseBody : caseBody = caseBody' := Option.some.inj (hcase.decoded.symm.trans hcase'.decoded)
  have hkey : key = key' := h.signed.key_unique h'.signed
  have hcommitment : commitment = commitment' :=
    Except.ok.inj (h.committed.symm.trans h'.committed)
  subst hcaseKey hcaseBody hkey hcommitment
  rfl

end

end Snagline.Control
