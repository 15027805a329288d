import Snagline.Edge.Acceptance

/-!
# A delivery verified again later

The edge reads its evidence through the service. ResolveRegistry verifies a
registry at the registry's own emission, whatever the time is; ResolveCase
admits the case anew at the current clock, although the edge only asks for the
bytes of a committed fact. So a delivery that was accepted is accepted again
while the evidence of its case is current, and is transient from then on.
-/

namespace Snagline.Edge
open Kit Ssp Registry Control Authority

/-! ### Evidence from the service -/

section
variable {db : Authority.Database} {record : Authority.CaseRow} {caseID commitment : Bytes}
  {s : Service}

def EvidenceError.ofService : ServiceError → EvidenceError
  | .resolve cause => .ofRead cause
  | .unauthorized | .rejected _ _ | .expiredInput | .invalidCaseBinding | .rootVerify _ =>
    .unavailable

/-- The reads of an edge workload. Its deliveries come from the tables, and only
those of its own generation (controlhttp/server.go:168-196). -/
def serviceAuthority (s : Service) (workload : WorkloadIdentity) (clock : Clock)
    (db : Authority.Database) : ProjectionAuthority where
  listEdgeDeliveries g after limit :=
    if workload.edgeID = g.2.1 ∧ workload.edgeGeneration = g.2.2 then
      (Authority.listEdgeDeliveries ⟨s.tenant, g.2.1, workload.principalID, g.2.2, after, limit⟩
        db).toOption
    else none
  resolveCase caseID commitment :=
    (s.resolveCase workload caseID commitment clock db).mapError .ofService
  resolveRegistry _ revision commitment :=
    (s.resolveRegistryEvidence workload revision commitment db).mapError .ofService

def Unavailable (e : ServiceError) : Prop := EvidenceError.ofService e = .unavailable

theorem Service.resolveRegistry_unavailable {header : EnvelopeHeader}
    {record : RegistryRow}
    (hfound : Authority.resolveRegistry s.tenant header.registryRevision header.registryHash db =
      .ok record) (clock : Clock) : Fails Unavailable (s.resolveRegistry header clock db) := by
  have hexpired : Unavailable .expiredInput := rfl
  unfold Service.resolveRegistry
  rw [hfound, mapError_ok, ok_bind]
  refine fails_bind (fails_mapError ?_ _) fun snapshot => ?_
  · intro e
    split
    · exact hexpired
    · rfl
  · exact fails_bind (fails_ensure hexpired _) fun _ => fails_pure

theorem Service.findCommittedCase_unavailable
    (hfound : Authority.resolveCase s.tenant caseID commitment db = .ok record)
    (header : EnvelopeHeader) (snapshot : Snapshot) (clock : Clock) :
    Fails Unavailable (s.findCommittedCase caseID commitment header snapshot clock db) := by
  have hbinding : Unavailable .invalidCaseBinding := rfl
  unfold Service.findCommittedCase
  rw [hfound, mapError_ok, ok_bind]
  refine fails_bind (fails_mapError (fun _ => hbinding) _) fun caseHeader => ?_
  refine fails_bind (fails_ensure hbinding _) fun _ => ?_
  refine fails_bind (fails_mapError ?_ _) fun verified => ?_
  · intro e
    split
    · rfl
    · exact hbinding
  refine fails_bind (fails_ensure hbinding _) fun _ => ?_
  refine fails_bind (fails_mapError (fun _ => hbinding) _) fun actual => ?_
  refine fails_bind (fails_ensure hbinding _) fun _ => ?_
  refine fails_bind (fails_orFail hbinding _) fun body => ?_
  exact fails_bind (fails_ensure hbinding _) fun _ => fails_pure

theorem Service.resolveCase_unavailable {e : Envelope}
    (hfound : Authority.resolveCase s.tenant caseID commitment db = .ok record)
    (hdecode : decodeStrictEnvelope record.raw = .ok e) {registry : RegistryRow}
    (hregistry : Authority.resolveRegistry s.tenant e.registryRevision e.registryHash db =
      .ok registry) (workload : WorkloadIdentity) (clock : Clock) :
    Fails Unavailable (s.resolveCase workload caseID commitment clock db) := by
  have hheader : readHeader record.raw = .ok e.header :=
    readHeader_eq_ok.mpr ⟨e, hdecode, rfl⟩
  have hbinding : Unavailable .invalidCaseBinding := rfl
  have hunauthorized : Unavailable .unauthorized := rfl
  unfold Service.resolveCase
  rw [hfound, mapError_ok, ok_bind, hheader, mapError_ok, ok_bind]
  refine fails_bind (fails_ensure hbinding _) fun _ => ?_
  refine fails_bind (Service.resolveRegistry_unavailable hregistry clock) fun snapshot => ?_
  refine fails_bind (Service.findCommittedCase_unavailable hfound _ _ _) fun committed => ?_
  exact fails_bind (fails_ensure hunauthorized _) fun _ => fails_pure

end

section
variable {s : Service} {workload : WorkloadIdentity} {row : Authority.CaseRow}
  {db : Authority.Database} {ev : CaseEvidence s workload row.raw db} (h : CaseProof ev)
include h

theorem CaseProof.granted : ∃ edge principal route,
    CaseGrant ev.registry.snapshot workload ev.envelope.authorKeyID ev.key ev.body
      ev.envelope.routingEpoch edge principal route ∧
    row.issuerEdgeID = ev.body.issuerEdgeID ∧
    row.issuerEdgeGeneration = ev.body.issuerEdgeGeneration := by
  obtain ⟨edge, principal, route, hgrant⟩ := authorizesCase_eq_true.mp ev.checked.authorized
  exact ⟨edge, principal, route, hgrant, congrArg Authority.CaseRow.issuerEdgeID h.committed,
    congrArg Authority.CaseRow.issuerEdgeGeneration h.committed⟩

theorem CaseProof.mayRead : Service.mayRead ev.registry.snapshot workload row = true := by
  obtain ⟨edge, principal, route, hgrant, hedge, hgeneration⟩ := h.granted
  have hlisted := hgrant.edgeListed
  rw [← hedge] at hlisted
  have hreader : (ev.registry.snapshot.edge row.issuerEdgeID).any (fun target =>
      workload.principalID != [] && workload.principalID == target.principalID &&
        workload.edgeID == row.issuerEdgeID &&
        workload.edgeGeneration == row.issuerEdgeGeneration &&
        target.generation == row.issuerEdgeGeneration) = true := by
    rw [hlisted, hgrant.identity, hedge, hgeneration]
    simp [hgrant.principalNamed, hgrant.generation]
  unfold Service.mayRead
  rw [hreader, Bool.or_true]

theorem CaseProof.committedChecked (hdb : Consistent db) (hmem : row ∈ db.cases) :
    CommittedChecked s row.caseID row.commitment ev.envelope.header ev.registry.snapshot db row
      ev.key ev.envelope ev.body where
  found := resolveCase_mem h hdb hmem
  revision := rfl
  hash := rfl
  epoch := rfl
  family := ev.checked.family
  signed := ev.checked.signed
  owned := ev.checked.owned
  committed := by
    have hcommitment : row.commitment = ev.commitment :=
      congrArg Authority.CaseRow.commitment h.committed
    rw [hcommitment]
    exact ev.checked.committed
  decoded := ev.checked.decoded
  caseID := (congrArg Authority.CaseRow.caseID h.committed).symm
  named := by
    have hvalid := h.valid
    unfold CommitCaseRequest.validate at hvalid
    simp only [ensure_eq_ok, Bool.and_eq_true] at hvalid
    have hdomain : validText ev.body.domain = true := hvalid.1.1.1.1.1.1.2
    intro hnil
    rw [hnil] at hdomain
    cases hdomain
  domain := (congrArg Authority.CaseRow.domain h.committed).symm

theorem CaseProof.resolveCase_iff (hdb : Consistent db) (hmem : row ∈ db.cases)
    (clock : Clock) :
    s.resolveCase workload row.caseID row.commitment clock db = .ok row ↔ ev.Current clock := by
  have hfound := resolveCase_mem h hdb hmem
  unfold Service.resolveCase
  rw [hfound, mapError_ok, ok_bind]
  simp only [bind_eq_ok, mapError_eq_ok, readHeader_eq_ok, ensure_eq_ok,
    Service.resolveRegistry_eq_ok, Service.findCommittedCase_eq_ok, beq_iff_eq]
  constructor
  · rintro ⟨_, ⟨e, hdecode, rfl⟩, _, -, _, ⟨r, hregistry, rfl⟩, _, ⟨key, e', body, hchecked, hcurrent⟩,
      _, -, hrow⟩
    cases hrow
    rw [ev.checked.signed.authentic.decoded] at hdecode
    cases hdecode
    have hr : r = ev.registry := r.unique ev.registry
    subst hr
    have he := hchecked.signed.authentic.decoded
    rw [ev.checked.signed.authentic.decoded] at he
    cases he
    have hkey := hchecked.signed.key_unique ev.checked.signed
    subst hkey
    exact ⟨hregistry, hcurrent.signature, hcurrent.commitment⟩
  · intro hcurrent
    exact ⟨ev.envelope.header, ⟨ev.envelope, ev.checked.signed.authentic.decoded, rfl⟩, (),
      ev.checked.family, ev.registry.snapshot, ⟨ev.registry, hcurrent.registry, rfl⟩, row,
      ⟨ev.key, ev.envelope, ev.body, h.committedChecked hdb hmem, hcurrent.signature,
        hcurrent.commitment⟩, (), h.mayRead, rfl⟩

theorem CaseProof.resolveRegistry_read (hlived : ∃ now, ev.registry.root.LiveAt now) :
    s.resolveRegistryEvidence workload ev.envelope.registryRevision ev.envelope.registryHash db =
      .ok ev.registry.record := by
  obtain ⟨edge, principal, route, hgrant⟩ := authorizesCase_eq_true.mp
    ev.checked.authorized
  obtain ⟨now, hlive⟩ := hlived
  obtain ⟨emitted, hemitted⟩ : ∃ emitted, parseTimestamp ev.registry.root.emittedAt = some emitted := by
    obtain ⟨emitted, _, hemitted, -⟩ := hlive
    exact ⟨emitted, hemitted⟩
  have hrooted := h.registry.rooted
  have hheader := hrooted.authentic.header
  have hverify : s.trust.verify s.primitives ev.registry.record.raw emitted =
      .ok ev.registry.snapshot :=
    (Trust.verify_eq_ok _ _ _ _ _).mpr ⟨_, hrooted, liveAt_emission hlive hemitted⟩
  obtain ⟨-, hkey, hhash⟩ := resolveRegistry_ok ev.registry.found
  have hrevision : ev.registry.record.registryRevision = ev.envelope.registryRevision :=
    congrArg Prod.snd hkey
  have hworkload : (workload.principalID != [] && workload.edgeID != [] &&
      0 < workload.edgeGeneration) = true := by
    rw [hgrant.identity]
    simp [hgrant.principalNamed, hgrant.edgeNamed, hgrant.positive]
  have hlisted : (ev.registry.snapshot.edge workload.edgeID).any (fun edge =>
      edge.principalID == workload.principalID &&
        edge.generation == workload.edgeGeneration) = true := by
    have hid : workload.edgeID = ev.body.issuerEdgeID :=
      congrArg WorkloadIdentity.edgeID hgrant.identity
    have hprincipal : workload.principalID = edge.principalID :=
      congrArg WorkloadIdentity.principalID hgrant.identity
    have hgeneration : workload.edgeGeneration = ev.body.issuerEdgeGeneration :=
      congrArg WorkloadIdentity.edgeGeneration hgrant.identity
    rw [hid, hgrant.edgeListed]
    simp [hprincipal, hgeneration, hgrant.generation]
  have hrecord : ((ev.registry.snapshot.edge workload.edgeID).any (fun edge =>
        edge.principalID == workload.principalID && edge.generation == workload.edgeGeneration) &&
      ev.registry.record.tenantID == s.tenant &&
      ev.registry.record.registryRevision == ev.envelope.registryRevision &&
      ev.registry.record.registryRevision == ev.registry.snapshot.revision &&
      ev.registry.record.routingEpoch == ev.registry.snapshot.routingEpoch &&
      ev.registry.record.commitment == ev.envelope.registryHash &&
      ev.registry.snapshot.commitment == ev.envelope.registryHash) = true := by
    rw [hlisted]
    simp [h.registry.tenant, hrevision, ev.registry.revision, ev.registry.epoch, hhash,
      ev.registry.commitment]
  have hschema : ev.registry.root.header.schema = .registry := hrooted.family
  have hemission : parseTimestamp ev.registry.root.header.emittedAt = some emitted := hemitted
  unfold Service.resolveRegistryEvidence
  simp only [hworkload, ensure_true, ok_bind, ev.registry.found, hheader, hschema, hemission,
    hverify, mapError_ok, beq_self_eq_true, orFail, hrecord]
  rfl

end

/-! ### One delivery at two times -/

section
variable {workload : WorkloadIdentity} {r : Authority.DeliveryRow} {s : Service}
  {db : Authority.Database} {j : JournalDelivery} {reads : Prop}

def outcomeAt (s : Service) (workload : WorkloadIdentity) (clock : Clock) (db : Authority.Database)
    (j : JournalDelivery) : Except VerificationError VerifiedProjection :=
  (pinned s (serviceAuthority s workload clock db)).verify j

structure Own (s : Service) (workload : WorkloadIdentity) (r : Authority.DeliveryRow)
    (db : Authority.Database) : Prop where
  addressed : Addressed s r
  edge : workload.edgeID = r.edgeID
  generation : workload.edgeGeneration = r.edgeGeneration
  stored : r ∈ db.deliveries
  reachable : ∃ store es, db = Store.run store {} es

theorem outcomeAt_served (h : Own s workload r db) (hserved : Served workload.principalID r db)
    (hj : Carried j r) (clock : Clock) :
    outcomeAt s workload clock db j =
      (pinned s (serviceAuthority s workload clock db)).content j r.delivery := by
  obtain ⟨store, es, hdb⟩ := h.reachable
  have hsource : ReadsExactly (serviceAuthority s workload clock db).listEdgeDeliveries
      workload.principalID r db := by
    have hown : workload.edgeID = r.log.2.1 ∧ workload.edgeGeneration = r.log.2.2 :=
      ⟨h.edge, h.generation⟩
    unfold ReadsExactly serviceAuthority
    dsimp only
    rw [if_pos hown, ← h.addressed.tenant]
    rfl
  unfold outcomeAt
  rw [verify_carried h.addressed hj, resolveExactDelivery_served hsource hj hserved hdb h.stored,
    ok_bind]

/-- What the bytes of a delivery come to. `reads` says that the verification
gets as far as the case, and `current` when the service shows the case. -/
structure Settles (s : Service) (workload : WorkloadIdentity) (r : Authority.DeliveryRow)
    (reads : Prop) (current : Clock → Prop) (db : Authority.Database) (j : JournalDelivery)
    (result : Except VerificationError VerifiedProjection) : Prop where
  settled : ∀ clock, (reads → current clock) →
    (pinned s (serviceAuthority s workload clock db)).content j r.delivery = result
  waiting : ∀ clock, reads → ¬ current clock →
    (pinned s (serviceAuthority s workload clock db)).content j r.delivery = .error .transient

/-- The delivery in tables `db` at `clock`, and in later tables `db'` at any
time: the outcome is the same exactly if the case can still be read, or was
never asked for; otherwise verification waits. -/
structure Lasts (s : Service) (workload : WorkloadIdentity) (r : Authority.DeliveryRow)
    (clock : Clock) (reads : Prop) (current : Clock → Prop) (db db' : Authority.Database) :
    Prop where
  accepted : ∀ j, Carried j r → Served workload.principalID r db →
    ∀ p, outcomeAt s workload clock db j = .ok p → reads
  same : ∀ j, Carried j r → Served workload.principalID r db →
    Served workload.principalID r db' → ∀ clock',
      (outcomeAt s workload clock' db' j = outcomeAt s workload clock db j ↔
        (reads → current clock'))
  blocked : ∀ j, Carried j r → Served workload.principalID r db' → ∀ clock', reads →
    ¬ current clock' → outcomeAt s workload clock' db' j = .error .transient

theorem lasts_of_settles
    {clock : Clock} {current : Clock → Prop} {db db' : Authority.Database}
    (hown : Own s workload r db) (hown' : Own s workload r db') (hcurrent : current clock)
    (h : ∀ j, Carried j r → ∃ result, Settles s workload r reads current db j result ∧
      Settles s workload r reads current db' j result ∧
      (reads ∧ (∃ p, result = .ok p) ∨ ∃ reason, result = .error (.permanent reason))) :
    Lasts s workload r clock reads current db db' where
  accepted := by
    intro j hj hserved p houtcome
    obtain ⟨result, hsettles, -, hresult⟩ := h j hj
    rw [outcomeAt_served hown hserved hj, hsettles.settled clock fun _ => hcurrent] at houtcome
    rcases hresult with ⟨hreads, -⟩ | ⟨reason, hrejected⟩
    · exact hreads
    · rw [hrejected] at houtcome
      cases houtcome
  same := by
    intro j hj hserved hserved' clock'
    obtain ⟨result, hsettles, hsettles', hresult⟩ := h j hj
    rw [outcomeAt_served hown hserved hj, outcomeAt_served hown' hserved' hj,
      hsettles.settled clock fun _ => hcurrent]
    constructor
    · intro hsame hreads
      by_contra hstale
      rw [hsettles'.waiting clock' hreads hstale] at hsame
      rcases hresult with ⟨-, p, haccepted⟩ | ⟨reason, hrejected⟩
      · rw [haccepted] at hsame
        cases hsame
      · rw [hrejected] at hsame
        cases hsame
    · exact hsettles'.settled clock'
  blocked := by
    intro j hj hserved' clock' hreads hstale
    obtain ⟨result, -, hsettles', -⟩ := h j hj
    rw [outcomeAt_served hown' hserved' hj]
    exact hsettles'.waiting clock' hreads hstale

theorem Settles.congr {current current' : Clock → Prop}
    {result : Except VerificationError VerifiedProjection}
    (h : Settles s workload r reads current db j result)
    (hsame : ∀ clock, current clock ↔ current' clock) :
    Settles s workload r reads current' db j result :=
  ⟨fun clock hcurrent => h.settled clock fun hreads => (hsame clock).mpr (hcurrent hreads),
    fun clock hreads hstale => h.waiting clock hreads fun hcurrent =>
      hstale ((hsame clock).mp hcurrent)⟩

end

/-! ### A case -/

section
variable {s : Service} {workload : WorkloadIdentity} {row : Authority.CaseRow}
  {db : Authority.Database} {ev : CaseEvidence s workload row.raw db} (h : CaseProof ev)
  (hlived : ∃ now, ev.registry.root.LiveAt now)
include h

theorem CaseProof.own {store : Store} {es : List Authority.Event}
    (hdb : db = store.run {} es) {n : ℤ}
    (hn : (Authority.Fact.case row).delivery n ∈ db.deliveries) :
    Own s workload ((Authority.Fact.case row).delivery n) db := by
  obtain ⟨edge, principal, route, hgrant, hedge, hgeneration⟩ := h.granted
  exact ⟨h.addressed (sequence_positive hdb hn),
    (congrArg WorkloadIdentity.edgeID hgrant.identity).trans hedge.symm,
    (congrArg WorkloadIdentity.edgeGeneration hgrant.identity).trans hgeneration.symm, hn,
    ⟨store, es, hdb⟩⟩

theorem CaseProof.serviceCase_current (hdb : Consistent db) (hmem : row ∈ db.cases)
    {clock : Clock} (hcurrent : ev.Current clock) :
    (serviceAuthority s workload clock db).resolveCase row.caseID row.commitment = .ok row := by
  show (s.resolveCase workload row.caseID row.commitment clock db).mapError _ = _
  rw [(h.resolveCase_iff hdb hmem clock).mpr hcurrent]
  rfl

theorem CaseProof.serviceCase_stale (hdb : Consistent db) (hmem : row ∈ db.cases)
    {clock : Clock} (hstale : ¬ ev.Current clock) :
    (serviceAuthority s workload clock db).resolveCase row.caseID row.commitment =
      .error .unavailable := by
  show (s.resolveCase workload row.caseID row.commitment clock db).mapError _ = _
  have hfound := resolveCase_mem h hdb hmem
  cases hresolve : s.resolveCase workload row.caseID row.commitment clock db with
  | ok fact =>
    -- the only row it could show is this one
    have hfact : fact = row := by
      unfold Service.resolveCase at hresolve
      simp only [bind_eq_ok, Service.findCommittedCase_eq_ok] at hresolve
      obtain ⟨_, -, _, -, _, -, _, -, fact', ⟨_, _, _, hchecked, -⟩, _, -, hpure⟩ := hresolve
      cases hpure
      have hfound' := hchecked.found
      rw [hfound] at hfound'
      exact (Except.ok.inj hfound').symm
    rw [hfact] at hresolve
    exact absurd ((h.resolveCase_iff hdb hmem clock).mp hresolve) hstale
  | error e =>
    have hunavailable := Service.resolveCase_unavailable hfound
      ev.checked.signed.authentic.decoded ev.registry.found workload clock e hresolve
    exact congrArg Except.error hunavailable

include hlived

theorem CaseProof.serviceRegistry (clock : Clock) :
    (serviceAuthority s workload clock db).resolveRegistry s.tenant ev.envelope.registryRevision
      ev.envelope.registryHash = .ok ev.registry.record := by
  show (s.resolveRegistryEvidence workload ev.envelope.registryRevision ev.envelope.registryHash
    db).mapError _ = _
  rw [h.resolveRegistry_read hlived]
  rfl

variable {n : ℤ} {j : JournalDelivery} (hj : Carried j ((Authority.Fact.case row).delivery n))
include hj

theorem CaseProof.settles_unproved (hnot : ¬ ProvedAt ev.registry.root ev.envelope) :
    Settles s workload ((Authority.Fact.case row).delivery n)
      (ProvedAt ev.registry.root ev.envelope) ev.Current db j
      (.error (permanent "invalid_registry_proof")) where
  settled := by
    intro clock _
    obtain ⟨emitted, hemitted, -⟩ := ev.checked.signed.emission
    exact h.content_stale hemitted (h.serviceRegistry hlived clock) hj
      fun hlive => hnot ⟨emitted, hemitted, hlive⟩
  waiting := fun _ hreads _ => absurd hreads hnot

theorem CaseProof.settles_proved (hdb : Consistent db) (hmem : row ∈ db.cases)
    (hproved : ProvedAt ev.registry.root ev.envelope) {body : VerifiedCaseBody}
    (hbody : decodeVerifiedCaseBody ev.envelope.body = some body) :
    Settles s workload ((Authority.Fact.case row).delivery n)
      (ProvedAt ev.registry.root ev.envelope) ev.Current db j
      (.ok (caseProjection s.primitives.sha256 ev.envelope body row.commitment ev.expiresAt)) := by
  obtain ⟨emitted, hemitted, hlive⟩ := hproved
  constructor
  · intro clock hcurrent
    have hcase := h.serviceCase_current hdb hmem (hcurrent ⟨emitted, hemitted, hlive⟩)
    obtain ⟨body', hbody', -, hcontent⟩ :=
      h.content_accepted hemitted (h.serviceRegistry hlived clock) hj hlive hcase
    rw [hbody] at hbody'
    cases hbody'
    exact hcontent
  · intro clock _ hstale
    exact h.content_waiting hemitted (h.serviceRegistry hlived clock) hj hlive
      (h.serviceCase_stale hdb hmem hstale)

end

section
variable {workload : WorkloadIdentity} {db db' : Authority.Database} {row : Authority.CaseRow}
  {s : Service} {ev : CaseEvidence s workload row.raw db}

theorem CaseProof.later (h : CaseProof ev)
    (hgrows : Grows db db') : CaseProof (ev.later hgrows) :=
  ⟨h.committed, h.valid, h.lived, h.registry, h.epoch, h.positive⟩

theorem CaseProof.lasts (h : CaseProof ev)
    {store : Store} {es es' : List Authority.Event} (hdb : db = store.run {} es)
    (hdb' : db' = store.run {} es') (hgrows : Grows db db') (hmem : row ∈ db.cases) {n : ℤ}
    (hn : (Authority.Fact.case row).delivery n ∈ db.deliveries) {clock : Clock}
    (hcurrent : ev.Current clock) :
    Lasts s workload ((Authority.Fact.case row).delivery n) clock
      (ProvedAt ev.registry.root ev.envelope) ev.Current db db' := by
  have hconsistent : Consistent db := hdb ▸ reachable_consistent store es
  have hconsistent' : Consistent db' := hdb' ▸ reachable_consistent store es'
  have hmem' : row ∈ db'.cases := hgrows.cases.subset hmem
  have hlived : ∃ now, ev.registry.root.LiveAt now := ⟨_, hcurrent.registry.live⟩
  have hlater := h.later hgrows
  refine lasts_of_settles (h.own hdb hn) (hlater.own hdb' (hgrows.deliveries.subset hn)) hcurrent ?_
  intro j hj
  by_cases hproved : ProvedAt ev.registry.root ev.envelope
  · obtain ⟨body, hbody, -⟩ := decodeVerifiedCaseBody_eq ev.checked.signed.authentic.sound
      ev.checked.family ev.checked.decoded
    have hsettles' := (hlater.settles_proved hlived hj hconsistent' hmem' hproved hbody).congr
      (ev.current_later hgrows)
    exact ⟨_, h.settles_proved hlived hj hconsistent hmem hproved hbody, hsettles',
      Or.inl ⟨hproved, _, rfl⟩⟩
  · have hsettles' := (hlater.settles_unproved hlived hj hproved).congr (ev.current_later hgrows)
    exact ⟨_, h.settles_unproved hlived hj hproved, hsettles', Or.inr ⟨_, rfl⟩⟩

end

/-! ### An advice -/

section
variable {s : Service} {workload issuer : WorkloadIdentity} {row : Authority.AdviceRow}
  {db : Authority.Database} {ev : AdviceEvidence s workload row.raw db} (h : AdviceProof ev)
  {caseEv : CaseEvidence s issuer ev.fact.raw db} (hcase : CaseProof caseEv)
  (henvelope : caseEv.envelope = ev.case) (hrecord : caseEv.registry.record = ev.registry.record)

include h hcase in
theorem AdviceProof.own {store : Store} {es : List Authority.Event}
    (hdb : db = store.run {} es) {n : ℤ}
    (hn : (Authority.Fact.advice row).delivery n ∈ db.deliveries) :
    Own s issuer ((Authority.Fact.advice row).delivery n) db := by
  obtain ⟨edge, principal, route, hgrant⟩ := authorizesCase_eq_true.mp
    caseEv.checked.authorized
  have hedge : row.targetEdgeID = caseEv.body.issuerEdgeID :=
    (congrArg Authority.AdviceRow.targetEdgeID h.committed).trans
      (congrArg Authority.CaseRow.issuerEdgeID hcase.committed)
  have hgeneration : row.targetEdgeGeneration = caseEv.body.issuerEdgeGeneration :=
    (congrArg Authority.AdviceRow.targetEdgeGeneration h.committed).trans
      (congrArg Authority.CaseRow.issuerEdgeGeneration hcase.committed)
  exact ⟨h.addressed (sequence_positive hdb hn),
    (congrArg WorkloadIdentity.edgeID hgrant.identity).trans hedge.symm,
    (congrArg WorkloadIdentity.edgeGeneration hgrant.identity).trans hgeneration.symm, hn,
    ⟨store, es, hdb⟩⟩

variable (hlived : ∃ now, caseEv.registry.root.LiveAt now)

include hcase henvelope hrecord hlived in
theorem AdviceProof.serviceRegistry (clock : Clock) :
    (serviceAuthority s issuer clock db).resolveRegistry s.tenant ev.envelope.registryRevision
      ev.envelope.registryHash = .ok ev.registry.record := by
  have hrevision : caseEv.envelope.registryRevision = ev.envelope.registryRevision :=
    (congrArg Envelope.registryRevision henvelope).trans ev.caseChecked.revision
  have hhash : caseEv.envelope.registryHash = ev.envelope.registryHash :=
    (congrArg Envelope.registryHash henvelope).trans ev.caseChecked.hash
  rw [← hrecord, ← hrevision, ← hhash]
  exact hcase.serviceRegistry hlived clock

include h in
theorem AdviceProof.names_case :
    row.caseID = ev.fact.caseID ∧ row.caseCommitment = ev.fact.commitment := by
  have hcaseID : ev.fact.caseID = ev.envelope.caseID :=
    congrArg Prod.snd (resolveCase_ok ev.caseChecked.found).2.1
  exact ⟨(congrArg Authority.AdviceRow.caseID h.committed).trans hcaseID.symm,
    congrArg Authority.AdviceRow.caseCommitment h.committed⟩

include h hcase in
theorem AdviceProof.serviceCase_current (hdb : Consistent db) {clock : Clock}
    (hcurrent : caseEv.Current clock) :
    (serviceAuthority s issuer clock db).resolveCase row.caseID row.caseCommitment =
      .ok ev.fact := by
  have hfact := (resolveCase_ok ev.caseChecked.found).1
  rw [h.names_case.1, h.names_case.2]
  exact hcase.serviceCase_current hdb hfact hcurrent

include h hcase in
theorem AdviceProof.serviceCase_stale (hdb : Consistent db) {clock : Clock}
    (hstale : ¬ caseEv.Current clock) :
    (serviceAuthority s issuer clock db).resolveCase row.caseID row.caseCommitment =
      .error .unavailable := by
  have hfact := (resolveCase_ok ev.caseChecked.found).1
  rw [h.names_case.1, h.names_case.2]
  exact hcase.serviceCase_stale hdb hfact hstale

variable {n : ℤ} {j : JournalDelivery} (hj : Carried j ((Authority.Fact.advice row).delivery n))
include h hcase henvelope hrecord hlived hj

theorem AdviceProof.settles_unproved (hnot : ¬ ProvedAt ev.registry.root ev.envelope) :
    Settles s issuer ((Authority.Fact.advice row).delivery n)
      (ProvedAt ev.registry.root ev.envelope) caseEv.Current db j
      (.error (permanent "invalid_registry_proof")) where
  settled := by
    intro clock _
    obtain ⟨emitted, hemitted, -⟩ := ev.checked.signed.emission
    exact h.content_stale hemitted
      (AdviceProof.serviceRegistry hcase henvelope hrecord hlived clock) hj
      fun hlive => hnot ⟨emitted, hemitted, hlive⟩
  waiting := fun _ hreads _ => absurd hreads hnot

variable (hdb : Consistent db) (hproved : ProvedAt ev.registry.root ev.envelope)
include hdb hproved

-- the case itself fails its registry proof, once it can be read
theorem AdviceProof.settles_case_unproved (hnot : ¬ ProvedAt ev.registry.root ev.case) :
    Settles s issuer ((Authority.Fact.advice row).delivery n)
      (ProvedAt ev.registry.root ev.envelope) caseEv.Current db j
      (.error (permanent "invalid_registry_proof")) := by
  obtain ⟨emitted, hemitted, hlive⟩ := hproved
  obtain ⟨caseEmitted, hcaseEmitted, -⟩ := ev.caseChecked.signed.emission
  have hread := AdviceProof.serviceRegistry hcase henvelope hrecord hlived
  constructor
  · intro clock hcurrent
    have hfact := h.serviceCase_current hcase hdb (hcurrent ⟨emitted, hemitted, hlive⟩)
    exact h.content_unproved hemitted (hread clock) hj hlive hfact hcaseEmitted
      fun hcaseLive => hnot ⟨caseEmitted, hcaseEmitted, hcaseLive⟩
  · intro clock _ hstale
    exact h.content_waiting hemitted (hread clock) hj hlive (h.serviceCase_stale hcase hdb hstale)

theorem AdviceProof.settles_proved (hcaseProved : ProvedAt ev.registry.root ev.case)
    {body : VerifiedAdviceBody} (hbody : decodeVerifiedAdviceBody ev.envelope.body = some body)
    {expiresAt : Time} (hexpires : parseTimestamp ev.envelope.expiresAt = some expiresAt) :
    Settles s issuer ((Authority.Fact.advice row).delivery n)
      (ProvedAt ev.registry.root ev.envelope) caseEv.Current db j
      (.ok (adviceProjection s.primitives.sha256 ev.envelope body ev.fact row.commitment
        expiresAt)) := by
  obtain ⟨emitted, hemitted, hlive⟩ := hproved
  obtain ⟨caseEmitted, hcaseEmitted, hcaseLive⟩ := hcaseProved
  have hread := AdviceProof.serviceRegistry hcase henvelope hrecord hlived
  constructor
  · intro clock hcurrent
    have hfact := h.serviceCase_current hcase hdb (hcurrent ⟨emitted, hemitted, hlive⟩)
    obtain ⟨body', expiresAt', hbody', -, hexpires', hcontent⟩ :=
      h.content_accepted hemitted (hread clock) hj hlive hfact hcaseEmitted hcaseLive
    rw [hbody] at hbody'
    rw [hexpires] at hexpires'
    cases hbody'
    cases hexpires'
    exact hcontent
  · intro clock _ hstale
    exact h.content_waiting hemitted (hread clock) hj hlive (h.serviceCase_stale hcase hdb hstale)

end

section
variable {workload issuer : WorkloadIdentity} {db db' : Authority.Database}
  {row : Authority.AdviceRow} {s : Service} {clock : Clock}

theorem AdviceProof.later {workload : WorkloadIdentity}
    {ev : AdviceEvidence s workload row.raw db} (h : AdviceProof ev)
    (hgrows : Grows db db') : AdviceProof (ev.later hgrows) := by
  obtain ⟨issuer, caseEv, hcase, henvelope, hbody, hrecord, hroot⟩ := h.case
  exact ⟨h.committed, h.lived, h.registry, h.epoch, h.positive, issuer, caseEv.later hgrows,
    hcase.later hgrows, henvelope, hbody, hrecord, hroot⟩

theorem AdviceEvidence.case_current {raw : Bytes}
    {db : Authority.Database} {ev : AdviceEvidence s workload raw db}
    (hcurrent : ev.Current clock) {caseEv : CaseEvidence s issuer ev.fact.raw db}
    (henvelope : caseEv.envelope = ev.case) (hrecord : caseEv.registry.record = ev.registry.record) :
    caseEv.Current clock := by
  have hrooted := caseEv.registry.rooted
  rw [hrecord] at hrooted
  obtain ⟨hroot, hsnapshot⟩ := hrooted.unique ev.registry.rooted
  have hsigned := caseEv.checked.signed
  rw [hsnapshot, henvelope] at hsigned
  have hkey := hsigned.key_unique ev.caseChecked.signed
  refine ⟨⟨?_, ?_⟩, ?_, ?_⟩
  · rw [hroot]
    exact hcurrent.registry.live
  · rw [hsnapshot]
    exact hcurrent.registry.unexpired
  · rw [hkey, henvelope]
    exact hcurrent.case.signature
  · rw [henvelope]
    exact hcurrent.case.commitment

theorem AdviceProof.lasts
    {ev : AdviceEvidence s workload row.raw db} (h : AdviceProof ev)
    {caseEv : CaseEvidence s issuer ev.fact.raw db} (hcase : CaseProof caseEv)
    (henvelope : caseEv.envelope = ev.case) (hrecord : caseEv.registry.record = ev.registry.record)
    {store : Store} {es es' : List Authority.Event} (hdb : db = store.run {} es)
    (hdb' : db' = store.run {} es') (hgrows : Grows db db') {n : ℤ}
    (hn : (Authority.Fact.advice row).delivery n ∈ db.deliveries)
    (hcurrent : ev.Current clock) :
    Lasts s issuer ((Authority.Fact.advice row).delivery n) clock
      (ProvedAt ev.registry.root ev.envelope) caseEv.Current db db' := by
  have hconsistent : Consistent db := hdb ▸ reachable_consistent store es
  have hconsistent' : Consistent db' := hdb' ▸ reachable_consistent store es'
  have hcaseCurrent := AdviceEvidence.case_current hcurrent henvelope hrecord
  have hlived : ∃ now, caseEv.registry.root.LiveAt now := ⟨_, hcaseCurrent.registry.live⟩
  have hlater := h.later hgrows
  have hcase' := hcase.later hgrows
  have hsame := caseEv.current_later hgrows
  refine lasts_of_settles (h.own hcase hdb hn)
    (hlater.own hcase' hdb' (hgrows.deliveries.subset hn)) hcaseCurrent ?_
  intro j hj
  by_cases hproved : ProvedAt ev.registry.root ev.envelope
  · by_cases hcaseProved : ProvedAt ev.registry.root ev.case
    · obtain ⟨body, hbody, -⟩ := decodeVerifiedAdviceBody_eq ev.checked.signed.authentic.sound
        ev.checked.family ev.checked.binds
      obtain ⟨now, _, expiresAt, -, hexpires, -⟩ := h.lived
      exact ⟨_, h.settles_proved hcase henvelope hrecord hlived hj hconsistent hproved hcaseProved
          hbody hexpires,
        (hlater.settles_proved hcase' henvelope hrecord hlived hj hconsistent' hproved hcaseProved
          hbody hexpires).congr hsame, Or.inl ⟨hproved, _, rfl⟩⟩
    · exact ⟨_, h.settles_case_unproved hcase henvelope hrecord hlived hj hconsistent hproved
          hcaseProved,
        (hlater.settles_case_unproved hcase' henvelope hrecord hlived hj hconsistent' hproved
          hcaseProved).congr hsame, Or.inr ⟨_, rfl⟩⟩
  · exact ⟨_, h.settles_unproved hcase henvelope hrecord hlived hj hproved,
      (hlater.settles_unproved hcase' henvelope hrecord hlived hj hproved).congr hsame,
      Or.inr ⟨_, rfl⟩⟩

end

/-! ### Every run -/

/-- Each committed case and advice at the edge it goes to, from its commit on.
While the edge is served, verification repeats the outcome of the admission
clock exactly if the registry proof fails on the envelope's own emission anyway,
or the service would still admit the case: its registry and envelope live, its
key usable, at the clock of the read. Otherwise verification waits for ever. -/
theorem delivery_outcome_lasts (d : Deployment) (events : List Control.Event) :
    let db := (d.run {} events).db
    (∀ row ∈ db.cases, ∃ workload clock, ∃ ev : CaseEvidence d.service workload row.raw db,
      .submit workload row.raw clock ∈ events ∧ ev.Current clock ∧
      row = ev.request.row row.commitRevision ∧
      ∃ n, (Authority.Fact.case row).delivery n ∈ db.deliveries ∧
        ∀ later, Lasts d.service workload ((Authority.Fact.case row).delivery n) clock
          (ProvedAt ev.registry.root ev.envelope) ev.Current db
          (d.run {} (events ++ later)).db) ∧
    (∀ row ∈ db.advice, ∃ workload clock, ∃ ev : AdviceEvidence d.service workload row.raw db,
      .submit workload row.raw clock ∈ events ∧ ev.Current clock ∧
      row = ev.request.row ev.fact row.deliverySequence row.commitRevision ∧
      ∃ issuer, ∃ caseEv : CaseEvidence d.service issuer ev.fact.raw db,
        caseEv.envelope = ev.case ∧ ev.fact = caseEv.request.row ev.fact.commitRevision ∧
        ∃ n, (Authority.Fact.advice row).delivery n ∈ db.deliveries ∧
          ∀ later, Lasts d.service issuer ((Authority.Fact.advice row).delivery n) clock
            (ProvedAt ev.registry.root ev.envelope) caseEv.Current db
            (d.run {} (events ++ later)).db) := by
  intro db
  have hrun := run_accounted d events
  obtain ⟨es, hdb⟩ := hrun.reachable
  have hlater := fun later => (run_accounted d (events ++ later)).reachable
  obtain ⟨facts, hfacts⟩ := reachable_represents d.store es
  rw [← hdb] at hfacts
  constructor
  · intro row hrow
    obtain ⟨n, hn⟩ := hfacts.delivered ((hfacts.case_mem row).mp hrow)
    cases hrun.cases row hrow with
    | intro workload clock made ev current valid committed =>
      have hproof := caseProof_of_run hrun hrow current valid committed
      refine ⟨workload, clock, ev, made, current, committed, n, hn, fun later => ?_⟩
      obtain ⟨es', hdb'⟩ := hlater later
      exact hproof.lasts hdb hdb' (d.run_later events later) hrow hn current
  · intro row hrow
    obtain ⟨n, hn⟩ := hfacts.delivered ((hfacts.advice_mem row).mp hrow)
    cases hrun.advice row hrow with
    | intro workload clock made ev current valid committed =>
      have hproof := adviceProof_of_run hrun hrow current committed
      obtain ⟨issuer, caseEv, hcase, henvelope, -, hrecord, -⟩ := hproof.case
      refine ⟨workload, clock, ev, made, current, committed, issuer, caseEv, henvelope,
        hcase.committed, n, hn, fun later => ?_⟩
      obtain ⟨es', hdb'⟩ := hlater later
      exact hproof.lasts hcase henvelope hrecord hdb hdb' (d.run_later events later) hn current

/-- The case expires in second 60. Its delivery is accepted in second 20, when
it was committed, and cannot be verified in second 60, in the same tables. -/
theorem delivery_outcome_expires :
    let raw := Sample.case "2026-01-01T00:00:06Z"
    let db := (Sample.deployment.run {} (Sample.events raw)).db
    let outcome := fun n => outcomeAt Sample.service Sample.issuer (Sample.second n) db
      ⟨[], 0, 1, [116], [101], 1, [], raw⟩
    (outcome 20).isOk = true ∧ outcome 60 = .error .transient := by
  decide +kernel

end Snagline.Edge
