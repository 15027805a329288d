import Snagline.Control.Resubmission
import Snagline.Edge.Delivered

/-!
# What becomes of a committed fact at its edge

The edge of a committed case or advice asks the authority for exactly that
delivery and verifies it. Everything admission checked, it finds again, but one
thing: admission wants the bound registry live at its own clock, the edge at the
emission the envelope is stamped with. A case stamped before its registry was
emitted is committed and then rejected for good.
-/

namespace Snagline.Edge
open Kit Ssp Registry Control Authority

/-! ### Reading the tables -/

def EvidenceError.ofRead : ReadError → EvidenceError
  | .caseNotFound => .caseNotFound
  | .registryNotFound => .registryNotFound
  | .invalidRequest => .unavailable

def storeAuthority (tenant principalID : Bytes) (db : Authority.Database) :
    ProjectionAuthority where
  listEdgeDeliveries g after limit :=
    (Authority.listEdgeDeliveries ⟨g.1, g.2.1, principalID, g.2.2, after, limit⟩ db).toOption
  resolveCase caseID commitment :=
    (Authority.resolveCase tenant caseID commitment db).mapError .ofRead
  resolveRegistry tenantID revision commitment :=
    (Authority.resolveRegistry tenantID revision commitment db).mapError .ofRead

def exactQuery (principalID : Bytes) (r : Authority.DeliveryRow) : EdgeDeliveryQuery :=
  ⟨r.tenantID, r.edgeID, principalID, r.edgeGeneration, r.deliverySequence - 1, 1⟩

/-- The principal holds the edge generation the delivery goes to, and the
tenant's registry is not halted. -/
structure Served (principalID : Bytes) (r : Authority.DeliveryRow) (db : Authority.Database) :
    Prop where
  valid : (exactQuery principalID r).validate = .ok ()
  active : activeEdge (exactQuery principalID r) db = .ok ()

theorem listEdgeDeliveries_served {principalID : Bytes} {r : Authority.DeliveryRow}
    {db : Authority.Database} (h : Served principalID r db) {store : Store}
    {es : List Authority.Event} (hdb : db = store.run {} es) (hr : r ∈ db.deliveries) :
    ∃ page, Authority.listEdgeDeliveries (exactQuery principalID r) db = .ok page ∧
      page.deliveries = [r.delivery] := by
  have hmem : r.delivery ∈ (store.edgeLog es r.log).entries := by
    refine List.mem_map_of_mem (List.mem_filter.mpr ⟨hdb ▸ hr, ?_⟩)
    exact decide_eq_true rfl
  obtain ⟨k, hsequence, hentry⟩ := (store.edgeLog es r.log).entry_at _ hmem
  have hafter : (exactQuery principalID r).afterSequence = k := by
    show r.deliverySequence - 1 = k
    have hseq : r.deliverySequence = k + 1 := hsequence
    omega
  refine ⟨deliveryPage (store.edgeLog es r.log).entries k 1, ?_, ?_⟩
  · unfold Authority.listEdgeDeliveries
    rw [h.valid, h.active, ok_bind, ok_bind, hafter, hdb]
    rfl
  · obtain ⟨hk, hget⟩ := List.getElem?_eq_some_iff.mp hentry
    rw [EdgeLog.page_deliveries, List.drop_eq_getElem_cons hk, hget]
    rfl

theorem listEdgeDeliveries_refused {principalID : Bytes} {r : Authority.DeliveryRow}
    {db : Authority.Database} (h : ¬ Served principalID r db) :
    ∃ e, Authority.listEdgeDeliveries (exactQuery principalID r) db = .error e := by
  cases hlist : Authority.listEdgeDeliveries (exactQuery principalID r) db with
  | error e => exact ⟨e, rfl⟩
  | ok =>
    unfold Authority.listEdgeDeliveries at hlist
    obtain ⟨_, hvalid, hlist⟩ := bind_eq_ok.mp hlist
    obtain ⟨_, hactive, -⟩ := bind_eq_ok.mp hlist
    exact absurd ⟨hvalid, hactive⟩ h

/-! ### The exact delivery -/

def ReadsExactly (source : DeliverySource) (principalID : Bytes) (r : Authority.DeliveryRow)
    (db : Authority.Database) : Prop :=
  source r.log (r.deliverySequence - 1) 1 =
    (Authority.listEdgeDeliveries (exactQuery principalID r) db).toOption

section
variable {source : DeliverySource} {principalID : Bytes} {r : Authority.DeliveryRow}
  {db : Authority.Database} (hsource : ReadsExactly source principalID r db) {j : JournalDelivery}
  (hj : Carried j r)
include hsource hj

theorem source_carried :
    source (r.tenantID, j.edgeID, j.edgeGeneration) (j.deliverySeq - 1) 1 =
      (Authority.listEdgeDeliveries (exactQuery principalID r) db).toOption := by
  have hedge : j.edgeID = r.edgeID := congrArg (fun k => k.2.1) hj.identity
  have hgeneration : j.edgeGeneration = r.edgeGeneration := congrArg (fun k => k.2.2) hj.identity
  rw [hedge, hgeneration, hj.sequence]
  exact hsource

theorem resolveExactDelivery_served (h : Served principalID r db) {store : Store}
    {es : List Authority.Event} (hdb : db = store.run {} es) (hr : r ∈ db.deliveries) :
    resolveExactDelivery source r.tenantID j = .ok r.delivery := by
  obtain ⟨page, hlist, hpage⟩ := listEdgeDeliveries_served h hdb hr
  have hexact : r.delivery.sequence = j.deliverySeq ∧ r.delivery.raw = j.raw :=
    ⟨hj.sequence.symm, hj.raw.symm⟩
  unfold resolveExactDelivery
  rw [source_carried hsource hj, hlist]
  simp only [Except.toOption, hpage, if_pos hexact]

theorem resolveExactDelivery_refused (h : ¬ Served principalID r db) :
    resolveExactDelivery source r.tenantID j = .error .transient := by
  obtain ⟨e, hlist⟩ := listEdgeDeliveries_refused h
  unfold resolveExactDelivery
  rw [source_carried hsource hj, hlist]
  rfl

end

structure Addressed (s : Service) (r : Authority.DeliveryRow) : Prop where
  tenant : r.tenantID = s.tenant
  edge : r.edgeID ≠ []
  generation : 0 < r.edgeGeneration
  sequence : 0 < r.deliverySequence
  raw : r.raw ≠ []

theorem verify_carried {s : Service} {r : Authority.DeliveryRow} (h : Addressed s r)
    {j : JournalDelivery} (hj : Carried j r) (authority : ProjectionAuthority) :
    (pinned s authority).verify j =
      resolveExactDelivery authority.listEdgeDeliveries r.tenantID j >>=
        (pinned s authority).content j := by
  have htenant : j.tenantID = r.tenantID := congrArg Prod.fst hj.identity
  have hedge : j.edgeID = r.edgeID := congrArg (fun k => k.2.1) hj.identity
  have hgeneration : j.edgeGeneration = r.edgeGeneration := congrArg (fun k => k.2.2) hj.identity
  rw [h.tenant]
  exact verifyExact_eq (htenant.trans h.tenant) (hedge ▸ h.edge) (hgeneration ▸ h.generation)
    (hj.sequence ▸ h.sequence) (hj.raw ▸ h.raw) _ _

/-! ### The edge and a committed fact -/

section
variable {db : Authority.Database} {workload : WorkloadIdentity} {s : Service}
  {row : Authority.CaseRow} {ev : CaseEvidence s workload row.raw db} {es : List Authority.Event}
  {store : Store} {n : ℤ}

def ProvedAt (root e : Envelope) : Prop :=
  ∃ emitted, parseTimestamp e.emittedAt = some emitted ∧ root.LiveAt emitted

/-- What an edge with this principal, reading these tables, makes of the
delivery: accepted if it is served and the registry proof holds, rejected for
good if only the proof fails, left for later if it is not served. -/
structure Decides (s : Service) (db : Authority.Database) (principalID : Bytes)
    (r : Authority.DeliveryRow) (proved : Prop) : Prop where
  accepted : ∀ j, Carried j r →
    ((∃ p, (pinned s (storeAuthority s.tenant principalID db)).verify j = .ok p) ↔
      Served principalID r db ∧ proved)
  rejected : ∀ j, Carried j r → Served principalID r db → ¬ proved →
    (pinned s (storeAuthority s.tenant principalID db)).verify j =
      .error (permanent "invalid_registry_proof")
  refused : ∀ j, Carried j r → ¬ Served principalID r db →
    (pinned s (storeAuthority s.tenant principalID db)).verify j = .error .transient

theorem decides_of_content (hdb : db = store.run {} es) {r : Authority.DeliveryRow}
    (hr : r ∈ db.deliveries) (h : Addressed s r) {principalID : Bytes} {proved : Prop}
    (hproved : ∀ j, Carried j r → proved →
      ∃ p, (pinned s (storeAuthority s.tenant principalID db)).content j r.delivery = .ok p)
    (hunproved : ∀ j, Carried j r → ¬ proved →
      (pinned s (storeAuthority s.tenant principalID db)).content j r.delivery =
        .error (permanent "invalid_registry_proof")) :
    Decides s db principalID r proved := by
  have hsource : ReadsExactly (storeAuthority s.tenant principalID db).listEdgeDeliveries
      principalID r db := rfl
  have hrefused : ∀ j, Carried j r → ¬ Served principalID r db →
      (pinned s (storeAuthority s.tenant principalID db)).verify j = .error .transient := by
    intro j hj hserved
    rw [verify_carried h hj, resolveExactDelivery_refused hsource hj hserved, error_bind]
  have hrejected : ∀ j, Carried j r → Served principalID r db → ¬ proved →
      (pinned s (storeAuthority s.tenant principalID db)).verify j =
        .error (permanent "invalid_registry_proof") := by
    intro j hj hserved hnot
    rw [verify_carried h hj, resolveExactDelivery_served hsource hj hserved hdb hr, ok_bind]
    exact hunproved j hj hnot
  refine ⟨?_, hrejected, hrefused⟩
  intro j hj
  constructor
  · rintro ⟨p, hverify⟩
    by_cases hserved : Served principalID r db
    · refine ⟨hserved, ?_⟩
      by_contra hnot
      rw [hrejected j hj hserved hnot] at hverify
      cases hverify
    · rw [hrefused j hj hserved] at hverify
      cases hverify
  · rintro ⟨hserved, hholds⟩
    rw [verify_carried h hj, resolveExactDelivery_served hsource hj hserved hdb hr, ok_bind]
    exact hproved j hj hholds

theorem resolveRegistry_stored {revision : ℤ} {hash : Bytes}
    (r : RegistryEvidence s revision hash db) (principalID : Bytes) :
    (storeAuthority s.tenant principalID db).resolveRegistry s.tenant revision hash =
      .ok r.record := by
  show (Authority.resolveRegistry s.tenant revision hash db).mapError _ = _
  rw [r.found]
  rfl

theorem resolveCase_stored {caseID commitment principalID : Bytes}
    (h : Authority.resolveCase s.tenant caseID commitment db = .ok row) :
    (storeAuthority s.tenant principalID db).resolveCase caseID commitment = .ok row := by
  show (Authority.resolveCase s.tenant caseID commitment db).mapError _ = _
  rw [h]
  rfl

theorem resolveCase_mem (h : CaseProof ev)
    (hdb : Consistent db) (hmem : row ∈ db.cases) :
    Authority.resolveCase s.tenant row.caseID row.commitment db = .ok row := by
  have htenant : row.tenantID = s.tenant := congrArg Authority.CaseRow.tenantID h.committed
  have hvalid := h.valid
  unfold CommitCaseRequest.validate at hvalid
  simp only [ensure_eq_ok, Bool.and_eq_true] at hvalid
  obtain ⟨⟨⟨⟨⟨⟨⟨⟨⟨⟨⟨hnamed, hcase⟩, -⟩, hcommitment⟩, -⟩, -⟩, -⟩, -⟩, -⟩, -⟩, -⟩, -⟩ := hvalid
  have hcaseID : validText row.caseID = true := by
    rw [h.committed]
    exact hcase
  have hhash : Authority.validCommitment row.commitment = true := by
    rw [h.committed]
    exact hcommitment
  have hfind : db.cases.find? (fun r => r.key == (s.tenant, row.caseID) &&
      r.commitment == row.commitment) = some row := by
    cases hfound : db.cases.find? (fun r => r.key == (s.tenant, row.caseID) &&
        r.commitment == row.commitment) with
    | none =>
      have hnone := List.find?_eq_none.mp hfound row hmem
      simp [Authority.CaseRow.key, htenant] at hnone
    | some =>
      have hother := List.find?_some hfound
      simp only [Bool.and_eq_true, beq_iff_eq] at hother
      have hkey : row.key = (s.tenant, row.caseID) := by rw [← htenant]; rfl
      rw [hdb.oneCase.eq_of_key (List.mem_of_find?_eq_some hfound) hmem
        (hother.1.trans hkey.symm)]
  have hnames : (validText s.tenant && validText row.caseID &&
      Authority.validCommitment row.commitment) = true := by
    simp [show validText s.tenant = true from hnamed, hcaseID, hhash]
  unfold Authority.resolveCase
  rw [hnames, hfind]
  rfl

theorem CaseProof.addressed (h : CaseProof ev)
    (hn : 0 < n) : Addressed s ((Authority.Fact.case row).delivery n) where
  tenant := congrArg Authority.CaseRow.tenantID h.committed
  edge := by
    obtain ⟨edge, principal, route, hgrant⟩ := authorizesCase_eq_true.mp
      ev.checked.authorized
    have hedge : row.issuerEdgeID = ev.body.issuerEdgeID :=
      congrArg Authority.CaseRow.issuerEdgeID h.committed
    show row.issuerEdgeID ≠ []
    rw [hedge]
    exact hgrant.edgeNamed
  generation := by
    obtain ⟨edge, principal, route, hgrant⟩ := authorizesCase_eq_true.mp
      ev.checked.authorized
    have hgeneration : row.issuerEdgeGeneration = ev.body.issuerEdgeGeneration :=
      congrArg Authority.CaseRow.issuerEdgeGeneration h.committed
    show 0 < row.issuerEdgeGeneration
    rw [hgeneration]
    exact hgrant.positive
  sequence := hn
  raw := decodeStrictEnvelope_ne_nil ev.checked.signed.authentic.decoded

theorem AdviceProof.addressed {row : Authority.AdviceRow}
    {ev : AdviceEvidence s workload row.raw db} (h : AdviceProof ev) (hn : 0 < n) : Addressed s ((Authority.Fact.advice row).delivery n) := by
  obtain ⟨issuer, caseEv, hcase, -, -, -, -⟩ := h.case
  -- the advice goes to the edge of its case
  have hfact := hcase.addressed hn
  refine ⟨congrArg Authority.AdviceRow.tenantID h.committed, ?_, ?_, hn,
    decodeStrictEnvelope_ne_nil ev.checked.signed.authentic.decoded⟩
  · have hedge : row.targetEdgeID = ev.fact.issuerEdgeID :=
      congrArg Authority.AdviceRow.targetEdgeID h.committed
    show row.targetEdgeID ≠ []
    rw [hedge]
    exact hfact.edge
  · have hgeneration : row.targetEdgeGeneration = ev.fact.issuerEdgeGeneration :=
      congrArg Authority.AdviceRow.targetEdgeGeneration h.committed
    show 0 < row.targetEdgeGeneration
    rw [hgeneration]
    exact hfact.generation

theorem CaseProof.decides (h : CaseProof ev) (hdb : db = store.run {} es)
    (hrow : row ∈ db.cases) (hn : (Authority.Fact.case row).delivery n ∈ db.deliveries)
    (principalID : Bytes) :
    Decides s db principalID ((Authority.Fact.case row).delivery n)
      (ProvedAt ev.registry.root ev.envelope) := by
  have hpositive : 0 < n := sequence_positive hdb hn
  have hconsistent : Consistent db := hdb ▸ reachable_consistent store es
  have hread := resolveRegistry_stored ev.registry principalID
  have hcase : (storeAuthority s.tenant principalID db).resolveCase row.caseID row.commitment =
      .ok row := resolveCase_stored (resolveCase_mem h hconsistent hrow)
  refine decides_of_content hdb hn (h.addressed hpositive) ?_ ?_
  · rintro j hj ⟨emitted, hemitted, hlive⟩
    obtain ⟨body, -, -, hcontent⟩ := h.content_accepted hemitted hread hj hlive hcase
    exact ⟨_, hcontent⟩
  · intro j hj hnot
    obtain ⟨emitted, hemitted, -⟩ := ev.checked.signed.emission
    exact h.content_stale hemitted hread hj fun hlive => hnot ⟨emitted, hemitted, hlive⟩

theorem AdviceProof.decides {row : Authority.AdviceRow}
    {ev : AdviceEvidence s workload row.raw db} (h : AdviceProof ev) (hdb : db = store.run {} es)
    (hn : (Authority.Fact.advice row).delivery n ∈ db.deliveries) (principalID : Bytes) :
    Decides s db principalID ((Authority.Fact.advice row).delivery n)
      (ProvedAt ev.registry.root ev.envelope ∧ ProvedAt ev.registry.root ev.case) := by
  have hpositive : 0 < n := sequence_positive hdb hn
  have hread := resolveRegistry_stored ev.registry principalID
  have hcaseID : row.caseID = ev.envelope.caseID := congrArg Authority.AdviceRow.caseID h.committed
  have hcommitment : row.caseCommitment = ev.fact.commitment :=
    congrArg Authority.AdviceRow.caseCommitment h.committed
  have hcase : (storeAuthority s.tenant principalID db).resolveCase row.caseID row.caseCommitment =
      .ok ev.fact := by
    rw [hcaseID, hcommitment]
    exact resolveCase_stored ev.caseChecked.found
  refine decides_of_content hdb hn (h.addressed hpositive) ?_ ?_
  · rintro j hj ⟨⟨emitted, hemitted, hlive⟩, caseEmitted, hcaseEmitted, hcaseLive⟩
    obtain ⟨body, expires, -, -, -, hcontent⟩ :=
      h.content_accepted hemitted hread hj hlive hcase hcaseEmitted hcaseLive
    exact ⟨_, hcontent⟩
  · intro j hj hnot
    obtain ⟨emitted, hemitted, -⟩ := ev.checked.signed.emission
    obtain ⟨caseEmitted, hcaseEmitted, -⟩ := ev.caseChecked.signed.emission
    by_cases hlive : ev.registry.root.LiveAt emitted
    · refine h.content_unproved hemitted hread hj hlive hcase hcaseEmitted ?_
      intro hcaseLive
      exact hnot ⟨⟨emitted, hemitted, hlive⟩, caseEmitted, hcaseEmitted, hcaseLive⟩
    · exact h.content_stale hemitted hread hj hlive

end

/-! ### The edge of a case under the registry it names -/

section
variable {workload : WorkloadIdentity} {past : List Control.Event} {row : Authority.CaseRow}
  {st : Control.State} {d : Deployment} {ev : CaseEvidence d.service workload row.raw st.db}

-- the head was made by the registry the case names
theorem CaseProof.head_snapshot
    (hrun : Accounted d past st) (h : CaseProof ev)
    {head : HeadRow} (hhead : head ∈ st.db.heads)
    (hbinds : head.latestRevision = row.registryRevision) :
    ∃ publisher raw root, Installed
      (d.service.registryRequest publisher raw root ev.registry.snapshot) head st.db := by
  have hrevision : row.registryRevision = ev.envelope.registryRevision :=
    congrArg Authority.CaseRow.registryRevision h.committed
  obtain ⟨publisher, raw, root, snapshot, hchecked, hinstalled⟩ := hrun.heads head hhead
  obtain ⟨revision, hrow⟩ := hinstalled.row
  have hmade : snapshot.revision = ev.envelope.registryRevision :=
    hinstalled.revision.symm.trans (hbinds.trans hrevision)
  obtain ⟨hmem, hkey, -⟩ := resolveRegistry_ok ev.registry.found
  have hrowKey : (d.service.tenant, snapshot.revision) = ev.registry.record.key := by
    rw [hkey, hmade]
  have hsame := hrun.backed.oneRegistry.eq_of_key hrow hmem hrowKey
  have hraw : raw = ev.registry.record.raw := congrArg RegistryRow.raw hsame
  have hrooted := hchecked.rooted
  rw [hraw] at hrooted
  rw [(hrooted.unique ev.registry.rooted).2] at hinstalled
  exact ⟨publisher, raw, root, hinstalled⟩

theorem CaseProof.served
    (hrun : Accounted d past st) (h : CaseProof ev)
    {head : HeadRow} (hlive : LiveHead st.db row.tenantID head)
    (hbinds : head.latestRevision = row.registryRevision) {n : ℤ} (hn : 0 < n) :
    Served workload.principalID ((Authority.Fact.case row).delivery n) st.db := by
  have htenant : row.tenantID = d.service.tenant :=
    congrArg Authority.CaseRow.tenantID h.committed
  have hedge : row.issuerEdgeID = ev.body.issuerEdgeID :=
    congrArg Authority.CaseRow.issuerEdgeID h.committed
  have hgeneration : row.issuerEdgeGeneration = ev.body.issuerEdgeGeneration :=
    congrArg Authority.CaseRow.issuerEdgeGeneration h.committed
  obtain ⟨hhead, -⟩ := Table.find_eq_some hlive.found
  obtain ⟨publisher, raw, root, hinstalled⟩ := h.head_snapshot hrun hhead hbinds
  obtain ⟨edge, principal, route, hgrant⟩ := authorizesCase_eq_true.mp
    ev.checked.authorized
  have hprincipal : workload.principalID = edge.principalID :=
    congrArg WorkloadIdentity.principalID hgrant.identity
  have hlisted := edgeMap_entry hgrant.edgeListed noEdges
  -- the edge of the case is one the head lists, under the principal of the workload
  have hwater := hinstalled.edges _ hlisted
  have hvalid := hinstalled.valid
  unfold CommitRegistryRequest.validate at hvalid
  simp only [ensure_bind_eq_ok, ensure_eq_ok, Bool.and_eq_true] at hvalid
  obtain ⟨⟨⟨⟨⟨⟨⟨⟨hnamed, -⟩, -⟩, -⟩, -⟩, -⟩, -⟩, -⟩, hedges⟩ := hvalid
  have hentry := List.all_eq_true.mp hedges _ hlisted
  simp only [Bool.and_eq_true] at hentry
  obtain ⟨⟨hedgeNamed, hprincipalNamed⟩, -⟩ := hentry
  constructor
  · have htenantNamed : validText row.tenantID = true := htenant ▸ hnamed
    have hedgeNamed' : validText row.issuerEdgeID = true := hedge ▸ hedgeNamed
    have hpositive : 0 < row.issuerEdgeGeneration := hgeneration ▸ hgrant.positive
    have hafter : 1 ≤ n := hn
    have hprincipalNamed' : validText edge.principalID = true := hprincipalNamed
    unfold EdgeDeliveryQuery.validate exactQuery
    simp [Authority.Fact.delivery, htenantNamed, hedgeNamed', hprincipal, hprincipalNamed',
      hpositive, hafter]
  · have hhighWater : Table.find HighWaterRow.key (row.tenantID, row.issuerEdgeID)
        st.db.highWater = some ⟨d.service.tenant, ev.body.issuerEdgeID, edge.principalID,
          edge.generation, ev.registry.snapshot.revision⟩ := by
      rw [htenant, hedge]
      exact hwater
    have hseen : head.latestRevision = ev.registry.snapshot.revision := hinstalled.revision
    unfold activeEdge exactQuery
    simp only [Authority.Fact.delivery, hlive.found, hhighWater, hlive.live, orFail, ok_bind,
      Bool.not_false, ensure_true, hprincipal, hgeneration, hgrant.generation, hseen,
      beq_self_eq_true, Bool.and_self]

end

/-! ### Every commit -/

theorem submit_earlier {events : List Control.Event} {call : ℕ} {env : Attempt}
    {workload : WorkloadIdentity} {raw : Bytes} {clock : Clock}
    (h : Control.Event.submit workload raw clock ∈ events ++ [.attempt call env]) :
    .submit workload raw clock ∈ events := by
  rcases List.mem_append.mp h with h | h
  · exact h
  · cases List.mem_singleton.mp h

/-- The row an attempt commits for a submitted case or advice, at its edge and
against the tables the attempt leaves. A case is always served to the workload
that issued it, and is accepted exactly if the registry it names was live when
its envelope was emitted; an advice is accepted exactly if its edge is still
served and the registry was live at both emissions. Whatever is served and not
accepted is rejected for good. -/
theorem committed_delivery_accepted (d : Deployment) (events : List Control.Event) (call : ℕ)
    (env : Attempt) :
    let before := (d.run {} events).db
    let after := (d.run {} (events ++ [.attempt call env])).db
    (∀ row ∈ after.cases, row ∉ before.cases →
      ∃ workload clock, ∃ ev : CaseEvidence d.service workload row.raw after,
        .submit workload row.raw clock ∈ events ∧ ev.Current clock ∧
        row = ev.request.row row.commitRevision ∧
        ∃ n, (Authority.Fact.case row).delivery n ∈ after.deliveries ∧
          Served workload.principalID ((Authority.Fact.case row).delivery n) after ∧
          Decides d.service after workload.principalID ((Authority.Fact.case row).delivery n)
            (ProvedAt ev.registry.root ev.envelope)) ∧
    (∀ row ∈ after.advice, row ∉ before.advice →
      ∃ workload clock, ∃ ev : AdviceEvidence d.service workload row.raw after,
        .submit workload row.raw clock ∈ events ∧ ev.Current clock ∧
        row = ev.request.row ev.fact row.deliverySequence row.commitRevision ∧
        ∃ n, (Authority.Fact.advice row).delivery n ∈ after.deliveries ∧
          ∀ principalID, Decides d.service after principalID
            ((Authority.Fact.advice row).delivery n)
            (ProvedAt ev.registry.root ev.envelope ∧ ProvedAt ev.registry.root ev.case)) := by
  intro before after
  have hrun := run_accounted d (events ++ [.attempt call env])
  obtain ⟨es, hdb⟩ := hrun.reachable
  obtain ⟨facts, hfacts⟩ := reachable_represents d.store es
  rw [← hdb] at hfacts
  constructor
  · intro row hrow hnew
    obtain ⟨n, hn⟩ := hfacts.delivered ((hfacts.case_mem row).mp hrow)
    obtain hsame | ⟨c, -, hchange⟩ := d.attempt_change events call env
    · have hsame : after = before := hsame
      exact absurd (hsame ▸ hrow) hnew
    obtain ⟨head, hlive, hbinds⟩ := hchange.new_case hrow hnew
    cases hrun.cases row hrow with
    | intro workload clock made ev current valid committed =>
      have hproof := caseProof_of_run hrun hrow current valid committed
      have hpositive : (0 : ℤ) < n := sequence_positive hdb hn
      exact ⟨workload, clock, ev, submit_earlier made, current, committed, n, hn,
        hproof.served hrun hlive hbinds hpositive, hproof.decides hdb hrow hn _⟩
  · intro row hrow _
    obtain ⟨n, hn⟩ := hfacts.delivered ((hfacts.advice_mem row).mp hrow)
    cases hrun.advice row hrow with
    | intro workload clock made ev current valid committed =>
      have hproof := adviceProof_of_run hrun hrow current committed
      exact ⟨workload, clock, ev, submit_earlier made, current, committed, n, hn,
        fun principalID => hproof.decides hdb hn principalID⟩

/-- The case is stamped one second before the registry it names, and both are
admitted later. -/
theorem committed_delivery_rejected :
    let raw := Sample.case "2026-01-01T00:00:04Z"
    let db := (Sample.deployment.run {} (Sample.events raw)).db
    db.cases.map (fun row => (row.raw, row.log)) = [(raw, [116], [101], 1)] ∧
      (pinned Sample.service (storeAuthority [116] [112] db)).verify
        ⟨[], 0, 1, [116], [101], 1, [], raw⟩ = .error (permanent "invalid_registry_proof") := by
  decide +kernel

end Snagline.Edge
