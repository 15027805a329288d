import Snagline.Authority.Bookkeeping
import Snagline.Authority.Deliveries
import Snagline.Authority.Outbox

/-!
# The routes of outbox rows

A row of the outbox names its destination by a text key; the route itself is
joined from the case or from the delivery of the same revision. In every
reachable state the join finds exactly the row the key was made from, so the
worker turns each row of at most 64 KiB into a request.
-/

namespace Snagline.Delivery
open Kit Ssp Authority

/-! ### What the routes are made of -/

structure Addressable (tenantID edgeID : Bytes) (generation : ℤ) : Prop where
  tenant : tenantID ≠ []
  edge : edgeID ≠ []
  generation : 0 < generation

structure Routed (db : Database) : Prop where
  named : ∀ o ∈ db.outbox, o.outboxID ≠ []
  cases : ∀ c ∈ db.cases,
    Addressable c.tenantID c.issuerEdgeID c.issuerEdgeGeneration ∧ c.domain ≠ []
  deliveries : ∀ d ∈ db.deliveries, Addressable d.tenantID d.edgeID d.edgeGeneration

theorem routed_empty : Routed {} := by
  constructor <;> simp

theorem CommitCaseRequest.addressable {r : CommitCaseRequest} (h : r.validate = .ok ()) :
    Addressable r.tenantID r.issuerEdgeID r.issuerEdgeGeneration ∧ r.domain ≠ [] := by
  unfold CommitCaseRequest.validate at h
  simp only [ensure_eq_ok, Bool.and_eq_true, decide_eq_true_eq] at h
  obtain ⟨⟨⟨⟨⟨⟨⟨⟨⟨⟨⟨htenant, -⟩, -⟩, -⟩, -⟩, hdomain⟩, hedge⟩, hgeneration⟩, -⟩, -⟩, -⟩, -⟩ := h
  exact ⟨⟨ne_nil_of_validText htenant, ne_nil_of_validText hedge, hgeneration⟩,
    ne_nil_of_validText hdomain⟩

theorem forall_mem_concat {α : Type} {P : α → Prop} {xs : List α} {a : α} (h : ∀ x ∈ xs, P x)
    (ha : P a) : ∀ x ∈ xs ++ [a], P x := by
  intro x hx
  rcases List.mem_append.mp hx with hold | hnew
  · exact h x hold
  · exact List.mem_singleton.mp hnew ▸ ha

theorem Routed.change {db db' : Database} {c : Call} (h : Routed db) (hchange : Change db c db') :
    Routed db' := by
  have hnamed : (∀ o ∈ db'.outbox, o ∈ db.outbox ∨ o.outboxID ≠ []) →
      ∀ o ∈ db'.outbox, o.outboxID ≠ [] := by
    intro hnew o ho
    rcases hnew o ho with hold | hne
    · exact h.named o hold
    · exact hne
  cases hchange with
  | none => exact h
  | case r revision written valid =>
    obtain ⟨haddress, hdomain⟩ := CommitCaseRequest.addressable valid
    refine ⟨hnamed written.named, ?_, ?_⟩
    · rw [written.cases]
      exact forall_mem_concat h.cases ⟨haddress, hdomain⟩
    · rw [written.deliveries]
      exact forall_mem_concat h.deliveries haddress
  | advice r c revision written valid free head live found =>
    obtain ⟨hmem, hkey⟩ := Table.find_eq_some found
    have htenant : c.tenantID = r.tenantID := congrArg Prod.fst hkey
    have haddress := (h.cases c hmem).1
    rw [htenant] at haddress
    refine ⟨hnamed written.named, ?_, ?_⟩
    · rw [written.cases]
      exact h.cases
    · rw [written.deliveries]
      exact forall_mem_concat h.deliveries haddress
  | registry r revision written =>
    refine ⟨hnamed fun o ho => Or.inl (written.outbox ▸ ho), ?_, ?_⟩
    · rw [written.cases]
      exact h.cases
    · rw [written.deliveries]
      exact h.deliveries
  | halted => exact ⟨h.named, h.cases, h.deliveries⟩

theorem reachable_routed (store : Store) (es : List Event) : Routed (store.run {} es) :=
  run_invariant store Routed (fun db e h => h.change (step_change store db e)) {} es routed_empty

/-! ### The join -/

theorem find_of_filter {ρ : Type} {p q : ρ → Bool} {rows : List ρ} {r : ρ}
    (h : rows.filter q = [r]) (hr : p r = true) :
    rows.find? (fun x => p x && q x) = some r := by
  rw [← List.head?_filter, ← List.filter_filter, h]
  simp [hr]

theorem mem_of_filter {ρ : Type} {q : ρ → Bool} {rows : List ρ} {r : ρ}
    (h : rows.filter q = [r]) : r ∈ rows ∧ q r = true := by
  have hmem : r ∈ rows.filter q := by
    rw [h]
    exact List.mem_singleton_self r
  exact List.mem_filter.mp hmem

inductive Joined (db : Database) (o : OutboxRow) : Prop
  | domain (c : CaseRow) (n : ℤ) (kind : o.destinationKind = .domainDispatch)
      (event : o.eventKind = .case) (key : o.destinationKey = c.domain) (mem : c ∈ db.cases)
      (delivered : (Fact.case c).delivery n ∈ db.deliveries) (tenant : c.tenantID = o.tenantID)
      (revision : c.commitRevision = o.authorityRevision) (entity : o.entityID = c.caseID)
      (raw : o.raw = c.raw) (joined : joinedCase o db = some c)
  | edge (d : DeliveryRow) (kind : o.destinationKind = .edgeDelivery)
      (event : o.eventKind = d.deliveryKind)
      (key : o.destinationKey = edgeKey d.edgeID d.edgeGeneration) (mem : d ∈ db.deliveries)
      (tenant : d.tenantID = o.tenantID) (revision : d.authorityRevision = o.authorityRevision)
      (entity : o.entityID = d.caseID) (raw : o.raw = d.raw)
      (joined : joinedDelivery o db = some d)

section Join

variable {db : Database} {o : OutboxRow}

theorem joinedCase_eq {c : CaseRow} (hkind : o.destinationKind = .domainDispatch)
    (htenant : c.tenantID = o.tenantID)
    (hone : db.cases.filter (fun r => r.commitRevision = o.authorityRevision) = [c]) :
    joinedCase o db = some c := by
  unfold joinedCase
  rw [if_pos hkind]
  exact find_of_filter (p := fun r => r.tenantID == o.tenantID) hone (by simp [htenant])

theorem joinedDelivery_eq {d : DeliveryRow} (hkind : o.destinationKind = .edgeDelivery)
    (htenant : d.tenantID = o.tenantID)
    (hone : db.deliveries.filter (fun r => r.authorityRevision = o.authorityRevision) = [d]) :
    joinedDelivery o db = some d := by
  unfold joinedDelivery
  rw [if_pos hkind]
  exact find_of_filter (p := fun r => r.tenantID == o.tenantID) hone (by simp [htenant])

theorem Booked.joined (h : Booked db) (ho : o ∈ db.outbox) : Joined db o := by
  have hown : o ∈ (db.under o.authorityRevision).outbox :=
    List.mem_filter.mpr ⟨ho, decide_eq_true rfl⟩
  have hdrawn : o.authorityRevision ∈ db.revisions := by
    by_contra hnot
    rw [h.unused _ hnot] at hown
    cases hown
  have hcomplete := h.committed _ hdrawn
  generalize hunder : db.under o.authorityRevision = w at hcomplete hown
  cases hcomplete with
  | case c n a domain edge audited dispatched delivered =>
    have hcases : db.cases.filter (fun r => r.commitRevision = o.authorityRevision) = [c] :=
      congrArg Writes.cases hunder
    have hdeliveries : db.deliveries.filter (fun r => r.authorityRevision = o.authorityRevision) =
        [(Fact.case c).delivery n] := congrArg Writes.deliveries hunder
    have hc := mem_of_filter hcases
    have hd := mem_of_filter hdeliveries
    have hrevision : c.commitRevision = o.authorityRevision := of_decide_eq_true hc.2
    rcases List.mem_cons.mp hown with rfl | hedge
    · have htenant : c.tenantID = o.tenantID := (congrArg OutboxRow.tenantID dispatched).symm
      have hkind := congrArg OutboxRow.destinationKind dispatched
      exact .domain c n hkind (congrArg OutboxRow.eventKind dispatched)
        (congrArg OutboxRow.destinationKey dispatched) hc.1 hd.1 htenant hrevision
        (congrArg OutboxRow.entityID dispatched) (congrArg OutboxRow.raw dispatched)
        (joinedCase_eq hkind htenant hcases)
    · cases List.mem_singleton.mp hedge
      have htenant : c.tenantID = o.tenantID := (congrArg OutboxRow.tenantID delivered).symm
      have hkind := congrArg OutboxRow.destinationKind delivered
      exact .edge ((Fact.case c).delivery n) hkind (congrArg OutboxRow.eventKind delivered)
        (congrArg OutboxRow.destinationKey delivered) hd.1 htenant hrevision
        (congrArg OutboxRow.entityID delivered) (congrArg OutboxRow.raw delivered)
        (joinedDelivery_eq hkind htenant hdeliveries)
  | advice r n a edge audited delivered =>
    have hdeliveries : db.deliveries.filter (fun r => r.authorityRevision = o.authorityRevision) =
        [(Fact.advice r).delivery n] := congrArg Writes.deliveries hunder
    have hd := mem_of_filter hdeliveries
    cases List.mem_singleton.mp hown
    have htenant : r.tenantID = o.tenantID := (congrArg OutboxRow.tenantID delivered).symm
    have hkind := congrArg OutboxRow.destinationKind delivered
    exact .edge ((Fact.advice r).delivery n) hkind (congrArg OutboxRow.eventKind delivered)
      (congrArg OutboxRow.destinationKey delivered) hd.1 htenant (of_decide_eq_true hd.2)
      (congrArg OutboxRow.entityID delivered) (congrArg OutboxRow.raw delivered)
      (joinedDelivery_eq hkind htenant hdeliveries)
  | registry => cases hown

end Join

/-! ### The request -/

def edgeSubject (sha256 : Bytes → Bytes) (tenantID edgeID : Bytes) (generation : ℕ) : Bytes :=
  List.intercalate [46] [subjectRoot, routingToken sha256 tenantID, Destination.edge.text,
    edgeToken sha256 edgeID generation]

def edgeRequest (o : OutboxRow) (d : DeliveryRow) : PublishRequest where
  outboxID := o.outboxID
  destination := .edge
  tenantID := d.tenantID
  edgeID := d.edgeID
  edgeGeneration := d.edgeGeneration.toNat
  rawSSP := d.raw
  factSequence := d.authorityRevision.toNat
  deliverySequence := d.deliverySequence.toNat

section Request

variable {db : Database} {o : OutboxRow} {d : DeliveryRow} {sha256 : Bytes → Bytes}

structure EdgeReady (o : OutboxRow) (d : DeliveryRow) : Prop where
  named : o.outboxID ≠ []
  address : Addressable d.tenantID d.edgeID d.edgeGeneration
  complete : d.delivery.Complete
  sequence : 0 < d.deliverySequence
  size : d.raw.length ≤ maxEnvelopeBytes

theorem toNat_ne_zero {n : ℤ} (h : 0 < n) : (n.toNat != 0) = true := by
  simp only [bne_iff_ne, ne_eq]
  omega

theorem EdgeReady.subject (h : EdgeReady o d) (sha256 : Bytes → Bytes) :
    subjectFor sha256 (edgeRequest o d) =
      .ok (edgeSubject sha256 d.tenantID d.edgeID d.edgeGeneration.toNat) := by
  have hgeneration := toNat_ne_zero h.address.generation
  have hsequence := toNat_ne_zero h.sequence
  have hrevision : (d.authorityRevision.toNat != 0) = true :=
    toNat_ne_zero h.complete.authorityRevision
  have hraw : (!d.raw.isEmpty && d.raw.length ≤ maxEnvelopeBytes) = true := by
    simpa using ⟨h.complete.raw, h.size⟩
  have hsubject : (edgeRequest o d).subject sha256 =
      .ok (edgeSubject sha256 d.tenantID d.edgeID d.edgeGeneration.toNat) := by
    refine ensure_bind_eq_ok.mpr ⟨bne_iff_ne.mpr h.address.tenant, ?_⟩
    refine ensure_bind_eq_ok.mpr ⟨?_, rfl⟩
    exact Bool.and_eq_true_iff.mpr ⟨bne_iff_ne.mpr h.address.edge, hgeneration⟩
  have hvalid : validatePublishRequest sha256 (edgeRequest o d) = .ok () := by
    refine ensure_bind_eq_ok.mpr ⟨bne_iff_ne.mpr h.named, ?_⟩
    refine ensure_bind_eq_ok.mpr ⟨hrevision, ?_⟩
    refine ensure_bind_eq_ok.mpr ⟨hsequence, ?_⟩
    refine ensure_bind_eq_ok.mpr ⟨hraw, ?_⟩
    exact bind_eq_ok.mpr ⟨_, hsubject, rfl⟩
  exact bind_eq_ok.mpr ⟨(), hvalid, hsubject⟩

def edgeItem (o : OutboxRow) (d : DeliveryRow) (token : Bytes) : Item :=
  ⟨o.outboxID, token, d.tenantID, d.deliveryKind, d.caseID, .edgeDelivery,
    edgeKey d.edgeID d.edgeGeneration, d.raw, d.authorityRevision, [], d.edgeID, d.edgeGeneration,
    d.deliverySequence⟩

theorem EdgeReady.request (h : EdgeReady o d) (sha256 : Bytes → Bytes) {token : Bytes}
    (htoken : token ≠ []) : publishRequest sha256 (edgeItem o d token) = .ok (edgeRequest o d) := by
  have hkey : edgeKey d.edgeID d.edgeGeneration ≠ [] := by
    unfold edgeKey
    simp
  have hkind : (d.deliveryKind == .case || d.deliveryKind == .advice) = true := by
    have hnot : d.deliveryKind ≠ .registry := h.complete.kind
    cases hk : d.deliveryKind with
    | case | advice => rfl
    | registry => exact absurd hk hnot
  have hraw : d.raw ≠ [] := h.complete.raw
  have htuple : (d.edgeID != [] && 0 < d.edgeGeneration && 0 < d.deliverySequence) = true := by
    simpa using ⟨⟨h.address.edge, h.address.generation⟩, h.sequence⟩
  have hcommon : validateCommonItem (edgeItem o d token) = .ok () := by
    refine ensure_bind_eq_ok.mpr ⟨bne_iff_ne.mpr h.named, ?_⟩
    refine ensure_bind_eq_ok.mpr ⟨bne_iff_ne.mpr htoken, ?_⟩
    refine ensure_bind_eq_ok.mpr ⟨bne_iff_ne.mpr h.address.tenant, ?_⟩
    refine ensure_bind_eq_ok.mpr ⟨bne_iff_ne.mpr h.complete.caseID, ?_⟩
    refine ensure_bind_eq_ok.mpr ⟨bne_iff_ne.mpr hkey, ?_⟩
    refine ensure_bind_eq_ok.mpr ⟨by simpa [edgeItem] using hraw, ?_⟩
    refine ensure_bind_eq_ok.mpr ⟨decide_eq_true h.complete.authorityRevision, ?_⟩
    exact ensure_eq_ok.mpr hkind
  have hrequest : (edgeItem o d token).request = .ok (edgeRequest o d) := by
    refine ensure_bind_eq_ok.mpr ⟨hkind, ?_⟩
    refine ensure_bind_eq_ok.mpr ⟨htuple, ?_⟩
    refine ensure_bind_eq_ok.mpr ⟨beq_self_eq_true _, ?_⟩
    exact ensure_bind_eq_ok.mpr ⟨rfl, rfl⟩
  refine bind_eq_ok.mpr ⟨(), hcommon, ?_⟩
  refine bind_eq_ok.mpr ⟨_, hrequest, ?_⟩
  exact bind_eq_ok.mpr ⟨_, mapError_eq_ok.mpr (h.subject sha256), rfl⟩

structure DomainReady (o : OutboxRow) (c : CaseRow) : Prop where
  named : o.outboxID ≠ []
  tenant : c.tenantID ≠ []
  domain : c.domain ≠ []
  caseID : c.caseID ≠ []
  raw : c.raw ≠ []
  revision : 0 < c.commitRevision
  size : c.raw.length ≤ maxEnvelopeBytes

def domainItem (o : OutboxRow) (c : CaseRow) (token : Bytes) : Item :=
  ⟨o.outboxID, token, c.tenantID, .case, c.caseID, .domainDispatch, c.domain, c.raw,
    c.commitRevision, c.domain, [], 0, 0⟩

def domainRequest (o : OutboxRow) (c : CaseRow) : PublishRequest where
  outboxID := o.outboxID
  destination := .domain
  tenantID := c.tenantID
  domainID := c.domain
  rawSSP := c.raw
  factSequence := c.commitRevision.toNat

theorem DomainReady.request {c : CaseRow} (h : DomainReady o c) (sha256 : Bytes → Bytes)
    {token : Bytes} (htoken : token ≠ []) :
    publishRequest sha256 (domainItem o c token) = .ok (domainRequest o c) := by
  have hraw : (!c.raw.isEmpty && c.raw.length ≤ maxEnvelopeBytes) = true := by
    simpa using ⟨h.raw, h.size⟩
  have hroute : (c.domain != [] && c.domain == c.domain) = true := by simpa using h.domain
  have hcommon : validateCommonItem (domainItem o c token) = .ok () := by
    refine ensure_bind_eq_ok.mpr ⟨bne_iff_ne.mpr h.named, ?_⟩
    refine ensure_bind_eq_ok.mpr ⟨bne_iff_ne.mpr htoken, ?_⟩
    refine ensure_bind_eq_ok.mpr ⟨bne_iff_ne.mpr h.tenant, ?_⟩
    refine ensure_bind_eq_ok.mpr ⟨bne_iff_ne.mpr h.caseID, ?_⟩
    refine ensure_bind_eq_ok.mpr ⟨bne_iff_ne.mpr h.domain, ?_⟩
    refine ensure_bind_eq_ok.mpr ⟨by simpa [domainItem] using h.raw, ?_⟩
    exact ensure_bind_eq_ok.mpr ⟨decide_eq_true h.revision, rfl⟩
  have hrequest : (domainItem o c token).request = .ok (domainRequest o c) := by
    refine ensure_bind_eq_ok.mpr ⟨rfl, ?_⟩
    refine ensure_bind_eq_ok.mpr ⟨hroute, ?_⟩
    exact ensure_bind_eq_ok.mpr ⟨rfl, rfl⟩
  have hsubject : (domainRequest o c).subject sha256 =
      .ok (List.intercalate [46] [subjectRoot, routingToken sha256 c.tenantID,
        Destination.domain.text, routingToken sha256 c.domain]) := by
    refine ensure_bind_eq_ok.mpr ⟨bne_iff_ne.mpr h.tenant, ?_⟩
    exact ensure_bind_eq_ok.mpr ⟨bne_iff_ne.mpr h.domain, rfl⟩
  have hvalid : validatePublishRequest sha256 (domainRequest o c) = .ok () := by
    refine ensure_bind_eq_ok.mpr ⟨bne_iff_ne.mpr h.named, ?_⟩
    refine ensure_bind_eq_ok.mpr ⟨toNat_ne_zero h.revision, ?_⟩
    refine ensure_bind_eq_ok.mpr ⟨rfl, ?_⟩
    refine ensure_bind_eq_ok.mpr ⟨hraw, ?_⟩
    exact bind_eq_ok.mpr ⟨_, hsubject, rfl⟩
  refine bind_eq_ok.mpr ⟨(), hcommon, ?_⟩
  refine bind_eq_ok.mpr ⟨_, hrequest, ?_⟩
  exact bind_eq_ok.mpr ⟨_, mapError_eq_ok.mpr (bind_eq_ok.mpr ⟨(), hvalid, hsubject⟩), rfl⟩

end Request

inductive Publishable (sha256 : Bytes → Bytes) (db : Database) (o : OutboxRow) (token : Bytes) : Prop
  | domain (c : CaseRow) (kind : o.destinationKind = .domainDispatch)
      (request : publishRequest sha256 (claimedItem db o token) = .ok (domainRequest o c))
  | edge (d : DeliveryRow) (kind : o.destinationKind = .edgeDelivery) (mem : d ∈ db.deliveries)
      (tenant : d.tenantID = o.tenantID) (revision : d.authorityRevision = o.authorityRevision)
      (ready : EdgeReady o d)
      (request : publishRequest sha256 (claimedItem db o token) = .ok (edgeRequest o d))

theorem outbox_publishable (sha256 : Bytes → Bytes) {store : Store} {es : List Event} {o : OutboxRow}
    (ho : o ∈ (store.run {} es).outbox) (hsize : o.raw.length ≤ maxEnvelopeBytes) {token : Bytes}
    (htoken : token ≠ []) : Publishable sha256 (store.run {} es) o token := by
  have hrouted := reachable_routed store es
  have hdelivering := reachable_delivering store es
  have hnamed := hrouted.named o ho
  cases Booked.joined (reachable_booked store es) ho with
  | domain c n kind event key mem delivered tenant revision entity raw joined =>
    have hcomplete := hdelivering _ delivered
    have hready : DomainReady o c :=
      ⟨hnamed, (hrouted.cases c mem).1.tenant, (hrouted.cases c mem).2, hcomplete.caseID,
        hcomplete.raw, hcomplete.authorityRevision, raw ▸ hsize⟩
    have hitem : claimedItem (store.run {} es) o token = domainItem o c token := by
      have hnone : joinedDelivery o (store.run {} es) = none := by simp [joinedDelivery, kind]
      simp [claimedItem, domainItem, joined, hnone, tenant, event, entity, kind, key, raw, revision]
    exact .domain c kind (hitem ▸ hready.request sha256 htoken)
  | edge d kind event key mem tenant revision entity raw joined =>
    have hready : EdgeReady o d :=
      ⟨hnamed, hrouted.deliveries d mem, hdelivering d mem, sequence_positive rfl mem, raw ▸ hsize⟩
    have hitem : claimedItem (store.run {} es) o token = edgeItem o d token := by
      have hnone : joinedCase o (store.run {} es) = none := by simp [joinedCase, kind]
      simp [claimedItem, edgeItem, joined, hnone, tenant, event, entity, kind, key, raw, revision]
    exact .edge d kind mem tenant revision hready (hitem ▸ hready.request sha256 htoken)

end Snagline.Delivery
