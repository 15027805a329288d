import Snagline.Edge.Acknowledged
import Snagline.Edge.Verifier
import Snagline.Kit.Replica

/-!
# The journal is a prefix of the authority log

What an edge is for, as a replica: entry by entry of its delivery log it keeps a
receipt and, for an accepted entry, writes the projection. Whatever the carrier
loses, repeats, reorders or forges, and wherever the process stops, the journal
is the receipt of a prefix of the log.
-/

namespace Snagline.Edge
open Kit Ssp Delivery Authority

/-! ### The replica -/

structure Evidence where
  identity : Generation
  deliverySeq : ℤ
  subject : Bytes
  rawSHA256 : Bytes
  envelopeID : Option Bytes
  family : Option Family
  verdict : Verdict
  reason : Bytes
  deriving DecidableEq

def DeliveryRow.evidence (r : DeliveryRow) : Evidence :=
  ⟨r.identity, r.deliverySeq, r.subject, r.rawSHA256, r.envelopeID, r.family, r.verdict, r.reason⟩

structure Ledger where
  rows : List Evidence := []
  projection : Projection := {}

def Projection.settle (verdict : Verdict) (reason : Bytes) (p : Option VerifiedProjection) (seq : ℤ)
    (t : Projection) : Except EdgeError (Projection × Judged) :=
  match verdict, p with
  | .accepted, some p =>
    match t.claimIdentity p.envelopeID p.commitment seq with
    | (t, .quarantined) =>
      pure (t, ⟨.quarantined, text "semantic_commitment_conflict", .quarantined⟩)
    | (t, .duplicate) => pure (t, ⟨.accepted, reason, .duplicate⟩)
    | (t, _) => do
      let t ← t.persist p
      pure (t, ⟨.accepted, reason, .accepted⟩)
  | verdict, _ => pure (t, ⟨verdict, reason, verdict.outcome⟩)

/-- The lasting verdict on each entry of a log: a permanent refusal, or what the
entry says. -/
abbrev Judge := EdgeDelivery → Except Bytes VerifiedProjection

def JournalConsumer.record (c : JournalConsumer) (judge : Judge) (l : Ledger)
    (e : EdgeDelivery) : Except EdgeError Ledger := do
  let d := c.reconciled e
  let (verdict, reason, p) ←
    orFail (c.verdict d.subject ((judge e).mapError .permanent)) .database
  c.store.validateDelivery d verdict reason p
  ensure (d.tenantID == c.store.tenant) .foreignTenant
  let (t, j) ← l.projection.settle verdict reason p e.sequence
  pure ⟨l.rows ++ [(c.store.journalRow d p j).evidence], t⟩

/-- The verifier reads pages of the log, each as long as the log was by then, and
beyond that fails or says what `judge` says. -/
def Faithful (c : JournalConsumer) (log : EdgeLog) (judge : Judge) (turn : Turn) : Prop :=
  ∃ source content, turn.verify = verifyExact c.identity.tenantID source content ∧
    (∀ after limit, source c.identity.key after limit = none ∨
      ∃ m, source c.identity.key after limit =
        some (deliveryPage (log.entries.take m) after limit)) ∧
    ∀ d, ∀ e ∈ log.entries, content d e = .error .transient ∨
      content d e = (judge e).mapError .permanent

/-! ### The code's transaction is a step of the replica -/

section
variable (c : JournalConsumer)

theorem settleVerdict_projection {verdict : Verdict} {reason : Bytes}
    {p : Option VerifiedProjection} {seq : ℤ} {db db' : Database} {j : Judged}
    (h : settleVerdict verdict reason p seq db = .ok (db', j)) :
    db.projection.settle verdict reason p seq = .ok (db'.projection, j) := by
  unfold settleVerdict claimIdentity at h
  unfold Projection.settle
  cases verdict with
  | rejected | quarantined =>
    cases h
    rfl
  | accepted =>
    cases p with
    | none =>
      cases h
      rfl
    | some p =>
      cases hclaim : db.projection.claimIdentity p.envelopeID p.commitment seq with
      | mk t outcome =>
        simp only [hclaim] at h ⊢
        -- only a first claim goes on to write
        cases outcome with
        | quarantined =>
          cases h
          rfl
        | duplicate =>
          cases h
          rfl
        | _ =>
          obtain ⟨db₁, hpersist, h⟩ := bind_eq_ok.mp h
          cases h
          have ht := (persistProjection_ok hpersist).1
          exact bind_eq_ok.mpr ⟨_, ht, rfl⟩

theorem own_eq (d : JournalDelivery) (e : EdgeDelivery)
    (h : c.Own d) (hseq : e.sequence = d.deliverySeq) (hraw : e.raw = d.raw) :
    d = { c.reconciled e with stream := d.stream, sequence := d.sequence } := by
  obtain ⟨hid, hsubject, -, -⟩ := h
  obtain ⟨stream, sequence, deliverySeq, tenantID, edgeID, generation, subject, raw⟩ := d
  simp only [JournalDelivery.identity, EdgeIdentity.key, Prod.mk.injEq] at hid
  obtain ⟨htenant, hedge, hgeneration⟩ := hid
  simp only at hseq hraw hsubject
  simp only [JournalConsumer.reconciled, htenant, hedge, hgeneration, hseq, hraw, hsubject]

theorem record_of_written (judge : Judge) (l : Ledger)
    (d : JournalDelivery) (hown : c.Own d) (e : EdgeDelivery)
    (hseq : e.sequence = d.deliverySeq) (hraw : e.raw = d.raw) (verdict : Verdict) (reason : Bytes)
    (p : Option VerifiedProjection)
    (hjudged : c.verdict d.subject ((judge e).mapError .permanent) = some (verdict, reason, p))
    (hvalid : c.store.validateDelivery d verdict reason p = .ok ())
    (htenant : d.tenantID = c.store.tenant) (t : Projection) (j : Judged)
    (hsettle : l.projection.settle verdict reason p d.deliverySeq = .ok (t, j)) :
    c.record judge l e = .ok ⟨l.rows ++ [(c.store.journalRow d p j).evidence], t⟩ := by
  have heq := own_eq c d e hown hseq hraw
  rw [heq] at hvalid hjudged htenant hsettle ⊢
  unfold JournalConsumer.record
  refine orFail_bind_eq_ok.mpr ⟨_, hjudged, ?_⟩
  refine bind_eq_ok.mpr ⟨(), hvalid, ?_⟩
  refine ensure_bind_eq_ok.mpr ⟨beq_iff_eq.mpr htenant, ?_⟩
  exact bind_eq_ok.mpr ⟨(t, j), hsettle, rfl⟩

/-- The database of an edge holds the first `k` entries. -/
structure Holds (c : JournalConsumer) (log : EdgeLog) (judge : Judge) (db : Database)
    (k : ℕ) (l : Ledger) : Prop where
  replica : Replica.At (c.record judge) {} log.entries k l
  last : (deliveryState c.identity.key db).lastContiguousSeq = k
  rows : db.deliveries.map DeliveryRow.evidence = l.rows
  projection : db.projection = l.projection

theorem holds_empty (log : EdgeLog) (judge : Judge) :
    Holds c log judge {} 0 {} := ⟨Replica.at_zero, rfl, rfl, rfl⟩

theorem record_ok (judge : Judge) (l l' : Ledger) (e : EdgeDelivery)
    (h : c.record judge l e = .ok l') :
    ∃ row, l'.rows = l.rows ++ [row] ∧ row.deliverySeq = e.sequence ∧
      row.rawSHA256 = c.store.hash e.raw := by
  unfold JournalConsumer.record at h
  obtain ⟨⟨verdict, reason, p⟩, -, h⟩ := orFail_bind_eq_ok.mp h
  obtain ⟨_, -, h⟩ := bind_eq_ok.mp h
  obtain ⟨-, h⟩ := ensure_bind_eq_ok.mp h
  obtain ⟨⟨t, j⟩, -, h⟩ := bind_eq_ok.mp h
  cases h
  exact ⟨_, rfl, rfl, rfl⟩

theorem replica_rows (log : EdgeLog) (judge : Judge) (k : ℕ)
    (l : Ledger) (h : Replica.At (c.record judge) {} log.entries k l) :
    l.rows.map (fun r => (r.deliverySeq, r.rawSHA256)) =
      (log.entries.take k).map fun e => (e.sequence, c.store.hash e.raw) := by
  refine h.invariant (fun k l => l.rows.map (fun r => (r.deliverySeq, r.rawSHA256)) =
    (log.entries.take k).map fun e => (e.sequence, c.store.hash e.raw)) rfl ?_
  intro k l l' e he ih hrecord
  obtain ⟨row, hrows, hseq, hraw⟩ := record_ok c judge l l' e hrecord
  rw [hrows, List.take_add_one, he, List.map_append, List.map_append, ih]
  simp [hseq, hraw]

theorem Holds.row_le {c : JournalConsumer} {log : EdgeLog} {judge : Judge} {db : Database}
    {k : ℕ} {l : Ledger} (h : Holds c log judge db k l) (row : DeliveryRow)
    (hrow : row ∈ db.deliveries) : row.deliverySeq ≤ k := by
  have hevidence : row.evidence ∈ l.rows := h.rows ▸ List.mem_map_of_mem hrow
  have hpair := List.mem_map_of_mem (f := fun r : Evidence => (r.deliverySeq, r.rawSHA256)) hevidence
  rw [replica_rows c log judge k l h.replica] at hpair
  obtain ⟨e, he, heq⟩ := List.mem_map.mp hpair
  obtain ⟨i, hi⟩ := List.mem_iff_getElem?.mp he
  rw [List.getElem?_take] at hi
  have hik : i < k := by
    by_contra hge
    simp [hge] at hi
  rw [if_pos hik] at hi
  have hseq := log.sequence_eq i e hi
  have hsame : e.sequence = row.deliverySeq := congrArg Prod.fst heq
  omega

end

/-! ### What the verifier's answer tells -/

theorem faithful_verdict {c : JournalConsumer} {log : EdgeLog} {judge : Judge}
    {turn : Turn} (hturn : Faithful c log judge turn) {d : JournalDelivery} (hown : c.Own d)
    {args : Verdict × Bytes × Option VerifiedProjection}
    (h : c.verdict d.subject (turn.verify d) = some args) :
    ∃ (k : ℕ) (e : EdgeDelivery), log.entries[k]? = some e ∧ e.sequence = d.deliverySeq ∧ d.deliverySeq = (k : ℤ) + 1 ∧
      e.raw = d.raw ∧ c.verdict d.subject ((judge e).mapError .permanent) = some args := by
  obtain ⟨source, content, hverify, hpages, hcontent⟩ := hturn
  rw [hverify, verifyExact_own hown.positive hown.identity hown.bytes] at h
  cases hexact : resolveExactDelivery source c.identity.tenantID d with
  | error =>
    rw [hexact, error_bind,
      resolveExactDelivery_error hexact] at h
    cases h
  | ok e =>
    rw [hexact, ok_bind] at h
    obtain ⟨page, hpage, hmem, hseq, hraw⟩ :=
      resolveExactDelivery_ok hexact
    have hkey : (c.identity.tenantID, d.edgeID, d.edgeGeneration) = c.identity.key := by
      rw [← hown.identity]
      have htenant : d.tenantID = c.identity.tenantID := congrArg Prod.fst hown.identity
      simp [JournalDelivery.identity, htenant]
    rw [hkey] at hpage
    have hlog : e ∈ log.entries := by
      rcases hpages (d.deliverySeq - 1) 1 with hnone | ⟨m, hm⟩
      · rw [hnone] at hpage
        cases hpage
      · rw [hm] at hpage
        cases hpage
        exact List.mem_of_mem_take (mem_deliveryPage hmem)
    obtain ⟨k, hk, hentry⟩ := log.entry_at e hlog
    rcases hcontent d e hlog with htransient | hjudge
    · rw [htransient] at h
      cases h
    · rw [hjudge] at h
      exact ⟨k, e, hentry, hseq, by omega, hraw, h⟩

/-! ### Every move -/

theorem Holds.apply {c : JournalConsumer} {log : EdgeLog} {judge : Judge}
    {db db' : Database}
    {k : ℕ} {l : Ledger} (h : Holds c log judge db k l) (turn : Turn)
    (hturn : Faithful c log judge turn) (d : JournalDelivery) (hown : c.Own d) (verdict : Verdict)
    (reason : Bytes) (p : Option VerifiedProjection)
    (hjudged : c.verdict d.subject (turn.verify d) = some (verdict, reason, p)) (allow : Bool)
    (outcome : ApplyOutcome)
    (happlied : c.store.applyVerified d verdict reason p allow db = .ok (db', outcome)) :
    ∃ k' l', Holds c log judge db' k' l' := by
  obtain ⟨hvalid, htenant, hcases⟩ :=
    applyVerified_applied happlied
  have hlast := h.last
  rw [← hown.identity] at hlast
  cases hcases with
  | duplicate => exact ⟨k, l, h⟩
  | halted =>
    refine ⟨k, l, h.replica, ?_, h.rows, h.projection⟩
    rw [← hown.identity, deliveryState_require]
    exact hlast
  | torn _ row there =>
    have hle := h.row_le row there
    omega
  | recorded _ _ next written =>
    obtain ⟨i, e, hentry, hseq, hi, hraw, hverdict⟩ :=
      faithful_verdict hturn hown hjudged
    have hik : i = k := by omega
    subst hik
    obtain ⟨db₁, j, hsettle, hprojection, hrows, hstate⟩ :=
      recordDelivery_ok c.store d verdict reason p hown.positive.le db db' outcome written
    have hreplica := settleVerdict_projection hsettle
    rw [h.projection] at hreplica
    have hrecord := record_of_written c judge l d hown e hseq hraw verdict reason p hverdict hvalid
      htenant db₁.projection j hreplica
    refine ⟨i + 1, _, h.replica.next hentry hrecord, ?_, ?_, hprojection⟩
    · rw [← hown.identity, hstate]
      show d.deliverySeq = ((i + 1 : ℕ) : ℤ)
      omega
    · rw [hrows, List.map_append, h.rows]
      rfl

theorem holds_move (c : JournalConsumer) (log : EdgeLog) (judge : Judge)
    {W : (List FrontRow → List FrontRow) → Prop} (db db' : Database)
    (hmove : Move c (Faithful c log judge) W db db')
    (h : ∃ k l, Holds c log judge db k l) : ∃ k l, Holds c log judge db' k l := by
  obtain ⟨k, l, h⟩ := h
  cases hmove with
  | apply turn admitted d own verdict reason p judged allow _ outcome applied =>
    exact h.apply turn admitted d own verdict reason p judged allow outcome applied
  | require =>
    refine ⟨k, l, h.replica, ?_, h.rows, h.projection⟩
    rw [deliveryState_require]
    exact h.last
  | complete through high _ completed =>
    obtain ⟨hlast, -, -, hrows, hprojection⟩ :=
      completeReconciliation_ok c.identity through high db db' completed
    exact ⟨k, l, h.replica, hlast.trans h.last, hrows ▸ h.rows, hprojection.trans h.projection⟩
  | fronts => exact ⟨k, l, h.replica, h.last, h.rows, h.projection⟩

theorem run_holds {c : JournalConsumer} {log : EdgeLog} {judge : Judge} {es : List Event}
    (hturns : ∀ e ∈ es, ∀ t ∈ e.turns, Faithful c log judge t) :
    ∃ k l, Holds c log judge (c.run {} es).node.db k l :=
  run_keeps (W := fun _ => True) (holds_move c log judge) es {} hturns
    (fun _ _ _ _ => trivial) ⟨0, {}, holds_empty c log judge⟩

/-- The edge journal is a prefix of the authority log. After every run with a
faithful verifier there is a `k`, the last contiguous sequence, such that the
journal rows are the receipts of the first `k` entries, in order and with their
hashes, and receipts and projection are the left fold of `record` over those
entries. Two edges with the same last contiguous sequence therefore hold the same
receipts and the same projection. -/
theorem edge_journal_follows_log (c : JournalConsumer) (log : EdgeLog) (judge : Judge) :
    (∀ es : List Event, (∀ e ∈ es, ∀ t ∈ e.turns, Faithful c log judge t) →
      let db := (c.run {} es).node.db
      ∃ (k : ℕ) (l : Ledger), k ≤ log.entries.length ∧
        (deliveryState c.identity.key db).lastContiguousSeq = k ∧
        Replica.replay (c.record judge) {} (log.entries.take k) = .ok l ∧
        db.deliveries.map DeliveryRow.evidence = l.rows ∧ db.projection = l.projection ∧
        db.deliveries.map (fun r => (r.deliverySeq, r.rawSHA256)) =
          (log.entries.take k).map fun e => (e.sequence, c.store.hash e.raw)) ∧
    ∀ es es' : List Event, (∀ e ∈ es, ∀ t ∈ e.turns, Faithful c log judge t) →
      (∀ e ∈ es', ∀ t ∈ e.turns, Faithful c log judge t) →
      let db := (c.run {} es).node.db
      let db' := (c.run {} es').node.db
      (deliveryState c.identity.key db).lastContiguousSeq =
        (deliveryState c.identity.key db').lastContiguousSeq →
      db.projection = db'.projection ∧
        db.deliveries.map DeliveryRow.evidence = db'.deliveries.map DeliveryRow.evidence := by
  refine ⟨?_, ?_⟩
  · intro es hturns db
    obtain ⟨k, l, h⟩ := run_holds hturns
    refine ⟨k, l, h.replica.bound, h.last, h.replica.state, h.rows, h.projection, ?_⟩
    have hpairs := replica_rows c log judge k l h.replica
    rw [← h.rows, List.map_map] at hpairs
    exact hpairs
  · intro es es' hturns hturns' db db' hsame
    obtain ⟨k, l, h⟩ := run_holds hturns
    obtain ⟨k', l', h'⟩ := run_holds hturns'
    have hk : k = k' := by
      have hlast := (h.last.symm.trans hsame).trans h'.last
      omega
    subst hk
    have hl := h.replica.unique h'.replica
    subst hl
    exact ⟨h.projection.trans h'.projection.symm, h.rows.trans h'.rows.symm⟩

/-! ### One edge served by the carrier, one by reconciliation -/

namespace Sample

def digest : Bytes := [115, 104, 97, 50, 53, 54, 58] ++ List.replicate 64 48

def identity : EdgeIdentity :=
  ⟨[116], [101], 1, List.cons_ne_nil _ _, List.cons_ne_nil _ _, Int.one_pos⟩

theorem limit_bounded : (0 : ℤ) < 10 ∧ (10 : ℤ) ≤ 1000 := by omega

def consumer : JournalConsumer := ⟨⟨[116], sha256⟩, identity, 10, limit_bounded⟩

def opened : Case :=
  ⟨[99], [101], [100], [115], [], 1, .domain, routingToken sha256 [100],
    edgeRoutingToken sha256 [101] 1, 1, 1, digest, 0⟩

def projection : VerifiedProjection := ⟨[118], digest, .case, some opened, none⟩
def log : EdgeLog := ⟨[⟨1, .case, [99], [118], digest, [7], 1⟩], rfl⟩
def judge : Judge := fun _ => .ok projection

def source : DeliverySource := fun _ after limit =>
  some (deliveryPage log.entries after limit)

def turn : Turn := ⟨verifyExact [116] source fun _ e => (judge e).mapError .permanent, .done⟩

theorem turn_faithful : Faithful consumer log judge turn :=
  ⟨source, _, rfl, fun _ _ => .inr ⟨1, rfl⟩, fun _ _ _ => .inr rfl⟩

def message (data : Bytes) : CarrierMessage :=
  ⟨some (streamName, 1), edgeDeliverySubject sha256 identity, data,
    [(headerOutboxID, [111]), (headerFactSequence, [49]), (headerDeliverySequence, [49]),
      (headerEdgeGeneration, [49])]⟩

def carried : List Event :=
  [.handleNext (.message (message [9])) turn false .confirmed,
    .handleNext (.message (message [7])) turn false .failed,
    .handleNext (.message (message [7])) turn false .confirmed]

def recovered : List Event :=
  [.reconcileAuthoritative .done [⟨false, source, [turn], false, .done⟩], .restart]

end Sample

theorem edge_journal_follows_log_sample :
    let carried := (Sample.consumer.run {} Sample.carried).node.db
    let recovered := (Sample.consumer.run {} Sample.recovered).node.db
    carried.projection.cases.length = 1 ∧ carried.projection = recovered.projection := by
  refine ⟨by decide +kernel, ?_⟩
  refine ((edge_journal_follows_log Sample.consumer Sample.log Sample.judge).2 Sample.carried
    Sample.recovered ?_ ?_ (by decide +kernel)).1
  · intro e he t ht
    have hturn : t = Sample.turn := by
      simp only [Sample.carried, List.mem_cons, List.not_mem_nil, or_false] at he
      rcases he with rfl | rfl | rfl <;> exact List.mem_singleton.mp ht
    exact hturn ▸ Sample.turn_faithful
  · intro e he t ht
    have hturn : t = Sample.turn := by
      simp only [Sample.recovered, List.mem_cons, List.not_mem_nil, or_false] at he
      rcases he with rfl | rfl
      · exact List.mem_singleton.mp ht
      · cases ht
    exact hturn ▸ Sample.turn_faithful

end Snagline.Edge
