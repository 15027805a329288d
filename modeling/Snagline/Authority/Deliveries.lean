import Snagline.Authority.Invariants
import Snagline.Kit.Cursor

/-!
# Reading the delivery log of an edge generation (authority.go:161-195, store.go:359-434)

ListEdgeDeliveries serves an active edge one page of its log. The log only grows
at its end, so a page read at any time is a page of a prefix of what the log
becomes.
-/

namespace Snagline.Authority
open Kit Ssp

structure EdgeDeliveryQuery where
  tenantID : Bytes
  edgeID : Bytes
  principalID : Bytes
  edgeGeneration : ℤ
  afterSequence : ℤ
  limit : ℤ
  deriving DecidableEq

structure EdgeDelivery where
  sequence : ℤ
  kind : EntityKind
  caseID : Bytes
  envelopeID : Bytes
  commitment : Bytes
  raw : Bytes
  authorityRevision : ℤ
  deriving DecidableEq

structure EdgeDeliveryPage where
  deliveries : List EdgeDelivery
  highWatermark : ℤ
  completeThrough : ℤ
  deriving DecidableEq

inductive DeliveryReadError where
  | invalidQuery | edgeNotActive | registryHalted
  deriving DecidableEq

variable (q : EdgeDeliveryQuery)

def EdgeDeliveryQuery.validate : Except DeliveryReadError Unit :=
  ensure (validText q.tenantID && validText q.edgeID && validText q.principalID &&
    0 < q.edgeGeneration && 0 ≤ q.afterSequence && 0 < q.limit && q.limit ≤ 1000) .invalidQuery

def EdgeDeliveryQuery.log : Bytes × Bytes × ℤ :=
  (q.tenantID, q.edgeID, q.edgeGeneration)

def activeEdge (db : Database) : Except DeliveryReadError Unit := do
  let head ← orFail (Table.find HeadRow.tenantID q.tenantID db.heads) .edgeNotActive
  let edge ← orFail (Table.find HighWaterRow.key (q.tenantID, q.edgeID) db.highWater) .edgeNotActive
  ensure (!head.halted) .registryHalted
  ensure (edge.principalID == q.principalID && edge.highestGeneration == q.edgeGeneration &&
    edge.lastSeenRegistryRevision == head.latestRevision) .edgeNotActive

def DeliveryRow.delivery (r : DeliveryRow) : EdgeDelivery :=
  ⟨r.deliverySequence, r.deliveryKind, r.caseID, r.envelopeID, r.commitment, r.raw,
    r.authorityRevision⟩

def edgeLog (log : Bytes × Bytes × ℤ) (db : Database) : List EdgeDelivery :=
  (db.deliveries.filter fun r => r.log = log).map DeliveryRow.delivery

/-- `ORDER BY delivery_sequence`. -/
def deliveredBefore (a b : EdgeDelivery) : Bool := a.sequence ≤ b.sequence

def deliveryPage (entries : List EdgeDelivery) (after limit : ℤ) : EdgeDeliveryPage :=
  let high := (entries.map EdgeDelivery.sequence).max?.getD 0
  let deliveries :=
    ((entries.filter fun e => after < e.sequence).mergeSort deliveredBefore).take limit.toNat
  let last := (deliveries.getLast?.map EdgeDelivery.sequence).getD after
  -- a short page reached the end of the log
  ⟨deliveries, high, if deliveries.length < limit ∧ last < high then high else last⟩

def listEdgeDeliveries (db : Database) : Except DeliveryReadError EdgeDeliveryPage := do
  q.validate
  activeEdge q db
  pure (deliveryPage (edgeLog q.log db) q.afterSequence q.limit)

/-! ### The log -/

section
variable (log : EdgeLog)

structure EdgeLog where
  entries : List EdgeDelivery
  contiguous :
    entries.map EdgeDelivery.sequence = (List.range' 1 entries.length).map Int.ofNat

theorem EdgeLog.sequence_eq (k : ℕ) (e : EdgeDelivery)
    (h : log.entries[k]? = some e) : e.sequence = k + 1 := by
  have hmap := congrArg (fun xs : List ℤ => xs[k]?) log.contiguous
  have hk : k < log.entries.length := (List.getElem?_eq_some_iff.mp h).1
  simp only [List.getElem?_map, h, List.getElem?_range' hk, Option.map_some] at hmap
  have heq := Option.some.inj hmap
  simp only [Int.ofNat_eq_natCast] at heq
  omega

theorem EdgeLog.entry_at (e : EdgeDelivery) (h : e ∈ log.entries) :
    ∃ k : ℕ, e.sequence = k + 1 ∧ log.entries[k]? = some e := by
  obtain ⟨k, hk⟩ := List.mem_iff_getElem?.mp h
  exact ⟨k, log.sequence_eq k e hk, hk⟩

theorem mem_deliveryPage {entries : List EdgeDelivery} {after limit : ℤ} {e : EdgeDelivery}
    (h : e ∈ (deliveryPage entries after limit).deliveries) : e ∈ entries := by
  have hsorted := List.mem_of_mem_take h
  exact List.mem_of_mem_filter (List.mem_mergeSort.mp hsorted)

theorem EdgeLog.numbered : Cursor.Numbered EdgeDelivery.sequence log.entries := by
  constructor
  · intro e he
    obtain ⟨k, hk, -⟩ := log.entry_at e he
    omega
  · rw [List.pairwise_iff_getElem]
    intro i j hi hj hij
    have hfirst := log.sequence_eq i _ (List.getElem?_eq_getElem hi)
    have hsecond := log.sequence_eq j _ (List.getElem?_eq_getElem hj)
    omega

theorem EdgeLog.filter_eq (k : ℕ) :
    log.entries.filter (fun e => decide ((k : ℤ) < e.sequence)) = log.entries.drop k := by
  have hsplit := congrArg (List.filter fun e : EdgeDelivery => decide ((k : ℤ) < e.sequence))
    (List.take_append_drop k log.entries)
  rw [← hsplit, List.filter_append]
  have hbefore : (log.entries.take k).filter (fun e => decide ((k : ℤ) < e.sequence)) = [] := by
    rw [List.filter_eq_nil_iff]
    intro e he
    obtain ⟨i, hi⟩ := List.mem_iff_getElem?.mp he
    rw [List.getElem?_take] at hi
    split at hi
    · have := log.sequence_eq i e hi
      simp only [decide_eq_true_eq]
      omega
    · cases hi
  have hafter : (log.entries.drop k).filter (fun e => decide ((k : ℤ) < e.sequence)) =
      log.entries.drop k := by
    rw [List.filter_eq_self]
    intro e he
    obtain ⟨i, hi⟩ := List.mem_iff_getElem?.mp he
    rw [List.getElem?_drop] at hi
    have := log.sequence_eq (k + i) e hi
    simp only [decide_eq_true_eq]
    omega
  rw [hbefore, hafter, List.nil_append]

theorem EdgeLog.page_deliveries (k : ℕ) (limit : ℤ) :
    (deliveryPage log.entries k limit).deliveries = (log.entries.drop k).take limit.toNat := by
  unfold deliveryPage
  have hsorted : (log.entries.drop k).mergeSort deliveredBefore = log.entries.drop k :=
    Cursor.mergeSort_eq (List.Perm.refl _) (log.numbered.order.sublist (List.drop_sublist k _))
  dsimp only
  rw [log.filter_eq, hsorted]

theorem EdgeLog.page_highWatermark (after limit : ℤ) :
    (deliveryPage log.entries after limit).highWatermark = log.entries.length := by
  unfold deliveryPage
  dsimp only
  rw [log.contiguous]
  cases hn : log.entries.length with
  | zero => rfl
  | succ n =>
    have hmax : ((List.range' 1 (n + 1)).map Int.ofNat).max? = some ((n + 1 : ℕ) : ℤ) := by
      rw [List.max?_eq_some_iff]
      constructor
      · rw [List.mem_map]
        exact ⟨n + 1, List.mem_range'_1.mpr ⟨by omega, by omega⟩, rfl⟩
      · intro b hb
        obtain ⟨m, hm, rfl⟩ := List.mem_map.mp hb
        have := (List.mem_range'_1.mp hm).2
        simp only [Int.ofNat_eq_natCast]
        omega
    rw [hmax]
    rfl

theorem EdgeLog.last_sequence (k m : ℕ) :
    ((((log.entries.drop k).take m).getLast?.map EdgeDelivery.sequence).getD k : ℤ) =
      k + ((log.entries.drop k).take m).length := by
  cases hlast : ((log.entries.drop k).take m).getLast? with
  | none =>
    rw [List.getLast?_eq_none_iff.mp hlast]
    simp
  | some e =>
    have hget := hlast
    rw [List.getLast?_eq_getElem?] at hget
    have hpos := (List.getElem?_eq_some_iff.mp hget).1
    rw [List.getElem?_take_of_lt (by simp only [List.length_take] at hpos ⊢; omega),
      List.getElem?_drop] at hget
    have hseq := log.sequence_eq _ e hget
    simp only [Option.map_some, Option.getD_some]
    omega

theorem EdgeLog.page_completeThrough (k : ℕ) (limit : ℤ) (hlimit : 0 < limit) :
    (deliveryPage log.entries k limit).completeThrough =
      max (k : ℤ) (min (k + limit) log.entries.length) := by
  have hdeliveries := log.page_deliveries k limit
  have hhigh := log.page_highWatermark k limit
  have hlast := log.last_sequence k limit.toNat
  have hlength : ((log.entries.drop k).take limit.toNat).length =
      min limit.toNat (log.entries.length - k) := by simp
  unfold deliveryPage at hdeliveries hhigh ⊢
  dsimp only at hdeliveries hhigh ⊢
  rw [hdeliveries, hhigh, hlast, hlength]
  split <;> omega

end

/-! ### What the store serves -/

section
variable (store : Store) {db db' : Database} {value : Bytes} {r : DeliveryRow} {revision : ℤ}

structure EdgeDelivery.Complete (e : EdgeDelivery) : Prop where
  kind : e.kind ≠ .registry
  caseID : e.caseID ≠ []
  envelopeID : e.envelopeID ≠ []
  commitment : e.commitment ≠ []
  raw : e.raw ≠ []
  authorityRevision : 0 < e.authorityRevision

theorem ne_nil_of_validText (h : validText value = true) : value ≠ [] := by
  rintro rfl
  cases h

theorem ne_nil_of_validCommitment (h : validCommitment value = true) :
    value ≠ [] := by
  rintro rfl
  cases h

theorem ne_nil_of_isEmpty (h : (!value.isEmpty) = true) : value ≠ [] := by
  rintro rfl
  cases h

theorem CommitCaseRequest.delivery_complete {r : CommitCaseRequest} (h : r.validate = .ok ())
    (hpositive : 0 < revision) (sequence : ℤ) :
    (r.delivery sequence revision).delivery.Complete := by
  unfold CommitCaseRequest.validate at h
  simp only [ensure_eq_ok, Bool.and_eq_true] at h
  obtain ⟨⟨⟨⟨⟨⟨⟨⟨⟨⟨⟨-, hcase⟩, henvelope⟩, hcommitment⟩, hraw⟩, -⟩, -⟩, -⟩, -⟩, -⟩, -⟩, -⟩ := h
  exact ⟨by rintro ⟨⟩, ne_nil_of_validText hcase, ne_nil_of_validText henvelope,
    ne_nil_of_validCommitment hcommitment, ne_nil_of_isEmpty hraw, hpositive⟩

theorem CommitAdviceRequest.delivery_complete {r : CommitAdviceRequest} (h : r.validate = .ok ())
    (hpositive : 0 < revision) (c : CaseRow) (sequence : ℤ) :
    (r.delivery c sequence revision).delivery.Complete := by
  unfold CommitAdviceRequest.validate at h
  simp only [ensure_eq_ok, Bool.and_eq_true] at h
  obtain ⟨⟨⟨⟨⟨⟨⟨⟨-, hcase⟩, henvelope⟩, -⟩, hcommitment⟩, hraw⟩, -⟩, -⟩, -⟩ := h
  exact ⟨by rintro ⟨⟩, ne_nil_of_validText hcase, ne_nil_of_validText henvelope,
    ne_nil_of_validCommitment hcommitment, ne_nil_of_isEmpty hraw, hpositive⟩

def Delivering (db : Database) : Prop := ∀ r ∈ db.deliveries, r.delivery.Complete

theorem Delivering.append (h : Delivering db)
    (hrows : db'.deliveries = db.deliveries ++ [r]) (hr : r.delivery.Complete) :
    Delivering db' := by
  intro x hx
  rw [hrows] at hx
  rcases List.mem_append.mp hx with hold | hnew
  · exact h x hold
  · rw [List.mem_singleton.mp hnew]
    exact hr

theorem Delivering.change {c : Call} (h : Delivering db) (hchange : Change db c db') :
    Delivering db' := by
  cases hchange with
  | none | halted => exact h
  | case r revision written valid free head live binds positive =>
    exact h.append written.deliveries (r.delivery_complete valid positive _)
  | advice r c revision written valid free head live found binds positive =>
    exact h.append written.deliveries (r.delivery_complete valid positive c _)
  | registry r revision written =>
    unfold Delivering
    rw [written.deliveries]
    exact h

theorem reachable_delivering (es : List Event) : Delivering (store.run {} es) :=
  run_invariant store Delivering (fun db e h => h.change (step_change store db e)) {} es (by simp [Delivering])

def Call.delivers : Call → Option Bytes
  | .case r => some r.raw
  | .advice r => some r.raw
  | .registry _ => none

theorem Change.delivery_raw {c : Call} (hchange : Change db c db') {row : DeliveryRow}
    (h : row ∈ db'.deliveries) : row ∈ db.deliveries ∨ c.delivers = some row.raw := by
  cases hchange with
  | none | halted => exact .inl h
  | case _ _ written | advice _ _ _ written =>
    rw [written.deliveries] at h
    rcases List.mem_append.mp h with hold | hnew
    · exact .inl hold
    · rw [List.mem_singleton.mp hnew]
      exact .inr rfl
  | registry _ _ written =>
    rw [written.deliveries] at h
    exact .inl h

theorem delivery_raw (es : List Event) (row : DeliveryRow)
    (h : row ∈ (store.run {} es).deliveries) : ∃ e ∈ es, e.call.delivers = some row.raw := by
  induction es using List.reverseRecOn with
  | nil => cases h
  | append_singleton es e ih =>
    rw [run_append] at h
    rcases (step_change store _ e).delivery_raw h with hold | hnew
    · obtain ⟨x, hx, hraw⟩ := ih hold
      exact ⟨x, List.mem_append_left _ hx, hraw⟩
    · exact ⟨e, List.mem_append_right _ List.mem_cons_self, hnew⟩

theorem edgeLog_contiguous (es : List Event) (log : Bytes × Bytes × ℤ) :
    (edgeLog log (store.run {} es)).map EdgeDelivery.sequence =
      (List.range' 1 (edgeLog log (store.run {} es)).length).map Int.ofNat := by
  obtain ⟨facts, h⟩ := reachable_represents store es
  have hseq := h.sequences_of_log log
  have hmap : (edgeLog log (store.run {} es)).map EdgeDelivery.sequence =
      (List.range' 1 (Numbering.ordinal Fact.log facts log - 1)).map Int.ofNat := by
    rw [edgeLog, List.map_map, ← hseq]
    rfl
  have hlength := congrArg List.length hmap
  simp only [List.length_map, List.length_range'] at hlength
  rw [hmap, hlength]

def Store.edgeLog (store : Store) (es : List Event) (log : Bytes × Bytes × ℤ) : EdgeLog where
  entries := Authority.edgeLog log (store.run {} es)
  contiguous := edgeLog_contiguous store es log

theorem sequence_positive {store : Store} {es : List Event} {db : Database}
    (hdb : db = store.run {} es) (hr : r ∈ db.deliveries) :
    0 < r.deliverySequence := by
  have hmem : r.delivery ∈ (store.edgeLog es r.log).entries := by
    refine List.mem_map_of_mem (List.mem_filter.mpr ⟨hdb ▸ hr, ?_⟩)
    exact decide_eq_true rfl
  exact (store.edgeLog es r.log).numbered.positive _ hmem

theorem edgeLog_prefix (h : Grows db db') (log : Bytes × Bytes × ℤ) :
    edgeLog log db <+: edgeLog log db' := by
  have hrows := h.deliveries.filter fun r => decide (r.log = log)
  exact hrows.map DeliveryRow.delivery

end

end Snagline.Authority
