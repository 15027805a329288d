import Snagline.Delivery.Outbox

/-!
# Leasing outbox rows (authority/postgres/outbox.go)

The part of an outbox row that the publisher writes: attempts, lease and the two
final stamps. Claim, MarkPublished and Release are functions of the table, of
the readings of the database clock their guards make on a row, and of what the
row locks of other transactions hide from a claim. A row is locked from the
SELECT of a claim to its commit, so on one row each of the three is atomic.
-/

namespace Snagline.Authority
open Kit Ssp Delivery

def maxOutboxAttempts : ℕ := 20
def maxBatchSize : ℤ := 1000
def maxLease : ℤ := 3600 * 1000000000

structure OutboxLease where
  leaseOwner : Bytes
  leaseToken : Bytes
  leaseUntil : Time
  deriving DecidableEq

/-- A row of authority_outbox. The three lease columns are null together, by a
constraint of the table. -/
structure QueueRow where
  row : OutboxRow
  createdAt : Time
  attempts : ℕ
  nextAttemptAt : Time
  lease : Option OutboxLease
  lastError : Bytes
  poisonedAt : Option Time
  publishedAt : Option Time
  deriving DecidableEq

inductive ReleaseReason where
  | publishFailed | malformedItem
  deriving DecidableEq

def ReleaseReason.text : ReleaseReason → Bytes
  | .publishFailed => Kit.text "publish_failed"
  | .malformedItem => Kit.text "malformed_item"

inductive OutboxError where
  | invalidClaim
  | invalidClosure
  | invalidRelease
  | staleLease
  deriving DecidableEq

namespace QueueRow

def id (r : QueueRow) : Bytes := r.row.outboxID

def inserted (row : OutboxRow) (createdAt nextAttemptAt : Time) : QueueRow :=
  ⟨row, createdAt, 0, nextAttemptAt, none, [], none, none⟩

def pending (r : QueueRow) : Bool := r.publishedAt.isNone && r.poisonedAt.isNone

def claimable (due free : Time) (r : QueueRow) : Bool :=
  r.pending && r.nextAttemptAt ≤ due &&
    match r.lease with
    | none => true
    | some lease => lease.leaseUntil ≤ free

def leased (owner token : Bytes) (ends : Time) (r : QueueRow) : QueueRow :=
  { r with lease := some ⟨owner, token, ends⟩ }

def held (token : Bytes) (now : Time) (r : QueueRow) : Bool :=
  (match r.lease with
    | none => false
    | some lease => lease.leaseToken == token && now < lease.leaseUntil) && r.pending

def published (now : Time) (r : QueueRow) : QueueRow :=
  { r with publishedAt := some now, lease := none, lastError := [] }

def released (retryAt : Time) (reason : ReleaseReason) (now : Time) (r : QueueRow) : QueueRow :=
  { r with
    attempts := r.attempts + 1
    nextAttemptAt := retryAt
    lastError := reason.text
    poisonedAt := if maxOutboxAttempts ≤ r.attempts + 1 then some now else none
    lease := none }

/-- `ORDER BY next_attempt_at, created_at, outbox_id`. -/
def queuedBefore (a b : QueueRow) : Bool :=
  a.nextAttemptAt < b.nextAttemptAt || (a.nextAttemptAt == b.nextAttemptAt &&
    (a.createdAt < b.createdAt || (a.createdAt == b.createdAt && a.id ≤ b.id)))

end QueueRow

/-! ### Claim -/

/-- What a claim meets on the row with a given identifier: its lock, the
readings of the clock, and the token drawn for it. -/
structure ClaimEnv where
  locked : Bytes → Bool
  due : Bytes → Time
  free : Bytes → Time
  leasedAt : Bytes → Time
  token : Bytes → Bytes
  /-- The tables the route is joined from. -/
  db : Database

def joinedCase (row : OutboxRow) (db : Database) : Option CaseRow :=
  if row.destinationKind = .domainDispatch then
    db.cases.find? fun c => c.tenantID == row.tenantID && c.commitRevision == row.authorityRevision
  else none

def joinedDelivery (row : OutboxRow) (db : Database) : Option DeliveryRow :=
  if row.destinationKind = .edgeDelivery then
    db.deliveries.find? fun d =>
      d.tenantID == row.tenantID && d.authorityRevision == row.authorityRevision
  else none

/-- The columns `readClaimedOutboxItem` scans. -/
def claimedItem (db : Database) (row : OutboxRow) (token : Bytes) : Item :=
  let case := joinedCase row db
  let delivery := joinedDelivery row db
  ⟨row.outboxID, token, row.tenantID, row.eventKind, row.entityID, row.destinationKind,
    row.destinationKey, row.raw, row.authorityRevision, (case.map (·.domain)).getD [],
    (delivery.map (·.edgeID)).getD [], (delivery.map (·.edgeGeneration)).getD 0,
    (delivery.map (·.deliverySequence)).getD 0⟩

def readClaimedOutboxItem (db : Database) (rows : List QueueRow) (id token : Bytes) :
    Except OutboxError Item := do
  let r ← orFail (rows.find? fun r => r.id == id && r.lease.any fun l => l.leaseToken == token) .staleLease
  pure (claimedItem db r.row token)

/-- `lease.Microseconds()` is added to the clock. -/
def leaseEnds (now : Time) (lease : ℤ) : Time := now + lease / 1000 * 1000

def leaseAll (workerID : Bytes) (lease : ℤ) (env : ClaimEnv) :
    List Bytes → List QueueRow → Except OutboxError (List QueueRow × List Item)
  | [], rows => .ok (rows, [])
  | id :: ids, rows => do
    let hit : QueueRow → Bool := fun r => r.id == id && r.pending
    ensure ((rows.filter hit).length == 1) .staleLease
    let ends := leaseEnds (env.leasedAt id) lease
    let rows := rows.map fun r => if hit r then r.leased workerID (env.token id) ends else r
    let item ← readClaimedOutboxItem env.db rows id (env.token id)
    let (rows, items) ← leaseAll workerID lease env ids rows
    pure (rows, item :: items)

def ClaimEnv.selects (env : ClaimEnv) (r : QueueRow) : Bool :=
  r.claimable (env.due r.id) (env.free r.id) && !env.locked r.id

def claim (workerID : Bytes) (limit lease : ℤ) (env : ClaimEnv) (rows : List QueueRow) :
    Except OutboxError (List QueueRow × List Item) := do
  ensure (!blank workerID && 0 < limit && limit ≤ maxBatchSize && 0 < lease && lease ≤ maxLease)
    .invalidClaim
  let picked := ((rows.filter env.selects).insertionSort
    fun a b => a.queuedBefore b = true).take limit.toNat
  leaseAll workerID lease env (picked.map QueueRow.id) rows

/-! ### MarkPublished and Release -/

def closeLease (id token : Bytes) (checked : Time) (close : QueueRow → QueueRow)
    (rows : List QueueRow) : List QueueRow × Except OutboxError Unit :=
  let hit : QueueRow → Bool := fun r => r.id == id && r.held token checked
  (rows.map fun r => if hit r then close r else r,
    ensure ((rows.filter hit).length == 1) .staleLease)

def markPublished (itemID leaseToken : Bytes) (checked now : Time) (rows : List QueueRow) :
    List QueueRow × Except OutboxError Unit :=
  if blank itemID || blank leaseToken then (rows, .error .invalidClosure)
  else closeLease itemID leaseToken checked (QueueRow.published now) rows

def release (itemID leaseToken : Bytes) (retryAt : Time) (reason : ReleaseReason)
    (checked now : Time) (rows : List QueueRow) : List QueueRow × Except OutboxError Unit :=
  if blank itemID || blank leaseToken || retryAt == zeroTime then (rows, .error .invalidRelease)
  else closeLease itemID leaseToken checked (QueueRow.released retryAt reason now) rows

/-! ### What the statements do to a row -/

section
variable {rows : List QueueRow} {items : List Item} {id token : Bytes} {workerID : Bytes}
  {env : ClaimEnv}

theorem filter_one {hit : QueueRow → Bool}
    (h : ((rows.filter hit).length == 1) = true) : ∃ r ∈ rows, hit r = true := by
  have hlength := beq_iff_eq.mp h
  obtain ⟨r, hr⟩ := List.exists_mem_of_length_pos (l := rows.filter hit) (by omega)
  exact ⟨r, (List.mem_filter.mp hr).1, (List.mem_filter.mp hr).2⟩

def ClaimEnv.lease (env : ClaimEnv) (workerID : Bytes) (lease : ℤ) (r : QueueRow) : QueueRow :=
  r.leased workerID (env.token r.id) (leaseEnds (env.leasedAt r.id) lease)

theorem readClaimedOutboxItem_ok {db : Database}
    {item : Item} (h : readClaimedOutboxItem db rows id token = .ok item) :
    ∃ r ∈ rows, r.id = id ∧ item = claimedItem db r.row token := by
  unfold readClaimedOutboxItem at h
  obtain ⟨r, hfind, h⟩ := orFail_bind_eq_ok.mp h
  cases h
  have hid := List.find?_some hfind
  simp only [Bool.and_eq_true, beq_iff_eq] at hid
  exact ⟨r, List.mem_of_find?_eq_some hfind, hid.1, rfl⟩

theorem leaseAll_ok {lease : ℤ} (ids : List Bytes)
    {rows rows' : List QueueRow} (hkeyed : Table.Keyed QueueRow.id rows)
    (hnodup : ids.Nodup) (h : leaseAll workerID lease env ids rows = .ok (rows', items)) :
    rows' = rows.map (fun r => if r.id ∈ ids then env.lease workerID lease r else r) ∧
      items.map Item.id = ids ∧ ∀ item ∈ items, ∃ r ∈ rows, r.id = item.id ∧
        item = claimedItem env.db r.row (env.token r.id) := by
  induction ids generalizing rows items with
  | nil =>
    cases h
    simp
  | cons id ids ih =>
    unfold leaseAll at h
    obtain ⟨hone, h⟩ := ensure_bind_eq_ok.mp h
    obtain ⟨item, hitem, h⟩ := bind_eq_ok.mp h
    obtain ⟨⟨rows₁, items₁⟩, hrest, h⟩ := bind_eq_ok.mp h
    cases h
    obtain ⟨r₀, hmem₀, hhit₀⟩ := filter_one hone
    simp only [Bool.and_eq_true, beq_iff_eq] at hhit₀
    -- the one row of this identifier is the row that was hit
    have hfirst : rows.map (fun r => if (r.id == id && r.pending) = true then
        r.leased workerID (env.token id) (leaseEnds (env.leasedAt id) lease) else r) =
        rows.map fun r => if r.id = id then env.lease workerID lease r else r := by
      refine List.map_congr_left fun r hr => ?_
      by_cases hid : r.id = id
      · have hsame : r = r₀ := hkeyed.eq_of_key hr hmem₀ (hid.trans hhit₀.1.symm)
        subst hsame
        simp [hhit₀.1, hhit₀.2, ClaimEnv.lease]
      · simp [hid]
    rw [hfirst] at hrest hitem
    have hrow : ∀ r : QueueRow,
        (if r.id = id then env.lease workerID lease r else r).row = r.row := by
      intro r
      split
      · rfl
      · rfl
    have hkept : ∀ r : QueueRow, (if r.id = id then env.lease workerID lease r else r).id = r.id :=
      fun r => congrArg OutboxRow.outboxID (hrow r)
    obtain ⟨hnotin, hnodup'⟩ := List.nodup_cons.mp hnodup
    obtain ⟨hrows, hids, hitems⟩ := ih (hkeyed.map hkept) hnodup' hrest
    refine ⟨?_, ?_, ?_⟩
    · rw [hrows, List.map_map]
      refine List.map_congr_left fun r hr => ?_
      by_cases hid : r.id = id
      · have hnot : (env.lease workerID lease r).id ∉ ids := by
          show r.id ∉ ids
          rw [hid]
          exact hnotin
        simp [hid, hnot]
      · simp [hid]
    · obtain ⟨r, hr, hid, rfl⟩ := readClaimedOutboxItem_ok hitem
      rw [List.map_cons, hids]
      exact congrArg (· :: ids) hid
    · intro x hx
      rcases List.mem_cons.mp hx with rfl | hx
      · obtain ⟨r, hr, hid, rfl⟩ := readClaimedOutboxItem_ok hitem
        obtain ⟨r', hr', rfl⟩ := List.mem_map.mp hr
        rw [hkept] at hid
        rw [hrow, ← hid]
        exact ⟨r', hr', rfl, rfl⟩
      · obtain ⟨r, hr, hid, rfl⟩ := hitems x hx
        obtain ⟨r', hr', rfl⟩ := List.mem_map.mp hr
        rw [hrow, hkept] at *
        exact ⟨r', hr', hid, rfl⟩

structure Claimed (workerID : Bytes) (lease : ℤ) (env : ClaimEnv) (rows rows' : List QueueRow)
    (items : List Item) : Prop where
  leased : rows' = rows.map fun r =>
    if r.id ∈ items.map Item.id then env.lease workerID lease r else r
  free : ∀ r ∈ rows, r.id ∈ items.map Item.id →
    r.claimable (env.due r.id) (env.free r.id) = true
  distinct : (items.map Item.id).Nodup
  returned : ∀ item ∈ items, ∃ r ∈ rows, r.id = item.id ∧
    item = claimedItem env.db r.row (env.token r.id)

theorem claim_ok {limit lease : ℤ} {rows rows' : List QueueRow}
    (hkeyed : Table.Keyed QueueRow.id rows)
    (h : claim workerID limit lease env rows = .ok (rows', items)) :
    Claimed workerID lease env rows rows' items := by
  unfold claim at h
  obtain ⟨-, h⟩ := ensure_bind_eq_ok.mp h
  have hsorted := List.perm_insertionSort (fun a b : QueueRow => a.queuedBefore b = true)
    (rows.filter env.selects)
  have hsub := (List.take_sublist limit.toNat ((rows.filter env.selects).insertionSort
    fun a b : QueueRow => a.queuedBefore b = true)).map QueueRow.id
  have hnodup : (((rows.filter env.selects).insertionSort
      fun a b : QueueRow => a.queuedBefore b = true).map QueueRow.id).Nodup := by
    refine (hsorted.map QueueRow.id).nodup_iff.mpr ?_
    exact (List.filter_sublist.map QueueRow.id).nodup hkeyed
  obtain ⟨hrows, hids, hitems⟩ := leaseAll_ok _ hkeyed (hsub.nodup hnodup) h
  refine ⟨by rw [hids]; exact hrows, ?_, by rw [hids]; exact hsub.nodup hnodup, hitems⟩
  intro r hr hpicked
  rw [hids] at hpicked
  obtain ⟨r', hr', hid⟩ := List.mem_map.mp hpicked
  have hselected := hsorted.mem_iff.mp (List.mem_of_mem_take hr')
  obtain ⟨hmem, hselects⟩ := List.mem_filter.mp hselected
  have hsame : r' = r := hkeyed.eq_of_key hmem hr hid
  subst hsame
  unfold ClaimEnv.selects at hselects
  exact (Bool.and_eq_true _ _ ▸ hselects).1

theorem closeLease_cases {checked : Time} {close : QueueRow → QueueRow}
    (hkeyed : Table.Keyed QueueRow.id rows) :
    (closeLease id token checked close rows).1 = rows ∧
        (closeLease id token checked close rows).2 = .error .staleLease ∨
      ∃ r ∈ rows, r.id = id ∧ r.held token checked = true ∧
        (closeLease id token checked close rows).1 =
          Table.update QueueRow.id id close rows ∧
        (closeLease id token checked close rows).2 = .ok () := by
  by_cases hhit : ∃ r ∈ rows, r.id = id ∧ r.held token checked = true
  · obtain ⟨r, hr, hid, hheld⟩ := hhit
    have hone : (rows.filter fun x => x.id == id && x.held token checked).length = 1 := by
      refine hkeyed.filter_length hr _ (by simp [hid, hheld]) ?_
      intro x hx
      simp only [Bool.and_eq_true, beq_iff_eq] at hx
      exact hx.1.trans hid.symm
    refine Or.inr ⟨r, hr, hid, hheld, ?_, ?_⟩
    · unfold closeLease Table.update
      refine List.map_congr_left fun x hx => ?_
      by_cases hx' : x.id = id
      · have hsame : x = r := hkeyed.eq_of_key hx hr (hx'.trans hid.symm)
        subst hsame
        simp [hid, hheld]
      · simp [hx']
    · unfold closeLease
      simp [hone]
  · have hnone : ∀ r ∈ rows, (r.id == id && r.held token checked) = false := by
      intro r hr
      rw [Bool.eq_false_iff]
      intro h
      simp only [Bool.and_eq_true, beq_iff_eq] at h
      exact hhit ⟨r, hr, h⟩
    refine Or.inl ⟨?_, ?_⟩
    · unfold closeLease
      refine (List.map_congr_left fun r hr => ?_).trans (List.map_id rows)
      simp [hnone r hr]
    · have hempty : (rows.filter fun x => x.id == id && x.held token checked) = [] := by
        refine List.filter_eq_nil_iff.mpr fun r hr => ?_
        simp [hnone r hr]
      unfold closeLease
      simp [hempty, ensure]

end

end Snagline.Authority
