import Snagline.Edge.Standing
import Snagline.Kit.Calendar

/-!
# The front outbox (sspedge/store.go:706, 737-844)

The rows of `ssp_edge_front_outbox` with the columns the fronts write: the lease, its token
and the receipt. A time in a column is text, and it is as text that a lease is compared with
the clock. What each call can do to one row is said once, in `Claimed`.
-/

namespace Snagline.Edge
open Kit Ssp

def sqlTime (t : Time) : Bytes := Calendar.rfc3339Nano t

/-! ### Rows and tables -/

structure OutboxRow extends FrontRow where
  createdAt : Bytes
  leaseOwner : Option Bytes := none
  leaseExpiresAt : Option Bytes := none
  claimToken : Option Bytes := none
  deliveryReceipt : Option Bytes := none
  deriving DecidableEq

def OutboxRow.key (r : OutboxRow) : Front × Bytes := r.toFrontRow.key

structure Tables where
  states : List StateRow := []
  deliveries : List DeliveryRow := []
  projection : Projection := {}
  outbox : List OutboxRow := []
  deriving DecidableEq

def Tables.database (t : Tables) : Database :=
  ⟨t.states, t.deliveries, t.projection, t.outbox.map OutboxRow.toFrontRow⟩

/-- A row as it was, with the state an application left it, or a row the application inserted. -/
def OutboxRow.carried (old : List OutboxRow) (now : Time) (r : FrontRow) : OutboxRow :=
  match Table.find OutboxRow.key r.key old with
  | some o => { o with toFrontRow := r }
  | none => { toFrontRow := r, createdAt := sqlTime now }

def Tables.settle (t : Tables) (now : Time) (db : Database) : Tables :=
  ⟨db.states, db.deliveries, db.projection, db.front.map (OutboxRow.carried t.outbox now)⟩

def DB.applyTables (s : DB) (a : Application) (now : Time) (t : Tables) : Tables :=
  t.settle now (s.apply t.database a)

/-! ### ClaimFrontDeliveries -/

structure FrontDelivery where
  front : Front
  caseID : Bytes
  adviceID : Bytes
  messageID : Bytes
  text : Bytes
  claimToken : Bytes
  deriving DecidableEq

def FrontDelivery.key (d : FrontDelivery) : Front × Bytes := (d.front, d.adviceID)

structure FrontClaim where
  front : Front
  owner : Bytes
  ttl : ℤ
  limit : ℤ
  now : Time
  deriving DecidableEq

inductive FrontError where
  | invalidClaim
  | noToken
  | invalidReceipt
  | messageNotFound
  | receiptMismatch
  | lostClaim
  deriving DecidableEq

variable (c : FrontClaim)

def FrontClaim.valid : Bool :=
  c.owner != [] && 0 < c.ttl && 0 < c.limit && c.now != zeroTime

def OutboxRow.claimable (now : Time) (r : OutboxRow) : Bool :=
  r.state == .pending ||
    (r.state == .delivering && r.leaseExpiresAt.any fun expires => expires < sqlTime now)

/-- `ORDER BY o.created_at, o.advice_id`. -/
def OutboxRow.before (a b : OutboxRow) : Prop :=
  a.createdAt < b.createdAt ∨ (a.createdAt = b.createdAt ∧ a.adviceID ≤ b.adviceID)

instance (a b : OutboxRow) : Decidable (a.before b) := inferInstanceAs (Decidable (_ ∨ _))

def FrontClaim.candidates (t : Tables) : List (OutboxRow × AdviceRow) :=
  (t.outbox.filter fun o => o.front == c.front && o.claimable c.now).filterMap fun o =>
    ((Table.find AdviceRow.key o.adviceID t.projection.advice).filter fun a =>
      a.state = .accepted).map fun a => (o, a)

def FrontClaim.select (t : Tables) : List (OutboxRow × AdviceRow) :=
  ((c.candidates t).insertionSort fun a b => a.1.before b.1).take c.limit.toNat

def FrontClaim.lease (token : Bytes) (r : OutboxRow) : OutboxRow :=
  { r with
    state := .delivering
    leaseOwner := some c.owner
    leaseExpiresAt := some (sqlTime (c.now + c.ttl))
    claimToken := some token }

def FrontClaim.hits (adviceID : Bytes) (r : OutboxRow) : Bool :=
  r.key == (c.front, adviceID) && r.claimable c.now

def FrontClaim.grant (c : FrontClaim) : List (OutboxRow × AdviceRow) → List Bytes →
    List OutboxRow → Except FrontError (List OutboxRow × List FrontDelivery)
  | [], _, outbox => .ok (outbox, [])
  | _ :: _, [], _ => .error .noToken
  | (o, a) :: rest, token :: tokens, outbox => do
    let updated := outbox.map fun r => if c.hits o.adviceID r then c.lease token r else r
    let (after, out) ← c.grant rest tokens updated
    if (outbox.filter (c.hits o.adviceID)).length = 1 then
      pure (after, ⟨c.front, a.advice.caseID, o.adviceID, o.messageID, a.advice.text, token⟩ :: out)
    else pure (after, out)

def claimFrontDeliveries (tokens : List Bytes) (t : Tables) :
    Except FrontError (Tables × List FrontDelivery) := do
  ensure c.valid .invalidClaim
  let (outbox, out) ← c.grant (c.select t) tokens t.outbox
  pure ({ t with outbox := outbox }, out)

/-! ### MarkFrontDelivered -/

structure FrontReceipt where
  front : Front
  messageID : Bytes
  claimToken : Bytes
  receiptID : Bytes
  deriving DecidableEq

inductive DeliveryOutcome where
  | recorded | duplicate
  deriving DecidableEq

variable (r : FrontReceipt)

def FrontReceipt.valid : Bool :=
  r.messageID != [] && r.claimToken != [] && r.receiptID != []

def FrontReceipt.names (o : OutboxRow) : Bool :=
  o.front == r.front && o.messageID == r.messageID

def OutboxRow.deliver (receiptID : Bytes) (o : OutboxRow) : OutboxRow :=
  { o with
    state := .delivered
    deliveryReceipt := some receiptID
    leaseOwner := none
    leaseExpiresAt := none }

def FrontReceipt.closes (o : OutboxRow) : Bool :=
  r.names o && o.state == .delivering && o.claimToken == some r.claimToken

def markFrontDelivered (now : Time) (t : Tables) :
    Except FrontError (Tables × DeliveryOutcome) := do
  ensure (r.valid && now != zeroTime) .invalidReceipt
  let row ← orFail (t.outbox.find? r.names) .messageNotFound
  if row.state = .delivered then do
    ensure (row.deliveryReceipt.getD [] == r.receiptID) .receiptMismatch
    pure (t, .duplicate)
  else do
    ensure (row.state == .delivering && row.claimToken.getD [] == r.claimToken) .lostClaim
    pure ({ t with
      outbox := t.outbox.map fun o => if r.closes o then o.deliver r.receiptID else o }, .recorded)

/-! ### Runs -/

inductive FrontEvent where
  | claim (request : FrontClaim) (tokens : List Bytes)
  | mark (receipt : FrontReceipt) (now : Time)
  | apply (application : Application) (now : Time)

def DB.frontStep (s : DB) (t : Tables) : FrontEvent → Tables
  | .claim c tokens =>
    match claimFrontDeliveries c tokens t with
    | .ok (t', _) => t'
    | .error _ => t
  | .mark r now =>
    match markFrontDelivered r now t with
    | .ok (t', _) => t'
    | .error _ => t
  | .apply a now => s.applyTables a now t

def DB.frontRun (s : DB) (t : Tables) (es : List FrontEvent) : Tables := es.foldl s.frontStep t

/-! ### One row through an application -/

section
variable {db db' : Database} {p : Option VerifiedProjection} {rows rows' : List FrontRow}
  {verdict : Verdict} {reason : Bytes} {seq : ℤ} (s : DB)

/-- The row of a key, if there is one. -/
def Tables.row (t : Tables) (k : Front × Bytes) : Option OutboxRow :=
  Table.find OutboxRow.key k t.outbox

/-- The constraints of the table, and where its message identifiers come from. -/
structure Tables.Sound (t : Tables) : Prop where
  keyed : Table.Keyed OutboxRow.key t.outbox
  fronted : Fronted t.database.front

/-- What an application does to the rows of the outbox. -/
inductive FrontChange (rows : List FrontRow) : List FrontRow → Prop where
  | quarantined (ids : List Bytes) : FrontChange rows
      (rows.map fun r => if ids.contains r.adviceID then { r with state := .quarantined } else r)
  | added (new : List FrontRow) (pending : ∀ r ∈ new, r = frontRow r.adviceID r.front)
      (keyed : Table.Keyed FrontRow.key rows → Table.Keyed FrontRow.key (rows ++ new)) :
      FrontChange rows (rows ++ new)

theorem frontChange_same (rows : List FrontRow) : FrontChange rows rows := by
  have h : FrontChange rows (rows ++ []) := .added [] (by simp) (by simp)
  rwa [List.append_nil] at h

theorem insertOrIgnore_front {adviceID : Bytes} {front : Front}
    (h : insertOrIgnore FrontRow.key FrontRow.messageID (frontRow adviceID front) rows = .ok rows') :
    ∃ new, rows' = rows ++ new ∧ (∀ r ∈ new, r = frontRow r.adviceID r.front) ∧
      (Table.Keyed FrontRow.key rows → Table.Keyed FrontRow.key rows') := by
  unfold insertOrIgnore at h
  split at h
  · cases h
    exact ⟨[], by simp, by simp, id⟩
  · rename_i hfresh
    split at h
    · cases h
    · cases h
      refine ⟨_, rfl, ?_, fun hkeyed => hkeyed.append (Bool.eq_false_iff.mpr hfresh)⟩
      intro r hr
      rw [List.mem_singleton.mp hr]
      rfl

theorem persistFront_change {p : VerifiedProjection}
    (h : persistFront p rows = .ok rows') : FrontChange rows rows' := by
  unfold persistFront at h
  split at h
  · obtain ⟨middle, hfirst, hsecond⟩ := bind_eq_ok.mp h
    obtain ⟨new, rfl, hnew, hkeyed⟩ := insertOrIgnore_front hfirst
    obtain ⟨newer, rfl, hnewer, hkeyed'⟩ := insertOrIgnore_front hsecond
    rw [List.append_assoc] at hkeyed' ⊢
    refine .added _ ?_ fun hrows => hkeyed' (hkeyed hrows)
    intro r hr
    exact (List.mem_append.mp hr).elim (hnew r) (hnewer r)
  · cases h
    exact frontChange_same rows

theorem settleVerdict_front {j : Judged}
    (h : settleVerdict verdict reason p seq db = .ok (db', j)) : FrontChange db.front db'.front := by
  unfold settleVerdict claimIdentity at h
  split at h
  · rename_i p
    cases hclaim : db.projection.claimIdentity p.envelopeID p.commitment seq with
    | mk claimed outcome =>
      simp only [hclaim] at h
      cases outcome with
      | quarantined =>
        cases h
        exact .quarantined _
      | duplicate =>
        cases h
        exact frontChange_same _
      | _ =>
        obtain ⟨db₁, hpersist, h⟩ := bind_eq_ok.mp h
        cases h
        unfold persistProjection at hpersist
        obtain ⟨t, -, hpersist⟩ := bind_eq_ok.mp hpersist
        obtain ⟨front, hfront, hpersist⟩ := bind_eq_ok.mp hpersist
        cases hpersist
        exact persistFront_change hfront
  · cases h
    exact frontChange_same _

theorem applied_front {s : DB} {d : JournalDelivery} {outcome : ApplyOutcome}
    (h : Applied s d verdict reason p db db' outcome) : FrontChange db.front db'.front := by
  cases h with
  | duplicate | halted => exact frontChange_same _
  | recorded _ _ _ written =>
    obtain ⟨db₁, j, hsettle, -, hadvance⟩ := recordDelivery_eq_ok written
    have hchange := settleVerdict_front hsettle
    rwa [(advanceDeliveryStateTx_frame hadvance).2]
  | torn _ _ _ _ _ _ left =>
    rcases left with rfl | hadvance
    · exact frontChange_same _
    · rw [(advanceDeliveryStateTx_frame hadvance).2]
      exact frontChange_same _

theorem apply_front (a : Application) (db : Database) :
    FrontChange db.front (s.apply db a).front := by
  unfold DB.apply
  split
  · rename_i happly
    exact applied_front (applyVerified_applied happly).2.2
  · exact frontChange_same _

theorem find_image {ρ σ κ : Type} [DecidableEq κ] {key : ρ → κ} {key' : σ → κ} {f : ρ → σ}
    (hf : ∀ r, key' (f r) = key r) (k : κ) (rows : List ρ) :
    Table.find key' k (rows.map f) = (Table.find key k rows).map f := by
  unfold Table.find
  rw [List.find?_map]
  have hcomp : (fun r => key' r == k) ∘ f = fun r => key r == k := by
    funext r
    simp [hf]
  rw [hcomp]

theorem carried_toFrontRow (old : List OutboxRow) (now : Time) (r : FrontRow) :
    (OutboxRow.carried old now r).toFrontRow = r := by
  unfold OutboxRow.carried
  split <;> rfl

theorem carried_some {old : List OutboxRow} {o : OutboxRow} {r : FrontRow} (now : Time)
    (h : Table.find OutboxRow.key r.key old = some o) :
    OutboxRow.carried old now r = { o with toFrontRow := r } := by
  unfold OutboxRow.carried
  rw [h]

/-- The row an application inserts. -/
def arrival (k : Front × Bytes) (now : Time) : OutboxRow :=
  { toFrontRow := frontRow k.2 k.1, createdAt := sqlTime now }

theorem applyTables_row (a : Application) (now : Time) (t : Tables) (k : Front × Bytes) :
    (∀ o, t.row k = some o → (s.applyTables a now t).row k = some o ∨
      (s.applyTables a now t).row k = some { o with state := .quarantined }) ∧
    (t.row k = none → (s.applyTables a now t).row k = none ∨
      (s.applyTables a now t).row k = some (arrival k now)) := by
  have hsame : ∀ r : FrontRow, (OutboxRow.carried t.outbox now r).key = r.key := fun r =>
    congrArg FrontRow.key (carried_toFrontRow t.outbox now r)
  have hrow : (s.applyTables a now t).row k =
      (Table.find FrontRow.key k (s.apply t.database a).front).map
        (OutboxRow.carried t.outbox now) := find_image hsame k _
  have hold : Table.find FrontRow.key k t.database.front = (t.row k).map OutboxRow.toFrontRow :=
    find_image (fun _ => rfl) k t.outbox
  have hcarried : ∀ o, t.row k = some o → ∀ r : FrontRow, r.key = k →
      OutboxRow.carried t.outbox now r = { o with toFrontRow := r } := by
    intro o ho r hr
    exact carried_some now (hr ▸ ho)
  have hkey : ∀ o, t.row k = some o → o.toFrontRow.key = k := fun o ho =>
    (Table.find_eq_some ho).2
  have hchange := apply_front s a t.database
  rw [hrow]
  generalize (s.apply t.database a).front = front' at hchange
  cases hchange with
  | quarantined =>
    rw [Table.find_map FrontRow.key k _ (by intro r; split <;> rfl), hold]
    refine ⟨fun o ho => ?_, fun hnone => .inl (by rw [hnone]; rfl)⟩
    rw [ho, Option.map_some, Option.map_some, Option.map_some]
    split
    · exact .inr (congrArg some (hcarried o ho _ (hkey o ho)))
    · exact .inl (congrArg some (hcarried o ho _ (hkey o ho)))
  | added new pending =>
    have happend : Table.find FrontRow.key k (t.database.front ++ new) =
        ((t.row k).map OutboxRow.toFrontRow).or (Table.find FrontRow.key k new) := by
      rw [← hold]
      exact List.find?_append
    rw [happend]
    constructor
    · intro o ho
      left
      rw [ho, Option.map_some, Option.some_or, Option.map_some, hcarried o ho _ (hkey o ho)]
    · intro hnone
      rw [hnone, Option.map_none, Option.none_or]
      cases hnew : Table.find FrontRow.key k new with
      | none => exact .inl rfl
      | some r =>
        obtain ⟨hmem, hr⟩ := Table.find_eq_some hnew
        have hfresh : Table.find OutboxRow.key r.key t.outbox = none := by rw [hr]; exact hnone
        right
        rw [Option.map_some]
        unfold OutboxRow.carried arrival
        rw [hfresh, ← hr]
        exact congrArg some (congrArg (fun x => { toFrontRow := x, createdAt := sqlTime now : OutboxRow })
          (pending r hmem))

theorem Tables.Sound.apply {t : Tables} (h : t.Sound) (s : DB) (a : Application) (now : Time) :
    (s.applyTables a now t).Sound := by
  have hrows : (s.applyTables a now t).database.front = (s.apply t.database a).front := by
    show ((s.apply t.database a).front.map _).map _ = _
    rw [List.map_map]
    exact (List.map_congr_left fun r _ => carried_toFrontRow _ _ r).trans (List.map_id _)
  have hkeys : ∀ t : Tables, Table.Keyed OutboxRow.key t.outbox ↔
      Table.Keyed FrontRow.key t.database.front := by
    intro t
    unfold Table.Keyed Tables.database
    rw [List.map_map]
    rfl
  have hkeyed := (hkeys t).mp h.keyed
  have hfronted := h.fronted
  suffices hboth : Table.Keyed FrontRow.key (s.apply t.database a).front ∧
      Fronted (s.apply t.database a).front from
    ⟨(hkeys _).mpr (hrows ▸ hboth.1), hrows ▸ hboth.2⟩
  have hchange := apply_front s a t.database
  generalize (s.apply t.database a).front = front' at hchange ⊢
  cases hchange with
  | quarantined =>
    refine ⟨hkeyed.map (by intro r; split <;> rfl), ?_⟩
    intro r hr
    obtain ⟨x, hx, rfl⟩ := List.mem_map.mp hr
    split <;> exact hfronted x hx
  | added new pending keyed =>
    refine ⟨keyed hkeyed, ?_⟩
    intro r hr
    rcases List.mem_append.mp hr with hr | hr
    · exact hfronted r hr
    · exact congrArg FrontRow.messageID (pending r hr)

end

/-! ### One row through a claim -/

section
variable {c : FrontClaim} {k : Front × Bytes} {rows rows' : List OutboxRow}
  {out more : List FrontDelivery}
variable {x y : Option OutboxRow} {tokens : List Bytes} {o : OutboxRow} {a : AdviceRow}
  {token : Bytes}

/-- A claim passed the row of `k` by, or took it and returned it under the token it left. -/
inductive Claimed (c : FrontClaim) (k : Front × Bytes) (out : List FrontDelivery) :
    Option OutboxRow → Option OutboxRow → Prop where
  | passed (r : Option OutboxRow) (absent : ∀ d ∈ out, d.key ≠ k) : Claimed c k out r r
  | taken (r : OutboxRow) (token : Bytes) (front : c.front = k.1)
      (claimable : r.claimable c.now = true) (returned : ∃ d ∈ out, d.key = k)
      (tokens : ∀ d ∈ out, d.key = k → d.claimToken = token) :
      Claimed c k out (some r) (some (c.lease token r))

theorem Claimed.then_passed (h : Claimed c k out x y)
    (hmore : ∀ d ∈ more, d.key ≠ k) : Claimed c k (out ++ more) x y := by
  cases h with
  | passed _ absent => exact .passed _ (List.forall_mem_append.mpr ⟨absent, hmore⟩)
  | taken r token front claimable returned tokens =>
    obtain ⟨d, hd, hkey⟩ := returned
    refine .taken r token front claimable ⟨d, List.mem_append_left _ hd, hkey⟩ ?_
    exact List.forall_mem_append.mpr ⟨tokens, fun d hd hkey => absurd hkey (hmore d hd)⟩

theorem Claimed.after_passed (h : Claimed c k more x y)
    (hout : ∀ d ∈ out, d.key ≠ k) : Claimed c k (out ++ more) x y := by
  cases h with
  | passed _ absent => exact .passed _ (List.forall_mem_append.mpr ⟨hout, absent⟩)
  | taken r token front claimable returned tokens =>
    obtain ⟨d, hd, hkey⟩ := returned
    refine .taken r token front claimable ⟨d, List.mem_append_right _ hd, hkey⟩ ?_
    exact List.forall_mem_append.mpr ⟨fun d hd hkey => absurd hkey (hout d hd), tokens⟩

/-- What one iteration of the loop returns. -/
def FrontClaim.granted (c : FrontClaim) (o : OutboxRow) (a : AdviceRow) (token : Bytes)
    (rows : List OutboxRow) : List FrontDelivery :=
  if (rows.filter (c.hits o.adviceID)).length = 1 then
    [⟨c.front, a.advice.caseID, o.adviceID, o.messageID, a.advice.text, token⟩]
  else []

theorem grant_cons {rest : List (OutboxRow × AdviceRow)}
    (h : c.grant ((o, a) :: rest) (token :: tokens) rows = .ok (rows', out)) :
    ∃ more, c.grant rest tokens (rows.map fun r =>
        if c.hits o.adviceID r then c.lease token r else r) = .ok (rows', more) ∧
      out = c.granted o a token rows ++ more := by
  obtain ⟨⟨after, more⟩, hgrant, h⟩ := bind_eq_ok.mp h
  simp only at h
  unfold FrontClaim.granted
  split at h <;> cases h
  · rename_i hone
    exact ⟨more, hgrant, by rw [if_pos hone]; rfl⟩
  · rename_i hnone
    exact ⟨out, hgrant, by rw [if_neg hnone]; rfl⟩

theorem granted_key :
    ∀ d ∈ c.granted o a token rows, d.key = (c.front, o.adviceID) := by
  intro d hd
  unfold FrontClaim.granted at hd
  split at hd
  · rw [List.mem_singleton.mp hd]
    rfl
  · cases hd

theorem leased_key (token id : Bytes) (r : OutboxRow) :
    (if c.hits id r then c.lease token r else r).key = r.key := by
  split <;> rfl

theorem granted_claimed (hkeyed : Table.Keyed OutboxRow.key rows) (o : OutboxRow) (a : AdviceRow)
    (token : Bytes) :
    Claimed c k (c.granted o a token rows) (Table.find OutboxRow.key k rows)
      ((Table.find OutboxRow.key k rows).map fun r =>
        if c.hits o.adviceID r then c.lease token r else r) := by
  have hhits : ∀ x, c.hits o.adviceID x = true →
      x.key = (c.front, o.adviceID) ∧ x.claimable c.now = true := by
    intro x hx
    simpa only [FrontClaim.hits, Bool.and_eq_true, beq_iff_eq] using hx
  -- a row that is returned is a row that was hit
  have hmiss : (∀ x ∈ rows, x.key = k → c.hits o.adviceID x = false) →
      ∀ d ∈ c.granted o a token rows, d.key ≠ k := by
    intro hno d hd hkey
    have hk := (granted_key d hd).symm.trans hkey
    have hempty : rows.filter (c.hits o.adviceID) = [] := by
      rw [List.filter_eq_nil_iff]
      intro x hx hhit
      rw [hno x hx ((hhits x hhit).1.trans hk)] at hhit
      cases hhit
    simp [FrontClaim.granted, hempty] at hd
  cases hfound : Table.find OutboxRow.key k rows with
  | none =>
    refine .passed _ (hmiss fun x hx hkey => ?_)
    exact absurd hkey (Table.find_eq_none.mp hfound x hx)
  | some r =>
    obtain ⟨hr, hrk⟩ := Table.find_eq_some hfound
    cases hhit : c.hits o.adviceID r with
    | true =>
      obtain ⟨hkey, hclaimable⟩ := hhits r hhit
      have hone := hkeyed.filter_length hr (c.hits o.adviceID) hhit fun x hx =>
        (hhits x hx).1.trans hkey.symm
      have hk : (c.front, o.adviceID) = k := hkey.symm.trans hrk
      rw [Option.map_some, hhit, FrontClaim.granted, if_pos hone]
      refine .taken r token (congrArg Prod.fst hk) hclaimable ⟨_, List.mem_cons_self, hk⟩ ?_
      intro d hd _
      rw [List.mem_singleton.mp hd]
    | false =>
      rw [Option.map_some, hhit]
      refine .passed _ (hmiss fun x hx hkey => ?_)
      rw [hkeyed.eq_of_key hx hr (hkey.trans hrk.symm)]
      exact hhit

theorem grant_claimed {picked : List (OutboxRow × AdviceRow)}
    (hkeyed : Table.Keyed OutboxRow.key rows) (hpicked : (picked.map fun p => p.1.adviceID).Nodup)
    (h : c.grant picked tokens rows = .ok (rows', out)) :
    Claimed c k out (Table.find OutboxRow.key k rows) (Table.find OutboxRow.key k rows') ∧
      (k.2 ∉ picked.map (fun p => p.1.adviceID) → ∀ d ∈ out, d.key ≠ k) := by
  induction picked generalizing tokens rows out with
  | nil =>
    cases h
    exact ⟨.passed _ (by simp), by simp⟩
  | cons p rest ih =>
    cases tokens with
    | nil => cases h
    | cons token tokens =>
      obtain ⟨o, a⟩ := p
      obtain ⟨hfresh, hrest⟩ := List.nodup_cons.mp hpicked
      obtain ⟨more, hgrant, rfl⟩ := grant_cons h
      obtain ⟨hlater, habsent⟩ := ih (hkeyed.map (leased_key token o.adviceID)) hrest hgrant
      rw [Table.find_map OutboxRow.key k _ (leased_key token o.adviceID)] at hlater
      have hnow := granted_claimed (c := c) (k := k) hkeyed o a token
      by_cases hk : k = (c.front, o.adviceID)
      · have hmore : ∀ d ∈ more, d.key ≠ k := habsent (by rw [hk]; exact hfresh)
        refine ⟨?_, fun hnot => absurd (by rw [hk]; exact List.mem_cons_self) hnot⟩
        generalize (Table.find OutboxRow.key k rows).map _ = middle at hnow hlater
        generalize Table.find OutboxRow.key k rows' = last at hlater ⊢
        cases hlater with
        | passed _ _ => exact hnow.then_passed hmore
        | taken _ _ _ _ returned _ =>
          obtain ⟨d, hd, hkey⟩ := returned
          exact absurd hkey (hmore d hd)
      · have hout : ∀ d ∈ c.granted o a token rows, d.key ≠ k := by
          intro d hd hkey
          exact hk (hkey.symm.trans (granted_key d hd))
        refine ⟨?_, fun hnot => List.forall_mem_append.mpr ⟨hout, habsent fun hin => ?_⟩⟩
        · generalize (Table.find OutboxRow.key k rows).map _ = middle at hnow hlater
          generalize Table.find OutboxRow.key k rows = first at hnow ⊢
          cases hnow with
          | passed _ _ => exact hlater.after_passed hout
          | taken _ _ _ _ returned _ =>
            obtain ⟨d, hd, hkey⟩ := returned
            exact absurd hkey (hout d hd)
        · exact hnot (List.mem_cons_of_mem _ hin)

end

theorem joined_sublist {ρ σ : Type} (f : ρ → Option σ) (rows : List ρ) :
    ((rows.filterMap fun r => (f r).map fun x => (r, x)).map Prod.fst).Sublist rows := by
  induction rows with
  | nil => exact .slnil
  | cons r rows ih =>
    rw [List.filterMap_cons]
    cases f r with
    | none => exact ih.cons r
    | some x => exact ih.cons_cons r

theorem select_nodup {t : Tables} (h : t.Sound) (c : FrontClaim) :
    ((c.select t).map fun p => p.1.adviceID).Nodup := by
  have hsub := joined_sublist (fun o : OutboxRow =>
    (Table.find AdviceRow.key o.adviceID t.projection.advice).filter fun a => a.state = .accepted)
    (t.outbox.filter fun o => o.front == c.front && o.claimable c.now)
  have hkeys : ((c.candidates t).map fun p => p.1.key).Nodup := by
    have hmap := (hsub.trans List.filter_sublist).map OutboxRow.key
    rw [List.map_map] at hmap
    exact h.keyed.sublist hmap
  have hselect : ((c.select t).map fun p => p.1.key).Nodup := by
    have hperm := (List.perm_insertionSort (fun a b => a.1.before b.1) (c.candidates t)).map
      fun p => p.1.key
    exact (hperm.nodup_iff.mpr hkeys).sublist ((List.take_sublist _ _).map _)
  have hfront : ∀ p ∈ c.select t, p.1.key = (c.front, p.1.adviceID) := by
    intro p hp
    have hp := (List.mem_insertionSort _).mp (List.mem_of_mem_take hp)
    have hrow := hsub.subset (List.mem_map_of_mem hp)
    simp only [List.mem_filter, Bool.and_eq_true, beq_iff_eq] at hrow
    exact Prod.ext hrow.2.1 rfl
  rw [List.map_congr_left hfront] at hselect
  exact List.Nodup.of_map (Prod.mk c.front) (by rw [List.map_map]; exact hselect)

theorem claim_claimed {t t' : Tables} {c : FrontClaim} {tokens : List Bytes}
    {out : List FrontDelivery} (h : t.Sound)
    (hclaim : claimFrontDeliveries c tokens t = .ok (t', out)) (k : Front × Bytes) :
    Claimed c k out (t.row k) (t'.row k) := by
  obtain ⟨-, hclaim⟩ := ensure_bind_eq_ok.mp hclaim
  obtain ⟨⟨rows, out'⟩, hgrant, hclaim⟩ := bind_eq_ok.mp hclaim
  cases hclaim
  exact (grant_claimed h.keyed (select_nodup h c) hgrant).1

/-! ### One row through a receipt -/

theorem Tables.Sound.named {t : Tables} (h : t.Sound) {r : FrontReceipt} {o o' : OutboxRow}
    (ho : o ∈ t.outbox) (ho' : o' ∈ t.outbox) (hn : r.names o = true) (hn' : r.names o' = true) :
    o = o' := by
  simp only [FrontReceipt.names, Bool.and_eq_true, beq_iff_eq] at hn hn'
  have hmessage := (h.fronted o.toFrontRow (List.mem_map_of_mem ho)).symm.trans
    ((hn.2.trans hn'.2.symm).trans (h.fronted o'.toFrontRow (List.mem_map_of_mem ho')))
  obtain ⟨hfront, hadvice⟩ := frontRow_injective hmessage
  exact h.keyed.eq_of_key ho ho' (Prod.ext hfront hadvice)

theorem mark_ok {t t' : Tables} {r : FrontReceipt} {now : Time} {outcome : DeliveryOutcome}
    (h : t.Sound) (hmark : markFrontDelivered r now t = .ok (t', outcome)) :
    ∃ o ∈ t.outbox, r.names o = true ∧
      (outcome = .duplicate ∧ t' = t ∧ o.state = .delivered ∧
          o.deliveryReceipt.getD [] = r.receiptID ∨
        outcome = .recorded ∧ o.state = .delivering ∧ o.claimToken = some r.claimToken ∧
          ∀ k, t'.row k = if k = o.key then some (o.deliver r.receiptID) else t.row k) := by
  obtain ⟨hvalid, hmark⟩ := ensure_bind_eq_ok.mp hmark
  obtain ⟨o, hfound, hmark⟩ := orFail_bind_eq_ok.mp hmark
  have ho := List.mem_of_find?_eq_some hfound
  have hnames : r.names o = true := List.find?_some hfound
  refine ⟨o, ho, hnames, ?_⟩
  split at hmark
  · rename_i hdelivered
    obtain ⟨hsame, hmark⟩ := ensure_bind_eq_ok.mp hmark
    cases hmark
    exact .inl ⟨rfl, rfl, hdelivered, beq_iff_eq.mp hsame⟩
  · obtain ⟨hheld, hmark⟩ := ensure_bind_eq_ok.mp hmark
    cases hmark
    simp only [Bool.and_eq_true, beq_iff_eq] at hheld
    have htoken : o.claimToken = some r.claimToken := by
      simp only [FrontReceipt.valid, Bool.and_eq_true, bne_iff_ne] at hvalid
      cases hclaim : o.claimToken with
      | none => exact absurd (by rw [← hheld.2, hclaim]; rfl) hvalid.1.1.2
      | some => rw [← hheld.2, hclaim]; rfl
    refine .inr ⟨rfl, hheld.1, htoken, fun k => ?_⟩
    have hcloses : ∀ x ∈ t.outbox, r.closes x = true ↔ x = o := by
      intro x hx
      constructor
      · intro hx'
        simp only [FrontReceipt.closes, Bool.and_eq_true] at hx'
        exact h.named hx ho hx'.1.1 hnames
      · rintro rfl
        simp [FrontReceipt.closes, hnames, hheld.1, htoken]
    have hkeep : ∀ x : OutboxRow, (if r.closes x then x.deliver r.receiptID else x).key = x.key := by
      intro x
      split <;> rfl
    show Table.find OutboxRow.key k (t.outbox.map _) = _
    rw [Table.find_map OutboxRow.key k _ hkeep]
    show (t.row k).map _ = _
    split
    · rename_i hk
      have hrow : t.row k = some o := by rw [hk]; exact h.keyed.find_mem ho
      rw [hrow, Option.map_some, if_pos ((hcloses o ho).mpr rfl)]
    · rename_i hk
      cases hrow : t.row k with
      | none => rfl
      | some x =>
        obtain ⟨hx, hxk⟩ := Table.find_eq_some hrow
        have hnot : ¬r.closes x = true := fun hx' => hk (((hcloses x hx).mp hx') ▸ hxk.symm)
        rw [Option.map_some, if_neg hnot]

/-! ### What keeps the tables sound -/

theorem Tables.Sound.update {t : Tables} (h : t.Sound) {f : OutboxRow → OutboxRow}
    (hkey : ∀ r, (f r).key = r.key) (hmessage : ∀ r, (f r).messageID = r.messageID) :
    Tables.Sound { t with outbox := t.outbox.map f } where
  keyed := h.keyed.map hkey
  fronted := by
    intro r hr
    obtain ⟨x, hx, rfl⟩ := List.mem_map.mp hr
    obtain ⟨o, ho, rfl⟩ := List.mem_map.mp hx
    have hsame := hkey o
    simp only [OutboxRow.key, FrontRow.key, Prod.mk.injEq] at hsame
    rw [hmessage, hsame.1, hsame.2]
    exact h.fronted _ (List.mem_map_of_mem ho)

theorem grant_sound {t : Tables} {c : FrontClaim} {picked : List (OutboxRow × AdviceRow)}
    {tokens : List Bytes} {rows rows' : List OutboxRow} {out : List FrontDelivery}
    (h : Tables.Sound { t with outbox := rows })
    (hgrant : c.grant picked tokens rows = .ok (rows', out)) :
    Tables.Sound { t with outbox := rows' } := by
  induction picked generalizing tokens rows out with
  | nil =>
    cases hgrant
    exact h
  | cons p rest ih =>
    cases tokens with
    | nil => cases hgrant
    | cons token tokens =>
      obtain ⟨more, hgrant, -⟩ := grant_cons hgrant
      exact ih (h.update (leased_key token p.1.adviceID) (by intro r; split <;> rfl)) hgrant

theorem sound_step (s : DB) {t : Tables} (h : t.Sound) (e : FrontEvent) :
    (s.frontStep t e).Sound := by
  unfold DB.frontStep
  cases e with
  | claim =>
    simp only
    split
    · rename_i hclaim
      obtain ⟨-, hclaim⟩ := ensure_bind_eq_ok.mp hclaim
      obtain ⟨⟨rows, out'⟩, hgrant, hclaim⟩ := bind_eq_ok.mp hclaim
      cases hclaim
      exact grant_sound h hgrant
    · exact h
  | mark =>
    simp only
    split
    · rename_i hmark
      obtain ⟨-, hmark⟩ := ensure_bind_eq_ok.mp hmark
      obtain ⟨o, -, hmark⟩ := orFail_bind_eq_ok.mp hmark
      split at hmark
      all_goals
        obtain ⟨-, hmark⟩ := ensure_bind_eq_ok.mp hmark
        cases hmark
      · exact h
      · exact h.update (by intro x; split <;> rfl) (by intro x; split <;> rfl)
    · exact h
  | apply a now => exact h.apply s a now

theorem sound_run (s : DB) {t : Tables} (h : t.Sound) (es : List FrontEvent) :
    (s.frontRun t es).Sound := by
  induction es generalizing t with
  | nil => exact h
  | cons e es ih => exact ih (sound_step s h e)

theorem sound_empty : Tables.Sound {} := ⟨Table.keyed_nil _, by intro r hr; cases hr⟩

end Snagline.Edge
