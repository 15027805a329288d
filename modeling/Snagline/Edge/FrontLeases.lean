import Snagline.Edge.Fronts

/-!
# Leases and receipts of the fronts (sspedge/store.go:759-844)

A row is taken again when the text of its lease's end is smaller than that of the clock. For
most instants the texts compare as the instants do. A receipt is not held against the clock at
all: it is recorded under the token the row has, which is the last one granted.
-/

namespace Snagline.Edge
open Kit Ssp

/-! ### Exclusion -/

/-- The row is leased until `expires`, or out of the claims' reach. -/
def OutOfReach (expires : Time) (row : Option OutboxRow) : Prop :=
  ∃ o, row = some o ∧ (o.state = .delivering ∧ o.leaseExpiresAt = some (sqlTime expires) ∨
    o.state = .delivered ∨ o.state = .quarantined)

theorem OutOfReach.not_claimable {expires now : Time} {o : OutboxRow} (h : OutOfReach expires (some o))
    (hread : ¬sqlTime expires < sqlTime now) : o.claimable now = false := by
  obtain ⟨_, ⟨⟩, hstate⟩ := h
  unfold OutboxRow.claimable
  rcases hstate with ⟨hstate, hlease⟩ | hstate | hstate
  · simp [hstate, hlease, hread]
  · simp [hstate]
  · simp [hstate]

theorem OutOfReach.passed {expires : Time} {c : FrontClaim} {k : Front × Bytes}
    {out : List FrontDelivery} {x y : Option OutboxRow} (h : OutOfReach expires x)
    (hread : c.front = k.1 → ¬sqlTime expires < sqlTime c.now) (hclaimed : Claimed c k out x y) :
    y = x ∧ ∀ d ∈ out, d.key ≠ k := by
  cases hclaimed with
  | passed _ absent => exact ⟨rfl, absent⟩
  | taken r token front claimable =>
    rw [h.not_claimable (hread front)] at claimable
    cases claimable

theorem OutOfReach.step {s : DB} {t : Tables} {expires : Time} {k : Front × Bytes} (hsound : t.Sound)
    (h : OutOfReach expires (t.row k)) {e : FrontEvent}
    (hread : ∀ c tokens, e = .claim c tokens → c.front = k.1 →
      ¬sqlTime expires < sqlTime c.now) :
    OutOfReach expires ((s.frontStep t e).row k) := by
  unfold DB.frontStep
  cases e with
  | claim c tokens =>
    simp only
    split
    · rename_i hclaim
      rw [(h.passed (hread c tokens rfl) (claim_claimed hsound hclaim k)).1]
      exact h
    · exact h
  | mark =>
    simp only
    split
    · rename_i outcome hmark
      obtain ⟨o, -, -, ⟨-, rfl, -⟩ | ⟨-, -, -, hrow⟩⟩ := mark_ok hsound hmark
      · exact h
      · rw [hrow]
        split
        · exact ⟨_, rfl, .inr (.inl rfl)⟩
        · exact h
    · exact h
  | apply a now =>
    obtain ⟨o, ho, hstate⟩ := h
    rcases (applyTables_row s a now t k).1 o ho with hrow | hrow
    · exact ⟨o, hrow, hstate⟩
    · exact ⟨_, hrow, .inr (.inr rfl)⟩

theorem OutOfReach.run {s : DB} {t : Tables} {expires : Time} {k : Front × Bytes} (hsound : t.Sound)
    (h : OutOfReach expires (t.row k)) {es : List FrontEvent}
    (hread : ∀ c tokens, .claim c tokens ∈ es → c.front = k.1 →
      ¬sqlTime expires < sqlTime c.now) :
    OutOfReach expires ((s.frontRun t es).row k) := by
  induction es generalizing t with
  | nil => exact h
  | cons e es ih =>
    refine ih (sound_step s hsound e) (h.step hsound ?_) ?_
    · rintro c tokens rfl
      exact hread c tokens List.mem_cons_self
    · exact fun c tokens hc => hread c tokens (List.mem_cons_of_mem _ hc)

/-- The clock at a claim, as digits, breaks off where the lease's end goes on. -/
def Overtakes (now expires : Time) : Prop :=
  now / Calendar.second = expires / Calendar.second ∧
    Calendar.fraction now <+: Calendar.fraction expires

/-- The claims of a front from a lease on: the last one and those in between. -/
def Rival (front : Front) (between : List FrontEvent) (later c : FrontClaim) : Prop :=
  c.front = front ∧ (c = later ∨ ∃ tokens, .claim c tokens ∈ between)

/-- Whatever the fronts do in between: a delivery that is returned to a second claim before
its lease has run out was, at that claim or at one of its front in between, overtaken by the
clock's text. The years have four digits. -/
theorem front_lease_exclusive (s : DB) (before between : List FrontEvent) (first later : FrontClaim)
    (tokens tokens' : List Bytes) (t t' : Tables) (out out' : List FrontDelivery)
    (hfirst : claimFrontDeliveries first tokens (s.frontRun {} before) = .ok (t, out))
    (hlater : claimFrontDeliveries later tokens' (s.frontRun t between) = .ok (t', out'))
    (d d' : FrontDelivery) (hd : d ∈ out) (hd' : d' ∈ out') (hsame : d'.key = d.key)
    (hclock : ∀ c, Rival d.front between later c → c.now ≤ later.now)
    (hearly : later.now < first.now + first.ttl)
    (hyears : ∀ c, Rival d.front between later c → Calendar.FourDigits (c.now / Calendar.second))
    (hyear : Calendar.FourDigits ((first.now + first.ttl) / Calendar.second)) :
    ∃ c, Rival d.front between later c ∧ Overtakes c.now (first.now + first.ttl) := by
  by_contra hnone
  have hread : ∀ c, Rival d.front between later c →
      ¬sqlTime (first.now + first.ttl) < sqlTime c.now := by
    intro c hc hlt
    have hnow : c.now < first.now + first.ttl := lt_of_le_of_lt (hclock c hc) hearly
    exact hnone ⟨c, hc, (Calendar.rfc3339Nano_lt_iff (hyears c hc) hyear hnow).mp hlt⟩
  have hsound := sound_run s sound_empty before
  have hkept : OutOfReach (first.now + first.ttl) (t.row d.key) := by
    have hclaimed := claim_claimed hsound hfirst d.key
    generalize (s.frontRun {} before).row d.key = x at hclaimed
    generalize t.row d.key = y at hclaimed
    cases hclaimed with
    | passed _ absent => exact absurd rfl (absent d hd)
    | taken r token _ _ _ _ => exact ⟨_, rfl, .inl ⟨rfl, rfl⟩⟩
  have ht : t.Sound := by
    have hstep := sound_step s hsound (.claim first tokens)
    unfold DB.frontStep at hstep
    simpa only [hfirst] using hstep
  have hrun := hkept.run (s := s) ht fun c tokens hc hfront => hread c ⟨hfront, .inr ⟨tokens, hc⟩⟩
  have hpassed := hrun.passed (fun hfront => hread later ⟨hfront, .inl rfl⟩)
    (claim_claimed (sound_run s ht between) hlater _)
  exact hpassed.2 d' hd' hsame

namespace Sample

/-- 2026-01-01T00:00:00Z -/
def midnight : Time := 1767225600 * Calendar.second
def displayed : List FrontEvent := advised.map (.apply · midnight)

/-- A lease of thirty seconds, taken a quarter of a second after midnight. -/
def leased : FrontClaim := ⟨.cli, [111], 30 * Calendar.second, 10, midnight + 250000000⟩

/-- The claim of another owner, thirty seconds after midnight. -/
def retaken : FrontClaim := ⟨.cli, [112], 30 * Calendar.second, 10, midnight + 30 * Calendar.second⟩

def held (token : Bytes) : FrontDelivery :=
  ⟨.cli, [99], [97], (frontRow [97] .cli).messageID, [116], token⟩

def claimed : Tables := journal.frontRun {} (displayed ++ [.claim leased [[1]]])
def reclaimed : Tables := journal.frontRun claimed [.claim retaken [[2]]]

end Sample

/-- The lease ends at `00:00:30.25Z`, a text smaller than the `00:00:30Z` of the clock: the
second owner gets the delivery while the first one's lease has 250 ms to run. -/
theorem front_lease_overtaken :
    claimFrontDeliveries Sample.leased [[1]] (Sample.journal.frontRun {} Sample.displayed) =
      .ok (Sample.claimed, [Sample.held [1]]) ∧
    claimFrontDeliveries Sample.retaken [[2]] Sample.claimed =
      .ok (Sample.reclaimed, [Sample.held [2]]) ∧
    Sample.retaken.now + 250000000 = Sample.leased.now + Sample.leased.ttl := by
  decide +kernel

theorem front_lease_exclusive_sample :
    ∃ c, Rival .cli [] Sample.retaken c ∧ Overtakes c.now (Sample.leased.now + Sample.leased.ttl) :=
  front_lease_exclusive Sample.journal Sample.displayed [] Sample.leased Sample.retaken [[1]] [[2]]
    Sample.claimed Sample.reclaimed [Sample.held [1]] [Sample.held [2]] (by decide +kernel)
    (by decide +kernel) (Sample.held [1]) (Sample.held [2]) List.mem_cons_self List.mem_cons_self
    rfl (by rintro c ⟨-, rfl | ⟨tokens, hc⟩⟩; exact le_refl _; cases hc) (by decide)
    (by rintro c ⟨-, rfl | ⟨tokens, hc⟩⟩; decide; cases hc) (by decide)

/-! ### Receipts -/

/-- The receipt is for the message of the row `k`. -/
def FrontReceipt.concerns (r : FrontReceipt) (k : Front × Bytes) : Bool :=
  r.front == k.1 && r.messageID == (frontRow k.2 k.1).messageID

/-- The tokens an event grants for the row of `k`. -/
def grants (k : Front × Bytes) (t : Tables) : FrontEvent → List Bytes
  | .claim c tokens =>
    match claimFrontDeliveries c tokens t with
    | .ok (_, out) => (out.filter fun d => d.key == k).map FrontDelivery.claimToken
    | .error _ => []
  | _ => []

/-- The receipts an event records for the message of `k`, each with the token it came with. -/
def receipts (k : Front × Bytes) (t : Tables) : FrontEvent → List (Bytes × Bytes)
  | .mark r now =>
    match markFrontDelivered r now t with
    | .ok (_, .recorded) => if r.concerns k then [(r.claimToken, r.receiptID)] else []
    | _ => []
  | _ => []

/-- The tables, and what was granted and recorded for one message, newest first. -/
structure FrontLedger where
  tables : Tables := {}
  granted : List Bytes := []
  recorded : List (Bytes × Bytes) := []

def FrontLedger.step (s : DB) (k : Front × Bytes) (l : FrontLedger) (e : FrontEvent) : FrontLedger where
  tables := s.frontStep l.tables e
  granted := grants k l.tables e ++ l.granted
  recorded := receipts k l.tables e ++ l.recorded

def FrontLedger.run (s : DB) (k : Front × Bytes) (es : List FrontEvent) : FrontLedger :=
  es.foldl (FrontLedger.step s k) {}

/-- How the row of a message stands to what was granted and recorded for it. -/
inductive Fits (granted : List Bytes) (recorded : List (Bytes × Bytes)) (row : Option OutboxRow) :
    Prop where
  | opened (none : recorded = [])
      (held : ∀ o, row = some o → o.state ≠ .delivered ∧
        (o.state = .delivering → o.claimToken = granted.head?))
  | closed (token receipt : Bytes) (one : recorded = [(token, receipt)])
      (newest : granted.head? = some token)
      (kept : ∃ o, row = some o ∧
        (o.state = .delivered ∧ o.deliveryReceipt = some receipt ∨ o.state = .quarantined))

section
variable {granted : List Bytes} {recorded : List (Bytes × Bytes)} {k : Front × Bytes} {t t' : Tables}

theorem Fits.claim {x y : Option OutboxRow} {c : FrontClaim} {out : List FrontDelivery}
    (h : Fits granted recorded x) (hclaimed : Claimed c k out x y) :
    Fits ((out.filter fun d => d.key == k).map FrontDelivery.claimToken ++ granted) recorded y := by
  cases hclaimed with
  | passed _ absent =>
    have hnone : (out.filter fun d => d.key == k) = [] := by
      rw [List.filter_eq_nil_iff]
      intro d hd
      simpa using absent d hd
    rwa [hnone]
  | taken r token _ claimable returned tokens =>
    have hhead : ((out.filter fun d => d.key == k).map FrontDelivery.claimToken ++ granted).head? =
        some token := by
      obtain ⟨d, hd, hkey⟩ := returned
      have hmem : d ∈ out.filter fun d => d.key == k := List.mem_filter.mpr ⟨hd, by simpa using hkey⟩
      cases hout : out.filter fun d => d.key == k with
      | nil =>
        rw [hout] at hmem
        cases hmem
      | cons e rest =>
        have he : e ∈ out.filter fun d => d.key == k := by rw [hout]; exact List.mem_cons_self
        obtain ⟨he, hek⟩ := List.mem_filter.mp he
        simp [tokens e he (by simpa using hek)]
    cases h with
    | opened none held =>
      refine .opened none ?_
      rintro _ ⟨⟩
      exact ⟨by simp [FrontClaim.lease], fun _ => hhead.symm⟩
    | closed _ _ _ _ kept =>
      obtain ⟨_, ⟨⟩, hstate⟩ := kept
      rcases hstate with ⟨hstate, -⟩ | hstate <;> simp [OutboxRow.claimable, hstate] at claimable

theorem concerns_iff {o : OutboxRow} {r : FrontReceipt} (h : t.Sound) (ho : o ∈ t.outbox)
    (hnames : r.names o = true) : r.concerns k = true ↔ k = o.key := by
  simp only [FrontReceipt.names, Bool.and_eq_true, beq_iff_eq] at hnames
  have hmessage := h.fronted o.toFrontRow (List.mem_map_of_mem ho)
  simp only [FrontReceipt.concerns, Bool.and_eq_true, beq_iff_eq]
  constructor
  · rintro ⟨-, hsame⟩
    obtain ⟨hfront, hadvice⟩ := frontRow_injective (hsame.symm.trans (hnames.2.symm.trans hmessage))
    exact Prod.ext hfront hadvice
  · rintro rfl
    exact ⟨hnames.1.symm, hnames.2.symm.trans hmessage⟩

theorem Fits.mark {r : FrontReceipt} {now : Time} {outcome : DeliveryOutcome} (hsound : t.Sound)
    (h : Fits granted recorded (t.row k)) (hmark : markFrontDelivered r now t = .ok (t', outcome)) :
    Fits granted (receipts k t (.mark r now) ++ recorded) (t'.row k) := by
  have hreceipts : receipts k t (.mark r now) =
      if outcome = .recorded ∧ r.concerns k then [(r.claimToken, r.receiptID)] else [] := by
    simp only [receipts, hmark]
    cases outcome <;> simp
  obtain ⟨o, ho, hnames, ⟨hdup, rfl, -⟩ | ⟨hrec, hstate, htoken, hrow⟩⟩ := mark_ok hsound hmark
  · rw [hreceipts, if_neg (by simp [hdup])]
    exact h
  · rw [hreceipts, hrow]
    by_cases hk : k = o.key
    · rw [if_pos hk, if_pos ⟨hrec, (concerns_iff hsound ho hnames).mpr hk⟩]
      have hold : t.row k = some o := by rw [hk]; exact hsound.keyed.find_mem ho
      cases h with
      | opened none held =>
        rw [none]
        refine .closed _ _ rfl ?_ ⟨_, rfl, .inl ⟨rfl, rfl⟩⟩
        rw [← htoken, (held o hold).2 hstate]
      | closed _ _ _ _ kept =>
        obtain ⟨x, hx, hkept⟩ := kept
        cases hold.symm.trans hx
        rcases hkept with ⟨hkept, -⟩ | hkept <;> cases hstate.symm.trans hkept
    · rw [if_neg hk, if_neg fun hboth => hk ((concerns_iff hsound ho hnames).mp hboth.2)]
      exact h

theorem Fits.apply (h : Fits granted recorded (t.row k)) (s : DB) (a : Application) (now : Time) :
    Fits granted recorded ((s.applyTables a now t).row k) := by
  obtain ⟨hkeep, hnew⟩ := applyTables_row s a now t k
  cases h with
  | opened none held =>
    refine .opened none fun o ho => ?_
    cases hold : t.row k with
    | none =>
      rcases hnew hold with hrow | hrow <;> cases hrow.symm.trans ho
      exact ⟨by simp [arrival, frontRow], fun hstate => by simp [arrival, frontRow] at hstate⟩
    | some x =>
      rcases hkeep x hold with hrow | hrow <;> cases hrow.symm.trans ho
      · exact held o hold
      · exact ⟨by simp, fun hstate => by simp at hstate⟩
  | closed token receipt one newest kept =>
    obtain ⟨x, hx, hstate⟩ := kept
    refine .closed token receipt one newest ?_
    rcases hkeep x hx with hrow | hrow
    · exact ⟨x, hrow, hstate⟩
    · exact ⟨_, hrow, .inr rfl⟩

end

theorem Fits.step {s : DB} {k : Front × Bytes} {l : FrontLedger} (hsound : l.tables.Sound)
    (h : Fits l.granted l.recorded (l.tables.row k)) (e : FrontEvent) :
    Fits (l.step s k e).granted (l.step s k e).recorded ((l.step s k e).tables.row k) := by
  cases e with
  | claim c tokens =>
    simp only [FrontLedger.step, DB.frontStep, grants, receipts, List.nil_append]
    cases hclaim : claimFrontDeliveries c tokens l.tables with
    | ok _ => exact h.claim (claim_claimed hsound hclaim k)
    | error _ => exact h
  | mark r now =>
    cases hmark : markFrontDelivered r now l.tables with
    | ok _ =>
      simp only [FrontLedger.step, DB.frontStep, grants, List.nil_append, hmark]
      exact h.mark hsound hmark
    | error _ =>
      simp only [FrontLedger.step, DB.frontStep, grants, receipts, List.nil_append, hmark]
      exact h
  | apply a now => exact h.apply s a now

theorem ledger_fits (s : DB) (k : Front × Bytes) (es : List FrontEvent) :
    (FrontLedger.run s k es).tables.Sound ∧ Fits (FrontLedger.run s k es).granted
      (FrontLedger.run s k es).recorded ((FrontLedger.run s k es).tables.row k) := by
  suffices h : ∀ l : FrontLedger, l.tables.Sound → Fits l.granted l.recorded (l.tables.row k) →
      (es.foldl (FrontLedger.step s k) l).tables.Sound ∧ Fits (es.foldl (FrontLedger.step s k) l).granted
        (es.foldl (FrontLedger.step s k) l).recorded ((es.foldl (FrontLedger.step s k) l).tables.row k) from
    h {} sound_empty (.opened rfl (by intro o ho; cases ho))
  induction es with
  | nil => exact fun l hsound hfits => ⟨hsound, hfits⟩
  | cons e es ih => exact fun l hsound hfits => ih _ (sound_step s hsound e) (hfits.step hsound e)

section
variable {k : Front × Bytes} {t : Tables} {o : OutboxRow} {r : FrontReceipt}

theorem find_concerned (h : t.Sound) (ho : t.row k = some o) (hr : r.concerns k = true) :
    t.outbox.find? r.names = some o := by
  obtain ⟨hmem, hkey⟩ := Table.find_eq_some ho
  have hnames : r.names o = true := by
    simp only [FrontReceipt.concerns, Bool.and_eq_true, beq_iff_eq] at hr
    have hmessage := h.fronted o.toFrontRow (List.mem_map_of_mem hmem)
    cases hkey
    simp only [FrontReceipt.names, Bool.and_eq_true, beq_iff_eq]
    exact ⟨hr.1.symm, hmessage.trans hr.2.symm⟩
  cases hfound : t.outbox.find? r.names with
  | none => exact absurd hnames (List.find?_eq_none.mp hfound o hmem)
  | some =>
    exact congrArg some (h.named (List.mem_of_find?_eq_some hfound) hmem (List.find?_some hfound) hnames)

/-- What a receipt is answered for a message that has one. -/
theorem mark_closed {receipt : Bytes} (now : Time) (h : t.Sound) (ho : t.row k = some o)
    (hr : r.concerns k = true) (hstate : o.state = .delivered)
    (hreceipt : o.deliveryReceipt = some receipt) :
    markFrontDelivered r now t =
      if r.valid && now != zeroTime then
        if r.receiptID = receipt then .ok (t, .duplicate) else .error .receiptMismatch
      else .error .invalidReceipt := by
  unfold markFrontDelivered
  rw [find_concerned h ho hr]
  cases r.valid && now != zeroTime with
  | false => rfl
  | true =>
    show (if o.state = .delivered then
      (ensure (o.deliveryReceipt.getD [] == r.receiptID) FrontError.receiptMismatch >>= fun _ =>
        pure (t, DeliveryOutcome.duplicate)) else _) = _
    rw [if_pos hstate, hreceipt, if_pos rfl]
    by_cases hsame : r.receiptID = receipt
    · rw [if_pos hsame, hsame, Option.getD_some, beq_self_eq_true]
      rfl
    · rw [if_neg hsame, Option.getD_some, beq_eq_false_iff_ne.mpr (Ne.symm hsame)]
      rfl

end

/-- Over every history of claims, receipts and applications, for the message of one row: one
receipt at most is recorded, with the token granted last; a token that is not the last one
granted changes nothing; and, the row not being quarantined, once a receipt is recorded a
call that brings it again is answered `duplicate` if it has its fields, a call that brings
another one an error, and no claim returns the message. -/
theorem front_receipts_fenced (s : DB) (k : Front × Bytes) (es : List FrontEvent) :
    let l := FrontLedger.run s k es
    l.recorded.length ≤ 1 ∧
    (∀ p ∈ l.recorded, l.granted.head? = some p.1) ∧
    (∀ r now, r.concerns k = true →
      (∀ t, markFrontDelivered r now l.tables = .ok (t, .recorded) →
        l.recorded = [] ∧ l.granted.head? = some r.claimToken) ∧
      (l.granted.head? ≠ some r.claimToken →
        (s.frontStep l.tables (.mark r now)).row k = l.tables.row k)) ∧
    ∀ p ∈ l.recorded, (∀ o, l.tables.row k = some o → o.state ≠ .quarantined) →
      (∀ r now, r.concerns k = true →
        (r.receiptID = p.2 → markFrontDelivered r now l.tables =
          if r.valid && now != zeroTime then .ok (l.tables, .duplicate)
          else .error .invalidReceipt) ∧
        (r.receiptID ≠ p.2 → ∃ e, markFrontDelivered r now l.tables = .error e)) ∧
      ∀ c tokens t out, claimFrontDeliveries c tokens l.tables = .ok (t, out) →
        ∀ d ∈ out, d.key ≠ k := by
  intro l
  obtain ⟨hsound, hfits⟩ := ledger_fits s k es
  refine ⟨?_, ?_, fun r now hr => ?_, fun p hp hquarantine => ?_⟩
  · cases hfits with
    | opened none => exact none ▸ Nat.zero_le 1
    | closed _ _ one => exact one ▸ le_refl 1
  · intro p hp
    cases hfits with
    | opened none => exact absurd (none ▸ hp) List.not_mem_nil
    | closed token receipt one newest =>
      have hp : p ∈ [(token, receipt)] := one ▸ hp
      rw [List.mem_singleton.mp hp]
      exact newest
  · have hrecorded : ∀ t, markFrontDelivered r now l.tables = .ok (t, .recorded) →
        l.recorded = [] ∧ l.granted.head? = some r.claimToken := by
      intro t hmark
      obtain ⟨o, ho, hnames, ⟨⟨⟩, -⟩ | ⟨-, hstate, htoken, -⟩⟩ := mark_ok hsound hmark
      have hrow : l.tables.row k = some o := by
        rw [(concerns_iff hsound ho hnames).mp hr]
        exact hsound.keyed.find_mem ho
      cases hfits with
      | opened none held => exact ⟨none, ((held o hrow).2 hstate).symm.trans htoken⟩
      | closed _ _ _ _ kept =>
        obtain ⟨x, hx, hkept⟩ := kept
        cases hrow.symm.trans hx
        rcases hkept with ⟨hkept, -⟩ | hkept <;> cases hstate.symm.trans hkept
    refine ⟨hrecorded, fun hstale => ?_⟩
    simp only [DB.frontStep]
    split
    · rename_i t outcome hmark
      obtain ⟨o, -, -, ⟨-, rfl, -⟩ | ⟨rfl, -⟩⟩ := mark_ok hsound hmark
      · rfl
      · exact absurd (hrecorded t hmark).2 hstale
    · rfl
  · cases hfits with
    | opened none => exact absurd (none ▸ hp) List.not_mem_nil
    | closed token receipt one newest kept =>
      cases List.mem_singleton.mp (one ▸ hp)
      obtain ⟨o, ho, ⟨hstate, hreceipt⟩ | hstate⟩ := kept
      · refine ⟨fun r now hr => ⟨fun hsame => ?_, fun hother => ?_⟩, fun c tokens t out hclaim => ?_⟩
        · rw [mark_closed now hsound ho hr hstate hreceipt, if_pos hsame]
        · rw [mark_closed now hsound ho hr hstate hreceipt, if_neg hother]
          split <;> exact ⟨_, rfl⟩
        · have hclaimed := claim_claimed hsound hclaim k
          generalize l.tables.row k = x at hclaimed ho
          generalize t.row k = y at hclaimed
          cases hclaimed with
          | passed _ absent => exact absent
          | taken x _ _ claimable _ _ =>
            cases ho
            simp [OutboxRow.claimable, hstate] at claimable
      · exact absurd hstate (hquarantine o ho)

namespace Sample

def receipt (token : Bytes) : FrontReceipt := ⟨.cli, (frontRow [97] .cli).messageID, token, [114]⟩

def marked : FrontLedger := FrontLedger.run journal (.cli, [97])
  (displayed ++ [.claim leased [[1]], .mark (receipt [1]) midnight])

end Sample

/-- The recorded receipt, brought again without a token, is refused. -/
theorem receipt_without_token :
    Sample.marked.recorded = [([1], (Sample.receipt []).receiptID)] ∧
      (Sample.receipt []).concerns (.cli, [97]) = true ∧
      (Sample.marked.tables.row (.cli, [97])).map (fun o => o.state) = some .delivered ∧
      markFrontDelivered (Sample.receipt []) Sample.midnight Sample.marked.tables =
        .error .invalidReceipt := by
  decide +kernel

end Snagline.Edge
