import Snagline.Authority.Constraints
import Snagline.Authority.Replay
import Snagline.Delivery.Routes
import Snagline.Edge.Sequenced
import Snagline.Kit.Marshal

/-!
# The two ways to the journal

A committed delivery reaches an edge through the stream, as the message the
outbox worker publishes, and through the reconciler, as a row of the authority's
log. Key, subject and headers compose to the identity: both ways end in the same
journal delivery, but for the carrier's own position.
-/

namespace Snagline.Edge
open Kit Ssp Delivery Authority

structure JournalDelivery.Same (x y : JournalDelivery) : Prop where
  deliverySeq : x.deliverySeq = y.deliverySeq
  tenantID : x.tenantID = y.tenantID
  edgeID : x.edgeID = y.edgeID
  edgeGeneration : x.edgeGeneration = y.edgeGeneration
  subject : x.subject = y.subject
  raw : x.raw = y.raw

theorem JournalDelivery.Same.identity {x y : JournalDelivery} (h : x.Same y) :
    x.identity = y.identity := by
  unfold JournalDelivery.identity
  rw [h.tenantID, h.edgeID, h.edgeGeneration]

/-! ### Through the stream -/

structure Bigint (d : Authority.DeliveryRow) : Prop where
  generation : d.edgeGeneration < 2 ^ 63
  sequence : d.deliverySequence < 2 ^ 63
  revision : d.authorityRevision < 2 ^ 63

section Stream

variable {o : Authority.OutboxRow} {d : Authority.DeliveryRow}

def edgeMessage (sha256 : Bytes → Bytes) (o : Authority.OutboxRow) (d : Authority.DeliveryRow) :
    Message where
  subject := edgeSubject sha256 d.tenantID d.edgeID d.edgeGeneration.toNat
  data := d.raw
  headers := [(headerOutboxID, o.outboxID),
    (headerFactSequence, decimalNat d.authorityRevision.toNat),
    (headerDeliverySequence, decimalNat d.deliverySequence.toNat),
    (headerEdgeGeneration, decimalNat d.edgeGeneration.toNat),
    (text "Nats-Msg-Id", messageID sha256 o.outboxID), (text "Nats-Expected-Stream", streamName)]

theorem EdgeReady.publish (h : EdgeReady o d) (sha256 : Bytes → Bytes) :
    publish sha256 (edgeRequest o d) = .ok (edgeMessage sha256 o d) :=
  bind_eq_ok.mpr ⟨_, h.subject sha256, rfl⟩

theorem decimal_toNat {n : ℤ} (h : 0 < n) : decimalNat n.toNat = decimal n := by
  unfold decimal
  rw [if_neg (by omega)]
  congr 1
  omega

theorem positiveInt_of_value (headers : List (Bytes × Bytes)) (name : Bytes) (n : ℤ)
    (hvalue : headerValues headers name = [decimalNat n.toNat]) (hpositive : 0 < n)
    (hbound : n < 2 ^ 63) : positiveIntHeader headers name = .ok n := by
  have hparse : parseInt64 (decimal n) = some n := by
    rw [Json.parseInt64_decimal, if_pos ⟨by omega, hbound⟩]
  unfold positiveIntHeader positiveHeader
  rw [hvalue, decimal_toNat hpositive]
  simp [hparse, hpositive, Option.filter]

theorem positiveUint_of_value (headers : List (Bytes × Bytes)) (name : Bytes) (n : ℕ)
    (hvalue : headerValues headers name = [decimalNat n]) (hpositive : n ≠ 0)
    (hbound : n < 2 ^ 64) : positiveUintHeader headers name = .ok n := by
  have hparse : parseUint64 (decimalNat n) = some n := by
    rw [Json.parseUint64_decimalNat, if_pos hbound]
  unfold positiveUintHeader positiveHeader
  rw [hvalue]
  simp [hparse, hpositive, Option.filter]

theorem edgeSubject_eq (sha256 : Bytes → Bytes) (id : EdgeIdentity) :
    edgeSubject sha256 id.tenantID id.edgeID id.generation.toNat = edgeDeliverySubject sha256 id := by
  unfold edgeSubject edgeDeliverySubject
  simp [Destination.text]

theorem EdgeReady.decoded (h : EdgeReady o d) (hrange : Bigint d) (c : JournalConsumer)
    (hedge : c.identity.key = d.log) {n : ℕ} (hn : n ≠ 0) :
    let m := edgeMessage c.store.sha256 o d
    c.delivery ⟨some (streamName, n), m.subject, m.data, m.headers⟩ =
      .ok { c.reconciled d.delivery with stream := streamName, sequence := n } := by
  intro m
  have htenant : c.identity.tenantID = d.tenantID := congrArg Prod.fst hedge
  have hid : c.identity.edgeID = d.edgeID := congrArg (fun g => g.2.1) hedge
  have hgeneration : c.identity.generation = d.edgeGeneration := congrArg (fun g => g.2.2) hedge
  have hsubject : m.subject = edgeDeliverySubject c.store.sha256 c.identity := by
    rw [← edgeSubject_eq, htenant, hid, hgeneration]
    rfl
  have hnot : d.raw ≠ [] := h.complete.raw
  have hrevision : 0 < d.authorityRevision := h.complete.authorityRevision
  have hbound := hrange.revision
  refine orFail_bind_eq_ok.mpr ⟨_, rfl, ?_⟩
  refine ensure_bind_eq_ok.mpr ⟨?_, ?_⟩
  · simpa [m, edgeMessage, hn, hnot, h.size] using hsubject
  refine ensure_bind_eq_ok.mpr ⟨?_, ?_⟩
  · have houtbox : headerValues m.headers headerOutboxID = [o.outboxID] := rfl
    simpa [houtbox] using h.named
  have hfact := positiveUint_of_value m.headers headerFactSequence d.authorityRevision.toNat rfl
    (by omega) (by omega)
  have hsequence := positiveInt_of_value m.headers headerDeliverySequence d.deliverySequence rfl
    h.sequence hrange.sequence
  have hgenerations := positiveInt_of_value m.headers headerEdgeGeneration d.edgeGeneration rfl
    h.address.generation hrange.generation
  refine bind_eq_ok.mpr ⟨_, hfact, ?_⟩
  refine bind_eq_ok.mpr ⟨_, hsequence, ?_⟩
  refine bind_eq_ok.mpr ⟨_, hgenerations, ?_⟩
  rw [hsubject, ← hgeneration]
  rfl

end Stream

/-! ### Through the reconciler -/

theorem convert_eq (c : JournalConsumer) {expected : ℤ} {es : List EdgeDelivery}
    {ds : List JournalDelivery} (h : c.convert expected es = .ok ds) : ds = es.map c.reconciled := by
  induction es generalizing expected ds with
  | nil =>
    cases h
    rfl
  | cons e es ih =>
    unfold JournalConsumer.convert at h
    obtain ⟨-, h⟩ := ensure_bind_eq_ok.mp h
    obtain ⟨rest, hrest, h⟩ := bind_eq_ok.mp h
    cases h
    rw [ih hrest]
    rfl

def ServedBy (source : DeliverySource) (g : Generation) (db : Authority.Database) : Prop :=
  ∀ after limit page, source g after limit = some page →
    ∃ q, q.log = g ∧ listEdgeDeliveries q db = .ok page

theorem fetchAfter_rows {c : JournalConsumer} {source : DeliverySource} {db : Authority.Database}
    (hsource : ServedBy source c.identity.key db) {after : ℤ} {batch : ReconcileBatch}
    (h : c.fetchAfter source after = .ok batch) {x : JournalDelivery} (hx : x ∈ batch.deliveries) :
    ∃ r ∈ db.deliveries, r.log = c.identity.key ∧ x = c.reconciled r.delivery := by
  unfold JournalConsumer.fetchAfter at h
  obtain ⟨-, h⟩ := ensure_bind_eq_ok.mp h
  obtain ⟨page, hpage, h⟩ := orFail_bind_eq_ok.mp h
  obtain ⟨-, h⟩ := ensure_bind_eq_ok.mp h
  obtain ⟨ds, hds, h⟩ := bind_eq_ok.mp h
  cases h
  obtain ⟨q, hlog, hlist⟩ := hsource _ _ _ hpage
  unfold listEdgeDeliveries at hlist
  obtain ⟨-, -, hlist⟩ := bind_eq_ok.mp hlist
  obtain ⟨-, -, hlist⟩ := bind_eq_ok.mp hlist
  cases hlist
  rw [convert_eq c hds] at hx
  obtain ⟨e, he, rfl⟩ := List.mem_map.mp hx
  obtain ⟨r, hr, rfl⟩ := List.mem_map.mp (mem_deliveryPage he)
  obtain ⟨hmem, hown⟩ := List.mem_filter.mp hr
  exact ⟨r, hmem, (of_decide_eq_true hown).trans hlog, rfl⟩

theorem row_unique {store : Store} {es es' history : List Authority.Event}
    (hes : es <+: history) (hes' : es' <+: history) {d r : Authority.DeliveryRow}
    (hd : d ∈ (store.run {} es).deliveries) (hr : r ∈ (store.run {} es').deliveries)
    (hkey : d.key = r.key) : d = r := by
  have hin : ∀ {xs : List Authority.Event} {x : Authority.DeliveryRow}, xs <+: history →
      x ∈ (store.run {} xs).deliveries → x ∈ (store.run {} history).deliveries := by
    intro xs x hprefix hx
    obtain ⟨later, rfl⟩ := hprefix
    rw [run_append]
    exact (run_grows store _ later).deliveries.subset hx
  exact (reachable_constrained store history).delivery.eq_of_key (hin hes hd)
    (hin hes' hr) hkey

/-! ### Seen twice -/

/-- Every journal row under the number of `y` is evidence of `y`. -/
def Matches (s : DB) (y : JournalDelivery) (db : Database) : Prop :=
  ∀ row ∈ db.deliveries, row.key = (y.identity, y.deliverySeq) → s.sameEvidence y row = true

section Journal

variable {s : DB} {y : JournalDelivery} {db db' : Database}

section
variable {o : ApplyOutcome} {steps : List JournalStep} {step : JournalStep}

theorem Matches.same {x : JournalDelivery} (h : Matches s y db) (hsame : x.Same y) :
    Matches s x db := by
  intro row hrow hkey
  rw [hsame.identity, hsame.deliverySeq] at hkey
  have hevidence := h row hrow hkey
  unfold DB.sameEvidence at hevidence ⊢
  rwa [hsame.raw, hsame.subject]

theorem applyTx_matched {verdict : Verdict} {reason : Bytes} {p : Option VerifiedProjection}
    {allow : Bool} (hmatch : Matches s y db) (hseq : Sequenced y.identity db)
    (hpositive : 0 < y.deliverySeq) (h : s.applyTx y verdict reason p allow db = .ok (db', o)) :
    o ≠ .identityConflict ∧
      (y.deliverySeq ≤ (deliveryState y.identity db).lastContiguousSeq → o = .duplicate) ∧
      (o ≠ .reconciliationRequired →
        y.deliverySeq ≤ (deliveryState y.identity db').lastContiguousSeq) := by
  have hfound := hseq.found_iff hpositive
  unfold DB.applyTx at h
  simp only at h
  split at h
  · rename_i hold
    obtain ⟨row, hrow⟩ := Option.isSome_iff_exists.mp (hfound.mpr hold)
    obtain ⟨hmem, hkey⟩ := Table.find_eq_some hrow
    simp only [hrow, hmatch row hmem hkey, if_true] at h
    cases h
    exact ⟨by simp, fun _ => rfl, fun _ => hold⟩
  · rename_i hnew
    -- beyond the last contiguous number there is no row
    have hnone : Table.find DeliveryRow.key (y.identity, y.deliverySeq) db.deliveries = none := by
      by_contra hsome
      exact hnew (hfound.mp (Option.ne_none_iff_isSome.mp hsome))
    split at h
    · cases h
      exact ⟨by simp, fun hold => absurd hold hnew, fun hne => absurd rfl hne⟩
    · simp only [hnone] at h
      obtain ⟨-, -, -, -, -, hstate⟩ :=
        recordDelivery_ok s y verdict reason p hpositive.le db db' o h
      refine ⟨(recordDelivery_quiet h).2, fun hold => absurd hold hnew, fun _ => ?_⟩
      rw [hstate]
      exact le_refl _

theorem Matches.call (hmatch : Matches s y db) (hseq : ∀ g, Sequenced g db) (step : JournalStep)
    (hown : ∀ x verdict reason p allow, step.call = .apply x verdict reason p allow →
      x.identity = y.identity → x.deliverySeq = y.deliverySeq → x.Same y) :
    Matches s y (s.call db step).1 := by
  rcases settle_db step.fate (fun db => step.call.work s db) db with hsame | ⟨o, hwork⟩
  · have hdb : (s.call db step).1 = db := hsame
    rw [hdb]
    exact hmatch
  have hkept : (s.call db step).1.deliveries = db.deliveries → Matches s y (s.call db step).1 := by
    intro hrows row hrow
    exact hmatch row (hrows ▸ hrow)
  change step.call.work s db = .ok ((s.call db step).1, o) at hwork
  generalize (s.call db step).1 = db' at hwork hkept ⊢
  cases hcall : step.call with
  | apply x verdict reason p allow =>
    rw [hcall] at hwork
    obtain ⟨⟨db₁, outcome⟩, happlied, h⟩ := bind_eq_ok.mp hwork
    cases h
    obtain ⟨hvalid, -, hcases⟩ := applyVerified_applied happlied
    have hpositive := validateDelivery_positive hvalid
    cases hcases with
    | duplicate => exact hmatch
    | halted why => exact hkept rfl
    | torn _ row there own sequence next =>
      have hle := (hseq x.identity).row_le there own
      omega
    | recorded _ _ next written =>
      obtain ⟨db₁, j, -, -, hrows, -⟩ :=
        recordDelivery_ok s x verdict reason p hpositive.le db _ outcome written
      intro row hrow hkey
      rw [hrows] at hrow
      rcases List.mem_append.mp hrow with hold | hnew
      · exact hmatch row hold hkey
      · cases List.mem_singleton.mp hnew
        have hsame := hown x verdict reason p allow hcall (congrArg Prod.fst hkey)
          (congrArg Prod.snd hkey)
        simp [DB.sameEvidence, DB.journalRow, hsame.raw, hsame.subject]
  | require =>
    rw [hcall] at hwork
    obtain ⟨⟨db₁, u⟩, hrequired, h⟩ := bind_eq_ok.mp hwork
    cases h
    refine hkept ?_
    rw [requireReconciliation_ok hrequired]
    rfl
  | complete =>
    rw [hcall] at hwork
    obtain ⟨⟨db₁, u⟩, hcompleted, h⟩ := bind_eq_ok.mp hwork
    cases h
    unfold completeReconciliation at hcompleted
    obtain ⟨-, hcompleted⟩ := ensure_bind_eq_ok.mp hcompleted
    obtain ⟨-, hcompleted⟩ := ensure_bind_eq_ok.mp hcompleted
    have hdb := congrArg Prod.fst (Except.ok.inj hcompleted)
    dsimp only at hdb
    refine hkept ?_
    rw [← hdb]

/-- The call applies `y`, or what agrees with it. -/
def JournalStep.applies (step : JournalStep) (y : JournalDelivery) : Prop :=
  ∃ x verdict reason p allow, step.call = .apply x verdict reason p allow ∧ x.Same y

/-- Under the number of `y` only `y` is ever applied. -/
def OnlyApplies (y : JournalDelivery) (steps : List JournalStep) : Prop :=
  ∀ step ∈ steps, ∀ x verdict reason p allow, step.call = .apply x verdict reason p allow →
    x.identity = y.identity → x.deliverySeq = y.deliverySeq → x.Same y

theorem calls_matched (hmatch : Matches s y db)
    (hseq : ∀ g, Sequenced g db) (honly : OnlyApplies y steps) : Matches s y (s.calls db steps) := by
  induction steps generalizing db with
  | nil => exact hmatch
  | cons step steps ih =>
    refine ih (hmatch.call hseq step (honly step List.mem_cons_self))
      (fun g => (hseq g).moved (call_moved hseq step g)) ?_
    exact fun step' hstep' => honly step' (List.mem_cons_of_mem _ hstep')

theorem calls_monotone (steps : List JournalStep) (hseq : ∀ g, Sequenced g db) (g : Generation) :
    (deliveryState g db).lastContiguousSeq ≤ (deliveryState g (s.calls db steps)).lastContiguousSeq := by
  induction steps generalizing db with
  | nil => exact le_refl _
  | cons step steps ih =>
    have hmoved := call_moved (s := s) hseq step
    exact (hmoved g).monotone.1.trans (ih fun g' => (hseq g').moved (hmoved g'))

theorem call_matched (hmatch : Matches s y db)
    (hseq : ∀ g, Sequenced g db) (happlies : step.applies y)
    (h : (s.call db step).2 = .ok (some o)) :
    o ≠ .identityConflict ∧
      (y.deliverySeq ≤ (deliveryState y.identity db).lastContiguousSeq → o = .duplicate) ∧
      (o ≠ .reconciliationRequired →
        y.deliverySeq ≤ (deliveryState y.identity (s.call db step).1).lastContiguousSeq) := by
  obtain ⟨x, verdict, reason, p, allow, hcall, hsame⟩ := happlies
  have hwork : step.call.work s db = .ok ((s.call db step).1, some o) :=
    settle_ok step.fate (fun db => step.call.work s db) db _ _ (Prod.ext rfl h)
  rw [hcall] at hwork
  obtain ⟨⟨db₁, outcome⟩, happlied, h⟩ := bind_eq_ok.mp hwork
  obtain ⟨hdb, houtcome⟩ := Prod.mk.inj (Except.ok.inj h)
  cases houtcome
  unfold DB.applyVerified at happlied
  obtain ⟨_, hvalid, happlied⟩ := bind_eq_ok.mp happlied
  obtain ⟨-, happlied⟩ := ensure_bind_eq_ok.mp happlied
  have hfacts := applyTx_matched (hmatch.same hsame) (hseq x.identity)
    (validateDelivery_positive hvalid) happlied
  rw [hsame.identity, hsame.deliverySeq] at hfacts
  exact hdb ▸ hfacts

theorem applied_again (honly : OnlyApplies y steps) (happlies : step.applies y)
    (h : (s.call (s.calls {} steps) step).2 = .ok (some o)) :
    o ≠ .identityConflict ∧
      ∀ earlier before later o', steps = earlier ++ before :: later → before.applies y →
        (s.call (s.calls {} earlier) before).2 = .ok (some o') → o' ≠ .reconciliationRequired →
        o = .duplicate := by
  have hempty : Matches s y {} := by
    intro row hrow
    cases hrow
  have hall := calls_sequenced s steps {} sequenced_empty
  have hfacts := call_matched (calls_matched hempty sequenced_empty honly) hall happlies h
  refine ⟨hfacts.1, ?_⟩
  intro earlier before later o' hsteps hbefore hanswer hrecorded
  refine hfacts.2.1 ?_
  have hearlier := calls_sequenced s earlier {} sequenced_empty
  have honly' : OnlyApplies y earlier := by
    intro step' hstep'
    exact honly step' (hsteps ▸ List.mem_append_left _ hstep')
  have hfirst := call_matched (calls_matched hempty sequenced_empty honly') hearlier hbefore hanswer
  have hafter := hfirst.2.2 hrecorded
  have hstate : s.calls {} steps = s.calls (s.call (s.calls {} earlier) before).1 later := by
    rw [hsteps]
    simp only [DB.calls, List.foldl_append, List.foldl_cons]
  rw [hstate]
  exact hafter.trans (calls_monotone later
    (fun g => (hearlier g).moved (call_moved hearlier before g)) y.identity)

end

end Journal

/-! ### Both ways -/

/-- Every outbox row of a reachable state is turned into a request. For an edge,
subject and headers carry the delivery row to the consumer, which builds the same
delivery from the message as from the authority's log, whenever that is read; and
however often the journal is offered the delivery, it sees a duplicate and no
conflict. -/
theorem live_and_recovery_agree (sha256 : Bytes → Bytes) (store : Store)
    (es : List Authority.Event) (o : Authority.OutboxRow) (ho : o ∈ (store.run {} es).outbox)
    (hsize : o.raw.length ≤ maxEnvelopeBytes) (token : Bytes) (htoken : token ≠ []) :
    ∃ request, publishRequest sha256 (claimedItem (store.run {} es) o token) = .ok request ∧
      (o.destinationKind = .edgeDelivery →
        ∃ d ∈ (store.run {} es).deliveries, d.tenantID = o.tenantID ∧
          d.authorityRevision = o.authorityRevision ∧
          ∀ c : JournalConsumer, c.store.sha256 = sha256 → c.identity.key = d.log → Bigint d →
            subjectFor sha256 request = .ok (edgeDeliverySubject sha256 c.identity) ∧
            ∃ m, publish sha256 request = .ok m ∧ ∀ n ≠ 0, ∃ live,
              c.delivery ⟨some (streamName, n), m.subject, m.data, m.headers⟩ = .ok live ∧
              live.deliverySeq = d.deliverySequence ∧ live.edgeGeneration = d.edgeGeneration ∧
              -- from the log, read before or after
              (∀ es' history source after batch, es <+: history → es' <+: history →
                ServedBy source c.identity.key (store.run {} es') →
                c.fetchAfter source after = .ok batch →
                ∀ x ∈ batch.deliveries, x.deliverySeq = d.deliverySequence → x.Same live) ∧
              -- in the journal
              ∀ steps step outcome, OnlyApplies live steps → step.applies live →
                (c.store.call (c.store.calls {} steps) step).2 = .ok (some outcome) →
                outcome ≠ .identityConflict ∧
                ∀ earlier before later o', steps = earlier ++ before :: later →
                  before.applies live →
                  (c.store.call (c.store.calls {} earlier) before).2 = .ok (some o') →
                  o' ≠ .reconciliationRequired → outcome = .duplicate) := by
  cases outbox_publishable sha256 ho hsize htoken with
  | domain row kind request =>
    refine ⟨_, request, ?_⟩
    intro hedge
    rw [kind] at hedge
    cases hedge
  | edge d kind mem tenant revision ready request =>
    refine ⟨_, request, fun _ => ⟨d, mem, tenant, revision, ?_⟩⟩
    intro c hsha hedge hrange
    subst hsha
    have htenant : c.identity.tenantID = d.tenantID := congrArg Prod.fst hedge
    have hid : c.identity.edgeID = d.edgeID := congrArg (fun g => g.2.1) hedge
    have hgeneration : c.identity.generation = d.edgeGeneration := congrArg (fun g => g.2.2) hedge
    refine ⟨?_, _, EdgeReady.publish ready _, ?_⟩
    · rw [ready.subject, ← edgeSubject_eq, htenant, hid, hgeneration]
    intro n hn
    refine ⟨_, EdgeReady.decoded ready hrange c hedge hn, rfl, hgeneration, ?_, ?_⟩
    · intro es' history source after batch hes hes' hsource hfetch x hx hnumber
      obtain ⟨r, hr, hlog, rfl⟩ := fetchAfter_rows hsource hfetch hx
      have hkey : d.key = r.key := Prod.ext (hedge.symm.trans hlog.symm) hnumber.symm
      have hrow := row_unique hes hes' mem hr hkey
      subst hrow
      exact ⟨rfl, rfl, rfl, rfl, rfl, rfl⟩
    · intro steps step outcome honly happlies hanswer
      exact applied_again honly happlies hanswer

namespace Sample

def announcedStore : Store := Authority.Sample.store

def announcements : List Authority.Event :=
  [Authority.Sample.adoption, Authority.Sample.admission 1000]

def listener : JournalConsumer where
  store := ⟨[116], announcedStore.sha256⟩
  identity := ⟨[116], [101], 1, by decide, by decide, by decide⟩
  limit := 10
  bounded := by decide

end Sample

theorem live_and_recovery_agree_sample :
    ∃ o ∈ (Sample.announcedStore.run {} Sample.announcements).outbox,
      o.destinationKind = .edgeDelivery ∧ ∃ request m live,
        publish Sample.announcedStore.sha256 request = .ok m ∧
          Sample.listener.delivery ⟨some (streamName, 1), m.subject, m.data, m.headers⟩ = .ok live ∧
          live.deliverySeq = 1 := by
  have hany : (Sample.announcedStore.run {} Sample.announcements).outbox.any (fun o =>
      o.destinationKind == .edgeDelivery && o.raw.length ≤ maxEnvelopeBytes) = true := by
    decide +kernel
  have hrows : ∀ d ∈ (Sample.announcedStore.run {} Sample.announcements).deliveries,
      d.log = ([116], [101], 1) ∧ d.deliverySequence = 1 ∧ d.authorityRevision = 2 := by
    decide +kernel
  obtain ⟨o, ho, hedge⟩ := List.any_eq_true.mp hany
  simp only [Bool.and_eq_true, beq_iff_eq, decide_eq_true_eq] at hedge
  obtain ⟨request, -, hrest⟩ := live_and_recovery_agree Sample.announcedStore.sha256
    Sample.announcedStore Sample.announcements o ho hedge.2 [120] (by decide)
  obtain ⟨d, hd, -, -, hconsumer⟩ := hrest hedge.1
  obtain ⟨hlog, hsequence, hrevision⟩ := hrows d hd
  have hgeneration : d.edgeGeneration = 1 := congrArg (fun g => g.2.2) hlog
  obtain ⟨-, m, hm, hlive⟩ := hconsumer Sample.listener rfl hlog.symm
    ⟨by omega, by omega, by omega⟩
  obtain ⟨live, hdecoded, hnumber, -⟩ := hlive 1 (by decide)
  exact ⟨o, ho, hedge.1, request, m, live, hm, hdecoded, hnumber.trans hsequence⟩

end Snagline.Edge
