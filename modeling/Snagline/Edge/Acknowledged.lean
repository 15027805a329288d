import Snagline.Edge.Effects

/-!
# An acknowledged delivery is never lost

HandleNext acknowledges a message after Handle has returned, also when what
Handle committed was a halt. From then on the generation has either come as far
as the message's sequence, or is durably waiting for a reconciliation that will.
Nothing is asked of the verifier or of the authority here.
-/

namespace Snagline.Edge
open Kit Ssp Delivery

section
variable (c : JournalConsumer) (r : StateRow) {w : World}

/-- The state answers for sequence `n`. -/
def StateRow.Covers (r : StateRow) (n : ℤ) : Prop :=
  n ≤ r.lastContiguousSeq ∨ (r.mode = .reconciliationRequired ∧ n ≤ r.highWatermark)

theorem covers_require (observed : ℤ) (reason : Bytes) (n : ℤ)
    (h : r.Covers n ∨ n ≤ observed) : (r.require observed reason).Covers n := by
  rcases h with (hlast | ⟨-, hhigh⟩) | hobserved
  · exact .inl hlast
  · exact .inr ⟨rfl, hhigh.trans (le_max_left _ _)⟩
  · exact .inr ⟨rfl, hobserved.trans (le_max_right _ _)⟩

theorem covers_advance (seq n : ℤ) (hseq : r.lastContiguousSeq ≤ seq)
    (h : r.Covers n ∨ n ≤ seq) : (r.advance seq).Covers n := by
  rcases h with (hlast | ⟨hmode, hhigh⟩) | hnew
  · exact .inl (hlast.trans hseq)
  · exact .inr ⟨hmode, hhigh.trans (le_max_left _ _)⟩
  · exact .inl hnew

/-- No journal row is ahead of the state. A row that were would be taken for a
duplicate, and its message acknowledged, with the state still behind it. -/
def Bounded (c : JournalConsumer) (db : Database) : Prop :=
  ∀ row ∈ db.deliveries, row.identity = c.identity.key →
    row.deliverySeq ≤ (deliveryState c.identity.key db).lastContiguousSeq

theorem applied_covers (db db' : Database) (h : Bounded c db)
    (d : JournalDelivery) (hid : d.identity = c.identity.key) (hpos : 0 < d.deliverySeq)
    (verdict : Verdict) (reason : Bytes) (p : Option VerifiedProjection) (outcome : ApplyOutcome)
    (happlied : Applied c.store d verdict reason p db db' outcome) :
    Bounded c db' ∧ ∀ n, (deliveryState c.identity.key db).Covers n ∨ n ≤ d.deliverySeq →
      (deliveryState c.identity.key db').Covers n := by
  cases happlied with
  | duplicate old =>
    rw [hid] at old
    refine ⟨h, ?_⟩
    intro n hn
    rcases hn with hn | hn
    · exact hn
    · exact .inl (hn.trans old)
  | halted =>
    rw [hid]
    refine ⟨?_, ?_⟩
    · intro row hrow hown
      rw [deliveryState_require]
      exact h row hrow hown
    · intro n hn
      rw [deliveryState_require]
      exact covers_require _ _ _ n hn
  | torn _ row there own sequence next =>
    have hle := h row there (own.trans hid)
    rw [hid] at next
    omega
  | recorded _ _ next written =>
    obtain ⟨_, j, -, -, hrows, hstate⟩ :=
      recordDelivery_ok c.store d verdict reason p hpos.le db db' outcome written
    rw [hid] at hstate next
    refine ⟨?_, ?_⟩
    · intro row hrow hown
      rw [hstate]
      show row.deliverySeq ≤ d.deliverySeq
      rw [hrows] at hrow
      rcases List.mem_append.mp hrow with hold | hnew
      · have hle := h row hold hown
        omega
      · rw [List.mem_singleton.mp hnew]
        exact le_refl d.deliverySeq
    · intro n hn
      rw [hstate]
      exact covers_advance _ d.deliverySeq n (by omega) hn

def Guarded (c : JournalConsumer) (n : ℤ) (db : Database) : Prop :=
  Bounded c db ∧ (deliveryState c.identity.key db).Covers n

theorem guarded_move (n : ℤ) (db db' : Database)
    (hmove : Move c (fun _ => True) (fun _ => True) db db') (h : Guarded c n db) : Guarded c n db' := by
  obtain ⟨hbound, hcovers⟩ := h
  cases hmove with
  | apply turn _ d own verdict reason p judged allow _ outcome applied =>
    obtain ⟨-, -, happlied⟩ :=
      applyVerified_applied applied
    obtain ⟨hbound', hcovers'⟩ := applied_covers c db db' hbound d own.identity own.positive verdict
      reason p outcome happlied
    exact ⟨hbound', hcovers' n (.inl hcovers)⟩
  | require =>
    refine ⟨?_, ?_⟩
    · intro row hrow hown
      rw [deliveryState_require]
      exact hbound row hrow hown
    · rw [deliveryState_require]
      exact covers_require _ _ _ n (.inl hcovers)
  | complete through high _ completed =>
    obtain ⟨hlast, hhigh, hmode, hrows, -⟩ :=
      completeReconciliation_ok c.identity through high db db' completed
    refine ⟨?_, ?_⟩
    · intro row hrow hown
      rw [hlast]
      exact hbound row (hrows ▸ hrow) hown
    · unfold StateRow.Covers at hcovers ⊢
      rw [hlast, hhigh]
      rcases hcovers with hn | ⟨hrequired, hn⟩
      · exact .inl hn
      · rcases hmode with hkept | hreached
        · exact .inr ⟨hkept.trans hrequired, hn⟩
        · exact .inl (by omega)
  | fronts => exact ⟨hbound, hcovers⟩

theorem handle_covers (turn : Turn) (m : CarrierMessage) (node node' : Node)
    (outcome : ApplyOutcome) (hbound : Bounded c node.db)
    (h : c.handle turn m node = (node', .ok outcome)) (d : JournalDelivery)
    (hd : c.delivery m = .ok d) (hid : d.identity = c.identity.key) :
    (deliveryState c.identity.key node'.db).Covers d.deliverySeq := by
  unfold JournalConsumer.handle at h
  split at h
  · cases h
  · rw [hd] at h
    dsimp only at h
    unfold JournalConsumer.handleDelivery at h
    split at h
    · cases h
    · rename_i hseq
      rw [if_neg (not_not.mpr hid)] at h
      split at h
      · cases h
      · rename_i db' o happly
        cases h
        unfold JournalConsumer.apply at happly
        split at happly
        · cases happly
        · rename_i verdict reason p hjudged
          cases hsettle : turn.fate.settle (c.store.applyVerified d verdict reason p false) node.db with
          | mk db₁ result =>
            rw [hsettle] at happly
            cases result with
            | error e => cases happly
            | ok o' =>
              cases happly
              have hwork := settle_ok turn.fate _ node.db _ _ hsettle
              obtain ⟨-, -, happlied⟩ :=
                applyVerified_applied hwork
              exact (applied_covers c node.db _ hbound d hid (by omega) verdict reason p _
                happlied).2 d.deliverySeq (.inr (le_refl _))

theorem handleNext_acknowledged (fetch : Fetch) (turn : Turn)
    (nakFails : Bool) (ack : AckFate) (node : Node) (m : CarrierMessage)
    (h : (c.handleNext fetch turn nakFails ack node).acknowledged = some m) :
    ∃ outcome, c.handle turn m node =
      ((c.handleNext fetch turn nakFails ack node).node, .ok outcome) := by
  unfold JournalConsumer.handleNext at h ⊢
  split at h
  · cases h
  · rename_i hrunning
    rw [if_neg hrunning]
    cases fetch with
    | failed | timeout => cases h
    | message m' =>
      dsimp only at h ⊢
      cases hr : c.handle turn m' node with
      | mk node' result =>
        rw [hr] at h
        cases result with
        | error e =>
          dsimp only at h
          split at h
          · cases h
          · split at h <;> cases h
        | ok outcome =>
          cases ack with
          | confirmed =>
            cases h
            exact ⟨outcome, hr⟩
          | unconfirmed =>
            cases h
            exact ⟨outcome, hr⟩
          | failed => cases h

def Kept (c : JournalConsumer) (w : World) : Prop :=
  Bounded c w.node.db ∧ ∀ m ∈ w.acknowledged, ∀ d, c.delivery m = .ok d →
    d.identity = c.identity.key → (deliveryState c.identity.key w.node.db).Covers d.deliverySeq

theorem bounded_step (w : World) (e : Event) (h : Bounded c w.node.db) :
    Bounded c (c.step w e).node.db :=
  (step_keeps (guarded_move c _) w e (fun _ _ => trivial) (fun _ _ => trivial)
    ⟨h, .inl (le_refl (deliveryState c.identity.key w.node.db).lastContiguousSeq)⟩).1

theorem Kept.step {c : JournalConsumer} (h : Kept c w) (e : Event) :
    Kept c (c.step w e) := by
  obtain ⟨hbound, hcovered⟩ := h
  refine ⟨bounded_step c w e hbound, ?_⟩
  intro m hm d hd hid
  -- what was acknowledged before stays covered
  have hold : m ∈ w.acknowledged →
      (deliveryState c.identity.key (c.step w e).node.db).Covers d.deliverySeq := by
    intro hm
    exact (step_keeps (guarded_move c d.deliverySeq) w e (fun _ _ => trivial) (fun _ _ => trivial)
      ⟨hbound, hcovered m hm d hd hid⟩).2
  cases e with
  | handleNext fetch turn nakFails ack =>
    rcases List.mem_append.mp hm with hbefore | hnew
    · exact hold hbefore
    · have hack := Option.mem_toList.mp hnew
      obtain ⟨outcome, hhandle⟩ :=
        handleNext_acknowledged c fetch turn nakFails ack w.node m hack
      exact handle_covers c turn m w.node _ outcome hbound hhandle d hd hid
  | reconcile | reconcileAuthoritative | restart | fronts => exact hold hm

theorem Kept.run {c : JournalConsumer} (h : Kept c w) (es : List Event) :
    Kept c (c.run w es) := by
  induction es generalizing w with
  | nil => exact h
  | cons e es ih => exact ih (h.step e)

theorem kept_initial : Kept c {} := by
  refine ⟨?_, ?_⟩
  · intro row hrow
    cases hrow
  · intro m hm
    cases hm

/-- No acknowledged delivery is lost. Once the broker holds a message of the
consumer's generation as acknowledged, then at that point and after everything
that follows the persisted state has come to its sequence, or requires a
reconciliation through at least its sequence. -/
theorem acknowledged_never_lost (c : JournalConsumer) (es later : List Event) (m : CarrierMessage)
    (hm : m ∈ (c.run {} es).acknowledged) (d : JournalDelivery) (hd : c.delivery m = .ok d)
    (hid : d.identity = c.identity.key) :
    let state := deliveryState c.identity.key (c.run (c.run {} es) later).node.db
    d.deliverySeq ≤ state.lastContiguousSeq ∨
      (state.mode = .reconciliationRequired ∧ d.deliverySeq ≤ state.highWatermark) := by
  intro state
  have hkept := (kept_initial c).run es
  have hthen : Guarded c d.deliverySeq (c.run (c.run {} es) later).node.db :=
    run_keeps (guarded_move c d.deliverySeq) later (c.run {} es) (fun _ _ _ _ => trivial)
      (fun _ _ _ _ => trivial)
      ⟨hkept.1, hkept.2 m hm d hd hid⟩
  exact hthen.2

end

/-! ### A message ahead of its turn -/

namespace Sample

def sha256 (bs : Bytes) : Bytes := (bs ++ List.replicate 32 0).take 32

namespace Ahead

def identity : EdgeIdentity :=
  ⟨[117], [102], 3, List.cons_ne_nil _ _, List.cons_ne_nil _ _, by omega⟩

def consumer : JournalConsumer := ⟨⟨[117], sha256⟩, identity, 5, by omega⟩

def message : CarrierMessage :=
  ⟨some (streamName, 1), edgeDeliverySubject sha256 identity, [7],
    [(headerOutboxID, [111]), (headerFactSequence, [49]), (headerDeliverySequence, [50]),
      (headerEdgeGeneration, [51])]⟩

def delivery : JournalDelivery := ⟨streamName, 1, 2, [117], [102], 3, message.subject, [7]⟩

/-- The second delivery comes first; its acknowledgement arrives, its
confirmation does not, and the process restarts. -/
def events : List Event :=
  [.handleNext (.message message) ⟨fun _ => .error (.permanent [114]), .done⟩ false .unconfirmed,
    .restart]

end Ahead

end Sample

theorem acknowledged_never_lost_ahead :
    let state := deliveryState Sample.Ahead.identity.key
      (Sample.Ahead.consumer.run (Sample.Ahead.consumer.run {} Sample.Ahead.events) []).node.db
    2 ≤ state.lastContiguousSeq ∨
      (state.mode = .reconciliationRequired ∧ 2 ≤ state.highWatermark) :=
  acknowledged_never_lost Sample.Ahead.consumer Sample.Ahead.events [] Sample.Ahead.message (by decide +kernel)
    Sample.Ahead.delivery (by decide +kernel) rfl

end Snagline.Edge
